import UrlRouting.CommandLine.Word

/-! What a command line asks for. The first argument that belongs to no option names the router,
and only an argument right behind it is the path. -/
namespace UrlRouting.CommandLine

structure Request where
  application : String
  path : Option String
  method : Option String
  /-- Pairs of keys and values to reverse. -/
  reverse : List String
  verbose : Bool
  deriving DecidableEq, Repr

/-- What the command line comes to. -/
inductive Demand
  | request (r : Request)
  | help
  | misuse (m : Misuse)
  deriving DecidableEq, Repr

/-- What the use of an option says. -/
inductive Setting
  | help
  | verbose
  | method (name : String)
  | reverse (pairs : List String)
  deriving DecidableEq, Repr

/-- What has been read so far. -/
structure Progress where
  positionals : Option (String × Option String)
  method : Option String
  reverse : List String
  verbose : Bool
  /-- Words that nothing asked for. -/
  extras : List String

namespace Progress

def start : Progress := ⟨none, none, [], false, []⟩

def addExtras (p : Progress) (words : List Word) : Progress :=
  { p with extras := p.extras ++ words.map Word.text }

/-- Applies settings in order. Help ends it all. -/
def apply : Progress → List Setting → Option Progress
  | p, [] => some p
  | _, .help :: _ => none
  | p, .verbose :: rest => apply { p with verbose := true } rest
  | p, .method name :: rest => apply { p with method := some name } rest
  | p, .reverse pairs :: rest => apply { p with reverse := pairs } rest

/-- Takes the router and the path, if the words begin with them and they are still missing. -/
def takePositionals (p : Progress) (words : List Word) : Progress × List Word :=
  match p.positionals, words.dropWhile Word.isSeparator with
  | none, .argument application :: rest =>
    match rest.dropWhile Word.isSeparator with
    | .argument path :: rest =>
      let path := if path = "--" then none else some path
      ({ p with positionals := some (application, path) }, rest.dropWhile Word.isSeparator)
    | rest => ({ p with positionals := some (application, none) }, rest)
  | _, _ => (p, words)

end Progress

/-- An option with arguments, or without if it takes none. -/
def settingOf (kind : OptionKind) (arguments : List String) : Setting :=
  match kind with
  | .help => .help
  | .verbose => .verbose
  | .method => .method (arguments.headD "")
  | .reverse => .reverse arguments

/-- The arguments at the head of some words. -/
def leadingArguments : List Word → List String
  | .argument s :: rest => s :: leadingArguments rest
  | _ => []

/-- An option whose arguments are the words after it, and the words after those. -/
def settingBefore (kind : OptionKind) (rest : List Word) : Except Misuse (Setting × List Word) :=
  let arguments := leadingArguments rest
  match kind.arity, arguments with
  | .none, _ => .ok (settingOf kind [], rest)
  | .one, [] => .error (.expectedOne kind)
  | .one, a :: _ => .ok (settingOf kind [a], rest.drop 1)
  | .several, [] => .error (.expectedSeveral kind)
  | .several, as => .ok (settingOf kind as, rest.drop as.length)

/-- The settings of a word, the texts in it that are no option, and the words after its
arguments. -/
structure Reading where
  settings : List Setting
  extras : List String
  rest : List Word

/-- Reads an option with the characters after it in its word. After a short option without
arguments they are further short options. -/
def readUse (kind : OptionKind) (long afterEquals : Bool) (rest : List Word) :
    List Char → Except Misuse Reading
  | [] =>
    if kind.arity = .none then .error (.ignoredArgument kind "")
    else .ok ⟨[settingOf kind [""]], [], rest⟩
  | c :: cs =>
    if kind.arity ≠ .none then .ok ⟨[settingOf kind [String.ofList (c :: cs)]], [], rest⟩
    else if long || afterEquals || c = '-' then
      .error (.ignoredArgument kind (String.ofList (c :: cs)))
    else do
      let more ← match OptionKind.table.lookup (String.ofList ['-', c]) with
        | none => .ok ⟨[], [String.ofList ('-' :: c :: cs)], rest⟩
        | some next => match cs with
          | [] => do
            let (s, rest) ← settingBefore next rest
            .ok ⟨[s], [], rest⟩
          | '=' :: cs => readUse next false true rest cs
          | c :: cs => readUse next false false rest (c :: cs)
      return { more with settings := settingOf kind [] :: more.settings }

def readOption (use : OptionUse) (rest : List Word) : Except Misuse Reading :=
  match use.argument with
  | some cs => readUse use.kind use.long use.afterEquals rest cs
  | none => do
    let (s, rest) ← settingBefore use.kind rest
    return ⟨[s], [], rest⟩

/-- The request, when all words have been read. -/
def Progress.finish (p : Progress) : Demand :=
  match p.positionals with
  | none => .misuse .missingApplication
  | some (application, path) =>
    if p.extras.isEmpty then .request ⟨application, path, p.method, p.reverse, p.verbose⟩
    else .misuse (.unrecognized p.extras)

/-- Reads words. Each round uses up one word at least, so that their number bounds the rounds. -/
def readWords : (fuel : Nat) → Progress → List Word → Demand
  | 0, p, _ => p.finish
  | fuel + 1, p, words =>
    if !words.any Word.isOption then
      let (p, rest) := p.takePositionals words
      (p.addExtras rest).finish
    else match words with
      | [] => p.finish
      | .option _ use :: rest => match readOption use rest with
        | .error m => .misuse m
        | .ok r => match p.apply r.settings with
          | none => .help
          | some p => readWords fuel { p with extras := p.extras ++ r.extras } r.rest
      | .unknown s :: rest => readWords fuel { p with extras := p.extras ++ [s] } rest
      | words =>
        let (q, rest) := p.takePositionals words
        if rest.length < words.length then readWords fuel q rest
        else
          let (skipped, rest) := words.span (!·.isOption)
          readWords fuel (p.addExtras skipped) rest

/-- Reads the words after the program's name. -/
def Demand.ofTexts (texts : List String) : Demand :=
  match Word.ofTexts texts with
  | .error m => .misuse m
  | .ok words => readWords (words.length + 1) .start words

end UrlRouting.CommandLine
