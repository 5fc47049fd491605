import UrlRouting.CommandLine.Option

/-! How the command line is described: a usage text wrapped to the width of a terminal, and help. -/
namespace UrlRouting.CommandLine.Usage

/-- Lines are kept two columns short of the width of a terminal. -/
def lineWidth : Nat := 78

/-- The options, in brackets. -/
def optionParts : List String :=
  OptionKind.all.map fun k => "[" ++ (k.spellings.headD "") ++ k.argument ++ "]"

def positionalParts : List String := ["application", "[path]"]

/-- Distributes parts over lines, the first of which has `used` columns already taken. -/
def wrap (indent : Nat) : (used : Nat) → (line : List String) → List String → List (List String)
  | _, line, [] => [line]
  | used, line, part :: rest =>
    if lineWidth < used + 1 + part.length && !line.isEmpty then
      line :: wrap indent (indent + part.length) [part] rest
    else wrap indent (used + 1 + part.length) (line ++ [part]) rest

/-- The lines of the usage text: the options behind the program's name, and then the others. -/
def text (program : String) : String :=
  let opening := "usage: "
  let indent := opening.length + program.length + 1
  let margin := "".pushn ' ' indent
  let options := wrap indent (opening.length + program.length) [program] optionParts
  let others := wrap indent (indent - 1) [] positionalParts
  let spaced (lines : List (List String)) : List String := lines.map (" ".intercalate ·)
  let joined := (spaced options ++ spaced others).mapIdx fun i line =>
    if i = 0 then opening ++ line else margin ++ line
  "\n".intercalate joined ++ "\n"

/-- An option with its spellings, and what it is for. -/
def optionLine (k : OptionKind) : String :=
  let spellings := ", ".intercalate (k.spellings.map (· ++ k.argument))
  match k with
  | .help => "  " ++ spellings ++ "            show this help message and exit"
  | _ => "  " ++ spellings

def help (program : String) : String :=
  text program ++ "\nMatch a path or reverse route values.\n\npositional arguments:\n"
    ++ "  application\n  path\n\noptions:\n"
    ++ "\n".intercalate (OptionKind.all.map optionLine) ++ "\n"

/-- The usage text and what was wrong. -/
def complaint (program : String) (m : Misuse) : String :=
  text program ++ program ++ ": error: " ++ m.message ++ "\n"

/-- The name of the program, by the path that it was started with. -/
def programName (startedAs : String) : String :=
  if startedAs.endsWith "__main__.py" then "python -m signpost" else "signpost"

end UrlRouting.CommandLine.Usage
