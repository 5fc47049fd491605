import Mathlib.Data.List.Permutation
import UrlRouting.Pattern.PathMatcher
import UrlRouting.Proofs.Expression.Compiled
import UrlRouting.Proofs.Expression.Literal

/-! The expression of a pattern: what its segments become, one after the other. -/
namespace UrlRouting.PathMatcher

open Expression Expression.Reading Expression.Source

variable {ignoreCase : Bool} {i j : Nat} {s : Segment} {segments : List (Segment × Nat)}
  {g g' : GroupTable} {ns : List Node} {a : Reading} {rest : List Token} {text : List Char}

/-! ### The names of the groups -/

theorem toList_groupName (i : Nat) : (groupName i).toList = '_' :: 's' :: Nat.toDigits 10 i := by
  simp [groupName]

theorem groupName_injective : Function.Injective groupName := by
  intro i j h
  have hdigits : Nat.toDigits 10 i = Nat.toDigits 10 j := by
    have := congrArg String.toList h
    simpa only [toList_groupName, List.cons.injEq, true_and] using this
  rw [← Nat.ofDigitChars_ten_toDigits (n := i), hdigits, Nat.ofDigitChars_ten_toDigits]

theorem groupName_ne_tailName (i : Nat) : groupName i ≠ tailName := by
  intro h
  have := congrArg String.toList h
  rw [toList_groupName] at this
  simp [tailName] at this

theorem isDigit_of_mem_groupName {c : Char} (h : c ∈ (groupName i).toList) :
    c = '_' ∨ c = 's' ∨ c.isDigit := by
  rw [toList_groupName, List.mem_cons, List.mem_cons] at h
  rcases h with h | h | h
  · exact .inl h
  · exact .inr (.inl h)
  · exact .inr (.inr (Nat.isDigit_of_mem_toDigits (by decide) (by decide) h))

theorem not_mem_groupName {c : Char} (hu : c ≠ '_') (hs : c ≠ 's') (hd : c.isDigit = false) :
    c ∉ (groupName i).toList := by
  intro h
  rcases isDigit_of_mem_groupName h with rfl | rfl | h
  · exact hu rfl
  · exact hs rfl
  · simp [hd] at h

theorem isDecimal_of_isDigit {c : Char} (h : c.isDigit) : Text.isDecimal c.toNat := by
  have hc : 48 ≤ c.toNat ∧ c.toNat ≤ 57 := by
    simpa [Char.isDigit, UInt32.le_iff_toNat_le] using h
  have hlt : c.toNat < 128 := by omega
  simp [Text.isDecimal, Text.isAsciiDecimal, hc, hlt]

theorem isIdentifier_groupName (i : Nat) : Text.isIdentifier (groupName i).toList := by
  rw [toList_groupName]
  simp only [Text.isIdentifier, Bool.and_eq_true, List.all_eq_true]
  refine ⟨by decide, fun c hc => ?_⟩
  rcases List.mem_cons.1 hc with rfl | hc
  · decide
  · have hd := Nat.isDigit_of_mem_toDigits (by decide) (by decide) hc
    simp [Text.continuesIdentifier, isDecimal_of_isDigit hd]

/-! ### Segments -/

def slash : Node := .char (.literal 47 false .exact)

/-- What segments become, from one table of groups to another. -/
inductive Laid (ignoreCase : Bool) :
    List (Segment × Nat) → GroupTable → List Node → GroupTable → Prop
  | nil (g : GroupTable) : Laid ignoreCase [] g [] g
  | exact {s : Segment} {i : Nat} {segments : List (Segment × Nat)} {g g' : GroupTable}
      {ns : List Node} (hs : s.isNamed = false) (h : Laid ignoreCase segments g ns g') :
      Laid ignoreCase ((s, i) :: segments) g
        (slash :: (s.data.toList.map fun c => (charPiece ignoreCase c).node) ++ ns) g'
  | named {s : Segment} {i : Nat} {segments : List (Segment × Nat)} {g g' : GroupTable}
      {ns : List Node} {a : Reading} (hs : s.isNamed = true)
      (ha : Alone ignoreCase s.expression.toList a) (hadmits : g.Admits (groupName i) a)
      (h : Laid ignoreCase segments (g.grouped (groupName i) a) ns g') :
      Laid ignoreCase ((s, i) :: segments) g
        (slash :: .group g.next (a.frame.body.renumber g.next) :: ns) g'

theorem lookup_extended {names names' : List (String × Nat)} {name : String} {k : Nat}
    (h : names <+: names') (hl : names.lookup name = some k) : names'.lookup name = some k := by
  obtain ⟨more, rfl⟩ := h
  rw [List.lookup_append, hl]
  rfl

theorem lookup_grouped {name : String} (h : g.Admits name a) :
    (g.grouped name a).names.lookup name = some g.next := by
  simp [GroupTable.grouped, List.lookup_append, h.fresh]

namespace Laid

theorem names_extended (h : Laid ignoreCase segments g ns g') : g.names <+: g'.names := by
  induction h with
  | nil => exact List.prefix_rfl
  | exact _ _ ih => exact ih
  | named _ _ _ _ ih =>
    refine List.IsPrefix.trans ?_ ih
    simp [GroupTable.grouped, List.append_assoc]

theorem next_le (h : Laid ignoreCase segments g ns g') : g.next ≤ g'.next := by
  induction h with
  | nil => exact Nat.le_refl _
  | exact _ _ ih => exact ih
  | named _ _ _ _ ih =>
    simp only [GroupTable.grouped] at ih
    omega

end Laid

/-- The segments can be read: literals are escaped, and other expressions stand alone. -/
structure Readable (ignoreCase : Bool) (s : Segment) : Prop where
  exact : s.isNamed = false → s.expression = String.ofList (escape s.data.toList)
  named : s.isNamed = true → ∃ a, Alone ignoreCase s.expression.toList a

def segmentTokens (s : Segment) (i : Nat) : List Token :=
  if s.isNamed then
    openingTokens (groupName i).toList ++ (tokens s.expression.toList ++ [.plain ')'])
  else s.data.toList.map literalToken

def tokensOf (segments : List (Segment × Nat)) : List Token :=
  segments.flatMap fun s => .plain '/' :: segmentTokens s.1 s.2

theorem tokens_ordinary (h : '\\' ∉ text) (t : List Char) :
    tokens (text ++ t) = text.map .plain ++ tokens t := by
  induction text with
  | nil => rfl
  | cons c text ih =>
    simp only [List.mem_cons, not_or] at h
    rw [List.cons_append, tokens_plain (Ne.symm h.1), ih h.2]
    rfl

theorem tokens_opening {name : String} (hname : '\\' ∉ name.toList) (text : List Char) :
    tokens (("(?P<" ++ name ++ ">").toList ++ text) = openingTokens name.toList ++ tokens text := by
  have htext : ("(?P<" ++ name ++ ">").toList ++ text =
      '(' :: '?' :: 'P' :: '<' :: (name.toList ++ '>' :: text) := by
    simp
  rw [htext, tokens_plain (by decide), tokens_plain (by decide), tokens_plain (by decide),
    tokens_plain (by decide), tokens_ordinary hname, tokens_plain (by decide)]
  simp [openingTokens]

/-- A named group around a text that stands alone. -/
theorem tokens_named {name : String} (hname : '\\' ∉ name.toList)
    (ha : .dangling ∉ tokens text) (t : List Char) :
    tokens (("(?P<" ++ name ++ ">" ++ String.ofList text ++ ")").toList ++ t) =
      openingTokens name.toList ++ (tokens text ++ .plain ')' :: tokens t) := by
  have htext : ("(?P<" ++ name ++ ">" ++ String.ofList text ++ ")").toList ++ t =
      ("(?P<" ++ name ++ ">").toList ++ (text ++ ')' :: t) := by
    simp
  rw [htext, tokens_opening hname, tokens_append ha, tokens_plain (by decide)]

theorem tokens_segment (h : Readable ignoreCase s) (i : Nat) (t : List Char) :
    tokens (segmentText s i ++ t) = segmentTokens s i ++ tokens t := by
  unfold segmentText segmentTokens
  split
  · next hs =>
    obtain ⟨a, ha⟩ := h.named hs
    have hname : '\\' ∉ (groupName i).toList :=
      not_mem_groupName (by decide) (by decide) (by decide)
    have := tokens_named hname ha.not_dangling t
    rw [String.ofList_toList] at this
    rw [this]
    simp
  · next hs =>
    rw [h.exact (by simpa using hs), String.toList_ofList]
    exact tokens_escape_append _ t

theorem tokens_segments (h : ∀ s ∈ segments, Readable ignoreCase s.1) (t : List Char) :
    tokens ((segments.flatMap fun s => '/' :: segmentText s.1 s.2) ++ t) =
      tokensOf segments ++ tokens t := by
  induction segments with
  | nil => rfl
  | cons s segments ih =>
    obtain ⟨hs, hrest⟩ := List.forall_mem_cons.1 h
    simp only [List.flatMap_cons, List.cons_append, List.append_assoc, tokensOf]
    rw [tokens_plain (by decide), tokens_segment hs, ih hrest]
    rfl

theorem settled_tokensOf {pos : Nat} (hrest : Settled ⟨0, rest⟩) :
    Settled ⟨pos, tokensOf segments ++ rest⟩ := by
  cases segments with
  | nil => exact hrest
  | cons => exact settled_plain

/-- The pieces that reading adds at the top of an expression. -/
def Adds (ignoreCase : Bool) (ts : List Token) (g : GroupTable) (ps : List Piece)
    (g' : GroupTable) : Prop :=
  ∀ pos rest ms, Settled ⟨0, rest⟩ → ∃ pos', (top ignoreCase pos (ts ++ rest) g ms).Reads
    (top ignoreCase pos' rest g' ((ps.reverse.map .piece) ++ ms))

/-- Something at the top of an expression is refused. -/
def Fails (ignoreCase : Bool) (ts : List Token) (g : GroupTable) : Prop :=
  ∀ pos rest ms, Settled ⟨0, rest⟩ → (top ignoreCase pos (ts ++ rest) g ms).Refuses

theorem Adds.then {ts ts' : List Token} {g'' : GroupTable} {ps qs : List Piece}
    (h : Adds ignoreCase ts g ps g') (h' : Adds ignoreCase ts' g' qs g'')
    (hs : ∀ rest, Settled ⟨0, rest⟩ → Settled ⟨0, ts' ++ rest⟩) :
    Adds ignoreCase (ts ++ ts') g (ps ++ qs) g'' := by
  intro pos rest ms hrest
  obtain ⟨pos', hr⟩ := h pos (ts' ++ rest) ms (hs rest hrest)
  obtain ⟨pos'', hr'⟩ := h' pos' rest _ hrest
  refine ⟨pos'', ?_⟩
  have := hr.trans hr'
  simpa using this

theorem Adds.fails {ts ts' : List Token} {ps : List Piece} (h : Adds ignoreCase ts g ps g')
    (h' : Fails ignoreCase ts' g') (hs : ∀ rest, Settled ⟨0, rest⟩ → Settled ⟨0, ts' ++ rest⟩) :
    Fails ignoreCase (ts ++ ts') g := by
  intro pos rest ms hrest
  obtain ⟨pos', hr⟩ := h pos (ts' ++ rest) ms (hs rest hrest)
  have := hr.refuses (h' pos' rest _ hrest)
  simpa using this

theorem Fails.append {ts ts' : List Token} (h : Fails ignoreCase ts g)
    (hs : ∀ rest, Settled ⟨0, rest⟩ → Settled ⟨0, ts' ++ rest⟩) :
    Fails ignoreCase (ts ++ ts') g := by
  intro pos rest ms hrest
  have := h pos (ts' ++ rest) ms (hs rest hrest)
  simpa using this

theorem adds_nil : Adds ignoreCase [] g [] g :=
  fun pos _ _ _ => ⟨pos, .refl _⟩

theorem adds_slash (ignoreCase : Bool) (g : GroupTable) :
    Adds ignoreCase [.plain '/'] g [⟨slash, .atom⟩] g := by
  intro pos rest ms hrest
  obtain ⟨pos', hr⟩ := reads_char ignoreCase '/' pos g ms hrest
  refine ⟨pos', ?_⟩
  cases ignoreCase <;> exact hr

theorem adds_literals (text : List Char) :
    Adds ignoreCase (text.map literalToken) g (text.map (charPiece ignoreCase)) g := by
  intro pos rest ms hrest
  obtain ⟨pos', hr⟩ := reads_literals text pos ms hrest
  refine ⟨pos', ?_⟩
  simpa [List.map_reverse, Function.comp_def] using hr

theorem adds_group {name : List Char} (hg : g.Sound) (h : Alone ignoreCase text a)
    (hid : Text.isIdentifier name) (hname : '>' ∉ name) (hadmits : g.Admits (nameOf name) a) :
    Adds ignoreCase (openingTokens name ++ (tokens text ++ [.plain ')'])) g
      [⟨.group g.next (a.frame.body.renumber g.next), .enclosed⟩] (g.grouped (nameOf name) a) := by
  intro pos rest ms hrest
  obtain ⟨pos', hr⟩ := reads_group hg h hid hname pos ms hadmits hrest
  refine ⟨pos', ?_⟩
  simpa using hr

theorem fails_group {name : List Char} (hg : g.Sound) (h : Alone ignoreCase text a)
    (hid : Text.isIdentifier name) (hname : '>' ∉ name) (hno : ¬g.Admits (nameOf name) a) :
    Fails ignoreCase (openingTokens name ++ (tokens text ++ [.plain ')'])) g := by
  intro pos rest ms _
  have := refuses_group hg h hid hname pos rest ms hno
  simpa using this

theorem settled_group {name : List Char} :
    Settled ⟨0, openingTokens name ++ (tokens text ++ [.plain ')']) ++ rest⟩ :=
  settled_plain

/-- The name of a segment's group, or a name within it, is that of a former group. -/
inductive Clash (ignoreCase : Bool) (segments : List (Segment × Nat)) (g : GroupTable) : Prop
  | intro {former later : List (Segment × Nat)} {s : Segment} {i : Nat} {ns : List Node}
      {g' : GroupTable} {a : Reading} (hsegments : segments = former ++ (s, i) :: later)
      (hlaid : Laid ignoreCase former g ns g') (hs : s.isNamed = true)
      (ha : Alone ignoreCase s.expression.toList a) (hno : ¬g'.Admits (groupName i) a) :
      Clash ignoreCase segments g

theorem Clash.cons {g'' : GroupTable} (h : Clash ignoreCase segments g'')
    (hcons : ∀ {former ns g'}, Laid ignoreCase former g'' ns g' →
      ∃ ms, Laid ignoreCase ((s, i) :: former) g ms g') : Clash ignoreCase ((s, i) :: segments)
        g := by
  obtain ⟨hsegments, hlaid, hn, ha, hno⟩ := h
  obtain ⟨ms, hlaid'⟩ := hcons hlaid
  exact ⟨congrArg ((s, i) :: ·) hsegments, hlaid', hn, ha, hno⟩

/-- Segments that can be read are laid out, or a name that is given twice is refused. -/
theorem laid_or_fails (hg : g.Sound) (h : ∀ s ∈ segments, Readable ignoreCase s.1) :
    (∃ ps g', Laid ignoreCase segments g (ps.map Piece.node) g' ∧ g'.Sound ∧
        Adds ignoreCase (tokensOf segments) g ps g') ∨
      Clash ignoreCase segments g ∧ Fails ignoreCase (tokensOf segments) g := by
  induction segments generalizing g with
  | nil => exact .inl ⟨[], g, .nil g, hg, adds_nil⟩
  | cons s segments ih =>
    obtain ⟨s, i⟩ := s
    obtain ⟨hs, hrest⟩ := List.forall_mem_cons.1 h
    have htokens : tokensOf ((s, i) :: segments) =
      [.plain '/'] ++ (segmentTokens s i ++ tokensOf segments) := rfl
    rw [htokens]
    cases hnamed : s.isNamed with
    | false =>
      have hown : segmentTokens s i = s.data.toList.map literalToken := by
        simp [segmentTokens, hnamed]
      have hhead : Adds ignoreCase ([.plain '/'] ++ segmentTokens s i) g
          (⟨slash, .atom⟩ :: s.data.toList.map (charPiece ignoreCase)) g := by
        rw [hown]
        exact (adds_slash ignoreCase g).then (adds_literals _) fun _ => settled_literals
      rw [← List.append_assoc]
      rcases ih hg hrest with ⟨ps, g', hlaid, hg', hadds⟩ | ⟨hclash, hfails⟩
      · refine .inl ⟨_, g', ?_, hg', hhead.then hadds fun _ => settled_tokensOf⟩
        simpa [Function.comp_def] using Laid.exact (i := i) hnamed hlaid
      · exact .inr ⟨hclash.cons fun h => ⟨_, .exact hnamed h⟩,
          hhead.fails hfails fun _ => settled_tokensOf⟩
    | true =>
      obtain ⟨a, ha⟩ := hs.named hnamed
      have hown : segmentTokens s i = openingTokens (groupName i).toList ++
          (tokens s.expression.toList ++ [.plain ')']) := by
        simp [segmentTokens, hnamed]
      have hid := isIdentifier_groupName i
      have hname : '>' ∉ (groupName i).toList :=
        not_mem_groupName (by decide) (by decide) (by decide)
      have hnameOf : nameOf (groupName i).toList = groupName i := String.ofList_toList
      have hsettled : ∀ rest, Settled ⟨0, rest⟩ → Settled ⟨0, segmentTokens s i ++ rest⟩ := by
        intro rest _
        rw [hown]
        exact settled_group
      by_cases hadmits : g.Admits (groupName i) a
      · have hgroup := adds_group hg ha hid hname (hnameOf.symm ▸ hadmits)
        rw [hnameOf, ← hown] at hgroup
        have hhead := (adds_slash ignoreCase g).then hgroup hsettled
        rw [← List.append_assoc]
        rcases ih (hg.grouped ha) hrest with
          ⟨ps, g', hlaid, hg', hadds⟩ | ⟨hclash, hfails⟩
        · refine .inl ⟨_, g', ?_, hg', hhead.then hadds fun _ => settled_tokensOf⟩
          simpa using Laid.named (i := i) hnamed ha hadmits hlaid
        · exact .inr ⟨hclash.cons fun h => ⟨_, .named hnamed ha hadmits h⟩,
            hhead.fails hfails fun _ => settled_tokensOf⟩
      · have hgroup := fails_group hg ha hid hname (by rwa [hnameOf])
        rw [← hown] at hgroup
        refine .inr ⟨⟨rfl, .nil g, hnamed, ha, hadmits⟩,
          (adds_slash ignoreCase g).fails (hgroup.append fun _ => settled_tokensOf)
            fun rest hr => ?_⟩
        rw [List.append_assoc]
        exact hsettled _ (settled_tokensOf hr)

/-! ### The ending -/

def optionalSlash : Node := .many 0 (some 1) .greedy (.literal 47 false .exact)

def tailBody : Node :=
  .seq (.loop 0 (some 1) .greedy (.seq slash (.seq (.many 0 none .greedy .exceptNewline) .empty)))
    .empty

/-- What follows the segments. -/
def ending (wildcard : Bool) (g : GroupTable) : List Node :=
  if wildcard then [.group g.next tailBody, optionalSlash] else [optionalSlash]

def endingNames (wildcard : Bool) (g : GroupTable) : List (String × Nat) :=
  if wildcard then g.names ++ [(tailName, g.next)] else g.names

theorem lookup_tailName {a : Reading} (h : g.Admits tailName a) :
    (endingNames true g).lookup tailName = some g.next := by
  simp [endingNames, List.lookup_append, h.fresh]

/-- The optional slash is read at the top, whatever else stands there. -/
theorem reads_optionalSlash {conditions : List (Nat × Nat)} {f : Frame}
    (hf : f.mode = .initial ignoreCase) (pos : Nat) (g : GroupTable) :
    Reads ⟨⟨pos, [.plain '/', .plain '?']⟩, g, conditions, f, []⟩
      ⟨⟨pos + 2, []⟩, g, conditions, f.append (.piece ⟨optionalSlash, .repetition⟩), []⟩ := by
  obtain ⟨kind, start, mode, branches, ms⟩ := f
  obtain rfl : mode = .initial ignoreCase := hf
  refine ⟨2, by simp, fun m => ?_⟩
  rw [Nat.add_comm]
  cases ignoreCase
  · rfl
  · rfl

/-- The tail, as it is read by itself. -/
def tailReading (ignoreCase : Bool) : Reading :=
  ⟨⟨8, []⟩, .empty, [], ⟨.whole, 0, .initial ignoreCase, [],
    [.piece ⟨.loop 0 (some 1) .greedy
      (.seq slash (.seq (.many 0 none .greedy .exceptNewline) .empty)), .repetition⟩]⟩, []⟩

theorem alone_tail : Alone ignoreCase "(?:/.*)?".toList (tailReading ignoreCase) where
  settled := by cases ignoreCase <;> simp [tokens, Settled]
  ran := by cases ignoreCase <;> cbv
  closed := rfl
  unnumbered := by cases ignoreCase <;> cbv

theorem isIdentifier_tailName : Text.isIdentifier tailName.toList := by
  decide

theorem tokens_tail : tokens "(?P<_tail>(?:/.*)?)/?".toList = openingTokens tailName.toList ++
    (tokens "(?:/.*)?".toList ++ [.plain ')']) ++ [.plain '/', .plain '?'] := by
  simp [tokens, openingTokens, tailName]

/-- Reading from the segments on to the end. -/
theorem reads_ending {wildcard : Bool} (pos : Nat) (ms : List Member) (hg : g.Sound)
    (hadmits : wildcard → g.Admits tailName (tailReading ignoreCase)) :
    ∃ pos' g', ∃ ps : List Piece, ps.map Piece.node = ending wildcard g ∧
      g'.names = endingNames wildcard g ∧ (top ignoreCase pos
        (tokens (if wildcard then "(?P<_tail>(?:/.*)?)/?" else "/?").toList) g ms).Reads
        (top ignoreCase pos' [] g' ((ps.reverse.map .piece) ++ ms)) := by
  cases wildcard with
  | false =>
    have htokens : tokens "/?".toList = [.plain '/', .plain '?'] := by simp [tokens]
    refine ⟨pos + 2, g, [⟨optionalSlash, .repetition⟩], rfl, rfl, ?_⟩
    simp only [Bool.false_eq_true, if_false, htokens]
    exact reads_optionalSlash rfl pos g
  | true =>
    have hgroup := adds_group hg alone_tail isIdentifier_tailName (by decide) (hadmits rfl)
    obtain ⟨pos', hr⟩ := hgroup pos [.plain '/', .plain '?'] ms settled_plain
    refine ⟨pos' + 2, g.grouped tailName (tailReading ignoreCase),
      [⟨.group g.next tailBody, .enclosed⟩, ⟨optionalSlash, .repetition⟩], rfl, ?_, ?_⟩
    · simp [GroupTable.grouped, endingNames, tailReading, GroupTable.empty]
    · simp only [if_true, tokens_tail]
      exact hr.trans (reads_optionalSlash rfl pos' _)

theorem refuses_ending (pos : Nat) (ms : List Member) (hg : g.Sound)
    (hno : ¬g.Admits tailName (tailReading ignoreCase)) :
    (top ignoreCase pos (tokens "(?P<_tail>(?:/.*)?)/?".toList) g ms).Refuses := by
  rw [tokens_tail]
  exact fails_group hg alone_tail isIdentifier_tailName (by decide) hno pos _ ms settled_plain

theorem cons_joinPieces {parts : List (List Char)} (h : parts ≠ []) :
    '/' :: Text.joinPieces '/' parts = parts.flatMap ('/' :: ·) := by
  induction parts with
  | nil => exact absurd rfl h
  | cons part parts ih =>
    cases parts with
    | nil => simp [Text.joinPieces]
    | cons next parts =>
      have := ih (by simp)
      simp_all [Text.joinPieces, List.intercalate]

theorem toList_expressionText {p : Pattern} (hne : p.segments ≠ []) :
    (expressionText p).toList = (p.segments.zipIdx.flatMap fun s => '/' :: segmentText s.1 s.2) ++
      (if p.wildcard then "(?P<_tail>(?:/.*)?)/?" else "/?").toList := by
  have htexts : segmentTexts p ≠ [] := by
    simpa [segmentTexts] using hne
  have hempty : p.segments.isEmpty = false := by simpa using hne
  rw [expressionText, String.toList_ofList, hempty, Bool.and_false, if_neg (by simp),
    cons_joinPieces htexts, segmentTexts, List.flatMap_map]

theorem pieces_reverse (ps : List Piece) :
    (ps.reverse.map Member.piece).reverse.flatMap Member.pieces = ps := by
  induction ps with
  | nil => rfl
  | cons p ps ih => simpa [Member.pieces] using ih

/-- Some name is given twice. -/
inductive Clashes (ignoreCase : Bool) (p : Pattern) : Prop
  | segment (h : Clash ignoreCase p.segments.zipIdx .empty)
  | tail {ns : List Node} {g : GroupTable} (hlaid : Laid ignoreCase p.segments.zipIdx .empty ns g)
      (hw : p.wildcard = true) (hno : ¬g.Admits tailName (tailReading ignoreCase))

/-- What compiling the expression of a pattern gives: the segments and the ending laid out, or a
refusal. -/
theorem compile_expressionText {p : Pattern} (hne : p.segments ≠ [])
    (h : ∀ s ∈ p.segments, Readable ignoreCase s) :
    (∃ ns g, Laid ignoreCase p.segments.zipIdx .empty ns g ∧
        (p.wildcard → g.Admits tailName (tailReading ignoreCase)) ∧
        Expression.compile ignoreCase (expressionText p) =
          match lookbehindFault? (.ofList (ns ++ ending p.wildcard g)) with
          | some fault => .error (.malformed fault none)
          | none => .ok ⟨expressionText p, .ofList (ns ++ ending p.wildcard g),
              endingNames p.wildcard g⟩) ∨
      Clashes ignoreCase p ∧
        ∃ rejection, Expression.compile ignoreCase (expressionText p) = .error rejection := by
  have hread : ∀ s ∈ p.segments.zipIdx, Readable ignoreCase s.1 :=
    fun s hs => h s.1 (List.fst_mem_of_mem_zipIdx hs)
  have htokens : tokens (expressionText p).toList = tokensOf p.segments.zipIdx ++
      tokens (if p.wildcard then "(?P<_tail>(?:/.*)?)/?" else "/?").toList := by
    rw [toList_expressionText hne]
    exact tokens_segments hread _
  have hending : Settled
      ⟨0, tokens (if p.wildcard then "(?P<_tail>(?:/.*)?)/?" else "/?").toList⟩ := by
    cases p.wildcard <;> simp [tokens, Settled]
  have hset : Settled ⟨0, tokens (expressionText p).toList⟩ := by
    rw [htokens]
    exact settled_tokensOf hending
  rcases laid_or_fails (g := .empty) GroupTable.sound_empty hread with
    ⟨ps, g, hlaid, hg, hadds⟩ | ⟨hclash, hfails⟩
  · obtain ⟨pos, hsegments⟩ := hadds 0 _ [] hending
    rw [← htokens] at hsegments
    by_cases hadmits : p.wildcard → g.Admits tailName (tailReading ignoreCase)
    · obtain ⟨pos', g', qs, hqs, hnames, hend⟩ := reads_ending pos
        ((ps.reverse.map .piece) ++ []) hg hadmits
      have hcompile := compile_of_reads (hsegments.trans hend) hset
      have hnodes : (((qs.reverse.map Member.piece) ++ ((ps.reverse.map Member.piece) ++
          [])).reverse.flatMap Member.pieces).map Piece.node = ps.map Piece.node ++
          ending p.wildcard g := by
        rw [← hqs, List.append_nil, List.reverse_append, List.flatMap_append, List.map_append,
          pieces_reverse, pieces_reverse]
      rw [hnodes, hnames] at hcompile
      exact .inl ⟨_, g, hlaid, hadmits, hcompile⟩
    · obtain ⟨hw, hno⟩ := Classical.not_imp.1 hadmits
      have hrefuses := refuses_ending pos ((ps.reverse.map .piece) ++ []) hg hno
      rw [hw] at hsegments
      exact .inr ⟨.tail hlaid hw hno, compile_of_refuses (hsegments.refuses hrefuses)⟩
  · have hrefuses := hfails 0 _ [] hending
    rw [← htokens] at hrefuses
    exact .inr ⟨.segment hclash, compile_of_refuses hrefuses⟩

end UrlRouting.PathMatcher
