import UrlRouting.Proofs.Pattern.Reading

/-! The grammar of patterns: which texts are read, and the segments that their parts stand for. -/
namespace UrlRouting

variable {s : Segment} {p : Pattern} {part before name text : List Char} {seen : List String}
  {segments : List Segment} {pieces : List (List Char)}

namespace Segment

/-- The part ends in a name after its last colon. What stands before the colon is on one line. -/
structure Named (part before name : List Char) : Prop where
  cut : part = before ++ ':' :: name
  last : ':' ∉ name
  ne_nil : name ≠ []
  word : ∀ c ∈ name, Text.isWord c.toNat = true
  line : '\n' ∉ before

/-- The segment that a part spells. A part that ends in no name is a literal, whose expression is
the escaped text. A name alone stands for anything without a slash. One pair of angle brackets
around a constraint is left out, if there is something between them. -/
inductive Spells : List Char → Segment → Prop
  | exact {part : List Char} (h : ∀ before name, ¬Named part before name) :
      Spells part ⟨.exact, String.ofList part, String.ofList (Expression.escape part)⟩
  | placeholder {part name : List Char} (h : Named part [] name) :
      Spells part ⟨.placeholder, String.ofList name, "[^/]+"⟩
  | bracketed {part inner name : List Char} (h : Named part ('<' :: (inner ++ ['>'])) name)
      (hne : inner ≠ []) : Spells part ⟨.constrained, String.ofList name, String.ofList inner⟩
  | bare {part before name : List Char} (h : Named part before name) (hne : before ≠ [])
      (hbare : ∀ inner, inner ≠ [] → before ≠ '<' :: (inner ++ ['>'])) :
      Spells part ⟨.constrained, String.ofList name, String.ofList before⟩

/-- The constraint of the segment, if it has one, is an expression within a group. -/
def Compiles (s : Segment) : Prop :=
  s.kind = .constrained → ∃ e, Expression.compile false ("(?:" ++ s.expression ++ ")") = .ok e

/-! ### Parts -/

theorem cutNamed?_eq_some : cutNamed? part = some (before, name) ↔ Named part before name := by
  have hcolon : (∀ c ∈ name, Text.isWord c.toNat = true) → ':' ∉ name := by
    intro hword hmem
    have := hword _ hmem
    revert this
    decide
  unfold cutNamed?
  cases hcut : Text.cutLast? ':' part with
  | none =>
    refine iff_of_false (by simp) fun h => ?_
    rw [Text.cutLast?_eq_none, h.cut] at hcut
    simp at hcut
  | some p =>
    obtain ⟨b, n⟩ := p
    obtain ⟨hpart, hlast⟩ := Text.cutLast?_eq_some.1 hcut
    dsimp only
    constructor
    · intro h
      split at h
      · next hok =>
        cases h
        simp only [Bool.and_eq_true, Bool.not_eq_true', List.isEmpty_eq_false_iff, List.all_eq_true,
          List.contains_eq_mem, decide_eq_false_iff_not] at hok
        exact ⟨hpart, hlast, hok.1.1, hok.1.2, hok.2⟩
      · cases h
    · intro h
      have hsame := Text.cutLast?_eq_some.2 ⟨h.cut, h.last⟩
      rw [hcut] at hsame
      cases hsame
      rw [if_pos]
      simpa [h.ne_nil, h.line] using h.word

theorem unbracketed_bracketed {inner : List Char} (hne : inner ≠ []) :
    unbracketed ('<' :: (inner ++ ['>'])) = inner := by
  have hlength : 0 < inner.length := List.length_pos_iff.2 hne
  rw [unbracketed, if_pos]
  · simp
  · simp [List.getLast?_cons]
    omega

theorem unbracketed_bare (h : ∀ inner, inner ≠ [] → before ≠ '<' :: (inner ++ ['>'])) :
    unbracketed before = before := by
  rw [unbracketed, if_neg]
  intro hbrackets
  simp only [Bool.and_eq_true, decide_eq_true_eq, beq_iff_eq] at hbrackets
  obtain ⟨⟨hlength, hfirst⟩, hlast⟩ := hbrackets
  obtain ⟨rest, rfl⟩ := List.head?_eq_some_iff.1 hfirst
  have hrest : rest ≠ [] := by
    rintro rfl
    simp at hlength
  rw [List.getLast?_cons_of_ne_nil hrest] at hlast
  obtain ⟨inner, rfl⟩ := List.getLast?_eq_some_iff.1 hlast
  refine h inner ?_ rfl
  rintro rfl
  simp at hlength

/-- The segment that a part stands for, if its constraint is an expression. -/
def spelled (part : List Char) : Segment :=
  match cutNamed? part with
  | none => exact part
  | some ([], name) => placeholder name
  | some (constraint, name) =>
    ⟨.constrained, String.ofList name, String.ofList (unbracketed constraint)⟩

theorem spelled_constrained (h : Named part before name) (hne : before ≠ []) : spelled part =
    ⟨.constrained, String.ofList name, String.ofList (unbracketed before)⟩ := by
  obtain ⟨c, rest, rfl⟩ := List.exists_cons_of_ne_nil hne
  rw [spelled, cutNamed?_eq_some.2 h]

theorem spells_iff : Spells part s ↔ spelled part = s := by
  constructor
  · intro h
    cases h with
    | exact h =>
      have hcut : cutNamed? part = none :=
        Option.eq_none_iff_forall_ne_some.2 fun (b, n) hcut => h b n (cutNamed?_eq_some.1 hcut)
      rw [spelled, hcut]
      rfl
    | placeholder h =>
      rw [spelled, cutNamed?_eq_some.2 h]
      rfl
    | bracketed h hne => rw [spelled_constrained h (by simp), unbracketed_bracketed hne]
    | bare h hne hbare => rw [spelled_constrained h hne, unbracketed_bare hbare]
  · rintro rfl
    cases hcut : cutNamed? part with
    | none =>
      rw [spelled, hcut]
      refine .exact fun b n h => ?_
      rw [cutNamed?_eq_some.2 h] at hcut
      cases hcut
    | some p =>
      obtain ⟨before, name⟩ := p
      have h := cutNamed?_eq_some.1 hcut
      by_cases hnil : before = []
      · subst hnil
        rw [spelled, hcut]
        exact .placeholder h
      · rw [spelled_constrained h hnil]
        by_cases hbrackets : ∃ inner, inner ≠ [] ∧ before = '<' :: (inner ++ ['>'])
        · obtain ⟨inner, hne, rfl⟩ := hbrackets
          rw [unbracketed_bracketed hne]
          exact .bracketed h hne
        · have hbare : ∀ inner, inner ≠ [] → before ≠ '<' :: (inner ++ ['>']) :=
            fun inner hne heq => hbrackets ⟨inner, hne, heq⟩
          rw [unbracketed_bare hbare]
          exact .bare h hnil hbare

theorem constrained_eq_ok {constraint : List Char} : constrained constraint name = .ok s ↔
    ⟨.constrained, String.ofList name, String.ofList (unbracketed constraint)⟩ = s ∧
      s.Compiles := by
  simp only [constrained]
  split
  · next e he =>
    constructor
    · intro h
      cases h
      exact ⟨rfl, fun _ => ⟨e, he⟩⟩
    · rintro ⟨rfl, _⟩
      rfl
  · next e he =>
    refine iff_of_false (by simp) ?_
    rintro ⟨rfl, h⟩
    obtain ⟨_, hok⟩ := h rfl
    change Expression.compile false (isolated _) = .ok _ at hok
    rw [he] at hok
    cases hok

theorem ofPart_eq_ok : ofPart part = .ok s ↔ spelled part = s ∧ s.Compiles := by
  have hother : ∀ {u : Segment}, u.kind ≠ .constrained →
      ((Except.ok u : Except RoutingError Segment) = .ok s ↔ u = s ∧ s.Compiles) := by
    intro u hkind
    rw [Except.ok.injEq]
    refine ⟨?_, And.left⟩
    rintro rfl
    exact ⟨rfl, fun h => absurd h hkind⟩
  rw [ofPart, spelled]
  cases cutNamed? part with
  | none => exact hother nofun
  | some cut =>
    obtain ⟨constraint, name⟩ := cut
    cases constraint with
    | nil => exact hother nofun
    | cons c constraint => exact constrained_eq_ok

theorem not_mem_of_spells (hpart : '/' ∉ part) (h : Spells part s) :
    '/' ∉ s.data.toList ∧ (s.kind = .constrained → '/' ∉ s.expression.toList) := by
  cases h with
  | exact => exact ⟨by simpa using hpart, nofun⟩
  | placeholder h =>
    rw [h.cut] at hpart
    exact ⟨by simp_all, nofun⟩
  | bracketed h | bare h =>
    rw [h.cut] at hpart
    simp_all

/-- The name of a segment consists of word characters. -/
theorem isWord_of_spells (h : Spells part s) (hn : s.isNamed = true) :
    s.data ≠ "" ∧ ∀ c ∈ s.data.toList, Text.isWord c.toNat = true := by
  cases h with
  | exact => cases hn
  | placeholder h | bracketed h | bare h =>
    exact ⟨by simpa using h.ne_nil, by simpa using h.word⟩

theorem eq_exact_of_spells_star (h : Spells ['*'] s) : s = ⟨.exact, "*", "\\*"⟩ := by
  rw [← spells_iff.1 h]
  rfl

end Segment

namespace Pattern

/-! ### Texts -/

/-- The parts stand between slashes, and slashes may stand around them. Only the text of slashes has
an empty part at an end. -/
structure Divides (text : List Char) (parts : List (List Char)) : Prop where
  joined : ∃ before after, (∀ c ∈ before ++ after, c = '/') ∧
    text = before ++ Text.joinPieces '/' parts ++ after
  slashless : ∀ part ∈ parts, '/' ∉ part
  ends : parts = [[]] ∨ parts.head? ≠ some [] ∧ parts.getLast? ≠ some []

/-- What a text says about a pattern: a last part that is just an asterisk is the wildcard, and each
other part spells a segment. -/
structure Describes (text : List Char) (p : Pattern) : Prop where
  wildcard : p.wildcard = true ↔ (parts text).getLast? = some ['*']
  segments : List.Forall₂ Segment.Spells
    (if p.wildcard then (parts text).dropLast else parts text) p.segments

/-- What a text has to be to be read as the pattern that it describes. -/
structure Grammatical (text : List Char) (p : Pattern) : Prop where
  ne_nil : text ≠ []
  slash : text.head? = some '/'
  names : p.names.Nodup
  constraints : ∀ s ∈ p.segments, s.Compiles

theorem divides_parts (text : List Char) : Divides text (parts text) where
  joined := by
    obtain ⟨before, after, hb, ha, heq⟩ := Text.exists_trim (· == '/') text
    refine ⟨before, after, fun c hc => ?_, ?_⟩
    · rcases List.mem_append.1 hc with hc | hc
      · simpa using hb c hc
      · simpa using ha c hc
    · rw [parts, Text.joinPieces_pieces]
      exact heq
  slashless _ hpart := Text.not_mem_of_mem_pieces hpart
  ends := by
    rw [parts]
    cases ht : Text.trim (· == '/') text with
    | nil => exact .inl rfl
    | cons c rest =>
      refine .inr ⟨fun h => ?_, fun h => ?_⟩
      · have hfirst : (Text.trim (· == '/') text).head? = some '/' := by
          rw [ht]
          exact (Text.head?_pieces h).resolve_left (by simp)
        simpa using Text.head?_trim hfirst
      · have hlast : (Text.trim (· == '/') text).getLast? = some '/' := by
          rw [ht]
          exact (Text.getLast?_pieces h).resolve_left (by simp)
        simpa using Text.getLast?_trimEnd hlast

/-- The pattern that a text describes. -/
def described (text : List Char) : Pattern :=
  ⟨(fixedParts text).map Segment.spelled, (parts text).getLast? == some ['*']⟩

theorem forall₂_spells : List.Forall₂ Segment.Spells pieces segments ↔
    pieces.map Segment.spelled = segments := by
  have hspells : Segment.Spells = fun piece s => Segment.spelled piece = s := by
    funext piece s
    exact propext Segment.spells_iff
  rw [hspells, ← List.forall₂_map_left_iff (R := Eq), List.forall₂_eq_eq_eq]

theorem describes_iff : Describes text p ↔ described text = p := by
  obtain ⟨segments, wildcard⟩ := p
  rw [described, Pattern.mk.injEq]
  constructor
  · rintro ⟨hwildcard, hsegments⟩
    obtain rfl : wildcard = ((parts text).getLast? == some ['*']) := by
      rw [Bool.eq_iff_iff, hwildcard, beq_iff_eq]
    exact ⟨forall₂_spells.1 hsegments, rfl⟩
  · rintro ⟨rfl, rfl⟩
    exact ⟨beq_iff_eq, forall₂_spells.2 rfl⟩

/-! ### Reading -/

/-- Parts are read where each of them is, and where no name is given twice. -/
theorem readParts_of_compiles {text : String}
    (hcompiles : ∀ s ∈ pieces.map Segment.spelled, s.Compiles)
    (hnodup : (((pieces.map Segment.spelled).filter Segment.isNamed).map Segment.data).Nodup)
    (hfresh : ∀ name ∈ ((pieces.map Segment.spelled).filter Segment.isNamed).map Segment.data,
      name ∉ seen) :
    readParts text seen pieces = .ok (pieces.map Segment.spelled) := by
  induction pieces generalizing seen with
  | nil => rfl
  | cons piece pieces ih =>
    rw [List.map_cons] at *
    obtain ⟨hpiece, hcompiles⟩ := List.forall_mem_cons.1 hcompiles
    have hread := Segment.ofPart_eq_ok.2 ⟨rfl, hpiece⟩
    rw [readParts, hread, Expression.ok_bind]
    cases hn : (Segment.spelled piece).isNamed with
    | false =>
      simp only [List.filter_cons, hn, Bool.false_eq_true, if_false] at hnodup hfresh
      simp only [Bool.false_and, Bool.false_eq_true, if_false, ih hcompiles hnodup hfresh]
      rfl
    | true =>
      simp only [List.filter_cons, hn, if_true, List.map_cons, List.nodup_cons,
        List.forall_mem_cons] at hnodup hfresh
      have hrest : readParts text ((Segment.spelled piece).data :: seen) pieces =
          .ok (pieces.map Segment.spelled) := by
        refine ih hcompiles hnodup.2 fun name hname hmem => ?_
        rcases List.mem_cons.1 hmem with rfl | hmem
        · exact hnodup.1 hname
        · exact hfresh.2 name hname hmem
      simp [hfresh.1, hrest]

theorem readParts_eq_ok {text : String} : readParts text [] pieces = .ok segments ↔
    pieces.map Segment.spelled = segments ∧ (∀ s ∈ segments, s.Compiles) ∧
      ((segments.filter Segment.isNamed).map Segment.data).Nodup := by
  constructor
  · intro h
    have hpieces := (forall₂_readParts h).imp fun _ _ => Segment.ofPart_eq_ok.1
    refine ⟨forall₂_spells.1 (hpieces.imp fun _ _ h => Segment.spells_iff.2 h.1), ?_,
      (nodup_readParts h).1⟩
    intro s hs
    obtain ⟨_, _, _, hcompiles⟩ := exists_of_forall₂ hpieces.flip hs
    exact hcompiles
  · rintro ⟨rfl, hcompiles, hnodup⟩
    exact readParts_of_compiles hcompiles hnodup (by simp)

theorem isWord_of_mem_names {text name : String} (h : read text = .ok p) (hname : name ∈ p.names) :
    name ≠ "" ∧ ∀ c ∈ name.toList, Text.isWord c.toNat = true := by
  obtain ⟨s, hs, rfl⟩ := List.mem_map.1 hname
  obtain ⟨hs, hn⟩ := List.mem_filter.1 hs
  have hparts := forall₂_readParts (read_eq_ok h).1
  obtain ⟨part, _, hpart⟩ := exists_of_forall₂ hparts.flip hs
  exact Segment.isWord_of_spells (Segment.spells_iff.2 (Segment.ofPart_eq_ok.1 hpart).1) hn

/-- A text describes one pattern, and this is the one that is read, if the text begins with a slash,
no name is given twice and each constraint is an expression. The parts of the text are what stands
between its slashes, so that there is no slash in a literal, a name or a constraint. An asterisk is
the wildcard in the last part only. -/
theorem read_iff_grammatical (text : String) : ∃ p, (∀ q, Describes text.toList q ↔ p = q) ∧
    (∀ q, read text = .ok q ↔ p = q ∧ Grammatical text.toList q) ∧
    Divides text.toList (parts text.toList) ∧
    (∀ s ∈ p.segments,
      '/' ∉ s.data.toList ∧ (s.kind = .constrained → '/' ∉ s.expression.toList)) ∧
    ∀ s, Segment.Spells ['*'] s → s = ⟨.exact, "*", "\\*"⟩ := by
  refine ⟨described text.toList, fun q => describes_iff, fun q => ?_, divides_parts _,
    fun s hs => ?_, fun s => Segment.eq_exact_of_spells_star⟩
  · rw [read_eq_ok_iff, readParts_eq_ok]
    obtain ⟨segments, wildcard⟩ := q
    rw [described, Pattern.mk.injEq]
    constructor
    · rintro ⟨hne, hslash, ⟨hsegments, hcompiles, hnodup⟩, hwildcard⟩
      exact ⟨⟨hsegments, hwildcard.symm⟩, by simpa using hne, hslash, hnodup, hcompiles⟩
    · rintro ⟨⟨hsegments, hwildcard⟩, hne, hslash, hnodup, hcompiles⟩
      exact ⟨by simpa using hne, hslash, ⟨hsegments, hcompiles, hnodup⟩, hwildcard.symm⟩
  · obtain ⟨part, hpart, rfl⟩ := List.mem_map.1 hs
    exact Segment.not_mem_of_spells
      (Text.not_mem_of_mem_pieces (mem_parts_of_mem_fixedParts hpart)) (Segment.spells_iff.2 rfl)

end Pattern

end UrlRouting
