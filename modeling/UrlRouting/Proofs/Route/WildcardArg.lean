import UrlRouting.Proofs.Text.Pieces
import UrlRouting.Proofs.Value.Mapping
import UrlRouting.Route.WildcardArg

/-! Writing arguments into a tail and reading them again. -/
namespace UrlRouting.WildcardArg

variable {a b : WildcardArg} {args news : List WildcardArg} {tail piece : List Char}

/-! ### Arguments that can be written -/

/-- No character of the text ends a piece of a tail or a line. -/
def OnePiece (s : String) : Prop :=
  '/' ∉ s.toList ∧ '\n' ∉ s.toList

/-- The arguments that a tail can hold. -/
inductive Spellable : WildcardArg → Prop
  | positional {v : String} (hne : v ≠ "") (hv : OnePiece v) (hcolon : ':' ∉ v.toList) :
      Spellable (.positional (.str v))
  | named {n v : String} (hn : OnePiece n) (hcolon : ':' ∉ n.toList) (hv : OnePiece v) :
      Spellable ⟨.str n, .str v⟩

/-- The arguments that a piece of a tail stands for, on one line or on several. -/
inductive Legible : WildcardArg → Prop
  | positional {v : String} (hne : v ≠ "") (hslash : '/' ∉ v.toList) (hcolon : ':' ∉ v.toList) :
      Legible (.positional (.str v))
  | named {n v : String} (hn : '/' ∉ n.toList) (hcolon : ':' ∉ n.toList) (hv : '/' ∉ v.toList) :
      Legible ⟨.str n, .str v⟩

theorem piece_positional (v : String) : (positional (.str v)).piece = v.toList := rfl

theorem piece_named (n v : String) :
    (⟨.str n, .str v⟩ : WildcardArg).piece = n.toList ++ ':' :: v.toList := rfl

theorem ofPiece_piece (ha : a.Legible) : ofPiece a.piece = a := by
  cases ha with
  | positional hne hslash hcolon =>
    rw [piece_positional, ofPiece, Text.cutFirst?_eq_none.2 hcolon]
    simp
  | named hn hcolon hv =>
    rw [piece_named, ofPiece, Text.cutFirst?_eq_some.2 ⟨rfl, hcolon⟩]
    simp

theorem piece_ofPiece (piece : List Char) : (ofPiece piece).piece = piece := by
  unfold ofPiece
  cases hcut : Text.cutFirst? ':' piece with
  | none => rw [piece_positional, String.toList_ofList]
  | some p =>
    obtain ⟨name, value⟩ := p
    rw [piece_named, String.toList_ofList, String.toList_ofList,
      ← (Text.cutFirst?_eq_some.1 hcut).1]

theorem piece_ne_nil (ha : a.Legible) : a.piece ≠ [] := by
  cases ha with
  | positional hne => simpa [piece_positional] using hne
  | named => simp [piece_named]

theorem not_mem_piece (ha : a.Legible) : '/' ∉ a.piece := by
  cases ha with
  | positional hne hslash => exact hslash
  | named hn hcolon hv => simp [piece_named, hn, hv]

/-- The argument for a piece of a tail can be told from it. -/
theorem legible_ofPiece (hne : piece ≠ []) (hslash : '/' ∉ piece) : (ofPiece piece).Legible := by
  unfold ofPiece
  cases hcut : Text.cutFirst? ':' piece with
  | none =>
    refine .positional (by simpa using hne) (by simpa using hslash) ?_
    simpa using Text.cutFirst?_eq_none.1 hcut
  | some p =>
    obtain ⟨name, value⟩ := p
    obtain ⟨rfl, hcolon⟩ := Text.cutFirst?_eq_some.1 hcut
    simp only [List.mem_append, List.mem_cons, not_or] at hslash
    exact .named (by simpa using hslash.1) (by simpa using hcolon) (by simpa using hslash.2.2)

theorem Legible.isWritable (ha : a.Legible) : a.isWritable = true := by
  cases ha <;> rfl

theorem spellable_iff : a.Spellable ↔ a.Legible ∧ '\n' ∉ a.piece := by
  constructor
  · intro ha
    cases ha with
    | positional hne hv hcolon => exact ⟨.positional hne hv.1 hcolon, hv.2⟩
    | named hn hcolon hv => exact ⟨.named hn.1 hcolon hv.1, by simp [piece_named, hn.2, hv.2]⟩
  · rintro ⟨ha, hline⟩
    cases ha with
    | positional hne hslash hcolon => exact .positional hne ⟨hslash, hline⟩ hcolon
    | named hn hcolon hv =>
      simp only [piece_named, List.mem_append, List.mem_cons, not_or] at hline
      exact .named ⟨hn, hline.1⟩ hcolon ⟨hv, hline.2.2⟩

theorem Spellable.isWritable (ha : a.Spellable) : a.isWritable = true :=
  (spellable_iff.1 ha).1.isWritable

/-! ### Merging -/

/-- No argument replaces another one: a named one has a name that none before it has. -/
def Distinct (args : List WildcardArg) : Prop :=
  args.Pairwise fun a b => b.isPositional = true ∨ a.name.equal b.name = false

theorem replaceOrAppend_of_fresh (h : ∀ b ∈ args, b.name.equal a.name = false) :
    replaceOrAppend a args = args ++ [a] := by
  induction args with
  | nil => rfl
  | cons b args ih =>
    obtain ⟨hb, hargs⟩ := List.forall_mem_cons.1 h
    rw [replaceOrAppend, if_neg (by simp [hb]), ih hargs, List.cons_append]

theorem merge_of_fresh (h : a.isPositional = true ∨ ∀ b ∈ args, b.name.equal a.name = false) :
    merge args a = args ++ [a] := by
  unfold merge
  split
  · rfl
  · next hpos => exact replaceOrAppend_of_fresh (h.resolve_left hpos)

/-- Arguments of which none replaces another are added in their order. -/
theorem mergeAll_of_distinct (h : Distinct (args ++ news)) : mergeAll args news = args ++ news := by
  induction news generalizing args with
  | nil => simp [mergeAll]
  | cons a news ih =>
    have hfresh : a.isPositional = true ∨ ∀ b ∈ args, b.name.equal a.name = false := by
      cases hpos : a.isPositional with
      | true => exact .inl rfl
      | false =>
        refine .inr fun b hb => ?_
        have := (List.pairwise_append.1 h).2.2 b hb a (by simp)
        simpa [hpos] using this
    have hmerge : mergeAll args (a :: news) = mergeAll (merge args a) news := rfl
    rw [hmerge, merge_of_fresh hfresh, ih (by simpa using h), List.append_assoc]
    rfl

theorem equal_str {v : Value} {n : String} : v.equal (.str n) = true ↔ v = .str n := by
  unfold Value.equal
  rw [Bool.and_eq_true, Value.agrees_str]
  constructor
  · exact fun h => h.2
  · rintro rfl
    exact ⟨rfl, rfl⟩

theorem equal_none {v : Value} : v.equal .none = true ↔ v = .none := by
  cases v with
  | float x => cases x <;>
      simp [Value.equal, Value.isNan, Value.agrees, Value.scalarEqual, Value.asInt?]
  | _ => simp [Value.equal, Value.isNan, Value.agrees, Value.scalarEqual, Value.asInt?]

theorem mem_replaceOrAppend (h : b ∈ replaceOrAppend a args) : b = a ∨ b ∈ args := by
  induction args with
  | nil => exact .inl (List.mem_singleton.1 h)
  | cons c args ih =>
    rw [replaceOrAppend] at h
    split at h
    · rcases List.mem_cons.1 h with h | h
      · exact .inl h
      · exact .inr (List.mem_cons_of_mem _ h)
    · rcases List.mem_cons.1 h with h | h
      · exact .inr (h ▸ List.mem_cons_self)
      · exact (ih h).imp_right (List.mem_cons_of_mem _)

theorem mem_merge (h : b ∈ merge args a) : b = a ∨ b ∈ args := by
  unfold merge at h
  split at h
  · rcases List.mem_append.1 h with h | h
    · exact .inr h
    · exact .inl (List.mem_singleton.1 h)
  · exact mem_replaceOrAppend h

/-- A name that an argument has and the new one too differs from the same names. -/
def Stands (args : List WildcardArg) (a : WildcardArg) : Prop :=
  ∀ b ∈ args, b.name.equal a.name = true → ∀ c ∈ args, b.name.equal c.name = false →
    a.name.equal c.name = false

theorem distinct_replaceOrAppend (ha : Stands args a) (h : Distinct args) :
    Distinct (replaceOrAppend a args) := by
  induction args with
  | nil => exact List.pairwise_singleton _ _
  | cons b args ih =>
    obtain ⟨hb, hargs⟩ := List.pairwise_cons.1 h
    rw [replaceOrAppend]
    split
    · next heq =>
      refine List.pairwise_cons.2 ⟨fun c hc => (hb c hc).imp_right fun hne => ?_, hargs⟩
      exact ha b List.mem_cons_self heq c (List.mem_cons_of_mem _ hc) hne
    · next hne =>
      have ha' : Stands args a := fun x hx heq c hc =>
        ha x (List.mem_cons_of_mem _ hx) heq c (List.mem_cons_of_mem _ hc)
      refine List.pairwise_cons.2 ⟨fun c hc => ?_, ih ha' hargs⟩
      rcases mem_replaceOrAppend hc with rfl | hc
      · exact .inr (by simpa using hne)
      · exact hb c hc

theorem distinct_merge (ha : Stands args a) (h : Distinct args) : Distinct (merge args a) := by
  unfold merge
  split
  · next hpos =>
    refine List.pairwise_append.2 ⟨h, List.pairwise_singleton _ _, fun b _ c hc => ?_⟩
    rw [List.mem_singleton.1 hc]
    exact .inl hpos
  · exact distinct_replaceOrAppend ha h

theorem Spellable.stands (ha : a.Spellable) : Stands args a := by
  intro b _ heq c _ hne
  have hname : b.name = a.name := by
    cases ha with
    | positional => exact equal_none.1 heq
    | named => exact equal_str.1 heq
  rwa [hname] at hne

theorem merge_invariant (ha : a.Spellable) (hs : ∀ b ∈ args, b.Spellable) (h : Distinct args) :
    (∀ b ∈ merge args a, b.Spellable) ∧ Distinct (merge args a) := by
  refine ⟨fun b hb => ?_, distinct_merge ha.stands h⟩
  rcases mem_merge hb with rfl | hb
  · exact ha
  · exact hs b hb

theorem mem_mergeAll (h : b ∈ mergeAll args news) : b ∈ args ∨ b ∈ news := by
  induction news generalizing args with
  | nil => exact .inl h
  | cons a news ih =>
    have hfold : b ∈ merge args a ∨ b ∈ news := ih h
    rcases hfold with hb | hb
    · rcases mem_merge hb with rfl | hb
      · exact .inr List.mem_cons_self
      · exact .inl hb
    · exact .inr (List.mem_cons_of_mem _ hb)

/-! ### Names -/

/-- What arguments are named by: texts, whole numbers and truth values, or nothing. -/
inductive IsLabel : Value → Prop
  | none : IsLabel .none
  | str (s : String) : IsLabel (.str s)
  | int (n : Int) : IsLabel (.int n)
  | bool (b : Bool) : IsLabel (.bool b)

/-- A truth value counts as the number that it is. -/
def counted : Value → Value
  | .bool b => .int (if b then 1 else 0)
  | v => v

theorem equal_iff_counted {v w : Value} (hv : IsLabel v) (hw : IsLabel w) :
    v.equal w = true ↔ counted v = counted w := by
  cases hv <;> cases hw <;>
    simp [Value.equal, Value.isNan, Value.agrees, Value.scalarEqual, Value.asInt?, counted]

theorem stands_of_labels (ha : IsLabel a.name) (hs : ∀ b ∈ args, IsLabel b.name) :
    Stands args a := by
  intro b hb heq c hc hne
  rw [equal_iff_counted (hs b hb) ha] at heq
  rw [Bool.eq_false_iff, Ne, equal_iff_counted (hs b hb) (hs c hc), heq] at hne
  rwa [Bool.eq_false_iff, Ne, equal_iff_counted ha (hs c hc)]

/-- The arguments have labels for names, and none has the name of one before it. -/
structure Labelled (args : List WildcardArg) : Prop where
  label : ∀ a ∈ args, IsLabel a.name
  distinct : Distinct args

theorem labelled_nil : Labelled [] :=
  ⟨by simp, .nil⟩

theorem Labelled.add (h : Labelled args) (ha : IsLabel a.name) : Labelled (merge args a) where
  label b hb := by
    rcases mem_merge hb with rfl | hb
    · exact ha
    · exact h.label b hb
  distinct := distinct_merge (stands_of_labels ha h.label) h.distinct

theorem Labelled.addAll (h : Labelled args) (hn : ∀ a ∈ news, IsLabel a.name) :
    Labelled (mergeAll args news) := by
  induction news generalizing args with
  | nil => exact h
  | cons a news ih =>
    obtain ⟨ha, hn⟩ := List.forall_mem_cons.1 hn
    exact ih (h.add ha) hn

theorem isLabel_ofPiece (piece : List Char) : IsLabel (ofPiece piece).name := by
  unfold ofPiece
  split
  · exact .str _
  · exact .none

theorem labelled_parse (tail : List Char) : Labelled (parse tail) := by
  refine labelled_nil.addAll fun a ha => ?_
  obtain ⟨piece, _, rfl⟩ := List.mem_map.1 ha
  exact isLabel_ofPiece piece

/-! ### Tails -/

/-- Each argument stands for a piece of the tail. -/
theorem mem_parse (h : a ∈ parse tail) :
    ∃ piece, a = ofPiece piece ∧ piece ≠ [] ∧ '/' ∉ piece ∧ ∀ c ∈ piece, c ∈ tail := by
  rcases mem_mergeAll h with h | h
  · cases h
  · obtain ⟨piece, hp, rfl⟩ := List.mem_map.1 h
    obtain ⟨hp, hne⟩ := List.mem_filter.1 hp
    refine ⟨piece, rfl, by simpa using hne, Text.not_mem_of_mem_pieces hp, fun c hc => ?_⟩
    exact (List.dropWhile_suffix _).subset (Text.mem_trimEnd (Text.mem_of_mem_pieces hp hc))

/-- What is read from a line can be written, and no argument replaces another. -/
theorem parse_invariant (hline : '\n' ∉ tail) :
    (∀ a ∈ parse tail, a.Spellable) ∧ Distinct (parse tail) := by
  refine ⟨fun a ha => ?_, (labelled_parse tail).distinct⟩
  obtain ⟨piece, rfl, hne, hslash, hsub⟩ := mem_parse ha
  rw [spellable_iff, piece_ofPiece]
  exact ⟨legible_ofPiece hne hslash, fun hmem => hline (hsub _ hmem)⟩

theorem not_mem_joined (hs : ∀ a ∈ args, a.Spellable) : '\n' ∉ joined args := by
  intro hmem
  rcases Text.mem_joinPieces hmem with hc | ⟨p, hp, hc⟩
  · cases hc
  · obtain ⟨a, ha, rfl⟩ := List.mem_map.1 hp
    exact (spellable_iff.1 (hs a ha)).2 hc

/-- Arguments that are written with slashes around them are read again. -/
theorem parse_joined {after : List Char} (before : List Char) (hb : ∀ c ∈ before, c = '/')
    (ha : ∀ c ∈ after, c = '/') (hs : ∀ a ∈ args, a.Legible) (h : Distinct args) :
    parse (before ++ joined args ++ after) = args := by
  have hpieces : ∀ p ∈ args.map piece, p ≠ [] ∧ '/' ∉ p := by
    intro p hp
    obtain ⟨a, ha, rfl⟩ := List.mem_map.1 hp
    exact ⟨piece_ne_nil (hs a ha), not_mem_piece (hs a ha)⟩
  have hends : ∀ c, (∃ p ∈ args.map piece, c ∈ p) → (c == '/') = false := by
    rintro c ⟨p, hp, hc⟩
    rw [beq_eq_false_iff_ne]
    rintro rfl
    exact (hpieces p hp).2 hc
  have htrim : Text.trim (· == '/') (before ++ joined args ++ after) = joined args :=
    Text.trim_eq (by simpa using hb) (by simpa using ha)
      (fun c hc => hends c (Text.mem_of_head?_joinPieces (fun p hp => (hpieces p hp).1) hc))
      fun c hc => hends c (Text.mem_of_getLast?_joinPieces (fun p hp => (hpieces p hp).1) hc)
  unfold parse
  rw [htrim]
  cases args with
  | nil => rfl
  | cons a args =>
    have hcut : Text.pieces '/' (joined (a :: args)) = (a :: args).map piece :=
      Text.pieces_joinPieces (by simp) fun p hp => (hpieces p hp).2
    have hfilter : ((a :: args).map piece).filter (!·.isEmpty) = (a :: args).map piece := by
      rw [List.filter_eq_self]
      intro p hp
      simpa using (hpieces p hp).1
    have hback : ((a :: args).map piece).map ofPiece = a :: args := by
      rw [List.map_map]
      exact (List.map_congr_left fun b hb => ofPiece_piece (hs b hb)).trans (List.map_id _)
    dsimp only
    rw [hcut, hfilter, hback]
    exact mergeAll_of_distinct h

/-- Each argument can be told from a piece of a tail, and no two have one name. -/
structure Canonical (args : List WildcardArg) : Prop where
  legible : ∀ a ∈ args, a.Legible
  distinct : Distinct args

theorem canonical_parse (tail : List Char) : Canonical (parse tail) where
  legible a ha := by
    obtain ⟨piece, rfl, hne, hslash, _⟩ := mem_parse ha
    exact legible_ofPiece hne hslash
  distinct := (labelled_parse tail).distinct

theorem Canonical.parse_joined (h : Canonical args) : parse (joined args) = args := by
  have hbare : parse ([] ++ joined args ++ []) = args :=
    WildcardArg.parse_joined [] (by simp) (by simp) h.legible h.distinct
  simpa using hbare

theorem format_of_isWritable (h : ∀ a ∈ args, a.isWritable = true) :
    format args = .ok (joined args) :=
  if_pos (List.all_eq_true.2 h)

theorem Canonical.format_eq (h : Canonical args) : format args = .ok (joined args) :=
  format_of_isWritable fun a ha => (h.legible a ha).isWritable

/-- The canonical lists are those that are written, and read again as they have been written.
Whatever the tail, a canonical list is read from it, so that writing and reading it once more makes
no difference. -/
theorem parse_format_eq_iff :
    (∀ args, (∃ tail, format args = .ok tail ∧ parse tail = args) ↔ Canonical args) ∧
      (∀ tail, Canonical (parse tail)) ∧
      ∀ tail, ∃ again, format (parse tail) = .ok again ∧ parse again = parse tail := by
  refine ⟨fun args => ⟨?_, fun h => ⟨_, h.format_eq, h.parse_joined⟩⟩, canonical_parse,
    fun tail => ?_⟩
  · rintro ⟨tail, _, rfl⟩
    exact canonical_parse tail
  · exact ⟨_, (canonical_parse tail).format_eq, (canonical_parse tail).parse_joined⟩

end UrlRouting.WildcardArg
