import UrlRouting.Proofs.Pattern.PlainMatch

/-! The constraints of a plain pattern accept just the texts that fit its segments. -/
namespace UrlRouting

open Expression PathMatcher Segment

variable {text : Subject} {st : State} {rest : List Char} {test : CharTest} {s : Segment}
  {p : Pattern} {m : PathMatcher} {name v : String}

theorem run_many_atEnd (hl : Left text st rest) :
    ((Node.many 1 none .greedy test).run text (atEnd text) st).isSome ↔
      rest ≠ [] ∧ ∀ c ∈ rest, test.accepts c := by
  have hsplit : rest = rest.takeWhile test.accepts ++ rest.dropWhile test.accepts :=
    List.takeWhile_append_dropWhile.symm
  simp only [Node.run, runMany, Option.getD_none, runLength_room hl]
  by_cases hall : ∀ c ∈ rest, test.accepts c
  · have hw : rest.takeWhile test.accepts = rest := by
      rw [← List.append_nil rest, List.takeWhile_append_of_pos (by simpa using hall)]
      rfl
    rw [hw]
    cases rest with
    | nil => simp
    | cons c rest =>
      have hend : atEnd text (st.move (1 + ((c :: rest).length - 1))) =
          some (st.move (c :: rest).length) := by
        rw [← List.append_nil (c :: rest)] at hl
        rw [List.length_cons, Nat.add_sub_cancel, Nat.add_comm]
        exact atEnd_eq hl.move
      rw [if_neg (by simp), longestFirst_eq_some hend]
      simpa using hall
  · have hafter : rest.dropWhile test.accepts ≠ [] := by
      intro hnil
      rw [hnil, List.append_nil] at hsplit
      refine hall fun c hc => ?_
      rw [hsplit] at hc
      exact accepts_of_mem_takeWhile hc
    have hshort : ∀ k ≤ (rest.takeWhile test.accepts).length, atEnd text (st.move k) = none := by
      intro k hk
      rw [hsplit, ← List.take_append_drop k (rest.takeWhile test.accepts), List.append_assoc] at hl
      have hmove := hl.move
      rw [List.length_take, Nat.min_eq_left hk] at hmove
      rw [atEnd_eq hmove, if_neg (by simp [hafter])]
    refine iff_of_false ?_ fun h => hall h.2
    split
    · simp
    · rw [longestFirst_of_none fun k hk => hshort _ (by omega), hshort _ (by omega)]
      simp

theorem matchesAll_constraintOf (hn : s.isNamed) :
    (constraintOf s).matchesAll v = true ↔ s.Fits v.toList := by
  rw [fits_iff hn, ← run_many_atEnd (left_path (rfl : v.toList = v.toList))]
  simp only [matchesAll, fullMatch?, Option.isSome_map]
  rfl

/-- The matcher has the constraints of the segments of a pattern. -/
def PathMatcher.Constrains (m : PathMatcher) (p : Pattern) : Prop :=
  m.constraints = (p.segments.filter Segment.isNamed).map fun s => (s.data, constraintOf s)

theorem lookup_reverse_of_mem {entries : List (String × Expression)} {e : Expression}
    (hnodup : (entries.map Prod.fst).Nodup) (h : (name, e) ∈ entries) :
    entries.reverse.lookup name = some e := by
  induction entries with
  | nil => cases h
  | cons entry entries ih =>
    rw [List.map_cons, List.nodup_cons] at hnodup
    rw [List.reverse_cons, List.lookup_append]
    rcases List.mem_cons.1 h with rfl | h
    · have hnone : entries.reverse.lookup name = none := by
        rw [List.lookup_eq_none_iff]
        intro x hx
        have hne : name ≠ x.1 := by
          rintro rfl
          exact hnodup.1 (List.mem_map.2 ⟨x, List.mem_reverse.1 hx, rfl⟩)
        simpa using hne
      simp [hnone]
    · rw [ih hnodup.2 h]
      rfl

theorem constraint?_of_mem (hm : m.Constrains p) (hdistinct : p.names.Nodup)
    (hs : s ∈ p.segments) (hn : s.isNamed) : m.constraint? s.data = some (constraintOf s) := by
  rw [PathMatcher.constraint?, hm]
  refine lookup_reverse_of_mem ?_ ?_
  · simpa [Pattern.names, Function.comp_def] using hdistinct
  · exact List.mem_map.2 ⟨s, List.mem_filter.2 ⟨hs, hn⟩, rfl⟩

theorem hasSegment_iff_mem : m.hasSegment name = true ↔ name ∈ m.constraints.map Prod.fst := by
  rw [PathMatcher.hasSegment, PathMatcher.constraint?, List.lookup_isSome_iff]
  simp

theorem hasSegment_iff (hm : m.Constrains p) : m.hasSegment name = true ↔ name ∈ p.names := by
  rw [hasSegment_iff_mem, hm, Pattern.names]
  simp [Function.comp_def]

theorem accepts_iff (hm : m.Constrains p) (hdistinct : p.names.Nodup) (hs : s ∈ p.segments)
    (hn : s.isNamed) : m.accepts s.data v = true ↔ s.Fits v.toList := by
  rw [PathMatcher.accepts, constraint?_of_mem hm hdistinct hs hn]
  exact matchesAll_constraintOf hn

end UrlRouting
