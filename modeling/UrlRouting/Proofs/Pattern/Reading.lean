import UrlRouting.Pattern.Basic
import UrlRouting.Proofs.Related
import UrlRouting.Proofs.Text.Pieces

/-! What is known of a pattern that has been read. -/
namespace UrlRouting

variable {s : Segment} {p : Pattern} {part pattern : List Char} {seen : List String}
  {segments : List Segment}

namespace Segment

/-- The segments that parts of a pattern stand for. -/
inductive Written : Segment → Prop
  | exact {text : List Char} (h : '/' ∉ text) : Written (.exact text)
  | placeholder (name : List Char) : Written (.placeholder name)
  | constrained {name expression : String} {e : Expression}
      (h : Expression.compile false (isolated expression) = .ok e) :
      Written ⟨.constrained, name, expression⟩

theorem written_of_part (hpart : '/' ∉ part) (h : ofPart part = .ok s) : s.Written := by
  unfold ofPart at h
  split at h
  · cases h
    exact .exact hpart
  · cases h
    exact .placeholder _
  · simp only [constrained] at h
    split at h
    · next hc =>
      cases h
      exact .constrained hc
    · cases h

end Segment

namespace Pattern

theorem readParts_cons {text : String} {parts : List (List Char)}
    (h : readParts text seen (part :: parts) = .ok segments) :
    ∃ s rest, Segment.ofPart part = .ok s ∧ (s.isNamed → s.data ∉ seen) ∧
      readParts text (if s.isNamed then s.data :: seen else seen) parts = .ok rest ∧
      segments = s :: rest := by
  unfold readParts at h
  cases hs : Segment.ofPart part with
  | error e => simp [hs, bind, Except.bind] at h
  | ok s =>
    simp only [hs, bind, Except.bind] at h
    split at h
    · cases h
    · next hseen =>
      cases hrest : readParts text (if s.isNamed then s.data :: seen else seen) parts with
      | error e => simp [hrest] at h
      | ok rest =>
        simp only [hrest] at h
        cases h
        refine ⟨s, rest, rfl, fun hn hmem => hseen ?_, hrest, rfl⟩
        simp [hn, hmem]

/-- Each part is read by itself. -/
theorem forall₂_readParts {text : String} {parts : List (List Char)}
    (h : readParts text seen parts = .ok segments) :
    List.Forall₂ (fun part s => Segment.ofPart part = .ok s) parts segments := by
  induction parts generalizing seen segments with
  | nil =>
    cases h
    exact .nil
  | cons part parts ih =>
    obtain ⟨s, rest, hs, _, hrest, rfl⟩ := readParts_cons h
    exact .cons hs (ih hrest)

/-- A name is neither among those seen before nor given twice. -/
theorem nodup_readParts {text : String} {parts : List (List Char)}
    (h : readParts text seen parts = .ok segments) :
    ((segments.filter Segment.isNamed).map Segment.data).Nodup ∧
      ∀ name ∈ (segments.filter Segment.isNamed).map Segment.data, name ∉ seen := by
  induction parts generalizing seen segments with
  | nil =>
    cases h
    simp
  | cons part parts ih =>
    obtain ⟨s, rest, _, hseen, hrest, rfl⟩ := readParts_cons h
    obtain ⟨hnodup, hfresh⟩ := ih hrest
    cases hn : s.isNamed with
    | false =>
      rw [hn] at hfresh
      simpa [hn] using ⟨hnodup, by simpa using hfresh⟩
    | true =>
      simp only [hn, if_true] at hfresh
      simp only [List.filter_cons, hn, if_true, List.map_cons, List.nodup_cons, List.mem_cons,
        forall_eq_or_imp]
      refine ⟨⟨fun hmem => hfresh _ hmem (by simp), hnodup⟩, hseen hn, fun name hname hmem => ?_⟩
      exact hfresh name hname (List.mem_cons_of_mem _ hmem)

/-- The parts that become segments. -/
def fixedParts (pattern : List Char) : List (List Char) :=
  if (parts pattern).getLast? == some ['*'] then (parts pattern).dropLast else parts pattern

theorem read_eq_ok_iff {text : String} : read text = .ok p ↔
    text ≠ "" ∧ text.toList.head? = some '/' ∧
      readParts text [] (fixedParts text.toList) = .ok p.segments ∧
        p.wildcard = ((parts text.toList).getLast? == some ['*']) := by
  have hread : (readParts text [] (fixedParts text.toList) >>= fun segments =>
      pure ⟨segments, (parts text.toList).getLast? == some ['*']⟩) = .ok p ↔
        readParts text [] (fixedParts text.toList) = .ok p.segments ∧
          p.wildcard = ((parts text.toList).getLast? == some ['*']) := by
    obtain ⟨segments, wildcard⟩ := p
    cases readParts text [] (fixedParts text.toList) with
    | error e => exact iff_of_false nofun nofun
    | ok found =>
      constructor
      · intro h
        cases h
        exact ⟨rfl, rfl⟩
      · rintro ⟨h, rfl⟩
        cases h
        rfl
  unfold read
  split
  · next hnil => exact iff_of_false nofun fun h => h.1 (by simpa using hnil)
  · next hne =>
    have hne : text ≠ "" := by simpa using hne
    split
    · next hslash => exact iff_of_false nofun fun h => by simp [h.2.1] at hslash
    · next hslash =>
      have hslash : text.toList.head? = some '/' := by simpa using hslash
      simp only [hne, hslash, ne_eq, not_false_eq_true, true_and]
      exact hread

theorem read_eq_ok {text : String} (h : read text = .ok p) :
    readParts text [] (fixedParts text.toList) = .ok p.segments ∧
      p.wildcard = ((parts text.toList).getLast? == some ['*']) :=
  (read_eq_ok_iff.1 h).2.2

theorem mem_parts_of_mem_fixedParts (h : part ∈ fixedParts pattern) : part ∈ parts pattern := by
  unfold fixedParts at h
  split at h
  · exact List.dropLast_subset _ h
  · exact h

theorem written_of_read {text : String} (h : read text = .ok p) : ∀ s ∈ p.segments, s.Written := by
  have hparts := forall₂_readParts (read_eq_ok h).1
  intro s hs
  obtain ⟨i, hi, rfl⟩ := List.mem_iff_getElem.1 hs
  have hi' : i < (fixedParts text.toList).length := by rwa [hparts.length_eq]
  have hpart := mem_parts_of_mem_fixedParts (List.getElem_mem hi')
  exact Segment.written_of_part (Text.not_mem_of_mem_pieces hpart) (hparts.get hi' hi)

theorem nodup_names {text : String} (h : read text = .ok p) : p.names.Nodup :=
  (nodup_readParts (read_eq_ok h).1).1

/-- Only a wildcard stands alone. -/
theorem wildcard_of_nil {text : String} (h : read text = .ok p) (hnil : p.segments = []) :
    p.wildcard := by
  obtain ⟨hparts, hw⟩ := read_eq_ok h
  have hlen := (forall₂_readParts hparts).length_eq.symm
  rw [hnil] at hlen
  cases hstar : (parts text.toList).getLast? == some ['*'] with
  | true => rw [hw, hstar]
  | false =>
    rw [fixedParts, hstar, if_neg (by simp)] at hlen
    exact absurd (List.length_eq_zero_iff.1 hlen.symm) Text.pieces_ne_nil

theorem exact_nil_of_part (h : Segment.ofPart part = .ok (.exact [])) : part = [] := by
  unfold Segment.ofPart at h
  split at h
  · have hs : Segment.exact part = .exact [] := by injection h
    have hdata : String.ofList part = String.ofList [] := congrArg Segment.data hs
    simpa using hdata
  · cases h
  · simp only [Segment.constrained] at h
    split at h <;> cases h

/-- Since slashes at the ends of a pattern are left out, only the pattern of the bare slash ends in
an empty literal. -/
theorem getLast?_of_read {text : String} (h : read text = .ok p) (hwild : p.wildcard = false) :
    p.segments = [.exact []] ∨ p.segments.getLast? ≠ some (.exact []) := by
  obtain ⟨hparts, hw⟩ := read_eq_ok h
  rw [fixedParts, ← hw, hwild, if_neg (by simp)] at hparts
  have hall := forall₂_readParts hparts
  by_cases hlast : p.segments.getLast? = some (.exact [])
  · obtain ⟨part, hpart, hread⟩ := getLast?_forall₂ hall hlast
    rw [exact_nil_of_part hread, parts] at hpart
    rcases Text.getLast?_pieces hpart with hnil | hslash
    · rw [parts, hnil] at hall
      obtain ⟨s, rest, hs, hrest, hsegments⟩ := List.forall₂_cons_left_iff.1 hall
      rw [List.forall₂_nil_left_iff.1 hrest] at hsegments
      cases hs
      exact .inl hsegments
    · exact absurd (Text.getLast?_trimEnd hslash) (by simp)
  · exact .inr hlast

end Pattern

end UrlRouting
