import Mathlib.Data.List.Induction
import UrlRouting.Proofs.Route.WildcardArg

/-! What arguments that are merged one after the other come to. -/
namespace UrlRouting.WildcardArg

variable {a b c : WildcardArg} {args : List WildcardArg}

/-- Both are named, and by equal names. -/
def sameName (a b : WildcardArg) : Bool :=
  !a.isPositional && b.name.equal a.name

/-- The last of the arguments that has the name of this one. -/
def latest (args : List WildcardArg) (a : WildcardArg) : WildcardArg :=
  (args.reverse.find? fun b => sameName b a).getD a

/-- Positional arguments stand where they came. Of those with one name the last one stands, in the
place of the first. -/
def settled (args : List WildcardArg) : List WildcardArg :=
  (args.eraseDupsBy sameName).map (latest args)

/-! ### Names -/

theorem isPositional_iff : a.isPositional = true ↔ a.name = .none := by
  unfold isPositional
  split <;> simp_all

theorem sameName_iff (ha : IsLabel a.name) (hb : IsLabel b.name) :
    sameName a b = true ↔ a.isPositional = false ∧ counted a.name = counted b.name := by
  rw [sameName, Bool.and_eq_true, Bool.not_eq_true', equal_iff_counted hb ha]
  exact and_congr_right fun _ => eq_comm

theorem sameName_self (ha : IsLabel a.name) (hnamed : a.isPositional = false) :
    sameName a a = true :=
  (sameName_iff ha ha).2 ⟨hnamed, rfl⟩

/-- An argument that is positional has the name of no other. -/
theorem sameName_of_positional (ha : IsLabel a.name) (hb : b.isPositional = true) :
    sameName a b = false := by
  rw [isPositional_iff] at hb
  have hlabel : IsLabel b.name := hb ▸ .none
  rw [Bool.eq_false_iff, Ne, sameName_iff ha hlabel, hb]
  rintro ⟨hnamed, hsame⟩
  have hnone : a.name = .none := by
    cases hname : a.name <;> simp_all [counted]
  rw [isPositional_iff.2 hnone] at hnamed
  cases hnamed

theorem sameName_congr (ha : IsLabel a.name) (hb : IsLabel b.name) (hc : IsLabel c.name)
    (h : sameName c b = true) : sameName a c = sameName a b := by
  obtain ⟨_, hname⟩ := (sameName_iff hc hb).1 h
  rw [Bool.eq_iff_iff, sameName_iff ha hc, sameName_iff ha hb, hname]

/-! ### The last argument of a name -/

theorem latest_concat : latest (args ++ [a]) b = if sameName a b then a else latest args b := by
  rw [latest, List.reverse_append, List.reverse_singleton, List.singleton_append, List.find?_cons]
  cases sameName a b <;> rfl

theorem latest_eq_self_or (args : List WildcardArg) (b : WildcardArg) :
    latest args b = b ∨ latest args b ∈ args ∧ sameName (latest args b) b = true := by
  unfold latest
  cases h : args.reverse.find? fun c => sameName c b with
  | none => exact .inl rfl
  | some c =>
    refine .inr ⟨List.mem_reverse.1 (List.mem_of_find?_eq_some h), ?_⟩
    exact List.find?_some (p := fun c => sameName c b) h

theorem latest_of_positional (hargs : ∀ c ∈ args, IsLabel c.name) (hb : b.isPositional = true) :
    latest args b = b := by
  rcases latest_eq_self_or args b with h | ⟨hmem, h⟩
  · exact h
  · rw [sameName_of_positional (hargs _ hmem) hb] at h
    cases h

/-- The last argument of a name has that name. -/
theorem sameName_latest (hargs : ∀ c ∈ args, IsLabel c.name) (ha : IsLabel a.name)
    (hb : IsLabel b.name) : sameName a (latest args b) = sameName a b := by
  rcases latest_eq_self_or args b with h | ⟨hmem, h⟩
  · rw [h]
  · exact sameName_congr ha hb (hargs _ hmem) h

/-! ### Merging -/

theorem replaceOrAppend_eq (ha : IsLabel a.name) (hnamed : a.isPositional = false)
    (h : Labelled args) :
    replaceOrAppend a args = if args.any (sameName a) then
      args.map fun b => if sameName a b then a else b else args ++ [a] := by
  induction args with
  | nil => rfl
  | cons b args ih =>
    obtain ⟨hb, hargs⟩ := List.forall_mem_cons.1 h.label
    obtain ⟨hfirst, hdistinct⟩ := List.pairwise_cons.1 h.distinct
    have hsame : b.name.equal a.name = sameName a b := by rw [sameName, hnamed]; rfl
    rw [replaceOrAppend, hsame, List.any_cons, List.map_cons]
    cases hab : sameName a b with
    | true =>
      -- no other argument has the name
      have hrest : ∀ c ∈ args, (if sameName a c then a else c) = c := by
        intro c hc
        refine if_neg fun hac => ?_
        obtain ⟨_, hac'⟩ := (sameName_iff ha (hargs c hc)).1 hac
        obtain ⟨_, hab'⟩ := (sameName_iff ha hb).1 hab
        rcases hfirst c hc with hpos | hne
        · rw [sameName_of_positional ha hpos] at hac
          cases hac
        · rw [Bool.eq_false_iff, Ne, equal_iff_counted hb (hargs c hc)] at hne
          exact hne (hab'.symm.trans hac')
      simp [List.map_congr_left hrest]
    | false =>
      rw [ih ⟨hargs, hdistinct⟩]
      cases args.any (sameName a) <;> simp

theorem eraseDupsBy_loop_concat (r : WildcardArg → WildcardArg → Bool) (seen : List WildcardArg) :
    List.eraseDupsBy.loop r (args ++ [a]) seen =
      if (List.eraseDupsBy.loop r args seen).any (r a) then
      List.eraseDupsBy.loop r args seen else List.eraseDupsBy.loop r args seen ++ [a] := by
  induction args generalizing seen with
  | nil =>
    rw [List.nil_append, List.eraseDupsBy.loop, List.eraseDupsBy.loop, List.any_reverse]
    cases seen.any (r a) <;> simp [List.eraseDupsBy.loop]
  | cons b args ih =>
    rw [List.cons_append, List.eraseDupsBy.loop, List.eraseDupsBy.loop]
    cases seen.any (r b) <;> exact ih _

theorem eraseDupsBy_concat (r : WildcardArg → WildcardArg → Bool) :
    (args ++ [a]).eraseDupsBy r =
      if (args.eraseDupsBy r).any (r a) then args.eraseDupsBy r else args.eraseDupsBy r ++ [a] :=
  eraseDupsBy_loop_concat r []

theorem mem_of_mem_eraseDupsBy {r : WildcardArg → WildcardArg → Bool} (h : b ∈ args.eraseDupsBy r) :
    b ∈ args := by
  induction args using List.reverseRecOn with
  | nil => cases h
  | append_singleton args a ih =>
    rw [eraseDupsBy_concat] at h
    split at h
    · exact List.mem_append_left _ (ih h)
    · exact List.mem_append.2 ((List.mem_append.1 h).imp_left ih)

/-- A further argument takes the place of the one that has its name, if there is one. -/
theorem merge_settled (ha : IsLabel a.name) (h : ∀ b ∈ args, IsLabel b.name)
    (hdistinct : Distinct (settled args)) : merge (settled args) a = settled (args ++ [a]) := by
  have hplaces : ∀ b ∈ args.eraseDupsBy sameName, IsLabel b.name :=
    fun b hb => h b (mem_of_mem_eraseDupsBy hb)
  have hlabels : ∀ b ∈ settled args, IsLabel b.name := by
    intro b hb
    obtain ⟨c, hc, rfl⟩ := List.mem_map.1 hb
    rcases latest_eq_self_or args c with heq | ⟨hmem, _⟩
    · rw [heq]
      exact hplaces c hc
    · exact h _ hmem
  have hself : latest (args ++ [a]) a = a := by
    rw [latest_concat]
    cases hpos : a.isPositional with
    | true => rw [latest_of_positional h hpos, ite_self]
    | false => rw [if_pos (sameName_self ha hpos)]
  have hany : (settled args).any (sameName a) = (args.eraseDupsBy sameName).any (sameName a) := by
    rw [settled, List.any_map, Bool.eq_iff_iff, List.any_eq_true, List.any_eq_true]
    refine exists_congr fun b => and_congr_right fun hb => ?_
    rw [Function.comp_apply, sameName_latest h ha (hplaces b hb)]
  have hfresh : (args.eraseDupsBy sameName).any (sameName a) = false →
      settled args ++ [a] = settled (args ++ [a]) := by
    intro hnone
    rw [settled, settled, eraseDupsBy_concat, hnone, if_neg Bool.false_ne_true, List.map_append,
      List.map_singleton, hself]
    refine congrArg (· ++ [a]) (List.map_congr_left fun b hb => ?_)
    rw [latest_concat, if_neg (List.any_eq_false.1 hnone b hb)]
  unfold merge
  split
  · next hpos =>
    refine hfresh (List.any_eq_false.2 fun b _ => ?_)
    simp [sameName, hpos]
  · next hnamed =>
    rw [replaceOrAppend_eq ha (by simpa using hnamed) ⟨hlabels, hdistinct⟩, hany]
    split
    · next hsome =>
      rw [settled, settled, eraseDupsBy_concat, if_pos hsome, List.map_map]
      refine List.map_congr_left fun b hb => ?_
      rw [Function.comp_apply, sameName_latest h ha (hplaces b hb), latest_concat]
    · next hnone => exact hfresh (by simpa using hnone)

/-- Arguments with labels for names come to what is described. -/
theorem mergeAll_eq_settled (h : ∀ a ∈ args, IsLabel a.name) : mergeAll [] args = settled args := by
  induction args using List.reverseRecOn with
  | nil => rfl
  | append_singleton args a ih =>
    have hargs : ∀ b ∈ args, IsLabel b.name := fun b hb => h b (List.mem_append_left _ hb)
    have ha : IsLabel a.name := h a (by simp)
    have hfold : mergeAll [] (args ++ [a]) = merge (mergeAll [] args) a := List.foldl_append
    rw [hfold, ih hargs, merge_settled ha hargs]
    rw [← ih hargs]
    exact (labelled_nil.addAll hargs).distinct

end UrlRouting.WildcardArg
