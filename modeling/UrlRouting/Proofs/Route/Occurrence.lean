import Mathlib.Data.List.Forall2
import UrlRouting.Proofs.Route.Merging

/-! Arguments that are merged one after the other, by the places at which they come: each name keeps
the place where it comes first, and has what comes last with it. -/
namespace UrlRouting.WildcardArg

variable {a b c : WildcardArg} {args news calls : List WildcardArg} {i : Nat}

/-- What comes at a place has a name that nothing before it has. Positional arguments have none, so
that this holds of each of them. -/
structure FirstAt (calls : List WildcardArg) (i : Nat) (a : WildcardArg) : Prop where
  call : calls[i]? = some a
  fresh : ∀ j b, j < i → calls[j]? = some b → sameName a b = false

/-- The last one of those that have the name of `a`. -/
def LastOf (calls : List WildcardArg) (a b : WildcardArg) : Prop :=
  ∃ i : Nat, calls[i]? = some b ∧ sameName a b = true ∧
    ∀ j c, i < j → calls[j]? = some c → sameName a c = false

/-! ### Positional arguments -/

/-- What has the name of another argument is named too. -/
theorem isPositional_of_sameName (h : sameName a b = true) : b.isPositional = false := by
  rw [sameName, Bool.and_eq_true, Bool.not_eq_true'] at h
  obtain ⟨ha, heq⟩ := h
  by_contra hb
  rw [Bool.not_eq_false, isPositional_iff] at hb
  have hnone : a.name = .none := by
    rw [hb] at heq
    cases hname : a.name <;>
      simp_all [Value.equal, Value.isNan, Value.agrees, Value.scalarEqual, Value.asInt?]
  rw [isPositional_iff.2 hnone] at ha
  cases ha

theorem filter_replaceOrAppend (ha : a.isPositional = false) :
    (replaceOrAppend a args).filter isPositional = args.filter isPositional := by
  induction args with
  | nil => simp [replaceOrAppend, ha]
  | cons b args ih =>
    rw [replaceOrAppend]
    split
    · next heq =>
      have hb : b.isPositional = false :=
        isPositional_of_sameName (a := a) (by simp [sameName, ha, heq])
      simp [ha, hb]
    · rw [List.filter_cons, List.filter_cons, ih]

theorem filter_merge : (merge args a).filter isPositional = (args ++ [a]).filter isPositional := by
  by_cases ha : a.isPositional = true
  · rw [merge, if_pos ha]
  · rw [Bool.not_eq_true] at ha
    rw [merge, if_neg (by simp [ha]), filter_replaceOrAppend ha, List.filter_append]
    simp [ha]

/-- Whatever the names, positional arguments are kept in their order. -/
theorem filter_mergeAll :
    (mergeAll args news).filter isPositional = (args ++ news).filter isPositional := by
  induction news generalizing args with
  | nil => simp [mergeAll]
  | cons a news ih =>
    have hfold : mergeAll args (a :: news) = mergeAll (merge args a) news := rfl
    rw [hfold, ih, List.filter_append, filter_merge, ← List.filter_append, List.append_assoc]
    rfl

/-! ### One argument for a name -/

theorem sameName_of_both (ha : IsLabel a.name) (hb : IsLabel b.name) (hc : IsLabel c.name)
    (hab : sameName a b = true) (hac : sameName a c = true) : sameName b c = true := by
  obtain ⟨_, hab'⟩ := (sameName_iff ha hb).1 hab
  obtain ⟨_, hac'⟩ := (sameName_iff ha hc).1 hac
  exact (sameName_iff hb hc).2 ⟨isPositional_of_sameName hab, hab'.symm.trans hac'⟩

theorem sameName_comm (ha : IsLabel a.name) (hb : IsLabel b.name) :
    sameName a b = sameName b a := by
  have hturn : ∀ {x y : WildcardArg}, IsLabel x.name → IsLabel y.name → sameName x y = true →
      sameName y x = true := by
    intro x y hx hy h
    exact sameName_of_both hx hy hx h (sameName_self hx ((sameName_iff hx hy).1 h).1)
  rw [Bool.eq_iff_iff]
  exact ⟨hturn ha hb, hturn hb ha⟩

theorem distinct_iff : Distinct args ↔ args.Pairwise fun a b => sameName b a = false := by
  simp [Distinct, sameName, or_iff_not_imp_left]

/-- Where no argument replaces another one, a name that is there is there once. -/
theorem filter_sameName (ha : IsLabel a.name) (h : Labelled args) (hb : b ∈ args)
    (hab : sameName a b = true) : args.filter (sameName a) = [b] := by
  obtain ⟨before, after, rfl⟩ := List.append_of_mem hb
  obtain ⟨_, hlater, hcross⟩ := List.pairwise_append.1 (distinct_iff.1 h.distinct)
  have hbefore : ∀ c ∈ before, ¬ sameName a c = true := by
    intro c hc hac
    have hbc := sameName_of_both ha (h.label b hb) (h.label c (by simp [hc])) hab hac
    rw [hcross c hc b List.mem_cons_self] at hbc
    cases hbc
  have hafter : ∀ c ∈ after, ¬ sameName a c = true := by
    intro c hc hac
    have hcb := sameName_of_both ha (h.label c (by simp [hc])) (h.label b hb) hac hab
    rw [(List.pairwise_cons.1 hlater).1 c hc] at hcb
    cases hcb
  rw [List.filter_append, List.filter_cons, if_pos hab, List.filter_eq_nil_iff.2 hbefore,
    List.filter_eq_nil_iff.2 hafter]
  rfl

/-! ### First places -/

theorem getElem?_concat_eq_some : (calls ++ [a])[i]? = some b ↔
    calls[i]? = some b ∨ i = calls.length ∧ b = a := by
  by_cases hi : i < calls.length
  · rw [List.getElem?_append_left hi]
    have hne : i ≠ calls.length := by omega
    simp [hne]
  · have hnone : calls[i]? = none := List.getElem?_eq_none (by omega)
    rw [List.getElem?_append_right (by omega), hnone, List.getElem?_singleton]
    have hplace : i - calls.length = 0 ↔ i = calls.length := by omega
    simp [hplace, eq_comm]

theorem lt_length_of_getElem? (h : calls[i]? = some b) : i < calls.length :=
  (List.getElem?_eq_some_iff.1 h).1

theorem firstAt_concat : FirstAt (calls ++ [a]) i b ↔
    FirstAt calls i b ∨ i = calls.length ∧ b = a ∧ calls.any (sameName a) = false := by
  constructor
  · rintro ⟨hcall, hfresh⟩
    rcases getElem?_concat_eq_some.1 hcall with hcall | ⟨rfl, rfl⟩
    · exact .inl ⟨hcall, fun j c hj hc => hfresh j c hj (getElem?_concat_eq_some.2 (.inl hc))⟩
    · refine .inr ⟨rfl, rfl, List.any_eq_false.2 fun c hc => ?_⟩
      obtain ⟨j, hj⟩ := List.mem_iff_getElem?.1 hc
      rw [Bool.not_eq_true]
      exact hfresh j c (lt_length_of_getElem? hj) (getElem?_concat_eq_some.2 (.inl hj))
  · rintro (⟨hcall, hfresh⟩ | ⟨rfl, rfl, hnone⟩)
    · refine ⟨getElem?_concat_eq_some.2 (.inl hcall), fun j c hj hc => ?_⟩
      have hi := lt_length_of_getElem? hcall
      rcases getElem?_concat_eq_some.1 hc with hc | ⟨rfl, _⟩
      · exact hfresh j c hj hc
      · omega
    · refine ⟨getElem?_concat_eq_some.2 (.inr ⟨rfl, rfl⟩), fun j c hj hc => ?_⟩
      rcases getElem?_concat_eq_some.1 hc with hc | ⟨rfl, _⟩
      · simpa using List.any_eq_false.1 hnone c (List.mem_of_getElem? hc)
      · omega

/-- Where a name is, it is also where duplicates are left out. -/
theorem any_eraseDupsBy (h : ∀ b ∈ calls, IsLabel b.name) (ha : IsLabel a.name) :
    (calls.eraseDupsBy sameName).any (sameName a) = calls.any (sameName a) := by
  induction calls using List.reverseRecOn with
  | nil => rfl
  | append_singleton calls b ih =>
    have hcalls : ∀ c ∈ calls, IsLabel c.name := fun c hc => h c (List.mem_append_left _ hc)
    have hb : IsLabel b.name := h b (by simp)
    rw [eraseDupsBy_concat, List.any_append, ← ih hcalls]
    split
    · next hsome =>
      -- `b` has the name of one that is kept
      obtain ⟨c, hc, hbc⟩ := List.any_eq_true.1 hsome
      have hcl := hcalls c (mem_of_mem_eraseDupsBy hc)
      by_cases hab : sameName a b = true
      · have hac : sameName a c = true := by
          rw [← sameName_congr ha hcl hb hbc]
          exact hab
        rw [List.any_eq_true.2 ⟨c, hc, hac⟩, Bool.true_or]
      · simp [hab]
    · rw [List.any_append]

/-- Those that are kept stand in the order of their first places. -/
theorem exists_places (h : ∀ a ∈ calls, IsLabel a.name) : ∃ places : List Nat,
    places.Pairwise (· < ·) ∧ (∀ i, i ∈ places ↔ ∃ a, FirstAt calls i a) ∧
      List.Forall₂ (FirstAt calls) places (calls.eraseDupsBy sameName) := by
  induction calls using List.reverseRecOn with
  | nil =>
    refine ⟨[], .nil, fun i => ?_, .nil⟩
    simp only [List.not_mem_nil, false_iff]
    rintro ⟨a, ha⟩
    cases ha.call
  | append_singleton calls a ih =>
    have hcalls : ∀ b ∈ calls, IsLabel b.name := fun b hb => h b (List.mem_append_left _ hb)
    have ha : IsLabel a.name := h a (by simp)
    obtain ⟨places, hsorted, hmem, hfirst⟩ := ih hcalls
    -- the places so far stay first, and the end is one more unless its name is there
    have hfirst' := hfirst.imp fun i b hb => firstAt_concat (a := a).2 (.inl hb)
    rw [eraseDupsBy_concat, any_eraseDupsBy hcalls ha]
    split
    · next hsome =>
      refine ⟨places, hsorted, fun i => ?_, hfirst'⟩
      rw [hmem]
      refine exists_congr fun b => ?_
      simp [firstAt_concat, hsome]
    · next hnone =>
      rw [Bool.not_eq_true] at hnone
      have hlt : ∀ i ∈ places, i < calls.length := by
        intro i hi
        obtain ⟨b, hb⟩ := (hmem i).1 hi
        exact lt_length_of_getElem? hb.call
      refine ⟨places ++ [calls.length], ?_, fun i => ?_, ?_⟩
      · refine List.pairwise_append.2 ⟨hsorted, List.pairwise_singleton _ _, fun i hi j hj => ?_⟩
        rw [List.mem_singleton.1 hj]
        exact hlt i hi
      · rw [List.mem_append, List.mem_singleton, hmem]
        simp only [firstAt_concat, exists_or, hnone, and_true, exists_and_left, exists_eq]
      · exact List.rel_append hfirst' (.cons (firstAt_concat.2 (.inr ⟨rfl, rfl, hnone⟩)) .nil)

/-! ### Last values -/

theorem LastOf.concat (h : LastOf calls a b) (hac : sameName a c = false) :
    LastOf (calls ++ [c]) a b := by
  obtain ⟨i, hb, hab, hlast⟩ := h
  refine ⟨i, getElem?_concat_eq_some.2 (.inl hb), hab, fun j d hij hd => ?_⟩
  rcases getElem?_concat_eq_some.1 hd with hd | ⟨_, rfl⟩
  · exact hlast j d hij hd
  · exact hac

theorem lastOf_concat_self (hab : sameName a b = true) : LastOf (calls ++ [b]) a b := by
  refine ⟨calls.length, getElem?_concat_eq_some.2 (.inr ⟨rfl, rfl⟩), hab, fun j c hj hc => ?_⟩
  rcases getElem?_concat_eq_some.1 hc with hc | ⟨rfl, _⟩
  · have hlt := lt_length_of_getElem? hc
    omega
  · omega

theorem lastOf_latest (h : ∀ b ∈ calls, IsLabel b.name) (ha : a ∈ calls)
    (hnamed : a.isPositional = false) :
    LastOf calls a (latest calls a) := by
  have hal : IsLabel a.name := h a ha
  induction calls using List.reverseRecOn with
  | nil => cases ha
  | append_singleton calls b ih =>
    have hcalls : ∀ c ∈ calls, IsLabel c.name := fun c hc => h c (List.mem_append_left _ hc)
    have hb : IsLabel b.name := h b (by simp)
    rw [latest_concat, sameName_comm hb hal]
    by_cases hab : sameName a b = true
    · rw [if_pos hab]
      exact lastOf_concat_self hab
    · rw [if_neg hab]
      rcases List.mem_append.1 ha with ha | ha
      · exact (ih hcalls ha).concat (by simpa using hab)
      · rw [List.mem_singleton.1 ha] at hab
        exact absurd (sameName_self hb (List.mem_singleton.1 ha ▸ hnamed)) hab

/-- The last one of a name is the same for all that have the name. -/
theorem LastOf.congr (ha : IsLabel a.name) (hc : IsLabel c.name)
    (hcalls : ∀ d ∈ calls, IsLabel d.name)
    (hac : sameName a c = true) (h : LastOf calls c b) : LastOf calls a b := by
  have hsame : ∀ d, IsLabel d.name → sameName a d = sameName c d := by
    intro d hd
    rw [sameName_comm ha hd, sameName_comm hc hd]
    exact sameName_congr hd hc ha hac
  obtain ⟨i, hb, hcb, hlast⟩ := h
  refine ⟨i, hb, ?_, fun j d hj hd => ?_⟩
  · rw [hsame b (hcalls b (List.mem_of_getElem? hb)), hcb]
  · rw [hsame d (hcalls d (List.mem_of_getElem? hd)), hlast j d hj hd]

/-! ### What merging comes to -/

/-- One argument stands for the name of each that has been given, and it is the last one. -/
theorem exists_lastOf (h : ∀ b ∈ calls, IsLabel b.name) (ha : a ∈ calls)
    (hnamed : a.isPositional = false) :
    ∃ b, LastOf calls a b ∧ (mergeAll [] calls).filter (sameName a) = [b] := by
  have hal : IsLabel a.name := h a ha
  have hsome : (calls.eraseDupsBy sameName).any (sameName a) = true := by
    rw [any_eraseDupsBy h hal]
    exact List.any_eq_true.2 ⟨a, ha, sameName_self hal hnamed⟩
  -- `c` came first with the name of `a`
  obtain ⟨c, hc, hac⟩ := List.any_eq_true.1 hsome
  have hcall : c ∈ calls := mem_of_mem_eraseDupsBy hc
  have hcl : IsLabel c.name := h c hcall
  have hlast : LastOf calls c (latest calls c) :=
    lastOf_latest h hcall (isPositional_of_sameName hac)
  have hmem : latest calls c ∈ mergeAll [] calls := by
    rw [mergeAll_eq_settled h]
    exact List.mem_map_of_mem hc
  have hsame : sameName a (latest calls c) = true := by
    rw [sameName_latest h hal hcl, hac]
  exact ⟨latest calls c, hlast.congr hal hcl h hac,
    filter_sameName hal (labelled_nil.addAll h) hmem hsame⟩

/-- What arguments come to that are merged one after the other into an empty list: the positional
ones, in their order, and one argument for each name, which is the last of that name. Together they
stand in the order of the places where a positional argument or a new name comes, and there is
nothing else. -/
theorem mergeAll_by_places (h : ∀ a ∈ calls, IsLabel a.name) :
    (mergeAll [] calls).filter isPositional = calls.filter isPositional ∧
      (∀ a ∈ calls, a.isPositional = false →
        ∃ b, LastOf calls a b ∧ (mergeAll [] calls).filter (sameName a) = [b]) ∧
      ∃ places : List Nat, places.Pairwise (· < ·) ∧ (∀ i, i ∈ places ↔ ∃ a, FirstAt calls i a) ∧
        List.Forall₂ (fun i b => ∃ a, FirstAt calls i a ∧ if a.isPositional then b = a
          else LastOf calls a b) places (mergeAll [] calls) := by
  refine ⟨filter_mergeAll, fun a ha hnamed => exists_lastOf h ha hnamed, ?_⟩
  obtain ⟨places, hsorted, hmem, hfirst⟩ := exists_places h
  refine ⟨places, hsorted, hmem, ?_⟩
  rw [mergeAll_eq_settled h, settled, List.forall₂_map_right_iff]
  refine hfirst.imp fun i a ha => ⟨a, ha, ?_⟩
  by_cases hpos : a.isPositional = true
  · rw [if_pos hpos, latest_of_positional h hpos]
  · rw [if_neg hpos]
    exact lastOf_latest h (List.mem_of_getElem? ha.call) (by simpa using hpos)

/-- A number and the truth value that is equal to it name one argument, and the text of the number
names another. -/
def numberedCalls : List WildcardArg :=
  [.positional (.str "x"), ⟨.int 1, .str "a"⟩, ⟨.str "1", .str "b"⟩, .positional (.str "y"),
    ⟨.bool true, .str "c"⟩]

/-- The argument that is given last stands where its name comes first, before the text of the
number. -/
theorem mergeAll_by_places_numbered : (∀ a ∈ numberedCalls, IsLabel a.name) ∧
    mergeAll [] numberedCalls =
      [.positional (.str "x"), ⟨.bool true, .str "c"⟩, ⟨.str "1", .str "b"⟩,
      .positional (.str "y")] ∧
    LastOf numberedCalls ⟨.int 1, .str "a"⟩ ⟨.bool true, .str "c"⟩ ∧
    ∃ places : List Nat, places.Pairwise (· < ·) ∧
      (∀ i, i ∈ places ↔ ∃ a, FirstAt numberedCalls i a) ∧ places.length = 4 := by
  have hlabels : ∀ a ∈ numberedCalls, IsLabel a.name := by
    simp [numberedCalls, positional, IsLabel.none, IsLabel.int, IsLabel.str, IsLabel.bool]
  have hmerged : mergeAll [] numberedCalls = [.positional (.str "x"), ⟨.bool true, .str "c"⟩,
      ⟨.str "1", .str "b"⟩, .positional (.str "y")] := rfl
  obtain ⟨_, honce, places, hsorted, hmem, hplaces⟩ := mergeAll_by_places hlabels
  obtain ⟨b, hlast, hb⟩ := honce ⟨.int 1, .str "a"⟩ (by simp [numberedCalls]) rfl
  have hfound : (mergeAll [] numberedCalls).filter (sameName ⟨.int 1, .str "a"⟩) =
      [⟨.bool true, .str "c"⟩] := rfl
  rw [hfound, List.singleton_inj] at hb
  rw [hmerged] at hplaces
  exact ⟨hlabels, hmerged, hb ▸ hlast, places, hsorted, hmem, hplaces.length_eq⟩

end UrlRouting.WildcardArg
