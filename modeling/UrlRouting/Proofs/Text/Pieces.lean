import UrlRouting.Text.Pieces

/-! Cutting what has been joined, and trimming what has slashes at its ends. -/
namespace UrlRouting.Text

variable {sep : Char} {s t : List Char} {p : List Char} {parts : List (List Char)}
  {drop : Char → Bool}

theorem joinPieces_cons (h : parts ≠ []) :
    joinPieces sep (p :: parts) = p ++ sep :: joinPieces sep parts := by
  cases parts with
  | nil => exact absurd rfl h
  | cons q parts => simp [joinPieces, List.intercalate]

theorem joinPieces_append {others : List (List Char)} (h : parts ≠ []) (hothers : others ≠ []) :
    joinPieces sep (parts ++ others) = joinPieces sep parts ++ sep :: joinPieces sep others := by
  induction parts with
  | nil => exact absurd rfl h
  | cons p parts ih =>
    rw [List.cons_append, joinPieces_cons (by simp [hothers])]
    cases parts with
    | nil => simp [joinPieces]
    | cons q parts => rw [ih (by simp), joinPieces_cons (p := p) (by simp), List.append_assoc,
        List.cons_append]

/-- The pieces of two texts with a separator between them are those of the one and of the other. -/
theorem pieces_separated : pieces sep (s ++ sep :: t) = pieces sep s ++ pieces sep t := by
  induction s with
  | nil => simp [pieces]
  | cons c s ih =>
    rw [List.cons_append, pieces, pieces, ih]
    split
    · rfl
    · have hne : pieces sep s ≠ [] := pieces_ne_nil
      obtain ⟨p, parts, hs⟩ := List.exists_cons_of_ne_nil hne
      rw [hs]
      rfl

theorem pieces_of_not_mem (hp : sep ∉ p) : pieces sep p = [p] := by
  induction p with
  | nil => rfl
  | cons c p ih =>
    simp only [List.mem_cons, not_or] at hp
    rw [pieces, if_neg (Ne.symm hp.1), ih hp.2]
    rfl

theorem pieces_append (hp : sep ∉ p) : pieces sep (p ++ sep :: s) = p :: pieces sep s := by
  rw [pieces_separated, pieces_of_not_mem hp]
  rfl

theorem pieces_joinPieces (hne : parts ≠ []) (h : ∀ p ∈ parts, sep ∉ p) :
    pieces sep (joinPieces sep parts) = parts := by
  induction parts with
  | nil => exact absurd rfl hne
  | cons p parts ih =>
    obtain ⟨hp, hparts⟩ := List.forall_mem_cons.1 h
    cases parts with
    | nil =>
      have : joinPieces sep [p] = p := by simp [joinPieces]
      rw [this, pieces_of_not_mem hp]
    | cons q parts => rw [joinPieces_cons (by simp), pieces_append hp, ih (by simp) hparts]

theorem mem_of_mem_pieces {c : Char} (hp : p ∈ pieces sep s) (hc : c ∈ p) : c ∈ s := by
  induction s generalizing p with
  | nil =>
    rw [List.mem_singleton.1 hp] at hc
    cases hc
  | cons d s ih =>
    rw [pieces] at hp
    split at hp
    · rcases List.mem_cons.1 hp with rfl | hp
      · cases hc
      · exact List.mem_cons_of_mem _ (ih hp hc)
    · cases hs : pieces sep s with
      | nil => exact absurd hs pieces_ne_nil
      | cons q qs =>
        rw [hs, List.modifyHead_cons] at hp
        rw [hs] at ih
        rcases List.mem_cons.1 hp with rfl | hp
        · rcases List.mem_cons.1 hc with rfl | hc
          · exact List.mem_cons_self
          · exact List.mem_cons_of_mem _ (ih List.mem_cons_self hc)
        · exact List.mem_cons_of_mem _ (ih (List.mem_cons_of_mem _ hp) hc)

theorem mem_joinPieces {c : Char} (h : c ∈ joinPieces sep parts) :
    c = sep ∨ ∃ p ∈ parts, c ∈ p := by
  induction parts with
  | nil => simp [joinPieces] at h
  | cons p parts ih =>
    by_cases hne : parts = []
    · subst hne
      exact .inr ⟨p, List.mem_cons_self, by simpa [joinPieces] using h⟩
    · rw [joinPieces_cons hne] at h
      rcases List.mem_append.1 h with hp | h
      · exact .inr ⟨p, List.mem_cons_self, hp⟩
      · rcases List.mem_cons.1 h with hsep | h
        · exact .inl hsep
        · rcases ih h with hsep | ⟨q, hq, hc⟩
          · exact .inl hsep
          · exact .inr ⟨q, List.mem_cons_of_mem _ hq, hc⟩

/-! ### Cutting at a separator -/

theorem cutFirst?_eq_none : cutFirst? sep s = none ↔ sep ∉ s := by
  induction s with
  | nil => simp [cutFirst?]
  | cons c s ih =>
    rw [cutFirst?]
    split
    · next hc => simp [hc]
    · next hc => simp [ih, Ne.symm hc]

theorem cutFirst?_eq_some {before after : List Char} :
    cutFirst? sep s = some (before, after) ↔ s = before ++ sep :: after ∧ sep ∉ before := by
  induction s generalizing before with
  | nil => simp [cutFirst?]
  | cons c s ih =>
    rw [cutFirst?]
    split
    · next hc => cases before <;> simp_all
    · next hc =>
      have hmap : ((cutFirst? sep s).map fun p => (c :: p.1, p.2)) = some (before, after) ↔
          ∃ rest, before = c :: rest ∧ cutFirst? sep s = some (rest, after) := by
        rw [Option.map_eq_some_iff]
        constructor
        · rintro ⟨⟨rest, _⟩, hcut, heq⟩
          cases heq
          exact ⟨rest, rfl, hcut⟩
        · rintro ⟨rest, rfl, hcut⟩
          exact ⟨_, hcut, rfl⟩
      rw [hmap]
      constructor
      · rintro ⟨rest, rfl, hcut⟩
        obtain ⟨rfl, hrest⟩ := ih.1 hcut
        exact ⟨rfl, by simpa [Ne.symm hc] using hrest⟩
      · rintro ⟨hs, hbefore⟩
        cases before with
        | nil => exact absurd (List.cons.inj hs).1 hc
        | cons d rest =>
          obtain ⟨rfl, rfl⟩ := List.cons.inj hs
          exact ⟨rest, rfl, ih.2 ⟨rfl, fun hmem => hbefore (List.mem_cons_of_mem _ hmem)⟩⟩

theorem cutLast?_eq_none : cutLast? sep s = none ↔ sep ∉ s := by
  induction s with
  | nil => simp [cutLast?]
  | cons c s ih =>
    rw [cutLast?]
    cases hs : cutLast? sep s with
    | some cut =>
      have hmem : sep ∈ s := by simpa [hs] using ih
      simp [hmem]
    | none => simpa [eq_comm] using fun _ => ih.1 hs

theorem cutLast?_eq_some {before after : List Char} :
    cutLast? sep s = some (before, after) ↔ s = before ++ sep :: after ∧ sep ∉ after := by
  induction s generalizing before after with
  | nil => simp [cutLast?]
  | cons c s ih =>
    rw [cutLast?]
    cases hs : cutLast? sep s with
    | some cut =>
      obtain ⟨b, a⟩ := cut
      obtain ⟨rfl, hlast⟩ := ih.1 hs
      cases before with
      | nil =>
        -- the text that is left has a separator too
        have hmem : c = sep → b ++ sep :: a = after → sep ∈ after := by
          rintro _ rfl
          simp
        simpa using hmem
      | cons d before =>
        have hrest := @ih before after
        rw [hs] at hrest
        simp only [Option.some.injEq, Prod.mk.injEq] at hrest ⊢
        simp [and_assoc, hrest]
    | none =>
      have hfree := cutLast?_eq_none.1 hs
      cases before with
      | nil =>
        by_cases hc : c = sep
        · subst hc
          simpa using fun h => h ▸ hfree
        · simp [hc]
      | cons d before =>
        have hne : s ≠ before ++ sep :: after := by
          rintro rfl
          simp at hfree
        by_cases hc : c = sep <;> simp [hc, hne]

/-! ### Trimming -/

theorem mem_trimEnd {c : Char} (h : c ∈ trimEnd drop s) : c ∈ s := by
  have := List.mem_reverse.1 h
  exact List.mem_reverse.1 ((List.dropWhile_suffix _).subset this)

theorem trimEnd_append (h : ∀ c ∈ t, drop c) : trimEnd drop (s ++ t) = trimEnd drop s := by
  have : ∀ c ∈ t.reverse, drop c := fun c hc => h c (List.mem_reverse.1 hc)
  rw [trimEnd, List.reverse_append, List.dropWhile_append_of_pos this]
  rfl

theorem trimEnd_eq_self (h : ∀ c, s.getLast? = some c → drop c = false) : trimEnd drop s = s := by
  rw [trimEnd]
  cases hs : s.reverse with
  | nil => simpa using hs.symm
  | cons c rest =>
    have hlast : s.getLast? = some c := by
      rw [← List.head?_reverse, hs]
      rfl
    rw [List.dropWhile_cons, if_neg (by simp [h c hlast]), ← hs, List.reverse_reverse]

/-- Only what is dropped at the ends is lost. -/
theorem trim_eq {before after : List Char} (hb : ∀ c ∈ before, drop c) (ha : ∀ c ∈ after, drop c)
    (hfirst : ∀ c, s.head? = some c → drop c = false)
    (hlast : ∀ c, s.getLast? = some c → drop c = false) :
    trim drop (before ++ s ++ after) = s := by
  rw [trim, List.append_assoc, List.dropWhile_append_of_pos hb]
  cases s with
  | nil =>
    have hdrop : after.dropWhile drop = [] := by
      rw [← List.append_nil after, List.dropWhile_append_of_pos ha]
      rfl
    rw [List.nil_append, hdrop]
    rfl
  | cons c s =>
    rw [List.cons_append, List.dropWhile_cons, if_neg (by simp [hfirst c rfl]), ← List.cons_append,
      trimEnd_append ha, trimEnd_eq_self hlast]

/-- What is lost at the ends is dropped. -/
theorem exists_trim (drop : Char → Bool) (s : List Char) : ∃ before after,
    (∀ c ∈ before, drop c = true) ∧ (∀ c ∈ after, drop c = true) ∧
      s = before ++ trim drop s ++ after := by
  refine ⟨s.takeWhile drop, ((s.dropWhile drop).reverse.takeWhile drop).reverse,
    List.all_eq_true.1 List.all_takeWhile, fun c hc => ?_, ?_⟩
  · exact List.all_eq_true.1 List.all_takeWhile c (List.mem_reverse.1 hc)
  · rw [trim, trimEnd, List.append_assoc, ← List.reverse_append, List.takeWhile_append_dropWhile,
      List.reverse_reverse, List.takeWhile_append_dropWhile]

theorem trimEnd_prefix (drop : Char → Bool) (s : List Char) : trimEnd drop s <+: s := by
  rw [trimEnd, ← List.reverse_suffix, List.reverse_reverse]
  exact List.dropWhile_suffix _

theorem head?_trim {c : Char} (h : (trim drop s).head? = some c) : drop c = false := by
  obtain ⟨rest, hrest⟩ := List.head?_eq_some_iff.1 h
  obtain ⟨more, hmore⟩ := trimEnd_prefix drop (s.dropWhile drop)
  rw [trim] at hrest
  rw [hrest, List.cons_append] at hmore
  have hfirst := List.head?_dropWhile_not drop s
  rw [← hmore] at hfirst
  simpa using hfirst

/-- Only a text that begins with a separator has an empty first piece. -/
theorem head?_pieces (h : (pieces sep s).head? = some []) : s = [] ∨ s.head? = some sep := by
  cases s with
  | nil => exact .inl rfl
  | cons c s =>
    refine .inr ?_
    rw [pieces] at h
    split at h
    · next hc => rw [List.head?_cons, hc]
    · simp [List.head?_modifyHead] at h

theorem joinPieces_ne_nil (sep : Char) (hne : parts ≠ []) (h : ∀ p ∈ parts, p ≠ []) :
    joinPieces sep parts ≠ [] := by
  rcases parts with _ | ⟨p, _ | ⟨q, parts⟩⟩
  · exact absurd rfl hne
  · simpa [joinPieces] using h
  · rw [joinPieces_cons (by simp)]
    simp

theorem mem_of_head?_joinPieces {c : Char} (h : ∀ p ∈ parts, p ≠ [])
    (hc : (joinPieces sep parts).head? = some c) : ∃ p ∈ parts, c ∈ p := by
  rcases parts with _ | ⟨p, _ | ⟨q, parts⟩⟩
  · cases hc
  · refine ⟨p, by simp, List.mem_of_head? ?_⟩
    simpa [joinPieces] using hc
  · rw [joinPieces_cons (by simp)] at hc
    obtain ⟨d, p, rfl⟩ := List.exists_cons_of_ne_nil (h p (by simp))
    cases hc
    exact ⟨_, List.mem_cons_self, List.mem_cons_self⟩

theorem mem_of_getLast?_joinPieces {c : Char} (h : ∀ p ∈ parts, p ≠ [])
    (hc : (joinPieces sep parts).getLast? = some c) : ∃ p ∈ parts, c ∈ p := by
  induction parts with
  | nil => cases hc
  | cons p parts ih =>
    obtain ⟨hp, hparts⟩ := List.forall_mem_cons.1 h
    cases parts with
    | nil =>
      refine ⟨p, by simp, List.mem_of_getLast? ?_⟩
      simpa [joinPieces] using hc
    | cons q parts =>
      have hlast : (joinPieces sep (q :: parts)).getLast? = some c := by
        have hne := joinPieces_ne_nil sep (by simp) hparts
        rw [joinPieces_cons (by simp), List.getLast?_append, List.getLast?_cons_of_ne_nil hne] at hc
        rw [List.getLast?_eq_some_getLast hne] at hc ⊢
        exact hc
      obtain ⟨p', hp', hmem⟩ := ih hparts hlast
      exact ⟨p', List.mem_cons_of_mem _ hp', hmem⟩

theorem getLast?_trimEnd {c : Char} (h : (trimEnd drop s).getLast? = some c) : drop c = false := by
  rw [trimEnd, List.getLast?_reverse] at h
  have := List.head?_dropWhile_not drop s.reverse
  rw [h] at this
  simpa using this

theorem trim_trim (drop : Char → Bool) (s : List Char) : trim drop (trim drop s) = trim drop s := by
  have h : trim drop ([] ++ trim drop s ++ []) = trim drop s :=
    trim_eq nofun nofun (fun _ => head?_trim) fun _ => getLast?_trimEnd
  rwa [List.nil_append, List.append_nil] at h

theorem trim_map {f : Char → Char} (h : ∀ c, drop (f c) = drop c) (s : List Char) :
    trim drop (s.map f) = (trim drop s).map f := by
  have hdrop : drop ∘ f = drop := funext h
  rw [trim, trim, trimEnd, trimEnd, List.dropWhile_map, hdrop, ← List.map_reverse,
    List.dropWhile_map, hdrop, List.map_reverse]

/-- Only a text that ends in a separator has an empty last piece. -/
theorem getLast?_pieces (h : (pieces sep s).getLast? = some []) :
    s = [] ∨ s.getLast? = some sep := by
  induction s with
  | nil => exact .inl rfl
  | cons c s ih =>
    refine .inr ?_
    rw [pieces] at h
    split at h
    · next hc =>
      rw [List.getLast?_cons_of_ne_nil pieces_ne_nil] at h
      rcases ih h with rfl | hs
      · rw [hc]
        rfl
      · rw [List.getLast?_cons, hs]
        rfl
    · cases hp : pieces sep s with
      | nil => exact absurd hp pieces_ne_nil
      | cons q qs =>
        rw [hp, List.modifyHead_cons] at h
        cases qs with
        | nil => simp at h
        | cons r rs =>
          have hlast : (pieces sep s).getLast? = some [] := by
            rw [hp]
            simpa using h
          rcases ih hlast with rfl | hs
          · cases hp
          · rw [List.getLast?_cons, hs]
            rfl

end UrlRouting.Text
