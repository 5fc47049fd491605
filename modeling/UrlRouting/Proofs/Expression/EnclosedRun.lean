import UrlRouting.Expression.Compiled
import UrlRouting.Proofs.Expression.Enclosed

/-! A whole text inside a group. What the reader makes of the text by itself is what it adds to the
group, up to the numbers of groups. -/
namespace UrlRouting.Expression

variable {r r' : Reading} {s t : Source} {x : Token} {fuel : Nat}

namespace Reading

/-- A group is referred to by its number somewhere in what is still to be read. -/
def refersByNumber : (fuel : Nat) → Reading → Bool
  | 0, _ => false
  | fuel + 1, r => match r.source.next? with
    | none => false
    | some t => r.isNumbered t || match r.step t with
      | .ok r' => !r'.conditions.isEmpty || refersByNumber fuel r'
      | .error _ => false

/-- Reading goes from one place to another, in no more steps than there are tokens between. -/
def Reads (r r' : Reading) : Prop :=
  ∃ n, n + r'.source.rest.length ≤ r.source.rest.length ∧ ∀ m, r.run (n + m) = r'.run m

/-- Reading comes to something that is refused. -/
def Refuses (r : Reading) : Prop :=
  ∃ n ≤ r.source.rest.length, ∀ m, ∃ rejection, r.run (n + m) = .error rejection

theorem Reads.refl (r : Reading) : r.Reads r :=
  ⟨0, by simp, by simp⟩

theorem Reads.trans {r'' : Reading} (h : r.Reads r') (h' : r'.Reads r'') : r.Reads r'' := by
  obtain ⟨n, hn, hrun⟩ := h
  obtain ⟨n', hn', hrun'⟩ := h'
  refine ⟨n + n', by omega, fun m => ?_⟩
  rw [Nat.add_assoc, hrun, hrun']

theorem Reads.refuses (h : r.Reads r') (h' : r'.Refuses) : r.Refuses := by
  obtain ⟨n, hn, hrun⟩ := h
  obtain ⟨n', hn', hrun'⟩ := h'
  refine ⟨n + n', by omega, fun m => ?_⟩
  rw [Nat.add_assoc, hrun]
  exact hrun' m

theorem run_step (hx : r.source.next? = some x) : r.run (fuel + 1) = r.step x >>= run fuel := by
  simp only [run, hx]

theorem run_of_end (h : r.source.rest = []) : r.run fuel = .ok r := by
  cases fuel with
  | zero => rfl
  | succ fuel => simp [run, Source.next?, h]

theorem reads_step (hx : r.source.next? = some x) (h : r.step x = .ok r')
    (hlt : r'.source.rest.length < r.source.rest.length) : r.Reads r' := by
  refine ⟨1, by omega, fun m => ?_⟩
  rw [Nat.add_comm, run_step hx, h]
  rfl

theorem refuses_step (hx : r.source.next? = some x) (h : ∃ rejection, r.step x = .error rejection) :
    r.Refuses := by
  obtain ⟨rejection, h⟩ := h
  refine ⟨1, ?_, fun m => ⟨rejection, ?_⟩⟩
  · cases hrest : r.source.rest with
    | nil => simp [Source.next?, hrest] at hx
    | cons => simp
  · rw [Nat.add_comm, run_step hx, h]
    rfl

/-- A reading that comes to the end of its text ends there, with one step for each token. -/
theorem Reads.run_eq (h : r.Reads r') (hend : r'.source.rest = []) :
    r.run r.source.rest.length = .ok r' := by
  obtain ⟨n, hn, hrun⟩ := h
  obtain ⟨m, hm⟩ : ∃ m, r.source.rest.length = n + m := ⟨_, (Nat.add_sub_of_le (by omega)).symm⟩
  rw [hm, hrun, run_of_end hend]

theorem Refuses.run_eq (h : r.Refuses) :
    ∃ rejection, r.run r.source.rest.length = .error rejection := by
  obtain ⟨n, hn, hrun⟩ := h
  obtain ⟨m, hm⟩ : ∃ m, r.source.rest.length = n + m := ⟨_, (Nat.add_sub_of_le hn).symm⟩
  rw [hm]
  exact hrun m

/-- Each step uses the token that comes next. -/
theorem skip_of_step (h : r.step x = .ok r') : ∃ t, r.source.skip = .ok t := by
  cases hs : r.source.skip with
  | ok t => exact ⟨t, rfl⟩
  | error rejection =>
    simp only [step, nextBranch, closeGroup, hs, refuse] at h
    split at h
    · split at h <;> cases h
    · split at h
      · split at h <;> cases h
      · cases h

end Reading

namespace Enclosure

open Source Reading

variable {e : Enclosure} {conditions : List (Nat × Nat)}

/-- A group with nothing in front of it. -/
def first : Enclosure where
  before := 0
  after := [.plain ')']
  closes := rfl
  groups := .empty
  next_pos := Nat.le_refl 1
  closed_lt := by simp [GroupTable.empty]
  no_lookbehind := rfl
  kind := .plain
  no_condition := by simp
  start := 0
  outer := []

theorem Avoids.of_prefix (h : r.groups.names <+: r'.groups.names) (ha : e.Avoids r') :
    e.Avoids r :=
  fun n hn => ha n (h.subset hn)

/-- What is known of a step on the way to the end of a text. -/
structure Passes (fuel : Nat) (r q : Reading) (x : Token) (t : Source) : Prop where
  next : r.source.next? = some x
  step : r.step x = .ok q
  skip : r.source.skip = .ok t
  reaches : r.source.Reaches t
  unnumbered : r.isNumbered x = false
  conditions : q.conditions = []
  rest : q.refersByNumber fuel = false
  ends : q.source.rest = [] → q.outer = []

/-- A reading that is to end with no group open is at the end, or else takes a step. -/
theorem passes_of_run (hr : r.Sound) (hn : r.refersByNumber (fuel + 1) = false)
    (hrun : r.run (fuel + 1) = .ok r') (hout : r'.outer = []) :
    r.source.rest = [] ∧ r' = r ∨ ∃ q x t, Passes fuel r q x t ∧ q.run fuel = .ok r' := by
  cases hx : r.source.next? with
  | none =>
    have hend : r.source.rest = [] := List.head?_eq_none_iff.1 hx
    rw [run_of_end hend] at hrun
    exact .inl ⟨hend, (Except.ok.inj hrun).symm⟩
  | some x =>
    have hne : r.source.rest ≠ [] := by
      intro h
      simp [next?, h] at hx
    rw [run_step hx] at hrun
    obtain ⟨q, hq, hrun⟩ := bind_eq_ok.1 hrun
    simp only [refersByNumber, hx, hq, Bool.or_eq_false_iff, Bool.not_eq_false',
      List.isEmpty_iff] at hn
    obtain ⟨hnumbered, hqc, hqn⟩ := hn
    obtain ⟨t, ht⟩ := skip_of_step hq
    refine .inr ⟨q, x, t, ⟨hx, hq, ht, (skip_eq_ok hr.settled ht hne).1, hnumbered, hqc, hqn, ?_⟩,
      hrun⟩
    intro hend
    rw [run_of_end hend] at hrun
    cases hrun
    exact hout

theorem Passes.follows {q : Reading} (e : Enclosure) (conditions : List (Nat × Nat))
    (h : Passes fuel r q x t) (hr : r.Sound) (ha : e.Avoids r) (hc : r.conditions = []) :
    Settles t r q ∧ (e.Avoids q → (r.within e conditions).step x = .ok (q.within e conditions)) ∧
      (¬e.Avoids q → ∃ rejection, (r.within e conditions).step x = .error rejection) :=
  follows_step hr ha hc h.next h.unnumbered h.skip q h.step h.conditions h.ends

theorem Passes.settles {q : Reading} (h : Passes fuel r q x t) (hr : r.Sound)
    (hc : r.conditions = []) : Settles t r q :=
  (h.follows first [] hr (fun _ _ => rfl) hc).1

theorem Passes.length_lt {q : Reading} (h : Passes fuel r q x t) (hs : Settles t r q)
    (hr : r.Sound) : q.source.rest.length < r.source.rest.length := by
  have hne : r.source.rest ≠ [] := by
    intro hnil
    have := h.next
    simp [next?, hnil] at this
  have := (skip_eq_ok hr.settled h.skip hne).2
  have := hs.reaches.length_le
  omega

/-- A text that can be read by itself is read to its end. -/
theorem settles_run (hr : r.Sound) (hc : r.conditions = [])
    (hfuel : r.source.rest.length ≤ fuel) (hn : r.refersByNumber fuel = false)
    (hrun : r.run fuel = .ok r') (hout : r'.outer = []) :
    r'.source.rest = [] ∧ r'.conditions = [] ∧ Settles r.source r r' := by
  induction fuel generalizing r with
  | zero =>
    cases hrun
    exact ⟨List.length_eq_zero_iff.1 (by omega), hc, .refl hr.settled, hr, List.prefix_rfl⟩
  | succ fuel ih =>
    rcases passes_of_run hr hn hrun hout with ⟨hend, rfl⟩ | ⟨q, x, t, hp, hrun⟩
    · exact ⟨hend, hc, .refl hr.settled, hr, List.prefix_rfl⟩
    · have hs := hp.settles hr hc
      have hlt := hp.length_lt hs hr
      obtain ⟨hend, hc', hs'⟩ := ih hs.sound hp.conditions (by omega) hp.rest hrun
      exact ⟨hend, hc', hp.reaches.trans (hs.reaches.trans hs'.reaches), hs'.sound,
        hs.names.trans hs'.names⟩

/-- Inside the group the same is read, or a name that has been given before is refused. -/
theorem reads_or_refuses (e : Enclosure) (conditions : List (Nat × Nat)) (hr : r.Sound)
    (ha : e.Avoids r)
    (hc : r.conditions = []) (hfuel : r.source.rest.length ≤ fuel)
    (hn : r.refersByNumber fuel = false) (hrun : r.run fuel = .ok r') (hout : r'.outer = []) :
    (e.Avoids r' → (r.within e conditions).Reads (r'.within e conditions)) ∧
      (¬e.Avoids r' → (r.within e conditions).Refuses) := by
  induction fuel generalizing r with
  | zero =>
    cases hrun
    exact ⟨fun _ => .refl _, fun hno => absurd ha hno⟩
  | succ fuel ih =>
    rcases passes_of_run hr hn hrun hout with ⟨hend, rfl⟩ | ⟨q, x, t, hp, hrun⟩
    · exact ⟨fun _ => .refl _, fun hno => absurd ha hno⟩
    · obtain ⟨hs, hok, herr⟩ := hp.follows e conditions hr ha hc
      have hlt := hp.length_lt hs hr
      have hne : r.source.rest ≠ [] := by
        intro hnil
        simp [hnil] at hlt
      have hxw : (r.within e conditions).source.next? = some x := (next?_within hne).trans hp.next
      have hlt' : (q.within e conditions).source.rest.length <
          (r.within e conditions).source.rest.length := by
        simpa [Reading.within, source, Source.within] using hlt
      by_cases hav : e.Avoids q
      · have hstep := reads_step hxw (hok hav) hlt'
        obtain ⟨hread, href⟩ := ih hs.sound hav hp.conditions (by omega) hp.rest hrun
        exact ⟨fun h => hstep.trans (hread h), fun h => hstep.refuses (href h)⟩
      · have hrest := settles_run hs.sound hp.conditions (by omega) hp.rest hrun hout
        exact ⟨fun h => absurd (h.of_prefix hrest.2.2.names) hav,
          fun _ => refuses_step hxw (herr hav)⟩

end Enclosure

end UrlRouting.Expression
