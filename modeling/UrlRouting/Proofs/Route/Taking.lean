import UrlRouting.Proofs.Route.Built
import UrlRouting.Proofs.Route.WildcardArg

/-! Taking in the values of a mapping: what becomes of each of them, and what is left of the values
that a route had before. -/
namespace UrlRouting.Route

open Expression

variable {r t : Route} {d d' m n m' : Mapping} {args args' : List WildcardArg} {k v : Value}
  {name : String} {entries : List (Value × Value)} {free : Value → Prop}

theorem segmentName?_eq_some : r.segmentName? k = some name ↔
    k = .str name ∧ r.matcher.hasSegment name = true := by
  cases k with
  | str s =>
    simp only [segmentName?, Value.str.injEq]
    split
    · next h => exact ⟨fun hs => Option.some.inj hs ▸ ⟨rfl, h⟩, fun hs => congrArg some hs.1⟩
    · next h => exact ⟨fun hs => (by cases hs), fun hs => absurd (hs.1 ▸ hs.2) h⟩
  | _ => simp [segmentName?]

/-! ### Single entries -/

/-- The argument that a key stands for where it can be written. -/
def argOf (key value : Value) : WildcardArg :=
  if key.isPositional then .positional value else ⟨.str key.text, value⟩

theorem argFor_eq_ok {a : WildcardArg} : argFor k v = .ok a ↔
    (k.isPositional = true ∨ k.isWritable = true) ∧ argOf k v = a := by
  unfold argFor argOf
  cases k.isPositional with
  | true => simp [pure, Except.pure]
  | false =>
    rw [if_neg (by simp), if_neg (by simp), bind_eq_ok]
    constructor
    · rintro ⟨text, hwrite, h⟩
      obtain ⟨hk, rfl⟩ := Value.write_eq_ok.1 hwrite
      exact ⟨.inr hk, Except.ok.inj h⟩
    · rintro ⟨hk, rfl⟩
      exact ⟨_, Value.write_of_isWritable (hk.resolve_left (by simp)), rfl⟩

theorem argFor_eq_error {err : RoutingError} : argFor k v = .error err ↔
    (k.isPositional = false ∧ k.isWritable = false) ∧ err = .numberUnwritable := by
  unfold argFor
  cases k.isPositional with
  | true => simp [pure, Except.pure]
  | false =>
    rw [if_neg (by simp), bind_eq_error, Value.write_eq_error]
    simp [pure, Except.pure]

/-- What becomes of a key and its value, where they are taken in. -/
inductive Intake (r : Route) (d : Mapping) (args : List WildcardArg) (k v : Value) :
    Mapping → List WildcardArg → Prop
  | segment {name : String} (hk : r.segmentName? k = some name) (hsome : v.isNothing = false)
      (hv : v.isWritable = true) (haccepts : r.matcher.accepts name v.text = true) :
      Intake r d args k v (d.insert k v) args
  | own {x : Value} (hk : r.segmentName? k = none) (hget : d.get? k = some x)
      (hsame : x.identical v = true) : Intake r d args k v d args
  | arg (hk : r.segmentName? k = none) (hget : d.get? k = none) (hwild : r.hasWildcard = true)
      (hname : k.isPositional = true ∨ k.isWritable = true) :
      Intake r d args k v d (WildcardArg.merge args (argOf k v))

theorem takeEntry_eq_some :
    r.takeEntry d args k v = .ok (some (d', args')) ↔ Intake r d args k v d' args' := by
  constructor
  · intro h
    unfold takeEntry at h
    split at h
    · next name hk =>
      split at h
      · cases h
      · next hsome =>
        obtain ⟨text, hwrite, h⟩ := bind_eq_ok.1 h
        obtain ⟨hv, rfl⟩ := Value.write_eq_ok.1 hwrite
        split at h
        · next haccepts =>
          cases h
          exact .segment hk (by simpa using hsome) hv haccepts
        · cases h
    · next hk =>
      split at h
      · next x hget =>
        split at h
        · next hsame =>
          cases h
          exact .own hk hget hsame
        · cases h
      · next hget =>
        split at h
        · cases h
        · next hwild =>
          obtain ⟨a, harg, h⟩ := bind_eq_ok.1 h
          obtain ⟨hname, rfl⟩ := argFor_eq_ok.1 harg
          cases h
          exact .arg hk hget (by simpa using hwild) hname
  · intro h
    cases h with
    | segment hk hsome hv haccepts =>
      rw [takeEntry, hk]
      simp only [hsome, Value.write_of_isWritable hv, ok_bind, haccepts]
      rfl
    | own hk hget hsame => simp [takeEntry, hk, hget, hsame]
    | arg hk hget hwild hname =>
      rw [takeEntry, hk, hget, argFor_eq_ok.2 ⟨hname, rfl⟩]
      simp only [hwild]
      rfl

/-- What is needed of a key and its value cannot be written: the value for a segment, or the key
that is to name an argument. -/
inductive Blocked (r : Route) (d : Mapping) (k v : Value) : Prop
  | segment {name : String} (hk : r.segmentName? k = some name) (hsome : v.isNothing = false)
      (hv : v.isWritable = false)
  | arg (hk : r.segmentName? k = none) (hget : d.get? k = none) (hwild : r.hasWildcard = true)
      (hpositional : k.isPositional = false) (hname : k.isWritable = false)

theorem takeEntry_eq_error {err : RoutingError} :
    r.takeEntry d args k v = .error err ↔ err = .numberUnwritable ∧ Blocked r d k v := by
  constructor
  · intro h
    unfold takeEntry at h
    split at h
    · next name hk =>
      split at h
      · cases h
      · next hsome =>
        rcases bind_eq_error.1 h with h | ⟨text, _, h⟩
        · obtain ⟨hv, herr⟩ := Value.write_eq_error.1 h
          exact ⟨herr, .segment hk (by simpa using hsome) hv⟩
        · split at h <;> cases h
    · next hk =>
      split at h
      · cases h
      · next hget =>
        split at h
        · cases h
        · next hwild =>
          rcases bind_eq_error.1 h with h | ⟨_, _, h⟩
          · obtain ⟨⟨hpositional, hname⟩, herr⟩ := argFor_eq_error.1 h
            exact ⟨herr, .arg hk hget (by simpa using hwild) hpositional hname⟩
          · cases h
  · rintro ⟨rfl, h⟩
    cases h with
    | segment hk hsome hv =>
      rw [takeEntry, hk]
      simp only [hsome, Value.write_of_not_isWritable hv]
      rfl
    | arg hk hget hwild hpositional hname =>
      rw [takeEntry, hk, hget, argFor_eq_error.2 ⟨⟨hpositional, hname⟩, rfl⟩]
      simp only [hwild]
      rfl

theorem takeEntries_cons {x : Mapping × List WildcardArg} :
    r.takeEntries d args ((k, v) :: entries) = .ok (some x) ↔
      ∃ d' args', Intake r d args k v d' args' ∧ r.takeEntries d' args' entries = .ok (some x) := by
  rw [takeEntries, bind_eq_ok]
  constructor
  · rintro ⟨taken, htaken, h⟩
    cases taken with
    | none => cases h
    | some taken => exact ⟨taken.1, taken.2, takeEntry_eq_some.1 htaken, h⟩
  · rintro ⟨d', args', htaken, h⟩
    exact ⟨_, takeEntry_eq_some.2 htaken, h⟩

theorem exists_intake_of_get?_eq (h : r.segmentName? k = none → m.get? k = n.get? k)
    (args : List WildcardArg) (htaken : ∃ m' args', Intake r m args k v m' args')
    (others : List WildcardArg) : ∃ n' others', Intake r n others k v n' others' := by
  obtain ⟨m', args', htaken⟩ := htaken
  cases htaken with
  | segment hk hsome hv haccepts => exact ⟨_, _, .segment hk hsome hv haccepts⟩
  | own hk hget hsame => exact ⟨_, _, .own hk ((h hk).symm.trans hget) hsame⟩
  | arg hk hget hwild hname => exact ⟨_, _, .arg hk ((h hk).symm.trans hget) hwild hname⟩

theorem blocked_of_get?_eq (h : r.segmentName? k = none → m.get? k = n.get? k)
    (hblocked : Blocked r m k v) : Blocked r n k v := by
  cases hblocked with
  | segment hk hsome hv => exact .segment hk hsome hv
  | arg hk hget hwild hpositional hname =>
    exact .arg hk ((h hk).symm.trans hget) hwild hpositional hname

theorem isSome_takeEntry (h : r.segmentName? k = none → m.get? k = n.get? k)
    (args others : List WildcardArg) :
    (r.takeEntry m args k v).map Option.isSome = (r.takeEntry n others k v).map Option.isSome := by
  have hback := fun hk => (h hk).symm
  cases htaken : r.takeEntry m args k v with
  | error err =>
    obtain ⟨rfl, hblocked⟩ := takeEntry_eq_error.1 htaken
    rw [takeEntry_eq_error.2 ⟨rfl, blocked_of_get?_eq h hblocked⟩]
  | ok taken => cases taken with
    | some taken =>
      obtain ⟨n', others', hn⟩ :=
        exists_intake_of_get?_eq h args ⟨_, _, takeEntry_eq_some.1 htaken⟩ others
      rw [takeEntry_eq_some.2 hn]
      rfl
    | none => cases hother : r.takeEntry n others k v with
      | error err =>
        obtain ⟨rfl, hblocked⟩ := takeEntry_eq_error.1 hother
        cases htaken.symm.trans (takeEntry_eq_error.2 ⟨rfl, blocked_of_get?_eq hback hblocked⟩)
      | ok taken => cases taken with
        | none => rfl
        | some taken =>
          obtain ⟨m', args', hm⟩ :=
            exists_intake_of_get?_eq hback others ⟨_, _, takeEntry_eq_some.1 hother⟩ args
          cases htaken.symm.trans (takeEntry_eq_some.2 hm)

/-- Mappings have the same values under the keys of entries that are not names of segments. -/
def AgreeElsewhere (r : Route) (entries : List (Value × Value)) (m n : Mapping) : Prop :=
  ∀ e ∈ entries, r.segmentName? e.1 = none → m.get? e.1 = n.get? e.1

/-- Only the value of a segment is changed as an entry is taken in. -/
theorem Intake.agreeElsewhere (htaken : Intake r d args k v d' args')
    (h : r.AgreeElsewhere entries d m) : r.AgreeElsewhere entries d' m := by
  intro e he hk
  rw [← h e he hk]
  cases htaken with
  | @segment name hname =>
    obtain ⟨rfl, _⟩ := segmentName?_eq_some.1 hname
    refine Mapping.get?_insert_str ?_
    rintro hkey
    rw [← hkey, hk] at hname
    cases hname
  | own => rfl
  | arg => rfl

/-- What comes of the entries does not depend on the values of segments, nor on the arguments. -/
theorem isSome_takeEntries (h : r.AgreeElsewhere entries m n) (args others : List WildcardArg) :
    (r.takeEntries m args entries).map Option.isSome =
      (r.takeEntries n others entries).map Option.isSome := by
  induction entries generalizing m n args others with
  | nil => rfl
  | cons e entries ih =>
    obtain ⟨k, v⟩ := e
    obtain ⟨hfirst, hrest⟩ := List.forall_mem_cons.1 h
    rw [takeEntries, takeEntries]
    rcases outcomes_of_isSome (isSome_takeEntry (v := v) hfirst args others) with
      ⟨err, hm, hn⟩ | ⟨hm, hn⟩ | ⟨⟨m', args'⟩, ⟨n', others'⟩, hm, hn⟩
    · rw [hm, hn]
    · rw [hm, hn]
    · rw [hm, hn]
      have hm' : r.AgreeElsewhere entries m' n := (takeEntry_eq_some.1 hm).agreeElsewhere hrest
      have hn' : r.AgreeElsewhere entries n' m' :=
        (takeEntry_eq_some.1 hn).agreeElsewhere fun e he hk => (hm' e he hk).symm
      exact ih (fun e he hk => (hn' e he hk).symm) args' others'

/-- Routes with one matcher take in the same. -/
theorem takeEntries_congr (h : r.matcher = t.matcher) :
    r.takeEntries d args entries = t.takeEntries d args entries := by
  have hentry : r.takeEntry = t.takeEntry := by
    cases r
    cases t
    cases h
    rfl
  induction entries generalizing d args with
  | nil => rfl
  | cons e entries ih =>
    obtain ⟨k, v⟩ := e
    simp only [takeEntries, hentry, ih]

/-! ### Segments -/

theorem get?_of_takeEntries_of_ne (h : r.takeEntries d args entries = .ok (some (d', args')))
    (hne : ∀ e ∈ entries, e.1 ≠ .str name) : d'.get? (.str name) = d.get? (.str name) := by
  induction entries generalizing d args with
  | nil =>
    cases h
    rfl
  | cons e entries ih =>
    obtain ⟨k, v⟩ := e
    obtain ⟨hk, hne⟩ := List.forall_mem_cons.1 hne
    obtain ⟨d₁, args₁, htaken, h⟩ := takeEntries_cons.1 h
    rw [ih h hne]
    cases htaken with
    | @segment other hother =>
      obtain ⟨rfl, _⟩ := segmentName?_eq_some.1 hother
      exact Mapping.get?_insert_of_ne fun heq => hk (congrArg Value.str heq.symm)
    | own => rfl
    | arg => rfl

/-- A value for a segment is kept, and the segment has accepted it. -/
theorem get?_of_takeEntries (h : r.takeEntries d args entries = .ok (some (d', args')))
    (hdistinct : Mapping.Distinct entries) (hv : (.str name, v) ∈ entries)
    (hsegment : r.matcher.hasSegment name = true) :
    d'.get? (.str name) = some v ∧ v.isNothing = false ∧ v.isWritable = true ∧
      r.matcher.accepts name v.text = true := by
  induction entries generalizing d args with
  | nil => cases hv
  | cons e entries ih =>
    obtain ⟨hne, hdistinct⟩ := List.pairwise_cons.1 hdistinct
    obtain ⟨d₁, args₁, htaken, h⟩ := takeEntries_cons.1 h
    rcases List.mem_cons.1 hv with rfl | hv
    · have hname : r.segmentName? (.str name) = some name := segmentName?_eq_some.2 ⟨rfl, hsegment⟩
      have hrest : ∀ e ∈ entries, e.1 ≠ .str name := by
        intro e he heq
        have hself := hne e he
        rw [heq, Value.agrees_self] at hself
        cases hself
      cases htaken with
      | segment hk hsome hv haccepts =>
        obtain rfl := Option.some.inj (hname.symm.trans hk)
        rw [get?_of_takeEntries_of_ne h hrest, Mapping.get?_insert_self]
        exact ⟨rfl, hsome, hv, haccepts⟩
      | own hk | arg hk =>
        rw [hname] at hk
        cases hk
    · exact ih h hdistinct hv

/-! ### What is left -/

/-- No key is lost and none is new, and other values than those of segments stay. -/
theorem varies_of_takeEntries (h : r.takeEntries d args entries = .ok (some (d', args')))
    (hfree : ∀ k name, r.segmentName? k = some name → d.has k = true ∧ free k) :
    d.Varies free d' := by
  induction entries generalizing d args with
  | nil =>
    cases h
    exact Mapping.Varies.refl free _
  | cons e entries ih =>
    obtain ⟨d₁, args₁, htaken, h⟩ := takeEntries_cons.1 h
    have hfirst : d.Varies free d₁ := by
      cases htaken with
      | segment hk =>
        obtain ⟨hhas, hfree⟩ := hfree _ _ hk
        rw [(segmentName?_eq_some.1 hk).1] at hhas hfree ⊢
        exact Mapping.varies_insert hhas hfree
      | own => exact Mapping.Varies.refl free d
      | arg => exact Mapping.Varies.refl free d
    refine hfirst.trans (ih h fun k name hk => ?_)
    obtain ⟨hhas, hfree⟩ := hfree k name hk
    rw [(segmentName?_eq_some.1 hk).1] at hhas hfree ⊢
    exact ⟨hfirst.has_eq ▸ hhas, hfree⟩

theorem args_of_takeEntries (h : r.takeEntries d args entries = .ok (some (d', args')))
    (hfixed : r.hasWildcard = false) : args' = args := by
  induction entries generalizing d args with
  | nil =>
    cases h
    rfl
  | cons e entries ih =>
    obtain ⟨d₁, args₁, htaken, h⟩ := takeEntries_cons.1 h
    rw [ih h]
    cases htaken with
    | segment => rfl
    | own => rfl
    | arg _ _ hwild _ =>
      rw [hfixed] at hwild
      cases hwild

/-- What holds of arguments, and keeps holding as keys become arguments. -/
theorem args_induction {P : List WildcardArg → Prop}
    (hP : ∀ args k v, P args → P (WildcardArg.merge args (argOf k v)))
    (h : r.takeEntries d args entries = .ok (some (d', args'))) (hargs : P args) : P args' := by
  induction entries generalizing d args with
  | nil =>
    cases h
    exact hargs
  | cons e entries ih =>
    obtain ⟨d₁, args₁, htaken, h⟩ := takeEntries_cons.1 h
    refine ih h ?_
    cases htaken with
    | segment => exact hargs
    | own => exact hargs
    | arg => exact hP _ _ _ hargs

theorem get?_eq_of_varies (h : m.Varies free n)
    (hfree : ∀ k, free k → ∃ name, r.segmentName? k = some name) (hk : r.segmentName? k = none) :
    m.get? k = n.get? k := by
  refine h.get?_eq fun l hl hfreel => ?_
  obtain ⟨name, hname⟩ := hfree l hfreel
  obtain rfl := (segmentName?_eq_some.1 hname).1
  rw [Value.str_agrees.1 hl, hname] at hk
  cases hk

/-- Values that differ under names of segments only are all the same in the end where each of these
names is given a value. -/
theorem takeEntries_varies (h : m.Varies free n) (hm : m.Distinct)
    (hfree : ∀ k, free k → ∃ name, r.segmentName? k = some name)
    (htaken : r.takeEntries m args entries = .ok (some (m', args'))) :
    ∃ n', r.takeEntries n args entries = .ok (some (n', args')) ∧
      m'.Varies (fun k => free k ∧ ∀ e ∈ entries, e.1 ≠ k) n' := by
  induction entries generalizing m n args free with
  | nil =>
    cases htaken
    exact ⟨n, rfl, h.mono fun k hk => ⟨hk, by simp⟩⟩
  | cons e entries ih =>
    obtain ⟨k, v⟩ := e
    obtain ⟨m₁, args₁, hfirst, hrest⟩ := takeEntries_cons.1 htaken
    have hget : r.segmentName? k = none → m.get? k = n.get? k := get?_eq_of_varies h hfree
    have hother : r.segmentName? k = none → ∀ l, free l → k ≠ l := by
      rintro hk l hfreel rfl
      obtain ⟨name, hname⟩ := hfree k hfreel
      rw [hname] at hk
      cases hk
    cases hfirst with
    | @segment name hk hsome hv haccepts =>
      obtain ⟨rfl, _⟩ := segmentName?_eq_some.1 hk
      obtain ⟨n', hn', hvaries⟩ := ih (h.insert hm) hm.insert (fun l hl => hfree l hl.1) hrest
      refine ⟨n', takeEntries_cons.2 ⟨_, _, .segment hk hsome hv haccepts, hn'⟩, hvaries.mono ?_⟩
      rintro l ⟨⟨hl, hne⟩, hrest⟩
      exact ⟨hl, List.forall_mem_cons.2 ⟨Ne.symm hne, hrest⟩⟩
    | own hk hx hsame =>
      obtain ⟨n', hn', hvaries⟩ := ih h hm hfree hrest
      rw [hget hk] at hx
      refine ⟨n', takeEntries_cons.2 ⟨_, _, .own hk hx hsame, hn'⟩, hvaries.mono ?_⟩
      rintro l ⟨hl, hrest⟩
      exact ⟨hl, List.forall_mem_cons.2 ⟨hother hk l hl, hrest⟩⟩
    | arg hk hx hwild hname =>
      obtain ⟨n', hn', hvaries⟩ := ih h hm hfree hrest
      rw [hget hk] at hx
      refine ⟨n', takeEntries_cons.2 ⟨_, _, .arg hk hx hwild hname, hn'⟩, hvaries.mono ?_⟩
      rintro l ⟨hl, hrest⟩
      exact ⟨hl, List.forall_mem_cons.2 ⟨hother hk l hl, hrest⟩⟩

end UrlRouting.Route
