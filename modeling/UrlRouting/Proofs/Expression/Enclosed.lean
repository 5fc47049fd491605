import UrlRouting.Proofs.Expression.Enclosure

/-! One step of the reader inside a group is the step that it takes on the text by itself, unless
a name is given to a group for the second time. -/
namespace UrlRouting.Expression.Enclosure

open Source Reading

variable {α β : Type} {e : Enclosure} {r r' : Reading} {s t : Source}
  {conditions : List (Nat × Nat)} {start start' : Nat}

/-- What a reading of the text by itself has come to. A comment that goes on to the end of the text
leaves a group open, and conditions by number have not the same groups inside the enclosure. -/
structure Settles (s : Source) (r r' : Reading) : Prop where
  reaches : s.Reaches r'.source
  sound : r'.Sound
  names : r.groups.names <+: r'.groups.names

/-- Inside the group the reading does what it does on the text by itself. -/
def Follows (e : Enclosure) (conditions : List (Nat × Nat)) (s : Source) (r : Reading)
    (here there : Parse Reading) : Prop :=
  ∀ r', here = .ok r' → r'.conditions = [] → (r'.source.rest = [] → r'.outer = []) →
    Settles s r r' ∧ (e.Avoids r' → there = .ok (r'.within e conditions)) ∧
      (¬e.Avoids r' → ∃ rejection, there = .error rejection)

theorem follows_ok (h : Settles s r r') (hn : r'.groups.names = r.groups.names)
    (ha : e.Avoids r) {q : Reading} (hq : q = r'.within e conditions) :
    e.Follows conditions s r (.ok r') (.ok q) := by
  intro r'' hr _ _
  cases hr
  refine ⟨h, fun _ => by rw [hq], fun hno => absurd ?_ hno⟩
  simpa only [Avoids, hn] using ha

theorem follows_refuse {fault : Fault} {pos : Nat} {there : Parse Reading} :
    e.Follows conditions s r (refuse fault pos) there := by
  intro r' h
  cases h

theorem Follows.bind {rel : α → β → Prop} {here : Parse α} {there : Parse β}
    {f : α → Parse Reading} {g : β → Parse Reading} (h : Alike rel here there)
    (hf : ∀ a b, rel a b → e.Follows conditions s r (f a) (g b)) :
    e.Follows conditions s r (here >>= f) (there >>= g) := by
  intro r' hr
  obtain ⟨a, ha, hfa⟩ := bind_eq_ok.1 hr
  obtain ⟨b, hb, hab⟩ := h a ha
  rw [hb]
  exact hf a b hab r' hfa

theorem Follows.ite {c : Prop} [Decidable c] {here here' there there' : Parse Reading}
    (h : c → e.Follows conditions s r here there)
    (h' : ¬c → e.Follows conditions s r here' there') :
    e.Follows conditions s r (if c then here else here') (if c then there else there') := by
  split
  · next hc => exact h hc
  · next hc => exact h' hc

theorem Follows.guard {c : Prop} [Decidable c] {fault : Fault} {pos pos' : Nat}
    {here there : Unit → Parse Reading}
    (h : ¬c → e.Follows conditions s r (here ()) (there ())) :
    e.Follows conditions s r (if c then refuse fault pos >>= here else here ())
      (if c then refuse fault pos' >>= there else there ()) :=
  .ite (fun _ => follows_refuse) h

theorem Follows.from {here there : Parse Reading} (hr : s.Reaches t)
    (h : e.Follows conditions t r here there) : e.Follows conditions s r here there := by
  intro r' hr' hc hend
  obtain ⟨hs, hok, herr⟩ := h r' hr' hc hend
  exact ⟨⟨hr.trans hs.reaches, hs.sound, hs.names⟩, hok, herr⟩

/-- The rest of a reading of which a part is carried over. -/
theorem Follows.then {here there : Parse (α × Source)} {f g : α × Source → Parse Reading}
    (h : s.Carries e.before e.after here there)
    (hf : ∀ a t, s.Reaches t →
      e.Follows conditions t r (f (a, t)) (g (a, e.source t))) :
    e.Follows conditions s r (here >>= f) (there >>= g) := by
  refine .bind h fun x y hxy => ?_
  obtain ⟨hr, rfl⟩ := hxy
  exact .from hr (hf x.1 x.2 hr)

theorem Follows.take {f g : Option Token × Source → Parse Reading} (hs : s.Settled)
    (hnone : ∀ t b, f (none, t) ≠ .ok b)
    (h : ∀ x t, s.Reaches t → e.Follows conditions t r (f (some x, t)) (g (some x, e.source t))) :
    e.Follows conditions s r (s.take >>= f) ((e.source s).take >>= g) := by
  by_cases hne : s.rest = []
  · intro b hb
    obtain ⟨⟨x, v⟩, hx, hfb⟩ := bind_eq_ok.1 hb
    obtain rfl := (take_eq_none hx).2 hne
    exact absurd hfb (hnone v b)
  · refine .then (take_carries hs e.fenced hne) fun x v hv => ?_
    cases x with
    | none => intro c hc; exact absurd hc (hnone v c)
    | some x => exact h x v hv

/-- A test that passes for the text by itself passes inside the group. -/
theorem Follows.check {here there : Parse Unit} {f g : Unit → Parse Reading}
    (h : here = .ok () → there = .ok ()) (hf : e.Follows conditions s r (f ()) (g ())) :
    e.Follows conditions s r (here >>= f) (there >>= g) := by
  intro r' hr
  obtain ⟨⟨⟩, hhere, hfr⟩ := bind_eq_ok.1 hr
  rw [h hhere]
  exact hf r' hfr

theorem checkName_eq_ok {name : List Char} (h : checkName name start = .ok ()) :
    checkName name start' = .ok () := by
  unfold checkName at h ⊢
  split at h
  · exact if_pos ‹_›
  · cases h

/-! ### Members -/

theorem settles_frame {f : Frame} (hr : r.Sound) (hs : s.Settled) (hk : f.kind = r.frame.kind)
    (hm : f.mode = r.frame.mode) (hb : f.Below r.groups.next) :
    Settles s r { r with source := s, frame := f } :=
  ⟨.refl hs, hr.frame hs hk hm hb, List.prefix_rfl⟩

theorem follows_appendNode {role : Role} {n : Node} (hr : r.Sound) (ha : e.Avoids r)
    (hs : s.Settled) (hb : n.Below r.groups.next) {m : Node} (hm : m = n.renumber e.shift) :
    e.Follows conditions s r (.ok (r.appendNode role n s))
      (.ok ((r.within e conditions).appendNode role m (e.source s))) := by
  subst hm
  have hmember : Below r.groups.next (Member.piece ⟨n, role⟩).pieces := by
    intro p hp
    rw [List.mem_singleton.1 hp]
    exact hb
  have hset : Settles s r (r.appendNode role n s) :=
    settles_frame hr hs rfl rfl (hr.below_frame.append hmember)
  exact follows_ok hset rfl ha rfl

theorem follows_appendCode {n : Nat} (hr : r.Sound) (ha : e.Avoids r) (hs : s.Settled) :
    e.Follows conditions s r (.ok (r.appendCode n s))
      (.ok ((r.within e conditions).appendCode n (e.source s))) :=
  follows_appendNode hr ha hs (by trivial) rfl

theorem follows_descend {kind : FrameKind} {mode : Mode} (hr : r.Sound) (ha : e.Avoids r)
    (hs : s.Settled) (hb : kind.isBare) {kind' : FrameKind} (hk : kind' = e.kindOf kind)
    (hstart : start' = start + e.before) :
    e.Follows conditions s r (.ok (r.descend (.opened kind start mode) s))
      (.ok ((r.within e conditions).descend (.opened kind' start' mode) (e.source s))) := by
  subst hk hstart
  have hset : Settles s r (r.descend (.opened kind start mode) s) :=
    ⟨.refl hs, hr.descend hs hb, List.prefix_rfl⟩
  exact follows_ok hset rfl ha rfl

theorem follows_readEscape {c : Char} (hr : r.Sound) (ha : e.Avoids r) (hs : s.Settled)
    (hg : ∀ index t, Escape.read r.groups r.frame.mode.asciiOnly c start s ≠
      .ok (.group index, t)) :
    e.Follows conditions s r (r.readEscape c start s)
      ((r.within e conditions).readEscape c start' (e.source s)) := by
  refine .bind (Escape.read_carries hs e.fenced hg).and_eq ?_
  rintro ⟨x, t⟩ _ ⟨hread, ht, rfl⟩
  refine .from ht ?_
  dsimp only
  split
  · exact follows_appendCode hr ha ht.settled
  · exact follows_appendNode hr ha ht.settled (by trivial) rfl
  · exact follows_appendNode hr ha ht.settled (by trivial) rfl
  · exact absurd hread (hg _ _)

/-! ### Repetitions -/

/-- The last member is repeated, once what is written after the bounds has been read. -/
theorem follows_repeated {least : Nat} {most : Option Nat} {last : Member} {former : List Member}
    (hr : r.Sound) (ha : e.Avoids r) (hs : s.Settled)
    (hm : r.frame.members = last :: former) (greed : Greed) :
    e.Follows conditions s r
      (.ok { r with
        frame := { r.frame with
          members := .piece ⟨repeated least most greed last.pieces, .repetition⟩ :: former }
        source := s })
      (.ok { r.within e conditions with
        frame := { (r.within e conditions).frame with
          members := .piece ⟨repeated least most greed (e.member last).pieces, .repetition⟩
            :: former.map e.member }
        source := e.source s }) := by
  let f : Frame := { r.frame with
    members := .piece ⟨repeated least most greed last.pieces, .repetition⟩ :: former }
  have hmembers := hr.below_frame.members
  rw [hm] at hmembers
  obtain ⟨hlast, hformer⟩ := List.forall_mem_cons.1 hmembers
  have hf : f.Below r.groups.next :=
    { hr.below_frame with
      members := List.forall_mem_cons.2
        ⟨List.forall_mem_singleton.2 (below_repeated hlast), hformer⟩ }
  refine follows_ok (settles_frame (f := f) hr hs rfl rfl hf) rfl ha ?_
  simp only [pieces_member, repeated_renumber]
  rfl

theorem follows_repeatMember {least : Nat} {most : Option Nat} {last : Member}
    {former : List Member} (hr : r.Sound) (ha : e.Avoids r) (hs : s.Settled)
    (hm : r.frame.members = last :: former) :
    e.Follows conditions s r
      (do
        let (lazy, s) ← s.accept '?'
        let (possessive, s) ← if lazy then .ok (false, s) else s.accept '+'
        let greed : Greed := if lazy then .lazy else if possessive then .possessive else .greedy
        let node := repeated least most greed last.pieces
        return { r with
          frame := { r.frame with members := .piece ⟨node, .repetition⟩ :: former }
          source := s })
      (do
        let (lazy, s) ← (e.source s).accept '?'
        let (possessive, s) ← if lazy then .ok (false, s) else s.accept '+'
        let greed : Greed := if lazy then .lazy else if possessive then .possessive else .greedy
        let node := repeated least most greed (e.member last).pieces
        return { r.within e conditions with
          frame := { (r.within e conditions).frame with
            members := .piece ⟨node, .repetition⟩ :: former.map e.member }
          source := s }) := by
  refine .then (accept_carries hs e.fenced (by decide)) fun lazy t ht => ?_
  refine .ite (fun _ => follows_repeated hr ha ht.settled hm _) fun _ => ?_
  refine .then (accept_carries ht.settled e.fenced (by decide)) fun possessive u hu => ?_
  exact follows_repeated hr ha hu.settled hm _

theorem follows_repeatLast {least : Nat} {most : Option Nat} (hr : r.Sound) (ha : e.Avoids r)
    (hs : s.Settled) :
    e.Follows conditions s r (r.repeatLast least most start s)
      ((r.within e conditions).repeatLast least most start' (e.source s)) := by
  unfold repeatLast
  have hm : (r.within e conditions).frame.members = r.frame.members.map e.member := rfl
  rw [hm]
  cases hown : r.frame.members with
  | nil => exact follows_refuse
  | cons last former =>
    rcases last with ⟨⟨n, _ | _ | _ | _⟩⟩ | ps
    · exact follows_repeatMember hr ha hs hown
    · exact follows_refuse
    · exact follows_refuse
    · exact follows_repeatMember hr ha hs hown
    · exact follows_repeatMember hr ha hs hown

/-! ### Groups -/

/-- The reading with one more group open, and perhaps a name for it. -/
def opened (r : Reading) (start : Nat) (s : Source) (names : List (String × Nat)) : Reading :=
  { r with groups := { r.groups with next := r.groups.next + 1, names := names } }.descend
    (.opened (.capture r.groups.next) start r.frame.mode) s

theorem opened_within (hr : r.Sound) {names : List (String × Nat)} :
    opened (r.within e conditions) (start + e.before) (e.source s) (e.names names) =
      (opened r start s names).within e conditions := by
  have hnext : r.groups.next + e.shift + 1 = r.groups.next + 1 + e.shift := by omega
  have hkind : r.groups.next + e.shift = renumber e.shift r.groups.next :=
    (renumber_of_pos hr.next_pos).symm
  simp only [opened, Reading.within, descend, table, frames, frame, Frame.opened, kindOf, hnext]
  rw [hkind]
  rfl

theorem names_concat (own : List (String × Nat)) (name : String) (index : Nat) :
    e.names own ++ [(name, renumber e.shift index)] = e.names (own ++ [(name, index)]) := by
  simp [names]

theorem settles_opened (hr : r.Sound) (hs : s.Settled) {names : List (String × Nat)}
    (hn : r.groups.names <+: names) : Settles s r (opened r start s names) :=
  ⟨.refl hs, hr.opened hs, hn⟩

/-- A name that a group in front has already is refused inside the enclosure. -/
theorem follows_openCapture {name : Option (List Char)} {nameStart nameStart' : Nat}
    (hr : r.Sound) (ha : e.Avoids r) (hs : s.Settled) (hstart : start' = start + e.before) :
    e.Follows conditions s r (r.openCapture name start nameStart s)
      ((r.within e conditions).openCapture name start' nameStart' (e.source s)) := by
  subst hstart
  cases name with
  | none => exact follows_ok (settles_opened hr hs List.prefix_rfl) rfl ha (opened_within hr)
  | some cs =>
    intro r' hr' _ _
    cases hown : r.groups.names.lookup (nameOf cs) with
    | some former =>
      simp only [openCapture, hown] at hr'
      cases hr'
    | none =>
      obtain rfl : opened r start s (r.groups.names ++ [(nameOf cs, r.groups.next)]) = r' := by
        simp only [openCapture, hown] at hr'
        exact Except.ok.inj hr'
      refine ⟨settles_opened hr hs (List.prefix_append _ _), fun hav => ?_, fun hno => ?_⟩
      · have hfree : e.groups.names.lookup (nameOf cs) = none :=
          hav (nameOf cs, r.groups.next) (by simp [opened, descend])
        have hlook : (r.within e conditions).groups.names.lookup (nameOf cs) = none :=
          (lookup_names _ hfree).trans (by rw [hown]; rfl)
        have hkind : (r.within e conditions).groups.next = renumber e.shift r.groups.next :=
          (renumber_of_pos hr.next_pos).symm
        simp only [openCapture, hlook]
        rw [← opened_within hr, ← names_concat]
        simp only [opened, ← hkind]
        rfl
      · have htaken : e.groups.names.lookup (nameOf cs) ≠ none := by
          intro hfree
          refine hno fun n hn => ?_
          rcases List.mem_append.1 hn with hn | hn
          · exact ha n hn
          · rw [List.mem_singleton.1 hn]
            exact hfree
        obtain ⟨former, hformer⟩ := Option.ne_none_iff_exists'.1 htaken
        have hlook : (r.within e conditions).groups.names.lookup (nameOf cs) = some former := by
          simp only [Reading.within, table, names, List.lookup_append, hformer]
          rfl
        simp only [openCapture, hlook]
        exact ⟨_, rfl⟩

theorem follows_readNamedGroup (hr : r.Sound) (ha : e.Avoids r) (hs : s.Settled) :
    e.Follows conditions s r (r.readNamedGroup s)
      ((r.within e conditions).readNamedGroup (e.source s)) := by
  refine .then (takeUntil_carries e.fenced hs) fun name t ht => ?_
  refine .check checkName_eq_ok ?_
  cases hown : r.groups.names.lookup (nameOf name) with
  | none => exact follows_refuse
  | some index =>
    have hlook : (r.within e conditions).groups.names.lookup (nameOf name) =
        some (renumber e.shift index) := lookup_names_of_mem ha hown
    simp only [hlook]
    have hclosed := isClosed_table (e := e) r.groups index
    simp only [Reading.within, hclosed]
    refine .guard fun _ => .check (checkLookbehind_table _ _ _ _) ?_
    exact follows_appendNode hr ha ht.settled (by trivial) rfl

theorem follows_readNamed (hr : r.Sound) (ha : e.Avoids r) (hs : s.Settled)
    (hstart : start' = start + e.before) :
    e.Follows conditions s r (r.readNamed start s)
      ((r.within e conditions).readNamed start' (e.source s)) := by
  refine .then (accept_carries hs e.fenced (by decide)) fun defines t ht => ?_
  refine .ite (fun _ => ?_) fun _ => ?_
  · refine .then (takeUntil_carries e.fenced ht.settled) fun name u hu => ?_
    exact .check checkName_eq_ok (follows_openCapture hr ha hu.settled hstart)
  · refine .then (accept_carries ht.settled e.fenced (by decide)) fun refers u hu => ?_
    refine .ite (fun _ => follows_readNamedGroup hr ha hu.settled) fun _ => ?_
    intro r' h
    split at h
    · cases h
    · obtain ⟨_, _, h⟩ := bind_eq_ok.1 h
      cases h

/-- A condition names a group by its name; one that names it by number is not looked at. -/
theorem follows_readCondition (hr : r.Sound) (ha : e.Avoids r) (hs : s.Settled)
    (hc : r.conditions = []) (hstart : start' = start + e.before) :
    e.Follows conditions s r (r.readCondition start s)
      ((r.within e conditions).readCondition start' (e.source s)) := by
  refine .then (takeUntil_carries e.fenced hs) fun name t ht => ?_
  dsimp only
  by_cases hname : Text.isIdentifier name
  · rw [if_pos hname, if_pos hname]
    cases hown : r.groups.names.lookup (nameOf name) with
    | none => exact follows_refuse
    | some index =>
      have hlook : (r.within e conditions).groups.names.lookup (nameOf name) =
          some (renumber e.shift index) := lookup_names_of_mem ha hown
      rw [hlook]
      exact .check (checkLookbehind_table _ _ _ _) 
        (follows_descend hr ha ht.settled rfl rfl hstart)
  · rw [if_neg hname]
    intro r' h hcond
    obtain ⟨index, _, h⟩ := bind_eq_ok.1 h
    obtain ⟨_, he, h⟩ := bind_eq_ok.1 h
    cases he
    obtain ⟨_, _, h⟩ := bind_eq_ok.1 h
    cases h
    simp [descend, hc] at hcond

theorem follows_behind {negated : Bool} (hr : r.Sound) (ha : e.Avoids r) (hs : s.Settled)
    (hstart : start' = start + e.before) :
    e.Follows conditions s r
      (.ok ({ r with groups := { r.groups with
          lookbehind := some (r.groups.lookbehind.getD r.groups.next) } }.descend
        (.opened (.behind negated r.groups.lookbehind) start r.frame.mode) s))
      (.ok ({ r.within e conditions with
          groups := { e.table r.groups with
            lookbehind := some ((e.table r.groups).lookbehind.getD (e.table r.groups).next) }
        }.descend
        (.opened (.behind negated (e.table r.groups).lookbehind) start' r.frame.mode)
        (e.source s))) := by
  subst hstart
  have hset : Settles s r ({ r with groups := { r.groups with
      lookbehind := some (r.groups.lookbehind.getD r.groups.next) } }.descend
      (.opened (.behind negated r.groups.lookbehind) start r.frame.mode) s) :=
    ⟨.refl hs, hr.behind hs, List.prefix_rfl⟩
  refine follows_ok hset rfl ha ?_
  have hlimit : (e.table r.groups).lookbehind.getD (e.table r.groups).next =
      renumber e.shift (r.groups.lookbehind.getD r.groups.next) := by
    cases hl : r.groups.lookbehind with
    | none => simp [table, hl, renumber_of_pos hr.next_pos]
    | some limit => simp [table, hl]
  rw [hlimit]
  rfl

theorem follows_readLookbehind (hr : r.Sound) (ha : e.Avoids r) (hs : s.Settled)
    (hstart : start' = start + e.before) :
    e.Follows conditions s r (r.readLookbehind start s)
      ((r.within e conditions).readLookbehind start' (e.source s)) := by
  refine .take hs (by simp [refuse, bind, Except.bind]) fun x t ht => ?_
  dsimp only
  split
  · exact follows_refuse
  · exact follows_behind hr ha ht.settled hstart
  · exact follows_behind hr ha ht.settled hstart
  · exact follows_refuse

theorem follows_switched {switches : SwitchGroup} (hr : r.Sound) (ha : e.Avoids r)
    (hs : s.Settled) (hstart : start' = start + e.before) :
    e.Follows conditions s r
      (match switches with
        | .global => refuse .misplacedFlags start
        | .forGroup on off =>
          pure (r.descend (.opened .switched start (r.frame.mode.switched on off)) s))
      (match switches with
        | .global => refuse .misplacedFlags start'
        | .forGroup on off => pure ((r.within e conditions).descend
            (.opened .switched start' (r.frame.mode.switched on off)) (e.source s))) := by
  cases switches with
  | global => exact follows_refuse
  | forGroup on off => exact follows_descend hr ha hs rfl rfl hstart

theorem follows_readExtension {x : Token} (hr : r.Sound) (ha : e.Avoids r) (hs : s.Settled)
    (hc : r.conditions = []) (hstart : start' = start + e.before) :
    e.Follows conditions s r (r.readExtension x start s)
      ((r.within e conditions).readExtension x start' (e.source s)) := by
  unfold readExtension
  split
  · exact follows_readNamed hr ha hs hstart
  · exact follows_descend hr ha hs rfl rfl hstart
  · refine .bind (skipComment_alike ?_ hs e.fenced) fun t u htu => ?_
    · simp [source, Source.within]
    obtain ⟨ht, rfl⟩ := htu
    exact .from ht (follows_ok (settles_frame hr ht.settled rfl rfl hr.below_frame) rfl ha rfl)
  · exact follows_descend hr ha hs rfl rfl hstart
  · exact follows_descend hr ha hs rfl rfl hstart
  · exact follows_readLookbehind hr ha hs hstart
  · exact follows_readCondition hr ha hs hc hstart
  · exact follows_descend hr ha hs rfl rfl hstart
  · refine .ite (fun _ => ?_) fun _ => ?_
    · refine .then (SwitchGroup.readAfterDash_carries hs e.fenced) fun switches t ht => ?_
      exact follows_switched hr ha ht.settled hstart
    · dsimp only
      split
      · refine .then (SwitchGroup.read_carries hs e.fenced) fun switches t ht => ?_
        exact follows_switched hr ha ht.settled hstart
      · exact follows_refuse

theorem follows_openGroup (hr : r.Sound) (ha : e.Avoids r) (hs : s.Settled)
    (hc : r.conditions = []) (hstart : start' = start + e.before) :
    e.Follows conditions s r (r.openGroup start s)
      ((r.within e conditions).openGroup start' (e.source s)) := by
  refine .then (accept_carries hs e.fenced (by decide)) fun extended t ht => ?_
  refine .ite (fun _ => follows_openCapture hr ha ht.settled hstart) fun _ => ?_
  refine .take ht.settled (by simp [refuse]) fun x u hu => ?_
  exact follows_readExtension hr ha hu.settled hc hstart

/-! ### Closing and branching -/

theorem table_groupsAfter (g : GroupTable) (f : Frame) :
    groupsAfter (e.table g) (e.frame false f) = e.table (groupsAfter g f) := by
  have hbody := body_frame (e := e) false f
  have hwidth := width_renumber (e := e) g f.body
  obtain ⟨kind, start, mode, branches, members⟩ := f
  cases kind with
  | capture index =>
    simp only [groupsAfter, frame, kindOf] at hbody ⊢
    rw [hbody, hwidth]
    rfl
  | _ => rfl

theorem closed_frame (g : GroupTable) (f : Frame) :
    closed (e.table g) (e.frame false f) = e.member (closed g f) := by
  have hpieces := pieces_frame (e := e) false f
  have hbody := body_frame (e := e) false f
  have hwidth := width_renumber (e := e) g f.body
  obtain ⟨kind, start, mode, branches, members⟩ := f
  cases kind with
  | whole | plain =>
    simp only [closed, frame, kindOf] at hpieces ⊢
    rw [hpieces]
    rfl
  | switched | capture | atomic | ahead =>
    simp only [closed, frame, kindOf] at hbody ⊢
    rw [hbody]
    rfl
  | behind negated outer =>
    simp only [closed, frame, kindOf] at hbody ⊢
    rw [hbody, hwidth]
    rfl
  | whether group yes =>
    cases yes with
    | none =>
      simp only [closed, frame, kindOf] at hbody ⊢
      rw [hbody]
      rfl
    | some yes =>
      have hyes : Node.ofList ((yes.map (Piece.renumber e.shift)).map Piece.node) =
          (Node.ofList (yes.map Piece.node)).renumber e.shift := by
        rw [Piece.map_node_renumber, Node.ofList_map_renumber]
      simp only [closed, frame, kindOf] at hbody ⊢
      rw [hbody]
      exact congrArg (fun n => Member.piece ⟨.whether (renumber e.shift group) n _, .enclosed⟩) hyes

theorem source_skip (hne : s.rest ≠ []) (ht : s.skip = .ok t) :
    (e.source s).skip = .ok (e.source t) :=
  skip_within e.fenced ht hne

theorem follows_closeGroup (hr : r.Sound) (ha : e.Avoids r) (hne : r.source.rest ≠ [])
    (ht : r.source.skip = .ok t) :
    e.Follows conditions t r r.closeGroup (r.within e conditions).closeGroup := by
  have hsettled := (skip_eq_ok hr.settled ht hne).1.settled
  have hskip : (r.within e conditions).source.skip = .ok (e.source t) := source_skip hne ht
  unfold closeGroup
  rw [ht, hskip]
  cases hout : r.outer with
  | nil => exact follows_refuse
  | cons f outer =>
    have hout' : (r.within e conditions).outer = e.frame outer.isEmpty f :: e.frames outer := by
      simp [Reading.within, hout, frames]
    have hframe : (r.within e conditions).frame = e.frame false r.frame := by
      simp [Reading.within, hout]
    rw [hout']
    have hnames := names_groupsAfter r.groups r.frame
    refine follows_ok ⟨.refl hsettled, hr.closed hsettled hout, ?_⟩ hnames ha ?_
    · simp only [hnames]
      exact List.prefix_rfl
    have hgroups : (r.within e conditions).groups = e.table r.groups := rfl
    rw [hframe, hgroups, table_groupsAfter, closed_frame]
    rfl

/-- The frame with another branch begun. -/
theorem follows_branch {kind kind' : FrameKind} {branches branches' : List (List Piece)}
    (ha : e.Avoids r)
    (hq : Sound { r with
      source := s
      frame := { r.frame with kind := kind, branches := branches, members := [] } })
    (hk : kind' = if r.outer.isEmpty then e.kind else e.kindOf kind)
    (hb : branches' = branches.map (List.map (Piece.renumber e.shift))) :
    e.Follows conditions s r
      (.ok { r with
        source := s
        frame := { r.frame with kind := kind, branches := branches, members := [] } })
      (.ok { r.within e conditions with
        source := e.source s
        frame := { (r.within e conditions).frame with
          kind := kind', branches := branches', members := [] } }) := by
  subst hk hb
  have hset : Settles s r { r with
      source := s
      frame := { r.frame with kind := kind, branches := branches, members := [] } } :=
    ⟨.refl hq.settled, hq, List.prefix_rfl⟩
  exact follows_ok hset rfl ha rfl

theorem nextBranch_eq (h : ∀ group yes, r.frame.kind ≠ .whether group yes)
    (ht : r.source.skip = .ok t) :
    r.nextBranch = .ok { r with
      source := t
      frame := { r.frame with
        branches := r.frame.branches ++ [r.frame.sequence]
        members := [] } } := by
  unfold nextBranch
  rw [ht]
  split
  · next hk => exact absurd hk (h _ _)
  · next hk => exact absurd hk (h _ _)
  · rfl

theorem follows_nextBranch (hr : r.Sound) (ha : e.Avoids r) (hne : r.source.rest ≠ [])
    (ht : r.source.skip = .ok t) :
    e.Follows conditions t r r.nextBranch (r.within e conditions).nextBranch := by
  have hsettled := (skip_eq_ok hr.settled ht hne).1.settled
  have hskip : (r.within e conditions).source.skip = .ok (e.source t) := source_skip hne ht
  have hseq : (r.within e conditions).frame.sequence =
    r.frame.sequence.map (Piece.renumber e.shift) := sequence_frame _ _
  have hkind : (r.within e conditions).frame.kind =
    if r.outer.isEmpty then e.kind else e.kindOf r.frame.kind := rfl
  by_cases hw : ∃ group yes, r.frame.kind = .whether group yes
  · obtain ⟨group, yes, hw⟩ := hw
    -- The lowest frame is no condition, so that a condition keeps its kind inside the group.
    have hlow : r.outer.isEmpty = false := by
      have hground := hr.grounded
      cases hout : r.outer with
      | nil =>
        rw [hout] at hground
        exact absurd (hground.1.symm.trans hw) (by simp)
      | cons => rfl
    simp only [hlow] at hkind
    unfold nextBranch
    rw [hkind, hw]
    cases yes with
    | some yes => exact follows_refuse
    | none =>
      rw [ht, hskip, hseq]
      refine follows_branch ha (hr.firstBranch hsettled hw) ?_ rfl
      rw [hlow]
      rfl
  · simp only [not_exists] at hw
    have hw' : ∀ group yes, (r.within e conditions).frame.kind ≠ .whether group yes := by
      intro group yes
      rw [hkind]
      split
      · exact e.no_condition group yes
      · cases hk : r.frame.kind <;> simp_all [kindOf]
    rw [nextBranch_eq hw ht, nextBranch_eq hw' hskip, hseq]
    refine follows_branch ha (hr.branch hsettled) hkind ?_
    rw [List.map_append]
    rfl

theorem follows_readPlain {c : Char} (hr : r.Sound) (ha : e.Avoids r) (hs : s.Settled)
    (hc : r.conditions = []) (hstart : start' = start + e.before) :
    e.Follows conditions s r (r.readPlain c start s)
      ((r.within e conditions).readPlain c start' (e.source s)) := by
  unfold readPlain
  dsimp only
  split
  · refine .then (CharClass.read_carries hs e.fenced) fun test t ht => ?_
    exact follows_appendNode hr ha ht.settled (by trivial) rfl
  · exact follows_openGroup hr ha hs hc hstart
  · exact follows_appendNode hr ha hs (by trivial) rfl
  · exact follows_appendNode hr ha hs (by trivial) rfl
  · exact follows_appendNode hr ha hs (by trivial) rfl
  · exact follows_repeatLast hr ha hs
  · exact follows_repeatLast hr ha hs
  · exact follows_repeatLast hr ha hs
  · refine .bind (readBounds_alike hs e.fenced) fun x y hxy => ?_
    obtain ⟨hx, rfl⟩ := hxy
    cases x with
    | none => exact follows_appendCode hr ha hs
    | some p =>
      have ht := hx p.1 p.2 rfl
      exact .from ht (follows_repeatLast hr ha ht.settled)
  · exact follows_appendCode hr ha hs

/-- One step inside the group is the step on the text by itself. -/
theorem follows_step {x : Token} (hr : r.Sound) (ha : e.Avoids r) (hc : r.conditions = [])
    (hx : r.source.next? = some x) (hn : r.isNumbered x = false) (ht : r.source.skip = .ok t) :
    e.Follows conditions t r (r.step x) ((r.within e conditions).step x) := by
  have hne : r.source.rest ≠ [] := by
    intro h
    simp [next?, h] at hx
  have hsettled := (skip_eq_ok hr.settled ht hne).1.settled
  have hskip : (r.within e conditions).source.skip = .ok (e.source t) := source_skip hne ht
  unfold step
  refine .ite (fun _ => follows_nextBranch hr ha hne ht) fun _ => ?_
  refine .ite (fun _ => follows_closeGroup hr ha hne ht) fun _ => ?_
  rw [ht, hskip, ok_bind, ok_bind]
  cases x with
  | dangling => exact follows_refuse
  | escaped c =>
    refine follows_readEscape hr ha hsettled fun index u hu => ?_
    simp [isNumbered, ht, hu] at hn
  | plain c =>
    refine .ite (fun _ => ?_) fun _ => .ite (fun hverbose => ?_) fun _ => ?_
    · exact follows_ok (settles_frame hr hsettled rfl rfl hr.below_frame) rfl ha rfl
    · intro r' hr' hcond hend
      obtain ⟨u, hu, hr'⟩ := bind_eq_ok.1 hr'
      cases hr'
      -- The lowest frame is not in verbose mode, so that the text goes on after the comment.
      have hgoes : u.rest ≠ [] := by
        intro h
        have hground := hr.grounded
        rw [show r.outer = [] from hend h] at hground
        simp [hground.2] at hverbose
      obtain ⟨hru, hu'⟩ := skipLine_within (k := e.before) (m := (e.source t).rest.length + 1)
        (by simp [source, Source.within]) (Nat.lt_succ_self _) hsettled e.fenced hu hgoes
      rw [show skipLine ((e.source t).rest.length + 1) (e.source t) = .ok (e.source u) from hu']
      exact Follows.from hru 
        (follows_ok (settles_frame hr hru.settled rfl rfl hr.below_frame) rfl ha rfl)
        _ rfl hcond hend
    · exact follows_readPlain hr ha hsettled hc rfl

end UrlRouting.Expression.Enclosure
