import UrlRouting.Expression.Literal
import UrlRouting.Proofs.Expression.EnclosedRun

/-! Reading at the top of an expression: characters that stand for themselves, and groups around
texts that can be read by themselves. -/
namespace UrlRouting.Expression

open Source Reading

variable {ignoreCase : Bool} {text name : List Char} {ts rest : List Token} {pos : Nat}
  {g : GroupTable} {ms : List Member} {a : Reading}

/-- Texts can be cut where no backslash stands before the cut. -/
theorem tokens_append (h : .dangling ∉ tokens text) (t : List Char) :
    tokens (text ++ t) = tokens text ++ tokens t := by
  fun_induction tokens text with
  | case1 => rfl
  | case2 => simp at h
  | case3 d rest ih =>
    simp only [List.mem_cons, not_or] at h
    rw [List.cons_append, List.cons_append, tokens_escaped, ih h.2]
    rfl
  | case4 c rest hc ih =>
    simp only [List.mem_cons, not_or] at h
    rw [List.cons_append, tokens_plain hc, ih h.2]
    rfl

/-- Only a backslash at the end of a text has nothing after it. -/
theorem getLast?_of_dangling (h : .dangling ∈ tokens text) : text.getLast? = some '\\' := by
  fun_induction tokens text with
  | case1 => cases h
  | case2 => rfl
  | case3 d rest ih =>
    simp only [List.mem_cons, reduceCtorEq, false_or] at h
    rw [List.getLast?_cons, List.getLast?_cons, ih h]
    rfl
  | case4 c rest hc ih =>
    simp only [List.mem_cons, reduceCtorEq, false_or] at h
    rw [List.getLast?_cons, ih h]
    rfl

theorem not_dangling_of_closed (text : List Char) : .dangling ∉ tokens (text ++ [')']) := by
  intro h
  have := getLast?_of_dangling h
  rw [List.getLast?_concat] at this
  cases this

theorem settle_of_settled {s : Source} (h : s.Settled) : s.settle = .ok s :=
  settle_eq_ok.2 ⟨h, rfl⟩

theorem settled_plain {c : Char} : Settled ⟨pos, .plain c :: rest⟩ := by
  simp [Settled]

theorem skip_cons {t : Token} (h : Settled ⟨pos + t.width, rest⟩) :
    skip ⟨pos, t :: rest⟩ = .ok ⟨pos + t.width, rest⟩ :=
  settle_of_settled h

theorem settled_append_plain {c : Char} (h : .dangling ∉ ts) :
    Settled ⟨pos, ts ++ .plain c :: rest⟩ := by
  cases ts with
  | nil => exact settled_plain
  | cons t ts =>
    simp only [List.mem_cons, not_or] at h
    simpa [Settled] using Ne.symm h.1

namespace Reading

/-- A place at the top of an expression, after some members. -/
def top (ignoreCase : Bool) (pos : Nat) (rest : List Token) (g : GroupTable) (ms : List Member) :
    Reading :=
  ⟨⟨pos, rest⟩, g, [], ⟨.whole, 0, .initial ignoreCase, [], ms⟩, []⟩

/-- A text that is an expression by itself and refers to no group by a number. -/
structure Alone (ignoreCase : Bool) (text : List Char) (a : Reading) : Prop where
  settled : Settled ⟨0, tokens text⟩
  ran : (start ignoreCase ⟨0, tokens text⟩).run (tokens text).length = .ok a
  closed : a.outer = []
  unnumbered :
    (start ignoreCase ⟨0, tokens text⟩).refersByNumber (tokens text).length = false

theorem Alone.settles (h : Alone ignoreCase text a) :
    a.source.rest = [] ∧ a.conditions = [] ∧
      Enclosure.Settles ⟨0, tokens text⟩ (start ignoreCase ⟨0, tokens text⟩) a :=
  Enclosure.settles_run (sound_start h.settled) rfl (Nat.le_refl _) h.unnumbered h.ran h.closed

theorem Alone.sound (h : Alone ignoreCase text a) : a.Sound :=
  h.settles.2.2.sound

theorem Alone.not_dangling (h : Alone ignoreCase text a) : .dangling ∉ tokens text := by
  obtain ⟨hend, _, hs⟩ := h.settles
  obtain ⟨used, hu, hd⟩ := hs.reaches.used
  have htokens : tokens text = used := by simpa [hend] using hu
  rwa [htokens]

theorem Alone.kind (h : Alone ignoreCase text a) : a.frame.kind = .whole := by
  have := h.sound.grounded
  rw [h.closed] at this
  exact this.1

theorem Alone.lookbehind (h : Alone ignoreCase text a) : a.groups.lookbehind = none := by
  have := h.sound.unwound
  rw [h.closed, unwound_of_ne (by simp [h.kind])] at this
  exact this

end Reading

/-! ### Groups -/

section Enclosed

variable {e : Enclosure} {f : Frame}

/-- The text is read inside a group, and the group is closed. -/
theorem reads_enclosed (e : Enclosure) (h : Alone ignoreCase text a)
    (hafter : e.after = .plain ')' :: rest)
    (hrest : Settled ⟨a.source.pos + e.before + 1, rest⟩) (hout : e.outer = [f])
    (ha : e.Avoids a) :
    ((start ignoreCase ⟨0, tokens text⟩).within e []).Reads
      ⟨⟨a.source.pos + e.before + 1, rest⟩, groupsAfter (e.table a.groups) (e.frame true a.frame),
        [], f.append (Reading.closed (e.table a.groups) (e.frame true a.frame)), []⟩ := by
  have hreads := (Enclosure.reads_or_refuses e [] (sound_start h.settled)
    (by simp [Enclosure.Avoids, start, GroupTable.empty]) rfl (Nat.le_refl _) h.unnumbered h.ran
    h.closed).1 ha
  refine hreads.trans ?_
  have hsource : (a.within e []).source = ⟨a.source.pos + e.before, .plain ')' :: rest⟩ := by
    simp [Reading.within, Enclosure.source, Source.within, h.settles.1, hafter]
  have hskip : (a.within e []).source.skip = .ok ⟨a.source.pos + e.before + 1, rest⟩ := by
    rw [hsource]
    exact skip_cons hrest
  have houter : (a.within e []).outer = [f] := by
    simp [Reading.within, Enclosure.frames, h.closed, hout]
  have hframe : (a.within e []).frame = e.frame true a.frame := by
    simp [Reading.within, h.closed]
  refine reads_step (x := .plain ')') (by rw [hsource]; rfl) ?_ (by rw [hsource]; simp)
  simp only [step, Token.isPlain, closeGroup, houter, hskip, hframe]
  rfl

theorem refuses_enclosed (h : Alone ignoreCase text a) (ha : ¬e.Avoids a) :
    ((start ignoreCase ⟨0, tokens text⟩).within e []).Refuses :=
  (Enclosure.reads_or_refuses e [] (sound_start h.settled)
    (by simp [Enclosure.Avoids, start, GroupTable.empty]) rfl (Nat.le_refl _) h.unnumbered h.ran
    h.closed).2 ha

end Enclosed

theorem takeUntil_go_plain {what : String} {read : List Char} (hname : '>' ∉ name)
    (hne : read ++ name ≠ []) (hrest : Settled ⟨pos + name.length + 1, rest⟩) :
    takeUntil.go '>' what (name.map .plain ++ .plain '>' :: rest) pos read =
      .ok (read ++ name, ⟨pos + name.length + 1, rest⟩) := by
  induction name generalizing pos read with
  | nil =>
    have hread : read ≠ [] := by simpa using hne
    simp only [List.map_nil, List.nil_append, takeUntil.go, Token.width]
    rw [settle_of_settled (s := ⟨pos + 1, rest⟩) hrest]
    simp [bind, Except.bind, Token.isPlain, hread]
    rfl
  | cons c name ih =>
    simp only [List.mem_cons, not_or] at hname
    have hnext : Settled ⟨pos + 1, name.map Token.plain ++ .plain '>' :: rest⟩ :=
      settled_append_plain (by simp)
    simp only [List.map_cons, List.cons_append, takeUntil.go, Token.width]
    rw [settle_of_settled hnext]
    have hc : Token.isPlain (.plain c) '>' = false := by
      simpa [Token.isPlain] using Ne.symm hname.1
    simp only [ok_bind, hc, Token.text]
    rw [if_neg (by simp), ih hname.2 (by simp) hrest]
    simp only [List.append_assoc, List.singleton_append, List.length_cons, Except.ok.injEq,
      Prod.mk.injEq, Source.mk.injEq, and_true, true_and]
    omega

theorem takeUntil_plain {what : String} (hname : '>' ∉ name) (hne : name ≠ [])
    (hrest : Settled ⟨pos + name.length + 1, rest⟩) :
    takeUntil '>' what ⟨pos, name.map .plain ++ .plain '>' :: rest⟩ =
      .ok (name, ⟨pos + name.length + 1, rest⟩) :=
  takeUntil_go_plain hname (by simpa using hne) hrest

/-- What stands before the text of a named group. -/
def openingTokens (name : List Char) : List Token :=
  .plain '(' :: .plain '?' :: .plain 'P' :: .plain '<' :: (name.map .plain ++ [.plain '>'])

theorem step_opening {r : Reading} (hsource : r.source = ⟨pos, openingTokens name ++ rest⟩)
    (hid : Text.isIdentifier name) (hname : '>' ∉ name)
    (hrest : Settled ⟨pos + 4 + name.length + 1, rest⟩) (hverbose : r.frame.mode.verbose = false) :
    r.step (.plain '(') = r.openCapture (some name) pos (pos + 4)
      ⟨pos + 4 + name.length + 1, rest⟩ := by
  have hne : name ≠ [] := by
    rintro rfl
    cases hid
  let body : List Token := name.map Token.plain ++ .plain '>' :: rest
  have hbody : Settled ⟨pos + 4, body⟩ := settled_append_plain (by simp)
  have hsource' : r.source =
      ⟨pos, .plain '(' :: .plain '?' :: .plain 'P' :: .plain '<' :: body⟩ := by
    simp [hsource, openingTokens, body]
  have hskip : r.source.skip = .ok ⟨pos + 1, .plain '?' :: .plain 'P' :: .plain '<' :: body⟩ := by
    rw [hsource']
    rfl
  have hnamed : r.readNamed pos ⟨pos + 3, .plain '<' :: body⟩ =
      r.openCapture (some name) pos (pos + 4) ⟨pos + 4 + name.length + 1, rest⟩ := by
    have haccept : accept ⟨pos + 3, .plain '<' :: body⟩ '<' = .ok (true, ⟨pos + 4, body⟩) := by
      simp only [accept, next?, List.head?_cons, if_true]
      rw [skip_cons hbody]
      rfl
    simp only [readNamed, haccept, ok_bind, if_true]
    rw [takeUntil_plain hname hne hrest, ok_bind]
    simp only [checkName, hid, if_true]
    rfl
  have hstart : r.source.pos = pos := by rw [hsource]
  simp only [step, hskip, hstart, Token.isPlain, hverbose, ← hnamed]
  rfl

namespace GroupTable

/-- No group of the table is open. -/
structure Sound (g : GroupTable) : Prop where
  next_pos : 1 ≤ g.next
  closed_lt : ∀ w ∈ g.closed, 1 ≤ w.1 ∧ w.1 < g.next
  no_lookbehind : g.lookbehind = none

theorem sound_empty : empty.Sound :=
  ⟨Nat.le_refl 1, by simp [empty], rfl⟩

/-- The table after a named group around a text. -/
def grouped (g : GroupTable) (name : String) (a : Reading) : GroupTable where
  next := a.groups.next + g.next
  names := g.names ++ [(name, g.next)] ++ a.groups.names.map fun n => (n.1, renumber g.next n.2)
  closed := (g.next, a.frame.body.width a.groups.closed) ::
    (Node.renumberWidths g.next a.groups.closed ++ g.closed)
  lookbehind := none

/-- A named group can be added to the table: its name and those within it are new. -/
structure Admits (g : GroupTable) (name : String) (a : Reading) : Prop where
  fresh : g.names.lookup name = none
  avoids : ∀ n ∈ a.groups.names, (g.names ++ [(name, g.next)]).lookup n.1 = none

theorem Sound.grouped (hg : g.Sound) (h : Alone ignoreCase text a) {name : String} :
    (g.grouped name a).Sound where
  next_pos := Nat.le_add_right_of_le h.sound.next_pos
  closed_lt := by
    have hnext := h.sound.next_pos
    have hpos := hg.next_pos
    refine List.forall_mem_cons.2 ⟨⟨hpos, by simp only [GroupTable.grouped]; omega⟩, fun w hw => ?_⟩
    simp only [GroupTable.grouped]
    rcases List.mem_append.1 hw with hw | hw
    · obtain ⟨v, hv, rfl⟩ := List.mem_map.1 hw
      have := h.sound.closed_lt v hv
      simp only [renumber_of_pos this.1]
      omega
    · have := hg.closed_lt w hw
      omega
  no_lookbehind := rfl

end GroupTable

/-- The place of a text inside a named group. -/
def groupAt (hg : g.Sound) (ignoreCase : Bool) (pos : Nat) (name : String) (before : Nat)
    (rest : List Token) (ms : List Member) : Enclosure where
  before := before
  after := .plain ')' :: rest
  closes := rfl
  groups := { g with next := g.next + 1, names := g.names ++ [(name, g.next)] }
  next_pos := Nat.le_add_left 1 _
  closed_lt w hw := ⟨(hg.closed_lt w hw).1, Nat.lt_succ_of_lt (hg.closed_lt w hw).2⟩
  no_lookbehind := hg.no_lookbehind
  kind := .capture g.next
  no_condition := by simp
  start := pos
  outer := [⟨.whole, 0, .initial ignoreCase, [], ms⟩]

theorem table_empty (e : Enclosure) : e.table .empty = e.groups := by
  have hnext : 1 + (e.groups.next - 1) = e.groups.next := by
    have := e.next_pos
    omega
  simp only [Enclosure.table, Enclosure.names, Enclosure.shift, GroupTable.empty, hnext,
    Node.renumberWidths, List.map_nil, List.append_nil, List.nil_append, Option.map_none]
  rw [← e.no_lookbehind]

section Grouped

variable (hg : g.Sound) (h : Alone ignoreCase text a) (hid : Text.isIdentifier name)
  (hname : '>' ∉ name)

include hg h hid hname

theorem opens_group (hfresh : g.names.lookup (nameOf name) = none) :
    (top ignoreCase pos (openingTokens name ++ (tokens text ++ .plain ')' :: rest)) g ms).Reads
      ((start ignoreCase ⟨0, tokens text⟩).within
        (groupAt hg ignoreCase pos (nameOf name) (pos + 4 + name.length + 1) rest ms) []) := by
  refine reads_step (x := .plain '(') rfl ?_ ?_
  · rw [step_opening (r := top ignoreCase pos _ g ms) rfl hid hname
      (settled_append_plain h.not_dangling) rfl]
    simp only [openCapture, top, hfresh, Reading.within, start, table_empty]
    simp only [Enclosure.source, Source.within, groupAt, Enclosure.frame, Enclosure.frames,
      Frame.opened, descend, List.map_nil, Nat.zero_add]
    rfl
  · simp [top, Reading.within, start, Enclosure.source, Source.within, openingTokens, groupAt]
    omega

/-- A named group around a text is read as the text by itself. -/
theorem reads_group (pos : Nat) (ms : List Member) (hadmits : g.Admits (nameOf name) a)
    (hrest : Settled ⟨0, rest⟩) :
    ∃ pos', (top ignoreCase pos
        (openingTokens name ++ (tokens text ++ .plain ')' :: rest)) g ms).Reads
      (top ignoreCase pos' rest (g.grouped (nameOf name) a)
        (.piece ⟨.group g.next (a.frame.body.renumber g.next), .enclosed⟩ :: ms)) := by
  let e := groupAt hg ignoreCase pos (nameOf name) (pos + 4 + name.length + 1) rest ms
  have hclosed := reads_enclosed e h rfl hrest rfl hadmits.avoids
  have hbody : (e.frame true a.frame).body = a.frame.body.renumber g.next :=
    Enclosure.body_frame true a.frame
  have hwidth : (a.frame.body.renumber g.next).width (e.table a.groups).closed =
      a.frame.body.width a.groups.closed := Enclosure.width_renumber (e := e) a.groups _
  have hkind : (e.frame true a.frame).kind = .capture g.next := rfl
  have hgroups : groupsAfter (e.table a.groups) (e.frame true a.frame) =
      g.grouped (nameOf name) a := by
    simp only [groupsAfter, hkind, hbody, hwidth]
    simp only [Enclosure.table, h.lookbehind]
    rfl
  rw [hgroups] at hclosed
  simp only [Reading.closed, hkind, hbody] at hclosed
  exact ⟨_, (opens_group hg h hid hname hadmits.fresh).trans hclosed⟩

/-- A name that has been given already is refused. -/
theorem refuses_group (pos : Nat) (rest : List Token) (ms : List Member)
    (hno : ¬g.Admits (nameOf name) a) :
    (top ignoreCase pos
      (openingTokens name ++ (tokens text ++ .plain ')' :: rest)) g ms).Refuses := by
  cases hlook : g.names.lookup (nameOf name) with
  | none =>
    refine (opens_group hg h hid hname hlook).refuses (refuses_enclosed h fun ha => ?_)
    exact hno ⟨hlook, ha⟩
  | some former =>
    refine refuses_step (x := .plain '(') rfl ?_
    rw [step_opening (r := top ignoreCase pos _ g ms) rfl hid hname
      (settled_append_plain h.not_dangling) rfl]
    simp only [openCapture, top, hlook]
    exact ⟨_, rfl⟩

end Grouped

end UrlRouting.Expression
