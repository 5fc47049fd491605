import UrlRouting.Proofs.Expression.Alongside
import UrlRouting.Proofs.Expression.Compiled
import UrlRouting.Proofs.Expression.Literal

/-! Reading on at the top of an expression that can be read to its end. A named group around a text
that is an expression by itself is closed where the text ends. -/
namespace UrlRouting.Expression

open Source Reading

variable {ignoreCase : Bool} {text : String} {name : List Char}
  {all rest rest' more more' : List Token}
  {q q' fin fin' r : Reading} {s : List Char} {n : Nat} {e : Expression} {tame : Prop}

/-- Some group of the expression switches letters back to be compared as they are. -/
def regardsCase (text : String) : Bool :=
  (Reading.start true ⟨0, tokens text.toList⟩).regardsCase (tokens text.toList).length

theorem Source.Fenced.settled_append {ts : List Token} (h : Fenced rest) (hts : .dangling ∉ ts)
    (pos : Nat) :
    Settled ⟨pos, ts ++ rest⟩ := by
  obtain ⟨c, _, hc⟩ := h
  obtain ⟨rest, rfl⟩ := List.head?_eq_some_iff.1 hc
  exact settled_append_plain hts

namespace Reading

/-- No group is open, and what is given is still to be read. -/
structure AtTop (ignoreCase : Bool) (rest : List Token) (q : Reading) : Prop where
  modes : q.modes = [.initial ignoreCase]
  rest : q.source.rest = rest

theorem AtTop.source (h : q.AtTop ignoreCase rest) : q.source = ⟨q.source.pos, rest⟩ := by
  rw [← h.rest]

theorem AtTop.mode (h : q.AtTop ignoreCase rest) : q.frame.mode = .initial ignoreCase :=
  (List.cons.inj h.modes).1

theorem AtTop.verbose (h : q.AtTop ignoreCase rest) : q.frame.mode.verbose = false := by
  rw [h.mode]
  rfl

/-- Reading has come to some place at the top, on the way to the end. -/
def Arrives (ignoreCase : Bool) (rest : List Token) (q fin : Reading) (tame : Prop) : Prop :=
  ∃ q', q'.AtTop ignoreCase rest ∧ q'.Ends fin ∧ (ignoreCase = true → tame → q.Comes q')

theorem Arrives.mono {tame' : Prop} (h : q.Arrives ignoreCase rest fin tame) (ht : tame' → tame) :
    q.Arrives ignoreCase rest fin tame' := by
  obtain ⟨q', htop, hends, hcomes⟩ := h
  exact ⟨q', htop, hends, fun hcase h => hcomes hcase (ht h)⟩

theorem Arrives.trans (h : q.Arrives ignoreCase rest fin tame)
    (h' : ∀ q' : Reading, q'.AtTop ignoreCase rest → q'.Ends fin →
      q'.Arrives ignoreCase rest' fin tame) :
    q.Arrives ignoreCase rest' fin tame := by
  obtain ⟨q₁, htop₁, hends₁, hcomes₁⟩ := h
  obtain ⟨q₂, htop₂, hends₂, hcomes₂⟩ := h' q₁ htop₁ hends₁
  exact ⟨q₂, htop₂, hends₂, fun hcase ht => (hcomes₁ hcase ht).trans (hcomes₂ hcase ht)⟩

/-- A step that stays at the top. -/
theorem AtTop.arrives_step {x : Token} (h : q.AtTop ignoreCase (x :: rest)) (hends : q.Ends fin)
    (hstep : q.step x = .ok q') (hrest : q'.source.rest = rest) (hmodes : q'.modes = q.modes) :
    q.Arrives ignoreCase rest fin tame := by
  have htop : q'.AtTop ignoreCase rest := ⟨hmodes.trans h.modes, hrest⟩
  obtain ⟨q'', hq'', hends'⟩ := hends.step (by rw [h.source]; rfl)
  obtain rfl : q'' = q' := Except.ok.inj (hq''.symm.trans hstep)
  refine ⟨q'', htop, hends' (by simp [hrest, h.rest]), fun hcase _ => .single ⟨⟨x, hstep⟩, ?_⟩⟩
  rw [htop.mode, hcase]
  rfl

/-! ### Two ends -/

/-- The same place, with another text to be read from there on. -/
abbrev before (q : Reading) (rest : List Token) : Reading :=
  q.on ⟨q.source.pos, rest⟩

theorem before_eq (h : q.source.rest = rest) : q.before rest = q := by
  subst h
  rfl

/-- No group is open, and reading goes on to either of two ends, by which of two texts comes
next. -/
structure Forks (ignoreCase : Bool) (rest rest' : List Token) (q fin fin' : Reading) : Prop where
  modes : q.modes = [.initial ignoreCase]
  ends : (q.before rest).Ends fin
  ends' : (q.before rest').Ends fin'

/-- Reading goes on from `q`, where all of a text is left, to one place at the top, whichever of two
texts is left there. -/
def Crosses (ignoreCase : Bool) (all rest rest' : List Token) (q fin fin' : Reading) (tame : Prop) :
    Prop :=
  ∃ q' : Reading, q'.Forks ignoreCase rest rest' fin fin' ∧
    (ignoreCase = true → tame → (q.before all).Comes (q'.before rest))

theorem Crosses.trans (h : q.Crosses ignoreCase all rest rest' fin fin' tame)
    (h' : ∀ q' : Reading, q'.Forks ignoreCase rest rest' fin fin' →
      q'.Crosses ignoreCase rest more more' fin fin' tame) :
    q.Crosses ignoreCase all more more' fin fin' tame := by
  obtain ⟨q₁, hq₁, hcomes₁⟩ := h
  obtain ⟨q₂, hq₂, hcomes₂⟩ := h' q₁ hq₁
  exact ⟨q₂, hq₂, fun hcase ht => (hcomes₁ hcase ht).trans (hcomes₂ hcase ht)⟩

theorem AtTop.forks (h : q.AtTop ignoreCase rest) (hends : q.Ends fin) :
    q.Forks ignoreCase rest rest fin fin := by
  have hq := before_eq h.rest
  exact ⟨h.modes, hq.symm ▸ hends, hq.symm ▸ hends⟩

theorem AtTop.arrives_of_crosses (h : q.AtTop ignoreCase all)
    (hcrosses : q.Crosses ignoreCase all rest rest fin fin tame) :
    q.Arrives ignoreCase rest fin tame := by
  obtain ⟨q', hq', hcomes⟩ := hcrosses
  refine ⟨q'.before rest, ⟨hq'.modes, rfl⟩, hq'.ends, fun hcase ht => ?_⟩
  have hcomes := hcomes hcase ht
  rwa [before_eq h.rest] at hcomes

namespace Forks

theorem mode (h : q.Forks ignoreCase rest rest' fin fin') : q.frame.mode = .initial ignoreCase :=
  (List.cons.inj h.modes).1

theorem verbose (h : q.Forks ignoreCase rest rest' fin fin') : q.frame.mode.verbose = false := by
  rw [h.mode]
  rfl

/-- A step that stays at the top, and that is the same for both texts. -/
theorem crosses_step {x : Token} (h : q.Forks ignoreCase (x :: rest) (x :: rest') fin fin')
    (hstep : (q.before (x :: rest)).step x = .ok (q'.before rest))
    (hstep' : (q.before (x :: rest')).step x = .ok (q'.before rest'))
    (hmodes : q'.modes = q.modes) :
    q.Crosses ignoreCase (x :: rest) rest rest' fin fin' tame := by
  obtain ⟨_, hq, hends⟩ := h.ends.step rfl
  obtain ⟨_, hq', hends'⟩ := h.ends'.step rfl
  obtain rfl := Except.ok.inj (hq.symm.trans hstep)
  obtain rfl := Except.ok.inj (hq'.symm.trans hstep')
  have hforks : q'.Forks ignoreCase rest rest' fin fin' :=
    ⟨hmodes.trans h.modes, hends (Nat.lt_succ_self _), hends' (Nat.lt_succ_self _)⟩
  refine ⟨q', hforks, fun hcase _ => .single ⟨⟨x, hstep⟩, ?_⟩⟩
  rw [frame_on, hforks.mode, hcase]
  rfl

theorem crosses_literals
    (h : q.Forks ignoreCase (s.map literalToken ++ rest) (s.map literalToken ++ rest') fin fin')
    (hrest : Settled ⟨0, rest⟩) (hrest' : Settled ⟨0, rest'⟩) :
    q.Crosses ignoreCase (s.map literalToken ++ rest) rest rest' fin fin' tame := by
  induction s generalizing q with
  | nil => exact ⟨q, h, fun _ _ => .refl⟩
  | cons c s ih =>
    let q' := q.appendCode c.toNat ⟨q.source.pos + (literalToken c).width, []⟩
    have hstep : ∀ {more}, Settled ⟨0, more⟩ →
        (q.before (literalToken c :: (s.map literalToken ++ more))).step (literalToken c) =
          .ok (q'.before (s.map literalToken ++ more)) :=
      fun hmore => step_literal h.verbose rfl (settled_literals hmore)
    have hcrosses : q.Crosses ignoreCase (literalToken c :: (s.map literalToken ++ rest))
        (s.map literalToken ++ rest) (s.map literalToken ++ rest') fin fin' tame :=
      h.crosses_step (hstep hrest) (hstep hrest') rfl
    exact hcrosses.trans fun q' hq' => ih hq'

end Forks

theorem AtTop.arrives_literals (h : q.AtTop ignoreCase (s.map literalToken ++ rest))
    (hrest : Settled ⟨0, rest⟩) (hends : q.Ends fin) : q.Arrives ignoreCase rest fin tame :=
  h.arrives_of_crosses ((h.forks hends).crosses_literals hrest hrest)

/-- A character at the very end may be repeated, and then all has been read. -/
theorem AtTop.arrives_question (h : q.AtTop ignoreCase [.plain '?']) (hends : q.Ends fin) :
    q.Arrives ignoreCase [] fin tame := by
  obtain ⟨q', hq', _⟩ := hends.step (by rw [h.source]; rfl)
  have hrepeat : q.repeatLast 0 (some 1) q.source.pos ⟨q.source.pos + 1, []⟩ = .ok q' := by
    have hskip : q.source.skip = .ok ⟨q.source.pos + 1, []⟩ := by
      rw [h.source]
      rfl
    rw [← hq']
    simp only [step, h.verbose, hskip]
    rfl
  have hdone : q'.source.rest = [] ∧ q'.modes = q.modes := by
    unfold repeatLast at hrepeat
    split at hrepeat
    · cases hrepeat
    · dsimp only at hrepeat
      split at hrepeat
      · cases hrepeat
      · cases hrepeat
      · cases hrepeat
        exact ⟨rfl, rfl⟩
  exact h.arrives_step hends hq' hdone.1 hdone.2

/-! ### Groups -/

/-- The same reading, once a named group has been opened. -/
def opened (q : Reading) (name : List Char) : Reading :=
  { q with groups := { q.groups with
      next := q.groups.next + 1
      names := q.groups.names ++ [(nameOf name, q.groups.next)] } }.descend
    (.opened (.capture q.groups.next) q.source.pos q.frame.mode)
    ⟨q.source.pos + 4 + name.length + 1, []⟩

/-- A named group is opened alike, whatever is written in it. -/
theorem opens (hverbose : q.frame.mode.verbose = false) (hid : Text.isIdentifier name)
    (hname : '>' ∉ name) (hrest : Settled ⟨q.source.pos + 4 + name.length + 1, rest⟩)
    (hends : (q.before (openingTokens name ++ rest)).Ends fin) :
    (q.before (openingTokens name ++ rest)).step (.plain '(') = .ok ((q.opened name).before rest) ∧
      ((q.opened name).before rest).Ends fin := by
  obtain ⟨q', hq', hends⟩ := hends.step rfl
  have hopening := step_opening (r := q.before (openingTokens name ++ rest)) rfl hid hname hrest
    hverbose
  have hopen := hopening.symm.trans hq'
  obtain rfl : (q.opened name).before rest = q' := by
    unfold openCapture at hopen
    dsimp only at hopen
    split at hopen
    · cases hopen
    · exact Except.ok.inj hopen
  exact ⟨hq', hends (by simp [opened, openingTokens]; omega)⟩

theorem getLast?_modes_run (h : r.run n = .ok q) : q.modes.getLast? = r.modes.getLast? := by
  induction n generalizing r with
  | zero =>
    cases h
    rfl
  | succ n ih =>
    rw [run] at h
    split at h
    · cases h
      rfl
    · obtain ⟨r', hr', h⟩ := bind_eq_ok.1 h
      exact (ih h).trans (getLast?_modes_does (does_step hr'))

theorem modes_of_closed {mode : Mode} (hout : q.outer = []) (hlast : q.modes.getLast? = some mode) :
    q.modes = [mode] := by
  unfold modes at hlast ⊢
  rw [hout] at hlast ⊢
  exact congrArg (fun mode => [mode]) (Option.some.inj hlast)

theorem tokens_isolated (text : String) : tokens ("(?:" ++ text ++ ")").toList =
    .plain '(' :: .plain '?' :: .plain ':' :: tokens (text.toList ++ [')']) := by
  have htext : ("(?:" ++ text ++ ")").toList = '(' :: '?' :: ':' :: (text.toList ++ [')']) := by
    simp
  rw [htext, tokens_plain (by decide), tokens_plain (by decide), tokens_plain (by decide)]

theorem next?_isolated (text : String) :
    next? ⟨0, tokens ("(?:" ++ text ++ ")").toList⟩ = some (.plain '(') := by
  rw [tokens_isolated]
  rfl

theorem length_tokens_isolated (text : String) : (tokens ("(?:" ++ text ++ ")").toList).length =
    (tokens (text.toList ++ [')'])).length + 2 + 1 := by
  rw [tokens_isolated]
  rfl

/-- What is left of an expression in parentheses, once they are open. -/
def isolatedReading (ignoreCase : Bool) (text : String) : Reading :=
  (Reading.start ignoreCase ⟨0, tokens ("(?:" ++ text ++ ")").toList⟩).descend
    (.opened .plain 0 (.initial ignoreCase)) ⟨3, tokens (text.toList ++ [')'])⟩

theorem step_isolated (ignoreCase : Bool) (text : String) :
    (Reading.start ignoreCase ⟨0, tokens ("(?:" ++ text ++ ")").toList⟩).step (.plain '(') =
      .ok (isolatedReading ignoreCase text) := by
  refine step_parenthesis (by rw [tokens_isolated]; rfl) ?_ rfl
  intro h
  exact not_dangling_of_closed text.toList (List.mem_of_mem_head? h)

theorem run_isolated (h : compile ignoreCase ("(?:" ++ text ++ ")") = .ok e) :
    ∃ r, (isolatedReading ignoreCase text).run ((tokens (text.toList ++ [')'])).length + 2) =
      .ok r ∧ r.outer = [] := by
  obtain ⟨_, r, hrun, hfinish, _⟩ := compile_eq_ok.1 h
  obtain ⟨hout, _⟩ := finish_eq_ok.1 hfinish
  rw [length_tokens_isolated, run_step (next?_isolated text), step_isolated, ok_bind] at hrun
  exact ⟨r, hrun, hout⟩

theorem regardsCase_isolated
    (h : Expression.regardsCase ("(?:" ++ text ++ ")") = false) :
    (isolatedReading true text).regardsCase ((tokens (text.toList ++ [')'])).length + 2) =
      false := by
  rw [Expression.regardsCase, length_tokens_isolated, Reading.regardsCase] at h
  simp only [Reading.start, next?_isolated] at h
  have hstep := step_isolated true text
  simp only [Reading.start] at hstep
  rw [hstep] at h
  simpa [isolatedReading, descend, Frame.opened, Mode.initial] using h

theorem settled_isolated (ignoreCase : Bool) (text : String) :
    (isolatedReading ignoreCase text).source.Settled :=
  fun h => not_dangling_of_closed text.toList (List.mem_of_mem_head? h)

theorem terse_isolated (ignoreCase : Bool) (text : String) :
    (isolatedReading ignoreCase text).Terse := by
  rintro mode ⟨⟩
  rfl

/-- Within a group at the top, a text that is read by itself in parentheses is read up to the place
where the parentheses are closed. -/
theorem exists_forks_isolated {k : Nat}
    (hcompile : compile ignoreCase ("(?:" ++ text ++ ")") = .ok e)
    (hrest : Fenced rest) (hrest' : Fenced rest') (hpos : q.source.pos = 3 + k)
    (hm : q.modes = [.initial ignoreCase, .initial ignoreCase])
    (hends : (q.before (tokens (text.toList ++ [')']) ++ rest)).Ends fin)
    (hends' : (q.before (tokens (text.toList ++ [')']) ++ rest')).Ends fin') :
    ∃ q' : Reading, q'.Forks ignoreCase rest rest' fin fin' ∧
      (ignoreCase = true → Expression.regardsCase ("(?:" ++ text ++ ")") = false →
        (q.before (tokens (text.toList ++ [')']) ++ rest)).Comes (q'.before rest)) := by
  simp only [before, hpos] at hends hends' ⊢
  obtain ⟨r, hrun, hout⟩ := run_isolated hcompile
  obtain ⟨q', hend, hm', hends, hends', hcomes⟩ := together_run (settled_isolated ignoreCase text)
    (terse_isolated ignoreCase text) hm (Nat.le_add_right _ 2) hrun hout hrest hrest' hends hends'
  have hplace : ∀ more, r.source.within k more = ⟨r.source.pos + k, more⟩ := by
    intro more
    rw [Source.within, hend, List.nil_append]
  rw [hplace] at hends hends' hcomes
  refine ⟨q'.on ⟨r.source.pos + k, []⟩, ⟨?_, hends, hends'⟩, fun hcase htame => hcomes ?_⟩
  · rw [modes_on, hm']
    exact modes_of_closed hout (getLast?_modes_run hrun)
  · subst hcase
    exact regardsCase_isolated htame

/-- A named group around a text that is an expression by itself is read to its end, and its name is
known ever after. -/
theorem Forks.crosses_group (text : String)
    (h : q.Forks ignoreCase (openingTokens name ++ (tokens (text.toList ++ [')']) ++ rest))
      (openingTokens name ++ (tokens (text.toList ++ [')']) ++ rest')) fin fin')
    (hid : Text.isIdentifier name) (hname : '>' ∉ name) (hrest : Fenced rest)
    (hrest' : Fenced rest') (hcompile : compile ignoreCase ("(?:" ++ text ++ ")") = .ok e) :
    nameOf name ∈ fin.groups.names.map Prod.fst ∧
      q.Crosses ignoreCase (openingTokens name ++ (tokens (text.toList ++ [')']) ++ rest)) rest
        rest' fin fin'
        (Expression.regardsCase ("(?:" ++ text ++ ")") = false) := by
  have hsettled : ∀ {more}, Fenced more → Settled ⟨q.source.pos + 4 + name.length + 1,
      tokens (text.toList ++ [')']) ++ more⟩ :=
    fun hmore => hmore.settled_append (not_dangling_of_closed text.toList) _
  obtain ⟨hstep, hends⟩ := opens h.verbose hid hname (hsettled hrest) h.ends
  obtain ⟨_, hends'⟩ := opens h.verbose hid hname (hsettled hrest') h.ends'
  have hm : (q.opened name).modes = [.initial ignoreCase, .initial ignoreCase] :=
    congrArg₂ List.cons h.mode h.modes
  have hpos : (q.opened name).source.pos = 3 + (q.source.pos + 2 + name.length) := by
    dsimp only [opened, descend]
    omega
  have hgiven : nameOf name ∈ (q.opened name).groups.names.map Prod.fst := by
    simp [opened, descend]
  refine ⟨(hends.names.map Prod.fst).subset hgiven, ?_⟩
  obtain ⟨q', hq', hcomes⟩ := exists_forks_isolated hcompile hrest hrest' hpos hm hends hends'
  refine ⟨q', hq', fun hcase htame => .head ⟨⟨_, hstep⟩, ?_⟩ (hcomes hcase htame)⟩
  rw [frame_on, (List.cons.inj hm).1, hcase]
  rfl

theorem AtTop.arrives_group (text : String)
    (h : q.AtTop ignoreCase (openingTokens name ++ (tokens (text.toList ++ [')']) ++ rest)))
    (hid : Text.isIdentifier name) (hname : '>' ∉ name) (hrest : Fenced rest)
    (hcompile : compile ignoreCase ("(?:" ++ text ++ ")") = .ok e) (hends : q.Ends fin) :
    nameOf name ∈ fin.groups.names.map Prod.fst ∧ q.Arrives ignoreCase rest fin
      (Expression.regardsCase ("(?:" ++ text ++ ")") = false) :=
  ((h.forks hends).crosses_group text hid hname hrest hrest hcompile).imp_right h.arrives_of_crosses

end Reading

end UrlRouting.Expression
