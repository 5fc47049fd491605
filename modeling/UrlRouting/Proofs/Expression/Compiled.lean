import UrlRouting.Proofs.Expression.Sequence

/-! Compiling an expression, and compiling the same expression in parentheses. -/
namespace UrlRouting.Expression

open Source Reading

variable {ignoreCase : Bool} {text : String} {r a : Reading} {n : Node} {e : Expression}

theorem finish_eq_ok :
    r.finish = .ok n ↔ r.outer = [] ∧ r.conditions.find? (fun c => r.groups.next ≤ c.1) = none ∧
      lookbehindFault? r.frame.body = none ∧ r.frame.body = n := by
  unfold finish
  cases ho : r.outer with
  | cons f outer => simp [refuse, bind, Except.bind]
  | nil =>
    cases hc : r.conditions.find? fun c => r.groups.next ≤ c.1 with
    | some c => simp [refuse]
    | none =>
      cases hl : lookbehindFault? r.frame.body with
      | some fault => simp
      | none => simp [pure, Except.pure]

theorem compile_eq_ok :
    compile ignoreCase text = .ok e ↔ Settled ⟨0, tokens text.toList⟩ ∧
      ∃ r, (start ignoreCase ⟨0, tokens text.toList⟩).run (tokens text.toList).length = .ok r ∧
        r.finish = .ok e.node ∧ e = ⟨text, e.node, r.groups.names⟩ := by
  unfold compile ofText
  constructor
  · intro h
    obtain ⟨s, hs, h⟩ := bind_eq_ok.1 h
    obtain ⟨hset, rfl⟩ := settle_eq_ok.1 hs
    obtain ⟨r, hr, h⟩ := bind_eq_ok.1 h
    obtain ⟨n, hn, h⟩ := bind_eq_ok.1 h
    cases h
    exact ⟨hset, r, hr, hn, rfl⟩
  · rintro ⟨hset, r, hr, hn, he⟩
    rw [settle_of_settled hset, ok_bind, hr, ok_bind, hn, he]
    rfl

/-- The expression refers to a group by its number. -/
def isNumbered (ignoreCase : Bool) (text : String) : Bool :=
  (start ignoreCase ⟨0, tokens text.toList⟩).refersByNumber (tokens text.toList).length

/-- An expression that refers to no group by a number comes from a text that stands alone. -/
theorem alone_of_compile (h : compile ignoreCase text = .ok e)
    (hn : isNumbered ignoreCase text = false) :
    ∃ a, Alone ignoreCase text.toList a ∧ lookbehindFault? a.frame.body = none ∧
      e = ⟨text, a.frame.body, a.groups.names⟩ := by
  obtain ⟨hset, a, hrun, hfin, he⟩ := compile_eq_ok.1 h
  obtain ⟨hout, _, hfault, hbody⟩ := finish_eq_ok.1 hfin
  exact ⟨a, ⟨hset, hrun, hout, hn⟩, hfault, by rw [he, ← hbody]⟩

theorem compile_of_alone (h : Alone ignoreCase text.toList a)
    (hfault : lookbehindFault? a.frame.body = none) :
    compile ignoreCase text = .ok ⟨text, a.frame.body, a.groups.names⟩ := by
  refine compile_eq_ok.2 ⟨h.settled, a, h.ran, finish_eq_ok.2 ⟨h.closed, ?_, hfault, rfl⟩, rfl⟩
  rw [h.settles.2.1]
  rfl

/-- A reading from the beginning to the end. -/
theorem compile_of_reads {g : GroupTable} {ms : List Member} {pos : Nat}
    (h : (top ignoreCase 0 (tokens text.toList) .empty []).Reads (top ignoreCase pos [] g ms))
    (hset : Settled ⟨0, tokens text.toList⟩) :
    compile ignoreCase text =
      match lookbehindFault? (Node.ofList ((ms.reverse.flatMap Member.pieces).map Piece.node)) with
      | some fault => .error (.malformed fault none)
      | none => .ok ⟨text, .ofList ((ms.reverse.flatMap Member.pieces).map Piece.node),
          g.names⟩ := by
  have hrun := h.run_eq rfl
  have hstart : start ignoreCase ⟨0, tokens text.toList⟩ =
    top ignoreCase 0 (tokens text.toList) .empty [] := rfl
  unfold compile ofText
  rw [settle_of_settled hset, ok_bind, hstart]
  simp only [top] at hrun ⊢
  rw [hrun, ok_bind]
  have hbody : Frame.body ⟨.whole, 0, .initial ignoreCase, [], ms⟩ =
      .ofList ((ms.reverse.flatMap Member.pieces).map Piece.node) := rfl
  simp only [finish, hbody]
  cases lookbehindFault? (.ofList ((ms.reverse.flatMap Member.pieces).map Piece.node)) <;> rfl

theorem compile_of_refuses (h : (top ignoreCase 0 (tokens text.toList) .empty []).Refuses) :
    ∃ rejection, compile ignoreCase text = .error rejection := by
  cases hc : compile ignoreCase text with
  | error rejection => exact ⟨rejection, rfl⟩
  | ok e =>
    obtain ⟨_, r, hrun, _⟩ := compile_eq_ok.1 hc
    obtain ⟨rejection, herr⟩ := h.run_eq
    have : (start ignoreCase ⟨0, tokens text.toList⟩).run (tokens text.toList).length =
      .error rejection := herr
    rw [hrun] at this
    cases this

/-! ### Parentheses -/

/-- The place of a text inside parentheses that are the whole expression. -/
def parentheses (ignoreCase : Bool) : Enclosure :=
  { Enclosure.first with before := 3, outer := [.opened .whole 0 (.initial ignoreCase)] }

theorem tokens_parenthesized (h : .dangling ∉ tokens text.toList) :
    tokens ("(?:" ++ text ++ ")").toList =
      .plain '(' :: .plain '?' :: .plain ':' :: (tokens text.toList ++ [.plain ')']) := by
  have htext : ("(?:" ++ text ++ ")").toList = '(' :: '?' :: ':' :: (text.toList ++ [')']) := by
    simp
  rw [htext, tokens_plain (by decide), tokens_plain (by decide), tokens_plain (by decide),
    tokens_append h]
  rfl

/-- Parentheses that only hold a text together are opened. -/
theorem step_parenthesis {pos : Nat} {body : List Token}
    (hsource : r.source = ⟨pos, .plain '(' :: .plain '?' :: .plain ':' :: body⟩)
    (hbody : Settled ⟨pos + 3, body⟩) (hverbose : r.frame.mode.verbose = false) :
    r.step (.plain '(') = .ok (r.descend (.opened .plain pos r.frame.mode) ⟨pos + 3, body⟩) := by
  have hskip : r.source.skip = .ok ⟨pos + 1, .plain '?' :: .plain ':' :: body⟩ := by
    rw [hsource]
    rfl
  have haccept : accept ⟨pos + 1, .plain '?' :: .plain ':' :: body⟩ '?' =
      .ok (true, ⟨pos + 2, .plain ':' :: body⟩) := rfl
  have htake : take ⟨pos + 2, .plain ':' :: body⟩ = .ok (some (.plain ':'), ⟨pos + 3, body⟩) := by
    rw [take, skip_cons hbody]
    rfl
  have hstart : r.source.pos = pos := by rw [hsource]
  have hopen : r.openGroup pos ⟨pos + 1, .plain '?' :: .plain ':' :: body⟩ =
      .ok (r.descend (.opened .plain pos r.frame.mode) ⟨pos + 3, body⟩) := by
    rw [openGroup, haccept, ok_bind]
    dsimp only
    rw [htake]
    rfl
  rw [← hopen]
  simp only [step, hskip, hstart, Token.isPlain, hverbose]
  rfl

theorem opens_parentheses (h : Alone ignoreCase text.toList a) :
    (top ignoreCase 0 (tokens ("(?:" ++ text ++ ")").toList) .empty []).Reads
      ((start ignoreCase ⟨0, tokens text.toList⟩).within (parentheses ignoreCase) []) := by
  rw [tokens_parenthesized h.not_dangling]
  refine reads_step (x := .plain '(') rfl ?_ ?_
  · rw [step_parenthesis rfl (settled_append_plain h.not_dangling) rfl]
    simp only [Reading.within, start, table_empty]
    rfl
  · simp [top, Reading.within, start, Enclosure.source, Source.within, parentheses, Enclosure.first]

/-- Parentheses around an expression change nothing. -/
theorem compile_parenthesized (h : compile ignoreCase text = .ok e)
    (hn : isNumbered ignoreCase text = false) :
    compile ignoreCase ("(?:" ++ text ++ ")") = .ok ⟨"(?:" ++ text ++ ")", e.node, e.names⟩ := by
  obtain ⟨a, ha, hfault, rfl⟩ := alone_of_compile h hn
  let e := parentheses ignoreCase
  have hclosed := reads_enclosed e ha rfl (by simp [Settled]) rfl (fun _ _ => rfl)
  have hkind : (e.frame true a.frame).kind = .plain := rfl
  have hpieces : (e.frame true a.frame).pieces = a.frame.pieces := by
    have := Enclosure.pieces_frame (e := e) true a.frame
    simpa [e, parentheses, Enclosure.first, Enclosure.shift, GroupTable.empty] using this
  have hnames : (e.table a.groups).names = a.groups.names := by
    simp [e, parentheses, Enclosure.first, Enclosure.table, Enclosure.names, Enclosure.shift,
      GroupTable.empty]
  have hset : Settled ⟨0, tokens ("(?:" ++ text ++ ")").toList⟩ := by
    rw [tokens_parenthesized ha.not_dangling]
    exact settled_plain
  have hreads : (top ignoreCase 0 (tokens ("(?:" ++ text ++ ")").toList) .empty []).Reads
      (top ignoreCase (a.source.pos + e.before + 1) []
        (groupsAfter (e.table a.groups) (e.frame true a.frame))
        [Reading.closed (e.table a.groups) (e.frame true a.frame)]) :=
    (opens_parentheses ha).trans hclosed
  have hread := compile_of_reads hreads hset
  simp only [Reading.closed, hkind, hpieces, List.reverse_cons, List.reverse_nil, List.nil_append,
    List.flatMap_cons, List.flatMap_nil, List.append_nil, Member.pieces, names_groupsAfter,
    hnames] at hread
  have hbody : Node.ofList (a.frame.pieces.map Piece.node) = a.frame.body := rfl
  rw [hread, hbody, hfault]

end UrlRouting.Expression
