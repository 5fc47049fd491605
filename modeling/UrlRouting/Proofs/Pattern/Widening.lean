import UrlRouting.Proofs.Expression.Alternatives
import UrlRouting.Proofs.Expression.Window
import UrlRouting.Proofs.Pattern.Passage

/-! A wildcard only widens a pattern. The expressions with and without one begin alike, so that
their segments are read in the same way; and where the one without a wildcard goes on to the end of
a path, the other does, too, with an empty tail. -/
namespace UrlRouting

open Expression Expression.Reading Expression.Source PathMatcher Segment

variable {ignoreCase : Bool} {q q' fin fin' : Reading} {pos k start : Nat} {g : GroupTable}
  {conditions : List (Nat × Nat)} {f : Frame} {subject : Subject} {s s' t : State}
  {segments : List Segment} {e e' : Expression}

namespace Expression

/-! ### Reading the endings -/

/-- The optional slash, as a piece of an expression. -/
def slashPiece : Piece := ⟨optionalSlash, .repetition⟩

/-- The tail, as a piece of an expression. -/
def tailPiece (k : Nat) : Piece := ⟨.group k tailBody, .enclosed⟩

namespace Reading

/-- The ending with a wildcard, once the group of the tail is open. -/
def tailTokens : List Token :=
  tokens ("(?:/.*)?".toList ++ [')']) ++ tokens (endingText false)

theorem tailTokens_eq :
    tailTokens = [.plain '(', .plain '?', .plain ':', .plain '/', .plain '.', .plain '*',
    .plain ')', .plain '?', .plain ')', .plain '/', .plain '?'] := by
  rw [tailTokens, tokens_ending_fixed]
  simp [tokens]

theorem settled_tailTokens : Settled ⟨pos, tailTokens⟩ := by
  rw [tailTokens_eq]
  exact settled_plain

/-- The tail is read, and then the optional slash. -/
theorem reads_tail (hf : f.mode = .initial ignoreCase) :
    Reads ⟨⟨pos, tailTokens⟩, g, conditions,
        .opened (.capture k) start (.initial ignoreCase), [f]⟩
      ⟨⟨pos + 11, []⟩, { g with closed := (k, tailBody.width g.closed) :: g.closed }, conditions,
        (f.append (.piece (tailPiece k))).append (.piece slashPiece), []⟩ := by
  obtain ⟨kind, start', mode, branches, members⟩ := f
  obtain rfl : mode = .initial ignoreCase := hf
  rw [tailTokens_eq]
  refine ⟨9, by simp, fun m => ?_⟩
  rw [Nat.add_comm]
  cases ignoreCase
  · rfl
  · rfl

/-- An end that reading comes to is the end given. -/
theorem Ends.eq_of_reads (h : q.Ends fin) (hr : q.Reads q') (hend : q'.source.rest = []) :
    fin = q' := by
  obtain ⟨n, hn, hrun⟩ := h
  obtain ⟨j, hj, hreads⟩ := hr
  obtain ⟨m, rfl⟩ : ∃ m, n = j + m := ⟨n - j, by omega⟩
  rw [hreads, run_of_end hend] at hrun
  exact (Except.ok.inj hrun).symm

namespace Forks

variable (h : q.Forks ignoreCase (tokens (endingText false)) (tokens (endingText true)) fin fin')
include h

theorem outer : q.outer = [] :=
  List.map_eq_nil_iff.1 (List.cons.inj h.modes).2

theorem frame_fixed : fin.frame = q.frame.append (.piece slashPiece) := by
  have hq : q.before [.plain '/', .plain '?'] =
      ⟨⟨q.source.pos, [.plain '/', .plain '?']⟩, q.groups, q.conditions, q.frame, []⟩ := by
    rw [← h.outer]
    rfl
  have hends := h.ends
  rw [tokens_ending_fixed, hq] at hends
  rw [hends.eq_of_reads (reads_optionalSlash h.mode _ _) rfl]
  rfl

theorem frame_wildcard :
    ∃ k, fin'.frame = (q.frame.append (.piece (tailPiece k))).append (.piece slashPiece) := by
  have hends := h.ends'
  rw [tokens_ending_wildcard] at hends
  obtain ⟨_, hends⟩ := opens h.verbose isIdentifier_tailName (by decide) settled_tailTokens hends
  simp only [opened, descend, on, h.mode, h.outer] at hends
  rw [hends.eq_of_reads (reads_tail h.mode) rfl]
  exact ⟨_, rfl⟩

end Forks

end Reading

/-! ### Matching the endings -/

/-- A run of characters leads to the same positions from any state at one position. -/
theorem exists_ways_many {least : Nat} {most : Option Nat} {greed : Greed} {test : CharTest}
    (hpos : s'.pos = s.pos) (ht : t ∈ (Node.many least most greed test).ways subject s) :
    ∃ u ∈ (Node.many least most greed test).ways subject s', u.pos = t.pos := by
  simp only [Node.ways, manyWays, hpos] at ht ⊢
  split at ht
  · cases ht
  · next hcount =>
    obtain ⟨count, hmem, rfl⟩ := List.mem_map.1 ht
    rw [if_neg hcount]
    exact ⟨s'.move count, List.mem_map.2 ⟨count, hmem, rfl⟩, congrArg (· + count) hpos⟩

/-- The tail may be empty. -/
theorem mem_ways_tail :
    (s.mark (.opening k)).mark (.closing k) ∈ (Node.group k tailBody).ways subject s := by
  refine List.mem_map.2 ⟨s.mark (.opening k), ?_, rfl⟩
  refine List.mem_flatMap.2 ⟨s.mark (.opening k), ?_, List.mem_singleton_self _⟩
  exact List.mem_flatMap.2
    ⟨s.mark (.opening k), List.mem_singleton_self _, Window.self_mem_optionalWays⟩

theorem closing_slash : Closing [slashPiece] :=
  ⟨⟨slashPiece, [], rfl, rfl⟩, rfl⟩

theorem closing_tail : Closing [tailPiece k, slashPiece] :=
  ⟨⟨tailPiece k, [slashPiece], rfl, rfl⟩, rfl⟩

/-- Where the optional slash leads to, the tail and the optional slash lead to, too. -/
theorem reachedBy_ending : ((Node.ofList ([slashPiece].map Piece.node)).ways subject).ReachedBy
    ((Node.ofList ([tailPiece k, slashPiece].map Piece.node)).ways subject) := by
  intro s t ht
  obtain ⟨u, hu, hpos⟩ : ∃ u ∈ (Node.ofList [optionalSlash]).ways subject
      ((s.mark (.opening k)).mark (.closing k)), u.pos = t.pos := by
    obtain ⟨v, hv, ht⟩ := List.mem_flatMap.1 ht
    have hplace : ((s.mark (.opening k)).mark (.closing k)).pos = s.pos := rfl
    obtain ⟨u, hu, hpos⟩ := exists_ways_many hplace hv
    refine ⟨u, List.mem_flatMap.2 ⟨u, hu, List.mem_singleton_self u⟩, ?_⟩
    rw [hpos, List.mem_singleton.1 ht]
  exact ⟨u, List.mem_flatMap.2 ⟨_, mem_ways_tail, hu⟩, hpos⟩

@[simp] theorem sequence_append {m : Member} : (f.append m).sequence = f.sequence ++ m.pieces := by
  simp [Frame.sequence, Frame.append]

theorem body_append {m : Member} : (f.append m).body =
    .ofList ((alternatives f.mode.folding (f.branches ++ [f.sequence ++ m.pieces])).map
      Piece.node) := by
  rw [Frame.body, Frame.pieces, sequence_append]
  rfl

theorem reachedBy_body : ((f.append (.piece slashPiece)).body.ways subject).ReachedBy
    (((f.append (.piece (tailPiece k))).append (.piece slashPiece)).body.ways subject) := by
  rw [body_append, body_append, sequence_append, List.append_assoc]
  exact reachedBy_alternatives closing_slash closing_tail reachedBy_ending

theorem Reading.Forks.reachedBy
    (h : q.Forks ignoreCase (tokens (endingText false)) (tokens (endingText true)) fin fin') :
    (fin.frame.body.ways subject).ReachedBy (fin'.frame.body.ways subject) := by
  obtain ⟨k, hwild⟩ := h.frame_wildcard
  rw [h.frame_fixed, hwild]
  exact reachedBy_body

theorem isSome_fullMatch {n n' : Node} (h : (n.ways subject).ReachedBy (n'.ways subject))
    (hn : n.fullMatch subject = some t) : (n'.fullMatch subject).isSome := by
  obtain ⟨ht, hend⟩ := mem_ways_of_fullMatch hn
  obtain ⟨u, hu, hpos⟩ := h .start t ht
  refine isSome_run hu ?_
  rw [if_pos (by simpa using hpos.trans hend)]
  rfl

end Expression

/-! ### Matchers -/

variable {text path : String} {p : Pattern} {m m' : PathMatcher} {caseSensitive : Value}
  {c : Captures}

/-- What the expression without a wildcard leads to is reached by the one with a wildcard. -/
theorem reachedBy_of_compile (hne : segments ≠ []) (hs : ∀ s ∈ segments, s.Sound ignoreCase)
    (h : Expression.compile ignoreCase (expressionText ⟨segments, false⟩) = .ok e)
    (h' : Expression.compile ignoreCase (expressionText ⟨segments, true⟩) = .ok e') :
    (e.node.ways subject).ReachedBy (e'.node.ways subject) := by
  obtain ⟨fin, hnode, _, _, hends⟩ := exists_ends_of_compile (p := ⟨segments, false⟩) hne h
  obtain ⟨fin', hnode', _, _, hends'⟩ := exists_ends_of_compile (p := ⟨segments, true⟩) hne h'
  obtain ⟨_, q, hq, _⟩ := crosses_segments (fun s hmem => hs s.1 (List.fst_mem_of_mem_zipIdx hmem))
    (fenced_ending false) (fenced_ending true) ⟨rfl, hends, hends'⟩
  rw [hnode, hnode']
  exact hq.reachedBy

/-! ### The bare slash -/

theorem compile_bare_fixed : Expression.compile ignoreCase (expressionText ⟨[], false⟩) =
    .ok ⟨"//?", .ofList [slash, optionalSlash], []⟩ := by
  have htext : expressionText ⟨[], false⟩ = "//?" := by decide
  have htokens : tokens "//?".toList = [.plain '/', .plain '/', .plain '?'] := by simp [tokens]
  obtain ⟨pos, hslash⟩ := adds_slash ignoreCase .empty 0 [.plain '/', .plain '?'] [] settled_plain
  have hreads : (top ignoreCase 0 (tokens "//?".toList) .empty []).Reads
      (top ignoreCase (pos + 2) [] .empty [.piece slashPiece, .piece ⟨slash, .atom⟩]) := by
    rw [htokens]
    exact hslash.trans (reads_optionalSlash rfl pos .empty)
  rw [htext, compile_of_reads hreads (by rw [htokens]; exact settled_plain)]
  rfl

/-- Without segments and a wildcard, slashes are all that is matched. -/
theorem path_of_bare_fixed
    (h : (Node.ofList [slash, optionalSlash]).fullMatch path.toList.toArray = some t) :
    ∃ rest, path.toList = '/' :: rest ∧ '\n' ∉ rest := by
  have hrun : slash.run path.toList.toArray
      ((Node.ofList (ending false .empty)).run path.toList.toArray
      (atEnd path.toList.toArray)) .start = some t := h
  rw [run_slash (left_path rfl)] at hrun
  split at hrun
  · next hhead =>
    obtain ⟨rest, hpath⟩ := List.head?_eq_some_iff.1 hhead
    refine ⟨rest, hpath, ?_⟩
    rw [run_ending_fixed (left_path hpath).move_one] at hrun
    split at hrun
    · next hnil => simp [hnil]
    split at hrun
    · next hslash => simp [hslash]
    · cases hrun
  · cases hrun

/-! ### Widening -/

/-- A wildcard only widens a pattern: a path that is matched without it is matched with it, too. -/
theorem exists_matchPath_wildcard (hread : Pattern.read text = .ok p)
    (hfixed : PathMatcher.build ⟨p.segments, false⟩ caseSensitive = .ok m)
    (hwild : PathMatcher.build ⟨p.segments, true⟩ caseSensitive = .ok m')
    (hc : m.matchPath path = .ok (some c)) : ∃ c', m'.matchPath path = .ok (some c') := by
  have hw := Pattern.written_of_read hread
  obtain ⟨_, hcompile, _⟩ := PathMatcher.build_eq_ok hfixed
  obtain ⟨_, hcompile', hpattern'⟩ := PathMatcher.build_eq_ok hwild
  obtain ⟨t, ht, _⟩ := matchPath_eq_some hc
  by_cases hne : p.segments = []
  · rw [hne] at hcompile
    rw [← Except.ok.inj (compile_bare_fixed.symm.trans hcompile)] at ht
    obtain ⟨rest, hpath, hline⟩ := path_of_bare_fixed ht
    have hexpr := Except.ok.inj
      ((compile_bare (p := ⟨p.segments, true⟩) rfl hne).symm.trans hcompile')
    exact ⟨_, matchPath_of_bare hpattern' hexpr.symm rfl hne hline hpath⟩
  · have hsound := sound_of_build (p := ⟨p.segments, false⟩) hw hfixed
    have hsome := isSome_fullMatch (reachedBy_of_compile hne hsound hcompile hcompile') ht
    obtain ⟨found, hfound⟩ :=
      exists_matchPath_of_written (p := ⟨p.segments, true⟩) hw (fun _ => rfl) hwild path
    cases found with
    | none =>
      rw [fullMatch_eq_none hfound] at hsome
      cases hsome
    | some c' => exact ⟨c', hfound⟩

theorem exists_matchPath_wildcard_user : ∃ m m' c,
    PathMatcher.build ⟨userPattern.segments, false⟩ (.bool true) = .ok m ∧
      PathMatcher.build ⟨userPattern.segments, true⟩ (.bool true) = .ok m' ∧
      m.matchPath "/user/42" = .ok (some c) ∧ ∃ c', m'.matchPath "/user/42" = .ok (some c') := by
  have hw := Pattern.written_of_read read_userPattern
  have hdistinct := Pattern.nodup_names read_userPattern
  obtain ⟨m, hm, _, _, _, hsplits⟩ := build_splits (p := ⟨userPattern.segments, false⟩)
    (show (Value.bool true).truthy = true from rfl) hdistinct hw isPlain_userPattern nofun
  obtain ⟨m', hm', _⟩ := build_splits (p := ⟨userPattern.segments, true⟩)
    (show (Value.bool true).truthy = true from rfl) hdistinct hw isPlain_userPattern fun _ => rfl
  have hsplit : Pattern.Splits ⟨userPattern.segments, false⟩ "/user/42".toList
      ["user".toList, "42".toList] none := by
    refine .fixed rfl (.cons rfl (.cons ⟨by decide, ?_⟩ .nil)) (.inl (by decide))
    exact List.all_eq_true.1 (by decide)
  have hc := hsplits.hit hsplit
  exact ⟨m, m', _, hm, hm', hc, exists_matchPath_wildcard read_userPattern hm hm' hc⟩

end UrlRouting
