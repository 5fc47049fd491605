import UrlRouting.CommandLine.Listing
import UrlRouting.Proofs.Route.Forgetting
import UrlRouting.Proofs.Route.Occurrence

/-! The listing of a match agrees with look-ups: under the number or the name that stands before it,
each argument is found in the route. -/
namespace UrlRouting

open Expression Route WildcardArg

variable {r m t : Route} {args : List WildcardArg} {a : WildcardArg} {values : List Value}
  {key pattern defaults : Value} {options : Options} {moves : List Move} {tail : List Char}
  {path : String} {n : Int} {i j : Nat}

namespace WildcardArg

/-- The arguments that the pieces of a tail stand for, one after the other. -/
def inTail (tail : List Char) : List WildcardArg :=
  ((Text.pieces '/' (Text.trim (· == '/') tail)).filter (!·.isEmpty)).map ofPiece

theorem isLabel_of_mem_inTail (h : a ∈ inTail tail) : IsLabel a.name := by
  obtain ⟨piece, _, rfl⟩ := List.mem_map.1 h
  exact isLabel_ofPiece piece

theorem parse_eq_settled (tail : List Char) : parse tail = settled (inTail tail) :=
  mergeAll_eq_settled fun _ => isLabel_of_mem_inTail

theorem exists_name_of_parse (ha : a ∈ parse tail) (hnamed : a.isPositional = false) :
    ∃ s, a.name = .str s := by
  obtain ⟨piece, rfl, _⟩ := mem_parse ha
  unfold ofPiece at hnamed ⊢
  split
  · exact ⟨_, rfl⟩
  · next hcut =>
    rw [hcut] at hnamed
    cases hnamed

/-- How many positional arguments stand before a place. -/
def numberAt (args : List WildcardArg) (i : Nat) : Nat :=
  (args.take i).countP isPositional

end WildcardArg

namespace Route

/-! ### Looking up by position -/

theorem atIndex_natCast (values : List Value) (j : Nat) :
    atIndex values j = (values[j]?).getD .none := by
  have hneg : ¬ ((j : Int) < 0) := by omega
  simp [atIndex, hneg]

theorem atIndex_from_end (hj : j < values.length) :
    atIndex values (j - values.length) = atIndex values j := by
  have hneg : (j : Int) - values.length < 0 := by omega
  have hplace : (j : Int) - values.length + values.length = j := by omega
  rw [atIndex_natCast]
  simp [atIndex, hneg, hplace]

theorem atIndex_outside (hn : n < -values.length ∨ values.length ≤ n) :
    atIndex values n = .none := by
  unfold atIndex
  by_cases hneg : n < 0
  · have hplace : n + values.length < 0 := by omega
    simp [hneg, hplace]
  · have hfar : values.length ≤ n.toNat := by omega
    simp [hneg, hfar]

theorem wildcardArg_of_asInt? (r : Route) (hkey : key.asInt? = some n) :
    r.wildcardArg key = atIndex r.positionals n := by
  rw [wildcardArg, hkey]

theorem wildcardArg_natCast (r : Route) (j : Nat) :
    r.wildcardArg (.int j) = (r.positionals[j]?).getD .none := by
  rw [wildcardArg_of_asInt? r rfl, atIndex_natCast]

/-- A positional argument has as many positional ones before it as its number says. -/
theorem getElem?_positionals (ha : r.args[i]? = some a) (hpos : a.isPositional = true) :
    r.positionals[numberAt r.args i]? = some a.value := by
  obtain ⟨hi, rfl⟩ := List.getElem?_eq_some_iff.1 ha
  have hsplit : r.args = r.args.take i ++ r.args[i] :: r.args.drop (i + 1) := by
    rw [← List.drop_eq_getElem_cons hi, List.take_append_drop]
  have hkept : r.args.filter isPositional = (r.args.take i).filter isPositional ++
      r.args[i] :: (r.args.drop (i + 1)).filter isPositional := by
    conv_lhs => rw [hsplit]
    rw [List.filter_append, List.filter_cons, if_pos hpos]
  rw [positionals, hkept, numberAt, List.countP_eq_length_filter]
  simp

theorem positionals_eq (r : Route) : r.positionals =
    (List.range r.positionals.length).map fun j : Nat => r.wildcardArg (.int j) := by
  refine List.ext_getElem (by simp) fun j hj _ => ?_
  rw [List.getElem_map, List.getElem_range, wildcardArg_natCast, List.getElem?_eq_getElem hj]
  rfl

/-! ### Looking up by name -/

theorem wildcardArg_of_name {s : String} (h : Labelled r.args) (ha : a ∈ r.args)
    (hname : a.name = .str s) :
    r.wildcardArg (.str s) = a.value ∧ (r.args.filter fun b => b.name.equal (.str s)) = [a] := by
  have hnamed : a.isPositional = false := by rw [isPositional, hname]
  have hsame : sameName a = fun b => b.name.equal (.str s) := by
    funext b
    rw [sameName, hnamed, hname]
    rfl
  have honce := filter_sameName (h.label a ha) h ha (sameName_self (h.label a ha) hnamed)
  rw [hsame] at honce
  have hfound : r.args.find? (fun b => b.name.equal (.str s)) = some a := by
    rw [← List.head?_filter, honce]
    rfl
  refine ⟨?_, honce⟩
  simp [wildcardArg, Value.asInt?, hfound]

end Route

namespace CommandLine

/-! ### Items -/

/-- The item for an argument at a place, with the value that is looked up. -/
def Item.lookedUp (r : Route) (i : Nat) (a : WildcardArg) : Item :=
  if a.isPositional then positional (numberAt r.args i) (r.wildcardArg (.int (numberAt r.args i)))
  else named a.name (r.wildcardArg a.name)

theorem Item.getElem?_ofArgs (index : Nat) (args : List WildcardArg) (i : Nat) :
    (ofArgs index args)[i]? = args[i]?.map fun a =>
      if a.isPositional then positional (index + numberAt args i) a.value
      else named a.name a.value := by
  induction args generalizing index i with
  | nil => simp [ofArgs]
  | cons a args ih =>
    rw [ofArgs]
    cases i with
    | zero => cases hpos : a.isPositional <;> simp [hpos, numberAt]
    | succ i =>
      cases hpos : a.isPositional
      · simp [ih, numberAt, hpos]
      · simp [ih, numberAt, hpos, Nat.add_assoc, Nat.add_comm 1]

theorem Item.ofArgs_eq (h : ∀ a ∈ r.args, a.isPositional = false → r.wildcardArg a.name = a.value) :
    ofArgs 0 r.args = r.args.mapIdx (lookedUp r) := by
  refine List.ext_getElem? fun i => ?_
  rw [getElem?_ofArgs, List.getElem?_mapIdx]
  cases ha : r.args[i]? with
  | none => rfl
  | some a =>
    rw [Option.map_some, Option.map_some, lookedUp, Nat.zero_add]
    by_cases hpos : a.isPositional = true
    · rw [if_pos hpos, if_pos hpos, wildcardArg_natCast, getElem?_positionals ha hpos]
      rfl
    · rw [if_neg hpos, if_neg hpos, h a (List.mem_of_getElem? ha) (by simpa using hpos)]

/-! ### Lines -/

/-- All that is shown of the item can be written. -/
def Item.isWritable : Item → Bool
  | entry name value | named name value => name.isWritable && value.isWritable
  | positional _ value => value.isWritable

theorem Item.exists_line {item : Item} (h : item.isWritable = true) :
    ∃ text, item.line = .ok text := by
  cases item with
  | entry name value | named name value =>
    obtain ⟨hname, hvalue⟩ := Bool.and_eq_true_iff.1 h
    rw [line, Value.write_of_isWritable hname, Value.writeQuoted_of_isWritable hvalue]
    exact ⟨_, rfl⟩
  | positional index value =>
    rw [line, Value.writeQuoted_of_isWritable h]
    exact ⟨_, rfl⟩

theorem Item.line_of_not_isWritable {item : Item} (h : item.isWritable = false) :
    item.line = .error .numberUnwritable := by
  cases item with
  | entry name value | named name value =>
    rw [line]
    cases hname : name.isWritable with
    | false => rw [Value.write_of_not_isWritable hname]; rfl
    | true =>
      rw [isWritable, hname, Bool.true_and] at h
      rw [Value.write_of_isWritable hname, Value.writeQuoted_of_not_isWritable h]
      rfl
  | positional index value =>
    rw [line, Value.writeQuoted_of_not_isWritable h]
    rfl

theorem Item.isWritable_of_mem_ofArgs {index : Nat} {item : Item}
    (h : ∀ a ∈ args, a.isWritable = true) (hitem : item ∈ ofArgs index args) :
    item.isWritable = true := by
  induction args generalizing index with
  | nil => cases hitem
  | cons a args ih =>
    obtain ⟨ha, hargs⟩ := List.forall_mem_cons.1 h
    rw [ofArgs] at hitem
    split at hitem
    · rcases List.mem_cons.1 hitem with rfl | hitem
      · exact (Bool.and_eq_true_iff.1 ha).2
      · exact ih hargs hitem
    · rcases List.mem_cons.1 hitem with rfl | hitem
      · exact ha
      · exact ih hargs hitem

theorem write_of_forall₂ {lines : List (Except RoutingError String)} {texts : List String}
    (h : List.Forall₂ (fun line text => line = .ok text) lines texts) :
    Listing.write lines = ⟨texts, none⟩ := by
  induction h with
  | nil => rfl
  | cons hline _ ih => rw [hline, Listing.write, ih]

theorem fault_write {lines : List (Except RoutingError String)} {err : RoutingError}
    (hmem : .error err ∈ lines) (h : ∀ err', .error err' ∈ lines → err' = err) :
    (Listing.write lines).fault = some err := by
  induction lines with
  | nil => cases hmem
  | cons line lines ih =>
    cases line with
    | ok text =>
      exact ih ((List.mem_cons.1 hmem).resolve_left nofun)
        fun err' herr => h err' (List.mem_cons_of_mem _ herr)
    | error err' => exact congrArg some (h err' List.mem_cons_self)

/-- A listing is stopped by the first item that cannot be written. -/
theorem listing_cases (m : Route) :
    ((∀ item ∈ Item.ofRoute m, item.isWritable = true) →
      ∃ texts, List.Forall₂ (fun item text => item.line = .ok text) (Item.ofRoute m) texts ∧
        listing m = ⟨m.pattern :: texts, none⟩) ∧
    ((∃ item ∈ Item.ofRoute m, item.isWritable = false) →
      (listing m).fault = some .numberUnwritable) := by
  constructor
  · intro h
    obtain ⟨texts, htexts⟩ := exists_forall₂ fun item hitem => Item.exists_line (h item hitem)
    exact ⟨texts, htexts, write_of_forall₂ (.cons rfl (List.forall₂_map_left_iff.2 htexts))⟩
  · rintro ⟨item, hitem, hlong⟩
    refine fault_write (List.mem_cons_of_mem _ ?_) fun err herr => ?_
    · exact List.mem_map.2 ⟨item, hitem, Item.line_of_not_isWritable hlong⟩
    · rcases List.mem_cons.1 herr with herr | herr
      · cases herr
      · obtain ⟨other, _, hline⟩ := List.mem_map.1 herr
        cases hother : other.isWritable with
        | true =>
          obtain ⟨text, htext⟩ := Item.exists_line hother
          cases htext.symm.trans hline
        | false =>
          cases (Item.line_of_not_isWritable hother).symm.trans hline
          rfl

/-! ### Matches -/

/-- The arguments of a match are those in the tail of the path. -/
theorem args_of_matchPath (hwild : r.hasWildcard = true) (hargs : r.args = [] ∨ HasTail r path)
    (hm : r.matchPath path = .ok (some m)) :
    ∃ c, r.matcher.matchPath path = .ok (some c) ∧ m.args = parse (c.tail.getD "").toList := by
  obtain ⟨c, hc, rfl⟩ := Route.matchPath_eq_some hm
  refine ⟨c, hc, ?_⟩
  cases htail : c.tail with
  | some tail => simp [withCaptures, htail]
  | none =>
    have hempty : r.args = [] := by
      refine hargs.resolve_right fun hhas => ?_
      have hsome := hhas hwild c hc
      rw [htail] at hsome
      cases hsome
    simp only [withCaptures, htail, hempty]
    rfl

/-- Where the constraints are expressions by themselves, the wildcard takes part in every match,
whatever moves have led to the route. -/
theorem hasTail_of_reached (hbuild : Route.build pattern defaults options = .ok t)
    (hr : Reached t moves r)
    (hself : t.matcher.pattern.IsSelfContained (PathMatcher.ignoresCase options.caseSensitive))
    (path : String) : HasTail r path := by
  obtain ⟨p, _, _, _, hb⟩ := built_of_build hbuild
  have hmatcher : r.matcher = t.matcher := (hb.keeps hr).matcher
  intro hwild c hc
  rw [hmatcher] at hc
  rw [hasWildcard, hmatcher] at hwild
  rw [hb.pattern_eq] at hself
  exact hb.hasTail hself path hwild c hc

/-- A route is built, gets an argument and matches a path. -/
theorem exists_match_of_withArg (pattern defaults : Value) (a : WildcardArg) (path : String)
    (f : Captures → Route → Bool)
    (h : (Route.build pattern defaults .usual).toOption.any (fun t => t.args.isEmpty &&
      (t.withWildcardArg a.value a.name).toOption.any fun r =>
        (r.matcher.matchPath path).toOption.any fun found =>
          found.any fun c => f c (r.withCaptures path c)) = true) :
    ∃ t r c, Route.build pattern defaults .usual = .ok t ∧
      Reached t [.withWildcardArg a.value a.name] r ∧ r.args = [a] ∧ r.hasWildcard = true ∧
      r.matchPath path = .ok (some (r.withCaptures path c)) ∧
      f c (r.withCaptures path c) = true := by
  obtain ⟨t, ht, h⟩ := exists_ok_of_any h
  obtain ⟨hempty, h⟩ := Bool.and_eq_true_iff.1 h
  obtain ⟨r, hr, h⟩ := exists_ok_of_any h
  obtain ⟨c, hc, hf⟩ := exists_some_of_any h
  have hmove : t.after (.withWildcardArg a.value a.name) = .ok (some r) := by
    rw [after, hr]
    rfl
  have hm : r.matchPath path = .ok (some (r.withCaptures path c)) := by
    rw [Route.matchPath, hc]
    rfl
  obtain ⟨hwild, rfl⟩ := withWildcardArg_eq_ok.1 hr
  refine ⟨t, _, c, ht, .move .start hmove, ?_, hwild, hm, hf⟩
  rw [List.isEmpty_iff.1 hempty, merge_of_fresh (.inr (by simp))]
  rfl

/-- A route with a wildcard matches a path, and the wildcard takes part in the match, or the route
has had no arguments before. The match is listed with its pattern, its entries and its arguments as
they stand in the tail of the path, unless an entry cannot be written. Each argument is listed with
the value that is looked up under what is listed before it: the positional ones are numbered in
their order, their numbers lead to their values from the start as from the end, and no other number
leads to a value. A named one is found by its name, which no other one has. -/
theorem listing_of_matchPath (hwild : r.hasWildcard = true) (hargs : r.args = [] ∨ HasTail r path)
    (hm : r.matchPath path = .ok (some m)) :
    (Value.areEntriesWritable m.dispatch = true →
      ∃ texts, List.Forall₂ (fun item text => item.line = .ok text)
        (m.dispatch.map (fun e => Item.entry e.1 e.2) ++ m.args.mapIdx (Item.lookedUp m)) texts ∧
          listing m = ⟨m.pattern :: texts, none⟩) ∧
    (Value.areEntriesWritable m.dispatch = false →
      (listing m).fault = some .numberUnwritable) ∧
    (∃ c, r.matcher.matchPath path = .ok (some c) ∧
      m.args = settled (inTail (c.tail.getD "").toList)) ∧
    m.positionals = (List.range m.positionals.length).map (fun j : Nat => m.wildcardArg (.int j)) ∧
    (∀ j : Nat, j < m.positionals.length →
      m.wildcardArg (.int (j - m.positionals.length)) = m.wildcardArg (.int j)) ∧
    (∀ (key : Value) (n : Int), key.asInt? = some n →
      n < -m.positionals.length ∨ m.positionals.length ≤ n → m.wildcardArg key = .none) ∧
    ∀ a ∈ m.args, a.isPositional = false → ∃ s, a.name = .str s ∧ m.wildcardArg (.str s) = a.value ∧
      (m.args.filter fun b => b.name.equal (.str s)) = [a] := by
  obtain ⟨c, hc, hparse⟩ := args_of_matchPath hwild hargs hm
  have hlabelled : Labelled m.args := hparse ▸ labelled_parse _
  have hnames : ∀ a ∈ m.args, a.isPositional = false → ∃ s, a.name = .str s ∧
      m.wildcardArg (.str s) = a.value ∧ (m.args.filter fun b => b.name.equal (.str s)) = [a] := by
    intro a ha hnamed
    obtain ⟨s, hs⟩ := exists_name_of_parse (hparse ▸ ha) hnamed
    exact ⟨s, hs, wildcardArg_of_name hlabelled ha hs⟩
  have hfound : ∀ a ∈ m.args, a.isPositional = false → m.wildcardArg a.name = a.value := by
    intro a ha hnamed
    obtain ⟨s, hs, hvalue, _⟩ := hnames a ha hnamed
    rw [hs, hvalue]
  have hitems : Item.ofRoute m =
      m.dispatch.map (fun e => Item.entry e.1 e.2) ++ m.args.mapIdx (Item.lookedUp m) := by
    rw [Item.ofRoute, Item.ofArgs_eq hfound]
  refine ⟨fun hshort => ?_, fun hlong => ?_, ⟨c, hc, hparse.trans (parse_eq_settled _)⟩,
    m.positionals_eq, fun j hj => ?_, fun key n hkey hn => ?_, hnames⟩
  · rw [← hitems]
    refine (listing_cases m).1 fun item hitem => ?_
    rcases List.mem_append.1 hitem with hitem | hitem
    · obtain ⟨e, he, rfl⟩ := List.mem_map.1 hitem
      exact Bool.and_eq_true_iff.2 (Value.areEntriesWritable_eq_true.1 hshort e he)
    · refine Item.isWritable_of_mem_ofArgs (fun a ha => ?_) hitem
      exact ((canonical_parse _).legible a (hparse ▸ ha)).isWritable
  · obtain ⟨e, he, hlong⟩ := Value.areEntriesWritable_eq_false.1 hlong
    refine (listing_cases m).2 ⟨.entry e.1 e.2, ?_, Bool.and_eq_false_iff.2 hlong⟩
    exact List.mem_append_left _ (List.mem_map_of_mem he)
  · rw [wildcardArg_of_asInt? m rfl, wildcardArg_of_asInt? m rfl]
    exact atIndex_from_end hj
  · rw [wildcardArg_of_asInt? m hkey]
    exact atIndex_outside hn

/-- The argument that was added before the match is gone. Of two named `k` the last one is listed in
the place of the first, and an argument that is named by a digit is no positional one. -/
theorem listing_of_matchPath_user : ∃ t r m, Route.build (.str "/user/\\d+:id/*")
      (.dict [(.str "controller", .str "users")]) .usual = .ok t ∧
    Reached t [.withWildcardArg (.str "v") (.int 1)] r ∧ r.args = [⟨.int 1, .str "v"⟩] ∧
    r.hasWildcard = true ∧ HasTail r "/user/42/x/k:v/y/k:w/1:z" ∧
    r.matchPath "/user/42/x/k:v/y/k:w/1:z" = .ok (some m) ∧
    listing m = ⟨["/user/\\d+:id/*", "  controller = 'users'", "  id = '42'", "  *0 = 'x'",
      "  *k = 'w'", "  *1 = 'y'", "  *1 = 'z'"], none⟩ ∧
    m.positionals = [m.wildcardArg (.int 0), m.wildcardArg (.int 1)] ∧
    m.wildcardArg (.int (-1)) = m.wildcardArg (.int 1) ∧ m.wildcardArg (.int 2) = .none := by
  obtain ⟨t, r, c, ht, hr, hargs, hwild, hm, h⟩ :=
    exists_match_of_withArg (.str "/user/\\d+:id/*") (.dict [(.str "controller", .str "users")])
      ⟨.int 1, .str "v"⟩ "/user/42/x/k:v/y/k:w/1:z" (fun _ m => m.positionals.length == 2 &&
        (listing m).fault.isNone && (listing m).lines ==
          ["/user/\\d+:id/*", "  controller = 'users'", "  id = '42'", "  *0 = 'x'",
            "  *k = 'w'", "  *1 = 'y'", "  *1 = 'z'"]) (by decide +kernel)
  rw [Bool.and_eq_true, Bool.and_eq_true, beq_iff_eq, beq_iff_eq, Option.isNone_iff_eq_none] at h
  obtain ⟨⟨hlength, hfault⟩, hlines⟩ := h
  obtain ⟨p, _, hpattern, _, hb⟩ := built_of_build ht
  have hread := hb.read
  rw [← Value.str.inj hpattern, read_userPattern] at hread
  have hself : t.matcher.pattern.IsSelfContained false := by
    rw [hb.pattern_eq, ← Except.ok.inj hread]
    exact isSelfContained_userPattern
  have htail : HasTail r "/user/42/x/k:v/y/k:w/1:z" := hasTail_of_reached ht hr hself _
  obtain ⟨_, _, _, hpositionals, hend, houtside, _⟩ := listing_of_matchPath hwild (.inr htail) hm
  rw [hlength] at hpositionals hend houtside
  exact ⟨t, r, _, ht, hr, hargs, hwild, htail, hm, Listing.ext hlines hfault, hpositionals,
    hend 1 (by decide), houtside (.int 2) 2 rfl (.inr (by decide))⟩

/-- The constraint closes its own group, so that the wildcard takes no part in the match of `/a`.
The argument that was added before is listed, although the path does not have it, and what is listed
before it leads to nothing. -/
theorem listing_populated : ∃ t r m, Route.build (.str "/<a)|(?:b>:x/*") .none .usual = .ok t ∧
    Reached t [.withWildcardArg (.str "v") (.int 1)] r ∧ r.hasWildcard = true ∧
    r.matchPath "/a" = .ok (some m) ∧ m.args = [⟨.int 1, .str "v"⟩] ∧
    listing m = ⟨["/<a)|(?:b>:x/*", "  x = 'a'", "  *1 = 'v'"], none⟩ ∧
    m.wildcardArg (.int 1) = .none := by
  obtain ⟨t, r, c, ht, hr, hargs, hwild, hm, h⟩ :=
    exists_match_of_withArg (.str "/<a)|(?:b>:x/*") .none ⟨.int 1, .str "v"⟩ "/a"
      (fun c m => c.tail.isNone && (listing m).fault.isNone &&
        (listing m).lines == ["/<a)|(?:b>:x/*", "  x = 'a'", "  *1 = 'v'"]) (by decide +kernel)
  rw [Bool.and_eq_true, Bool.and_eq_true, Option.isNone_iff_eq_none, Option.isNone_iff_eq_none,
    beq_iff_eq] at h
  obtain ⟨⟨hnone, hfault⟩, hlines⟩ := h
  have hkept : (r.withCaptures "/a" c).args = [⟨.int 1, .str "v"⟩] := by
    simp only [withCaptures, hnone, hargs]
  refine ⟨t, r, _, ht, hr, hwild, hm, hkept, Listing.ext hlines hfault, ?_⟩
  rw [wildcardArg_of_asInt? _ rfl, positionals, hkept]
  rfl

end CommandLine

end UrlRouting
