import Mathlib.Data.Option.NAry
import UrlRouting.Proofs.Method.Declared
import UrlRouting.Proofs.Text.Pieces

/-! The set of methods that a text lists by their names. Texts with a comma between them give the
union of their sets, and of a text only the names matter, in whatever order and spelling they
stand. -/
namespace UrlRouting

open Expression

variable {c : Char} {name piece : List Char} {s t : String}

namespace Method

/-! ### Names -/

/-- A name as it counts: without the blanks around it, and with capitals for its ASCII letters. -/
def nameOf (piece : List Char) : List Char :=
  (Text.trim (fun c => Text.isBlank c.toNat) piece).map Char.toUpper

theorem toUpper_cases (c : Char) : c.toUpper = c ∨
    0x61 ≤ c.toNat ∧ c.toNat ≤ 0x7A ∧ c.toUpper.toNat = c.toNat - 0x20 := by
  unfold Char.toUpper
  split
  · next h =>
    obtain ⟨hlow, hhigh⟩ := h
    rw [UInt32.le_iff_toNat_le] at hlow hhigh
    -- the step from small letters to capitals goes backwards, by its complement
    have hstep : ('A'.val - 'a'.val).toNat = 4294967264 := by decide
    have hsum : (c.val + ('A'.val - 'a'.val)).toNat = c.val.toNat - 0x20 := by
      rw [UInt32.toNat_add, hstep]
      have hlow : 0x61 ≤ c.val.toNat := hlow
      have hhigh : c.val.toNat ≤ 0x7A := hhigh
      omega
    exact .inr ⟨hlow, hhigh, hsum⟩
  · exact .inl rfl

theorem isBlank_toUpper : Text.isBlank c.toUpper.toNat = Text.isBlank c.toNat := by
  rcases toUpper_cases c with h | ⟨hlow, hhigh, h⟩
  · rw [h]
  · have hblank : ∀ code, 0x41 ≤ code → code < 0x80 → Text.isBlank code = false := by
      intro code hcode hsmall
      simp [Text.isBlank, Text.isAsciiBlank, hsmall]
      omega
    rw [h, hblank _ (by omega) (by omega), hblank _ (by omega) (by omega)]

theorem asciiCapitals?_toUpper : Text.asciiCapitals? c.toUpper = Text.asciiCapitals? c := by
  rcases toUpper_cases c with h | ⟨hlow, hhigh, h⟩
  · rw [h]
  · have hupper : Text.upper (c.toNat - 0x20) = Text.upper c.toNat := by
      rw [Text.upper, Text.upper, if_pos (by omega : c.toNat - 0x20 < 0x80),
        if_pos (by omega : c.toNat < 0x80), if_neg (by simp; omega), if_pos (by simp; omega)]
    rw [Text.asciiCapitals?, Text.asciiCapitals?, h, if_pos (by omega), if_pos (by omega), hupper]

theorem capitals?_map_toUpper (name : List Char) :
    capitals? (name.map Char.toUpper) = capitals? name := by
  rw [capitals?, capitals?, List.mapM_map]
  simp only [Function.comp_def, asciiCapitals?_toUpper]

/-- A piece is read as its name is. -/
theorem read?_nameOf (piece : List Char) : read? (nameOf piece) = read? piece := by
  have htrim : Text.trim (fun c => Text.isBlank c.toNat) (nameOf piece) = nameOf piece := by
    rw [nameOf, Text.trim_map fun c => isBlank_toUpper, Text.trim_trim]
  rw [read?, read?, htrim, nameOf, capitals?_map_toUpper]

theorem mask_ne_zero (m : Method) : m.mask ≠ 0 := by
  cases m <;> decide

end Method

namespace MethodSet

variable {a b set : MethodSet} {v : Value} {members others : List Value}

/-! ### Unions -/

/-- The union of the sets that the members of a list stand for. -/
def unionOf (members : List Value) : Except RoutingError MethodSet :=
  members.foldlM (fun set v => (set ||| ·) <$> ofMember v) 0

theorem foldlM_union (a : MethodSet) (members : List Value) :
    members.foldlM (fun set v => (set ||| ·) <$> ofMember v) a = (a ||| ·) <$> unionOf members := by
  induction members generalizing a with
  | nil => exact congrArg Except.ok (Nat.or_zero a).symm
  | cons v members ih =>
    rw [unionOf, List.foldlM_cons, List.foldlM_cons]
    cases ofMember v with
    | error err => rfl
    | ok b =>
      change members.foldlM _ (a ||| b) = (a ||| ·) <$> members.foldlM _ (0 ||| b)
      rw [ih, ih (0 ||| b)]
      cases unionOf members with
      | error err => rfl
      | ok c =>
        have hassoc : a ||| b ||| c = a ||| (0 ||| b ||| c) := by rw [Nat.zero_or, Nat.or_assoc]
        exact congrArg Except.ok hassoc

theorem unionOf_append (members others : List Value) : unionOf (members ++ others) = (do
    return (← unionOf members) ||| (← unionOf others)) := by
  rw [unionOf, List.foldlM_append]
  change (unionOf members >>= _) = _
  cases unionOf members with
  | error err => rfl
  | ok a => exact foldlM_union a others

theorem unionOf_cons (v : Value) (members : List Value) : unionOf (v :: members) = (do
    return (← ofMember v) ||| (← unionOf members)) := by
  rw [unionOf, List.foldlM_cons]
  cases ofMember v with
  | error err => rfl
  | ok a =>
    change members.foldlM _ (0 ||| a) = _
    rw [foldlM_union, Nat.zero_or]
    rfl

theorem exists_unionOf_iff :
    (∃ set, unionOf members = .ok set) ↔ ∀ v ∈ members, ∃ a, ofMember v = .ok a := by
  induction members with
  | nil => exact ⟨fun _ => nofun, fun _ => ⟨0, rfl⟩⟩
  | cons v members ih =>
    rw [List.forall_mem_cons, ← ih, unionOf_cons]
    constructor
    · rintro ⟨set, h⟩
      obtain ⟨a, ha, h⟩ := bind_eq_ok.1 h
      obtain ⟨b, hb, _⟩ := bind_eq_ok.1 h
      exact ⟨⟨a, ha⟩, b, hb⟩
    · rintro ⟨⟨a, ha⟩, b, hb⟩
      exact ⟨a ||| b, by rw [ha, hb]; rfl⟩

theorem testBit_unionOf (h : unionOf members = .ok set) (i : Nat) :
    set.testBit i = true ↔ ∃ v ∈ members, ∃ a, ofMember v = .ok a ∧ a.testBit i = true := by
  induction members generalizing set with
  | nil =>
    cases h
    simp
  | cons v members ih =>
    rw [unionOf_cons] at h
    obtain ⟨a, ha, h⟩ := bind_eq_ok.1 h
    obtain ⟨b, hb, h⟩ := bind_eq_ok.1 h
    cases h
    simp [Nat.testBit_or, ih hb, ha]

/-- A union fails with the error of one of the members. -/
theorem exists_of_unionOf_eq_error {err : RoutingError} (h : unionOf members = .error err) :
    ∃ v ∈ members, ofMember v = .error err := by
  induction members with
  | nil => cases h
  | cons v members ih =>
    rw [unionOf_cons] at h
    cases ha : ofMember v with
    | error err' =>
      rw [ha] at h
      cases h
      exact ⟨v, List.mem_cons_self, ha⟩
    | ok a =>
      rw [ha, ok_bind] at h
      cases hb : unionOf members with
      | error err' =>
        rw [hb] at h
        cases h
        obtain ⟨v', hv', herr⟩ := ih hb
        exact ⟨v', List.mem_cons_of_mem _ hv', herr⟩
      | ok b =>
        rw [hb] at h
        cases h

/-- Each member has to stand for a set, and the union has the bits of all these sets. -/
theorem unionOf_eq_ok_iff : unionOf members = .ok set ↔
    (∀ v ∈ members, ∃ a, ofMember v = .ok a) ∧
      ∀ i, set.testBit i = true ↔ ∃ v ∈ members, ∃ a, ofMember v = .ok a ∧ a.testBit i = true := by
  refine ⟨fun h => ⟨exists_unionOf_iff.1 ⟨set, h⟩, testBit_unionOf h⟩, fun ⟨hall, hbits⟩ => ?_⟩
  obtain ⟨set', h⟩ := exists_unionOf_iff.2 hall
  have heq : set' = set := Nat.eq_of_testBit_eq fun i =>
    Bool.eq_iff_iff.2 ((testBit_unionOf h i).trans (hbits i).symm)
  rw [h, heq]

/-! ### Texts -/

theorem listed_append (s t : String) : listed (s ++ "," ++ t) = listed s ++ listed t := by
  have htext : (s ++ "," ++ t).toList = s.toList ++ ',' :: t.toList := by simp
  rw [listed, htext, Text.pieces_separated, List.map_append]
  rfl

theorem ofMember_piece (piece : List Char) : ofMember (.str (String.ofList piece)) =
    (Method.read? piece).elim (.error (.unsupportedMethod (String.ofList piece))) (.ok ·.mask) := by
  rw [ofMember, Method.ofValue, String.toList_ofList]
  · cases Method.read? piece <;> rfl
  · exact nofun

theorem ofMember_piece_eq_ok {a : MethodSet} : ofMember (.str (String.ofList piece)) = .ok a ↔
    ∃ m, Method.read? piece = some m ∧ m.mask = a := by
  rw [ofMember_piece]
  cases Method.read? piece <;> simp

/-- A text lists one method at least, if all its pieces are methods. -/
theorem ofMembers_listed (s : String) : ofMembers (listed s) = unionOf (listed s) := by
  change (unionOf (listed s) >>= _) = _
  cases h : unionOf (listed s) with
  | error err => rfl
  | ok set =>
    have hne : set ≠ 0 := by
      have hpieces : Text.pieces ',' s.toList ≠ [] := Text.pieces_ne_nil
      obtain ⟨piece, rest, hs⟩ := List.exists_cons_of_ne_nil hpieces
      rw [listed, hs, List.map_cons, unionOf_cons] at h
      obtain ⟨a, ha, h⟩ := bind_eq_ok.1 h
      obtain ⟨b, _, h⟩ := bind_eq_ok.1 h
      cases h
      obtain ⟨m, _, rfl⟩ := ofMember_piece_eq_ok.1 ha
      exact fun hzero => m.mask_ne_zero (Nat.or_eq_zero_iff.1 hzero).1
    exact if_neg hne

theorem ofValue_str (s : String) : ofValue (.str s) = some <$> unionOf (listed s) := by
  rw [← ofMembers_listed]
  rfl

/-- The names that a text lists, as they count. -/
def namesOf (s : String) : List (List Char) :=
  (Text.pieces ',' s.toList).map Method.nameOf

/-- Only the names that a text lists matter. -/
theorem unionOf_listed_eq_ok_iff : unionOf (listed s) = .ok set ↔
    (∀ name ∈ namesOf s, ∃ m, Method.read? name = some m) ∧
      ∀ i, set.testBit i = true ↔
        ∃ name ∈ namesOf s, ∃ m, Method.read? name = some m ∧ m.mask.testBit i = true := by
  rw [unionOf_eq_ok_iff, listed, namesOf]
  simp [ofMember_piece_eq_ok, Method.read?_nameOf]

theorem exists_piece_of_error {err : RoutingError} (h : unionOf (listed s) = .error err) :
    ∃ piece ∈ Text.pieces ',' s.toList, err = .unsupportedMethod (String.ofList piece) := by
  obtain ⟨v, hv, herr⟩ := exists_of_unionOf_eq_error h
  obtain ⟨piece, hpiece, rfl⟩ := List.mem_map.1 hv
  rw [ofMember_piece] at herr
  cases hread : Method.read? piece with
  | none =>
    rw [hread] at herr
    cases herr
    exact ⟨piece, hpiece, rfl⟩
  | some m =>
    rw [hread] at herr
    cases herr

/-- Texts with a comma between them stand for the union of their sets, and fail with the error of
the first of them that fails. A text stands for a set or is refused for one of its pieces; the set
depends on the names that are listed alone, and so neither on their order nor on how often each is
there, nor on blanks around them and the case of their letters; and the list of its pieces comes to
the same. -/
theorem ofValue_joined (s t : String) :
    ofValue (.str (s ++ "," ++ t)) =
      (do return Option.map₂ (· ||| ·) (← ofValue (.str s)) (← ofValue (.str t))) ∧
    ((∃ set, ofValue (.str s) = .ok (some set)) ∨
      ∃ piece ∈ Text.pieces ',' s.toList,
        ofValue (.str s) = .error (.unsupportedMethod (String.ofList piece))) ∧
    ((∀ name, name ∈ namesOf s ↔ name ∈ namesOf t) →
      ∀ set, ofValue (.str s) = .ok set ↔ ofValue (.str t) = .ok set) ∧
    ofValue (.list ((Text.pieces ',' s.toList).map fun piece => .str (String.ofList piece))) =
      ofValue (.str s) := by
  refine ⟨?_, ?_, fun hnames set => ?_, rfl⟩
  · rw [ofValue_str, ofValue_str, ofValue_str, listed_append, unionOf_append]
    cases unionOf (listed s) with
    | error err => rfl
    | ok a => cases unionOf (listed t) <;> rfl
  · rw [ofValue_str]
    cases h : unionOf (listed s) with
    | ok set => exact .inl ⟨set, rfl⟩
    | error err =>
      obtain ⟨piece, hpiece, rfl⟩ := exists_piece_of_error h
      exact .inr ⟨piece, hpiece, rfl⟩
  · have hsame : ∀ a, unionOf (listed s) = .ok a ↔ unionOf (listed t) = .ok a := by
      intro a
      simp only [unionOf_listed_eq_ok_iff, hnames]
    rw [ofValue_str, ofValue_str]
    constructor
    · intro h
      obtain ⟨a, ha, rfl⟩ := map_eq_ok.1 h
      rw [(hsame a).1 ha]
      rfl
    · intro h
      obtain ⟨a, ha, rfl⟩ := map_eq_ok.1 h
      rw [(hsame a).2 ha]
      rfl

theorem ofValue_joined_reordered : ofValue (.str "get, POST") = .ok (some 5) ∧
    ofValue (.str "Post ,get,GET") = .ok (some 5) := by
  have h : ofValue (.str "get, POST") = .ok (some 5) :=
    toOption_eq_some.1 (by decide +kernel)
  have hnames : ∀ name, name ∈ namesOf "get, POST" ↔ name ∈ namesOf "Post ,get,GET" := by
    intro name
    have hfirst : namesOf "get, POST" = ["GET".toList, "POST".toList] := by decide +kernel
    have hsecond : namesOf "Post ,get,GET" = ["POST".toList, "GET".toList, "GET".toList] := by
      decide +kernel
    simp [hfirst, hsecond, or_comm]
  exact ⟨h, ((ofValue_joined "get, POST" "Post ,get,GET").2.2.1 hnames _).1 h⟩

end MethodSet

end UrlRouting
