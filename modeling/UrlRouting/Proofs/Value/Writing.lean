import UrlRouting.Value.Text

/-! Which values can be written. Where one cannot, that is the only thing that goes wrong. -/
namespace UrlRouting.Value

variable {v : Value} {s : String} {err : RoutingError}

theorem write_of_isWritable (h : v.isWritable = true) : v.write = .ok v.text :=
  if_pos h

theorem write_of_not_isWritable (h : v.isWritable = false) : v.write = .error .numberUnwritable :=
  if_neg (by simp [h])

theorem write_eq_ok : v.write = .ok s ↔ v.isWritable = true ∧ v.text = s := by
  cases h : v.isWritable with
  | true => simp [write_of_isWritable h]
  | false => simp [write_of_not_isWritable h]

theorem write_eq_error : v.write = .error err ↔ v.isWritable = false ∧ err = .numberUnwritable := by
  cases h : v.isWritable with
  | true => simp [write_of_isWritable h]
  | false => simp [write_of_not_isWritable h, eq_comm]

/-- The least number of more digits than can be written. -/
def overlong : Value :=
  .int (Nat.pow 10 Text.integerDigitLimit)

theorem isWritable_overlong : overlong.isWritable = false := by
  rw [overlong, isWritable, isShort, Int.natAbs_natCast]
  exact decide_eq_false (Nat.lt_irrefl _)

@[simp] theorem write_str (s : String) : (str s).write = .ok s := rfl

theorem writeQuoted_of_isWritable (h : v.isWritable = true) : v.writeQuoted = .ok v.quoted :=
  if_pos h

theorem writeQuoted_of_not_isWritable (h : v.isWritable = false) :
    v.writeQuoted = .error .numberUnwritable :=
  if_neg (by simp [h])

theorem areEntriesWritable_eq_true {entries : List (Value × Value)} :
    areEntriesWritable entries = true ↔
      ∀ e ∈ entries, e.1.isWritable = true ∧ e.2.isWritable = true := by
  induction entries with
  | nil => simp [areEntriesWritable]
  | cons e entries ih =>
    rw [areEntriesWritable, Bool.and_eq_true, Bool.and_eq_true, ih, List.forall_mem_cons]

theorem areEntriesWritable_eq_false {entries : List (Value × Value)} :
    areEntriesWritable entries = false ↔
      ∃ e ∈ entries, e.1.isWritable = false ∨ e.2.isWritable = false := by
  induction entries with
  | nil => simp [areEntriesWritable]
  | cons e entries ih =>
    rw [areEntriesWritable, Bool.and_eq_false_iff, Bool.and_eq_false_iff, ih]
    simp only [List.mem_cons, exists_eq_or_imp]

end UrlRouting.Value
