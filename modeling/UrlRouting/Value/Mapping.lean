import UrlRouting.Value.Basic

/-! Mappings from values to values that keep the order in which their keys came. -/
namespace UrlRouting

abbrev Mapping := List (Value × Value)

namespace Mapping

variable {m : Mapping} {k v : Value}

def get? (m : Mapping) (key : Value) : Option Value :=
  (m.find? fun e => e.1.agrees key).map (·.2)

def has (m : Mapping) (key : Value) : Bool :=
  m.any fun e => e.1.agrees key

/-- Gives a key its value. A key that is there keeps its place and its own form. -/
def insert : Mapping → Value → Value → Mapping
  | [], key, value => [(key, value)]
  | e :: rest, key, value =>
    if e.1.agrees key then (e.1, value) :: rest else e :: insert rest key value

def keys (m : Mapping) : List Value :=
  m.map (·.1)

def ofList (entries : List (Value × Value)) : Mapping :=
  entries.foldl (fun m e => m.insert e.1 e.2) []

def insertAll (m : Mapping) (entries : List (Value × Value)) : Mapping :=
  entries.foldl (fun m e => m.insert e.1 e.2) m

/-- Equality whatever the order of the keys. -/
def equal (m n : Mapping) : Bool :=
  (Value.dict m).agrees (.dict n)

@[simp] theorem get?_nil : get? [] k = none := rfl

theorem has_eq_isSome_get? : has m k = (get? m k).isSome := by
  induction m with
  | nil => rfl
  | cons e rest ih =>
    simp only [has, get?, List.any_cons, List.find?_cons] at ih ⊢
    cases e.1.agrees k <;> simp_all

end Mapping

end UrlRouting
