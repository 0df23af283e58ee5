/-
ShapeScript.Json — data as JSON has it.

Objects keep their members in order, since artifacts are written with
their fields in a fixed one. Integers and other numbers are told apart,
because they are written differently.
-/
namespace ShapeScript

/-- A JSON value. -/
inductive Json where
  | null
  | bool (b : Bool)
  | int (n : Int)
  | number (x : Float)
  | string (s : String)
  | array (items : List Json)
  | object (members : List (String × Json))
  deriving Repr, Inhabited

namespace Json

/-- The member of a name. -/
def get? : Json → String → Option Json
  | object members, name => members.lookup name
  | _, _ => none

/-- The members with one set: a name that is there keeps its place. -/
def setMember {α : Type} : List (String × α) → String → α → List (String × α)
  | [], name, v => [(name, v)]
  | (n, w) :: rest, name, v =>
    if n = name then (n, v) :: rest else (n, w) :: setMember rest name v

/-- A name that is not there gets its place at the end. -/
theorem setMember_eq_append {α : Type} {members : List (String × α)} {name : String} {v : α}
    (h : name ∉ members.map Prod.fst) : setMember members name v = members ++ [(name, v)] := by
  induction members with
  | nil => rfl
  | cons m members ih =>
    rw [List.map_cons, List.mem_cons, not_or] at h
    rw [setMember, if_neg (Ne.symm h.1), ih h.2, List.cons_append]

end Json

end ShapeScript
