/-
ShapeScript.Json.Encoder — the JSON form of data.

Data that is saved is not yet JSON: among lists and records there are
models, members of enumerations and sets. A model has its dump as its
form, a member its name, and a set the array of its items. Objects of all
other types have none, and the first of them ends the encoding.
-/
import ShapeScript.Json

namespace ShapeScript.Json

/-- Data to be encoded. A model is given by its dump, and an object of
another type by the name of the type. -/
inductive Data where
  | plain (v : Json)
  | list (items : List Data)
  | record (members : List (String × Data))
  | model (dump : Json)
  | constant (name : String)
  | set (items : List Data)
  | object (type : String)

/-- There is an object that has no form, and its type is this one. -/
structure EncodingError where
  type : String
  deriving DecidableEq, Repr

/-- What is said about it. -/
def EncodingError.message (e : EncodingError) : String :=
  "Object of type " ++ e.type ++ " is not JSON serializable"

namespace Data

mutual

/-- The form of data. -/
def encode : Data → Except EncodingError Json
  | plain v | model v => .ok v
  | list items | set items => (encodeItems items).map .array
  | record members => (encodeMembers members).map .object
  | constant name => .ok (.string name)
  | object type => .error ⟨type⟩

/-- The forms of the items of a list or a set. -/
def encodeItems : List Data → Except EncodingError (List Json)
  | [] => .ok []
  | d :: rest => do return (← encode d) :: (← encodeItems rest)

/-- The forms of the members of a record. -/
def encodeMembers : List (String × Data) → Except EncodingError (List (String × Json))
  | [] => .ok []
  | (name, d) :: rest => do return (name, ← encode d) :: (← encodeMembers rest)

end

theorem encodeItems_map {α : Type} {data : α → Data} {form : α → Json}
    (h : ∀ a, (data a).encode = .ok (form a)) (as : List α) :
    encodeItems (as.map data) = .ok (as.map form) := by
  induction as with
  | nil => rfl
  | cons a as ih =>
    rw [List.map_cons, List.map_cons, encodeItems, h, ih]
    rfl

end Data

end ShapeScript.Json
