/-
ShapeScript.Proofs.Json.Encoding — which data has no JSON form.

Encoding goes through data from the first item to the last, and only an
object can stop it. So it fails on the first object that the data holds
(`encode_fails`), and data without one has a form.
-/
import ShapeScript.Json.Encoder

namespace ShapeScript.Json.Data

mutual

/-- The types of the objects in data, from the first to the last. -/
def objects : Data → List String
  | plain _ | model _ | constant _ => []
  | list items | set items => objectsOfItems items
  | record members => objectsOfMembers members
  | object type => [type]

/-- Those in the items of a list or a set. -/
def objectsOfItems : List Data → List String
  | [] => []
  | d :: rest => objects d ++ objectsOfItems rest

/-- Those in the members of a record. -/
def objectsOfMembers : List (String × Data) → List String
  | [] => []
  | (_, d) :: rest => objects d ++ objectsOfMembers rest

end

/-- An encoding fails on the first of these types, and only on that. -/
def FailsOn {α : Type} (x : Except EncodingError α) (types : List String) : Prop :=
  ∀ e, x = .error e ↔ types.head? = some e.type

section FailsOn

variable {α β γ : Type} {x : Except EncodingError α} {y : Except EncodingError β}
  {types later : List String}

theorem failsOn_ok (a : α) : FailsOn (.ok a) [] := fun _ => iff_of_false nofun nofun

theorem FailsOn.map (h : FailsOn x types) (g : α → β) : FailsOn (x.map g) types := by
  intro e
  rw [← h e]
  cases x <;> simp [Except.map]

/-- It succeeds if there are none. -/
theorem FailsOn.exists_ok_iff (h : FailsOn x types) : (∃ a, x = .ok a) ↔ types = [] := by
  cases x with
  | ok a =>
    refine iff_of_true ⟨a, rfl⟩ ?_
    cases types with
    | nil => rfl
    | cons type _ => cases (h ⟨type⟩).mpr rfl
  | error e =>
    refine iff_of_false nofun ?_
    rintro rfl
    cases (h e).mp rfl

/-- Of two encodings the first to fail is the one that is made first. -/
theorem FailsOn.both (hx : FailsOn x types) (hy : FailsOn y later) (g : α → β → γ) :
    FailsOn (do return g (← x) (← y)) (types ++ later) := by
  cases x with
  | ok a =>
    rw [hx.exists_ok_iff.mp ⟨a, rfl⟩]
    exact hy.map (g a)
  | error e =>
    have hfirst : (types ++ later).head? = types.head? := by
      rw [List.head?_append, (hx e).mp rfl]
      rfl
    intro e'
    rw [hfirst, ← hx e']
    constructor
    · rintro ⟨⟩
      rfl
    · rintro ⟨⟩
      rfl

end FailsOn

mutual

/-- Encoding data fails on the first object in it. -/
theorem encode_failsOn (d : Data) : FailsOn d.encode d.objects := by
  cases d with
  | plain | model | constant => exact failsOn_ok _
  | list items | set items => exact (encodeItems_failsOn items).map _
  | record members => exact (encodeMembers_failsOn members).map _
  | object type => exact fun ⟨_⟩ => by simp [encode, objects]

theorem encodeItems_failsOn (items : List Data) :
    FailsOn (encodeItems items) (objectsOfItems items) := by
  cases items with
  | nil => exact failsOn_ok _
  | cons d rest => exact (encode_failsOn d).both (encodeItems_failsOn rest) _

theorem encodeMembers_failsOn (members : List (String × Data)) :
    FailsOn (encodeMembers members) (objectsOfMembers members) := by
  cases members with
  | nil => exact failsOn_ok _
  | cons m rest => exact (encode_failsOn m.2).both (encodeMembers_failsOn rest) _

end

/-- Data has a form just if no object is in it. -/
theorem exists_encode_iff (d : Data) : (∃ v, d.encode = .ok v) ↔ d.objects = [] :=
  (encode_failsOn d).exists_ok_iff

end ShapeScript.Json.Data
