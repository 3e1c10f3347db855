/-
Values of the model out of JSON: lists, records and what may be null, read by the readers of
their parts. Reading is strict about shape, but fields that mean nothing are passed over.
-/
import SystemMap.Json.Scalar

namespace SystemMap.Json

variable {α : Type}

/-- A value that may be null. -/
def orNull (read : Reader α) : Reader (Option α)
  | .null => .ok none
  | j => (read j).map some

/-- The items of a list from position `i` on. -/
def readItems (read : Reader α) (i : Nat) : List Json → Checked (List α)
  | [] => .ok []
  | j :: js => List.cons <$> (read j).under (.index i) <*> readItems read (i + 1) js

/-- A list of values. -/
def readList (read : Reader α) : Reader (List α)
  | .array items => readItems read 0 items
  | _ => .refuse .notList

/-- The fields of an object. -/
abbrev Fields := List (String × Json)

/-- A record, read field by field. -/
def readRecord (read : Fields → Checked α) : Reader α
  | .object fields => read fields
  | _ => .refuse .notRecord

/-- A field that has to be there. -/
def Fields.required (fields : Fields) (key : String) (read : Reader α) : Checked α :=
  match fields.lookup key with
  | some j => (read j).under (.key key)
  | none => .refused [⟨[.key key], .missing⟩]

/-- A field that may be left out. -/
def Fields.optional (fields : Fields) (key : String) (absent : α) (read : Reader α) :
    Checked α :=
  match fields.lookup key with
  | some j => (read j).under (.key key)
  | none => .ok absent

end SystemMap.Json
