import BoundSql.Row

/-! Records read from rows as a whole, by way of the interchange form. Columns match fields by
name, and columns without a field are of no account. -/

namespace BoundSql

/-- A field of a record; an optional one may be null or have no column. -/
structure Field where
  name : String
  type : BaseType
  isOptional : Bool := false
  deriving DecidableEq

/-- The type that the field's column is read as. -/
def Field.columnType : Field → ColumnType
  | ⟨_, t, false⟩ => .base t
  | ⟨_, t, true⟩ => .option (.base t)

/-- What a row can be read as. -/
inductive Model where
  | record (fields : List Field)
  /-- The interchange form itself. -/
  | object

/-- A record: each field with its value. -/
abbrev Record : Type := List ((f : Field) × f.columnType.Carrier)

/-- What a row was read as. -/
inductive Decoded where
  | record (entries : Record)
  | object (entries : JsonObject)

/-- Reads the interchange form of a value at a base type; a float may be a whole number. -/
def BaseType.ofJson? : (t : BaseType) → Json → Option t.Carrier
  | int, .integer n => some n
  | float, .number x => some x
  | float, .integer n => some (.ofInt n.toInt)
  | bool, .boolean b => some b
  | text, .string s => some s
  | blob, .array bytes => some bytes
  | _, _ => none

namespace Field

/-- Reads the interchange form of a value at a field's type. -/
def ofJson : (f : Field) → Json → Except ModelError f.columnType.Carrier
  | ⟨_, t, false⟩, j =>
    match t.ofJson? j with
    | some x => .ok x
    | none => .error (.invalidType j t)
  | ⟨_, _, true⟩, .null => .ok none
  | ⟨_, t, true⟩, j =>
    match t.ofJson? j with
    | some x => .ok (some x)
    | none => .error (.invalidType j t)

/-- The value of a field whose column is missing. -/
def absent : (f : Field) → Except ModelError f.columnType.Carrier
  | ⟨name, _, false⟩ => .error (.missingField name)
  | ⟨_, _, true⟩ => .ok none

/-- The value of a field in an object. -/
def read (f : Field) (o : JsonObject) : Except ModelError f.columnType.Carrier :=
  match o.find? f.name with
  | some j => f.ofJson j
  | none => f.absent

end Field

namespace Model

/-- Looks at the entries one by one, and stops at the first that its field cannot hold. -/
def checkEntries (fields : List Field) : JsonObject → Except ModelError Unit
  | [] => .ok ()
  | (key, j) :: rest =>
    match fields.find? (·.name = key) with
    | none => checkEntries fields rest
    | some f =>
      match f.ofJson j with
      | .ok _ => checkEntries fields rest
      | .error e => .error e

/-- The values of the fields, up to the first that has none. -/
def readFields (o : JsonObject) : List Field → Except ModelError Record
  | [] => .ok []
  | f :: fs =>
    match f.read o with
    | .error e => .error e
    | .ok x => (readFields o fs).map (⟨f, x⟩ :: ·)

/-- Reads an object: entries of a wrong type are reported before missing fields. -/
def ofObject (m : Model) (o : JsonObject) : Except ModelError Decoded :=
  match m with
  | object => .ok (.object o)
  | record fields =>
    match checkEntries fields o with
    | .error e => .error e
    | .ok () => (readFields o fields).map .record

/-- Reads a row. -/
def decode (m : Model) (r : Row) : Except DecodeError Decoded :=
  (m.ofObject r.json).mapError .model

end Model

end BoundSql
