import Psst.Lib.JsonValue

/-!
# Decoders of records

A record is decoded from a JSON object field by field. A field that is not the record's is an
error; a field that is left out is an error, nothing, or its default.
-/

namespace Json

/-- No field but these. -/
def denyUnknownFields (names : List String) (fields : List (String × Value)) : Bool :=
  fields.all fun field => names.contains field.1

/-- A field that must be there. -/
def requiredField {α : Type} (decode : Value → Option α) (key : String)
    (fields : List (String × Value)) : Option α :=
  (fields.lookup key).bind decode

/-- A field that may be left out, or null. -/
def optionalField {α : Type} (decode : Value → Option α) (key : String)
    (fields : List (String × Value)) : Option (Option α) :=
  match fields.lookup key with
  | none | some .null => some none
  | some value => (decode value).map some

/-- A field with a default. -/
def defaultField {α : Type} (default : α) (decode : Value → Option α) (key : String)
    (fields : List (String × Value)) : Option α :=
  match fields.lookup key with
  | none => some default
  | some value => decode value

namespace Value

/-- An integer of 16 bits. -/
def asU16 (value : Value) : Option UInt16 :=
  value.asU64.bind fun n => if n.toNat < 65536 then some n.toUInt16 else none

/-- An integer of 8 bits. -/
def asU8 (value : Value) : Option UInt8 :=
  value.asU64.bind fun n => if n.toNat < 256 then some n.toUInt8 else none

def asStrings (value : Value) : Option (List String) :=
  value.asArray.bind fun elements => elements.mapM asStr

/-- The variant of an enumeration without data: its name, or an object with its name alone. -/
def variantName : Value → Option String
  | .string name => some name
  | .object [(name, .null)] => some name
  | _ => none

end Value

end Json
