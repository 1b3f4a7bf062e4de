import Mainline.Bencode.Value
import Mainline.Text.Utf8

/-!
# Fields of a dictionary

Messages are dictionaries with known keys. A field is read by its key and the type it has to have;
an absent field is told apart from one of another type, so that it may be optional.
-/

namespace Mainline.Bencode

/-- The name of the type of a value. -/
def Value.typeName : Value → String
  | int _ => "integer"
  | bytes _ => "bytes"
  | list _ => "list"
  | dict _ => "dict"

/-- What a field has to be: the name of that type, and the content of a value that is of it. -/
structure FieldType (α : Type) where
  name : String
  read : Value → Option α

namespace FieldType

/-- An integer. -/
def int : FieldType Int64 where
  name := "integer"
  read
    | .int n => some n
    | _ => none

/-- A byte string. -/
def bytes : FieldType Bytes where
  name := "bytes"
  read
    | .bytes s => some s
    | _ => none

/-- A byte string that is well-formed UTF-8. -/
def text : FieldType String where
  name := "utf-8 string"
  read
    | .bytes s => Utf8.decode? s
    | _ => none

/-- A list. -/
def list : FieldType (List Value) where
  name := "list"
  read
    | .list items => some items
    | _ => none

/-- A dictionary, with all its fields. -/
def dict : FieldType Value where
  name := "dict"
  read
    | .dict entries => some (.dict entries)
    | _ => none

end FieldType

/-- Why a field cannot be read. -/
inductive FieldError where
  /-- The dictionary has no such key. -/
  | missing (key : Bytes)
  /-- The value under the key, or what should be the dictionary, is of another type. -/
  | wrongType (key : Bytes) (expected found : String)
deriving DecidableEq, Repr

namespace FieldError

/-- The wording of each fault, with the key as text. -/
def message : FieldError → String
  | missing key => "missing key: " ++ Utf8.decodeLossy key
  | wrongType key expected found =>
    "wrong type for key " ++ Utf8.decodeLossy key ++ ": expected " ++ expected ++ ", found " ++ found

/-- Is the field merely absent? -/
def isMissing : FieldError → Bool
  | missing _ => true
  | wrongType .. => false

end FieldError

namespace Value

/-- The field under `key`, which has to be there. -/
def field (v : Value) (key : Bytes) : Except FieldError Value :=
  match v with
  | dict entries =>
    match entries.lookup key with
    | some value => .ok value
    | none => .error (.missing key)
  | other => .error (.wrongType key "dict container" other.typeName)

/-- The content of the field under `key`, which has to be there and of this type. -/
def require {α : Type} (v : Value) (key : Bytes) (type : FieldType α) : Except FieldError α :=
  match v.field key with
  | .error e => .error e
  | .ok value =>
    match type.read value with
    | some a => .ok a
    | none => .error (.wrongType key type.name value.typeName)

/-- The content of the field under `key`, which may be absent but has to be of this type. -/
def optional {α : Type} (v : Value) (key : Bytes) (type : FieldType α) :
    Except FieldError (Option α) :=
  match v.require key type with
  | .ok a => .ok (some a)
  | .error e => if e.isMissing then .ok none else .error e

end Value

end Mainline.Bencode
