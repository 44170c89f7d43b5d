import Ambigram.Error
import Ambigram.Value
/-!
# Records

Reading, writing and clearing a field by name.  A name that the type does not declare is an error, and
so is a value of a kind that the field does not take; a write makes a new record and leaves the old
one as it was.
-/
namespace Ambigram

/-- A type and one slot for each of its fields; an empty slot is an unset field. -/
structure Record where
  type : RecordType
  slots : List (Option Value)
  deriving DecidableEq

namespace Record

/-- The record with every field unset. -/
def unset (type : RecordType) : Record := ⟨type, type.fields.map fun _ => none⟩

def toValue (r : Record) : Value := .record r.type r.slots

/-- The place and the kind of a declared field. -/
def declared (r : Record) (field : String) : Except Error (Nat × Kind) :=
  match r.type.place? field, r.type.kind? field with
  | some place, some kind => .ok (place, kind)
  | _, _ => .error (.unknownField r.type.name field)

def get (r : Record) (field : String) : Except Error (Option Value) := do
  let (place, _) ← r.declared field
  return r.slots[place]?.join

def put (r : Record) (field : String) (v : Value) : Except Error Record := do
  let (place, kind) ← r.declared field
  if kind.admits v then
    return { r with slots := r.slots.set place (some v) }
  else
    throw (.kindMismatch r.type.name field kind.name v.kindName)

def clear (r : Record) (field : String) : Except Error Record := do
  let (place, _) ← r.declared field
  return { r with slots := r.slots.set place none }

/-- The set fields in declared order. -/
def entries (r : Record) : List (String × Value) :=
  (r.type.fields.zip r.slots).filterMap fun (d, slot) => slot.map (d.1, ·)

end Record

namespace Value

def record? : Value → Option Record
  | .record type slots => some ⟨type, slots⟩
  | _ => none

/-- The record a field access needs; on any other value no field is known. -/
def asRecord (v : Value) (field : String) : Except Error Record :=
  match v.record? with
  | some r => .ok r
  | none => .error (.unknownField v.kindName field)

def get (v : Value) (field : String) : Except Error (Option Value) := do
  (← v.asRecord field).get field

def put (v : Value) (field : String) (x : Value) : Except Error Value := do
  return (← (← v.asRecord field).put field x).toValue

def clear (v : Value) (field : String) : Except Error Value := do
  return (← (← v.asRecord field).clear field).toValue

end Value
end Ambigram
