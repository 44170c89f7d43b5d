import Ambigram.Fold
import Ambigram.Value.Recipe
/-!
# Registers

Named places for values.  A copied record shares the storage of its fields with the one it was copied
from; a write or a clearing always makes storage of its own, even where nothing changes.  So a register
holds, with its value, the number of the storage that stands behind it.
-/
namespace Ambigram

structure Register where
  value : Value
  storage : Nat

structure Registers where
  cells : List (String × Register)
  /-- The number that the next new storage takes. -/
  next : Nat

namespace Registers

def empty : Registers := ⟨[], 0⟩

def get (rs : Registers) (name : String) : Except Fault Register := Fault.need (rs.cells.lookup name)

def value (rs : Registers) (name : String) : Except Fault Value := return (← rs.get name).value

def record (rs : Registers) (name : String) : Except Fault Record := do
  Fault.need (← rs.value name).record?

/-- Writes a value with storage of its own. -/
def write (rs : Registers) (name : String) (v : Value) : Registers :=
  ⟨(name, ⟨v, rs.next⟩) :: rs.cells, rs.next + 1⟩

/-- Writes what another register holds, with its storage. -/
def copy (rs : Registers) (target name : String) : Except Fault (Value × Registers) := do
  let r ← rs.get name
  return (r.value, { rs with cells := (target, r) :: rs.cells })

/-- Whether two registers hold records with the same storage. -/
def shares (rs : Registers) (a b : String) : Except Fault Bool := do
  let _ ← rs.record a
  let _ ← rs.record b
  return (← rs.get a).storage = (← rs.get b).storage

end Registers

/-! ## Changes -/

/-- How a register is made from another one, as a record or as any value. -/
inductive Change
  | put (field : String) (v : Recipe)
  | clear (field : String)
  | apply (field : String) (v : Recipe)
  | left (field : String)

namespace Change

/-- The new value; none if there is nothing to take out. -/
def run (types : List RecordType) (v : Value) : Change → Except Fault (Option Value)
  | .put field x => do return some (← Fault.lift (v.put field (← x.build types)))
  | .clear field => do return some (← Fault.lift (v.clear field))
  | .apply field x => do return some (← Fault.lift ((Fold.field field).apply () v (← x.build types)))
  | .left field =>
    match (Fold.field field).left () v with
    | .hit v => .ok (some v)
    | .miss => .ok none
    | .fail e => .error (.error e)

end Change

/-- Changes what a register holds into another register.  `recordsOnly` refuses other values. -/
def Registers.change (rs : Registers) (types : List RecordType) (recordsOnly : Bool) (target name : String)
    (c : Change) : Except Fault (Option Value × Registers) := do
  let v ← if recordsOnly then Record.toValue <$> rs.record name else rs.value name
  match ← c.run types v with
  | some v => return (some v, rs.write target v)
  | none => return (none, rs)

end Ambigram
