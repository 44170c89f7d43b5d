import Ambigram.Value.Record
/-!
# Recipes

How a value is written down: a record is given by the name of its type and the writes that fill it,
which are carried out in order and checked like any other write.  What is written down may make no sense, or end in an
error; either is a fault.
-/
namespace Ambigram

/-! ## Faults -/

/-- Why a written request could not be carried out: it asks for something that does not make sense, or it makes sense
and ends in an error of the library. -/
inductive Fault
  | malformed
  | error (e : Error)
  deriving DecidableEq, Inhabited

namespace Fault

def lift {α : Type} : Except Error α → Except Fault α
  | .ok a => .ok a
  | .error e => .error (.error e)

/-- A part without which the request makes no sense. -/
def need {α : Type} : Option α → Except Fault α
  | some a => .ok a
  | none => .error .malformed

end Fault

/-! ## Recipes -/

inductive Recipe
  | bool (b : Bool)
  | int (n : Int64)
  | string (s : String)
  | list (items : List Recipe)
  | record (type : String) (writes : List (String × Recipe))

namespace Recipe

/-- The declared type of that name. -/
def typeNamed (types : List RecordType) (name : String) : Except Fault RecordType :=
  Fault.need (types.find? (fun t => t.name = name))

mutual
def build (types : List RecordType) : Recipe → Except Fault Value
  | .bool b => .ok (.bool b)
  | .int n => .ok (.int n)
  | .string s => .ok (.string s)
  | .list items => do return .list (← buildAll types items)
  | .record name writes => do
    let type ← typeNamed types name
    return (← fill types (.unset type) writes).toValue

def buildAll (types : List RecordType) : List Recipe → Except Fault (List Value)
  | [] => .ok []
  | item :: items => do return (← build types item) :: (← buildAll types items)

def fill (types : List RecordType) (r : Record) : List (String × Recipe) → Except Fault Record
  | [] => .ok r
  | (field, item) :: writes => do
    fill types (← Fault.lift (r.put field (← build types item))) writes
end

end Recipe
end Ambigram
