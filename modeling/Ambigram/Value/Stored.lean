import Ambigram.Value.Entries
import Ambigram.Value.Record
/-!
# Stored values

A value as it is stored: a record keeps the fields that are set, in the order in which they were set first, and nothing
of the others.  Two records are compared by looking up the fields of the one in the other, and they are written out in
the order of their type.  A value can be read off what is stored.
-/
namespace Ambigram

inductive Stored
  | bool (b : Bool)
  | int (n : Int64)
  | string (s : String)
  | list (items : List Stored)
  | record (type : RecordType) (entries : List (String × Stored))

/-- Fields are declared in any order. -/
def RecordType.same (t u : RecordType) : Bool :=
  t.name = u.name && t.fields.length = u.fields.length && t.fields.all fun d => u.kind? d.1 = some d.2

namespace Stored

def kind : Stored → Kind
  | .bool _ => .bool
  | .int _ => .int
  | .string _ => .string
  | .list _ => .list
  | .record _ _ => .record

def kindName : Stored → String
  | .record type _ => type.name
  | s => s.kind.name

/-! ## Comparing

A field of the first record is compared with what it finds in the second one, and there the second one comes first. -/

theorem sizeOf_lookup_lt {es : List (String × Stored)} {f : String} {s : Stored} (h : es.lookup f = some s) :
    sizeOf s < sizeOf es := by
  have hmem := List.sizeOf_lt_of_mem (Entries.mem_of_lookup h)
  rw [Prod.mk.sizeOf_spec] at hmem
  omega

mutual
def same : Stored → Stored → Bool
  | .bool a, .bool b => a = b
  | .int a, .int b => a = b
  | .string a, .string b => a = b
  | .list a, .list b => sameAll a b
  | .record t es, .record u fs => t.same u && es.length = fs.length && covered es fs
  | _, _ => false
termination_by a b => sizeOf a + sizeOf b

def sameAll : List Stored → List Stored → Bool
  | [], [] => true
  | a :: as, b :: bs => same a b && sameAll as bs
  | _, _ => false
termination_by as bs => sizeOf as + sizeOf bs

/-- Every entry of the first record is found in the second one. -/
def covered : List (String × Stored) → List (String × Stored) → Bool
  | [], _ => true
  | (f, a) :: es, fs =>
    (match _h : fs.lookup f with
      | some b => same b a
      | none => false) && covered es fs
termination_by es fs => sizeOf es + sizeOf fs
decreasing_by
  · have hfound := sizeOf_lookup_lt _h
    rw [List.cons.sizeOf_spec, Prod.mk.sizeOf_spec]
    omega
  · rw [List.cons.sizeOf_spec, Prod.mk.sizeOf_spec]
    omega
end

/-! ## What is stored -/

mutual
/-- The value that is stored.  A field that is not there is an empty slot. -/
def value : Stored → Value
  | .bool b => .bool b
  | .int n => .int n
  | .string s => .string s
  | .list items => .list (values items)
  | .record type es => .record type (type.fields.map fun d => (namedValues es).lookup d.1)

def values : List Stored → List Value
  | [] => []
  | s :: ss => value s :: values ss

def namedValues : List (String × Stored) → List (String × Value)
  | [] => []
  | (f, s) :: es => (f, value s) :: namedValues es
end

end Stored

/-! ## Records -/

structure StoredRecord where
  type : RecordType
  entries : List (String × Stored)

namespace StoredRecord

def stored (r : StoredRecord) : Stored := .record r.type r.entries

/-- The record with one slot for each declared field. -/
def record (r : StoredRecord) : Record :=
  ⟨r.type, r.type.fields.map fun d => (Stored.namedValues r.entries).lookup d.1⟩

def unset (type : RecordType) : StoredRecord := ⟨type, []⟩

def kindOf (r : StoredRecord) (field : String) : Except Error Kind :=
  match r.type.kind? field with
  | some kind => .ok kind
  | none => .error (.unknownField r.type.name field)

def get (r : StoredRecord) (field : String) : Except Error (Option Stored) := do
  let _ ← r.kindOf field
  return r.entries.lookup field

/-- Sets a field, or takes it out. -/
def write (r : StoredRecord) (field : String) (s? : Option Stored) : Except Error StoredRecord := do
  let kind ← r.kindOf field
  match s? with
  | some s =>
    if kind ≠ .any ∧ kind ≠ s.kind then
      throw (.kindMismatch r.type.name field kind.name s.kindName)
    return { r with entries := Entries.insert field s r.entries }
  | none => return { r with entries := Entries.remove field r.entries }

/-- The set fields in declared order. -/
def listed (r : StoredRecord) : List (String × Stored) :=
  r.type.fields.filterMap fun d => (r.entries.lookup d.1).map (d.1, ·)

/-! ## Writing again and again -/

/-- Carries out the writes in turn.  One that fails leaves the record as it is. -/
def run (r : StoredRecord) : List (String × Option Stored) → StoredRecord
  | [] => r
  | (f, s?) :: writes =>
    match r.write f s? with
    | .ok r' => run r' writes
    | .error _ => run r writes

/-- The writes that do not fail. -/
def done (r : StoredRecord) : List (String × Option Stored) → List (String × Option Stored)
  | [] => []
  | (f, s?) :: writes =>
    match r.write f s? with
    | .ok r' => (f, s?) :: done r' writes
    | .error _ => done r writes

end StoredRecord
end Ambigram
