/-!
# Values

What grammars produce and print: booleans, 64-bit integers, strings, lists and records.  A record
type declares its fields in order, each with the kind of value it takes.  A record holds one slot for
each declared field, in that order, so two records of one type are the same exactly when every field
holds the same: the order of the writes leaves no trace.
-/
namespace Ambigram

/-- What a field may hold. -/
inductive Kind
  | any | bool | int | string | list | record
  deriving DecidableEq

def Kind.name : Kind → String
  | .any => "any"
  | .bool => "bool"
  | .int => "int"
  | .string => "string"
  | .list => "list"
  | .record => "record"

/-! ## Record types -/

/-- A name and the declared fields, each name once. -/
structure RecordType where
  name : String
  fields : List (String × Kind)
  deriving DecidableEq

namespace RecordType

def unit (name : String) : RecordType := ⟨name, []⟩

/-- Adds a field at the end.  A name declared before keeps its place and takes the new kind. -/
def declare (type : RecordType) (field : String) (kind : Kind) : RecordType :=
  ⟨type.name, place type.fields⟩
where
  place : List (String × Kind) → List (String × Kind)
    | [] => [(field, kind)]
    | (f, k) :: rest => if f = field then (f, kind) :: rest else (f, k) :: place rest

def ofList (name : String) (declared : List (String × Kind)) : RecordType :=
  declared.foldl (fun type d => type.declare d.1 d.2) (unit name)

def kind? (type : RecordType) (field : String) : Option Kind := type.fields.lookup field

/-- The place of a field in the declaration. -/
def place? (type : RecordType) (field : String) : Option Nat :=
  type.fields.findIdx? (fun d => d.1 = field)

end RecordType

/-! ## Values -/

inductive Value
  | bool (b : Bool)
  | int (n : Int64)
  | string (s : String)
  | list (items : List Value)
  | record (type : RecordType) (slots : List (Option Value))

namespace Value

mutual
def decEq : (v w : Value) → Decidable (v = w)
  | .bool a, .bool b => if h : a = b then isTrue (h ▸ rfl) else isFalse (fun e => h (by cases e; rfl))
  | .int a, .int b => if h : a = b then isTrue (h ▸ rfl) else isFalse (fun e => h (by cases e; rfl))
  | .string a, .string b => if h : a = b then isTrue (h ▸ rfl) else isFalse (fun e => h (by cases e; rfl))
  | .list a, .list b =>
    match decEqList a b with
    | isTrue h => isTrue (h ▸ rfl)
    | isFalse h => isFalse (fun e => h (by cases e; rfl))
  | .record s a, .record t b =>
    if hs : s = t then
      match decEqSlots a b with
      | isTrue h => isTrue (hs ▸ h ▸ rfl)
      | isFalse h => isFalse (fun e => h (by cases e; rfl))
    else isFalse (fun e => hs (by cases e; rfl))
  | .bool _, .int _ | .bool _, .string _ | .bool _, .list _ | .bool _, .record _ _
  | .int _, .bool _ | .int _, .string _ | .int _, .list _ | .int _, .record _ _
  | .string _, .bool _ | .string _, .int _ | .string _, .list _ | .string _, .record _ _
  | .list _, .bool _ | .list _, .int _ | .list _, .string _ | .list _, .record _ _
  | .record _ _, .bool _ | .record _ _, .int _ | .record _ _, .string _ | .record _ _, .list _ =>
    isFalse (fun e => by cases e)

def decEqList : (v w : List Value) → Decidable (v = w)
  | [], [] => isTrue rfl
  | [], _ :: _ | _ :: _, [] => isFalse (fun e => by cases e)
  | a :: v, b :: w =>
    match decEq a b, decEqList v w with
    | isTrue h, isTrue k => isTrue (h ▸ k ▸ rfl)
    | isFalse h, _ => isFalse (fun e => h (by cases e; rfl))
    | _, isFalse k => isFalse (fun e => k (by cases e; rfl))

def decEqSlots : (v w : List (Option Value)) → Decidable (v = w)
  | [], [] => isTrue rfl
  | [], _ :: _ | _ :: _, [] => isFalse (fun e => by cases e)
  | none :: v, none :: w =>
    match decEqSlots v w with
    | isTrue k => isTrue (k ▸ rfl)
    | isFalse k => isFalse (fun e => k (by cases e; rfl))
  | some a :: v, some b :: w =>
    match decEq a b, decEqSlots v w with
    | isTrue h, isTrue k => isTrue (h ▸ k ▸ rfl)
    | isFalse h, _ => isFalse (fun e => h (by cases e; rfl))
    | _, isFalse k => isFalse (fun e => k (by cases e; rfl))
  | none :: _, some _ :: _ | some _ :: _, none :: _ => isFalse (fun e => by cases e)
end

instance : DecidableEq Value := decEq

instance : Inhabited Value := ⟨.bool false⟩

def kind : Value → Kind
  | .bool _ => .bool
  | .int _ => .int
  | .string _ => .string
  | .list _ => .list
  | .record _ _ => .record

/-- What a message calls the value: a record by its type, anything else by its kind. -/
def kindName : Value → String
  | .record type _ => type.name
  | v => v.kind.name

end Value

/-- Whether a field of this kind may hold the value. -/
def Kind.admits (kind : Kind) (v : Value) : Bool := kind = .any || kind = v.kind

end Ambigram
