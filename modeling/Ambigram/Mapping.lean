import Ambigram.Fold
import Ambigram.Text.Decimal
/-!
# Mappings

A mapping turns one value into another without reading input, and knows how to undo it for printing;
undoing misses a value that the mapping cannot have made.  Text mappings turn the text of a token into
a value.
-/
namespace Ambigram

/-- From a value in `α` to one in `β`, and back.  A mapping is shown its environment and its argument alone.  The input
is at hand when it is applied, but none of the mappings here would look at it. -/
structure Mapping (E α β : Type) where
  apply : E → α → Except Error β
  undo : E → β → Outcome α

namespace Mapping

variable {E α : Type}

def identity : Mapping E α α := ⟨fun _ a => .ok a, fun _ a => .hit a⟩

/-- The list of one element. -/
def singleton : Mapping E α (List α) where
  apply _ a := .ok [a]
  undo _
    | [a] => .hit a
    | _ => .miss

/-! ## Permutations -/

/-- Element `i` of the result is element `order[i]` of the argument. -/
structure Permutation where
  order : List Nat
  nodup : order.Nodup
  bounded : ∀ i ∈ order, i < order.length

/-- The numbers in square brackets, as the message about a bad order shows them. -/
def showOrder (order : List Nat) : String :=
  "[" ++ ", ".intercalate (order.map Decimal.ofNat) ++ "]"

namespace Permutation

/-- Marks a place, if there is such a place and it is not marked yet. -/
def mark (seen : List Bool) (i : Nat) : Option (List Bool) :=
  if seen[i]? = some false then some (seen.set i true) else none

/-- One pass over the order, which gives up at the first place that cannot be marked. -/
def marks (order : List Nat) : Option (List Bool) := order.foldlM mark (List.replicate order.length false)

theorem unmarked_set {seen : List Bool} {i j : Nat} :
    (seen.set i true)[j]? = some false ↔ j ≠ i ∧ seen[j]? = some false := by
  rw [List.getElem?_set]
  by_cases h : i = j
  · subst h
    simp
  · simp [h, Ne.symm h]

theorem isSome_foldlM_mark : ∀ (order : List Nat) (seen : List Bool),
    (order.foldlM mark seen).isSome ↔ order.Nodup ∧ ∀ i ∈ order, seen[i]? = some false
  | [], seen => by simp
  | i :: order, seen => by
    rw [List.foldlM_cons, mark, List.nodup_cons, List.forall_mem_cons]
    by_cases h : seen[i]? = some false
    · rw [if_pos h, Option.bind_eq_bind, Option.bind_some, isSome_foldlM_mark order]
      simp only [unmarked_set]
      constructor
      · rintro ⟨hnodup, hrest⟩
        exact ⟨⟨fun hi => (hrest i hi).1 rfl, hnodup⟩, h, fun j hj => (hrest j hj).2⟩
      · rintro ⟨⟨hi, hnodup⟩, -, hrest⟩
        exact ⟨hnodup, fun j hj => ⟨fun hji => hi (hji ▸ hj), hrest j hj⟩⟩
    · rw [if_neg h]
      exact ⟨nofun, fun hmarks => absurd hmarks.2.1 h⟩

theorem isSome_marks_iff {order : List Nat} :
    (marks order).isSome ↔ order.Nodup ∧ ∀ i ∈ order, i < order.length := by
  rw [marks, isSome_foldlM_mark]
  simp [List.getElem?_replicate]

/-- An order is checked in one pass, which refuses a number without a place and one whose place is marked. -/
def ofList (order : List Nat) : Except Error Permutation :=
  if h : (marks order).isSome then .ok ⟨order, (isSome_marks_iff.1 h).1, (isSome_marks_iff.1 h).2⟩
  else .error (.invalidValue (showOrder order ++ " is not a permutation"))

end Permutation

/-- Reorders lists of exactly the permutation's length. -/
def permute (p : Permutation) : Mapping E (List α) (List α) where
  apply _ xs :=
    if xs.length = p.order.length then .ok (p.order.filterMap (xs[·]?))
    else .error (.invalidValue ("expected a list of " ++ Decimal.ofNat p.order.length
      ++ " elements, got " ++ Decimal.ofNat xs.length))
  undo _ ys :=
    if ys.length = p.order.length then
      .hit ((ys.zip p.order).foldl (fun xs (y, i) => xs.set i y) ys)
    else .miss

/-! ## Integers -/

/-- Counts one up, and back down as long as the count is above `min`. -/
def increment (min : Int64) : Mapping E Int64 Int64 where
  apply _ n :=
    match int64? (n.toInt + 1) with
    | some m => .ok m
    | none => .error (.invalidValue ("counter overflow at " ++ Decimal.ofInt n.toInt))
  undo _ n := if min < n then .hit (n - 1) else .miss

/-- The counter on values. -/
def counter (min : Int64) : Mapping E Value Value where
  apply env
    | .int n => (increment min).apply env n |>.map .int
    | _ => .error (.invalidValue "incr needs an int")
  undo env
    | .int n => ((increment min).undo env n).map .int
    | _ => .miss

def isEven : Value → Bool
  | .int n => n.toInt % 2 = 0
  | _ => false

/-- Lets even integers through. -/
def even : Mapping E Value Value where
  apply _ v := if isEven v then .ok v else .error (.invalidValue "not even")
  undo _ v := if isEven v then .hit v else .miss

/-! ## Lists as values -/

/-- Puts a name in front. -/
def tag (name : String) : Mapping E Value Value where
  apply _ v := .ok (.list [.string name, v])
  undo _
    | .list [.string n, v] => if n = name then .hit v else .miss
    | _ => .miss

def wrap : Mapping E (List Value) Value where
  apply _ l := .ok (.list l)
  undo _
    | .list l => .hit l
    | _ => .miss

def unwrap : Mapping E Value (List Value) where
  apply _
    | .list l => .ok l
    | _ => .error (.invalidValue "not a list")
  undo _ l := .hit (.list l)

end Mapping

/-! ## Texts of tokens -/

namespace TextMapping

variable {E : Type}

def string : Mapping E String Value where
  apply _ t := .ok (.string t)
  undo _
    | .string t => .hit t
    | _ => .miss

def readInt (t : String) : Except Error Int64 :=
  match (Decimal.int? t.toList).bind int64? with
  | some n => .ok n
  | none => .error (.invalidValue ("bad int " ++ t))

theorem readInt_ofInt (n : Int64) : readInt (Decimal.ofInt n.toInt) = .ok n := by
  rw [readInt, Decimal.int?_ofInt, Option.bind_some, int64?_toInt]

def signed : Mapping E String Value where
  apply _ t := return .int (← readInt t)
  undo _
    | .int n => .hit (Decimal.ofInt n.toInt)
    | _ => .miss

/-- Reads any integer, and prints only those that need no sign. -/
def unsigned : Mapping E String Value where
  apply _ t := return .int (← readInt t)
  undo _
    | .int n => if 0 ≤ n.toInt then .hit (Decimal.ofInt n.toInt) else .miss
    | _ => .miss

theorem apply_unsigned (env : E) (n : Int64) : unsigned.apply env (Decimal.ofInt n.toInt) = .ok (.int n) := by
  show (do return Value.int (← readInt (Decimal.ofInt n.toInt)) : Except Error Value) = _
  rw [readInt_ofInt]
  rfl

/-- Reads an integer in units of the scale. -/
def scaled : Mapping Int64 String Value where
  apply scale t := do
    match int64? ((← readInt t).toInt * scale.toInt) with
    | some n => return .int n
    | none => throw (.invalidValue (t ++ " is out of range"))
  undo scale
    | .int n =>
      if 0 ≤ n.toInt ∧ 0 < scale.toInt ∧ n.toInt % scale.toInt = 0 then
        .hit (Decimal.ofInt (n.toInt / scale.toInt))
      else .miss
    | _ => .miss

def bool : Mapping E String Value where
  apply _ t := .ok (.bool (t = "true"))
  undo _
    | .bool b => .hit (if b then "true" else "false")
    | _ => .miss

/-- What stands between the first and the last quote, which must be two. -/
def unquote : List Char → Option (List Char)
  | '"' :: cs => if cs.getLast? = some '"' then some cs.dropLast else none
  | _ => none

def quoted : Mapping E String Value where
  apply _ t :=
    match unquote t.toList with
    | some cs => .ok (.string (String.ofList cs))
    | none => .error (.invalidValue "not quoted")
  undo _
    | .string s => if s.contains '"' then .miss else .hit ("\"" ++ s ++ "\"")
    | _ => .miss

end TextMapping
end Ambigram
