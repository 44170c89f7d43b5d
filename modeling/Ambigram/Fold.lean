import Ambigram.Outcome
import Ambigram.Value.Record
/-!
# Folds

A fold joins an accumulator with the value that a parser produced.  Printing runs it backwards: two
inverses split a finished value into the accumulator and what went into it.  Either inverse may miss,
which means that the fold cannot have made the value; repetition stops peeling there.
-/
namespace Ambigram

/-- From an accumulator in `α` and a value in `β` to a result in `γ`, and back.  A fold is applied while input is read,
but it is not shown the input: none of the folds here, nor any built with them, would look at it, and so a fold makes
the same of the same values wherever they stand. -/
structure Fold (E α β γ : Type) where
  apply : E → α → β → Except Error γ
  left : E → γ → Outcome α
  right : E → γ → Outcome β

namespace Fold

variable {E α β γ : Type}

/-! ## Lists -/

/-- Puts the value at the end of a list.  A list of `min` elements or fewer is never taken apart. -/
def append (min : Nat) : Fold E (List α) α (List α) where
  apply _ l x := .ok (l ++ [x])
  left _ l := if l.length ≤ min then .miss else .hit l.dropLast
  right _ l := if l.length ≤ min then .miss else .ofOption l.getLast?

/-- Appends, and takes off again only an even integer. -/
def appendEven : Fold E (List Value) Value (List Value) where
  apply _ l x := .ok (l ++ [x])
  left _ l := if l.isEmpty then .miss else .hit l.dropLast
  right _ l :=
    match l.getLast? with
    | some (.int n) => if n.toInt % 2 = 0 then .hit (.int n) else .miss
    | _ => .miss

def pair : Fold E Value Value (List Value) where
  apply _ l r := .ok [l, r]
  left _
    | [l, _] => .hit l
    | _ => .miss
  right _
    | [_, r] => .hit r
    | _ => .miss

/-- Builds the list of an operator and its two operands. -/
def binary (op : String) : Fold E Value Value Value where
  apply _ l r := .ok (.list [.string op, l, r])
  left _
    | .list [.string o, l, _] => if o = op then .hit l else .miss
    | _ => .miss
  right _
    | .list [.string o, _, r] => if o = op then .hit r else .miss
    | _ => .miss

/-! ## Fields -/

/-- Writes the value into a named field of a record. -/
def field (name : String) : Fold E Value Value Value where
  apply _ l r := l.put name r
  left _ v :=
    match v.get name with
    | .ok (some _) => .ofExcept (v.clear name)
    | .ok none => .miss
    | .error e => .fail e
  right _ v := .ofExceptOption (v.get name)

end Fold

/-- Access to one optional part of a structure, under the name that shows in messages. -/
structure Setter (α β : Type) where
  name : String
  get : α → Option β
  set : α → Option β → α

namespace Setter

variable {E α β : Type}

/-- Writes the part; takes it out again only where it is present. -/
def fold (s : Setter α β) : Fold E α β α where
  apply _ l r := .ok (s.set l (some r))
  left _ v := if (s.get v).isNone then .miss else .hit (s.set v none)
  right _ v := .ofOption (s.get v)

def describe (s : Setter α β) : String := "Setter \x7b name: \"" ++ s.name ++ "\" \x7d"

/-- The element of a list at a place, where `false` stands for an absent one. -/
def slot (place : Nat) : Setter (List Value) Value where
  name := "slot"
  get l := l[place]?.filter (· ≠ .bool false)
  set l v := l.set place (v.getD (.bool false))

end Setter

/-- A stretch with two ends, either of which may be open. -/
structure Span where
  start : Option Int64
  stop : Option Int64
  deriving DecidableEq

namespace Span

def startSetter : Setter Span Int64 := ⟨"start", start, fun s v => { s with start := v }⟩

def stopSetter : Setter Span Int64 := ⟨"end", stop, fun s v => { s with stop := v }⟩

end Span

/-! ## Integers -/

/-- The integer as 64 bits, if it fits. -/
def int64? (n : Int) : Option Int64 :=
  if h : Int64.minValue.toInt ≤ n ∧ n ≤ Int64.maxValue.toInt then some (Int64.ofIntLE n h.1 h.2) else none

theorem int64?_toInt (n : Int64) : int64? n.toInt = some n := by
  unfold int64?
  rw [dif_pos ⟨n.minValue_le_toInt, n.toInt_le⟩]
  simp

theorem int64?_eq_some_iff {n : Int} {m : Int64} : int64? n = some m ↔ m.toInt = n := by
  constructor
  · intro h
    unfold int64? at h
    split at h
    · rename_i hfits
      rw [← Option.some.inj h, Int64.toInt_ofIntLE]
    · cases h
  · rintro rfl
    exact int64?_toInt m

theorem int64?_eq_none_iff {n : Int} :
    int64? n = none ↔ n < Int64.minValue.toInt ∨ Int64.maxValue.toInt < n := by
  unfold int64?
  split
  · rename_i h
    exact ⟨nofun, by omega⟩
  · rename_i h
    exact ⟨fun _ => by omega, fun _ => rfl⟩

namespace Fold

/-- Ten times the accumulator plus the value times the scale; every part has to fit. -/
def positional : Fold Int64 Value Value Value where
  apply scale
    | .int l, .int r =>
      match int64? (r.toInt * scale.toInt), int64? (l.toInt * 10),
          int64? (l.toInt * 10 + r.toInt * scale.toInt) with
      | some _, some _, some n => .ok (.int n)
      | _, _, _ => .error (.invalidValue "digits overflow")
    | _, _ => .error (.invalidValue "digits needs ints")
  left _
    | .int n => if 10 ≤ n.toInt then .hit (.int (n / 10)) else .miss
    | _ => .miss
  right _
    | .int n => if 10 ≤ n.toInt then .hit (.int (n % 10)) else .miss
    | _ => .miss

end Fold
end Ambigram
