/-!
# Ranges of code points

Tables over the code space, those of Unicode 15.0 but for one of display widths, are written as numbers in a
compact notation: lower-case letters are the high digits in base 26, and one digit or capital letter, in
base 36, ends the number.
-/
namespace Ambigram
namespace Unicode
namespace Ranges

/-- Adds a character to the numbers read so far; `high` is the value of the high digits before it. -/
def step (state : List Nat × Nat) (c : Char) : List Nat × Nat :=
  if c.isLower then (state.1, state.2 * 26 + (c.toNat - 'a'.toNat))
  else if c.isDigit then ((state.2 * 36 + (c.toNat - '0'.toNat)) :: state.1, 0)
  else ((state.2 * 36 + (c.toNat - 'A'.toNat + 10)) :: state.1, 0)

def numbers (lines : List String) : List Nat :=
  (lines.foldl (fun state line => line.toList.foldl step state) ([], 0)).1.reverse

/-- Reads gaps and lengths: each range starts a gap after the one before it, and has one more code
point than its length says. -/
def ofGaps : Nat → List Nat → List (Nat × Nat)
  | start, gap :: extra :: rest => (start + gap, start + gap + extra) :: ofGaps (start + gap + extra + 1) rest
  | _, _ => []

def decode (lines : List String) : List (Nat × Nat) := ofGaps 0 (numbers lines)

/-- Whether the code point lies in one of the ranges. -/
def mem (n : Nat) (ranges : List (Nat × Nat)) : Bool := ranges.any fun r => r.1 ≤ n && n ≤ r.2

end Ranges

/-- Neighbouring code points of one class. -/
structure Run where
  first : Nat
  last : Nat
  place : Nat

namespace Run

/-- Reads lengths and classes; the runs follow each other without a gap. -/
def ofLengths : Nat → List Nat → List Run
  | first, size :: place :: rest => ⟨first, first + size - 1, place⟩ :: ofLengths (first + size) rest
  | _, _ => []

def decode (lines : List String) : List Run := ofLengths 0 (Ranges.numbers lines)

/-- The ranges of the runs whose class is wanted. -/
def select (wanted : Nat → Bool) (runs : List Run) : List (Nat × Nat) :=
  runs.filterMap fun r => if wanted r.place then some (r.first, r.last) else none

end Run
end Unicode
end Ambigram
