/-!
# Sources

A source is a text addressed by byte offsets, as its UTF-8 form counts them.  It has one cell for each
byte: the first byte of a character carries the character, and the others are empty.
-/
namespace Ambigram

structure Source where
  cells : Array (Option Char)

namespace Source

def cellsOf (c : Char) : List (Option Char) := some c :: List.replicate (c.utf8Size - 1) none

def ofString (text : String) : Source := ⟨(text.toList.flatMap cellsOf).toArray⟩

/-- The number of bytes. -/
def size (s : Source) : Nat := s.cells.size

/-- The character that starts at an offset; none inside a character and at the end. -/
def at? (s : Source) (i : Nat) : Option Char := s.cells[i]?.join

/-- The last character that starts before an offset. -/
def before? (s : Source) : Nat → Option Char
  | 0 => none
  | i + 1 =>
    match s.at? i with
    | some c => some c
    | none => s.before? i

/-- Where a character starts, or the end. -/
def IsBoundary (s : Source) (i : Nat) : Prop := i = s.size ∨ (s.at? i).isSome

/-- The characters that start between two offsets. -/
def slice (s : Source) (start stop : Nat) : String :=
  String.ofList ((s.cells.extract start stop).toList.filterMap id)

end Source
end Ambigram
