import Ambigram.Snippet.Glyph
/-!
# Lines

The lines of a source and where an offset lies among them.  A line ends with a line feed, and a carriage return
directly before it is part of the ending; the last line may have none.  An empty source has one empty line.
-/
namespace Ambigram

structure Line where
  number : Nat
  /-- The offset of its first byte. -/
  start : Nat
  text : List Char
  /-- The number of bytes that end the line. -/
  ending : Nat

namespace Line

def bytes (cs : List Char) : Nat := cs.foldr (fun c n => c.utf8Size + n) 0

/-- The offset after the line and its ending. -/
def stop (l : Line) : Nat := l.start + bytes l.text + l.ending

/-- Puts a character in front of lines, each given by its text and the size of its ending. -/
def extend (c : Char) (ls : List (List Char × Nat)) : List (List Char × Nat) :=
  if c = '\n' then ([], 1) :: ls
  else match ls with
    | [] => [([c], 0)]
    | (text, ending) :: rest =>
      if c = '\r' ∧ text = [] ∧ ending = 1 then ([], 2) :: rest else (c :: text, ending) :: rest

/-- Numbers lines that start at an offset. -/
def place (number start : Nat) : List (List Char × Nat) → List Line
  | [] => []
  | (text, ending) :: rest =>
    ⟨number, start, text, ending⟩ :: place (number + 1) (start + bytes text + ending) rest

def split (source : String) : List Line := place 1 0 (source.toList.foldr extend [])

/-- The line that holds an offset, or the last one if none does, and the line after it. -/
def locate (offset : Nat) : Line → List Line → Line × Option Line
  | l, [] => (l, none)
  | l, next :: rest => if offset < l.stop then (l, some next) else locate offset next rest

def at_ (source : String) (offset : Nat) : Line × Option Line :=
  match split source with
  | [] => (⟨1, 0, [], 0⟩, none)
  | l :: rest => locate offset l rest

/-- The characters that end within so many bytes. -/
def within : Nat → List Char → List Char
  | _, [] => []
  | n, c :: cs => if c.utf8Size ≤ n then c :: within (n - c.utf8Size) cs else []

/-- The text of the line before an offset. -/
def before (l : Line) (offset : Nat) : List Char := within (offset - l.start) l.text

/-- The column of an offset, counted in characters from 1; past the text, one more. -/
def column (l : Line) (offset : Nat) : Nat :=
  (l.before offset).length + (if l.start + bytes l.text < offset then 2 else 1)

/-- The width of the text before an offset, as it is shown. -/
def depth (l : Line) (offset : Nat) : Nat := Glyph.textWidth (l.before offset)

end Line
end Ambigram
