/-!
# Rows

A row of a picture: one cell for each character, with the ink it is written in.  Rows are drawn by writing over
what stands there already, so the order of writing decides which of two strokes is seen.
-/
namespace Ambigram

inductive Ink
  | plain
  | strong
  /-- The word that opens a message, the stroke under a mark and its label. -/
  | alarm
  /-- Line numbers and everything that sets them apart from the source. -/
  | gutter
  deriving DecidableEq

namespace Ink

def bold : List Char := ['\x1b', '[', '1', 'm']

/-- What a terminal is sent to switch to an ink. -/
def opening : Ink → List Char
  | .plain => []
  | .strong => bold
  | .alarm => bold ++ ['\x1b', '[', '9', '1', 'm']
  | .gutter => bold ++ ['\x1b', '[', '9', '4', 'm']

/-- What a terminal is sent to go back to the plain one. -/
def closing : Ink → List Char
  | .plain => []
  | _ => ['\x1b', '[', '0', 'm']

end Ink

structure Cell where
  char : Char
  ink : Ink
  deriving DecidableEq

abbrev Row := List Cell

namespace Row

def blank : Cell := ⟨' ', .plain⟩

def inked (ink : Ink) (cs : List Char) : Row := cs.map (⟨·, ink⟩)

/-- Writes a text from a column on, over blanks where the row is shorter.  No text leaves the row as it is. -/
def put (row : Row) (column : Nat) (ink : Ink) (cs : List Char) : Row :=
  if cs.isEmpty then row
  else row.take column ++ List.replicate (column - row.length) blank ++ inked ink cs
    ++ row.drop (column + cs.length)

/-- Each run of one ink stands between the codes that switch to it and back. -/
def write (colored : Bool) (row : Row) : List Char :=
  if colored then
    (row.splitBy (·.ink == ·.ink)).flatMap fun run =>
      match run with
      | [] => []
      | c :: _ => c.ink.opening ++ run.map Cell.char ++ c.ink.closing
  else row.map Cell.char

end Row
end Ambigram
