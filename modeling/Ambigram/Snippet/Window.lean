import Ambigram.Snippet.Glyph
import Ambigram.Snippet.Row
/-!
# Windows

The columns of a long line that are shown.  A line that fits is shown whole, but for a deep indentation; one
that does not is cut so that the mark stays in sight, with its label if that fits too.  Three dots stand where
something was cut off.
-/
namespace Ambigram

/-- What has to be shown, in columns of the source: the indentation all lines share, the columns that are
marked, where the label ends, and the longest line. -/
structure Extent where
  indent : Nat
  markLeft : Nat
  markRight : Nat
  labelRight : Nat
  lineWidth : Nat

/-- The columns from `left` on and before `right`, where there is room for `width`. -/
structure Window where
  left : Nat
  right : Nat
  width : Nat

namespace Window

/-- Left free around what is shown, for the dots. -/
def slack : Nat := 6

/-- An indentation beyond this is cut down to what `keptIndent` leaves of it. -/
def deepIndent : Nat := 20

def keptIndent : Nat := 16

/-- Shows the whole line if it fits, else from the indentation on if the label then fits; else it is centred
around the mark with its label, or around the mark with more of the line after it than before. -/
def fit (width : Nat) (e : Extent) : Window :=
  let indent := e.indent - slack
  let markLeft := e.markLeft - slack
  let markRight := e.markRight + slack
  let labelRight := e.labelRight + slack
  let left := if deepIndent < indent then indent - keptIndent else 0
  let right := max e.lineWidth left
  if right ≤ left + width then ⟨left, right, width⟩
  else if labelRight ≤ indent + width then ⟨indent, indent + width, width⟩
  else if labelRight ≤ markLeft + width then
    let left := markLeft - (width - (labelRight - markLeft)) / 2
    ⟨left, left + width, width⟩
  else if markRight ≤ markLeft + width then
    let left := markLeft - (width - (markRight - markLeft)) / 5 * 2
    ⟨left, left + width, width⟩
  else ⟨markLeft, markRight, width⟩

def dots : List Char := ['.', '.', '.']

/-- Draws what is seen of a line from a column of the row on.  The number is that of the columns cut off on the
left, where a character of two columns may have been cut off in its middle. -/
def draw (w : Window) (column : Nat) (line : List Char) : Row × Nat :=
  let size := Glyph.textWidth line
  let left := min w.left size
  let right := if size ≤ w.left + w.width then size else min size w.right
  let (cut, rest) := Glyph.covering left line
  let seen := Glyph.fitting (right - left) rest
  let (hidden, code) := if w.left = 0 then ([], seen) else Glyph.covering dots.length seen
  let start := column + Glyph.textWidth hidden
  let row : Row := if w.left = 0 then [] else Row.put [] column .gutter dots
  let row : Row := row.put start .plain code
  let row : Row :=
    if right < size then
      row.put (start + code.length - (Glyph.covering dots.length seen.reverse).1.length) .gutter dots
    else row
  (row, max left (Glyph.textWidth cut))

end Window
end Ambigram
