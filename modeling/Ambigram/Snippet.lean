import Ambigram.Error
import Ambigram.Snippet.Line
import Ambigram.Snippet.Window
import Ambigram.Source
/-!
# Snippets

A syntax error shown against its source: the message, the place, and the line with the offending character
marked.  All other errors, and all errors without a source, are shown by their message alone.

A mark covers one character.  Where that is the end of a line, the mark runs from there to the beginning of the
next line, and both lines are shown.
-/
namespace Ambigram
namespace Snippet

/-- The part of the source that an error at an offset marks: the character there, or nothing at the end. -/
def span (s : Source) (offset : Nat) : Nat × Nat :=
  (offset, offset + ((s.at? offset).map Char.utf8Size).getD 0)

/-- A marked line.  `left` and `right` are the columns of the mark as shown; a mark that runs on into the next
line has that line too. -/
structure Mark where
  line : Line
  next : Option Line
  column : Nat
  left : Nat
  right : Nat

namespace Mark

/-- An empty mark is shown as one column, and so is one whose character takes no column. -/
def ofSpan (source : String) (start stop : Nat) : Mark :=
  let (line, next) := Line.at_ source start
  let left := line.depth start
  let crosses := start < stop && line.stop ≤ stop
  { line, next := if crosses then next else none, column := line.column start, left,
    right := max (left + 1) (line.depth stop) }

/-- The lines that are shown. -/
def lines (m : Mark) : List Line := m.line :: m.next.toList

/-- The width of the column of line numbers. -/
def gutter (m : Mark) : Nat := (Decimal.digits m.line.number).length

/-- The column of the picture where the source begins. -/
def origin (m : Mark) : Nat := m.gutter + (if m.next.isSome then 5 else 3)

def indentWidth (text : List Char) : Nat :=
  (text.takeWhile Unicode.Property.isBlank).foldr (fun c n => (if c = '\t' then 4 else 1) + n) 0

/-- The indentation that the lines share; blank lines do not count. -/
def indent (m : Mark) : Nat :=
  let inked := (m.lines.map Line.text).filter fun t => t.any fun c => !Unicode.Property.isBlank c
  ((inked.map indentWidth).min?).getD 0

def extent (m : Mark) (label : List Char) : Extent :=
  let labelWidth := Glyph.textWidth label + 1
  { indent := m.indent
    markLeft := if m.next.isSome then 0 else m.left
    markRight := m.right
    labelRight := if m.next.isSome then max m.right labelWidth else m.right + labelWidth
    lineWidth := ((m.lines.map fun l => Glyph.textWidth l.text).max?).getD 0 }

end Mark

/-- Pictures are no wider than this, where that can be helped. -/
def pictureWidth : Nat := 140

def padded (width : Nat) (cs : List Char) : List Char := List.replicate (width - cs.length) ' ' ++ cs

/-- The message behind the word that says how bad it is; later lines begin below the first one's text. -/
def titleRows (message : String) : List Row :=
  let word := "error".toList
  let mark := ": ".toList
  match message.splitOn "\n" with
  | [] => []
  | first :: rest =>
    let inked (line : String) := Row.inked .strong (line.toList.flatMap Glyph.shown)
    (Row.inked .alarm word ++ (Row.inked .strong mark ++ inked first))
      :: rest.map fun line => List.replicate (word.length + mark.length) Row.blank ++ inked line

def placeRow (m : Mark) (path : String) : Row :=
  List.replicate m.gutter Row.blank ++ Row.inked .gutter "--> ".toList
    ++ Row.inked .plain (path ++ ":" ++ Decimal.ofNat m.line.number ++ ":" ++ Decimal.ofNat m.column).toList

/-- The stroke between the line numbers and the source. -/
def bar (m : Mark) (row : Row) : Row := row.put (m.gutter + 1) .gutter ['|']

/-- A line of the source behind its number, and the columns of it that are cut off on the left. -/
def lineRow (m : Mark) (w : Window) (l : Line) : Row × Nat :=
  let (row, cut) := w.draw m.origin (l.text.flatMap Glyph.shown)
  (bar m (row.put 0 .gutter (padded m.gutter (Decimal.digits l.number))), cut)

/-- Writes one character into the columns from `start` on and before `stop`. -/
def stroke (start stop : Nat) (c : Char) (row : Row) : Row :=
  row.put start .alarm (List.replicate (stop - start) c)

/-- A mark within a line: carets below it and the label after them. -/
def insideRows (m : Mark) (w : Window) (label : List Char) : List Row :=
  let (line, cut) := lineRow m w m.line
  let row := (bar m []).put (m.origin + (m.right + 1 - cut)) .alarm label
  let carets := (List.range' m.left (m.right - m.left)).foldl
    (fun row column => row.put (m.origin + column - cut) .alarm ['^']) row
  [line, carets]

/-- The line a mark begins on, where it runs on into the next one.  If only blanks stand before the mark, a slash
beside the line does. -/
def openingRows (m : Mark) (w : Window) : List Row :=
  let (line, cut) := lineRow m w m.line
  let rail := m.gutter + 3
  if ((m.line.text.flatMap Glyph.shown).take m.left).all Unicode.Property.isBlank then
    [line.put rail .alarm ['/']]
  else
    let corner := m.origin + m.left - cut
    [line, (((bar m []) |> stroke (rail + 1) corner '_').put rail .alarm [' ']).put corner .alarm ['^']]

/-- The line a mark ends on: it ends before the first character. -/
def closingRows (m : Mark) (w : Window) (label : List Char) (l : Line) : List Row :=
  let (line, cut) := lineRow m w l
  let rail := m.gutter + 3
  let corner := m.origin - cut
  [line.put rail .alarm ['|'],
    ((((bar m []) |> stroke (rail + 1) corner '_').put rail .alarm ['|']).put (m.origin + (2 - cut)) .alarm
      label).put corner .alarm ['^']]

def markRows (m : Mark) (label : List Char) : List Row :=
  let w := Window.fit (pictureWidth - m.origin) (m.extent label)
  match m.next with
  | none => insideRows m w label
  | some next => openingRows m w ++ closingRows m w label next

/-- The whole picture of a message about a part of the source. -/
def rows (path : Option String) (source message : String) (start stop : Nat) : List Row :=
  let m := Mark.ofSpan source start stop
  titleRows message ++ (path.map (placeRow m)).toList ++ [bar m []] ++ markRows m message.toList

/-- A mark can stand before any character, at the end, and one byte past the end. -/
def isPlace (s : Source) (offset : Nat) : Bool :=
  (s.at? offset).isSome || offset == s.size || offset == s.size + 1

/-- The text of an error; none if it points at no place of the source. -/
def render (colored : Bool) (path source : Option String) (e : Error) : Option String :=
  match source, e.offset? with
  | some text, some offset =>
    let s := Source.ofString text
    if isPlace s offset then
      let (start, stop) := span s offset
      some (String.ofList (['\n'].intercalate ((rows path text e.message start stop).map (Row.write colored))))
    else none
  | _, _ => some e.message

end Snippet
end Ambigram
