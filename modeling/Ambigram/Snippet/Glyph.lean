import Ambigram.Unicode.Width
/-!
# Glyphs

How a character of a source shows on one line of a picture.  A tab is four blanks, a control character is its
symbol, and a character that would turn the direction of the text is replaced; all others show as themselves.
A line break is left alone: it ends the line.
-/
namespace Ambigram
namespace Glyph

/-- Embeddings, overrides and isolates: they change the direction of the text around them. -/
def turnsText (c : Char) : Bool :=
  (0x202A ≤ c.toNat && c.toNat ≤ 0x202E) || (0x2066 ≤ c.toNat && c.toNat ≤ 0x2069)

/-- Glues pictures together, and is not shown itself. -/
def joiner : Char := '\u200d'

/-- The symbols of the control characters stand in their order from here on. -/
def controlPicture (c : Char) : Char := Char.ofNat (0x2400 + c.toNat)

def shown (c : Char) : List Char :=
  if c = '\t' then List.replicate 4 ' '
  else if c = '\n' then [c]
  else if c.toNat < 0x20 then [controlPicture c]
  else if c.toNat = 0x7F then ['␡']
  else if c = joiner then []
  else if turnsText c then ['\ufffd']
  else [c]

/-- The columns a character takes as it is shown. -/
def width (c : Char) : Nat :=
  if c = '\t' then 4 else if turnsText c then 1 else Unicode.Width.columns c

def textWidth (cs : List Char) : Nat := cs.foldr (fun c n => width c + n) 0

/-- The shortest beginning that takes at least `n` columns, and the rest. -/
def covering : Nat → List Char → List Char × List Char
  | _, [] => ([], [])
  | n, c :: cs =>
    if n = 0 then ([], c :: cs)
    else let (taken, rest) := covering (n - width c) cs
      (c :: taken, rest)

/-- The longest beginning that takes at most `n` columns. -/
def fitting : Nat → List Char → List Char
  | _, [] => []
  | n, c :: cs => if width c ≤ n then c :: fitting (n - width c) cs else []

end Glyph
end Ambigram
