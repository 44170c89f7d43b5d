import Ambigram.Unicode.Property
/-!
# Display width

How many columns a character takes where all columns have one width.  Marks that attach to another character
and characters that are never seen take none; ideographs and most pictures take two, and of those the
table has the ones of Unicode 17.0.
-/
namespace Ambigram
namespace Unicode
namespace Width

def wideData : List String := [
  "eqWcNew21D1fA33020oH1L1Q7GBb70A530D081H1518050L0711040207041S0Z0104210bP2O0E0xV1bF040wIP1cGCfXQc62cD2cU5",
  "b61cL1cD9bB1b38bfgC3bIbgPSrVlyBjd8o7vS9MY1I13e5cNdJ6beq94B69goF8biDb5VcPd6jhP316111i2F0T220E38kZitOcE9M",
  "hv10fM0fA029cT2Db74871E5eAWC81bX1LCb644CG303bY101f62bQD31NI0Q1D0cEcCbCbX60322333B178gBB40hVbA191f4d4C3A3",
  "bK104F2B49bjRcsaD2csaD"]

def wide : List (Nat × Nat) := Ranges.decode wideData

/-- Vowels and final consonants of decomposed Hangul syllables, signs written above a number, and a caret that
attaches to a letter. -/
def attached : List (Nat × Nat) := [
  (0x605, 0x605), (0x70F, 0x70F), (0x890, 0x891), (0x8E2, 0x8E2), (0x1160, 0x11FF), (0xA8FA, 0xA8FA),
  (0xD7B0, 0xD7C6), (0xD7CB, 0xD7FB)]

/-- Characters whose width does not follow from their properties. -/
def exceptions : List (Nat × Nat) := [(0x115F, 2), (0x17A4, 2), (0x17D8, 3), (0x2D7F, 1)]

def takesNone (n : Nat) : Bool :=
  Ranges.mem n Binary.graphemeExtend || Ranges.mem n Binary.defaultIgnorable || Ranges.mem n attached

/-- A control character counts as one column. -/
def columns (c : Char) : Nat :=
  if c.toNat < 0xA0 then 1
  else match exceptions.lookup c.toNat with
    | some n => n
    | none => if takesNone c.toNat then 0 else if Ranges.mem c.toNat wide then 2 else 1

end Width
end Unicode
end Ambigram
