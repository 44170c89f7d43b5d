import Ambigram.Unicode.Age
import Ambigram.Unicode.Binary
import Ambigram.Unicode.Boundary
import Ambigram.Unicode.Category
import Ambigram.Unicode.Script
/-!
# Properties by name

Finding the code points that a property name selects, in the tables of Unicode 15.0.  Names are compared loosely:
case, blanks, hyphens and underscores do not count, nor does `is` in front.  A name alone is a yes-or-no property, a
general category or a script, in this order; a name with a value is one of the properties that have values.
-/
namespace Ambigram
namespace Unicode
namespace Property

def dropIs : List Char → List Char
  | a :: b :: rest => if (a = 'i' || a = 'I') && (b = 's' || b = 'S') then rest else a :: b :: rest
  | cs => cs

/-- The part of a name that counts.  `isc` stays whole: it abbreviates a property of its own. -/
def loose (name : List Char) : List Char :=
  let kept := (dropIs name).filter fun c => c.toNat ≤ 127 && !(c = ' ' || c = '-' || c = '_')
  let kept := kept.map Char.toLower
  if kept = ['c'] && name ≠ dropIs name then ['i', 's', 'c'] else kept

/-- Whether one of the names in a line of names is this one. -/
def named (line : String) (name : List Char) : Bool :=
  (line.splitOn " ").any fun n => loose n.toList = name

def place? (names : List String) (name : List Char) : Option Nat :=
  names.findIdx? fun line => named line name

/-! ## General categories -/

/-- The categories that stand for several, each with its members. -/
def groups : List (String × List String) := [
  ("C Other", ["Cc", "Cf", "Cn", "Co"]),
  ("L Letter", ["Ll", "Lm", "Lo", "Lt", "Lu"]),
  ("LC Cased_Letter", ["Ll", "Lt", "Lu"]),
  ("M Mark Combining_Mark", ["Mc", "Me", "Mn"]),
  ("N Number", ["Nd", "Nl", "No"]),
  ("P Punctuation Punct", ["Pc", "Pd", "Pe", "Pf", "Pi", "Po", "Ps"]),
  ("S Symbol", ["Sc", "Sk", "Sm", "So"]),
  ("Z Separator", ["Zl", "Zp", "Zs"])]

/-- The code points of the categories with these abbreviations. -/
def categories (short : List String) : List (Nat × Nat) := Category.ranges (Category.places short)

/-- Surrogates are no characters, and no name selects them. -/
def surrogates : List String := ["Cs"]

def category? (name : List Char) : Option (List (Nat × Nat)) :=
  if name = "any".toList then some [(0, 0x10FFFF)]
  else if name = "ascii".toList then some [(0, 0x7F)]
  else if name = "assigned".toList then
    some (Category.ranges ((List.range Category.names.length).filter
      fun i => !(Category.places ["Cn", "Cs"]).contains i))
  else match groups.find? fun g => named g.1 name with
    | some g => some (categories g.2)
    | none =>
      match place? Category.names name with
      | some i => if (Category.places surrogates).contains i then none else some (Category.ranges [i])
      | none => none

/-! ## Names alone -/

def script? (name : List Char) : Option (List (Nat × Nat)) :=
  match place? Script.names name with
  | some i => if Script.unknown = some i then none else some (Script.ranges i)
  | none => none

def binary? (name : List Char) : Option (List (Nat × Nat)) :=
  (Binary.tables.find? fun t => named t.1 name).map fun t => Ranges.decode t.2

/-- Abbreviations that name a category before anything else. -/
def categoryFirst : List (List Char) := [['c', 'f'], ['s', 'c'], ['l', 'c']]

/-- What a name selects on its own. -/
def alone? (name : List Char) : Option (List (Nat × Nat)) :=
  let name := loose name
  if categoryFirst.contains name then category? name
  else (binary? name).or ((category? name).or (script? name))

/-! ## Names with a value -/

/-- The class with that name, unless it is the first one, which stands for the rest. -/
def class? (names : List String) (ranges : Nat → List (Nat × Nat)) (value : List Char) :
    Option (List (Nat × Nat)) :=
  match place? names value with
  | some 0 => none
  | some i => some (ranges i)
  | none => none

def age? (value : List Char) : Option (List (Nat × Nat)) :=
  match place? Age.names value with
  | some i => if i + 1 < Age.names.length then some (Age.ranges i) else none
  | none => none

def extension? (value : List Char) : Option (List (Nat × Nat)) :=
  match place? Script.names value with
  | some i => if Script.unknown = some i then none else some (Script.extensionRanges i)
  | none => none

/-- What a name selects together with a value. -/
def valued? (name value : List Char) : Option (List (Nat × Nat)) :=
  let name := loose name
  let value := loose value
  if named "gc General_Category Category" name then category? value
  else if named "sc Script" name then script? value
  else if named "scx Script_Extensions" name then extension? value
  else if named "age" name then age? value
  else if named "GCB Grapheme_Cluster_Break" name then
    class? GraphemeBreak.names GraphemeBreak.ranges value
  else if named "WB Word_Break" name then class? WordBreak.names WordBreak.ranges value
  else if named "SB Sentence_Break" name then class? SentenceBreak.names SentenceBreak.ranges value
  else none

/-! ## Classes used by name -/

def digits : List (Nat × Nat) := categories ["Nd"]

def blanks : List (Nat × Nat) := Binary.whiteSpace

/-- Letters, marks, digits, connecting punctuation and the two joiners. -/
def wordCharacters : List (Nat × Nat) :=
  Binary.alphabetic ++ categories ["Mc", "Me", "Mn", "Nd", "Pc"] ++ Binary.joinControl

def numbers : List (Nat × Nat) := categories ["Nd", "Nl", "No"]

def isBlank (c : Char) : Bool := Ranges.mem c.toNat blanks

def isAlphabetic (c : Char) : Bool :=
  if c.toNat ≤ 127 then c.isAlpha else Ranges.mem c.toNat Binary.alphabetic

def isAlphanumeric (c : Char) : Bool :=
  if c.toNat ≤ 127 then c.isAlphanum
  else Ranges.mem c.toNat Binary.alphabetic || Ranges.mem c.toNat numbers

/-- What shows as a mark on paper: no control, format or unassigned character, and no blank but the
ordinary one. -/
def hidden : List (Nat × Nat) := categories ["Cc", "Cf", "Cn", "Co", "Cs", "Zl", "Zp", "Zs"]

def isVisible (c : Char) : Bool :=
  if 32 ≤ c.toNat && c.toNat < 127 then true else !Ranges.mem c.toNat hidden

def isGraphemeExtend (c : Char) : Bool :=
  if c.toNat < 127 then false else Ranges.mem c.toNat Binary.graphemeExtend

end Property
end Unicode
end Ambigram
