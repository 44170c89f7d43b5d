import Ambigram.Source
import Ambigram.Unicode.CaseFolding
import Ambigram.Unicode.Property
/-!
# Regular expressions

The meaning of a pattern, apart from how it is written.  `Regex.Matches` says which stretches of a
source an expression matches; conditions on the surroundings see the whole source.
-/
namespace Ambigram
namespace Regex

/-! ## Sets of characters

Built from ranges of code points by the operations that a bracketed class offers.  Membership is read
off the way the set was built. -/

inductive CharSet
  | ranges (rs : List (Nat × Nat))
  | union (a b : CharSet)
  | inter (a b : CharSet)
  | diff (a b : CharSet)
  | symmDiff (a b : CharSet)
  | compl (a : CharSet)
  /-- Closed under change of case. -/
  | folded (a : CharSet)
  /-- Closed under change of case of the letters A to Z only. -/
  | foldedAscii (a : CharSet)
  deriving DecidableEq

namespace CharSet

def none : CharSet := .ranges []

def all : CharSet := .ranges [(0, 0x10FFFF)]

def single (c : Char) : CharSet := .ranges [(c.toNat, c.toNat)]

/-- The letter in the other case, and anything else itself. -/
def swapCase (n : Nat) : Nat :=
  if 65 ≤ n ∧ n ≤ 90 then n + 32 else if 97 ≤ n ∧ n ≤ 122 then n - 32 else n

def mem : CharSet → Nat → Bool
  | .ranges rs, n => Unicode.Ranges.mem n rs
  | .union a b, n => a.mem n || b.mem n
  | .inter a b, n => a.mem n && b.mem n
  | .diff a b, n => a.mem n && !b.mem n
  | .symmDiff a b, n => a.mem n != b.mem n
  | .compl a, n => !a.mem n
  | .folded a, n => (Unicode.CaseFolding.orbit n).any a.mem
  | .foldedAscii a, n => a.mem n || a.mem (swapCase n)

def contains (s : CharSet) (c : Char) : Bool := s.mem c.toNat

end CharSet

/-! ## Conditions on the surroundings

What a pattern can ask of the place between two characters without consuming either.  At the start of the text no
character stands before the place, and at the end none can follow. -/

/-- The ways in which a word can begin or end at a place. -/
inductive WordEdge
  | edge | noEdge | start | stop | startHalf | stopHalf
  deriving DecidableEq

inductive Look
  | textStart
  | textEnd
  /-- At the start of a line; with `crlf`, a carriage return ends a line too, alone or before a line
  feed. -/
  | lineStart (crlf : Bool)
  | lineEnd (crlf : Bool)
  /-- With `unicode`, the letters of all scripts make words. -/
  | word (e : WordEdge) (unicode : Bool)
  deriving DecidableEq

def isAsciiWord (c : Char) : Bool := c.isAlphanum || c = '_'

def isUnicodeWord (c : Char) : Bool := Unicode.Ranges.mem c.toNat Unicode.Property.wordCharacters

def WordEdge.holds : WordEdge → (before after : Bool) → Bool
  | .edge, b, a => b != a
  | .noEdge, b, a => b == a
  | .start, b, a => !b && a
  | .stop, b, a => b && !a
  | .startHalf, b, _ => !b
  | .stopHalf, _, a => !a

namespace Look

/-- Whether the condition holds at an offset.  Inside a character nothing follows either, but the text does not end. -/
def holds (l : Look) (src : Source) (i : Nat) : Bool :=
  let before := src.before? i
  let after := src.at? i
  let ends : Bool := i = src.size
  match l with
  | .textStart => before.isNone
  | .textEnd => ends
  | .lineStart false => before.all (· = '\n')
  | .lineEnd false => ends || after = some '\n'
  | .lineStart true => before.all fun b => b = '\n' || (b = '\r' && after ≠ some '\n')
  | .lineEnd true => ends || after = some '\r' || (after = some '\n' && before ≠ some '\r')
  | .word e unicode =>
    let word := if unicode then isUnicodeWord else isAsciiWord
    e.holds (before.any word) (after.any word)

/-- Whether the condition depends on the letters of all scripts. -/
def isUnicode : Look → Bool
  | .word _ unicode => unicode
  | _ => false

end Look

end Regex

/-! ## Expressions -/

inductive Regex
  | empty
  | chars (s : Regex.CharSet)
  | look (l : Regex.Look)
  | seq (a b : Regex)
  | alt (a b : Regex)
  /-- From `min` to `max` times, or without an upper end. -/
  | times (min : Nat) (max : Option Nat) (x : Regex)
  deriving DecidableEq

namespace Regex

inductive Matches (src : Source) : Regex → Nat → Nat → Prop
  | empty (i : Nat) : Matches src .empty i i
  | chars {s : CharSet} {i : Nat} {c : Char} (h : src.at? i = some c) (m : s.contains c = true) :
    Matches src (.chars s) i (i + c.utf8Size)
  | look {l : Look} {i : Nat} (h : l.holds src i = true) : Matches src (.look l) i i
  | seq {a b : Regex} {i j k : Nat} (ha : Matches src a i j) (hb : Matches src b j k) :
    Matches src (.seq a b) i k
  | altLeft {a b : Regex} {i j : Nat} (h : Matches src a i j) : Matches src (.alt a b) i j
  | altRight {a b : Regex} {i j : Nat} (h : Matches src b i j) : Matches src (.alt a b) i j
  | timesDone {max : Option Nat} {x : Regex} (i : Nat) : Matches src (.times 0 max x) i i
  | timesMore {min : Nat} {max : Option Nat} {x : Regex} {i j k : Nat} (room : max ≠ some 0)
    (head : Matches src x i j) (tail : Matches src (.times (min - 1) (max.map (· - 1)) x) j k) :
    Matches src (.times min max x) i k

/-- The text itself, whatever its characters mean elsewhere. -/
def literal : List Char → Regex
  | [] => .empty
  | c :: cs => .seq (.chars (.single c)) (literal cs)

/-- Nothing is repeated at most zero times. -/
def mkTimes (min : Nat) (max : Option Nat) (x : Regex) : Regex :=
  if max = some 0 then .empty else .times min max x

/-- Whether the expression asks for a word edge among the letters of all scripts. -/
def asksUnicodeWord : Regex → Bool
  | .empty | .chars _ => false
  | .look l => l.isUnicode
  | .seq a b | .alt a b => a.asksUnicodeWord || b.asksUnicodeWord
  | .times _ _ x => x.asksUnicodeWord

end Regex
end Ambigram
