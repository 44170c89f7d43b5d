import Ambigram.Lexer
/-!
# Automata

How a longest match is found where all patterns have been compiled into one table of states.  The table is followed byte
after byte, and tells a match one byte late, so that the byte behind it can have a say; the end of the source counts as
one more byte.  The last match that was told is the longest one.
-/
namespace Ambigram

/-- A table for all patterns of a lexer. -/
structure Automaton (σ : Type) where
  /-- Where a search in some bytes starts, at an offset, for all patterns or for one alone. -/
  start : List UInt8 → Nat → Option Nat → Except String σ
  next : σ → UInt8 → σ
  /-- Behind the last byte. -/
  finish : σ → σ
  /-- Whether any of the other questions may have a yes for an answer. -/
  isSpecial : σ → Bool
  isMatch : σ → Bool
  /-- Nothing is going to match any more. -/
  isDead : σ → Bool
  /-- The search has been given up. -/
  isQuit : σ → Bool
  /-- The patterns that have matched, in any order. -/
  patterns : σ → List Nat

namespace Automaton

variable {σ : Type} (A : Automaton σ)

/-- Follows the bytes from an offset.  Gives the last match that was told with the state that told it, and the state
behind all bytes if there is a point in going on from there. -/
def scan : List UInt8 → Nat → σ → Option (Nat × σ) → Option (Nat × σ) × Option σ
  | [], _, q, last => (last, some q)
  | byte :: bytes, offset, q, last =>
    let q := A.next q byte
    if !A.isSpecial q then scan bytes (offset + 1) q last
    else if A.isMatch q then scan bytes (offset + 1) q (some (offset, q))
    else if A.isDead q || A.isQuit q then (last, none)
    else scan bytes (offset + 1) q last

/-- The last match in the bytes from an offset. -/
def lastMatch (bytes : List UInt8) (offset : Nat) (q : σ) : Option (Nat × σ) :=
  match A.scan bytes offset q none with
  | (last, none) => last
  | (last, some q) =>
    let q := A.finish q
    if A.isMatch q then some (offset + bytes.length, q) else last

end Automaton

namespace Lexer

variable {σ : Type}

/-- The pattern to which a search is restricted; it has to be registered. -/
def only? (l : Lexer) : Option TokenId → Except Error (Option Nat)
  | none => .ok none
  | some (.pattern i) => if i < l.size then .ok (some i) else .error (.unknownToken (.pattern i))
  | some .endOfInput => .error (.unknownToken .endOfInput)

/-- The longest match at an offset in the bytes of a source, found by an automaton. -/
def search (l : Lexer) (A : Automaton σ) (bytes : List UInt8) (offset : Nat) (only : Option TokenId) :
    Except Error (Option LongestMatch) := do
  let only ← l.only? only
  if bytes.length < offset then
    throw .searchPastEnd
  let q ← (A.start bytes offset only).mapError .search
  match A.lastMatch (bytes.drop offset) offset q with
  | none => return none
  | some (stop, q) => return if stop = offset then none else some ⟨stop, (A.patterns q).mergeSort⟩

end Lexer
end Ambigram
