import Ambigram.Regex.Track
import Ambigram.Tokenizer
/-!
# Lexers

All registered patterns together.  At an offset the lexer finds the longest stretch that is not empty and
that some pattern matches exactly, with every token whose pattern matches it.
-/
namespace Ambigram

structure Lexer where
  patterns : List Pattern
  regexes : List Regex
  skipped : List Bool

/-- The end of a longest match, and its tokens in the order of registration. -/
structure LongestMatch where
  stop : Nat
  tokens : List Nat
  deriving DecidableEq

namespace LongestMatch

def contains (m : LongestMatch) : TokenId → Bool
  | .pattern i => m.tokens.contains i
  | .endOfInput => false

end LongestMatch

/-- A lexer for the registered patterns.  A word edge among the letters of all scripts cannot be decided
from the next byte, so no lexer is made of a pattern that asks for one. -/
def Tokenizer.build (t : Tokenizer) : Except Error Lexer := do
  let regexes ← t.patterns.mapM Pattern.check
  if regexes.any Regex.asksUnicodeWord then
    throw (.build "a pattern asks for a Unicode word boundary")
  return ⟨t.patterns, regexes, (List.range t.size).map t.skipped.contains⟩

namespace Lexer

def size (l : Lexer) : Nat := l.patterns.length

def pattern? (l : Lexer) : TokenId → Option Pattern
  | .pattern i => l.patterns[i]?
  | .endOfInput => none

def isSkipped (l : Lexer) : TokenId → Bool
  | .pattern i => l.skipped[i]?.getD false
  | .endOfInput => false

def isTrivia (l : Lexer) (m : LongestMatch) : Bool := m.tokens.any fun i => l.isSkipped (.pattern i)

/-! ## Longest matches -/

/-- The ends of the matches from an offset, for each of some tokens, as bits. -/
abbrev Ends := List (Nat × Nat)

/-- The furthest of all ends behind the offset, and the tokens that end there. -/
def furthest (offset : Nat) (ends : Ends) : Option LongestMatch :=
  let all := ends.foldl (fun acc e => acc ||| e.2) 0
  if all < 1 <<< (offset + 1) then none
  else some ⟨all.log2, (ends.filter fun e => e.2.testBit all.log2).map Prod.fst⟩

/-- The ends of every token from an offset, given the tracks of all patterns through a source. -/
def endsAt (src : Source) (tracks : List Regex.Track) (offset : Nat) : Ends :=
  tracks.zipIdx.map fun (track, i) => (i, track.run src.size (1 <<< offset))

/-- The longest match at an offset among all patterns, or for one token alone. -/
def matchOn (src : Source) (tracks : List Regex.Track) (offset : Nat) :
    Option TokenId → Except Error (Option LongestMatch)
  | some (.pattern i) =>
    match tracks[i]? with
    | none => .error (.unknownToken (.pattern i))
    | some track =>
      if src.size < offset then .error .searchPastEnd
      else .ok (furthest offset [(i, track.run src.size (1 <<< offset))])
  | some .endOfInput => .error (.unknownToken .endOfInput)
  | none =>
    if src.size < offset then .error .searchPastEnd
    else .ok (furthest offset (endsAt src tracks offset))

def tracks (l : Lexer) (src : Source) : List Regex.Track := l.regexes.map (·.track src)

def longestMatch (l : Lexer) (src : Source) (offset : Nat) (only : Option TokenId) :
    Except Error (Option LongestMatch) :=
  matchOn src (l.tracks src) offset only

/-- The longest matches one after another from the start, until there is none. -/
def scan (l : Lexer) (src : Source) : List LongestMatch :=
  go (l.tracks src) (src.size + 1) 0
where
  go (tracks : List Regex.Track) : Nat → Nat → List LongestMatch
    | 0, _ => []
    | fuel + 1, offset =>
      match matchOn src tracks offset none with
      | .ok (some m) => m :: go tracks fuel m.stop
      | _ => []

end Lexer
end Ambigram
