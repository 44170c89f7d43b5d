import Ambigram.Lexer
/-!
# Inputs

A lexer set on a source.  The longest match at each offset is kept once it has been found, and
`Input.matchAt_of` says that keeping it changes no answer: every look-up gives what the lexer finds
afresh.
-/
namespace Ambigram

structure Input where
  lexer : Lexer
  source : Source
  tracks : List Regex.Track
  /-- The longest matches that are kept, by offset. -/
  kept : Array (Thunk (Option LongestMatch))

namespace Input

/-- The longest match of all patterns at an offset, found afresh. -/
def findMatch (source : Source) (tracks : List Regex.Track) (offset : Nat) : Option LongestMatch :=
  Lexer.furthest offset (Lexer.endsAt source tracks offset)

def of (lexer : Lexer) (source : Source) : Input :=
  let tracks := lexer.tracks source
  { lexer, source, tracks
    kept := ((List.range (source.size + 1)).map fun i => Thunk.mk fun _ => findMatch source tracks i).toArray }

/-- The same input without anything kept. -/
def fresh (lexer : Lexer) (source : Source) : Input := { lexer, source, tracks := lexer.tracks source, kept := #[] }

/-- The longest match at an offset. -/
def matchAt (i : Input) (offset : Nat) : Option LongestMatch :=
  match i.kept[offset]? with
  | some m => m.get
  | none => findMatch i.source i.tracks offset

theorem matchAt_of (lexer : Lexer) (source : Source) (offset : Nat) :
    (of lexer source).matchAt offset = (fresh lexer source).matchAt offset := by
  by_cases h : offset < source.size + 1 <;> simp [of, fresh, matchAt, h, Thunk.get]

/-- The longest match of one token alone. -/
def matchOnly (i : Input) (offset : Nat) (token : TokenId) : Except Error (Option LongestMatch) :=
  Lexer.matchOn i.source i.tracks offset (some token)

/-- The offset behind the trivia that follow an offset. -/
def skipTrivia (i : Input) (offset : Nat) : Nat := go (i.source.size + 1) offset
where
  go : Nat → Nat → Nat
    | 0, offset => offset
    | n + 1, offset =>
      match i.matchAt offset with
      | some m => if i.lexer.isTrivia m then go n m.stop else offset
      | none => offset

end Input
end Ambigram
