import Ambigram.Cursor
/-!
# Streams

A cursor set in an input, as it is moved from outside, one operation at a time.  A stream remembers the longest match
that it found last, with its offset, because an end check, the trivia in front of a token and the token itself ask for
the same ones.  What matches one token alone is looked up without it.
-/
namespace Ambigram

structure Stream where
  input : Input
  limits : Limits
  cursor : Cursor
  /-- The longest match that was found last, with its offset. -/
  last : Option (Nat × Option LongestMatch)

namespace Stream

variable {α : Type}

def start (lexer : Lexer) (source : Source) (limits : Limits) : Stream :=
  ⟨.fresh lexer source, limits, .start limits, none⟩

/-! ## Longest matches -/

/-- Finds the longest match afresh, and remembers it. -/
def find (s : Stream) (offset : Nat) : Except Error (Option LongestMatch) × Stream :=
  match Lexer.matchOn s.input.source s.input.tracks offset none with
  | .ok m => (.ok m, { s with last := some (offset, m) })
  | .error e => (.error e, s)

/-- The longest match at an offset, which may be the one that is remembered. -/
def matchAt (s : Stream) (offset : Nat) : Except Error (Option LongestMatch) × Stream :=
  match s.last with
  | some (start, m) => if start = offset then (.ok m, s) else s.find offset
  | none => s.find offset

/-- The offset behind the trivia that come next. -/
def skipTrivia (s : Stream) : Except Error Nat × Stream := go (s.input.source.size + 1) s.cursor.offset s
where
  go : Nat → Nat → Stream → Except Error Nat × Stream
    | 0, offset, s => (.ok offset, s)
    | n + 1, offset, s =>
      match s.matchAt offset with
      | (.ok (some m), s) => if s.input.lexer.isTrivia m then go n m.stop s else (.ok offset, s)
      | (.ok none, s) => (.ok offset, s)
      | (.error e, s) => (.error e, s)

/-- Where the token ends if it comes next at the offset. -/
def stop? (token : TokenId) (exclusive : Bool) (offset : Nat) (s : Stream) : Except Error (Option Nat) × Stream :=
  if token = .endOfInput then (.ok (if offset = s.input.source.size then some offset else none), s)
  else if exclusive then ((s.input.matchOnly offset token).map fun m => m.map (·.stop), s)
  else
    let (r, s) := s.matchAt offset
    (r.map fun m => (m.filter (·.contains token)).map (·.stop), s)

/-! ## Operations -/

/-- Tries a token.  Every attempt costs fuel, and only one that succeeds moves. -/
def accept (token : TokenId) (exclusive : Bool) (s : Stream) : Outcome Token × Stream :=
  match s.cursor.fuel with
  | 0 => (.fail .fuelExhausted, s)
  | fuel + 1 =>
    match skipTrivia { s with cursor.fuel := fuel } with
    | (.error e, s) => (.fail e, s)
    | (.ok start, s) =>
      match stop? token exclusive start s with
      | (.ok (some stop), s) => (.hit ⟨token, start, stop⟩, { s with cursor := s.cursor.commit stop })
      | (.ok none, s) => (.miss, s)
      | (.error e, s) => (.fail e, s)

/-- The offset of what comes next; the stream does not move there. -/
def nextOffset (s : Stream) : Outcome Nat × Stream :=
  let (r, s) := s.skipTrivia
  (.ofExcept r, s)

/-- Whether only trivia are left. -/
def isAtEnd (s : Stream) : Outcome Bool × Stream :=
  let (r, s) := s.skipTrivia
  (.ofExcept (r.map fun offset => offset = s.input.source.size), s)

/-- Moves the cursor alone. -/
def move (x : Step α) (s : Stream) : Outcome α × Stream :=
  let (o, c) := x s.cursor
  (o, { s with cursor := c })

def setOffset (offset : Nat) (s : Stream) : Outcome Unit × Stream := s.move (Cursor.setOffset s.input offset)

def enter (s : Stream) : Outcome Unit × Stream := s.move (Cursor.enter s.limits.depth)

def leave (s : Stream) : Outcome Unit × Stream := s.move fun c => (.hit (), c.leave)

/-- What can be asked of a stream. -/
inductive Op
  | accept (token : TokenId) (exclusive : Bool)
  | setOffset (offset : Nat)
  | isAtEnd
  | nextOffset
  | enter
  | leave
  deriving DecidableEq

/-- What it answers. -/
inductive Answer
  | token (token : Token)
  | atEnd (yes : Bool)
  | offset (offset : Nat)
  | done
  deriving DecidableEq

def perform (s : Stream) : Op → Outcome Answer × Stream
  | .accept token exclusive => answer .token (s.accept token exclusive)
  | .setOffset offset => answer (fun _ => .done) (s.setOffset offset)
  | .isAtEnd => answer .atEnd s.isAtEnd
  | .nextOffset => answer .offset s.nextOffset
  | .enter => answer (fun _ => .done) s.enter
  | .leave => answer (fun _ => .done) s.leave
where
  answer {α : Type} (f : α → Answer) (r : Outcome α × Stream) : Outcome Answer × Stream := (r.1.map f, r.2)

end Stream
end Ambigram
