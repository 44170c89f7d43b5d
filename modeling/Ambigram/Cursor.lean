import Ambigram.Input
import Ambigram.Outcome
/-!
# Cursors

The place of a run in its input, with the fuel it has left and the depth of references it is in.  A place
is an offset and nothing more, so going back to one only takes its offset.
-/
namespace Ambigram

/-- What bounds a run: the token attempts it may make, and how deeply references may nest. -/
structure Limits where
  fuel : Nat := 1000000
  depth : Nat := 100

structure Cursor where
  offset : Nat
  /-- The largest offset that an accepted token has reached. -/
  furthest : Nat
  fuel : Nat
  depth : Nat
  deriving DecidableEq

/-- A token with the stretch that it covers. -/
structure Token where
  id : TokenId
  start : Nat
  stop : Nat
  deriving DecidableEq

/-- A computation that moves a cursor; it leaves one behind on every outcome. -/
abbrev Step (α : Type) := Cursor → Outcome α × Cursor

namespace Cursor

def start (limits : Limits) : Cursor := ⟨0, 0, limits.fuel, 0⟩

def goTo (c : Cursor) (offset : Nat) : Cursor := { c with offset }

/-- Goes back to an offset that was left before; one behind the end of the source is refused. -/
def setOffset (i : Input) (offset : Nat) : Step Unit := fun c =>
  if offset ≤ i.source.size then (.hit (), c.goTo offset)
  else (.fail (.offsetPastEnd offset i.source.size), c)

/-- The offset of what comes next, behind any trivia. -/
def next (i : Input) (c : Cursor) : Nat := i.skipTrivia c.offset

/-- Whether only trivia are left. -/
def isAtEnd (i : Input) (c : Cursor) : Bool := c.next i = i.source.size

def enter (limit : Nat) : Step Unit := fun c =>
  if limit ≤ c.depth then (.fail .recursionLimit, c) else (.hit (), { c with depth := c.depth + 1 })

def leave (c : Cursor) : Cursor := { c with depth := c.depth - 1 }

/-! ## Tokens -/

/-- Moves behind an accepted token. -/
def commit (c : Cursor) (stop : Nat) : Cursor := { c with offset := stop, furthest := max c.furthest stop }

/-- Where the token ends if it comes next at the offset.  An exclusive token is matched by its own
pattern alone; any other has to be among the tokens of the longest match. -/
def stop? (i : Input) (token : TokenId) (exclusive : Bool) (offset : Nat) : Except Error (Option Nat) :=
  if token = .endOfInput then .ok (if offset = i.source.size then some offset else none)
  else if exclusive then return (← i.matchOnly offset token).map (·.stop)
  else .ok ((i.matchAt offset).filter (·.contains token) |>.map (·.stop))

/-- Tries a token.  Every attempt costs fuel, and only one that succeeds moves. -/
def accept (i : Input) (token : TokenId) (exclusive : Bool) : Step Token := fun c =>
  match c.fuel with
  | 0 => (.fail .fuelExhausted, c)
  | fuel + 1 =>
    let c := { c with fuel }
    let start := c.next i
    match stop? i token exclusive start with
    | .ok (some stop) => (.hit ⟨token, start, stop⟩, c.commit stop)
    | .ok none => (.miss, c)
    | .error e => (.fail e, c)

end Cursor
end Ambigram
