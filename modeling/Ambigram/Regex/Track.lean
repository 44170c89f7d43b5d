import Ambigram.Regex
/-!
# Following an expression through a source

A set of offsets is a number whose bits are its members.  `Regex.track` prepares an expression for one
source by marking, once, where each of its character sets has a character and where each of its
conditions holds; `Track.run` then takes the set of offsets where a match may begin to the set of
offsets where it may end.
-/
namespace Ambigram
namespace Regex

inductive Track
  | stay
  /-- From the marked offsets by a width; one entry for each width. -/
  | advance (moves : List (Nat × Nat))
  | keep (mask : Nat)
  | seq (a b : Track)
  | alt (a b : Track)
  | times (min : Nat) (max : Option Nat) (x : Track)

/-- The offsets below a bound that have a property, as bits. -/
def marks (p : Nat → Bool) : Nat → Nat
  | 0 => 0
  | n + 1 => if p n then marks p n ||| (1 <<< n) else marks p n

def advances (src : Source) (s : CharSet) (width : Nat) : Nat :=
  marks (fun i =>
    match src.at? i with
    | some c => c.utf8Size = width && s.contains c
    | none => false) src.size

def track (src : Source) : Regex → Track
  | .empty => .stay
  | .chars s => .advance ([1, 2, 3, 4].map fun w => (w, advances src s w))
  | .look l => .keep (marks (l.holds src) (src.size + 1))
  | .seq a b => .seq (a.track src) (b.track src)
  | .alt a b => .alt (a.track src) (b.track src)
  | .times min max x => .times min max (x.track src)

namespace Track

def move (moves : List (Nat × Nat)) (start : Nat) : Nat :=
  moves.foldl (fun reached (width, mask) => reached ||| ((start &&& mask) <<< width)) 0

/-- The members of the first set that are not in the second. -/
def without (a b : Nat) : Nat := a ^^^ (a &&& b)

/-- One step after another, exactly so many. -/
def exactly (step : Nat → Nat) : Nat → Nat → Nat
  | 0, set => set
  | n + 1, set => if set = 0 then 0 else exactly step n (step set)

/-- At most so many more steps; only what is new is followed further. -/
def spread (step : Nat → Nat) : Nat → Nat → Nat → Nat
  | 0, _, seen => seen
  | n + 1, frontier, seen =>
    let fresh := without (step frontier) seen
    if fresh = 0 then seen else spread step n fresh (seen ||| fresh)

/-- Where a match that begins in the set may end, in a source of `size` bytes. -/
def run (size : Nat) : Track → Nat → Nat
  | .stay, set => set
  | .advance moves, set => move moves set
  | .keep mask, set => set &&& mask
  | .seq a b, set => let mid := a.run size set; if mid = 0 then 0 else b.run size mid
  | .alt a b, set => a.run size set ||| b.run size set
  | .times min max x, set =>
    let start := exactly (x.run size) min set
    spread (x.run size) (match max with | some m => m - min | none => size + 1) start start

end Track
end Regex
end Ambigram
