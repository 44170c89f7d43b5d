import Ambigram.Grammar.Node
/-!
# Putting parts together

The combinators over all three roles.  The roles of two parts decide the role of what they make: a
recognizer passes an accumulator by, and a node goes on where the node before it stopped.
-/
namespace Ambigram

variable {E : Type}

namespace Recognizer

/-- One or more; a single one is printed. -/
def plus (x : Recognizer) : Recognizer := .seq false x (.rep x)

/-- A recognizer that hands its accumulator on as it is. -/
def lift (s : Shape) (r : Recognizer) : Reducer E s s := .before false r (.map .identity)

/-- Matches once only trivia are left. -/
def endOfInput : Recognizer := .token .endOfInput false ""

end Recognizer

/-- One or more. -/
def Node.plus {s : Shape} (x : Reducer E s s) : Reducer E s s := .atLeast 1 x

/-- A part of a grammar in any role. -/
inductive Part (E : Type)
  | recognizer (r : Recognizer)
  | node {a : Option Shape} {t : Shape} (x : Node E a t)

namespace Part

/-- One part and then another, if their roles fit. -/
def andThen (backtracks : Bool) : Part E → Part E → Option (Part E)
  | .recognizer r, .recognizer q => some (.recognizer (.seq backtracks r q))
  | .recognizer r, .node x => some (.node (.before backtracks r x))
  | .node x, .recognizer r => some (.node (.after backtracks x r))
  | .node (t := t) x, .node (a := a) y =>
    match a, y with
    | some s, y => if h : t = s then some (.node (.seq backtracks x (h ▸ y))) else none
    | none, _ => none

/-- An ordered choice.  A recognizer beside a reducer keeps the accumulator. -/
def orElse : Part E → Part E → Option (Part E)
  | .recognizer r, .recognizer q => some (.recognizer (.choice r q))
  | .recognizer r, .node (a := some s) (t := t) x =>
    if h : s = t then some (.node (.choice (h ▸ r.lift s) x)) else none
  | .node (a := some s) (t := t) x, .recognizer r =>
    if h : s = t then some (.node (.choice x (h ▸ r.lift s))) else none
  | .node (a := a) (t := t) x, .node (a := b) (t := u) y =>
    if h : a = b ∧ t = u then some (.node (.choice x (h.1 ▸ h.2 ▸ y))) else none
  | _, _ => none

/-- The part as a reducer from a shape to itself, which is what a repetition takes. -/
def loop? : Part E → Option ((s : Shape) × Reducer E s s)
  | .node (a := some s) (t := t) x => if h : s = t then some ⟨t, h ▸ x⟩ else none
  | _ => none

def rep : Part E → Option (Part E)
  | .recognizer r => some (.recognizer (.rep r))
  | x => x.loop?.map fun ⟨_, x⟩ => .node (.rep x)

def plus : Part E → Option (Part E)
  | .recognizer r => some (.recognizer r.plus)
  | x => x.loop?.map fun ⟨_, x⟩ => .node (Node.plus x)

def opt (always : Bool) : Part E → Option (Part E)
  | .recognizer r => some (.recognizer (.opt always r))
  | x => x.loop?.map fun ⟨_, x⟩ => .node (.opt x)

/-- At least so many, and one at the least. -/
def atLeast (n : Nat) (x : Part E) : Option (Part E) :=
  if n = 0 then none else x.loop?.map fun ⟨_, x⟩ => .node (.atLeast n x)

def join (nonEmpty : Bool) : Part E → Part E → Option (Part E)
  | .recognizer r, x => x.loop?.map fun ⟨_, x⟩ => .node (.join nonEmpty r x)
  | _, _ => none

def annotate (c : Category) : Part E → Part E
  | .recognizer r => .recognizer (.annotate c r)
  | .node x => .node (.annotate c x)

/-- The part as a parser. -/
def parser? : Part E → Option ((t : Shape) × Parser E t)
  | .node (a := none) (t := t) x => some ⟨t, x⟩
  | _ => none

/-- The part as a parser of a shape. -/
def parserOf? (t : Shape) (x : Part E) : Option (Parser E t) :=
  x.parser?.bind fun ⟨u, p⟩ => if h : u = t then some (h ▸ p) else none

def describe : Part E → String
  | .recognizer r => r.describe
  | .node x => x.describe

/-- The description with the name of the role around it. -/
def debug : Part E → String
  | .recognizer r => "Recognizer(" ++ r.describe ++ ")"
  | .node (a := none) x => "Parser(" ++ x.describe ++ ")"
  | .node (a := some _) x => "Reducer(" ++ x.describe ++ ")"

end Part
end Ambigram
