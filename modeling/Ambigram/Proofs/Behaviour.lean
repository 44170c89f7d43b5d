import Ambigram.Grammar.Parse
/-!
# Behaviour

What grammars do, by rules: from where, to which outcome, and where that leaves off.  The rules have no bounds.  A
loop goes round until something in it ends it, and a reference enters what it stands for whenever there is room.  There
is a rule for going back to an offset, but none for being refused there.

So a derivation holds every step of a run that ends.  A run that went on for ever would have none, and neither would
one that was refused when it went back.
-/
namespace Ambigram

variable {E α β : Type}

/-- From a cursor to an outcome, leaving a cursor behind. -/
abbrev Behaviour (α : Type) := Cursor → Outcome α → Cursor → Prop

/-- Goes back to where something began, if it has moved. -/
def Cursor.restore (i : Input) (start : Nat) : Step Unit := fun c =>
  if c.offset = start then (.hit (), c) else c.setOffset i start

/-- Behind the trivia that follow an offset. -/
inductive Input.Settles (i : Input) : Nat → Nat → Prop
  | nothing {offset : Nat} (h : i.matchAt offset = none) : Settles i offset offset
  | other {offset : Nat} {m : LongestMatch} (h : i.matchAt offset = some m) (htrivia : i.lexer.isTrivia m = false) :
    Settles i offset offset
  | trivia {offset next : Nat} {m : LongestMatch} (h : i.matchAt offset = some m) (htrivia : i.lexer.isTrivia m = true)
    (more : Settles i m.stop next) : Settles i offset next

/-! ## Putting behaviours together -/

namespace Behaviour

section Rules

variable (i : Input)

/-- An attempt at a token. -/
inductive Accept (token : TokenId) (exclusive : Bool) : Behaviour Token
  | spent {c : Cursor} (h : c.fuel = 0) : Accept token exclusive c (.fail .fuelExhausted) c
  | found {c : Cursor} {fuel start stop : Nat} (paid : c.fuel = fuel + 1) (settled : i.Settles c.offset start)
    (h : Cursor.stop? i token exclusive start = .ok (some stop)) :
    Accept token exclusive c (.hit ⟨token, start, stop⟩) (Cursor.commit { c with fuel } stop)
  | missing {c : Cursor} {fuel start : Nat} (paid : c.fuel = fuel + 1) (settled : i.Settles c.offset start)
    (h : Cursor.stop? i token exclusive start = .ok none) : Accept token exclusive c .miss { c with fuel }
  | refused {c : Cursor} {fuel start : Nat} {e : Error} (paid : c.fuel = fuel + 1) (settled : i.Settles c.offset start)
    (h : Cursor.stop? i token exclusive start = .error e) : Accept token exclusive c (.fail e) { c with fuel }

/-- An outcome that does not move. -/
inductive Still (o : Outcome α) : Behaviour α
  | here {c : Cursor} : Still o c o c

inductive Bind (X : Behaviour α) (F : α → Behaviour β) : Behaviour β
  | miss {c d : Cursor} (x : X c .miss d) : Bind X F c .miss d
  | fail {c d : Cursor} {e : Error} (x : X c (.fail e) d) : Bind X F c (.fail e) d
  | goOn {c d d' : Cursor} {a : α} {o : Outcome β} (x : X c (.hit a) d) (f : F a d o d') : Bind X F c o d'

/-- Keeps nothing of a match but that it happened. -/
def Void (X : Behaviour α) : Behaviour Unit := Bind X fun _ => Still (.hit ())

inductive Backtrack (X : Behaviour α) : Behaviour α
  | ended {c d : Cursor} {o : Outcome α} (x : X c o d) (h : o ≠ .miss) : Backtrack X c o d
  | back {c d d' : Cursor} (x : X c .miss d) (restored : Cursor.restore i c.offset d = (.hit (), d')) :
    Backtrack X c .miss d'

inductive Sequence (backtracks : Bool) (expected : Unit → String) (X : Behaviour α) (F : α → Behaviour β) : Behaviour β
  | miss {c d : Cursor} (x : X c .miss d) : Sequence backtracks expected X F c .miss d
  | fail {c d : Cursor} {e : Error} (x : X c (.fail e) d) : Sequence backtracks expected X F c (.fail e) d
  | both {c d d' : Cursor} {a : α} {o : Outcome β} (x : X c (.hit a) d) (f : F a d o d') (h : o ≠ .miss) :
    Sequence backtracks expected X F c o d'
  | back {c d d' d'' : Cursor} {a : α} (x : X c (.hit a) d) (f : F a d .miss d') (h : backtracks = true)
    (restored : Cursor.restore i c.offset d' = (.hit (), d'')) : Sequence backtracks expected X F c .miss d''
  | commit {c d d' : Cursor} {a : α} {next : Nat} (x : X c (.hit a) d) (f : F a d .miss d') (h : backtracks = false)
    (settled : i.Settles d'.offset next) :
    Sequence backtracks expected X F c (.fail (.unexpectedInput next (expected ()))) d'

inductive OrElse (X Y : Behaviour α) : Behaviour α
  | first {c d : Cursor} {o : Outcome α} (x : X c o d) (h : o ≠ .miss) : OrElse X Y c o d
  | second {c d d' : Cursor} {o : Outcome α} (x : X c .miss d) (y : Y d o d') : OrElse X Y c o d'

def Optional (U : α → Behaviour α) (a : α) : Behaviour α := OrElse (U a) (Still (.hit a))

/-- Turn after turn, until one does not match or does not move. -/
inductive Repeated (U : α → Behaviour α) : α → Behaviour α
  | stop {a : α} {c d : Cursor} (u : U a c .miss d) : Repeated U a c (.hit a) d
  | fail {a : α} {c d : Cursor} {e : Error} (u : U a c (.fail e) d) : Repeated U a c (.fail e) d
  | still {a b : α} {c d : Cursor} (u : U a c (.hit b) d) (h : d.offset = c.offset) : Repeated U a c (.hit b) d
  | more {a b : α} {c d d' : Cursor} {o : Outcome α} (u : U a c (.hit b) d) (h : d.offset ≠ c.offset)
    (rest : Repeated U b d o d') : Repeated U a c o d'

def Times (U : α → Behaviour α) : Nat → α → Behaviour α
  | 0, a => Still (.hit a)
  | n + 1, a => Bind (U a) (Times U n)

def AtLeast (n : Nat) (U : α → Behaviour α) (a : α) : Behaviour α := Backtrack i (Bind (Times U n a) (Repeated U))

/-- A separator and a match, turn after turn, until one of them does not match.  Nothing asks whether a turn
moved. -/
inductive Tail (Q : Behaviour Unit) (U : α → Behaviour α) : α → Behaviour α
  | stop {a : α} {c d : Cursor} (q : Q c .miss d) : Tail Q U a c (.hit a) d
  | failBetween {a : α} {c d : Cursor} {e : Error} (q : Q c (.fail e) d) : Tail Q U a c (.fail e) d
  | fail {a : α} {c d d' : Cursor} {e : Error} (q : Q c (.hit ()) d) (u : U a d (.fail e) d') : Tail Q U a c (.fail e) d'
  | givenBack {a : α} {c d d' d'' : Cursor} (q : Q c (.hit ()) d) (u : U a d .miss d')
    (restored : Cursor.restore i c.offset d' = (.hit (), d'')) : Tail Q U a c (.hit a) d''
  | more {a b : α} {c d d' d'' : Cursor} {o : Outcome α} (q : Q c (.hit ()) d) (u : U a d (.hit b) d')
    (rest : Tail Q U b d' o d'') : Tail Q U a c o d''

inductive Joined (nonEmpty : Bool) (Q : Behaviour Unit) (U : α → Behaviour α) (a : α) : Behaviour α
  | none {c d : Cursor} (u : U a c .miss d) : Joined nonEmpty Q U a c (if nonEmpty then .miss else .hit a) d
  | fail {c d : Cursor} {e : Error} (u : U a c (.fail e) d) : Joined nonEmpty Q U a c (.fail e) d
  | some {b : α} {c d d' : Cursor} {o : Outcome α} (u : U a c (.hit b) d) (rest : Tail i Q U b d o d') :
    Joined nonEmpty Q U a c o d'

end Rules

/-- A reference enters what it stands for, if that is defined and there is room for one more level. -/
inductive Follow (ds : Definitions E) (limit : Nat) (t : Shape) (name : String) (deeper : Parser E t → Behaviour α) :
    Behaviour α
  | undefined {c : Cursor} (h : ds.target t name = none) : Follow ds limit t name deeper c (.fail (.undefinedRef name)) c
  | refused {c d : Cursor} {p : Parser E t} {e : Error} (h : ds.target t name = some p)
    (full : Cursor.enter limit c = (.fail e, d)) : Follow ds limit t name deeper c (.fail e) d
  | entered {c d d' : Cursor} {p : Parser E t} {o : Outcome α} (h : ds.target t name = some p)
    (room : Cursor.enter limit c = (.hit (), d)) (run : deeper p d o d') : Follow ds limit t name deeper c o d'.leave

end Behaviour

/-! ## Grammars -/

open Behaviour

def Recognizer.Recognizes (i : Input) : Recognizer → Behaviour Unit
  | .token id exclusive _ => Void (Accept i id exclusive)
  | .seq b x y => Sequence i b (fun _ => y.describe) (x.Recognizes i) fun _ => y.Recognizes i
  | .choice x y => OrElse (x.Recognizes i) (y.Recognizes i)
  | .rep x => Repeated (fun _ => x.Recognizes i) ()
  | .opt _ x => Optional (fun _ => x.Recognizes i) ()
  | .annotate _ x => x.Recognizes i

def Node.RecognizesWith (onRef : Shape → String → Behaviour Unit) (i : Input) {a : Option Shape} {t : Shape} :
    Node E a t → Behaviour Unit
  | .scan id exclusive _ _ => Void (Accept i id exclusive)
  | .initial _ | .emptyList | .map _ => Still (.hit ())
  | .ref name => onRef t name
  | .fold p _ => p.RecognizesWith onRef i
  | .seq b x y => Sequence i b (fun _ => y.describe) (x.RecognizesWith onRef i) fun _ => y.RecognizesWith onRef i
  | .before b r x => Sequence i b (fun _ => x.describe) (r.Recognizes i) fun _ => x.RecognizesWith onRef i
  | .after b x r => Sequence i b (fun _ => r.describe) (x.RecognizesWith onRef i) fun _ => r.Recognizes i
  | .choice x y => OrElse (x.RecognizesWith onRef i) (y.RecognizesWith onRef i)
  | .rep x => Repeated (fun _ => x.RecognizesWith onRef i) ()
  | .opt x => Optional (fun _ => x.RecognizesWith onRef i) ()
  | .atLeast n x => AtLeast i n (fun _ => x.RecognizesWith onRef i) ()
  | .join ne q x => Joined i ne (q.Recognizes i) (fun _ => x.RecognizesWith onRef i) ()
  | .annotate _ x => x.RecognizesWith onRef i

def Node.ParsesWith (onRef : (t : Shape) → String → Behaviour t.Carrier) (i : Input) (env : E) {a : Option Shape}
    {t : Shape} : Node E a t → Start a → Behaviour t.Carrier
  | .scan id exclusive _ m, _ =>
    Bind (Accept i id exclusive) fun token => Still (.ofExcept (m.apply env (i.source.slice token.start token.stop)))
  | .initial v, _ => Still (.hit v)
  | .emptyList, _ => Still (.hit [])
  | .ref name, _ => onRef t name
  | .fold p f, left => Bind (p.ParsesWith onRef i env ()) fun right => Still (.ofExcept (f.apply env left right))
  | .map m, left => Still (.ofExcept (m.apply env left))
  | .seq b x y, left => Sequence i b (fun _ => y.describe) (x.ParsesWith onRef i env left) (y.ParsesWith onRef i env)
  | .before b r x, left => Sequence i b (fun _ => x.describe) (r.Recognizes i) fun _ => x.ParsesWith onRef i env left
  | .after b x r, left =>
    Sequence i b (fun _ => r.describe) (x.ParsesWith onRef i env left) fun v =>
      Bind (r.Recognizes i) fun _ => Still (.hit v)
  | .choice x y, left => OrElse (x.ParsesWith onRef i env left) (y.ParsesWith onRef i env left)
  | .rep x, left => Repeated (x.ParsesWith onRef i env) left
  | .opt x, left => Optional (x.ParsesWith onRef i env) left
  | .atLeast n x, left => AtLeast i n (x.ParsesWith onRef i env) left
  | .join ne q x, left => Joined i ne (q.Recognizes i) (x.ParsesWith onRef i env) left
  | .annotate _ x, left => x.ParsesWith onRef i env left

/-! The rules for a reference call for those of what it stands for.  A derivation is finite, so in each of them so
many references at most are within one another; that number has nothing to do with a limit. -/

def Definitions.RecognizesRef (ds : Definitions E) (i : Input) (limit : Nat) : Nat → Shape → String → Behaviour Unit
  | 0 => fun t name => Follow ds limit t name fun _ _ _ _ => False
  | n + 1 => fun t name => Follow ds limit t name fun p => p.RecognizesWith (ds.RecognizesRef i limit n) i

def Definitions.ParsesRef (ds : Definitions E) (i : Input) (env : E) (limit : Nat) :
    Nat → (t : Shape) → String → Behaviour t.Carrier
  | 0 => fun t name => Follow ds limit t name fun _ _ _ _ => False
  | n + 1 => fun t name => Follow ds limit t name fun p => p.ParsesWith (ds.ParsesRef i env limit n) i env ()

variable {a : Option Shape} {t : Shape}

/-- There is a derivation, with so many references within one another, by which the node is recognized. -/
def Node.RecognizesWithin (s : Setting E) (n : Nat) (x : Node E a t) : Behaviour Unit :=
  x.RecognizesWith (s.definitions.RecognizesRef s.input s.depth n) s.input

def Node.ParsesWithin (s : Setting E) (n : Nat) (x : Node E a t) (left : Start a) : Behaviour t.Carrier :=
  x.ParsesWith (s.definitions.ParsesRef s.input s.env s.depth n) s.input s.env left

/-- There is a derivation by which the node is recognized. -/
def Node.Recognizes (s : Setting E) (x : Node E a t) : Behaviour Unit := fun c o d => ∃ n, x.RecognizesWithin s n c o d

/-- There is a derivation by which the node is parsed. -/
def Node.Parses (s : Setting E) (x : Node E a t) (left : Start a) : Behaviour t.Carrier :=
  fun c o d => ∃ n, x.ParsesWithin s n left c o d

end Ambigram
