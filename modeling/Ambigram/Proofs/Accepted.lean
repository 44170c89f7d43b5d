import Ambigram.Proofs.Discipline
/-!
# Accepted tokens

Every token that is accepted while a step runs, in turn, also where the run gives it up again later on: in a branch that
did not match, in a first half whose second half did not, in a turn too few.  A log follows the run of its step; where
the step goes on behind a match, so does the log.
-/
namespace Ambigram

variable {E α β : Type}

/-- What a step accepts, by the cursor that it begins at. -/
abbrev Log := Cursor → List Token

namespace Log

def nothing : Log := fun _ => []

def accept (i : Input) (id : TokenId) (exclusive : Bool) : Log := fun c =>
  match Cursor.accept i id exclusive c with
  | (.hit k, _) => [k]
  | _ => []

/-- Goes on from a match. -/
def andThen (x : Step α) (X : Log) (F : α → Log) : Log := fun c =>
  X c ++ match x c with
    | (.hit a, d) => F a d
    | _ => []

/-- Goes on from a non-match. -/
def orElse (x : Step α) (X Y : Log) : Log := fun c =>
  X c ++ match x c with
    | (.miss, d) => Y d
    | _ => []

/-- Where nothing more is accepted, the log ends. -/
theorem andThen_nothing (x : Step α) (X : Log) : andThen x X (fun _ => nothing) = X := by
  funext c
  unfold andThen
  split
  · exact List.append_nil _
  · exact List.append_nil _

theorem orElse_nothing (x : Step α) (X : Log) : orElse x X nothing = X := by
  funext c
  unfold orElse
  split
  · exact List.append_nil _
  · exact List.append_nil _

def repeatFor (u : α → Step α) (U : α → Log) : Nat → α → Log
  | 0, _ => nothing
  | n + 1, a => fun c =>
    U a c ++ match u a c with
      | (.hit b, d) => if d.offset = c.offset then [] else repeatFor u U n b d
      | _ => []

def repeated (u : α → Step α) (U : α → Log) (a : α) : Log := fun c => repeatFor u U (c.fuel + 1) a c

def times (u : α → Step α) (U : α → Log) : Nat → α → Log
  | 0, _ => nothing
  | n + 1, a => andThen (u a) (U a) (times u U n)

def atLeast (n : Nat) (u : α → Step α) (U : α → Log) (a : α) : Log :=
  andThen (Step.times u n a) (times u U n a) (repeated u U)

def joinFor (q : Step Unit) (Q : Log) (u : α → Step α) (U : α → Log) : Nat → α → Log
  | 0, _ => nothing
  | n + 1, a => andThen q Q fun _ => andThen (u a) (U a) (joinFor q Q u U n)

def joined (q : Step Unit) (Q : Log) (u : α → Step α) (U : α → Log) (a : α) : Log :=
  andThen (u a) (U a) fun b d => joinFor q Q u U (d.fuel + 1) b d

end Log

/-! ## Grammars -/

def Recognizer.log (i : Input) : Recognizer → Log
  | .token id exclusive _ => .accept i id exclusive
  | .seq _ x y => .andThen (x.recognize i) (x.log i) fun _ => y.log i
  | .choice x y => .orElse (x.recognize i) (x.log i) (y.log i)
  | .rep x => .repeated (fun _ => x.recognize i) (fun _ => x.log i) ()
  | .opt _ x => x.log i
  | .annotate _ x => x.log i

def Node.logWith (onRef : (t : Shape) → String → Step t.Carrier) (refLog : Shape → String → Log) (i : Input) (env : E)
    {a : Option Shape} {t : Shape} : Node E a t → Start a → Log
  | .scan id exclusive _ _, _ => .accept i id exclusive
  | .initial _, _ | .emptyList, _ | .map _, _ => .nothing
  | .ref name, _ => refLog t name
  | .fold p _, _ => p.logWith onRef refLog i env ()
  | .seq _ x y, left =>
    .andThen (x.parseWith onRef i env left) (x.logWith onRef refLog i env left) (y.logWith onRef refLog i env)
  | .before _ r x, left => .andThen (r.recognize i) (r.log i) fun _ => x.logWith onRef refLog i env left
  | .after _ x r, left =>
    .andThen (x.parseWith onRef i env left) (x.logWith onRef refLog i env left) fun _ => r.log i
  | .choice x y, left =>
    .orElse (x.parseWith onRef i env left) (x.logWith onRef refLog i env left) (y.logWith onRef refLog i env left)
  | .rep x, left => .repeated (x.parseWith onRef i env) (x.logWith onRef refLog i env) left
  | .opt x, left => x.logWith onRef refLog i env left
  | .atLeast n x, left => .atLeast n (x.parseWith onRef i env) (x.logWith onRef refLog i env) left
  | .join _ sep x, left =>
    .joined (sep.recognize i) (sep.log i) (x.parseWith onRef i env) (x.logWith onRef refLog i env) left
  | .annotate _ x, left => x.logWith onRef refLog i env left

/-- What a reference accepts, one level deeper. -/
def Definitions.followLog (ds : Definitions E) (t : Shape) (name : String) (deeper : Option (Parser E t → Log)) : Log :=
  match ds.target t name, deeper with
  | some p, some log => fun c => log p { c with depth := c.depth + 1 }
  | _, _ => .nothing

def Definitions.refLog (ds : Definitions E) (i : Input) (env : E) : Nat → Shape → String → Log
  | 0 => fun t name => ds.followLog t name none
  | n + 1 => fun t name =>
    ds.followLog t name (some fun p => p.logWith (ds.parseRef i env n) (ds.refLog i env n) i env ())

variable {a : Option Shape} {t : Shape}

def Node.logAt (ds : Definitions E) (i : Input) (env : E) (n : Nat) (x : Node E a t) : Start a → Log :=
  x.logWith (ds.parseRef i env n) (ds.refLog i env n) i env

/-- The tokens that are accepted while all of a source is parsed. -/
def Node.accepted (ds : Definitions E) (env : E) (limits : Limits) (input : Input) (p : Parser E t) : List Token :=
  p.logAt ds input env limits.depth () (.start limits)

end Ambigram
