import Ambigram.Grammar.Node
import Ambigram.Step
/-!
# Parsing

Reading input with a grammar, with its values or without.  How deep references may nest is the only
thing that bounds the recursion, so the rules are given for any meaning of the references first and then
tied together by the depth that is left.
-/
namespace Ambigram

variable {E : Type}

/-! ## Recognizing -/

/-- Matches at the cursor and makes nothing. -/
def Recognizer.recognize (i : Input) : Recognizer → Step Unit
  | .token id exclusive _ => (Cursor.accept i id exclusive).void
  | .seq b x y => Step.sequence i b (fun _ => y.describe) (x.recognize i) fun _ => y.recognize i
  | .choice x y => (x.recognize i).orElse (y.recognize i)
  | .rep x => Step.repeated (fun _ => x.recognize i) ()
  | .opt _ x => Step.optional (fun _ => x.recognize i) ()
  | .annotate _ x => x.recognize i

/-- Matches a node without its values: no accumulator is needed, and no fold or mapping runs. -/
def Node.recognizeWith (onRef : Shape → String → Step Unit) (i : Input) {a : Option Shape} {t : Shape} :
    Node E a t → Step Unit
  | .scan id exclusive _ _ => (Cursor.accept i id exclusive).void
  | .initial _ | .emptyList | .map _ => Step.hit ()
  | .ref name => onRef t name
  | .fold p _ => p.recognizeWith onRef i
  | .seq b x y =>
    Step.sequence i b (fun _ => y.describe) (x.recognizeWith onRef i) fun _ => y.recognizeWith onRef i
  | .before b r x => Step.sequence i b (fun _ => x.describe) (r.recognize i) fun _ => x.recognizeWith onRef i
  | .after b x r => Step.sequence i b (fun _ => r.describe) (x.recognizeWith onRef i) fun _ => r.recognize i
  | .choice x y => (x.recognizeWith onRef i).orElse (y.recognizeWith onRef i)
  | .rep x => Step.repeated (fun _ => x.recognizeWith onRef i) ()
  | .opt x => Step.optional (fun _ => x.recognizeWith onRef i) ()
  | .atLeast n x => Step.atLeast n (fun _ => x.recognizeWith onRef i) ()
  | .join ne sep x => Step.joined ne (sep.recognize i) (fun _ => x.recognizeWith onRef i) ()
  | .annotate _ x => x.recognizeWith onRef i

/-! ## Parsing -/

/-- Matches a node and makes its value from what it starts from. -/
def Node.parseWith (onRef : (t : Shape) → String → Step t.Carrier) (i : Input) (env : E)
    {a : Option Shape} {t : Shape} : Node E a t → Start a → Step t.Carrier
  | .scan id exclusive _ mapping, _ =>
    (Cursor.accept i id exclusive).bind fun token =>
      Step.still (.ofExcept (mapping.apply env (i.source.slice token.start token.stop)))
  | .initial value, _ => Step.hit value
  | .emptyList, _ => Step.hit []
  | .ref name, _ => onRef t name
  | .fold p f, left => (p.parseWith onRef i env ()).bind fun right => Step.still (.ofExcept (f.apply env left right))
  | .map m, left => Step.still (.ofExcept (m.apply env left))
  | .seq b x y, left =>
    Step.sequence i b (fun _ => y.describe) (x.parseWith onRef i env left) (y.parseWith onRef i env)
  | .before b r x, left =>
    Step.sequence i b (fun _ => x.describe) (r.recognize i) fun _ => x.parseWith onRef i env left
  | .after b x r, left =>
    Step.sequence i b (fun _ => r.describe) (x.parseWith onRef i env left) fun v => (r.recognize i).map fun _ => v
  | .choice x y, left => (x.parseWith onRef i env left).orElse (y.parseWith onRef i env left)
  | .rep x, left => Step.repeated (x.parseWith onRef i env) left
  | .opt x, left => Step.optional (x.parseWith onRef i env) left
  | .atLeast n x, left => Step.atLeast n (x.parseWith onRef i env) left
  | .join ne sep x, left => Step.joined ne (sep.recognize i) (x.parseWith onRef i env) left
  | .annotate _ x, left => x.parseWith onRef i env left

/-! ## References -/

/-- What a reference does: it needs a definition, and room for one more level. -/
def Definitions.follow {α : Type} (ds : Definitions E) (t : Shape) (name : String)
    (deeper : Option (Parser E t → Step α)) : Step α :=
  match ds.target t name, deeper with
  | none, _ => Step.fail (.undefinedRef name)
  | some _, none => Step.fail .recursionLimit
  | some p, some run => (run p).nested

theorem Definitions.follow_eq_hit {α : Type} {ds : Definitions E} {t : Shape} {name : String}
    {deeper : Option (Parser E t → Step α)} {c d : Cursor} {v : α} : ds.follow t name deeper c = (.hit v, d) ↔
      ∃ p run e, ds.target t name = some p ∧ deeper = some run ∧
        run p { c with depth := c.depth + 1 } = (.hit v, e) ∧ d = e.leave := by
  unfold follow
  cases ds.target t name with
  | none => simp [Step.fail]
  | some p =>
    cases deeper with
    | none => simp [Step.fail]
    | some run =>
      dsimp only [Step.nested]
      rcases h : run p { c with depth := c.depth + 1 } with ⟨o, e⟩
      constructor
      · intro hd
        cases hd
        exact ⟨p, run, e, rfl, rfl, h, rfl⟩
      · rintro ⟨_, _, e', hp, hrun, h', rfl⟩
        cases hp
        cases hrun
        rw [h] at h'
        cases h'
        rfl

/-- Matches a node with so many more levels of references. -/
def Node.recognizeAt (ds : Definitions E) (i : Input) {a : Option Shape} {t : Shape} :
    Nat → Node E a t → Step Unit
  | 0, x => x.recognizeWith (fun t name => ds.follow t name none) i
  | n + 1, x => x.recognizeWith (fun t name => ds.follow t name (some fun p => p.recognizeAt ds i n)) i

/-- Parses a node with so many more levels of references. -/
def Node.parseAt (ds : Definitions E) (i : Input) (env : E) {a : Option Shape} {t : Shape} :
    Nat → Node E a t → Start a → Step t.Carrier
  | 0, x => x.parseWith (fun t name => ds.follow t name none) i env
  | n + 1, x => x.parseWith (fun t name => ds.follow t name (some fun p => p.parseAt ds i env n ())) i env

/-! What the references of a node do at a level.  A node at a level is the node with these. -/

def Definitions.recognizeRef (ds : Definitions E) (i : Input) : Nat → Shape → String → Step Unit
  | 0 => fun t name => ds.follow t name none
  | n + 1 => fun t name => ds.follow t name (some fun p => p.recognizeAt ds i n)

def Definitions.parseRef (ds : Definitions E) (i : Input) (env : E) : Nat → (t : Shape) → String → Step t.Carrier
  | 0 => fun t name => ds.follow t name none
  | n + 1 => fun t name => ds.follow t name (some fun p => p.parseAt ds i env n ())

theorem Node.recognizeAt_eq (ds : Definitions E) (i : Input) {a : Option Shape} {t : Shape} (n : Nat)
    (x : Node E a t) : x.recognizeAt ds i n = x.recognizeWith (ds.recognizeRef i n) i := by
  cases n <;> rfl

theorem Node.parseAt_eq (ds : Definitions E) (i : Input) (env : E) {a : Option Shape} {t : Shape} (n : Nat)
    (x : Node E a t) : x.parseAt ds i env n = x.parseWith (ds.parseRef i env n) i env := by
  cases n <;> rfl

/-- A grammar with its references, in an environment, on an input, under a limit for references. -/
structure Setting (E : Type) where
  definitions : Definitions E
  env : E
  input : Input
  depth : Nat

variable {a : Option Shape} {t : Shape}

/-- Matches a node at the cursor; the levels that are left follow from the depth the cursor is at. -/
def Node.recognize (s : Setting E) (x : Node E a t) : Step Unit := fun c =>
  x.recognizeAt s.definitions s.input (s.depth - c.depth) c

def Node.parse (s : Setting E) (x : Node E a t) (left : Start a) : Step t.Carrier := fun c =>
  x.parseAt s.definitions s.input s.env (s.depth - c.depth) left c

/-- Parses the rest of the input, behind which only trivia may be left. -/
def Node.parseRest (s : Setting E) (p : Parser E t) : Cursor → Except Error t.Carrier × Cursor := fun c =>
  match p.parse s () c with
  | (.hit v, d) => if d.isAtEnd s.input then (.ok v, d) else (.error (.trailingInput (d.next s.input)), d)
  | (.miss, d) => (.error (.noMatch d.furthest p.describe), d)
  | (.fail e, d) => (.error e, d)

/-- Parses all of a source. -/
def Node.parseSource (ds : Definitions E) (env : E) (limits : Limits) (input : Input) (p : Parser E t) :
    Except Error t.Carrier :=
  (p.parseRest ⟨ds, env, input, limits.depth⟩ (.start limits)).1

end Ambigram
