import Ambigram.Mapping
import Ambigram.Tree
/-!
# Grammars

The parts that a grammar is made of, in three roles.  A recognizer consumes input and makes nothing.  A
parser consumes input and makes a value.  A reducer consumes input and turns an accumulator into a new
value.  Parsers and reducers are nodes: they differ in what they start from.  One description serves for
reading and for printing.
-/
namespace Ambigram

/-! ## Shapes

Whether a part of a grammar deals in values or in lists of values.  A parser starts from nothing and a
reducer from an accumulator, so where a part starts is a shape or none. -/

inductive Shape
  | value | list
  deriving DecidableEq

namespace Shape

@[reducible] def Carrier : Shape → Type
  | .value => Value
  | .list => List Value

instance (s : Shape) : DecidableEq s.Carrier :=
  match s with
  | .value => inferInstanceAs (DecidableEq Value)
  | .list => inferInstanceAs (DecidableEq (List Value))

/-- What the shape makes of a value: a list has to be one. -/
def ofValue? : (s : Shape) → Value → Option s.Carrier
  | .value, v => some v
  | .list, .list items => some items
  | .list, _ => none

def toValue : (s : Shape) → s.Carrier → Value
  | .value, v => v
  | .list, items => .list items

end Shape

/-- What a part starts from. -/
@[reducible] def Start : Option Shape → Type
  | none => Unit
  | some s => s.Carrier

/-! ## Parts -/

inductive Recognizer
  /-- A token, and the text that printing writes for it. -/
  | token (id : TokenId) (exclusive : Bool) (text : String)
  | seq (backtracks : Bool) (first second : Recognizer)
  | choice (first second : Recognizer)
  | rep (x : Recognizer)
  /-- Zero or one; printed only if `always`. -/
  | opt (always : Bool) (x : Recognizer)
  | annotate (category : Category) (x : Recognizer)

/-- From a start to a value of a shape, in an environment `E`. -/
inductive Node (E : Type) : Option Shape → Shape → Type
  /-- A token whose text is turned into the value; `label` names it in messages. -/
  | scan {t : Shape} (id : TokenId) (exclusive : Bool) (label : Option String)
    (mapping : Mapping E String t.Carrier) : Node E none t
  /-- A value that takes no input. -/
  | initial {t : Shape} (value : t.Carrier) : Node E none t
  | emptyList : Node E none .list
  /-- Whatever the name is defined as when it is needed. -/
  | ref {t : Shape} (name : String) : Node E none t
  /-- A parsed value folded into the accumulator. -/
  | fold {s v t : Shape} (p : Node E none v) (f : Fold E s.Carrier v.Carrier t.Carrier) : Node E (some s) t
  | map {s t : Shape} (m : Mapping E s.Carrier t.Carrier) : Node E (some s) t
  | seq {a : Option Shape} {s t : Shape} (backtracks : Bool) (first : Node E a s)
    (second : Node E (some s) t) : Node E a t
  /-- A recognizer in front. -/
  | before {a : Option Shape} {t : Shape} (backtracks : Bool) (r : Recognizer) (x : Node E a t) : Node E a t
  /-- A recognizer behind. -/
  | after {a : Option Shape} {t : Shape} (backtracks : Bool) (x : Node E a t) (r : Recognizer) : Node E a t
  | choice {a : Option Shape} {t : Shape} (first second : Node E a t) : Node E a t
  | rep {s : Shape} (x : Node E (some s) s) : Node E (some s) s
  | opt {s : Shape} (x : Node E (some s) s) : Node E (some s) s
  | atLeast {s : Shape} (min : Nat) (x : Node E (some s) s) : Node E (some s) s
  | join {s : Shape} (nonEmpty : Bool) (separator : Recognizer) (x : Node E (some s) s) : Node E (some s) s
  | annotate {a : Option Shape} {t : Shape} (category : Category) (x : Node E a t) : Node E a t

abbrev Parser (E : Type) (t : Shape) := Node E none t

abbrev Reducer (E : Type) (s t : Shape) := Node E (some s) t

/-! ## References -/

/-- What the references of a grammar stand for. -/
structure Definitions (E : Type) where
  target : (t : Shape) → String → Option (Parser E t)

namespace Definitions

variable {E : Type}

def empty : Definitions E := ⟨fun _ _ => none⟩

def isDefined (ds : Definitions E) (t : Shape) (name : String) : Bool := (ds.target t name).isSome

/-- Gives a reference its meaning, which it takes once. -/
def define (ds : Definitions E) (t : Shape) (name : String) (p : Parser E t) :
    Except Error (Definitions E) :=
  if ds.isDefined t name then .error (.refAlreadyDefined name)
  else .ok ⟨fun u n => if h : t = u then if n = name then some (h ▸ p) else ds.target u n else ds.target u n⟩

end Definitions

/-! ## Descriptions -/

/-- What messages call a recognizer. -/
def Recognizer.describe : Recognizer → String
  | .token .endOfInput _ _ => "end of input"
  | .token (.pattern _) _ text => "'" ++ text ++ "'"
  | .seq _ x y => x.describe ++ " " ++ y.describe
  | .choice x y => "(" ++ x.describe ++ " | " ++ y.describe ++ ")"
  | .rep x => "\x7b" ++ x.describe ++ "\x7d*"
  | .opt _ x => "\x7b" ++ x.describe ++ "\x7d?"
  | .annotate _ x => x.describe

/-- What messages call a node. -/
def Node.describe {E : Type} {a : Option Shape} {t : Shape} : Node E a t → String
  | .scan id _ label _ => label.getD ("token " ++ Decimal.ofNat id.number)
  | .initial _ => "init"
  | .emptyList => "[]"
  | .ref name => name
  | .fold p _ => p.describe
  | .map _ => "map"
  | .seq _ x y => x.describe ++ " " ++ y.describe
  | .before _ r x => r.describe ++ " " ++ x.describe
  | .after _ x r => x.describe ++ " " ++ r.describe
  | .choice x y => "(" ++ x.describe ++ " | " ++ y.describe ++ ")"
  | .rep x => "\x7b" ++ x.describe ++ "\x7d*"
  | .opt x => "\x7b" ++ x.describe ++ "\x7d?"
  | .atLeast n x =>
    "\x7b" ++ x.describe ++ "\x7d" ++
      if n = 1 then "+" else "\x7b" ++ Decimal.ofNat n ++ ",\x7d"
  | .join nonEmpty sep x =>
    "\x7b" ++ x.describe ++ " / " ++ sep.describe ++ "\x7d" ++ if nonEmpty then "+" else "*"
  | .annotate _ x => x.describe

end Ambigram
