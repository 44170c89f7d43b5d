import Ambigram.Grammar.Node
import Ambigram.Tree.Layout
/-!
# Printing

The way back: from a value to the accumulator it was reduced from and the tree of the input that was
consumed.  Printing walks the same parts as parsing in reverse, and a repetition takes elements off as
long as its element prints.  Nothing in a value bounds that, so printing is given a budget: it bounds the
elements of one repetition and the nesting of references, and more of it never changes an answer that
was reached.
-/
namespace Ambigram

variable {E : Type}

/-- The canonical text of a recognizer.  It does not depend on what was read. -/
def Recognizer.print : Recognizer → Tree
  | .token _ _ text => if text.isEmpty then .empty else .text text
  | .seq _ x y => x.print.append y.print
  | .choice x _ => x.print
  | .rep _ => .empty
  | .opt always x => if always then x.print else .empty
  | .annotate c x => x.print.annotate c

namespace Print

variable {α : Type}

/-- Takes elements off until there is none, and puts their trees in front of those taken before. -/
def peel (element : α → Outcome (α × Tree)) : Nat → α → List Tree → Outcome (α × List Tree)
  | 0, _, _ => .fail .budgetExhausted
  | n + 1, v, trees =>
    match element v with
    | .hit (left, t) => peel element n left (t :: trees)
    | .miss => .hit (v, trees)
    | .fail e => .fail e

/-- Takes exactly so many elements off. -/
def takeOff (element : α → Outcome (α × Tree)) : Nat → α → Outcome (α × Tree)
  | 0, v => .hit (v, .empty)
  | n + 1, v =>
    (element v).andThen fun (left, t) =>
      (takeOff element n left).map fun (left, front) => (left, front.append t)

/-- Puts a tree between neighbours. -/
def intersperse (separator : Tree) : List Tree → List Tree
  | [] => []
  | [t] => [t]
  | t :: u :: ts => t :: separator :: intersperse separator (u :: ts)

end Print

open Print

/-- Splits a value into what the node started from and the tree of what it consumed.  A value that takes no input is
printed for the value that is equal to it, with types that are declared alike.  Types of one name that differ in the
order of their fields alone are therefore told apart, unlike in `RecordType.same`; where a name stands for one type there
are none. -/
def Node.printWith (onRef : (t : Shape) → String → t.Carrier → Outcome Tree) (env : E) (turns : Nat)
    {a : Option Shape} {t : Shape} : Node E a t → t.Carrier → Outcome (Start a × Tree)
  | .scan _ _ _ mapping, v => (mapping.undo env v).map fun text => ((), .text text)
  | .initial value, v => if v = value then .hit ((), .empty) else .miss
  | .emptyList, v => if v.isEmpty then .hit ((), .empty) else .miss
  | .ref name, v => (onRef t name v).map fun tree => ((), tree)
  | .fold p f, v =>
    (f.left env v).andThen fun left =>
      (f.right env v).andThen fun right =>
        (p.printWith onRef env turns right).map fun (_, tree) => (left, tree)
  | .map m, v => (m.undo env v).map fun left => (left, .empty)
  | .seq _ x y, v =>
    (y.printWith onRef env turns v).andThen fun (mid, second) =>
      (x.printWith onRef env turns mid).map fun (left, first) => (left, first.append second)
  | .before _ r x, v => (x.printWith onRef env turns v).map fun (left, tree) => (left, r.print.append tree)
  | .after _ x r, v => (x.printWith onRef env turns v).map fun (left, tree) => (left, tree.append r.print)
  | .choice x y, v => (x.printWith onRef env turns v).orElse (y.printWith onRef env turns v)
  | .rep x, v =>
    (peel (x.printWith onRef env turns) turns v []).map fun (left, trees) => (left, .concat trees)
  | .opt x, v => (x.printWith onRef env turns v).orElse (.hit (v, .empty))
  | .atLeast n x, v =>
    (takeOff (x.printWith onRef env turns) n v).andThen fun (mid, last) =>
      (peel (x.printWith onRef env turns) turns mid []).map fun (left, trees) =>
        (left, (Tree.concat trees).append last)
  | .join nonEmpty sep x, v =>
    (peel (x.printWith onRef env turns) turns v []).andThen fun (left, trees) =>
      if nonEmpty && trees.isEmpty then .miss
      else .hit (left, .concat (intersperse sep.print trees))
  | .annotate c x, v => (x.printWith onRef env turns v).map fun (left, tree) => (left, tree.annotate c)

/-- What a reference prints: it needs a definition, and budget for one more level. -/
def Definitions.printRef (ds : Definitions E) (t : Shape) (name : String)
    (deeper : Option (Parser E t → Outcome Tree)) : Outcome Tree :=
  match ds.target t name, deeper with
  | none, _ => .fail (.undefinedRef name)
  | some _, none => .fail .budgetExhausted
  | some p, some print => print p

theorem Definitions.printRef_eq_hit {ds : Definitions E} {t : Shape} {name : String}
    {deeper : Option (Parser E t → Outcome Tree)} {tree : Tree} : ds.printRef t name deeper = .hit tree ↔
      ∃ p print, ds.target t name = some p ∧ deeper = some print ∧ print p = .hit tree := by
  unfold printRef
  cases ds.target t name <;> cases deeper <;> simp

/-- Prints within a budget. -/
def Node.print (ds : Definitions E) (env : E) {a : Option Shape} {t : Shape} :
    Nat → Node E a t → t.Carrier → Outcome (Start a × Tree)
  | 0, x => x.printWith (fun t name _ => ds.printRef t name none) env 0
  | n + 1, x =>
    x.printWith (fun t name v => ds.printRef t name (some fun p => (p.print ds env n v).map Prod.snd)) env
      (n + 1)

/-- What the references of a node print within a budget.  Printing a node is printing it with these. -/
def Definitions.printRefWithin (ds : Definitions E) (env : E) : Nat → (t : Shape) → String → t.Carrier → Outcome Tree
  | 0 => fun t name _ => ds.printRef t name none
  | n + 1 => fun t name v => ds.printRef t name (some fun p => (p.print ds env n v).map Prod.snd)

theorem Node.print_eq (ds : Definitions E) (env : E) {a : Option Shape} {t : Shape} (n : Nat) (x : Node E a t) :
    x.print ds env n = x.printWith (ds.printRefWithin env n) env n := by
  cases n <;> rfl

/-! What each node prints, in terms of what its parts print within the same budget. -/

namespace Node

variable {ds : Definitions E} {env : E} {n : Nat} {a : Option Shape} {s t : Shape} {v : t.Carrier}

theorem print_scan {id : TokenId} {exclusive : Bool} {label : Option String} {m : Mapping E String t.Carrier} :
    (scan id exclusive label m).print ds env n v = (m.undo env v).map fun text => ((), .text text) := by
  rw [print_eq]; rfl

theorem print_initial {value : t.Carrier} :
    (initial value).print ds env n v = if v = value then .hit ((), .empty) else .miss := by
  rw [print_eq]; rfl

theorem print_emptyList {vs : List Value} :
    (emptyList : Node E none .list).print ds env n vs = if vs.isEmpty then .hit ((), .empty) else .miss := by
  rw [print_eq]; rfl

theorem print_ref {name : String} :
    (ref name).print ds env n v = (ds.printRefWithin env n t name v).map fun tree => ((), tree) := by
  rw [print_eq]; rfl

theorem print_fold {u : Shape} {p : Parser E u} {f : Fold E s.Carrier u.Carrier t.Carrier} :
    (fold p f).print ds env n v = (f.left env v).andThen fun left =>
      (f.right env v).andThen fun right => (p.print ds env n right).map fun (_, tree) => (left, tree) := by
  rw [print_eq, print_eq]; rfl

theorem print_map {m : Mapping E s.Carrier t.Carrier} :
    (map m).print ds env n v = (m.undo env v).map fun left => (left, .empty) := by
  rw [print_eq]; rfl

theorem print_seq {b : Bool} {x : Node E a s} {y : Node E (some s) t} :
    (seq b x y).print ds env n v = (y.print ds env n v).andThen fun (mid, second) =>
      (x.print ds env n mid).map fun (left, first) => (left, first.append second) := by
  rw [print_eq, print_eq, print_eq]; rfl

theorem print_before {b : Bool} {r : Recognizer} {x : Node E a t} :
    (before b r x).print ds env n v = (x.print ds env n v).map fun (left, tree) => (left, r.print.append tree) := by
  rw [print_eq, print_eq]; rfl

theorem print_after {b : Bool} {r : Recognizer} {x : Node E a t} :
    (after b x r).print ds env n v = (x.print ds env n v).map fun (left, tree) => (left, tree.append r.print) := by
  rw [print_eq, print_eq]; rfl

theorem print_choice {x y : Node E a t} :
    (choice x y).print ds env n v = (x.print ds env n v).orElse (y.print ds env n v) := by
  rw [print_eq, print_eq, print_eq]; rfl

theorem print_rep {x : Reducer E t t} :
    (rep x).print ds env n v =
      (peel (x.print ds env n) n v []).map fun (left, trees) => (left, .concat trees) := by
  rw [print_eq, print_eq]; rfl

theorem print_opt {x : Reducer E t t} :
    (opt x).print ds env n v = (x.print ds env n v).orElse (.hit (v, .empty)) := by
  rw [print_eq, print_eq]; rfl

theorem print_atLeast {min : Nat} {x : Reducer E t t} :
    (atLeast min x).print ds env n v = (takeOff (x.print ds env n) min v).andThen fun (mid, last) =>
      (peel (x.print ds env n) n mid []).map fun (left, trees) => (left, (Tree.concat trees).append last) := by
  rw [print_eq, print_eq]; rfl

theorem print_join {nonEmpty : Bool} {sep : Recognizer} {x : Reducer E t t} :
    (join nonEmpty sep x).print ds env n v = (peel (x.print ds env n) n v []).andThen fun (left, trees) =>
      if nonEmpty && trees.isEmpty then .miss else .hit (left, .concat (intersperse sep.print trees)) := by
  rw [print_eq, print_eq]; rfl

theorem print_annotate {k : Category} {x : Node E a t} :
    (annotate k x).print ds env n v = (x.print ds env n v).map fun (left, tree) => (left, tree.annotate k) := by
  rw [print_eq, print_eq]; rfl

end Node

variable {t : Shape}

/-- The tree of a value, which has to be printable. -/
def Node.printTree (ds : Definitions E) (env : E) (budget : Nat) (p : Parser E t) (v : t.Carrier) :
    Except Error Tree :=
  match p.print ds env budget v with
  | .hit (_, tree) => .ok tree
  | .miss => .error (.notPrintable p.describe)
  | .fail e => .error e

/-- The text of a value without any layout. -/
def Node.printSource (ds : Definitions E) (env : E) (budget : Nat) (p : Parser E t) (v : t.Carrier) :
    Except Error String :=
  (p.printTree ds env budget v).map Tree.toSource

end Ambigram
