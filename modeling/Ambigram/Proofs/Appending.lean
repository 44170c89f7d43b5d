import Ambigram.Proofs.Budget
import Ambigram.Proofs.Compounds
import Ambigram.Proofs.Peeling
/-!
# Appending

A fold that appends reads its parser and puts the value at the end of a list.  Printing takes the last value off a list
that is long enough, if it prints.  Peeling a list like that walks it from its end, and the trees it ends with are those
of the values behind what is left.
-/
namespace Ambigram

variable {E α : Type}

/-! ## Elements of a list -/

namespace Print

/-- Off a list of more than `min` values, the element takes the last one, if that prints. -/
structure TakesLast (min : Nat) (print : α → Outcome (Unit × Tree)) (element : List α → Outcome (List α × Tree)) :
    Prop where
  miss {vs : List α} (h : vs.length ≤ min) : element vs = .miss
  snoc {front : List α} (h : min ≤ front.length) (v : α) :
    element (front ++ [v]) = (print v).map fun (_, tree) => (front, tree)

/-- These are the trees of the values, one for each. -/
abbrev Trees (print : α → Outcome (Unit × Tree)) : List α → List Tree → Prop :=
  List.Forall₂ fun v tree => print v = .hit ((), tree)

namespace TakesLast

variable {min : Nat} {print : α → Outcome (Unit × Tree)} {element : List α → Outcome (List α × Tree)}
  (h : TakesLast min print element) {left vs : List α} {tree : Tree} {trees : List Tree}
include h

theorem eq_hit : element vs = .hit (left, tree) ↔
    ∃ v, vs = left ++ [v] ∧ min ≤ left.length ∧ print v = .hit ((), tree) := by
  constructor
  · intro hvs
    by_cases hlen : vs.length ≤ min
    · rw [h.miss hlen] at hvs
      cases hvs
    obtain rfl | ⟨front, v, rfl⟩ := List.eq_nil_or_concat' vs
    · exact absurd (Nat.zero_le min) hlen
    have hfront : min ≤ front.length := by
      rw [List.length_append, List.length_singleton] at hlen
      omega
    rw [h.snoc hfront] at hvs
    obtain ⟨⟨⟨⟩, t⟩, hv, heq⟩ := Outcome.map_eq_hit.1 hvs
    cases heq
    exact ⟨v, rfl, hfront, hv⟩
  · rintro ⟨v, rfl, hleft, hv⟩
    rw [h.snoc hleft, hv]
    rfl

theorem peeled {back : List α} (hback : Trees print back trees) :
    ∀ left : List α, min ≤ left.length → Peeled element left trees (left ++ back) := by
  induction hback with
  | nil =>
    intro left _
    rw [List.append_nil]
    exact .nil left
  | @cons v t back trees hv _ ih =>
    intro left hleft
    have htail := ih (left ++ [v]) (by simp only [List.length_append]; omega)
    rw [List.append_assoc] at htail
    exact .cons (h.eq_hit.2 ⟨v, rfl, hleft, hv⟩) htail

theorem exists_back (hpeeled : Peeled element left trees vs) : ∃ back, vs = left ++ back ∧ Trees print back trees := by
  induction hpeeled with
  | nil v => exact ⟨[], (List.append_nil v).symm, .nil⟩
  | cons head _ ih =>
    obtain ⟨v, rfl, -, hv⟩ := h.eq_hit.1 head
    obtain ⟨back, rfl, hback⟩ := ih
    exact ⟨v :: back, List.append_assoc _ _ _, .cons hv hback⟩

end TakesLast

end Print

/-! ## Folds that append -/

namespace Node

open Print (TakesLast Trees)

/-- The value of the parser at the end of a list. -/
def appends (min : Nat) (x : Parser E .value) : Reducer E .list .list := .fold x (.append min)

variable {ds : Definitions E} {env : E} {b : Bool} {q : Recognizer} {x : Parser E .value} {min n : Nat}

theorem takesLast_appends : TakesLast min (x.print ds env n) ((appends min x).print ds env n) where
  miss h := by
    rw [appends, print_fold]
    simp only [Fold.append, if_pos h]
    rfl
  snoc {front} h v := by
    have hlen : ¬ (front ++ [v]).length ≤ min := by
      rw [List.length_append, List.length_singleton]
      omega
    rw [appends, print_fold]
    simp only [Fold.append, if_neg hlen, List.dropLast_concat, List.getLast?_concat]
    rfl

/-- With a recognizer in front, the tree of a value has the one of the recognizer in front. -/
theorem takesLast_before : TakesLast min ((before b q x).print ds env n)
    ((before b q (appends min x)).print ds env n) where
  miss h := by
    rw [print_before, takesLast_appends.miss h]
    rfl
  snoc h v := by
    rw [print_before, takesLast_appends.snoc h, print_before]
    cases x.print ds env n v <;> rfl

theorem trees_before {vs : List Value} {trees : List Tree} (h : Trees (x.print ds env n) vs trees) :
    Trees ((before b q x).print ds env n) vs (trees.map q.print.append) := by
  refine List.forall₂_map_right_iff.2 (h.imp fun v tree hv => ?_)
  rw [print_before, hv]
  rfl

/-- Reading does not ask how short a list may get. -/
theorem parse_appends {s : Setting E} (left : List Value) :
    (appends min x).parse s left = (x.parse s ()).map fun v => left ++ [v] := by
  rw [appends, parse_fold]
  rfl

end Node
end Ambigram
