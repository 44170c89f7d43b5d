import Ambigram.Proofs.Budget
import Ambigram.Proofs.Derivation
import Ambigram.Proofs.Peeling
/-!
# Unwinding values

A repetition is printed by taking elements off its value, the last one first, until the element has nothing to print.
Where that comes to an end it is a chain of values, and the chain says all there is to say about what the repetition
prints, with a minimum, with separators or without either.
-/
namespace Ambigram

variable {E : Type} {ds : Definitions E} {env : E} {t : Shape} {x : Reducer E t t} {v left : t.Carrier}
  {trees : List Tree}

/-- The node prints these trees off a value, from the last to the first, and nothing off what is left. -/
inductive Node.Unwinds (ds : Definitions E) (env : E) (x : Reducer E t t) : t.Carrier → t.Carrier → List Tree → Prop
  | done {v : t.Carrier} (h : x.Prints ds env v .miss) : Unwinds ds env x v v []
  | more {v mid left : t.Carrier} {tree : Tree} {trees : List Tree} (last : x.Prints ds env v (.hit (mid, tree)))
    (front : Unwinds ds env x mid left trees) : Unwinds ds env x v left (trees ++ [tree])

namespace Node.Unwinds

open Print

theorem left_prints_miss (h : x.Unwinds ds env v left trees) : x.Prints ds env left .miss := by
  induction h with
  | done h => exact h
  | more _ _ ih => exact ih

/-- One budget is enough for all values of a chain. -/
theorem eventually (h : x.Unwinds ds env v left trees) : ∀ᶠ n in Filter.atTop,
    Peeled (x.print ds env n) left trees v ∧ x.print ds env n left = .miss := by
  induction h with
  | done h =>
    filter_upwards [h] with n h
    exact ⟨.nil _, h⟩
  | more last _ ih =>
    filter_upwards [last, ih] with n hlast hfront
    exact ⟨hfront.1.snoc hlast, hfront.2⟩

theorem eventually_peel (h : x.Unwinds ds env v left trees) : ∀ᶠ n in Filter.atTop,
    peel (x.print ds env n) n v [] = .hit (left, trees) := by
  filter_upwards [h.eventually, Filter.eventually_gt_atTop trees.length] with n hpeeled hn
  exact hpeeled.1.peel_eq_hit hpeeled.2 hn

theorem rep_prints (h : x.Unwinds ds env v left trees) :
    (Node.rep x).Prints ds env v (.hit (left, .concat trees)) := by
  filter_upwards [h.eventually_peel] with n hpeel
  rw [print_rep, hpeel]
  rfl

/-! ## With a minimum -/

theorem atLeast_prints_miss (h : x.Unwinds ds env v left trees) {n : Nat} (hn : trees.length < n) :
    (Node.atLeast n x).Prints ds env v .miss := by
  filter_upwards [h.eventually] with budget hpeeled
  rw [print_atLeast, hpeeled.1.takeOff_eq_miss hpeeled.2 hn]
  rfl

/-- The elements that have to be there are taken off first, which makes them the last ones. -/
theorem atLeast_prints {front back : List Tree} (h : x.Unwinds ds env v left (front ++ back)) :
    (Node.atLeast back.length x).Prints ds env v
      (.hit (left, (Tree.concat front).append (back.foldl Tree.append .empty))) := by
  filter_upwards [h.eventually, Filter.eventually_gt_atTop front.length] with budget hpeeled hbudget
  obtain ⟨mid, hfront, hback⟩ := hpeeled.1.split
  rw [print_atLeast, hback.takeOff_eq_hit]
  show (peel (x.print ds env budget) budget mid []).map _ = _
  rw [hfront.peel_eq_hit hpeeled.2 hbudget]
  rfl

/-! ## With separators -/

theorem join_prints (h : x.Unwinds ds env v left trees) (q : Recognizer) (nonEmpty : Bool) :
    (Node.join nonEmpty q x).Prints ds env v
      (if nonEmpty && trees.isEmpty then .miss else .hit (left, .concat (intersperse q.print trees))) := by
  filter_upwards [h.eventually_peel] with n hpeel
  rw [print_join, hpeel]
  rfl

end Node.Unwinds

/-! ## The trees in a layout -/

namespace Tree

variable {σ : Type} (layout : Layout σ)

theorem render_foldl_append : ∀ (ts : List Tree) (front : Tree) (out : σ),
    (ts.foldl Tree.append front).render layout out = renderAll layout ts (front.render layout out)
  | [], _, _ => rfl
  | t :: ts, front, out => by
    rw [List.foldl_cons, render_foldl_append ts, render_append]
    rfl

/-- However trees are put together, they are rendered one after another. -/
theorem render_concat_append (front back : List Tree) (out : σ) :
    ((concat front).append (back.foldl Tree.append .empty)).render layout out = renderAll layout (front ++ back) out := by
  rw [render_append, render_concat, render_foldl_append, renderAll_append]
  rfl

end Tree

/-- If there are so many, they are printed as a repetition prints them. -/
theorem Node.Unwinds.exists_atLeast_prints (h : x.Unwinds ds env v left trees) {n : Nat} (hn : n ≤ trees.length) :
    ∃ tree, (Node.atLeast n x).Prints ds env v (.hit (left, tree)) ∧
      ∀ {σ : Type} (layout : Layout σ) (out : σ), tree.render layout out = (Tree.concat trees).render layout out := by
  -- the last ones are those that have to be there
  obtain ⟨front, back, rfl, rfl⟩ : ∃ front back, trees = front ++ back ∧ n = back.length :=
    ⟨_, _, (List.take_append_drop (trees.length - n) trees).symm, by rw [List.length_drop]; omega⟩
  refine ⟨_, h.atLeast_prints, fun layout out => ?_⟩
  rw [Tree.render_concat_append, Tree.render_concat]

/-! ## Words

Two words in a list, which the proofs further on unwind. -/

namespace Nested

/-- A word at the end of a list. -/
def words : Reducer Unit .list .list := .fold word (.append 0)

theorem unwinds_words : words.Unwinds definitions () [.string "a", .string "a"] [] [.text "a", .text "a"] := by
  have hlast : words.Prints definitions () [.string "a", .string "a"] (.hit ([.string "a"], .text "a")) :=
    Node.prints_of_print (n := 0) rfl (by simp)
  have hfirst : words.Prints definitions () [.string "a"] (.hit ([], .text "a")) :=
    Node.prints_of_print (n := 0) rfl (by simp)
  have hnone : words.Prints definitions () [] .miss := Node.prints_of_print (n := 0) rfl (by simp)
  exact .more hlast (.more hfirst (.done hnone))

end Nested
end Ambigram
