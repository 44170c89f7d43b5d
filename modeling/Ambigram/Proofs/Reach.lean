import Ambigram.Proofs.Appending
import Ambigram.Proofs.Minimum
import Ambigram.Proofs.Misses
import Mathlib.Data.List.Induction
import Mathlib.Order.Bounds.Basic
/-!
# The reach of list printing

Elements that are appended to a list are printed off its end, and printing stops in front of the first one, from the
right, that has nothing to print or that belongs to those the list must keep.  So there is an index from which on a list
is printed, and it says all there is to say about a repetition of the element, with a minimum or without.
-/
namespace Ambigram

variable {E : Type} {ds : Definitions E} {env : E} {x : Parser E .value} {m : Nat} {v : Value} {vs front : List Value}

namespace Node

/-- What the parser comes to for the value is no error. -/
def Settles (ds : Definitions E) (env : E) (x : Parser E .value) (v : Value) : Prop :=
  ∃ o, x.Prints ds env v o ∧ ∀ e, o ≠ .fail e

theorem Settles.printable_or (h : x.Settles ds env v) : x.Printable ds env v ∨ x.Prints ds env v .miss := by
  obtain ⟨o, ho, hfail⟩ := h
  cases o with
  | hit a =>
    obtain ⟨⟨⟩, tree⟩ := a
    exact .inl ⟨tree, ho⟩
  | miss => exact .inr ho
  | fail e => exact absurd rfl (hfail e)

theorem Printable.not_miss (h : x.Printable ds env v) : ¬ x.Prints ds env v .miss := by
  intro hmiss
  obtain ⟨tree, htree⟩ := h
  obtain ⟨n, hn, hn'⟩ := (hmiss.and htree).exists
  cases hn.symm.trans hn'

/-- The indices that a list may be cut at: what has to stay is in front, and everything behind has a tree. -/
def Cuts (ds : Definitions E) (env : E) (m : Nat) (x : Parser E .value) (vs : List Value) : Set Nat :=
  {k | min m vs.length ≤ k ∧ ∀ w ∈ vs.drop k, x.Printable ds env w}

theorem length_mem_cuts (vs : List Value) : vs.length ∈ Cuts ds env m x vs :=
  ⟨Nat.min_le_right m vs.length, by simp⟩

/-- A last value that prints moves no cut to its left. -/
theorem isLeast_cuts_snoc {k : Nat} (hmin : m ≤ front.length) (hv : x.Printable ds env v)
    (h : IsLeast (Cuts ds env m x front) k) : IsLeast (Cuts ds env m x (front ++ [v])) k := by
  have hk : k ≤ front.length := h.2 (length_mem_cuts front)
  have hlen : (front ++ [v]).length = front.length + 1 := by simp
  obtain ⟨⟨hkmin, hkback⟩, hleast⟩ := h
  constructor
  · refine ⟨by rw [hlen]; omega, fun w hw => ?_⟩
    rw [List.drop_append_of_le_length hk] at hw
    obtain hw | hw := List.mem_append.1 hw
    · exact hkback w hw
    · rwa [List.mem_singleton.1 hw]
  · rintro j ⟨hjmin, hjback⟩
    by_cases hj : j ≤ front.length
    · rw [List.drop_append_of_le_length hj] at hjback
      exact hleast ⟨by rw [hlen] at hjmin; omega, fun w hw => hjback w (List.mem_append_left _ hw)⟩
    · omega

/-- Where the last value has nothing to print, or has to stay, no cut is in front of it. -/
theorem isLeast_cuts_length (h : front.length < m ∨ ¬ x.Printable ds env v) :
    IsLeast (Cuts ds env m x (front ++ [v])) (front ++ [v]).length := by
  have hlen : (front ++ [v]).length = front.length + 1 := by simp
  refine ⟨length_mem_cuts _, ?_⟩
  rintro j ⟨hjmin, hjback⟩
  by_contra hj
  have hjle : j ≤ front.length := by omega
  obtain hmin | hv := h
  · rw [hlen] at hjmin
    omega
  · rw [List.drop_append_of_le_length hjle] at hjback
    exact hv (hjback v (List.mem_append_right _ (List.mem_singleton_self v)))

/-! ## Unwinding a list -/

theorem appends_prints_miss (h : vs.length ≤ m) : (appends m x).Prints ds env vs .miss :=
  .of_forall fun _ => takesLast_appends.miss h

theorem appends_prints_snoc {o : Outcome (Unit × Tree)} (hmin : m ≤ front.length) (h : x.Prints ds env v o) :
    (appends m x).Prints ds env (front ++ [v]) (o.map fun (_, tree) => (front, tree)) := by
  filter_upwards [h] with n hn
  rw [takesLast_appends.snoc hmin, hn]

/-- A list unwinds down to its least cut. -/
theorem exists_unwinds (vs : List Value) : (∀ w ∈ vs, x.Settles ds env w) → ∃ k trees,
    IsLeast (Cuts ds env m x vs) k ∧
    List.Forall₂ (fun w tree => x.Prints ds env w (.hit ((), tree))) (vs.drop k) trees ∧
    (appends m x).Unwinds ds env vs (vs.take k) trees := by
  induction vs using List.reverseRecOn with
  | nil =>
    intro _
    exact ⟨0, [], ⟨length_mem_cuts [], fun j _ => Nat.zero_le j⟩, .nil, .done (appends_prints_miss (Nat.zero_le m))⟩
  | append_singleton front v ih =>
    intro h
    have stays (hlast : front.length < m ∨ ¬ x.Printable ds env v)
        (hmiss : (appends m x).Prints ds env (front ++ [v]) .miss) : ∃ k trees,
        IsLeast (Cuts ds env m x (front ++ [v])) k ∧
        List.Forall₂ (fun w tree => x.Prints ds env w (.hit ((), tree))) ((front ++ [v]).drop k) trees ∧
        (appends m x).Unwinds ds env (front ++ [v]) ((front ++ [v]).take k) trees := by
      refine ⟨_, [], isLeast_cuts_length hlast, ?_, ?_⟩
      · rw [List.drop_length]
        exact .nil
      · rw [List.take_length]
        exact .done hmiss
    by_cases hmin : front.length < m
    · exact stays (.inl hmin) (appends_prints_miss (by rw [List.length_append]; exact hmin))
    have hmin : m ≤ front.length := Nat.le_of_not_lt hmin
    obtain ⟨tree, htree⟩ | hmiss := (h v (by simp)).printable_or
    · obtain ⟨k, trees, hk, htrees, hunwinds⟩ := ih fun w hw => h w (List.mem_append_left _ hw)
      have hle : k ≤ front.length := hk.2 (length_mem_cuts front)
      refine ⟨k, trees ++ [tree], isLeast_cuts_snoc hmin ⟨tree, htree⟩ hk, ?_, ?_⟩
      · rw [List.drop_append_of_le_length hle]
        exact List.rel_append htrees (.cons htree .nil)
      · rw [List.take_append_of_le_length hle]
        exact .more (appends_prints_snoc hmin htree) hunwinds
    · exact stays (.inr fun hv => hv.not_miss hmiss) (appends_prints_snoc hmin hmiss)

/-! ## Printing a list -/

/-- The matches that have to be there print what there is, if it is so many. -/
theorem consecutive_prints {t : Shape} {x : Reducer E t t} {v left : t.Carrier} {trees : List Tree} {n : Nat}
    (h : x.Unwinds ds env v left trees) (hn : trees.length = n + 1) :
    (x.consecutive n).Prints ds env v (.hit (left, trees.foldl Tree.append .empty)) := by
  filter_upwards [h.eventually] with budget hpeeled
  rw [print_consecutive, ← hn, hpeeled.1.takeOff_eq_hit]

end Node

/-- **A list is printed from its least cut on.**  Where printing an element raises no error, there is a least index from
which on all elements print and in front of which is what has to stay, or all of the list.  A repetition prints the
elements from there on, in their order, and leaves those in front.  With a minimum it prints the list if there are so
many elements behind the index, and then it leaves the same and comes to the same text; with fewer it does not print it.
If there are exactly so many, those that have to be there print them all, and nothing is left for the repetition. -/
theorem list_printed_from_cut (ds : Definitions E) (env : E) (x : Parser E .value) (m : Nat) (vs : List Value)
    (h : ∀ w ∈ vs, x.Settles ds env w) :
    ∃ k trees, IsLeast (Node.Cuts ds env m x vs) k ∧ k ≤ vs.length ∧
      List.Forall₂ (fun w tree => x.Prints ds env w (.hit ((), tree))) (vs.drop k) trees ∧
      (Node.rep (Node.appends m x)).Prints ds env vs (.hit (vs.take k, .concat trees)) ∧
      ∀ n,
        (n ≤ vs.length - k → ∃ tree, (Node.atLeast n (Node.appends m x)).Prints ds env vs (.hit (vs.take k, tree)) ∧
          ∀ {σ : Type} (layout : Layout σ) (out : σ), tree.render layout out = (Tree.concat trees).render layout out) ∧
        (vs.length - k < n → (Node.atLeast n (Node.appends m x)).Prints ds env vs .miss) ∧
        (vs.length - k = n + 1 →
          (∃ tree, ((Node.appends m x).consecutive n).Prints ds env vs (.hit (vs.take k, tree)) ∧
            ∀ {σ : Type} (layout : Layout σ) (out : σ), tree.render layout out = (Tree.concat trees).render layout out) ∧
          (Node.rep (Node.appends m x)).Prints ds env (vs.take k) (.hit (vs.take k, .concat []))) := by
  obtain ⟨k, trees, hk, htrees, hunwinds⟩ := Node.exists_unwinds vs h
  have hlen : vs.length - k = trees.length := by rw [← List.length_drop, htrees.length_eq]
  refine ⟨k, trees, hk, hk.2 (Node.length_mem_cuts vs), htrees, hunwinds.rep_prints, fun n => ?_⟩
  rw [hlen]
  refine ⟨hunwinds.exists_atLeast_prints, hunwinds.atLeast_prints_miss,
    fun hn => ⟨⟨_, Node.consecutive_prints hunwinds hn, ?_⟩, ?_⟩⟩
  · intro σ layout out
    rw [Tree.render_foldl_append, Tree.render_concat]
    rfl
  · exact (Node.Unwinds.done hunwinds.left_prints_miss).rep_prints

/-- A number is no word, so printing stops behind it, and there is one word but no two. -/
theorem list_printed_from_cut_words :
    let vs : List Value := [.string "b", .int 5, .string "a"]
    (∀ w ∈ vs, Nested.word.Settles Nested.definitions () w) ∧
    (Node.rep Nested.words).Prints Nested.definitions () vs (.hit ([.string "b", .int 5], .concat [.text "a"])) ∧
    (∃ tree, (Node.atLeast 1 Nested.words).Prints Nested.definitions () vs (.hit ([.string "b", .int 5], tree)) ∧
      tree.render .plain "" = "a") ∧
    (Node.atLeast 2 Nested.words).Prints Nested.definitions () vs .miss := by
  intro vs
  have hb : Nested.word.Prints Nested.definitions () (.string "b") (.hit ((), .text "b")) :=
    Node.prints_of_print (n := 0) rfl (by simp)
  have hnumber : Nested.word.Prints Nested.definitions () (.int 5) .miss := Node.prints_of_print (n := 0) rfl (by simp)
  have ha : Nested.word.Prints Nested.definitions () (.string "a") (.hit ((), .text "a")) :=
    Node.prints_of_print (n := 0) rfl (by simp)
  have hsettles : ∀ w ∈ vs, Nested.word.Settles Nested.definitions () w := by
    simpa [vs, Node.Settles] using And.intro ⟨_, hb, by simp⟩ (And.intro ⟨_, hnumber, by simp⟩ ⟨_, ha, by simp⟩)
  have hcut : IsLeast (Node.Cuts Nested.definitions () 0 Nested.word vs) 2 := by
    refine ⟨⟨Nat.zero_le 2, by simpa [vs] using ⟨_, ha⟩⟩, ?_⟩
    rintro j ⟨-, hback⟩
    by_contra hj
    have hmem : Value.int 5 ∈ vs.drop j := by
      obtain rfl | rfl : j = 0 ∨ j = 1 := by omega
      all_goals simp [vs]
    exact (hback _ hmem).not_miss hnumber
  obtain ⟨k, trees, hk, -, htrees, hrep, hmin⟩ :=
    list_printed_from_cut Nested.definitions () Nested.word 0 vs hsettles
  obtain rfl := hk.unique hcut
  obtain ⟨tree, rfl, htree⟩ : ∃ tree, trees = [tree] ∧
      Nested.word.Prints Nested.definitions () (.string "a") (.hit ((), tree)) := by
    cases htrees with
    | cons head tail =>
      cases tail
      exact ⟨_, rfl, head⟩
  obtain ⟨n, hn, hn'⟩ := (htree.and ha).exists
  cases hn.symm.trans hn'
  obtain ⟨tree, hone, hrender⟩ := (hmin 1).1 (by decide)
  exact ⟨hsettles, hrep, ⟨tree, hone, hrender .plain ""⟩, (hmin 2).2.1 (by decide)⟩

end Ambigram
