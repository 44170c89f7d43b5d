import Ambigram.Grammar.Print
import Mathlib.Data.List.Forall2
import Mathlib.Order.Filter.AtTopBot.Basic
/-!
# The budget of printing

More budget never changes an answer that was reached.  So an answer belongs to the node and the value: it is
what printing comes to for every budget that is large enough, and a smaller one comes to the same or runs out.
-/
namespace Ambigram

variable {E α β : Type}

/-! ## Outcomes that grow -/

/-- The second outcome is what the first one would have been with more budget. -/
def Outcome.Grows (o o' : Outcome α) : Prop := o = .fail .budgetExhausted ∨ o' = o

namespace Outcome.Grows

variable {o o' p p' : Outcome α} {f g : α → Outcome β}

theorem refl (o : Outcome α) : Grows o o := .inr rfl

theorem map (f : α → β) (h : Grows o o') : Grows (o.map f) (o'.map f) := by
  rcases h with rfl | rfl
  · exact .inl rfl
  · exact refl _

theorem andThen (h : Grows o o') (hf : ∀ a, Grows (f a) (g a)) : Grows (o.andThen f) (o'.andThen g) := by
  rcases h with rfl | rfl
  · exact .inl rfl
  cases o' with
  | hit a => exact hf a
  | miss => exact refl _
  | fail e => exact refl _

theorem orElse (h : Grows o o') (k : Grows p p') : Grows (o.orElse p) (o'.orElse p') := by
  rcases h with rfl | rfl
  · exact .inl rfl
  cases o' with
  | hit a => exact refl _
  | miss => exact k
  | fail e => exact refl _

variable {element element' : α → Outcome (α × Tree)}

open Print

theorem peel (h : ∀ v, Grows (element v) (element' v)) : ∀ (n m : Nat) (v : α) (trees : List Tree), n ≤ m →
    Grows (peel element n v trees) (peel element' m v trees)
  | 0, _, _, _, _ => .inl rfl
  | n + 1, 0, _, _, hnm => absurd hnm (by omega)
  | n + 1, m + 1, v, trees, hnm => by
    unfold Print.peel
    rcases h v with hv | hv
    · rw [hv]
      exact .inl rfl
    rw [hv]
    cases element v with
    | hit q => exact peel h n m q.1 (q.2 :: trees) (by omega)
    | miss => exact refl _
    | fail e => exact refl _

theorem takeOff (h : ∀ v, Grows (element v) (element' v)) : ∀ (n : Nat) (v : α),
    Grows (takeOff element n v) (takeOff element' n v)
  | 0, _ => refl _
  | n + 1, v => (h v).andThen fun q => (takeOff h n q.1).map _

end Outcome.Grows

/-! ## Nodes -/

open Outcome (Grows)

variable {ds : Definitions E} {env : E} {a : Option Shape} {t : Shape}

theorem Node.printWith_grows {onRef onRef' : (t : Shape) → String → t.Carrier → Outcome Tree}
    (href : ∀ t name v, Grows (onRef t name v) (onRef' t name v)) {n m : Nat} (hnm : n ≤ m) (x : Node E a t) :
    ∀ v, Grows (x.printWith onRef env n v) (x.printWith onRef' env m v) := by
  induction x with
  | scan id exclusive label mapping => exact fun v => .refl _
  | initial value => exact fun v => .refl _
  | emptyList => exact fun v => .refl _
  | ref name => exact fun v => (href _ name v).map _
  | fold p f ih => exact fun v => (Grows.refl _).andThen fun left => (Grows.refl _).andThen fun right => (ih right).map _
  | map mapping => exact fun v => .refl _
  | seq b x y ihx ihy => exact fun v => (ihy v).andThen fun q => (ihx q.1).map _
  | before b r x ih => exact fun v => (ih v).map _
  | after b x r ih => exact fun v => (ih v).map _
  | choice x y ihx ihy => exact fun v => (ihx v).orElse (ihy v)
  | rep x ih => exact fun v => (Grows.peel ih n m v [] hnm).map _
  | opt x ih => exact fun v => (ih v).orElse (.refl _)
  | atLeast k x ih => exact fun v => (Grows.takeOff ih k v).andThen fun q => (Grows.peel ih n m q.1 [] hnm).map _
  | join nonEmpty sep x ih => exact fun v => (Grows.peel ih n m v [] hnm).andThen fun q => .refl _
  | annotate c x ih => exact fun v => (ih v).map _

theorem Definitions.printRef_grows (name : String) {deeper deeper' : Option (Parser E t → Outcome Tree)}
    (h : ∀ print ∈ deeper, ∃ print' ∈ deeper', ∀ p, Grows (print p) (print' p)) :
    Grows (ds.printRef t name deeper) (ds.printRef t name deeper') := by
  unfold printRef
  cases ds.target t name with
  | none => exact .refl _
  | some p =>
    cases deeper with
    | none => exact .inl rfl
    | some print =>
      obtain ⟨print', hprint', hp⟩ := h print rfl
      cases hprint'
      exact hp p

theorem Node.print_grows : ∀ (n m : Nat) {a : Option Shape} {t : Shape} (x : Node E a t) (v : t.Carrier), n ≤ m →
    Grows (x.print ds env n v) (x.print ds env m v)
  | 0, m, _, _, x, v, hnm => by
    rw [print_eq, print_eq]
    refine x.printWith_grows (fun t name v => ?_) hnm v
    cases m <;> exact Definitions.printRef_grows name fun print hprint => by cases hprint
  | n + 1, 0, _, _, _, _, hnm => absurd hnm (by omega)
  | n + 1, m + 1, _, _, x, v, hnm => by
    rw [print_eq, print_eq]
    refine x.printWith_grows (fun t name v => Definitions.printRef_grows name fun print hprint => ?_) hnm v
    cases hprint
    exact ⟨_, rfl, fun p => (print_grows n m p v (by omega)).map _⟩

/-! ## Answers -/

/-- What printing a value comes to with every budget that is large enough. -/
def Node.Prints (ds : Definitions E) (env : E) (x : Node E a t) (v : t.Carrier) (o : Outcome (Start a × Tree)) : Prop :=
  ∀ᶠ budget in Filter.atTop, x.print ds env budget v = o

/-- The parser has a tree for the value. -/
def Node.Printable (ds : Definitions E) (env : E) (x : Parser E t) (v : t.Carrier) : Prop :=
  ∃ tree, x.Prints ds env v (.hit ((), tree))

variable {x : Node E a t} {v : t.Carrier} {o : Outcome (Start a × Tree)} {n : Nat}

/-- **An answer stays.** -/
theorem Node.prints_of_print (h : x.print ds env n v = o) (ho : o ≠ .fail .budgetExhausted) : x.Prints ds env v o := by
  refine Filter.eventually_atTop.2 ⟨n, fun m hnm => ?_⟩
  subst h
  exact (x.print_grows n m v hnm).resolve_left ho

theorem exists_forall₂_iff {R : α → β → Prop} {l : List α} : (∃ k, List.Forall₂ R l k) ↔ ∀ a ∈ l, ∃ b, R a b := by
  induction l with
  | nil => simp
  | cons a l ih => simp [List.forall₂_cons_left_iff, ← ih]

/-- One budget is large enough for a list of answers. -/
theorem eventually_forall₂ {R : Nat → α → β → Prop} {l : List α} {k : List β}
    (h : List.Forall₂ (fun a b => ∀ᶠ n in Filter.atTop, R n a b) l k) : ∀ᶠ n in Filter.atTop, List.Forall₂ (R n) l k := by
  induction h with
  | nil => exact .of_forall fun _ => .nil
  | cons hab _ ih =>
    filter_upwards [hab, ih] with n hab hrest
    exact .cons hab hrest

/-- A budget that is too small for the answer runs out, and there is nothing else it can come to. -/
theorem Node.Prints.print_eq_or (h : x.Prints ds env v o) (n : Nat) :
    x.print ds env n v = o ∨ x.print ds env n v = .fail .budgetExhausted := by
  obtain ⟨m, hm⟩ := Filter.eventually_atTop.1 h
  rw [← hm (max n m) (Nat.le_max_right n m)]
  exact (x.print_grows n _ v (Nat.le_max_left n m)).symm.imp Eq.symm id

end Ambigram
