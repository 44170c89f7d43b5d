import Ambigram.Proofs.Derivation
import Ambigram.Proofs.Peeling
/-!
# Printing is sound

What a node prints for a value derives that value, from the accumulator that printing hands back.  It takes
two things: folds and mappings that only undo what they can do again, and canonical texts that are texts of
their tokens.
-/
namespace Ambigram

variable {E : Type}

/-! ## What is asked of a grammar -/

/-- Wherever both inverses give something, applying the fold to it gives the value back. -/
def Fold.Reapplies {α β γ : Type} (env : E) (f : Fold E α β γ) : Prop :=
  ∀ x l r, f.left env x = .hit l → f.right env x = .hit r → f.apply env l r = .ok x

def Mapping.Reapplies {α β : Type} (env : E) (m : Mapping E α β) : Prop :=
  ∀ x y, m.undo env x = .hit y → m.apply env y = .ok x

/-- Every token is written as one of its texts, or not at all. -/
def Recognizer.Spelled (accepts : Accepts) : Recognizer → Prop
  | .token id exclusive text => text = "" ∨ id ≠ .endOfInput ∧ accepts id exclusive text
  | .seq _ x y | .choice x y => x.Spelled accepts ∧ y.Spelled accepts
  | .rep x | .opt _ x | .annotate _ x => x.Spelled accepts

def Node.Lawful (accepts : Accepts) (env : E) {a : Option Shape} {t : Shape} : Node E a t → Prop
  | .scan _ _ _ m => m.Reapplies env
  | .initial _ | .emptyList | .ref _ => True
  | .fold p f => p.Lawful accepts env ∧ f.Reapplies env
  | .map m => m.Reapplies env
  | .seq _ x y => x.Lawful accepts env ∧ y.Lawful accepts env
  | .before _ r x | .after _ x r | .join _ r x => r.Spelled accepts ∧ x.Lawful accepts env
  | .choice x y => x.Lawful accepts env ∧ y.Lawful accepts env
  | .rep x | .opt x | .atLeast _ x | .annotate _ x => x.Lawful accepts env

def Definitions.Lawful (accepts : Accepts) (env : E) (ds : Definitions E) : Prop :=
  ∀ t name p, ds.target t name = some p → p.Lawful accepts env

/-! ## Recognizers -/

theorem Recognizer.derives_print {accepts : Accepts} :
    ∀ {r : Recognizer}, r.Spelled accepts → r.Derives accepts r.print.texts
  | .token id exclusive text, h => by
    unfold print
    by_cases ht : text = ""
    · subst ht
      exact .blank
    · obtain ⟨hid, ha⟩ := h.resolve_left ht
      rw [if_neg (by simpa using ht), Tree.texts_text]
      exact .token hid ha
  | .seq _ x y, h => by
    rw [print, Tree.texts_append]
    exact .seq (derives_print h.1) (derives_print h.2)
  | .choice x y, h => .first (derives_print h.1)
  | .rep x, _ => .repNone
  | .opt always x, h => by
    cases always with
    | false => exact .optNone
    | true => exact .optOne (derives_print h)
  | .annotate c x, h => .annotate (derives_print h)

/-! ## Repetitions -/

section Loops

variable {accepts : Accepts} {ds : Definitions E} {env : E} {s : Shape} {x : Reducer E s s}
  {element : s.Carrier → Outcome (s.Carrier × Tree)} {left v : s.Carrier} {ts : List Tree}

open Print

theorem Print.Peeled.derives_rep
    (hx : ∀ v left tree, element v = .hit (left, tree) → x.Derives accepts ds env left tree.texts v)
    (h : Peeled element left ts v) : (Node.rep x).Derives accepts ds env left (ts.flatMap Tree.texts) v := by
  induction h with
  | nil v => exact .repNone
  | cons head _ ih => exact .repMore (hx _ _ _ head) ih

theorem Print.Peeled.derives_atLeast
    (hx : ∀ v left tree, element v = .hit (left, tree) → x.Derives accepts ds env left tree.texts v)
    (h : Peeled element left ts v) :
    ∀ n, n ≤ ts.length → (Node.atLeast n x).Derives accepts ds env left (ts.flatMap Tree.texts) v := by
  induction h with
  | nil v => intro n hn; cases Nat.le_zero.1 hn; exact .atLeastZero .repNone
  | cons head tail ih =>
    intro n hn
    cases n with
    | zero => exact .atLeastZero (.repMore (hx _ _ _ head) (tail.derives_rep hx))
    | succ n => exact .atLeastMore (hx _ _ _ head) (ih n (Nat.le_of_succ_le_succ hn))

theorem Print.Peeled.derives_join {sep : Recognizer} {separator : Tree} (hsep : sep.Derives accepts separator.texts)
    (hx : ∀ v left tree, element v = .hit (left, tree) → x.Derives accepts ds env left tree.texts v)
    (h : Peeled element left ts v) (hne : ts ≠ []) (nonEmpty : Bool) :
    (Node.join nonEmpty sep x).Derives accepts ds env left ((intersperse separator ts).flatMap Tree.texts) v := by
  induction h generalizing nonEmpty with
  | nil v => exact absurd rfl hne
  | @cons left mid v t ts head tail ih =>
    cases ts with
    | nil =>
      cases tail
      simpa [intersperse] using Node.Derives.joinOne (hx _ _ _ head)
    | cons u us =>
      have h : (Node.join nonEmpty sep x).Derives accepts ds env left _ v :=
        .joinMore (hx _ _ _ head) hsep (ih (by simp) true)
      simpa [intersperse] using h

end Loops

/-! ## Nodes -/

section Nodes

variable {accepts : Accepts} {ds : Definitions E} {env : E}

open Print

theorem Node.printWith_derives {onRef : (t : Shape) → String → t.Carrier → Outcome Tree} {turns : Nat}
    (href : ∀ t name v tree, onRef t name v = .hit tree →
      (Node.ref name : Parser E t).Derives accepts ds env () tree.texts v)
    {a : Option Shape} {t : Shape} (x : Node E a t) (hx : x.Lawful accepts env) :
    ∀ {v : t.Carrier} {left : Start a} {tree : Tree}, x.printWith onRef env turns v = .hit (left, tree) →
      x.Derives accepts ds env left tree.texts v := by
  induction x with
  | scan id exclusive label m =>
    intro v left tree h
    obtain ⟨text, hu, h⟩ := Outcome.map_eq_hit.1 h
    cases h
    rw [Tree.texts_text]
    exact .scan (hx v text hu)
  | initial value =>
    intro v left tree h
    rw [printWith] at h
    split at h
    · rename_i hv
      cases h
      subst hv
      exact .initial v
    · cases h
  | emptyList =>
    intro v left tree h
    rw [printWith] at h
    split at h
    · rename_i hv
      cases h
      rw [List.isEmpty_iff.1 hv]
      exact .emptyList
    · cases h
  | ref name =>
    intro v left tree h
    obtain ⟨tree', hr, h⟩ := Outcome.map_eq_hit.1 h
    cases h
    exact href _ name v tree hr
  | fold p f ih =>
    intro v left tree h
    obtain ⟨l, hl, h⟩ := Outcome.andThen_eq_hit.1 h
    obtain ⟨r, hr, h⟩ := Outcome.andThen_eq_hit.1 h
    obtain ⟨⟨_, tree'⟩, hp, h⟩ := Outcome.map_eq_hit.1 h
    cases h
    exact .fold (ih hx.1 hp) (hx.2 v left r hl hr)
  | map m =>
    intro v left tree h
    obtain ⟨l, hu, h⟩ := Outcome.map_eq_hit.1 h
    cases h
    exact .map (hx v left hu)
  | seq b x y ihx ihy =>
    intro v left tree h
    obtain ⟨⟨mid, second⟩, hy, h⟩ := Outcome.andThen_eq_hit.1 h
    obtain ⟨⟨l, first⟩, hm, h⟩ := Outcome.map_eq_hit.1 h
    cases h
    rw [Tree.texts_append]
    exact .seq (ihx hx.1 hm) (ihy hx.2 hy)
  | before b r x ih =>
    intro v left tree h
    obtain ⟨⟨l, tree'⟩, hp, h⟩ := Outcome.map_eq_hit.1 h
    cases h
    rw [Tree.texts_append]
    exact .before (Recognizer.derives_print hx.1) (ih hx.2 hp)
  | after b x r ih =>
    intro v left tree h
    obtain ⟨⟨l, tree'⟩, hp, h⟩ := Outcome.map_eq_hit.1 h
    cases h
    rw [Tree.texts_append]
    exact .after (ih hx.2 hp) (Recognizer.derives_print hx.1)
  | choice x y ihx ihy =>
    intro v left tree h
    rcases Outcome.orElse_eq_hit.1 h with h | ⟨-, h⟩
    · exact .first (ihx hx.1 h)
    · exact .second (ihy hx.2 h)
  | rep x ih =>
    intro v left tree h
    obtain ⟨⟨l, trees⟩, hp, h⟩ := Outcome.map_eq_hit.1 h
    cases h
    obtain ⟨ts, rfl, hts, -⟩ := peel_eq_hit hp
    rw [List.append_nil, Tree.texts_concat]
    exact hts.derives_rep fun _ _ _ => ih hx
  | opt x ih =>
    intro v left tree h
    rcases Outcome.orElse_eq_hit.1 h with h | ⟨-, h⟩
    · exact .optOne (ih hx h)
    · cases h
      exact .optNone
  | atLeast n x ih =>
    intro v left tree h
    obtain ⟨⟨mid, last⟩, hm, h⟩ := Outcome.andThen_eq_hit.1 h
    obtain ⟨⟨l, trees⟩, hp, h⟩ := Outcome.map_eq_hit.1 h
    cases h
    obtain ⟨us, hlen, hlast, hus⟩ := takeOff_eq_hit hm
    obtain ⟨ts, rfl, hts, -⟩ := peel_eq_hit hp
    rw [List.append_nil, Tree.texts_append, Tree.texts_concat, hlast, ← List.flatMap_append]
    -- the elements of both parts are one row, and the last `n` of it are there for certain
    exact (hts.append hus).derives_atLeast (fun _ _ _ => ih hx) n (by simp [hlen])
  | join nonEmpty sep x ih =>
    intro v left tree h
    obtain ⟨⟨l, trees⟩, hp, h⟩ := Outcome.andThen_eq_hit.1 h
    obtain ⟨ts, rfl, hts, -⟩ := peel_eq_hit hp
    rw [List.append_nil] at h
    dsimp only at h
    split at h
    · cases h
    rename_i hne
    cases h
    rw [Tree.texts_concat]
    by_cases he : ts = []
    · subst he
      cases hts
      have : nonEmpty = false := by simpa using hne
      subst this
      exact .joinNone
    · exact hts.derives_join (Recognizer.derives_print hx.1) (fun _ _ _ => ih hx.2) he nonEmpty
  | annotate c x ih =>
    intro v left tree h
    obtain ⟨⟨l, tree'⟩, hp, h⟩ := Outcome.map_eq_hit.1 h
    cases h
    rw [Tree.texts_annotate]
    exact .annotate (ih hx hp)

theorem Node.derives_of_print (hds : ds.Lawful accepts env) : ∀ (n : Nat) {a : Option Shape} {t : Shape} (x : Node E a t)
    {v : t.Carrier} {left : Start a} {tree : Tree}, x.Lawful accepts env → x.print ds env n v = .hit (left, tree) →
    x.Derives accepts ds env left tree.texts v
  | 0, _, _, x, _, _, _, hx, h => by
    rw [print_eq] at h
    refine x.printWith_derives (fun t name v tree hr => ?_) hx h
    obtain ⟨p, print, -, hdeeper, -⟩ := Definitions.printRef_eq_hit.1 hr
    cases hdeeper
  | n + 1, _, _, x, _, _, _, hx, h => by
    rw [print_eq] at h
    refine x.printWith_derives (fun t name v tree hr => ?_) hx h
    obtain ⟨p, print, htarget, hdeeper, hp⟩ := Definitions.printRef_eq_hit.1 hr
    cases hdeeper
    obtain ⟨⟨_, tree'⟩, hp', heq⟩ := Outcome.map_eq_hit.1 hp
    cases heq
    exact .ref htarget (derives_of_print hds n p (hds t name p htarget) hp')

/-- **Printing is sound.**  The canonical text of a recognizer derives it.  What a node prints for a value derives
the value from the accumulator that is handed back, and the text of a printed value is made of such texts. -/
theorem print_derives (hds : ds.Lawful accepts env) :
    (∀ r : Recognizer, r.Spelled accepts → r.Derives accepts r.print.texts) ∧
    (∀ {a : Option Shape} {t : Shape} (x : Node E a t), x.Lawful accepts env →
      ∀ budget v left tree, x.print ds env budget v = .hit (left, tree) → x.Derives accepts ds env left tree.texts v) ∧
    (∀ {t : Shape} (p : Parser E t), p.Lawful accepts env →
      ∀ budget v text, p.printSource ds env budget v = .ok text →
        ∃ ts, text = String.join ts ∧ p.Derives accepts ds env () ts v) := by
  refine ⟨fun r => Recognizer.derives_print, fun x hx budget v left tree h => x.derives_of_print hds budget hx h, ?_⟩
  intro t p hp budget v text h
  unfold Node.printSource Node.printTree at h
  split at h
  · rename_i left tree hprint
    cases h
    exact ⟨tree.texts, tree.toSource_eq, p.derives_of_print hds budget hp hprint⟩
  · cases h
  · cases h

end Nodes

/-! ## Nested lists -/

theorem Fold.append_reapplies {α : Type} (env : E) (min : Nat) :
    (append min : Fold E (List α) α (List α)).Reapplies env := by
  intro x l r hl hr
  simp only [append] at hl hr ⊢
  split at hl
  · cases hl
  rename_i hx
  cases hl
  rw [if_neg hx] at hr
  cases hlast : x.getLast? with
  | none => rw [hlast] at hr; cases hr
  | some y =>
    rw [hlast] at hr
    cases hr
    obtain ⟨ys, rfl⟩ := List.getLast?_eq_some_iff.1 hlast
    rw [List.dropLast_concat]

theorem Mapping.wrap_reapplies (env : E) : (wrap : Mapping E (List Value) Value).Reapplies env := by
  intro x y h
  simp only [wrap] at h ⊢
  split at h
  · cases h
    rfl
  · cases h

theorem TextMapping.string_reapplies (env : E) : (string : Mapping E String Value).Reapplies env := by
  intro x y h
  simp only [string] at h ⊢
  split at h
  · cases h
    rfl
  · cases h

namespace Nested

theorem forall_target {P : ∀ t, Parser Unit t → Prop} (h : P .value nested) :
    ∀ t name p, definitions.target t name = some p → P t p
  | .value, name, p, hp => by
    simp only [definitions] at hp
    split at hp
    · cases hp
      exact h
    · cases hp

theorem nested_lawful : nested.Lawful accepts () :=
  ⟨.inr (by simp [accepts]), .inr (by simp [accepts]),
    ⟨trivial, .inr (by simp [accepts]), ⟨TextMapping.string_reapplies (), trivial⟩, Fold.append_reapplies () 0⟩,
    Mapping.wrap_reapplies ()⟩

theorem definitions_lawful : definitions.Lawful accepts () := forall_target nested_lawful

end Nested

/-- A list within a list, through the reference. -/
theorem print_derives_nested :
    Nested.definitions.Lawful Nested.accepts () ∧ Nested.nested.Lawful Nested.accepts () ∧
    Nested.nested.print Nested.definitions () 5 (.list [.list [], .string "a"]) =
      .hit ((), .sequence (["[", "[", "]", ",", "a", "]"].map .fragment)) ∧
    Nested.nested.Derives Nested.accepts Nested.definitions () () ["[", "[", "]", ",", "a", "]"]
      (.list [.list [], .string "a"]) := by
  have h : Nested.nested.print Nested.definitions () 5 (.list [.list [], .string "a"]) =
      .hit ((), .sequence (["[", "[", "]", ",", "a", "]"].map .fragment)) := by decide +kernel
  exact ⟨Nested.definitions_lawful, Nested.nested_lawful, h,
    (print_derives Nested.definitions_lawful).2.1 Nested.nested Nested.nested_lawful 5 _ _ _ h⟩

end Ambigram
