import Ambigram.Grammar.Parse
import Ambigram.Proofs.Alike
import Ambigram.Proofs.Lexemes
/-!
# Steps abreast

One step on one input and one on another, where both inputs have the same lexemes.  The cursors are abreast if they are
behind equally many lexemes.  Steps are abreast if they leave cursors abreast whenever they begin so, and come to
outcomes that are alike: errors point to places that correspond.

That is kept by every way of putting steps together.  A loop asks whether a turn has moved, and going on behind more
lexemes is to move in the one input as it is in the other.
-/
namespace Ambigram

open Outcome (Alike)

variable {α β γ δ : Type} {i i' : Input} {R : Error → Prop}

structure Cursor.Abreast (i i' : Input) (c c' : Cursor) : Prop where
  offset : i.Level i' c.offset c'.offset
  furthest : i.Level i' c.furthest c'.furthest
  fuel : c'.fuel = c.fuel
  depth : c'.depth = c.depth

/-- Syntax errors are the same but for their offsets, which are behind equally many lexemes, or before what comes next
there.  Any other error is the same, and so is one of the kind `R`. -/
inductive Error.Abreast (i i' : Input) (R : Error → Prop) : Error → Error → Prop
  | unexpectedInput {a a' : Nat} {expected : String} (h : i.Level i' a a') :
    Abreast i i' R (.unexpectedInput (i.skipTrivia a) expected) (.unexpectedInput (i'.skipTrivia a') expected)
  | trailingInput {a a' : Nat} (h : i.Level i' a a') :
    Abreast i i' R (.trailingInput (i.skipTrivia a)) (.trailingInput (i'.skipTrivia a'))
  | noMatch {a a' : Nat} {expected : String} (h : i.Level i' a a') :
    Abreast i i' R (.noMatch a expected) (.noMatch a' expected)
  | other {e : Error} (h : e.offset? = none ∨ R e) : Abreast i i' R e e

/-- From cursors abreast to outcomes that are alike and to cursors abreast. -/
def Step.Abreast (i i' : Input) (R : Error → Prop) (V : α → β → Prop) (x : Step α) (y : Step β) : Prop :=
  ∀ ⦃c c'⦄, Cursor.Abreast i i' c c' →
    Alike V (Error.Abreast i i' R) (x c).1 (y c').1 ∧ Cursor.Abreast i i' (x c).2 (y c').2

namespace Cursor.Abreast

variable {c c' d d' : Cursor}

theorem start (limits : Limits) : Abreast i i' (.start limits) (.start limits) := ⟨.zero, .zero, rfl, rfl⟩

theorem goTo (h : Abreast i i' d d') (hc : Abreast i i' c c') : Abreast i i' (d.goTo c.offset) (d'.goTo c'.offset) :=
  { h with offset := hc.offset }

theorem leave (h : Abreast i i' c c') : Abreast i i' c.leave c'.leave :=
  { h with depth := congrArg (· - 1) h.depth }

end Cursor.Abreast

namespace Step.Abreast

variable {V : α → β → Prop} {W : γ → δ → Prop} {x : Step α} {y : Step β} {c c' : Cursor}

theorem cases (h : Abreast i i' R V x y) (hc : Cursor.Abreast i i' c c') :
    (∃ a b d d', x c = (.hit a, d) ∧ y c' = (.hit b, d') ∧ V a b ∧ Cursor.Abreast i i' d d') ∨
    (∃ d d', x c = (.miss, d) ∧ y c' = (.miss, d') ∧ Cursor.Abreast i i' d d') ∨
    ∃ e e' d d', x c = (.fail e, d) ∧ y c' = (.fail e', d') ∧ Error.Abreast i i' R e e' ∧
      Cursor.Abreast i i' d d' := by
  have h := h hc
  revert h
  rcases x c with ⟨o, d⟩
  rcases y c' with ⟨o', d'⟩
  rintro ⟨h | _ | h, hd⟩
  · exact .inl ⟨_, _, d, d', rfl, rfl, h, hd⟩
  · exact .inr (.inl ⟨d, d', rfl, rfl, hd⟩)
  · exact .inr (.inr ⟨_, _, d, d', rfl, rfl, h, hd⟩)

/-! ## Steps that do not move -/

theorem still {o : Outcome α} {o' : Outcome β} (h : Alike V (Error.Abreast i i' R) o o') :
    Abreast i i' R V (Step.still o) (Step.still o') := fun _ _ hc => ⟨h, hc⟩

theorem hit {a : α} {b : β} (h : V a b) : Abreast i i' R V (Step.hit a) (Step.hit b) := still (.hit h)

theorem fail {e : Error} (h : e.offset? = none) : Abreast i i' R V (Step.fail e) (Step.fail e) :=
  still (.fail (.other (.inl h)))

/-! ## One step after another -/

theorem bind {f : α → Step γ} {g : β → Step δ} (hx : Abreast i i' R V x y)
    (hf : ∀ a b, V a b → Abreast i i' R W (f a) (g b)) : Abreast i i' R W (x.bind f) (y.bind g) := by
  intro c c' hc
  unfold Step.bind
  obtain ⟨a, b, d, d', hx, hy, hab, hd⟩ | ⟨d, d', hx, hy, hd⟩ | ⟨e, e', d, d', hx, hy, he, hd⟩ := hx.cases hc
  · rw [hx, hy]
    exact hf a b hab hd
  · rw [hx, hy]
    exact ⟨.miss, hd⟩
  · rw [hx, hy]
    exact ⟨.fail he, hd⟩

theorem map {f : α → γ} {g : β → δ} (hx : Abreast i i' R V x y) (hf : ∀ a b, V a b → W (f a) (g b)) :
    Abreast i i' R W (x.map f) (y.map g) := hx.bind fun a b h => hit (hf a b h)

theorem backtrack (hx : Abreast i i' R V x y) : Abreast i i' R V x.backtrack y.backtrack := by
  intro c c' hc
  unfold Step.backtrack
  obtain ⟨a, b, d, d', hx, hy, hab, hd⟩ | ⟨d, d', hx, hy, hd⟩ | ⟨e, e', d, d', hx, hy, he, hd⟩ := hx.cases hc
  · rw [hx, hy]
    exact ⟨.hit hab, hd⟩
  · rw [hx, hy]
    exact ⟨.miss, hd.goTo hc⟩
  · rw [hx, hy]
    exact ⟨.fail he, hd⟩

theorem sequence {b : Bool} {expected : Unit → String} {f : α → Step γ} {g : β → Step δ} (hx : Abreast i i' R V x y)
    (hf : ∀ a b, V a b → Abreast i i' R W (f a) (g b)) :
    Abreast i i' R W (Step.sequence i b expected x f) (Step.sequence i' b expected y g) := by
  intro c c' hc
  unfold Step.sequence
  obtain ⟨u, v, d, d', hx, hy, huv, hd⟩ | ⟨d, d', hx, hy, hd⟩ | ⟨e, e', d, d', hx, hy, he, hd⟩ := hx.cases hc
  · rw [hx, hy]
    dsimp only
    obtain ⟨a, b, d, d', hx, hy, hab, hd⟩ | ⟨d, d', hx, hy, hd⟩ | ⟨e, e', d, d', hx, hy, he, hd⟩ := (hf u v huv).cases hd
    · rw [hx, hy]
      exact ⟨.hit hab, hd⟩
    · rw [hx, hy]
      cases b with
      | true => exact ⟨.miss, hd.goTo hc⟩
      | false => exact ⟨.fail (.unexpectedInput hd.offset), hd⟩
    · rw [hx, hy]
      exact ⟨.fail he, hd⟩
  · rw [hx, hy]
    exact ⟨.miss, hd⟩
  · rw [hx, hy]
    exact ⟨.fail he, hd⟩

theorem orElse {x' : Step α} {y' : Step β} (hx : Abreast i i' R V x y) (hx' : Abreast i i' R V x' y') :
    Abreast i i' R V (x.orElse x') (y.orElse y') := by
  intro c c' hc
  unfold Step.orElse
  obtain ⟨a, b, d, d', hx, hy, hab, hd⟩ | ⟨d, d', hx, hy, hd⟩ | ⟨e, e', d, d', hx, hy, he, hd⟩ := hx.cases hc
  · rw [hx, hy]
    exact ⟨.hit hab, hd⟩
  · rw [hx, hy]
    exact hx' hd
  · rw [hx, hy]
    exact ⟨.fail he, hd⟩

/-! ## Loops -/

section Loops

variable {u w : α → Step α} {q q' : Step Unit}

theorem optional (hu : ∀ a, Abreast i i' R Eq (u a) (w a)) (a : α) :
    Abreast i i' R Eq (Step.optional u a) (Step.optional w a) := (hu a).orElse (hit rfl)

theorem times (hu : ∀ a, Abreast i i' R Eq (u a) (w a)) :
    ∀ (n : Nat) (a : α), Abreast i i' R Eq (Step.times u n a) (Step.times w n a)
  | 0, _ => hit rfl
  | n + 1, a => (hu a).bind fun b _ h => h ▸ times hu n b

variable (hi : i.WellFormed) (hi' : i'.WellFormed)

section
include hi hi'

theorem repeatFor (hu : ∀ a, Abreast i i' R Eq (u a) (w a)) :
    ∀ (n : Nat) (a : α), Abreast i i' R Eq (Step.repeatFor u n a) (Step.repeatFor w n a)
  | 0, _ => fail rfl
  | n + 1, a => by
    intro c c' hc
    unfold Step.repeatFor
    obtain ⟨b, _, d, d', hx, hy, rfl, hd⟩ | ⟨d, d', hx, hy, hd⟩ | ⟨e, e', d, d', hx, hy, he, hd⟩ := (hu a).cases hc
    · rw [hx, hy]
      dsimp only
      have hmoved := hd.offset.eq_iff hi hi' hc.offset
      by_cases h : d.offset = c.offset
      · rw [if_pos h, if_pos (hmoved.1 h)]
        exact ⟨.hit rfl, hd⟩
      · rw [if_neg h, if_neg fun h' => h (hmoved.2 h')]
        exact repeatFor hu n b hd
    · rw [hx, hy]
      exact ⟨.hit rfl, hd⟩
    · rw [hx, hy]
      exact ⟨.fail he, hd⟩

theorem repeated (hu : ∀ a, Abreast i i' R Eq (u a) (w a)) (a : α) :
    Abreast i i' R Eq (Step.repeated u a) (Step.repeated w a) := by
  intro c c' hc
  unfold Step.repeated
  rw [hc.fuel]
  exact repeatFor hi hi' hu (c.fuel + 1) a hc

theorem atLeast (hu : ∀ a, Abreast i i' R Eq (u a) (w a)) (n : Nat) (a : α) :
    Abreast i i' R Eq (Step.atLeast n u a) (Step.atLeast n w a) :=
  ((times hu n a).bind fun b _ h => h ▸ repeated hi hi' hu b).backtrack

end

theorem joinFor (hq : Abreast i i' R Eq q q') (hu : ∀ a, Abreast i i' R Eq (u a) (w a)) :
    ∀ (n : Nat) (a : α), Abreast i i' R Eq (Step.joinFor q u n a) (Step.joinFor q' w n a)
  | 0, _ => fail rfl
  | n + 1, a => by
    intro c c' hc
    unfold Step.joinFor
    obtain ⟨_, _, d, d', hx, hy, -, hd⟩ | ⟨d, d', hx, hy, hd⟩ | ⟨e, e', d, d', hx, hy, he, hd⟩ := hq.cases hc
    · rw [hx, hy]
      dsimp only
      obtain ⟨b, _, d, d', hx, hy, rfl, hd⟩ | ⟨d, d', hx, hy, hd⟩ | ⟨e, e', d, d', hx, hy, he, hd⟩ := (hu a).cases hd
      · rw [hx, hy]
        exact joinFor hq hu n b hd
      · rw [hx, hy]
        exact ⟨.hit rfl, hd.goTo hc⟩
      · rw [hx, hy]
        exact ⟨.fail he, hd⟩
    · rw [hx, hy]
      exact ⟨.hit rfl, hd⟩
    · rw [hx, hy]
      exact ⟨.fail he, hd⟩

theorem joined (nonEmpty : Bool) (hq : Abreast i i' R Eq q q') (hu : ∀ a, Abreast i i' R Eq (u a) (w a)) (a : α) :
    Abreast i i' R Eq (Step.joined nonEmpty q u a) (Step.joined nonEmpty q' w a) := by
  intro c c' hc
  unfold Step.joined
  obtain ⟨b, _, d, d', hx, hy, rfl, hd⟩ | ⟨d, d', hx, hy, hd⟩ | ⟨e, e', d, d', hx, hy, he, hd⟩ := (hu a).cases hc
  · rw [hx, hy]
    dsimp only
    rw [hd.fuel]
    exact joinFor hq hu (d.fuel + 1) b hd
  · rw [hx, hy]
    cases nonEmpty with
    | true => exact ⟨.miss, hd⟩
    | false => exact ⟨.hit rfl, hd⟩
  · rw [hx, hy]
    exact ⟨.fail he, hd⟩

end Loops

/-! ## References and tokens -/

theorem nested (hx : Abreast i i' R V x y) : Abreast i i' R V x.nested y.nested := by
  intro c c' hc
  have hdeeper : Cursor.Abreast i i' { c with depth := c.depth + 1 } { c' with depth := c'.depth + 1 } :=
    { hc with depth := congrArg (· + 1) hc.depth }
  exact ⟨(hx hdeeper).1, (hx hdeeper).2.leave⟩

/-- The tokens have the same text. -/
def SameText (i i' : Input) (k k' : Token) : Prop :=
  i'.source.slice k'.start k'.stop = i.source.slice k.start k.stop

/-- A token that is taken from longest matches is found among the same tokens. -/
theorem accept (hi : i.WellFormed) (hi' : i'.WellFormed) (hsame : i.lexing = i'.lexing) {id : TokenId}
    (hid : id ≠ .endOfInput) :
    Abreast i i' R (SameText i i') (Cursor.accept i id false) (Cursor.accept i' id false) := by
  rintro ⟨offset, furthest, fuel, depth⟩ ⟨offset', furthest', fuel', depth'⟩ ⟨hoffset, hfurthest, hfuel, hdepth⟩
  dsimp only at hoffset hfurthest hfuel hdepth
  subst hfuel hdepth
  cases fuel' with
  | zero => exact ⟨.fail (.other (.inl rfl)), hoffset, hfurthest, rfl, rfl⟩
  | succ fuel =>
    simp only [Cursor.accept, Cursor.stop?, Cursor.next, if_neg hid, Bool.false_eq_true, if_false]
    cases hoffset.next hi hi' hsame with
    | @lexeme m m' hm hm' hlexeme hlevel =>
      rw [hm, hm']
      simp only [Option.filter_some, LongestMatch.contains_eq hlexeme]
      cases m.contains id with
      | true => exact ⟨.hit (congrArg Lexeme.text hlexeme), hlevel, hfurthest.max hi hi' hlevel, rfl, rfl⟩
      | false => exact ⟨.miss, hoffset, hfurthest, rfl, rfl⟩
    | nothing hm hm' =>
      rw [hm, hm']
      exact ⟨.miss, hoffset, hfurthest, rfl, rfl⟩

end Step.Abreast
end Ambigram
