import Ambigram.Grammar.Parse
/-!
# Two steps side by side

One step mirrors another if it does the same at every cursor and makes of the value what a function makes of it.
Errors of some kind are let off: where the first step ends in one of these, nothing is said about the second.

No way of putting steps together takes an error for anything else, so an error that is let off in a part is let
off in the whole, and mirroring is kept by all of them.
-/
namespace Ambigram

variable {α β γ δ : Type} {P : Error → Prop}

/-- The outcome is an error of the kind. -/
def Outcome.FailsBy (P : Error → Prop) (o : Outcome α) : Prop := ∃ e, o = .fail e ∧ P e

namespace Outcome

theorem not_failsBy_hit (a : α) : ¬ (Outcome.hit a).FailsBy P := by simp [FailsBy]

theorem not_failsBy_miss : ¬ (Outcome.miss : Outcome α).FailsBy P := by simp [FailsBy]

@[simp] theorem failsBy_fail {e : Error} : (Outcome.fail e : Outcome α).FailsBy P ↔ P e := by simp [FailsBy]

end Outcome

/-- Unless the first step ends in an error of the kind `P`, the second one ends at the same cursor, with what `g`
makes of the value. -/
def Step.Mirrors (P : Error → Prop) (g : α → β) (x : Step α) (y : Step β) : Prop :=
  ∀ c, ¬ (x c).1.FailsBy P → y c = ((x c).1.map g, (x c).2)

namespace Step.Mirrors

variable {g : α → β} {g' : γ → δ} {x : Step α} {y : Step β} {c d : Cursor}

theorem of_hit (h : Mirrors P g x y) {a : α} (hc : x c = (.hit a, d)) : y c = (.hit (g a), d) := by
  have := h c (by rw [hc]; exact Outcome.not_failsBy_hit a)
  rwa [hc] at this

theorem of_miss (h : Mirrors P g x y) (hc : x c = (.miss, d)) : y c = (.miss, d) := by
  have := h c (by rw [hc]; exact Outcome.not_failsBy_miss)
  rwa [hc] at this

/-- Whether an error is let off does not depend on what the value would have been. -/
theorem of_fail (h : Mirrors P g x y) {e : Error} (hc : x c = (.fail e, d))
    (he : ¬ (Outcome.fail e : Outcome γ).FailsBy P) : y c = (.fail e, d) := by
  rw [Outcome.failsBy_fail] at he
  have := h c (by rwa [hc, Outcome.failsBy_fail])
  rwa [hc] at this

theorem refl (x : Step α) : Mirrors P id x x := by
  intro c _
  rcases x c with ⟨o, d⟩
  cases o <;> rfl

/-! ## Steps that do not move -/

theorem hit (g : α → β) (a : α) : Mirrors P g (Step.hit a) (Step.hit (g a)) := fun _ _ => rfl

theorem fail (e : Error) : Mirrors P g (Step.fail e) (Step.fail e) := fun _ _ => rfl

/-! ## One step after another -/

theorem bind {f : α → Step γ} {k : β → Step δ} (hx : Mirrors P g x y) (hf : ∀ a, Mirrors P g' (f a) (k (g a))) :
    Mirrors P g' (x.bind f) (y.bind k) := by
  intro c h
  unfold Step.bind at h ⊢
  rcases hc : x c with ⟨o, d⟩
  rw [hc] at h
  cases o with
  | hit a =>
    rw [hx.of_hit hc]
    exact hf a d h
  | miss =>
    rw [hx.of_miss hc]
    rfl
  | fail e =>
    rw [hx.of_fail hc h]
    rfl

theorem backtrack (hx : Mirrors P g x y) : Mirrors P g x.backtrack y.backtrack := by
  intro c h
  unfold Step.backtrack at h ⊢
  rcases hc : x c with ⟨o, d⟩
  rw [hc] at h
  cases o with
  | hit a => rw [hx.of_hit hc]; rfl
  | miss => rw [hx.of_miss hc]; rfl
  | fail e => rw [hx.of_fail hc h]; rfl

/-- The second sequence may go back where the first one is an error, if that error is let off. -/
theorem sequence {i : Input} {b b' : Bool} {expected expected' : Unit → String} {f : α → Step γ} {k : β → Step δ}
    (hx : Mirrors P g x y) (hf : ∀ a, Mirrors P g' (f a) (k (g a)))
    (hb : b' = b ∧ expected' () = expected () ∨
      (b = true → b' = true) ∧ ∀ offset, P (.unexpectedInput offset (expected ()))) :
    Mirrors P g' (Step.sequence i b expected x f) (Step.sequence i b' expected' y k) := by
  intro c h
  unfold Step.sequence at h ⊢
  rcases hc : x c with ⟨o, d⟩
  rw [hc] at h
  cases o with
  | hit a =>
    rw [hx.of_hit hc]
    dsimp only at h ⊢
    rcases hd : f a d with ⟨p, e⟩
    rw [hd] at h
    cases p with
    | hit v => rw [(hf a).of_hit hd]; rfl
    | miss =>
      rw [(hf a).of_miss hd]
      rcases hb with ⟨rfl, hexpected⟩ | ⟨hb, hP⟩
      · cases b' with
        | true => rfl
        | false =>
          dsimp only
          rw [hexpected]
          rfl
      · cases b with
        | true =>
          rw [hb rfl]
          rfl
        | false => exact absurd (Outcome.failsBy_fail.2 (hP _)) h
    | fail e' => rw [(hf a).of_fail hd h]; rfl
  | miss => rw [hx.of_miss hc]; rfl
  | fail e => rw [hx.of_fail hc h]; rfl

theorem orElse {x' : Step α} {y' : Step β} (hx : Mirrors P g x y) (hx' : Mirrors P g x' y') :
    Mirrors P g (x.orElse x') (y.orElse y') := by
  intro c h
  unfold Step.orElse at h ⊢
  rcases hc : x c with ⟨o, d⟩
  rw [hc] at h
  cases o with
  | hit a => rw [hx.of_hit hc]; rfl
  | miss =>
    rw [hx.of_miss hc]
    exact hx' d h
  | fail e => rw [hx.of_fail hc h]; rfl

/-! ## Loops

Both go round equally often: they stop at the same non-match, or behind the same match that did not move. -/

variable {u : α → Step α} {w : β → Step β} {q q' : Step Unit}

theorem optional (hu : ∀ a, Mirrors P g (u a) (w (g a))) (a : α) :
    Mirrors P g (Step.optional u a) (Step.optional w (g a)) :=
  (hu a).orElse (hit g a)

theorem repeatFor (hu : ∀ a, Mirrors P g (u a) (w (g a))) :
    ∀ (n : Nat) (a : α), Mirrors P g (Step.repeatFor u n a) (Step.repeatFor w n (g a))
  | 0, _ => fail .fuelExhausted
  | n + 1, a => by
    intro c h
    unfold Step.repeatFor at h ⊢
    rcases hc : u a c with ⟨o, d⟩
    rw [hc] at h
    cases o with
    | hit b =>
      rw [(hu a).of_hit hc]
      dsimp only at h ⊢
      by_cases hs : d.offset = c.offset
      · rw [if_pos hs, if_pos hs]
        rfl
      · rw [if_neg hs] at h
        rw [if_neg hs, if_neg hs]
        exact repeatFor hu n b d h
    | miss => rw [(hu a).of_miss hc]; rfl
    | fail e => rw [(hu a).of_fail hc h]; rfl

theorem repeated (hu : ∀ a, Mirrors P g (u a) (w (g a))) (a : α) :
    Mirrors P g (Step.repeated u a) (Step.repeated w (g a)) :=
  fun c h => repeatFor hu (c.fuel + 1) a c h

theorem times (hu : ∀ a, Mirrors P g (u a) (w (g a))) :
    ∀ (n : Nat) (a : α), Mirrors P g (Step.times u n a) (Step.times w n (g a))
  | 0, a => hit g a
  | n + 1, a => (hu a).bind fun b => times hu n b

theorem atLeast (hu : ∀ a, Mirrors P g (u a) (w (g a))) (n : Nat) (a : α) :
    Mirrors P g (Step.atLeast n u a) (Step.atLeast n w (g a)) :=
  ((times hu n a).bind fun b => repeated hu b).backtrack

theorem joinFor (hq : Mirrors P id q q') (hu : ∀ a, Mirrors P g (u a) (w (g a))) :
    ∀ (n : Nat) (a : α), Mirrors P g (Step.joinFor q u n a) (Step.joinFor q' w n (g a))
  | 0, _ => fail .fuelExhausted
  | n + 1, a => by
    intro c h
    unfold Step.joinFor at h ⊢
    rcases hc : q c with ⟨o, d⟩
    rw [hc] at h
    cases o with
    | hit b =>
      rw [hq.of_hit hc]
      dsimp only [id] at h ⊢
      rcases hd : u a d with ⟨p, e⟩
      rw [hd] at h
      cases p with
      | hit b' =>
        rw [(hu a).of_hit hd]
        exact joinFor hq hu n b' e h
      | miss => rw [(hu a).of_miss hd]; rfl
      | fail e' => rw [(hu a).of_fail hd h]; rfl
    | miss => rw [hq.of_miss hc]; rfl
    | fail e => rw [hq.of_fail hc h]; rfl

theorem joined (nonEmpty : Bool) (hq : Mirrors P id q q') (hu : ∀ a, Mirrors P g (u a) (w (g a))) (a : α) :
    Mirrors P g (Step.joined nonEmpty q u a) (Step.joined nonEmpty q' w (g a)) := by
  intro c h
  unfold Step.joined at h ⊢
  rcases hc : u a c with ⟨o, d⟩
  rw [hc] at h
  cases o with
  | hit b =>
    rw [(hu a).of_hit hc]
    exact joinFor hq hu (d.fuel + 1) b d h
  | miss =>
    rw [(hu a).of_miss hc]
    cases nonEmpty <;> rfl
  | fail e => rw [(hu a).of_fail hc h]; rfl

/-! ## References -/

theorem nested (hx : Mirrors P g x y) : Mirrors P g x.nested y.nested := by
  intro c h
  unfold Step.nested
  rw [hx { c with depth := c.depth + 1 } h]

end Step.Mirrors

/-- References are defined on both sides or on neither, and what they stand for is side by side as well. -/
theorem Definitions.follow_mirrors {E : Type} {ds ds' : Definitions E} {t : Shape} {name : String} {g : α → β}
    {deeper : Option (Parser E t → Step α)} {deeper' : Option (Parser E t → Step β)}
    (hnone : ds.target t name = none → ds'.target t name = none)
    (hsome : ∀ p, ds.target t name = some p → ∃ p', ds'.target t name = some p' ∧
      (deeper = none ∧ deeper' = none ∨
        ∃ run run', deeper = some run ∧ deeper' = some run' ∧ Step.Mirrors P g (run p) (run' p'))) :
    Step.Mirrors P g (ds.follow t name deeper) (ds'.follow t name deeper') := by
  unfold Definitions.follow
  cases htarget : ds.target t name with
  | none =>
    rw [hnone htarget]
    exact Step.Mirrors.fail _
  | some p =>
    obtain ⟨p', htarget', ⟨rfl, rfl⟩ | ⟨run, run', rfl, rfl, hrun⟩⟩ := hsome p htarget
    · rw [htarget']
      exact Step.Mirrors.fail _
    · rw [htarget']
      exact hrun.nested

end Ambigram
