import Ambigram.Grammar.Parse
import Ambigram.Proofs.Derivation
/-!
# Limits

A run that is given more fuel and more levels of references does the same again, unless a limit ended it.
So a limit only cuts runs off: no node takes a spent limit for a non-match.

`Step.Extends` relates a step to the same step with more to spend.  Every way of putting steps together
keeps it, and the nodes are put together from nothing else.
-/
namespace Ambigram

variable {E α β : Type} {k : Nat}

/-- A spent limit ended the run. -/
def Outcome.CutOff (o : Outcome α) : Prop := o = .fail .fuelExhausted ∨ o = .fail .recursionLimit

theorem Outcome.not_cutOff_hit (a : α) : ¬ (Outcome.hit a).CutOff := by simp [CutOff]

theorem Outcome.not_cutOff_miss : ¬ (Outcome.miss : Outcome α).CutOff := by simp [CutOff]

/-- An error is a spent limit or not, whatever the value would have been. -/
theorem Outcome.cutOff_fail (e : Error) : (Outcome.fail e : Outcome α).CutOff ↔ (Outcome.fail e : Outcome β).CutOff := by
  simp [CutOff]

def Cursor.refuel (k : Nat) (c : Cursor) : Cursor := { c with fuel := c.fuel + k }

@[simp] theorem Cursor.refuel_offset (c : Cursor) : (c.refuel k).offset = c.offset := rfl
@[simp] theorem Cursor.refuel_depth (c : Cursor) : (c.refuel k).depth = c.depth := rfl
@[simp] theorem Cursor.refuel_fuel (c : Cursor) : (c.refuel k).fuel = c.fuel + k := rfl
@[simp] theorem Cursor.refuel_next (i : Input) (c : Cursor) : (c.refuel k).next i = c.next i := rfl
@[simp] theorem Cursor.refuel_goTo (c : Cursor) (o : Nat) : (c.refuel k).goTo o = (c.goTo o).refuel k := rfl

/-- The second step does with `k` more units of fuel what the first one does, if no limit ends that. -/
def Step.Extends (k : Nat) (x y : Step α) : Prop :=
  ∀ c, ¬ (x c).1.CutOff → y (c.refuel k) = ((x c).1, (x c).2.refuel k)

namespace Step.Extends

variable {x y x' y' : Step α} {f g : α → Step β} {u w : α → Step α}

theorem of_eq (h : Extends k x y) {c d : Cursor} {o : Outcome α} (hc : x c = (o, d)) (ho : ¬ o.CutOff) :
    y (c.refuel k) = (o, d.refuel k) := by
  have := h c (by rw [hc]; exact ho)
  rwa [hc] at this

/-! ## Steps that do not move -/

theorem still (o : Outcome α) : Extends k (Step.still o) (Step.still o) := fun _ _ => rfl

theorem hit (a : α) : Extends k (Step.hit a) (Step.hit a) := fun _ _ => rfl

theorem fail (e : Error) : Extends k (Step.fail e : Step α) (Step.fail e) := fun _ _ => rfl

/-- A step that a limit ends at once is extended by every step. -/
theorem of_cutOff {e : Error} (he : (Outcome.fail e : Outcome α).CutOff) : Extends k (Step.fail e) y :=
  fun _ h => absurd he h

/-! ## One step after another -/

theorem bind (hx : Extends k x y) (hf : ∀ a, Extends k (f a) (g a)) : Extends k (x.bind f) (y.bind g) := by
  intro c h
  unfold Step.bind at h ⊢
  rcases hc : x c with ⟨o, d⟩
  rw [hc] at h
  cases o with
  | hit a =>
    rw [hx.of_eq hc (Outcome.not_cutOff_hit a)]
    exact hf a d h
  | miss => rw [hx.of_eq hc Outcome.not_cutOff_miss]
  | fail e => rw [hx.of_eq hc (fun he => h ((Outcome.cutOff_fail e).1 he))]

theorem map (f : α → β) (hx : Extends k x y) : Extends k (x.map f) (y.map f) := hx.bind fun a => hit (f a)

theorem void (hx : Extends k x y) : Extends k x.void y.void := hx.map _

theorem backtrack (hx : Extends k x y) : Extends k x.backtrack y.backtrack := by
  intro c h
  unfold Step.backtrack at h ⊢
  rcases hc : x c with ⟨o, d⟩
  rw [hc] at h
  cases o with
  | hit a => rw [hx.of_eq hc (Outcome.not_cutOff_hit a)]
  | miss => rw [hx.of_eq hc Outcome.not_cutOff_miss]; rfl
  | fail e => rw [hx.of_eq hc h]

theorem sequence {i : Input} {b : Bool} {expected : Unit → String} (hx : Extends k x y)
    (hf : ∀ a, Extends k (f a) (g a)) :
    Extends k (Step.sequence i b expected x f) (Step.sequence i b expected y g) := by
  intro c h
  unfold Step.sequence at h ⊢
  rcases hc : x c with ⟨o, d⟩
  rw [hc] at h
  cases o with
  | hit a =>
    rw [hx.of_eq hc (Outcome.not_cutOff_hit a)]
    dsimp only at h ⊢
    rcases hd : f a d with ⟨p, e⟩
    rw [hd] at h
    cases p with
    | hit v => rw [(hf a).of_eq hd (Outcome.not_cutOff_hit v)]
    | miss => rw [(hf a).of_eq hd Outcome.not_cutOff_miss]; cases b <;> rfl
    | fail e' => rw [(hf a).of_eq hd h]
  | miss => rw [hx.of_eq hc Outcome.not_cutOff_miss]
  | fail e => rw [hx.of_eq hc (fun he => h ((Outcome.cutOff_fail e).1 he))]

theorem orElse (hx : Extends k x y) (hx' : Extends k x' y') : Extends k (x.orElse x') (y.orElse y') := by
  intro c h
  unfold Step.orElse at h ⊢
  rcases hc : x c with ⟨o, d⟩
  rw [hc] at h
  cases o with
  | hit a => rw [hx.of_eq hc (Outcome.not_cutOff_hit a)]
  | miss =>
    rw [hx.of_eq hc Outcome.not_cutOff_miss]
    exact hx' d h
  | fail e => rw [hx.of_eq hc h]

/-! ## Loops

The bound of a loop is taken from the fuel, so it grows with the fuel as well. -/

theorem optional (hu : ∀ a, Extends k (u a) (w a)) (a : α) : Extends k (Step.optional u a) (Step.optional w a) :=
  (hu a).orElse (hit a)

theorem repeatFor (hu : ∀ a, Extends k (u a) (w a)) :
    ∀ (n m : Nat) (a : α), n ≤ m → Extends k (Step.repeatFor u n a) (Step.repeatFor w m a)
  | 0, _, _, _ => of_cutOff (.inl rfl)
  | n + 1, 0, _, hnm => absurd hnm (by omega)
  | n + 1, m + 1, a, hnm => by
    intro c h
    unfold Step.repeatFor at h ⊢
    rcases hc : u a c with ⟨o, d⟩
    rw [hc] at h
    cases o with
    | hit b =>
      rw [(hu a).of_eq hc (Outcome.not_cutOff_hit b)]
      dsimp only at h ⊢
      by_cases hs : d.offset = c.offset
      · rw [if_pos hs, if_pos (by simpa using hs)]
      · rw [if_neg hs] at h
        rw [if_neg hs, if_neg (by simpa using hs)]
        exact repeatFor hu n m b (by omega) d h
    | miss => rw [(hu a).of_eq hc Outcome.not_cutOff_miss]
    | fail e => rw [(hu a).of_eq hc h]

theorem repeated (hu : ∀ a, Extends k (u a) (w a)) (a : α) : Extends k (Step.repeated u a) (Step.repeated w a) :=
  fun c h => repeatFor hu (c.fuel + 1) (c.fuel + k + 1) a (by omega) c h

theorem times (hu : ∀ a, Extends k (u a) (w a)) :
    ∀ (n : Nat) (a : α), Extends k (Step.times u n a) (Step.times w n a)
  | 0, a => hit a
  | n + 1, a => (hu a).bind fun b => times hu n b

theorem atLeast (hu : ∀ a, Extends k (u a) (w a)) (n : Nat) (a : α) :
    Extends k (Step.atLeast n u a) (Step.atLeast n w a) :=
  ((times hu n a).bind fun b => repeated hu b).backtrack

theorem joinFor {s s' : Step Unit} (hs : Extends k s s') (hu : ∀ a, Extends k (u a) (w a)) :
    ∀ (n m : Nat) (a : α), n ≤ m → Extends k (Step.joinFor s u n a) (Step.joinFor s' w m a)
  | 0, _, _, _ => of_cutOff (.inl rfl)
  | n + 1, 0, _, hnm => absurd hnm (by omega)
  | n + 1, m + 1, a, hnm => by
    intro c h
    unfold Step.joinFor at h ⊢
    rcases hc : s c with ⟨o, d⟩
    rw [hc] at h
    cases o with
    | hit b =>
      rw [hs.of_eq hc (Outcome.not_cutOff_hit b)]
      dsimp only at h ⊢
      rcases hd : u a d with ⟨p, e⟩
      rw [hd] at h
      cases p with
      | hit b' =>
        rw [(hu a).of_eq hd (Outcome.not_cutOff_hit b')]
        exact joinFor hs hu n m b' (by omega) e h
      | miss => rw [(hu a).of_eq hd Outcome.not_cutOff_miss]; rfl
      | fail e' => rw [(hu a).of_eq hd h]
    | miss => rw [hs.of_eq hc Outcome.not_cutOff_miss]
    | fail e => rw [hs.of_eq hc (fun he => h ((Outcome.cutOff_fail e).1 he))]

theorem joined {s s' : Step Unit} (nonEmpty : Bool) (hs : Extends k s s') (hu : ∀ a, Extends k (u a) (w a)) (a : α) :
    Extends k (Step.joined nonEmpty s u a) (Step.joined nonEmpty s' w a) := by
  intro c h
  unfold Step.joined at h ⊢
  rcases hc : u a c with ⟨o, d⟩
  rw [hc] at h
  cases o with
  | hit b =>
    rw [(hu a).of_eq hc (Outcome.not_cutOff_hit b)]
    exact joinFor hs hu (d.fuel + 1) (d.fuel + k + 1) b (by omega) d h
  | miss => rw [(hu a).of_eq hc Outcome.not_cutOff_miss]
  | fail e => rw [(hu a).of_eq hc h]

/-! ## Tokens and references -/

/-- The token that comes next does not depend on the fuel; only having none left ends an attempt. -/
theorem accept (i : Input) (id : TokenId) (exclusive : Bool) :
    Extends k (Cursor.accept i id exclusive) (Cursor.accept i id exclusive) := by
  rintro ⟨offset, furthest, fuel, depth⟩ h
  cases fuel with
  | zero => exact absurd (.inl rfl) h
  | succ fuel =>
    have hfuel : fuel + 1 + k = fuel + k + 1 := by omega
    simp only [Cursor.accept, Cursor.refuel, Cursor.next, hfuel]
    cases Cursor.stop? i id exclusive (i.skipTrivia offset) with
    | error e => rfl
    | ok stop => cases stop <;> rfl

theorem nested (hx : Extends k x y) : Extends k x.nested y.nested := by
  intro c h
  have hx := hx { c with depth := c.depth + 1 } h
  unfold Step.nested
  have henter : { c.refuel k with depth := (c.refuel k).depth + 1 } =
      ({ c with depth := c.depth + 1 } : Cursor).refuel k := rfl
  rw [henter, hx]
  rfl

end Step.Extends

/-! ## Nodes -/

open Step

theorem Recognizer.recognize_extends (i : Input) : ∀ r : Recognizer, Extends k (r.recognize i) (r.recognize i)
  | .token id exclusive _ => (Extends.accept i id exclusive).void
  | .seq _ x y => (x.recognize_extends i).sequence fun _ => y.recognize_extends i
  | .choice x y => (x.recognize_extends i).orElse (y.recognize_extends i)
  | .rep x => Extends.repeated (fun _ => x.recognize_extends i) ()
  | .opt _ x => Extends.optional (fun _ => x.recognize_extends i) ()
  | .annotate _ x => x.recognize_extends i

namespace Node

variable {i : Input} {env : E} {a : Option Shape} {t : Shape}

theorem recognizeWith_extends {onRef onRef' : Shape → String → Step Unit}
    (h : ∀ t name, Extends k (onRef t name) (onRef' t name)) (x : Node E a t) :
    Extends k (x.recognizeWith onRef i) (x.recognizeWith onRef' i) := by
  induction x with
  | scan id exclusive label mapping => exact (Extends.accept i id exclusive).void
  | initial value => exact Extends.hit ()
  | emptyList => exact Extends.hit ()
  | ref name => exact h _ name
  | fold p f ih => exact ih
  | map m => exact Extends.hit ()
  | seq b x y ihx ihy => exact ihx.sequence fun _ => ihy
  | before b r x ih => exact (r.recognize_extends i).sequence fun _ => ih
  | after b x r ih => exact ih.sequence fun _ => r.recognize_extends i
  | choice x y ihx ihy => exact ihx.orElse ihy
  | rep x ih => exact Extends.repeated (fun _ => ih) ()
  | opt x ih => exact Extends.optional (fun _ => ih) ()
  | atLeast n x ih => exact Extends.atLeast (fun _ => ih) n ()
  | join nonEmpty sep x ih => exact Extends.joined nonEmpty (sep.recognize_extends i) (fun _ => ih) ()
  | annotate c x ih => exact ih

theorem parseWith_extends {onRef onRef' : (t : Shape) → String → Step t.Carrier}
    (h : ∀ t name, Extends k (onRef t name) (onRef' t name)) (x : Node E a t) (left : Start a) :
    Extends k (x.parseWith onRef i env left) (x.parseWith onRef' i env left) := by
  induction x with
  | scan id exclusive label mapping => exact (Extends.accept i id exclusive).bind fun _ => Extends.still _
  | initial value => exact Extends.hit value
  | emptyList => exact Extends.hit []
  | ref name => exact h _ name
  | fold p f ih => exact (ih ()).bind fun _ => Extends.still _
  | map m => exact Extends.still _
  | seq b x y ihx ihy => exact (ihx left).sequence ihy
  | before b r x ih => exact (r.recognize_extends i).sequence fun _ => ih left
  | after b x r ih => exact (ih left).sequence fun v => (r.recognize_extends i).map fun _ => v
  | choice x y ihx ihy => exact (ihx left).orElse (ihy left)
  | rep x ih => exact Extends.repeated ih left
  | opt x ih => exact Extends.optional ih left
  | atLeast n x ih => exact Extends.atLeast ih n left
  | join nonEmpty sep x ih => exact Extends.joined nonEmpty (sep.recognize_extends i) ih left
  | annotate c x ih => exact ih left

end Node

/-! ## References

With no level left a defined reference is a spent limit, so there is nothing to show for it. -/

theorem Definitions.follow_extends {ds : Definitions E} {t : Shape} (name : String)
    {deeper deeper' : Option (Parser E t → Step α)}
    (h : ∀ run ∈ deeper, ∃ run' ∈ deeper', ∀ p, Extends k (run p) (run' p)) :
    Extends k (ds.follow t name deeper) (ds.follow t name deeper') := by
  unfold Definitions.follow
  cases ds.target t name with
  | none => exact Extends.fail _
  | some p =>
    cases deeper with
    | none => exact Extends.of_cutOff (.inr rfl)
    | some run =>
      obtain ⟨run', hrun', hp⟩ := h run rfl
      cases hrun'
      exact (hp p).nested

namespace Node

variable {ds : Definitions E} {i : Input} {env : E}

theorem recognizeAt_extends : ∀ (n m : Nat) {a : Option Shape} {t : Shape} (x : Node E a t), n ≤ m →
    Extends k (x.recognizeAt ds i n) (x.recognizeAt ds i m)
  | 0, m, _, _, x, _ => by
    rw [recognizeAt_eq, recognizeAt_eq]
    refine x.recognizeWith_extends fun t name => ?_
    cases m <;> exact Definitions.follow_extends name fun run hrun => by cases hrun
  | n + 1, 0, _, _, x, hnm => absurd hnm (by omega)
  | n + 1, m + 1, _, _, x, hnm => by
    rw [recognizeAt_eq, recognizeAt_eq]
    refine x.recognizeWith_extends fun t name => Definitions.follow_extends name fun run hrun => ?_
    cases hrun
    exact ⟨_, rfl, fun p => recognizeAt_extends n m p (by omega)⟩

theorem parseAt_extends : ∀ (n m : Nat) {a : Option Shape} {t : Shape} (x : Node E a t) (left : Start a), n ≤ m →
    Extends k (x.parseAt ds i env n left) (x.parseAt ds i env m left)
  | 0, m, _, _, x, left, _ => by
    rw [parseAt_eq, parseAt_eq]
    refine x.parseWith_extends (fun t name => ?_) left
    cases m <;> exact Definitions.follow_extends name fun run hrun => by cases hrun
  | n + 1, 0, _, _, x, _, hnm => absurd hnm (by omega)
  | n + 1, m + 1, _, _, x, left, hnm => by
    rw [parseAt_eq, parseAt_eq]
    refine x.parseWith_extends (fun t name => Definitions.follow_extends name fun run hrun => ?_) left
    cases hrun
    exact ⟨_, rfl, fun p => parseAt_extends n m p () (by omega)⟩

end Node

/-! ## Two runs -/

/-- The cursors are at one place; only the fuel may be different. -/
structure Cursor.SamePlace (c c' : Cursor) : Prop where
  offset : c'.offset = c.offset
  furthest : c'.furthest = c.furthest
  depth : c'.depth = c.depth

theorem Cursor.SamePlace.refl (c : Cursor) : c.SamePlace c := ⟨rfl, rfl, rfl⟩

/-- Two runs come to the same outcome at the same place, and consume the same amount of fuel for it. -/
structure Step.SameRun (c c' : Cursor) (r r' : Outcome α × Cursor) : Prop where
  outcome : r'.1 = r.1
  place : r.2.SamePlace r'.2
  consumed : (c'.fuel : Int) - r'.2.fuel = c.fuel - r.2.fuel

theorem Cursor.SamePlace.eq_refuel {c c' : Cursor} (h : c.SamePlace c') (hfuel : c.fuel ≤ c'.fuel) :
    c' = c.refuel (c'.fuel - c.fuel) := by
  rcases c with ⟨offset, furthest, fuel, depth⟩
  rcases c' with ⟨offset', furthest', fuel', depth'⟩
  obtain ⟨rfl, rfl, rfl⟩ := h
  have hfuel : fuel ≤ fuel' := hfuel
  have : fuel + (fuel' - fuel) = fuel' := by omega
  simp only [refuel, this]

theorem Step.Extends.sameRun {x y : Step α} {c c' : Cursor} (hplace : c.SamePlace c') (hfuel : c.fuel ≤ c'.fuel)
    (h : Extends (c'.fuel - c.fuel) x y) (hc : ¬ (x c).1.CutOff) : SameRun c c' (x c) (y c') := by
  have hy : y c' = ((x c).1, (x c).2.refuel (c'.fuel - c.fuel)) := by
    have := h c hc
    rwa [← hplace.eq_refuel hfuel] at this
  rw [hy]
  refine ⟨rfl, ⟨rfl, rfl, rfl⟩, ?_⟩
  rw [Cursor.refuel_fuel]
  omega

/-- The second step is the first one, except that it may come to anything where a limit ended the first. -/
def Step.AgreesUnlessCutOff (x x' : Step α) : Prop := ∀ c, ¬ (x c).1.CutOff → x' c = x c

theorem Step.agreesUnlessCutOff_iff {x x' : Step α} : x.AgreesUnlessCutOff x' ↔ Extends 0 x x' := Iff.rfl

/-- **Limits only cut runs off.**  Where a run was not ended by a spent limit, a run from the same place with as much
fuel or more and with the same recursion limit or a larger one is the same run.  And no choice, option or repetition
takes a spent limit for a non-match: unless a limit ends it as well, it is the same whatever the attempts that a limit
ended would have come to. -/
theorem sameRun_of_limits_le {s : Setting E} {depth : Nat} {c c' : Cursor} (hdepth : s.depth ≤ depth)
    (hplace : c.SamePlace c') (hfuel : c.fuel ≤ c'.fuel) :
    (∀ x : Recognizer, ¬ (x.recognize s.input c).1.CutOff →
      SameRun c c' (x.recognize s.input c) (x.recognize s.input c')) ∧
    (∀ {a : Option Shape} {t : Shape} (x : Node E a t),
      (¬ (x.recognize s c).1.CutOff → SameRun c c' (x.recognize s c) (x.recognize { s with depth } c')) ∧
      ∀ left, ¬ (x.parse s left c).1.CutOff →
        SameRun c c' (x.parse s left c) (x.parse { s with depth } left c')) ∧
    (∀ {α : Type} {x x' y y' : Step α}, x.AgreesUnlessCutOff x' → y.AgreesUnlessCutOff y' →
      (x.orElse y).AgreesUnlessCutOff (x'.orElse y')) ∧
    ∀ {α : Type} {u u' : α → Step α}, (∀ a, (u a).AgreesUnlessCutOff (u' a)) → ∀ a,
      (Step.optional u a).AgreesUnlessCutOff (Step.optional u' a) ∧
      (Step.repeated u a).AgreesUnlessCutOff (Step.repeated u' a) ∧
      (∀ min, (Step.atLeast min u a).AgreesUnlessCutOff (Step.atLeast min u' a)) ∧
      ∀ nonEmpty {q q' : Step Unit}, q.AgreesUnlessCutOff q' →
        (Step.joined nonEmpty q u a).AgreesUnlessCutOff (Step.joined nonEmpty q' u' a) := by
  have hlevels : s.depth - c.depth ≤ depth - c'.depth := by
    have := hplace.depth
    omega
  refine ⟨fun x h => (x.recognize_extends s.input).sameRun hplace hfuel h, fun x => ⟨fun h => ?_, fun left h => ?_⟩,
    fun hx hy => agreesUnlessCutOff_iff.2 ((agreesUnlessCutOff_iff.1 hx).orElse (agreesUnlessCutOff_iff.1 hy)),
    fun hu a => ?_⟩
  · have hx : Extends (c'.fuel - c.fuel) (x.recognizeAt s.definitions s.input (s.depth - c.depth))
        (x.recognizeAt s.definitions s.input (depth - c'.depth)) := x.recognizeAt_extends _ _ hlevels
    exact (hx.sameRun hplace hfuel h :)
  · have hx : Extends (c'.fuel - c.fuel) (x.parseAt s.definitions s.input s.env (s.depth - c.depth) left)
        (x.parseAt s.definitions s.input s.env (depth - c'.depth) left) := x.parseAt_extends _ _ left hlevels
    exact (hx.sameRun hplace hfuel h :)
  · simp only [agreesUnlessCutOff_iff] at hu ⊢
    exact ⟨Extends.optional hu a, Extends.repeated hu a, fun min => Extends.atLeast hu min a,
      fun nonEmpty _ _ hq => Extends.joined nonEmpty hq hu a⟩

/-- Twenty attempts and one level are enough for this list, so nothing changes with a hundred and five. -/
theorem sameRun_of_limits_le_nested :
    let s : Setting Unit := ⟨Nested.definitions, (), .of Nested.lexer (.ofString "[a, [a]]"), 1⟩
    (1 ≤ 5 ∧ Cursor.SamePlace ⟨0, 0, 20, 0⟩ ⟨0, 0, 100, 0⟩ ∧ 20 ≤ 100) ∧
    ¬ (Nested.nested.parse s () ⟨0, 0, 20, 0⟩).1.CutOff ∧
    SameRun ⟨0, 0, 20, 0⟩ ⟨0, 0, 100, 0⟩ (Nested.nested.parse s () ⟨0, 0, 20, 0⟩)
      (Nested.nested.parse { s with depth := 5 } () ⟨0, 0, 100, 0⟩) := by
  intro s
  have hplace : Cursor.SamePlace ⟨0, 0, 20, 0⟩ ⟨0, 0, 100, 0⟩ := ⟨rfl, rfl, rfl⟩
  have h : Nested.nested.parse s () ⟨0, 0, 20, 0⟩ =
      (.hit (.list [.string "a", .list [.string "a"]]), ⟨8, 8, 10, 0⟩) := by decide +kernel
  have hc : ¬ (Nested.nested.parse s () ⟨0, 0, 20, 0⟩).1.CutOff := by
    rw [h]
    exact Outcome.not_cutOff_hit _
  exact ⟨⟨by decide, hplace, by decide⟩, hc,
    ((sameRun_of_limits_le (by decide : s.depth ≤ 5) hplace (by decide)).2.1 Nested.nested).2 () hc⟩

end Ambigram
