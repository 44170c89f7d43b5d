import Ambigram.Proofs.Compounds
import Ambigram.Proofs.Limits
/-!
# What was reached furthest

How far tokens have reached is kept for messages.  No step asks for it: had tokens reached further before, a step would
come to the same, with that much further behind it.

So a step that is run again from the place of an earlier run does the same again.  What lies between the two has only
spent fuel and raised what was reached furthest.
-/
namespace Ambigram

variable {E α β : Type} {i : Input} {m : Nat}

/-- The cursor, had tokens reached so far before. -/
def Cursor.reaching (m : Nat) (c : Cursor) : Cursor := { c with furthest := max c.furthest m }

@[simp] theorem Cursor.reaching_offset (c : Cursor) : (c.reaching m).offset = c.offset := rfl

/-- The step does the same however far tokens have reached before. -/
def Step.Overlooks (x : Step α) : Prop := ∀ m c, x (c.reaching m) = ((x c).1, (x c).2.reaching m)

namespace Step.Overlooks

variable {x y : Step α} {f : α → Step β} {u : α → Step α}

theorem of_eq (h : Overlooks x) {c d : Cursor} {o : Outcome α} (hc : x c = (o, d)) (m : Nat) :
    x (c.reaching m) = (o, d.reaching m) := by
  rw [h m c, hc]

/-! ## One step after another -/

theorem still (o : Outcome α) : Overlooks (Step.still o) := fun _ _ => rfl

theorem hit (a : α) : Overlooks (Step.hit a) := fun _ _ => rfl

theorem fail (e : Error) : Overlooks (Step.fail e : Step α) := fun _ _ => rfl

theorem bind (hx : Overlooks x) (hf : ∀ a, Overlooks (f a)) : Overlooks (x.bind f) := by
  intro m c
  unfold Step.bind
  rcases hc : x c with ⟨o, d⟩
  rw [hx.of_eq hc]
  cases o with
  | hit a => exact hf a m d
  | miss | fail _ => rfl

theorem map (f : α → β) (hx : Overlooks x) : Overlooks (x.map f) := hx.bind fun a => hit (f a)

theorem void (hx : Overlooks x) : Overlooks x.void := hx.map _

theorem backtrack (hx : Overlooks x) : Overlooks x.backtrack := by
  intro m c
  unfold Step.backtrack
  rcases hc : x c with ⟨o, d⟩
  rw [hx.of_eq hc]
  cases o <;> rfl

theorem sequence {b : Bool} {expected : Unit → String} (hx : Overlooks x) (hf : ∀ a, Overlooks (f a)) :
    Overlooks (Step.sequence i b expected x f) := by
  intro m c
  unfold Step.sequence
  rcases hc : x c with ⟨o, d⟩
  rw [hx.of_eq hc]
  cases o with
  | hit a =>
    dsimp only
    rcases hd : f a d with ⟨p, e⟩
    rw [(hf a).of_eq hd]
    cases p with
    | miss => cases b <;> rfl
    | hit _ | fail _ => rfl
  | miss | fail _ => rfl

theorem orElse (hx : Overlooks x) (hy : Overlooks y) : Overlooks (x.orElse y) := by
  intro m c
  unfold Step.orElse
  rcases hc : x c with ⟨o, d⟩
  rw [hx.of_eq hc]
  cases o with
  | miss => exact hy m d
  | hit _ | fail _ => rfl

/-! ## Loops -/

theorem optional (hu : ∀ a, Overlooks (u a)) (a : α) : Overlooks (Step.optional u a) := (hu a).orElse (hit a)

theorem repeatFor (hu : ∀ a, Overlooks (u a)) : ∀ (n : Nat) (a : α), Overlooks (Step.repeatFor u n a)
  | 0, _ => fail _
  | n + 1, a => by
    intro m c
    unfold Step.repeatFor
    rcases hc : u a c with ⟨o, d⟩
    rw [(hu a).of_eq hc]
    cases o with
    | hit b =>
      dsimp only
      by_cases hd : d.offset = c.offset
      · rw [if_pos hd, if_pos (by simpa using hd)]
      · rw [if_neg hd, if_neg (by simpa using hd)]
        exact repeatFor hu n b m d
    | miss | fail _ => rfl

theorem repeated (hu : ∀ a, Overlooks (u a)) (a : α) : Overlooks (Step.repeated u a) :=
  fun m c => repeatFor hu (c.fuel + 1) a m c

theorem times (hu : ∀ a, Overlooks (u a)) : ∀ (n : Nat) (a : α), Overlooks (Step.times u n a)
  | 0, a => hit a
  | n + 1, a => (hu a).bind (times hu n)

theorem atLeast (hu : ∀ a, Overlooks (u a)) (n : Nat) (a : α) : Overlooks (Step.atLeast n u a) :=
  ((times hu n a).bind (repeated hu)).backtrack

variable {q : Step Unit}

theorem joinFor (hq : Overlooks q) (hu : ∀ a, Overlooks (u a)) : ∀ (n : Nat) (a : α), Overlooks (Step.joinFor q u n a)
  | 0, _ => fail _
  | n + 1, a => by
    intro m c
    unfold Step.joinFor
    rcases hc : q c with ⟨o, d⟩
    rw [hq.of_eq hc]
    cases o with
    | hit =>
      dsimp only
      rcases hd : u a d with ⟨p, e⟩
      rw [(hu a).of_eq hd]
      cases p with
      | hit b => exact joinFor hq hu n b m e
      | miss | fail _ => rfl
    | miss | fail _ => rfl

theorem joined (nonEmpty : Bool) (hq : Overlooks q) (hu : ∀ a, Overlooks (u a)) (a : α) :
    Overlooks (Step.joined nonEmpty q u a) := by
  intro m c
  unfold Step.joined
  rcases hc : u a c with ⟨o, d⟩
  rw [(hu a).of_eq hc]
  cases o with
  | hit b => exact joinFor hq hu (d.fuel + 1) b m d
  | miss | fail _ => rfl

/-! ## Tokens and references -/

/-- A token raises what was reached furthest, whatever that was. -/
theorem accept (i : Input) (id : TokenId) (exclusive : Bool) : Overlooks (Cursor.accept i id exclusive) := by
  rintro m ⟨offset, furthest, fuel, depth⟩
  cases fuel with
  | zero => rfl
  | succ fuel =>
    simp only [Cursor.accept, Cursor.reaching, Cursor.next]
    cases Cursor.stop? i id exclusive (i.skipTrivia offset) with
    | error e => rfl
    | ok stop =>
      cases stop with
      | none => rfl
      | some stop => simp only [Cursor.commit, Nat.max_right_comm]

theorem nested (hx : Overlooks x) : Overlooks x.nested := by
  intro m c
  have hdeeper := hx m { c with depth := c.depth + 1 }
  unfold Step.nested
  rw [show { c.reaching m with depth := (c.reaching m).depth + 1 } =
    ({ c with depth := c.depth + 1 } : Cursor).reaching m from rfl, hdeeper]
  rfl

end Step.Overlooks

/-! ## Nodes -/

open Step

theorem Recognizer.recognize_overlooks (i : Input) : ∀ r : Recognizer, Overlooks (r.recognize i)
  | .token id exclusive _ => (Overlooks.accept i id exclusive).void
  | .seq _ x y => (x.recognize_overlooks i).sequence fun _ => y.recognize_overlooks i
  | .choice x y => (x.recognize_overlooks i).orElse (y.recognize_overlooks i)
  | .rep x => Overlooks.repeated (fun _ => x.recognize_overlooks i) ()
  | .opt _ x => Overlooks.optional (fun _ => x.recognize_overlooks i) ()
  | .annotate _ x => x.recognize_overlooks i

theorem Definitions.follow_overlooks {ds : Definitions E} {t : Shape} (name : String)
    {deeper : Option (Parser E t → Step α)} (h : ∀ run ∈ deeper, ∀ p, Overlooks (run p)) :
    Overlooks (ds.follow t name deeper) := by
  unfold follow
  cases ds.target t name with
  | none => exact Overlooks.fail _
  | some p =>
    cases deeper with
    | none => exact Overlooks.fail _
    | some run => exact (h run rfl p).nested

namespace Node

variable {ds : Definitions E} {env : E} {a : Option Shape} {t : Shape}

theorem recognizeWith_overlooks {onRef : Shape → String → Step Unit} (h : ∀ t name, Overlooks (onRef t name))
    (x : Node E a t) : Overlooks (x.recognizeWith onRef i) := by
  induction x with
  | scan id exclusive label mapping => exact (Overlooks.accept i id exclusive).void
  | initial value => exact Overlooks.hit ()
  | emptyList => exact Overlooks.hit ()
  | ref name => exact h _ name
  | fold p f ih => exact ih
  | map m => exact Overlooks.hit ()
  | seq b x y ihx ihy => exact ihx.sequence fun _ => ihy
  | before b r x ih => exact (r.recognize_overlooks i).sequence fun _ => ih
  | after b x r ih => exact ih.sequence fun _ => r.recognize_overlooks i
  | choice x y ihx ihy => exact ihx.orElse ihy
  | rep x ih => exact Overlooks.repeated (fun _ => ih) ()
  | opt x ih => exact Overlooks.optional (fun _ => ih) ()
  | atLeast n x ih => exact Overlooks.atLeast (fun _ => ih) n ()
  | join nonEmpty sep x ih => exact Overlooks.joined nonEmpty (sep.recognize_overlooks i) (fun _ => ih) ()
  | annotate c x ih => exact ih

theorem parseWith_overlooks {onRef : (t : Shape) → String → Step t.Carrier} (h : ∀ t name, Overlooks (onRef t name))
    (x : Node E a t) (left : Start a) : Overlooks (x.parseWith onRef i env left) := by
  induction x with
  | scan id exclusive label mapping => exact (Overlooks.accept i id exclusive).bind fun _ => Overlooks.still _
  | initial value => exact Overlooks.hit value
  | emptyList => exact Overlooks.hit []
  | ref name => exact h _ name
  | fold p f ih => exact (ih ()).bind fun _ => Overlooks.still _
  | map m => exact Overlooks.still _
  | seq b x y ihx ihy => exact (ihx left).sequence ihy
  | before b r x ih => exact (r.recognize_overlooks i).sequence fun _ => ih left
  | after b x r ih => exact (ih left).sequence fun v => (r.recognize_overlooks i).map fun _ => v
  | choice x y ihx ihy => exact (ihx left).orElse (ihy left)
  | rep x ih => exact Overlooks.repeated ih left
  | opt x ih => exact Overlooks.optional ih left
  | atLeast n x ih => exact Overlooks.atLeast ih n left
  | join nonEmpty sep x ih => exact Overlooks.joined nonEmpty (sep.recognize_overlooks i) ih left
  | annotate c x ih => exact ih left

theorem recognizeAt_overlooks : ∀ (n : Nat) {a : Option Shape} {t : Shape} (x : Node E a t),
    Overlooks (x.recognizeAt ds i n)
  | 0, _, _, x => by
    rw [recognizeAt_eq]
    exact x.recognizeWith_overlooks fun t name => Definitions.follow_overlooks name fun run hrun => by cases hrun
  | n + 1, _, _, x => by
    rw [recognizeAt_eq]
    refine x.recognizeWith_overlooks fun t name => Definitions.follow_overlooks name fun run hrun => ?_
    cases hrun
    exact fun p => recognizeAt_overlooks n p

theorem parseAt_overlooks : ∀ (n : Nat) {a : Option Shape} {t : Shape} (x : Node E a t) (left : Start a),
    Overlooks (x.parseAt ds i env n left)
  | 0, _, _, x, left => by
    rw [parseAt_eq]
    refine x.parseWith_overlooks (fun t name => ?_) left
    exact Definitions.follow_overlooks name fun run hrun => by cases hrun
  | n + 1, _, _, x, left => by
    rw [parseAt_eq]
    refine x.parseWith_overlooks (fun t name => Definitions.follow_overlooks name fun run hrun => ?_) left
    cases hrun
    exact fun p => parseAt_overlooks n p ()

end Node

/-! ## Once more

A run again has less fuel than the run before it, and that is all it can tell from it. -/

namespace Step

/-- The step keeps to the discipline, and neither more fuel nor how far tokens have reached changes what it does. -/
structure Steady (i : Input) (x : Step α) : Prop where
  tame : Tame i x
  refuels (k : Nat) : Extends k x x
  overlooks : Overlooks x

theorem Steady.map {x : Step α} (hx : Steady i x) (f : α → β) : Steady i (x.map f) :=
  ⟨hx.tame.map f, fun k => (hx.refuels k).map f, hx.overlooks.map f⟩

/-- The step again, from the place of a run and with what was left later on: it comes to the same at the same place. -/
theorem Steady.again {x : Step α} (hx : Steady i x) {c d e : Cursor} {o : Outcome α} (hc : x c = (o, d))
    (h : Cursor.Follows i d e) (hcut : ¬ (x (e.goTo c.offset)).1.CutOff) :
    ∃ d', x (e.goTo c.offset) = (o, d') ∧ d'.SamePlace (e.goTo d.offset) ∧ d'.fuel ≤ e.fuel := by
  have hd := hx.tame.follows_of_eq hc
  have he := hd.trans h
  -- with the fuel of the first run, the cursor is the one of that run, having reached further
  have hcursor : (e.goTo c.offset).refuel (c.fuel - e.fuel) = c.reaching e.furthest := by
    simp only [Cursor.goTo, Cursor.refuel, Cursor.reaching, he.depth, Nat.max_eq_right he.furthest,
      Nat.add_sub_cancel' he.fuel]
  have hrun := hx.refuels (c.fuel - e.fuel) _ hcut
  rw [hcursor, hx.overlooks.of_eq hc] at hrun
  rcases hagain : x (e.goTo c.offset) with ⟨o', d'⟩
  rw [hagain] at hrun
  obtain ⟨rfl, hleft⟩ := Prod.mk.inj hrun
  have hoffset : d.offset = d'.offset := (congrArg Cursor.offset hleft :)
  have hdepth : d.depth = d'.depth := (congrArg Cursor.depth hleft :)
  have hfurthest : max d.furthest e.furthest = d'.furthest := congrArg Cursor.furthest hleft
  have hfuel : d.fuel = d'.fuel + (c.fuel - e.fuel) := congrArg Cursor.fuel hleft
  have hspent := hd.fuel
  have hspent' := h.fuel
  rw [Nat.max_eq_right h.furthest] at hfurthest
  exact ⟨d', rfl, ⟨hoffset, hfurthest, h.depth.trans hdepth⟩, by omega⟩

end Step

section

variable {s : Setting E} (hi : s.input.WellFormed)
include hi

theorem Recognizer.recognize_steady (r : Recognizer) : Steady s.input (r.recognize s.input) :=
  ⟨r.recognize_tame hi, fun _ => r.recognize_extends s.input, r.recognize_overlooks s.input⟩

variable {a : Option Shape} {t : Shape}

theorem Node.recognize_steady (x : Node E a t) : Steady s.input (x.recognize s) where
  tame := x.recognize_tame hi
  refuels _ c h := x.recognizeAt_extends _ _ (Nat.le_refl (s.depth - c.depth)) c h
  overlooks m c := x.recognizeAt_overlooks (s.depth - c.depth) m c

theorem Node.parse_steady (x : Node E a t) (left : Start a) : Steady s.input (x.parse s left) where
  tame := x.parse_tame hi left
  refuels _ c h := x.parseAt_extends _ _ left (Nat.le_refl (s.depth - c.depth)) c h
  overlooks m c := x.parseAt_overlooks (s.depth - c.depth) left m c

end

end Ambigram
