import Ambigram.Proofs.Limits
import Ambigram.Proofs.Run
/-!
# Replaying a run

A run can be gone through again, and what it is of then matches: the run leaves no room for anything else to
happen.  Only the bounds of the loops need a word.  They come from the fuel where the loop begins, and the
rest of a loop comes with a smaller one; a turn that moved has paid for the difference.
-/
namespace Ambigram

variable {E α β : Type} {i : Input}

/-! ## Recognizers spend fuel

A recognizer makes an attempt at a token, whatever comes of it. -/

/-- Unless it ends in an error, the step has spent fuel. -/
def Step.Spends (x : Step α) : Prop := ∀ c, (x c).2.fuel < c.fuel ∨ ∃ e, (x c).1 = .fail e

namespace Step.Spends

variable {x y : Step α} {f : α → Step β}

theorem of_hit (hx : Spends x) {c d : Cursor} {a : α} (hc : x c = (.hit a, d)) : d.fuel < c.fuel := by
  simpa [hc] using hx c

theorem of_miss (hx : Spends x) {c d : Cursor} (hc : x c = (.miss, d)) : d.fuel < c.fuel := by
  simpa [hc] using hx c

theorem accept (id : TokenId) (exclusive : Bool) : Spends (Cursor.accept i id exclusive) := by
  rintro ⟨offset, furthest, fuel, depth⟩
  cases fuel with
  | zero => exact .inr ⟨_, rfl⟩
  | succ fuel =>
    left
    simp only [Cursor.accept]
    split <;> exact Nat.lt_succ_self _

theorem bind (hx : Spends x) (hf : ∀ a, Tame i (f a)) : Spends (x.bind f) := by
  intro c
  unfold Step.bind
  rcases hc : x c with ⟨o, d⟩
  cases o with
  | hit a => exact .inl (Nat.lt_of_le_of_lt ((hf a).follows d).fuel (hx.of_hit hc))
  | miss => exact .inl (hx.of_miss hc)
  | fail e => exact .inr ⟨e, rfl⟩

theorem sequence {b : Bool} {expected : Unit → String} (hx : Spends x) (hf : ∀ a, Tame i (f a)) :
    Spends (Step.sequence i b expected x f) := by
  intro c
  unfold Step.sequence
  rcases hc : x c with ⟨o, d⟩
  cases o with
  | hit a =>
    dsimp only
    rcases hd : f a d with ⟨p, e⟩
    have he : e.fuel < c.fuel := Nat.lt_of_le_of_lt ((hf a).follows_of_eq hd).fuel (hx.of_hit hc)
    cases p with
    | hit v => exact .inl he
    | miss =>
      cases b with
      | true => exact .inl he
      | false => exact .inr ⟨_, rfl⟩
    | fail e' => exact .inr ⟨e', rfl⟩
  | miss => exact .inl (hx.of_miss hc)
  | fail e => exact .inr ⟨e, rfl⟩

theorem orElse (hx : Spends x) (hy : Tame i y) : Spends (x.orElse y) := by
  intro c
  unfold Step.orElse
  rcases hc : x c with ⟨o, d⟩
  cases o with
  | hit a => exact .inl (hx.of_hit hc)
  | miss => exact .inl (Nat.lt_of_le_of_lt (hy.follows d).fuel (hx.of_miss hc))
  | fail e => exact .inr ⟨e, rfl⟩

theorem repeated {u : α → Step α} {a : α} (hu : Spends (u a)) (ht : ∀ a, Tame i (u a)) : Spends (Step.repeated u a) := by
  intro c
  unfold Step.repeated Step.repeatFor
  rcases hc : u a c with ⟨o, d⟩
  cases o with
  | hit b =>
    dsimp only
    split
    · exact .inl (hu.of_hit hc)
    · exact .inl (Nat.lt_of_le_of_lt (Tame.follows_repeatFor ht c.fuel b d).fuel (hu.of_hit hc))
  | miss => exact .inl (hu.of_miss hc)
  | fail e => exact .inr ⟨e, rfl⟩

end Step.Spends

open Step

theorem Recognizer.recognize_spends (hi : i.WellFormed) : ∀ r : Recognizer, Spends (r.recognize i)
  | .token id exclusive _ => (Spends.accept id exclusive).bind fun _ => Tame.hit (i := i) ()
  | .seq _ x y => (x.recognize_spends hi).sequence fun _ => y.recognize_tame hi
  | .choice x y => (x.recognize_spends hi).orElse (y.recognize_tame hi)
  | .rep x => (x.recognize_spends hi).repeated fun _ => x.recognize_tame hi
  | .opt _ x => (x.recognize_spends hi).orElse (Tame.hit (i := i) ())
  | .annotate _ x => x.recognize_spends hi

/-! ## Loops again

The rest of a loop is a loop with a smaller bound, and a larger bound makes no difference to a match. -/

namespace Step

variable {u : α → Step α} {q : Step Unit} {a b v : α} {c d e : Cursor}

theorem repeatFor_of_le {n m : Nat} (hu : ∀ a, Extends 0 (u a) (u a)) (hnm : n ≤ m)
    (h : repeatFor u n a c = (.hit v, d)) : repeatFor u m a c = (.hit v, d) :=
  (Extends.repeatFor hu n m a hnm).of_eq h (Outcome.not_cutOff_hit v)

theorem joinFor_of_le {n m : Nat} (hq : Extends 0 q q) (hu : ∀ a, Extends 0 (u a) (u a)) (hnm : n ≤ m)
    (h : joinFor q u n a c = (.hit v, d)) : joinFor q u m a c = (.hit v, d) :=
  (Extends.joinFor hq hu n m a hnm).of_eq h (Outcome.not_cutOff_hit v)

theorem repeated_of_move (hu : ∀ a, Extends 0 (u a) (u a)) (ht : ∀ a, Tame i (u a)) (h : u a c = (.hit b, d))
    (hd : d.offset ≠ c.offset) (more : repeated u b d = (.hit v, e)) : repeated u a c = (.hit v, e) := by
  have hpaid : d.fuel < c.fuel := ((ht a).follows_of_eq h).paid hd
  have hrest : repeatFor u c.fuel b d = (.hit v, e) := repeatFor_of_le hu hpaid more
  exact repeatFor_eq_hit.2 (.inr (.inr ⟨b, d, h, hd, hrest⟩))

end Step

/-- **A run of a recognizer makes it match.** -/
theorem Recognizer.Run.recognize_eq (hi : i.WellFormed) {x : Recognizer} {c d : Cursor} (r : x.Run i c d) :
    x.recognize i c = (.hit (), d) := by
  induction r with
  | token token h => exact map_eq_hit.2 ⟨token, h, rfl⟩
  | seq _ _ ihx ihy => exact sequence_eq_hit.2 ⟨(), _, ihx, ihy⟩
  | first _ ih => exact orElse_eq_hit.2 (.inl ih)
  | second h _ ih => exact orElse_eq_hit.2 (.inr ⟨_, h, ih⟩)
  | @repStop x _ _ h => exact (repeatFor_eq_hit (u := fun _ => x.recognize i)).2 (.inl ⟨h, rfl⟩)
  | @repStill x _ _ _ h ih => exact (repeatFor_eq_hit (u := fun _ => x.recognize i)).2 (.inr (.inl ⟨ih, h⟩))
  | @repMore x _ _ _ _ h _ ih ihmore =>
    exact repeated_of_move (fun _ => x.recognize_extends i) (fun _ => x.recognize_tame hi) ih h ihmore
  | optNone h => exact orElse_eq_hit.2 (.inr ⟨_, h, rfl⟩)
  | optOne _ ih => exact orElse_eq_hit.2 (.inl ih)
  | annotate _ ih => exact ih

/-! ## Nodes -/

/-- What a task does. -/
def Task.perform (ds : Definitions E) (i : Input) (env : E) (n : Nat) {a : Option Shape} {t : Shape} :
    Task E a t → Start a → Step t.Carrier
  | .node x, left => x.parseAt ds i env n left
  | .loop x, left => Step.repeated (x.parseAt ds i env n) left
  | .times k x, left => Step.times (x.parseAt ds i env n) k left
  | .tail q x, left => fun c => Step.joinFor (q.recognize i) (x.parseAt ds i env n) (c.fuel + 1) left c

variable {ds : Definitions E} {env : E} {n : Nat} {a : Option Shape} {s t : Shape}

namespace Task

variable (x : Reducer E s s)

@[simp] theorem perform_node (x : Node E a t) : (node x).perform ds i env n = x.parseAt ds i env n := rfl
@[simp] theorem perform_loop : (loop x).perform ds i env n = Step.repeated (x.parseAt ds i env n) := rfl
@[simp] theorem perform_times (k : Nat) : (times k x).perform ds i env n = Step.times (x.parseAt ds i env n) k := rfl
@[simp] theorem perform_tail (q : Recognizer) (left : s.Carrier) (c : Cursor) : (tail q x).perform ds i env n left c =
    Step.joinFor (q.recognize i) (x.parseAt ds i env n) (c.fuel + 1) left c := rfl

end Task

theorem Run.perform_eq (hi : i.WellFormed) {task : Task E a t} {left : Start a} {c : Cursor} {v : t.Carrier}
    {d : Cursor} (r : Run ds i env n task left c v d) : task.perform ds i env n left c = (.hit v, d) := by
  induction r with
  | scan token h made =>
    rw [Task.perform_node, Node.parseAt_eq]
    exact bind_eq_hit.2 ⟨token, _, h, by rw [made]; rfl⟩
  | initial =>
    rw [Task.perform_node, Node.parseAt_eq]
    rfl
  | emptyList =>
    rw [Task.perform_node, Node.parseAt_eq]
    rfl
  | ref target _ ih =>
    rw [Task.perform_node, Node.parseAt_eq]
    exact Definitions.follow_eq_hit.2 ⟨_, _, _, target, rfl, ih, rfl⟩
  | fold _ made ih =>
    rw [Task.perform_node, Node.parseAt_eq] at ih ⊢
    exact bind_eq_hit.2 ⟨_, _, ih, by rw [made]; rfl⟩
  | map made =>
    rw [Task.perform_node, Node.parseAt_eq]
    show Step.still _ _ = _
    rw [made]
    rfl
  | seq _ _ ihx ihy =>
    rw [Task.perform_node, Node.parseAt_eq] at ihx ihy ⊢
    exact sequence_eq_hit.2 ⟨_, _, ihx, ihy⟩
  | before rq _ ih =>
    rw [Task.perform_node, Node.parseAt_eq] at ih ⊢
    exact sequence_eq_hit.2 ⟨_, _, rq.recognize_eq hi, ih⟩
  | after _ rq ih =>
    rw [Task.perform_node, Node.parseAt_eq] at ih ⊢
    exact sequence_eq_hit.2 ⟨_, _, ih, map_eq_hit.2 ⟨_, rq.recognize_eq hi, rfl⟩⟩
  | first _ ih =>
    rw [Task.perform_node, Node.parseAt_eq] at ih ⊢
    exact orElse_eq_hit.2 (.inl ih)
  | second h _ ih =>
    rw [Node.parseAt_eq] at h
    rw [Task.perform_node, Node.parseAt_eq] at ih ⊢
    exact orElse_eq_hit.2 (.inr ⟨_, h, ih⟩)
  | rep _ ih =>
    rw [Task.perform_loop, Node.parseAt_eq] at ih
    rw [Task.perform_node, Node.parseAt_eq]
    exact ih
  | optNone h =>
    rw [Node.parseAt_eq] at h
    rw [Task.perform_node, Node.parseAt_eq]
    exact orElse_eq_hit.2 (.inr ⟨_, h, rfl⟩)
  | optOne _ ih =>
    rw [Task.perform_node, Node.parseAt_eq] at ih ⊢
    exact orElse_eq_hit.2 (.inl ih)
  | atLeast _ _ ih ihmore =>
    rw [Task.perform_times, Node.parseAt_eq] at ih
    rw [Task.perform_loop, Node.parseAt_eq] at ihmore
    rw [Task.perform_node, Node.parseAt_eq]
    exact atLeast_eq_hit.2 ⟨_, _, ih, ihmore⟩
  | joinNone h =>
    rw [Node.parseAt_eq] at h
    rw [Task.perform_node, Node.parseAt_eq]
    exact joined_eq_hit.2 (.inl ⟨h, rfl, rfl⟩)
  | join _ _ ih ihmore =>
    rw [Task.perform_tail, Node.parseAt_eq] at ihmore
    rw [Task.perform_node, Node.parseAt_eq] at ih ⊢
    exact joined_eq_hit.2 (.inr ⟨_, _, ih, ihmore⟩)
  | annotate _ ih =>
    rw [Task.perform_node, Node.parseAt_eq] at ih ⊢
    exact ih
  | loopStop h => exact repeatFor_eq_hit.2 (.inl ⟨h, rfl⟩)
  | loopStill _ h ih => exact repeatFor_eq_hit.2 (.inr (.inl ⟨ih, h⟩))
  | @loopMore n _ x _ _ _ _ _ _ _ h _ ih ihmore =>
    exact repeated_of_move (fun l => x.parseAt_extends n n l (Nat.le_refl n)) (x.parseAt_tame hi n) ih h ihmore
  | timesDone => rfl
  | timesMore _ _ ih ihmore => exact bind_eq_hit.2 ⟨_, _, ih, ihmore⟩
  | tailStop h =>
    rw [Task.perform_tail]
    exact joinFor_eq_hit.2 (.inl ⟨h, rfl⟩)
  | tailGivenBack hq h =>
    rw [Task.perform_tail]
    exact joinFor_eq_hit.2 (.inr ⟨_, hq, .inl ⟨_, h, rfl, rfl⟩⟩)
  | @tailMore n _ q x _ _ _ c d e _ rq _ _ ih ihmore =>
    have hq := rq.recognize_eq hi
    -- the turn may not have moved, but looking for its separator was paid for
    have hseparator : d.fuel < c.fuel := (q.recognize_spends hi).of_hit hq
    have helement : e.fuel ≤ d.fuel := ((x.parseAt_tame hi n _).follows_of_eq ih).fuel
    have hspent : e.fuel < c.fuel := Nat.lt_of_le_of_lt helement hseparator
    have hrest := joinFor_of_le (q.recognize_extends i) (fun l => x.parseAt_extends n n l (Nat.le_refl n)) hspent ihmore
    rw [Task.perform_tail]
    exact joinFor_eq_hit.2 (.inr ⟨d, hq, .inr ⟨_, e, ih, hrest⟩⟩)

/-- **A run of a node makes it match**, and where it matches there is a run of it. -/
theorem Run.nonempty_iff_parse_eq (hi : i.WellFormed) {x : Node E a t} {left : Start a} {c : Cursor} {v : t.Carrier}
    {d : Cursor} : Nonempty (Run ds i env n (.node x) left c v d) ↔ x.parseAt ds i env n left c = (.hit v, d) :=
  ⟨fun ⟨r⟩ => r.perform_eq hi, x.run_of_parse n⟩

end Ambigram
