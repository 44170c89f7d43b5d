import Ambigram.Proofs.Erasure
import Ambigram.Proofs.Furthest
import Ambigram.Proofs.Separators
import Ambigram.Proofs.Spacing
/-!
# Fuel that is enough

A run takes fuel for every attempt at a token, so the question is whether there can be too many attempts.  A repetition
stops behind a match that has not moved, and a minimum is a number.  A join does not look at whether it has moved.  If
the separator and the element behind it can match without moving, it takes the same turn again until a limit ends it; if
they cannot, the turns of the join end with the source as well, and some amount of fuel is enough.
-/
namespace Ambigram

variable {E α β : Type} {i : Input} {depth : Nat}

open Cursor (Follows Stands)

/-- What refuses a token is no spent limit. -/
theorem Cursor.stop?_ne_fuelExhausted (token : TokenId) (exclusive : Bool) (offset : Nat) :
    Cursor.stop? i token exclusive offset ≠ .error .fuelExhausted := by
  have hmatch : ∀ e, i.matchOnly offset token = .error e → e ≠ .fuelExhausted := by
    intro e h
    unfold Input.matchOnly Lexer.matchOn at h
    split at h
    · split at h
      · cases h
        simp
      · split at h <;> cases h
        simp
    · cases h
      simp
    · contradiction
  unfold stop?
  split
  · simp
  · split
    · cases hm : i.matchOnly offset token with
      | error e => simpa [bind, Except.bind] using hmatch e hm
      | ok m => simp [bind, Except.bind, pure, Except.pure]
    · simp

namespace Step

/-- From the places at a depth, with so much fuel the step does not run out of it, and it spends no more. -/
def Affords (i : Input) (depth fuel : Nat) (x : Step α) : Prop :=
  ∀ ⦃c⦄, Stands i depth c → fuel ≤ c.fuel → (x c).1 ≠ .fail .fuelExhausted ∧ c.fuel ≤ (x c).2.fuel + fuel

namespace Affords

variable {x y : Step α} {f : α → Step β} {u : α → Step α} {m n k : Nat} {c d : Cursor} {o : Outcome α}

theorem of_eq (h : Affords i depth n x) (hc : Stands i depth c) (hn : n ≤ c.fuel) (hd : x c = (o, d)) :
    o ≠ .fail .fuelExhausted ∧ c.fuel ≤ d.fuel + n := by
  have := h hc hn
  rwa [hd] at this

theorem mono (h : Affords i depth n x) (hnm : n ≤ m) : Affords i depth m x := by
  intro c hc hm
  obtain ⟨hne, hspent⟩ := h hc (Nat.le_trans hnm hm)
  exact ⟨hne, by omega⟩

theorem still {o : Outcome α} (ho : o ≠ .fail .fuelExhausted) : Affords i depth 0 (Step.still o) :=
  fun _ _ _ => ⟨ho, Nat.le_refl _⟩

theorem hit (a : α) : Affords i depth 0 (Step.hit a) := still (by simp)

/-- What is asked of a token costs one unit, and is no limit itself. -/
theorem accept (id : TokenId) (exclusive : Bool) : Affords i depth 1 (Cursor.accept i id exclusive) := by
  rintro ⟨offset, furthest, fuel, depth⟩ - hfuel
  obtain ⟨fuel, rfl⟩ := Nat.exists_eq_add_one_of_ne_zero (Nat.ne_of_gt hfuel)
  simp only [Cursor.accept]
  split
  · exact ⟨by simp, Nat.le_refl _⟩
  · exact ⟨by simp, Nat.le_refl _⟩
  · rename_i e he
    refine ⟨fun h => ?_, Nat.le_refl _⟩
    cases h
    exact Cursor.stop?_ne_fuelExhausted id exclusive _ he

/-! ## One step after another -/

theorem bind (hx : Affords i depth m x) (hfollows : ∀ c, Follows i c (x c).2) (hf : ∀ a, Affords i depth n (f a)) :
    Affords i depth (m + n) (x.bind f) := by
  intro c hc hfuel
  have hfollows := hfollows c
  unfold Step.bind
  rcases hd : x c with ⟨o, d⟩
  rw [hd] at hfollows
  obtain ⟨hne, hspent⟩ := hx.of_eq hc (by omega) hd
  cases o with
  | hit a =>
    dsimp only at hfollows ⊢
    obtain ⟨hne', hspent'⟩ := hf a (hfollows.stands hc) (by omega)
    exact ⟨hne', by omega⟩
  | miss => exact ⟨by simp, by dsimp only; omega⟩
  | fail e => exact ⟨by simpa using hne, by dsimp only; omega⟩

theorem void (hx : Affords i depth n x) (hx' : Tame i x) : Affords i depth n x.void :=
  hx.bind hx'.follows fun _ => hit ()

theorem backtrack (hx : Affords i depth n x) : Affords i depth n x.backtrack := by
  intro c hc hfuel
  unfold Step.backtrack
  rcases hd : x c with ⟨o, d⟩
  have h := hx.of_eq hc hfuel hd
  cases o <;> exact h

theorem sequence {b : Bool} {expected : Unit → String} (hx : Affords i depth m x) (hx' : Tame i x)
    (hf : ∀ a, Affords i depth n (f a)) : Affords i depth (m + n) (Step.sequence i b expected x f) := by
  intro c hc hfuel
  unfold Step.sequence
  rcases hd : x c with ⟨o, d⟩
  obtain ⟨hne, hspent⟩ := hx.of_eq hc (by omega) hd
  cases o with
  | hit a =>
    dsimp only
    rcases he : f a d with ⟨p, e⟩
    obtain ⟨hne', hspent'⟩ := (hf a).of_eq ((hx'.follows_of_eq hd).stands hc) (by omega) he
    cases p with
    | miss => cases b <;> exact ⟨by simp, by simp only [Bool.false_eq_true, if_true, if_false, Cursor.goTo]; omega⟩
    | hit _ | fail _ => exact ⟨hne', by dsimp only; omega⟩
  | miss => exact ⟨by simp, by dsimp only; omega⟩
  | fail e => exact ⟨by simpa using hne, by dsimp only; omega⟩

theorem orElse (hx : Affords i depth m x) (hx' : Tame i x) (hy : Affords i depth n y) :
    Affords i depth (m + n) (x.orElse y) := by
  intro c hc hfuel
  unfold Step.orElse
  rcases hd : x c with ⟨o, d⟩
  obtain ⟨hne, hspent⟩ := hx.of_eq hc (by omega) hd
  cases o with
  | miss =>
    obtain ⟨hne', hspent'⟩ := hy ((hx'.follows_of_eq hd).stands hc) (by omega)
    exact ⟨hne', by dsimp only; omega⟩
  | hit _ | fail _ => exact ⟨hne, by dsimp only; omega⟩

theorem nested (hx : Affords i (depth + 1) n x) : Affords i depth n x.nested :=
  fun _ hc hfuel => hx hc.deeper hfuel

/-! ## Loops

Every turn of a repetition but the last one goes forward, so there are no more turns than places and one. -/

section Loops

variable (hu : ∀ a, Affords i depth n (u a)) (hu' : ∀ a, Tame i (u a))
include hu hu'

theorem optional (a : α) : Affords i depth (n + 0) (Step.optional u a) := (hu a).orElse (hu' a) (hit a)

theorem times : ∀ (k : Nat) (a : α), Affords i depth (k * n) (Step.times u k a)
  | 0, a => (hit a).mono (Nat.zero_le _)
  | k + 1, a => ((hu a).bind (hu' a).follows (times k)).mono (by rw [Nat.succ_mul]; omega)

theorem repeatFor : ∀ (left bound : Nat) (a : α) (c : Cursor), Stands i depth c → i.source.size - c.offset ≤ left →
    (left + 1) * n ≤ c.fuel → c.fuel < bound →
    (Step.repeatFor u bound a c).1 ≠ .fail .fuelExhausted ∧
      c.fuel ≤ (Step.repeatFor u bound a c).2.fuel + (left + 1) * n
  | _, 0, _, _, _, _, _, hbound => absurd hbound (Nat.not_lt_zero _)
  | left, bound + 1, a, c, hc, hleft, hfuel, hbound => by
    rw [Nat.succ_mul] at hfuel ⊢
    unfold Step.repeatFor
    rcases hd : u a c with ⟨o, d⟩
    obtain ⟨hne, hspent⟩ := (hu a).of_eq hc (by omega) hd
    cases o with
    | hit b =>
      dsimp only
      by_cases hmoved : d.offset = c.offset
      · rw [if_pos hmoved]
        exact ⟨by simp, by dsimp only; omega⟩
      · have hfollows := (hu' a).follows_of_eq hd
        have hforward := hfollows.offset
        have hpaid := hfollows.paid hmoved
        have hstands := hfollows.stands hc
        have hwithin := hstands.within
        -- the turn went forward, so there was a place left to go to
        obtain ⟨left, rfl⟩ := Nat.exists_eq_add_one_of_ne_zero (by omega : left ≠ 0)
        obtain ⟨hne', hspent'⟩ := repeatFor left bound b d hstands (by omega) (by omega) (by omega)
        rw [if_neg hmoved]
        exact ⟨hne', by omega⟩
    | miss => exact ⟨by simp, by dsimp only; omega⟩
    | fail e => exact ⟨by simpa using hne, by dsimp only; omega⟩

theorem repeated (a : α) : Affords i depth ((i.source.size + 1) * n) (Step.repeated u a) :=
  fun c hc hfuel => repeatFor hu hu' _ _ a c hc (Nat.sub_le _ _) hfuel (Nat.lt_succ_self _)

theorem atLeast (k : Nat) (a : α) : Affords i depth (k * n + (i.source.size + 1) * n) (Step.atLeast k u a) :=
  ((times hu hu' k a).bind (Tame.follows_times hu' k a) (repeated hu hu')).backtrack

/-- A join is a repetition if its turns move. -/
theorem joined {q : Step Unit} (hq : Affords i depth m q) (hq' : Tame i q) (hmoves : Moving i depth q u)
    (nonEmpty : Bool) (a : α) :
    Affords i depth (n + (i.source.size + 1) * (m + n) + 0) (Step.joined nonEmpty q u a) := by
  have hturn : ∀ a, Affords i depth (m + n) (Step.sequence i true (fun _ => "") q fun _ => u a) :=
    fun a => hq.sequence hq' fun _ => hu a
  have hturn' : ∀ a, Tame i (Step.sequence i true (fun _ => "") q fun _ => u a) := fun a => hq'.sequence fun _ => hu' a
  have hloop : ∀ a, Affords i depth (n + (i.source.size + 1) * (m + n)) (Step.sequence i true (fun _ => "") (u a)
      (Step.repeated fun a => Step.sequence i true (fun _ => "") q fun _ => u a)) :=
    fun a => (hu a).sequence (hu' a) (repeated hturn hturn')
  intro c hc hfuel
  cases nonEmpty with
  | true =>
    rw [joined_true_eq hq' hu' hmoves (fun _ => "") a hc (fun _ => "")]
    exact hloop a hc hfuel
  | false =>
    rw [joined_false_eq hq' hu' hmoves (fun _ => "") a hc (fun _ => "")]
    exact optional hloop (fun a => (hu' a).sequence (Tame.repeated hturn')) a hc hfuel

end Loops

end Affords
end Step

/-! ## Nodes -/

open Step

theorem Recognizer.recognize_affords (hi : i.WellFormed) : ∀ r : Recognizer, ∃ n, Affords i depth n (r.recognize i)
  | .token id exclusive _ => ⟨_, (Affords.accept id exclusive).void (hi.accept_tame id exclusive)⟩
  | .seq _ x y =>
    let ⟨_, hx⟩ := x.recognize_affords hi
    let ⟨_, hy⟩ := y.recognize_affords hi
    ⟨_, hx.sequence (x.recognize_tame hi) fun _ => hy⟩
  | .choice x y =>
    let ⟨_, hx⟩ := x.recognize_affords hi
    let ⟨_, hy⟩ := y.recognize_affords hi
    ⟨_, hx.orElse (x.recognize_tame hi) hy⟩
  | .rep x =>
    let ⟨_, hx⟩ := x.recognize_affords hi
    ⟨_, Affords.repeated (fun _ => hx) (fun _ => x.recognize_tame hi) ()⟩
  | .opt _ x =>
    let ⟨_, hx⟩ := x.recognize_affords hi
    ⟨_, Affords.optional (fun _ => hx) (fun _ => x.recognize_tame hi) ()⟩
  | .annotate _ x => x.recognize_affords hi

/-- A separator, and what it stands between. -/
structure Joint (E : Type) where
  shape : Shape
  separator : Recognizer
  element : Reducer E shape shape

namespace Node

variable {a : Option Shape} {t : Shape}

/-- The joins among the parts of a node. -/
def joints {a : Option Shape} {t : Shape} : Node E a t → List (Joint E)
  | .scan _ _ _ _ | .initial _ | .emptyList | .ref _ | .map _ => []
  | .fold p _ => p.joints
  | .seq _ x y => x.joints ++ y.joints
  | .choice x y => x.joints ++ y.joints
  | .join _ q x => ⟨_, q, x⟩ :: x.joints
  | .before _ _ x | .after _ x _ | .rep x | .opt x | .atLeast _ x | .annotate _ x => x.joints

/-- The join is a part of the node, or of what its references come to. -/
inductive Holds (ds : Definitions E) (j : Joint E) : {a : Option Shape} → {t : Shape} → Node E a t → Prop
  | part {a : Option Shape} {t : Shape} {x : Node E a t} (h : j ∈ x.joints) : Holds ds j x
  | ref {a : Option Shape} {t u : Shape} {x : Node E a t} {name : String} {p : Parser E u} (h : (u, name) ∈ x.references)
    (target : ds.target u name = some p) (holds : Holds ds j p) : Holds ds j x

theorem recognizeWith_affords (hi : i.WellFormed) {onRef : Shape → String → Step Unit}
    (htame : ∀ t name, Tame i (onRef t name)) (x : Node E a t)
    (href : ∀ t name, (t, name) ∈ x.references → ∃ n, Affords i depth n (onRef t name))
    (hmoves : ∀ j ∈ x.joints, Moving i depth (j.separator.recognize i) fun _ : Unit => j.element.recognizeWith onRef i) :
    ∃ n, Affords i depth n (x.recognizeWith onRef i) := by
  induction x with
  | scan id exclusive label m => exact ⟨_, (Affords.accept id exclusive).void (hi.accept_tame id exclusive)⟩
  | initial | emptyList | map => exact ⟨_, Affords.hit ()⟩
  | ref name => exact href _ name (List.mem_singleton.2 rfl)
  | fold p f ih => exact ih href hmoves
  | annotate k x ih => exact ih href hmoves
  | seq b x y ihx ihy =>
    obtain ⟨m, hx⟩ := ihx (fun t name h => href t name (List.mem_append_left _ h)) fun j h =>
      hmoves j (List.mem_append_left _ h)
    obtain ⟨n, hy⟩ := ihy (fun t name h => href t name (List.mem_append_right _ h)) fun j h =>
      hmoves j (List.mem_append_right _ h)
    exact ⟨_, hx.sequence (x.recognizeWith_tame hi htame) fun _ => hy⟩
  | choice x y ihx ihy =>
    obtain ⟨m, hx⟩ := ihx (fun t name h => href t name (List.mem_append_left _ h)) fun j h =>
      hmoves j (List.mem_append_left _ h)
    obtain ⟨n, hy⟩ := ihy (fun t name h => href t name (List.mem_append_right _ h)) fun j h =>
      hmoves j (List.mem_append_right _ h)
    exact ⟨_, hx.orElse (x.recognizeWith_tame hi htame) hy⟩
  | before b r x ih =>
    obtain ⟨m, hr⟩ := r.recognize_affords hi
    obtain ⟨n, hx⟩ := ih href hmoves
    exact ⟨_, hr.sequence (r.recognize_tame hi) fun _ => hx⟩
  | after b x r ih =>
    obtain ⟨m, hr⟩ := r.recognize_affords hi
    obtain ⟨n, hx⟩ := ih href hmoves
    exact ⟨_, hx.sequence (x.recognizeWith_tame hi htame) fun _ => hr⟩
  | rep x ih =>
    obtain ⟨n, hx⟩ := ih href hmoves
    exact ⟨_, Affords.repeated (fun _ => hx) (fun _ => x.recognizeWith_tame hi htame) ()⟩
  | opt x ih =>
    obtain ⟨n, hx⟩ := ih href hmoves
    exact ⟨_, Affords.optional (fun _ => hx) (fun _ => x.recognizeWith_tame hi htame) ()⟩
  | atLeast k x ih =>
    obtain ⟨n, hx⟩ := ih href hmoves
    exact ⟨_, Affords.atLeast (fun _ => hx) (fun _ => x.recognizeWith_tame hi htame) k ()⟩
  | join nonEmpty q x ih =>
    obtain ⟨m, hq⟩ := q.recognize_affords hi
    obtain ⟨n, hx⟩ := ih href fun j h => hmoves j (List.mem_cons_of_mem _ h)
    have hturns := hmoves ⟨_, q, x⟩ List.mem_cons_self
    exact ⟨_, Affords.joined (fun _ => hx) (fun _ => x.recognizeWith_tame hi htame) hq (q.recognize_tame hi) hturns
      nonEmpty ()⟩

end Node

theorem Definitions.follow_affords {ds : Definitions E} {t : Shape} (name : String)
    {deeper : Option (Parser E t → Step α)}
    (h : ∀ run ∈ deeper, ∀ p, ds.target t name = some p → ∃ n, Affords i (depth + 1) n (run p)) :
    ∃ n, Affords i depth n (ds.follow t name deeper) := by
  unfold follow
  cases htarget : ds.target t name with
  | none => exact ⟨0, Affords.still (by simp)⟩
  | some p =>
    cases deeper with
    | none => exact ⟨0, Affords.still (by simp)⟩
    | some run =>
      obtain ⟨n, hn⟩ := h run rfl p htarget
      exact ⟨n, hn.nested⟩

/-- Wherever it begins, a turn of the join moves. -/
def Joint.Moves (s : Setting E) (j : Joint E) : Prop :=
  ∀ depth, Moving s.input depth (j.separator.recognize s.input) fun _ : Unit => j.element.recognize s

/-! ### References -/

namespace Node

variable {s : Setting E} (hi : s.input.WellFormed)
include hi

theorem recognizeAt_affords : ∀ (levels depth : Nat) {a : Option Shape} {t : Shape} (x : Node E a t),
    s.depth - depth = levels → (∀ j, x.Holds s.definitions j → j.Moves s) →
    ∃ n, Affords s.input depth n (x.recognizeAt s.definitions s.input levels)
  | levels, depth, _, _, x, hlevels, hmoves => by
    have htame : ∀ t name, Tame s.input (s.definitions.recognizeRef s.input levels t name) := fun t name => by
      have h : Tame s.input ((ref name : Parser E t).recognizeAt s.definitions s.input levels) := recognizeAt_tame hi _ _
      rwa [recognizeAt_eq] at h
    rw [recognizeAt_eq]
    refine x.recognizeWith_affords hi htame (fun t name href => ?_) fun j hj => ?_
    · cases levels with
      | zero => exact Definitions.follow_affords name fun run hrun => by cases hrun
      | succ levels =>
        refine Definitions.follow_affords name fun run hrun p htarget => ?_
        cases hrun
        exact recognizeAt_affords levels (depth + 1) p (by omega) fun j hj => hmoves j (.ref href htarget hj)
    · subst hlevels
      exact (hmoves j (.part hj) depth).congr (j.separator.recognize_tame hi) fun _ d hd =>
        ((recognizeWith_computes_does depth hi j.element).unique (recognize_computes hi j.element) hd).symm

variable {a : Option Shape} {t : Shape}

theorem recognize_affords (x : Node E a t) (hmoves : ∀ j, x.Holds s.definitions j → j.Moves s) (depth : Nat) :
    ∃ n, Affords s.input depth n (x.recognize s) := by
  obtain ⟨n, hn⟩ := recognizeAt_affords hi _ depth x rfl hmoves
  refine ⟨n, fun c hc hfuel => ?_⟩
  have h := hn hc hfuel
  rwa [← hc.depth] at h

end Node

/-! ## Turns that do not move -/

namespace Step

variable {x : Step α} {a : α} {c c' d : Cursor}

/-- With no less fuel there is the same match again. -/
theorem Steady.not_cutOff (hx : Steady i x) (h : x c = (.hit a, d)) (hoffset : c'.offset = c.offset)
    (hdepth : c'.depth = c.depth) (hfuel : c.fuel ≤ c'.fuel) : ¬ (x c').1.CutOff := by
  -- having reached as far as both, the two cursors only differ in fuel
  have hmeet : c'.reaching c.furthest = (c.refuel (c'.fuel - c.fuel)).reaching c'.furthest := by
    simp only [Cursor.refuel, Cursor.reaching, hoffset, hdepth, Nat.add_sub_cancel' hfuel, Nat.max_comm]
  have hagain := (hx.refuels (c'.fuel - c.fuel)).of_eq h (Outcome.not_cutOff_hit a)
  have hrun := hx.overlooks c.furthest c'
  rw [hmeet, hx.overlooks.of_eq hagain] at hrun
  rw [← congrArg Prod.fst hrun]
  exact Outcome.not_cutOff_hit a

/-- At the place of a match there is the same match, or too little fuel for it. -/
theorem Steady.hit_again (hx : Steady i x) (h : x c = (.hit a, d)) (hoffset : c'.offset = c.offset)
    (hdepth : c'.depth = c.depth) :
    (∃ e d', x c' = (.fail e, d') ∧ (Outcome.fail e : Outcome α).CutOff ∧ d'.fuel < c.fuel) ∨
      ∃ d', x c' = (.hit a, d') ∧ d'.offset = d.offset ∧ d'.depth = d.depth ∧ d'.fuel ≤ c'.fuel := by
  rcases h' : x c' with ⟨o, d'⟩
  have hspent := (hx.tame.follows_of_eq h').fuel
  by_cases hcut : o.CutOff
  · left
    have hfuel : c'.fuel < c.fuel := Nat.lt_of_not_le fun hfuel => hx.not_cutOff h hoffset hdepth hfuel (by rwa [h'])
    obtain ⟨e, rfl⟩ : ∃ e, o = .fail e := hcut.elim (fun ho => ⟨_, ho⟩) fun ho => ⟨_, ho⟩
    exact ⟨e, d', rfl, hcut, Nat.lt_of_le_of_lt hspent hfuel⟩
  · right
    -- given the fuel of both, and having reached as far as both, the two cursors are one
    have hmeet : (c'.refuel c.fuel).reaching c.furthest = (c.refuel c'.fuel).reaching c'.furthest := by
      simp only [Cursor.refuel, Cursor.reaching, hoffset, hdepth, Nat.add_comm, Nat.max_comm]
    have hrun := hx.overlooks.of_eq ((hx.refuels c'.fuel).of_eq h (Outcome.not_cutOff_hit a)) c'.furthest
    have hrun' := hx.overlooks.of_eq ((hx.refuels c.fuel).of_eq h' hcut) c.furthest
    rw [hmeet, hrun] at hrun'
    obtain ⟨rfl, hplace⟩ := Prod.mk.inj hrun'
    exact ⟨d', rfl, (congrArg Cursor.offset hplace).symm, (congrArg Cursor.depth hplace).symm, hspent⟩

section Spinning

variable {q u : Step Unit} {e : Cursor} (hq : Steady i q) (hu : Steady i u) (hspends : Spends q)
  (hseparator : q c = (.hit (), d)) (helement : u d = (.hit (), e)) (hstill : e.offset = c.offset)
include hq hu hspends hseparator helement hstill

/-- At the place of a turn that has not moved, a loop takes the same turn until a limit ends it. -/
theorem joinFor_spins : ∀ (n : Nat) (c' : Cursor), c'.offset = c.offset → c'.depth = c.depth → c'.fuel < n →
    (joinFor q (fun _ => u) n () c').1.CutOff ∧ (joinFor q (fun _ => u) n () c').2.fuel < c.fuel
  | 0, _, _, _, hn => absurd hn (Nat.not_lt_zero _)
  | n + 1, c', hoffset, hdepth, hn => by
    have hfollows := hq.tame.follows_of_eq hseparator
    have hfollows' := hu.tame.follows_of_eq helement
    unfold joinFor
    obtain ⟨error, d', hd', hcut, hleft⟩ | ⟨d', hd', hoffset', hdepth', -⟩ := hq.hit_again hseparator hoffset hdepth
    · rw [hd']
      exact ⟨(Outcome.cutOff_fail error).1 hcut, hleft⟩
    have hpaid := hspends.of_hit hd'
    rw [hd']
    dsimp only
    obtain ⟨error, e', he', hcut, hleft⟩ | ⟨e', he', hoffset'', hdepth'', hspent⟩ :=
      hu.hit_again helement hoffset' hdepth'
    · rw [he']
      exact ⟨(Outcome.cutOff_fail error).1 hcut, Nat.lt_of_lt_of_le hleft hfollows.fuel⟩
    rw [he']
    exact joinFor_spins n e' (hoffset''.trans hstill) (hdepth''.trans (hfollows'.depth.trans hfollows.depth)) (by omega)

theorem joined_spins (nonEmpty : Bool) (hoffset : c'.offset = c.offset) (hdepth : c'.depth = c.depth) :
    (joined nonEmpty q (fun _ => u) () c').1.CutOff ∧ (joined nonEmpty q (fun _ => u) () c').2.fuel < c.fuel := by
  have hfollows := hq.tame.follows_of_eq hseparator
  have hfollows' := hu.tame.follows_of_eq helement
  -- the separator has not moved either, so the element matches at the place where the join begins
  have hplace : d.offset = c.offset := Nat.le_antisymm (hstill ▸ hfollows'.offset) hfollows.offset
  unfold joined
  dsimp only
  obtain ⟨error, e', he', hcut, hleft⟩ | ⟨e', he', hoffset', hdepth', -⟩ :=
    hu.hit_again helement (hoffset.trans hplace.symm) (hdepth.trans hfollows.depth.symm)
  · rw [he']
    exact ⟨(Outcome.cutOff_fail error).1 hcut, Nat.lt_of_lt_of_le hleft hfollows.fuel⟩
  rw [he']
  exact joinFor_spins hq hu hspends hseparator helement hstill _ e' (hoffset'.trans hstill)
    (hdepth'.trans (hfollows'.depth.trans hfollows.depth)) (Nat.lt_succ_self _)

end Spinning
end Step

/-! ## Joins -/

theorem Node.Holds.mem_joints {ds : Definitions E} {j : Joint E} {a : Option Shape} {t : Shape} {x : Node E a t}
    (h : x.Holds ds j) : j ∈ x.joints ∨ ∃ u name p, ds.target u name = some p ∧ j ∈ Node.joints (p : Parser E u) := by
  induction h with
  | part h => exact .inl h
  | ref _ target _ ih =>
    obtain h | h := ih
    · exact .inr ⟨_, _, _, target, h⟩
    · exact .inr h

namespace Joint

variable {s : Setting E} (hi : s.input.WellFormed) {j : Joint E}
include hi

/-- A separator that is a token moves the turn, whatever the element does. -/
theorem moves_of_token {k : Nat} {exclusive : Bool} {text : String}
    (h : j.separator = .token (.pattern k) exclusive text) : j.Moves s := by
  intro depth _ _ c d e _ hd he
  rw [h] at hd
  obtain ⟨token, htoken, -⟩ := map_eq_hit.1 hd
  have hseparator := hi.accept_lt htoken
  have helement := ((j.element.recognize_tame hi).follows_of_eq he).offset
  omega

/-- Where a turn of the join has not moved, no amount of fuel leads out of it. -/
theorem spins (h : ¬ j.Moves s) : ∃ offset ≤ s.input.source.size, ∃ depth rest, ∀ nonEmpty, ∀ c : Cursor,
    c.offset = offset → c.depth = depth →
    ((Node.join nonEmpty j.separator j.element).recognize s c).1.CutOff ∧
    ((Node.join nonEmpty j.separator j.element).recognize s c).2.fuel < rest := by
  unfold Moves Moving at h
  push Not at h
  obtain ⟨depth, _, _, c, d, e, hc, hd, he, hstill⟩ := h
  refine ⟨c.offset, hc.within, c.depth, c.fuel, fun nonEmpty c' hoffset hdepth => ?_⟩
  rw [Node.recognize_join hi (hoffset ▸ hc.within)]
  exact joined_spins (j.separator.recognize_steady hi) (j.element.recognize_steady hi) (j.separator.recognize_spends hi)
    hd he hstill nonEmpty hoffset hdepth

end Joint

/-- **Some amount of fuel is enough where every turn of a join moves, and none is where one does not.**  If all joins of
a grammar, those that references come to included, move with each turn, then from any depth there is an amount with
which, or with more, recognizing ends in something else than spent fuel, and it spends no more than that; so does
parsing, from every accumulator, if no fold or mapping raises that error itself.  A join with a turn that does not move
is cut off by a limit at the place of that turn, whatever the fuel, and leaves less of it than a fixed amount; parsing
it there is an error as well. -/
theorem enough_fuel_of_moves (ds : Definitions E) (env : E) (lexer : Lexer) (text : String) (limit : Nat)
    {a : Option Shape} {t : Shape} (x : Node E a t) :
    let s : Setting E := ⟨ds, env, .of lexer (.ofString text), limit⟩
    ((∀ j, x.Holds ds j → j.Moves s) → ∀ depth, ∃ fuel, ∀ c : Cursor, c.offset ≤ s.input.source.size → c.depth = depth →
      fuel ≤ c.fuel →
        (x.recognize s c).1 ≠ .fail .fuelExhausted ∧ c.fuel ≤ (x.recognize s c).2.fuel + fuel ∧
        (¬ x.Raises ds env .fuelExhausted → ∀ left, (x.parse s left c).1 ≠ .fail .fuelExhausted)) ∧
    ∀ j : Joint E, ¬ j.Moves s → ∃ offset ≤ s.input.source.size, ∃ depth rest, ∀ nonEmpty, ∀ c : Cursor,
      c.offset = offset → c.depth = depth →
        let join := Node.join nonEmpty j.separator j.element
        (join.recognize s c).1.CutOff ∧ (join.recognize s c).2.fuel < rest ∧
        ∀ left, ∃ e, (join.parse s left c).1 = .fail e ∧
          ((Outcome.fail e : Outcome Unit).CutOff ∨ join.Raises ds env e) := by
  intro s
  have hi : s.input.WellFormed := Input.wellFormed_of lexer text
  have erases : ∀ {a : Option Shape} {t : Shape} (x : Node E a t) (left : Start a),
      Erases (x.Raises ds env) (x.parse s left) (x.recognize s) :=
    fun x left c => x.parseAt_erases (s.depth - c.depth) left (fun _ he => he) c
  constructor
  · intro hmoves depth
    obtain ⟨fuel, hfuel⟩ := x.recognize_affords hi hmoves depth
    refine ⟨fuel, fun c hc hdepth hle => ?_⟩
    obtain ⟨hne, hspent⟩ := hfuel ⟨hc, hdepth⟩ hle
    refine ⟨hne, hspent, fun hraises left hparse => hne ?_⟩
    rcases hp : x.parse s left c with ⟨o, d⟩
    rw [hp] at hparse
    cases hparse
    rw [(erases x left).of_fail (γ := Unit) hp (by rwa [Outcome.failsBy_fail])]
  · intro j hj
    obtain ⟨offset, hoffset, depth, rest, hspins⟩ := j.spins hi hj
    refine ⟨offset, hoffset, depth, rest, ?_⟩
    intro nonEmpty c hc hdepth join
    obtain ⟨hcut, hrest⟩ := hspins nonEmpty c hc hdepth
    refine ⟨hcut, hrest, fun left => ?_⟩
    rcases hp : join.parse s left c with ⟨o, d⟩
    cases o with
    | hit v =>
      rw [(erases join left).of_hit hp] at hcut
      exact absurd hcut (Outcome.not_cutOff_hit ())
    | miss =>
      rw [(erases join left).of_miss hp] at hcut
      exact absurd hcut Outcome.not_cutOff_miss
    | fail e =>
      refine ⟨e, rfl, ?_⟩
      by_cases hraises : join.Raises ds env e
      · exact .inr hraises
      · rw [(erases join left).of_fail (γ := Unit) hp (by rwa [Outcome.failsBy_fail])] at hcut
        exact .inl hcut

/-- The comma of a list has been accepted, so it has moved. -/
theorem enough_fuel_of_moves_nested :
    let s : Setting Unit := ⟨Nested.definitions, (), .of Nested.lexer (.ofString "[a, [a]]"), 5⟩
    (∀ j, Nested.nested.Holds Nested.definitions j → j.Moves s) ∧
    ∃ fuel, ∀ n ≥ fuel, (Nested.nested.recognize s ⟨0, 0, n, 0⟩).1 ≠ .fail .fuelExhausted := by
  intro s
  have hi : s.input.WellFormed := Input.wellFormed_of Nested.lexer "[a, [a]]"
  have hcomma : ∀ j ∈ Nested.nested.joints, j.separator = .token (.pattern 2) false "," := by
    intro j hj
    obtain rfl := List.mem_singleton.1 hj
    rfl
  have hmoves : ∀ j, Nested.nested.Holds Nested.definitions j → j.Moves s := by
    intro j hj
    have hseparator : j.separator = .token (.pattern 2) false "," := by
      obtain h | ⟨u, name, p, htarget, h⟩ := hj.mem_joints
      · exact hcomma j h
      · cases u with
        | list => cases htarget
        | value =>
          unfold Nested.definitions at htarget
          dsimp only at htarget
          split at htarget
          · cases htarget
            exact hcomma j h
          · cases htarget
    exact j.moves_of_token hi hseparator
  obtain ⟨fuel, hfuel⟩ :=
    (enough_fuel_of_moves Nested.definitions () Nested.lexer "[a, [a]]" 5 Nested.nested).1 hmoves 0
  exact ⟨hmoves, fuel, fun n hn => (hfuel ⟨0, 0, n, 0⟩ (Nat.zero_le _) rfl hn).1⟩

/-! ### A join that does not move -/

namespace Commas

def lexer : Lexer where
  patterns := [.text ","]
  regexes := [.literal [',']]
  skipped := [false]

/-- A comma that may be left out. -/
def comma : Recognizer := .opt false (.token (.pattern 0) false ",")

/-- Nothing, any number of times, with such commas between. -/
def nothings : Parser Unit .list := .seq false .emptyList (.join false comma (.map .identity))

def input : Input := .of lexer (.ofString "")

/-- Leaving the comma out costs an attempt at it. -/
theorem recognize_comma (furthest fuel depth : Nat) :
    comma.recognize input ⟨0, furthest, fuel + 1, depth⟩ = (.hit (), ⟨0, furthest, fuel, depth⟩) := by
  have hstop : Cursor.stop? input (.pattern 0) false (input.skipTrivia 0) = .ok none := by decide +kernel
  have haccept : Cursor.accept input (.pattern 0) false ⟨0, furthest, fuel + 1, depth⟩ =
      (.miss, ⟨0, furthest, fuel, depth⟩) := by
    simp only [Cursor.accept, Cursor.next, hstop]
  simp only [comma, Recognizer.recognize, Step.optional, Step.orElse, Step.void, Step.map, Step.bind, haccept, Step.hit]

theorem recognize_comma_spent (furthest depth : Nat) :
    comma.recognize input ⟨0, furthest, 0, depth⟩ = (.fail .fuelExhausted, ⟨0, furthest, 0, depth⟩) := rfl

/-- Every turn leaves one comma out and takes nothing. -/
theorem joinFor_comma {α : Type} (furthest depth : Nat) : ∀ (n fuel : Nat) (a : α),
    (joinFor (comma.recognize input) hit n a ⟨0, furthest, fuel, depth⟩).1 = .fail .fuelExhausted
  | 0, _, _ => rfl
  | n + 1, 0, a => by
    unfold joinFor
    rw [recognize_comma_spent]
  | n + 1, fuel + 1, a => by
    unfold joinFor
    rw [recognize_comma]
    exact joinFor_comma furthest depth n fuel a

theorem joined_comma {α : Type} (furthest fuel depth : Nat) (a : α) :
    (joined false (comma.recognize input) hit a ⟨0, furthest, fuel, depth⟩).1 = .fail .fuelExhausted :=
  joinFor_comma furthest depth (fuel + 1) fuel a

/-- What goes on with the join from the start ends as the join does. -/
theorem sequence_comma {α : Type} (expected : Unit → String) (limits : Limits) (a : α) :
    (Step.sequence input false expected (hit a) (joined false (comma.recognize input) hit) (.start limits)).1 =
      .fail .fuelExhausted := by
  have h := joined_comma 0 limits.fuel 0 a
  unfold Step.sequence
  rcases hd : joined false (comma.recognize input) hit a (.start limits) with ⟨o, d⟩
  rw [show joined false (comma.recognize input) hit a ⟨0, 0, limits.fuel, 0⟩ = (o, d) from hd] at h
  cases h
  simp only [hit, hd]

/-- **Leaving out commas between nothings takes all fuel**, however much there is, in parsing and in recognizing. -/
theorem nothings_exhaust_fuel :
    ¬ (∃ limits, nothings.parseSource .empty () limits input ≠ .error .fuelExhausted) ∧
    ¬ ∃ limits : Limits,
      (nothings.recognize ⟨.empty, (), input, limits.depth⟩ (.start limits)).1 ≠ .fail .fuelExhausted := by
  constructor
  · rintro ⟨limits, h⟩
    have hparse : (nothings.parse ⟨.empty, (), input, limits.depth⟩ () (.start limits)).1 = .fail .fuelExhausted := by
      unfold Node.parse
      rw [Node.parseAt_eq]
      exact sequence_comma _ limits []
    refine h ?_
    unfold Node.parseSource Node.parseRest
    rcases hp : nothings.parse ⟨.empty, (), input, limits.depth⟩ () (.start limits) with ⟨o, d⟩
    rw [hp] at hparse
    cases hparse
    rfl
  · rintro ⟨limits, h⟩
    refine h ?_
    unfold Node.recognize
    rw [Node.recognizeAt_eq]
    exact sequence_comma _ limits ()

end Commas
end Ambigram
