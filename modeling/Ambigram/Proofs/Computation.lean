import Ambigram.Proofs.Behaviour
import Ambigram.Proofs.Replay
/-!
# Steps compute behaviours

A step has bounds everywhere that its rules do not have: turns in its loops, levels in its references, places at which
trivia can be looked for.  None of them is ever felt.  Trivia end with the source, a turn of a repetition has moved and
a turn of a join has looked for its separator, both of which are paid for, and the levels are the room that is left.

Each way of putting steps together computes the behaviour that is put together in the same way.
-/
namespace Ambigram

variable {E α β : Type} {i : Input}

/-! ## Trivia -/

namespace Input.WellFormed

variable (hi : i.WellFormed)
include hi

theorem settles_go : ∀ (n offset : Nat), offset ≤ i.source.size → i.source.size - offset < n →
    i.Settles offset (Input.skipTrivia.go i n offset)
  | 0, _, _, hn => absurd hn (Nat.not_lt_zero _)
  | n + 1, offset, hoffset, hn => by
    unfold Input.skipTrivia.go
    cases hm : i.matchAt offset with
    | none => exact .nothing hm
    | some m =>
      dsimp only
      cases htrivia : i.lexer.isTrivia m with
      | false => exact .other hm htrivia
      | true =>
        have hahead := hi.ahead hm
        have hwithin := (hi.stretch hm).within hi.source hoffset
        exact .trivia hm htrivia (settles_go n m.stop hwithin (by omega))

theorem go_eq_of_settles {offset next : Nat} (h : i.Settles offset next) :
    ∀ n, offset ≤ i.source.size → i.source.size - offset ≤ n → Input.skipTrivia.go i (n + 1) offset = next := by
  induction h with
  | nothing h =>
    intro n _ _
    unfold Input.skipTrivia.go
    rw [h]
  | other h htrivia =>
    intro n _ _
    unfold Input.skipTrivia.go
    rw [h]
    dsimp only
    rw [htrivia]
    rfl
  | trivia h htrivia _ ih =>
    intro n hoffset hn
    have hahead := hi.ahead h
    have hwithin := (hi.stretch h).within hi.source hoffset
    -- behind the trivia there is still a place to look at, so the bound was not the last one
    obtain ⟨n, rfl⟩ := Nat.exists_eq_add_one_of_ne_zero (by omega : n ≠ 0)
    unfold Input.skipTrivia.go
    rw [h]
    dsimp only
    rw [htrivia]
    exact ih n hwithin (by omega)

/-- Trivia end where the bounded search for their end stops. -/
theorem settles_iff {offset next : Nat} (h : offset ≤ i.source.size) :
    i.Settles offset next ↔ i.skipTrivia offset = next := by
  have hbound : i.source.size - offset ≤ i.source.size := Nat.sub_le _ _
  constructor
  · exact fun hsettles => hi.go_eq_of_settles hsettles _ h hbound
  · rintro rfl
    exact hi.settles_go _ offset h (Nat.lt_succ_of_le hbound)

end Input.WellFormed

/-! ## Places -/

/-- The cursor is within the source, at a depth. -/
structure Cursor.Stands (i : Input) (depth : Nat) (c : Cursor) : Prop where
  within : c.offset ≤ i.source.size
  depth : c.depth = depth

namespace Cursor

variable {depth : Nat} {c d : Cursor}

theorem Follows.stands (h : Follows i c d) (hc : Stands i depth c) : Stands i depth d :=
  ⟨h.within hc.within, h.depth.trans hc.depth⟩

/-- Going back to a place within the source is never refused. -/
theorem Stands.restore_eq (hc : Stands i depth c) (d : Cursor) :
    Cursor.restore i c.offset d = (.hit (), d.goTo c.offset) := by
  unfold restore setOffset
  by_cases hd : d.offset = c.offset
  · rw [if_pos hd, ← hd]
    rfl
  · rw [if_neg hd, if_pos hc.within]

theorem Stands.enter_eq_of_le {limit : Nat} (hc : Stands i depth c) (h : limit ≤ depth) :
    Cursor.enter limit c = (.fail .recursionLimit, c) :=
  if_pos (by rw [hc.depth]; exact h)

theorem Stands.enter_eq_of_lt {limit : Nat} (hc : Stands i depth c) (h : depth < limit) :
    Cursor.enter limit c = (.hit (), { c with depth := c.depth + 1 }) :=
  if_neg (by rw [hc.depth]; exact Nat.not_le_of_lt h)

/-- One reference deeper. -/
theorem Stands.deeper (hc : Stands i depth c) : Stands i (depth + 1) { c with depth := c.depth + 1 } :=
  ⟨hc.within, congrArg (· + 1) hc.depth⟩

end Cursor

/-! ## Computing

A derivation can be too shallow for a run: references may be within one another more often than it has levels for.  So
the run has one only where these suffice, which is what `complete` says, but whatever is derived is what the step does.
-/

/-- From the places at a depth the step does what is derived, and what it does is derived if `complete`. -/
structure Step.Agrees (i : Input) (depth : Nat) (complete : Prop) (x : Step α) (X : Behaviour α) : Prop where
  sound : ∀ {c o d}, Cursor.Stands i depth c → X c o d → x c = (o, d)
  total : complete → ∀ c, Cursor.Stands i depth c → X c (x c).1 (x c).2

/-- The step does what is derived, and it is one that a choice or a loop can be made of. -/
structure Step.Computes (i : Input) (depth : Nat) (complete : Prop) (x : Step α) (X : Behaviour α) : Prop
    extends Agrees i depth complete x X where
  tame : Tame i x

open Behaviour
open Cursor (Follows Stands)

section Steps

variable {depth : Nat} {complete : Prop} {x y : Step α} {X Y : Behaviour α} {f : α → Step β} {F : α → Behaviour β}

namespace Step.Agrees

theorem total_of_eq (h : Agrees i depth complete x X) (hcomplete : complete) {c d : Cursor} {o : Outcome α}
    (hc : Stands i depth c) (hd : x c = (o, d)) : X c o d := by
  have := h.total hcomplete c hc
  rwa [hd] at this

theorem still (o : Outcome α) : Agrees i depth complete (Step.still o) (Still o) where
  sound := by
    rintro c o' d - ⟨⟩
    rfl
  total _ _ _ := .here

theorem bind (hx : Agrees i depth complete x X) (hfollows : ∀ c, Follows i c (x c).2)
    (hf : ∀ a, Agrees i depth complete (f a) (F a)) : Agrees i depth complete (x.bind f) (Bind X F) where
  sound := by
    intro c o d hc h
    unfold Step.bind
    cases h with
    | miss x | fail x => rw [hx.sound hc x]
    | goOn x f =>
      have hd := hx.sound hc x
      have hfollows := hfollows c
      rw [hd] at hfollows ⊢
      exact (hf _).sound (hfollows.stands hc) f
  total := by
    intro hcomplete c hc
    have hfollows := hfollows c
    unfold Step.bind
    rcases hd : x c with ⟨o, d⟩
    rw [hd] at hfollows
    have hx' := hx.total_of_eq hcomplete hc hd
    cases o with
    | hit a => exact .goOn hx' ((hf a).total hcomplete d (hfollows.stands hc))
    | miss => exact .miss hx'
    | fail e => exact .fail hx'

theorem backtrack (hx : Agrees i depth complete x X) : Agrees i depth complete x.backtrack (Backtrack i X) where
  sound := by
    intro c o d hc h
    unfold Step.backtrack
    cases h with
    | ended x h =>
      rw [hx.sound hc x]
      cases o with
      | miss => exact absurd rfl h
      | hit _ => rfl
      | fail _ => rfl
    | back x restored =>
      rw [hc.restore_eq] at restored
      cases restored
      rw [hx.sound hc x]
  total := by
    intro hcomplete c hc
    unfold Step.backtrack
    rcases hd : x c with ⟨o, d⟩
    have hx' := hx.total_of_eq hcomplete hc hd
    cases o with
    | hit a => exact .ended hx' (by simp)
    | miss => exact .back hx' (hc.restore_eq d)
    | fail e => exact .ended hx' (by simp)

end Step.Agrees

namespace Step.Computes

theorem stands (h : Computes i depth complete x X) {c d : Cursor} {o : Outcome α} (hc : Stands i depth c)
    (hd : x c = (o, d)) : Stands i depth d :=
  (h.tame.follows_of_eq hd).stands hc

theorem still (o : Outcome α) : Computes i depth complete (Step.still o) (Still o) where
  toAgrees := .still o
  tame := .outcome o

theorem accept (hi : i.WellFormed) (token : TokenId) (exclusive : Bool) :
    Computes i depth complete (Cursor.accept i token exclusive) (Accept i token exclusive) where
  tame := hi.accept_tame token exclusive
  sound := by
    intro c o d hc h
    unfold Cursor.accept
    cases h with
    | spent h => rw [h]
    | found paid settled h | missing paid settled h | refused paid settled h =>
      rw [paid]
      dsimp only [Cursor.next]
      rw [(hi.settles_iff hc.within).1 settled, h]
  total := by
    intro _ c hc
    have settled := (hi.settles_iff hc.within).2 rfl
    unfold Cursor.accept
    cases hfuel : c.fuel with
    | zero => exact .spent hfuel
    | succ fuel =>
      dsimp only [Cursor.next]
      cases hstop : Cursor.stop? i token exclusive (i.skipTrivia c.offset) with
      | error e => exact .refused hfuel settled hstop
      | ok stop =>
        cases stop with
        | none => exact .missing hfuel settled hstop
        | some stop => exact .found hfuel settled hstop

/-! ## One step after another -/

/-- What is computed from a value never misses. -/
theorem made (hx : Computes i depth complete x X) (r : α → Except Error β) :
    Computes i depth complete (x.bind fun a => Step.still (.ofExcept (r a)))
      (Bind X fun a => Still (.ofExcept (r a))) where
  toAgrees := hx.toAgrees.bind hx.tame.follows fun _ => .still _
  tame := hx.tame.bind (fun _ => .outcome _) fun _ c => Node.still_ofExcept_ne_miss _ c

theorem map (hx : Computes i depth complete x X) (g : α → β) :
    Computes i depth complete (x.map g) (Bind X fun a => Still (.hit (g a))) where
  toAgrees := hx.toAgrees.bind hx.tame.follows fun _ => .still _
  tame := hx.tame.map g

theorem sequence (hi : i.WellFormed) {b : Bool} {expected : Unit → String} (hx : Computes i depth complete x X)
    (hf : ∀ a, Computes i depth complete (f a) (F a)) :
    Computes i depth complete (Step.sequence i b expected x f) (Sequence i b expected X F) where
  tame := hx.tame.sequence fun a => (hf a).tame
  sound := by
    intro c o d hc h
    unfold Step.sequence
    cases h with
    | miss x | fail x => rw [hx.sound hc x]
    | both x f h =>
      have hd := hx.sound hc x
      rw [hd]
      dsimp only
      rw [(hf _).sound (hx.stands hc hd) f]
      cases o with
      | miss => exact absurd rfl h
      | hit _ => rfl
      | fail _ => rfl
    | back x f h restored =>
      have hd := hx.sound hc x
      rw [hc.restore_eq] at restored
      cases restored
      rw [hd]
      dsimp only
      rw [(hf _).sound (hx.stands hc hd) f, h]
      rfl
    | commit x f h settled =>
      have hd := hx.sound hc x
      have hd' := (hf _).sound (hx.stands hc hd) f
      have hnext := (hi.settles_iff ((hf _).stands (hx.stands hc hd) hd').within).1 settled
      rw [hd]
      dsimp only [Cursor.next]
      rw [hd', h]
      dsimp only
      rw [hnext]
      rfl
  total := by
    intro hcomplete c hc
    unfold Step.sequence
    rcases hd : x c with ⟨o, d⟩
    have hx' := hx.total_of_eq hcomplete hc hd
    cases o with
    | hit a =>
      dsimp only
      rcases hd' : f a d with ⟨p, d'⟩
      have hf' := (hf a).total_of_eq hcomplete (hx.stands hc hd) hd'
      cases p with
      | hit v => exact .both hx' hf' (by simp)
      | miss =>
        cases b with
        | true => exact .back hx' hf' rfl (hc.restore_eq d')
        | false =>
          have hwithin := ((hf a).stands (hx.stands hc hd) hd').within
          exact .commit hx' hf' rfl ((hi.settles_iff hwithin).2 rfl)
      | fail e => exact .both hx' hf' (by simp)
    | miss => exact .miss hx'
    | fail e => exact .fail hx'

theorem orElse (hx : Computes i depth complete x X) (hy : Computes i depth complete y Y) :
    Computes i depth complete (x.orElse y) (OrElse X Y) where
  tame := hx.tame.orElse hy.tame
  sound := by
    intro c o d hc h
    unfold Step.orElse
    cases h with
    | first x h =>
      rw [hx.sound hc x]
      cases o with
      | miss => exact absurd rfl h
      | hit _ => rfl
      | fail _ => rfl
    | second x y =>
      have hd := hx.sound hc x
      rw [hd]
      exact hy.sound (hx.stands hc hd) y
  total := by
    intro hcomplete c hc
    unfold Step.orElse
    rcases hd : x c with ⟨o, d⟩
    have hx' := hx.total_of_eq hcomplete hc hd
    cases o with
    | hit a => exact .first hx' (by simp)
    | miss => exact .second hx' (hy.total hcomplete d (hx.stands hc hd))
    | fail e => exact .first hx' (by simp)

/-! ## Loops

The bound of a loop is more than the fuel where the loop begins, and it stays more than the fuel that is left. -/

section Loops

variable {u : α → Step α} {U : α → Behaviour α} (hu : ∀ a, Computes i depth complete (u a) (U a))
include hu

theorem optional (a : α) : Computes i depth complete (Step.optional u a) (Optional U a) := (hu a).orElse (still _)

theorem repeatFor_eq {a : α} {c d : Cursor} {o : Outcome α} (h : Repeated U a c o d) :
    ∀ n, c.fuel ≤ n → Stands i depth c → Step.repeatFor u (n + 1) a c = (o, d) := by
  induction h with
  | stop h | fail h =>
    intro n _ hc
    unfold Step.repeatFor
    rw [(hu _).sound hc h]
  | still h hstill =>
    intro n _ hc
    unfold Step.repeatFor
    rw [(hu _).sound hc h]
    exact if_pos hstill
  | more h hmoved _ ih =>
    intro n hn hc
    have hd := (hu _).sound hc h
    have hpaid := ((hu _).tame.follows_of_eq hd).paid hmoved
    -- the move took fuel, so the bound is above zero, and less one it is still no less than the fuel that is left
    obtain ⟨n, rfl⟩ := Nat.exists_eq_add_one_of_ne_zero (by omega : n ≠ 0)
    unfold Step.repeatFor
    rw [hd]
    dsimp only
    rw [if_neg hmoved]
    exact ih n (by omega) ((hu _).stands hc hd)

theorem repeated_repeatFor (hcomplete : complete) : ∀ (n : Nat) (a : α) (c : Cursor), c.fuel < n → Stands i depth c →
    Repeated U a c (Step.repeatFor u n a c).1 (Step.repeatFor u n a c).2
  | 0, _, _, hn, _ => absurd hn (Nat.not_lt_zero _)
  | n + 1, a, c, hn, hc => by
    unfold Step.repeatFor
    rcases hd : u a c with ⟨o, d⟩
    have h := (hu a).total_of_eq hcomplete hc hd
    cases o with
    | hit b =>
      dsimp only
      by_cases hmoved : d.offset = c.offset
      · rw [if_pos hmoved]
        exact .still h hmoved
      · have hpaid := ((hu a).tame.follows_of_eq hd).paid hmoved
        rw [if_neg hmoved]
        exact .more h hmoved (repeated_repeatFor hcomplete n b d (by omega) ((hu a).stands hc hd))
    | miss => exact .stop h
    | fail e => exact .fail h

theorem repeated (a : α) : Computes i depth complete (Step.repeated u a) (Repeated U a) where
  tame := .repeated (fun a => (hu a).tame) a
  sound hc h := repeatFor_eq hu h _ (Nat.le_refl _) hc
  total hcomplete c hc := repeated_repeatFor hu hcomplete _ a c (Nat.lt_succ_self _) hc

theorem times_agrees : ∀ (n : Nat) (a : α), Agrees i depth complete (Step.times u n a) (Times U n a)
  | 0, a => .still (.hit a)
  | n + 1, a => (hu a).toAgrees.bind (hu a).tame.follows (times_agrees n)

theorem atLeast (n : Nat) (a : α) : Computes i depth complete (Step.atLeast n u a) (AtLeast i n U a) where
  toAgrees := ((times_agrees hu n a).bind (Tame.follows_times (fun a => (hu a).tame) n a) fun b =>
    (repeated hu b).toAgrees).backtrack
  tame := .atLeast (fun a => (hu a).tame) n a

/-! A turn of a join may not have moved, but looking for its separator was paid for. -/

variable {q : Step Unit} {Q : Behaviour Unit} (hq : Computes i depth complete q Q) (hspends : Spends q)
include hq hspends

theorem joinFor_eq {a : α} {c d : Cursor} {o : Outcome α} (h : Tail i Q U a c o d) :
    ∀ n, c.fuel ≤ n → Stands i depth c → Step.joinFor q u (n + 1) a c = (o, d) := by
  induction h with
  | stop h | failBetween h =>
    intro n _ hc
    unfold Step.joinFor
    rw [hq.sound hc h]
  | fail h h' =>
    intro n _ hc
    have hd := hq.sound hc h
    unfold Step.joinFor
    rw [hd]
    dsimp only
    rw [(hu _).sound (hq.stands hc hd) h']
  | givenBack h h' restored =>
    intro n _ hc
    have hd := hq.sound hc h
    rw [hc.restore_eq] at restored
    cases restored
    unfold Step.joinFor
    rw [hd]
    dsimp only
    rw [(hu _).sound (hq.stands hc hd) h']
  | more h h' _ ih =>
    intro n hn hc
    have hd := hq.sound hc h
    have hd' := (hu _).sound (hq.stands hc hd) h'
    have hpaid := hspends.of_hit hd
    have hfuel := ((hu _).tame.follows_of_eq hd').fuel
    obtain ⟨n, rfl⟩ := Nat.exists_eq_add_one_of_ne_zero (by omega : n ≠ 0)
    unfold Step.joinFor
    rw [hd]
    dsimp only
    rw [hd']
    exact ih n (by omega) ((hu _).stands (hq.stands hc hd) hd')

theorem tail_joinFor (hcomplete : complete) : ∀ (n : Nat) (a : α) (c : Cursor), c.fuel < n → Stands i depth c →
    Tail i Q U a c (Step.joinFor q u n a c).1 (Step.joinFor q u n a c).2
  | 0, _, _, hn, _ => absurd hn (Nat.not_lt_zero _)
  | n + 1, a, c, hn, hc => by
    unfold Step.joinFor
    rcases hd : q c with ⟨o, d⟩
    have h := hq.total_of_eq hcomplete hc hd
    cases o with
    | hit b =>
      dsimp only
      rcases hd' : u a d with ⟨o', d'⟩
      have h' := (hu a).total_of_eq hcomplete (hq.stands hc hd) hd'
      cases o' with
      | hit b' =>
        have hpaid := hspends.of_hit hd
        have hfuel := ((hu a).tame.follows_of_eq hd').fuel
        exact .more h h' (tail_joinFor hcomplete n b' d' (by omega) ((hu a).stands (hq.stands hc hd) hd'))
      | miss => exact .givenBack h h' (hc.restore_eq d')
      | fail e => exact .fail h h'
    | miss => exact .stop h
    | fail e => exact .failBetween h

theorem joined (nonEmpty : Bool) (a : α) :
    Computes i depth complete (Step.joined nonEmpty q u a) (Joined i nonEmpty Q U a) where
  sound := by
    intro c o d hc h
    unfold Step.joined
    cases h with
    | none h | fail h => rw [(hu a).sound hc h]
    | some h rest =>
      have hd := (hu a).sound hc h
      rw [hd]
      exact joinFor_eq hu hq hspends rest _ (Nat.le_refl _) ((hu a).stands hc hd)
  total := by
    intro hcomplete c hc
    unfold Step.joined
    rcases hd : u a c with ⟨o, d⟩
    have h := (hu a).total_of_eq hcomplete hc hd
    cases o with
    | hit b => exact .some h (tail_joinFor hu hq hspends hcomplete _ b d (Nat.lt_succ_self _) ((hu a).stands hc hd))
    | miss => exact .none h
    | fail e => exact .fail h
  tame := .joined nonEmpty hq.tame (fun a => (hu a).tame) a

end Loops

end Step.Computes

end Steps

/-! ## Recognizers -/

open Step

theorem Recognizer.recognize_computes (hi : i.WellFormed) {depth : Nat} {complete : Prop} :
    ∀ r : Recognizer, Computes i depth complete (r.recognize i) (r.Recognizes i)
  | .token id exclusive _ => (Computes.accept hi id exclusive).map _
  | .seq _ x y => (x.recognize_computes hi).sequence hi fun _ => y.recognize_computes hi
  | .choice x y => (x.recognize_computes hi).orElse (y.recognize_computes hi)
  | .rep x => Computes.repeated (fun _ => x.recognize_computes hi) ()
  | .opt _ x => Computes.optional (fun _ => x.recognize_computes hi) ()
  | .annotate _ x => x.recognize_computes hi

/-! ## Nodes -/

namespace Node

variable {env : E} {a : Option Shape} {t : Shape} {depth : Nat} {complete : Prop}

theorem recognizeWith_computes (hi : i.WellFormed) {onRef : Shape → String → Step Unit}
    {OnRef : Shape → String → Behaviour Unit} (h : ∀ t name, Computes i depth complete (onRef t name) (OnRef t name))
    (x : Node E a t) : Computes i depth complete (x.recognizeWith onRef i) (x.RecognizesWith OnRef i) := by
  induction x with
  | scan id exclusive label m => exact (Computes.accept hi id exclusive).map _
  | initial v => exact Computes.still _
  | emptyList => exact Computes.still _
  | ref name => exact h _ name
  | fold p f ih => exact ih
  | map m => exact Computes.still _
  | seq b x y ihx ihy => exact ihx.sequence hi fun _ => ihy
  | before b r x ih => exact (r.recognize_computes hi).sequence hi fun _ => ih
  | after b x r ih => exact ih.sequence hi fun _ => r.recognize_computes hi
  | choice x y ihx ihy => exact ihx.orElse ihy
  | rep x ih => exact Computes.repeated (fun _ => ih) ()
  | opt x ih => exact Computes.optional (fun _ => ih) ()
  | atLeast n x ih => exact Computes.atLeast (fun _ => ih) n ()
  | join nonEmpty q x ih =>
    exact Computes.joined (fun _ => ih) (q.recognize_computes hi) (q.recognize_spends hi) nonEmpty ()
  | annotate k x ih => exact ih

theorem parseWith_computes (hi : i.WellFormed) {onRef : (t : Shape) → String → Step t.Carrier}
    {OnRef : (t : Shape) → String → Behaviour t.Carrier}
    (h : ∀ t name, Computes i depth complete (onRef t name) (OnRef t name)) (x : Node E a t) (left : Start a) :
    Computes i depth complete (x.parseWith onRef i env left) (x.ParsesWith OnRef i env left) := by
  induction x with
  | scan id exclusive label m => exact (Computes.accept hi id exclusive).made _
  | initial v => exact Computes.still _
  | emptyList => exact Computes.still _
  | ref name => exact h _ name
  | fold p f ih => exact (ih ()).made _
  | map m => exact Computes.still _
  | seq b x y ihx ihy => exact (ihx left).sequence hi ihy
  | before b r x ih => exact (r.recognize_computes hi).sequence hi fun _ => ih left
  | after b x r ih => exact (ih left).sequence hi fun v => (r.recognize_computes hi).map fun _ => v
  | choice x y ihx ihy => exact (ihx left).orElse (ihy left)
  | rep x ih => exact Computes.repeated ih left
  | opt x ih => exact Computes.optional ih left
  | atLeast n x ih => exact Computes.atLeast ih n left
  | join nonEmpty q x ih =>
    exact Computes.joined ih (q.recognize_computes hi) (q.recognize_spends hi) nonEmpty left
  | annotate k x ih => exact ih left

end Node

/-! ## References

The levels of a run are the room that is left, and a derivation with as many levels is deep enough for it. -/

namespace Step.Computes

variable {depth : Nat} {complete complete' : Prop} {x : Step α} {X : Behaviour α}

theorem imp (h : Computes i depth complete x X) (hcomplete : complete' → complete) : Computes i depth complete' x X where
  sound := h.sound
  total hc := h.total (hcomplete hc)
  tame := h.tame

/-- Nothing is derived where there is no level left to derive it in. -/
theorem nothing (htame : Tame i x) (hcomplete : ¬ complete) : Computes i depth complete x fun _ _ _ => False where
  sound _ h := h.elim
  total hc := absurd hc hcomplete
  tame := htame

end Step.Computes

variable {ds : Definitions E} {env : E} {limit : Nat}

namespace Definitions

variable {depth : Nat} {complete : Prop} {t : Shape} {name : String}

theorem follow_computes_of_le {deeper : Parser E t → Behaviour α} (h : limit ≤ depth) :
    Computes i depth complete (ds.follow t name none) (Follow ds limit t name deeper) where
  tame := follow_tame name fun run hrun => by cases hrun
  sound := by
    intro c o d hc hfollow
    unfold follow
    cases hfollow with
    | undefined htarget =>
      rw [htarget]
      rfl
    | refused htarget full =>
      rw [hc.enter_eq_of_le h] at full
      cases full
      rw [htarget]
      rfl
    | entered htarget room _ =>
      rw [hc.enter_eq_of_le h] at room
      cases room
  total := by
    intro _ c hc
    unfold follow
    cases htarget : ds.target t name with
    | none => exact .undefined htarget
    | some p => exact .refused htarget (hc.enter_eq_of_le h)

theorem follow_computes_of_lt {run : Parser E t → Step α} {deeper : Parser E t → Behaviour α} (h : depth < limit)
    (hrun : ∀ p, Computes i (depth + 1) complete (run p) (deeper p)) :
    Computes i depth complete (ds.follow t name (some run)) (Follow ds limit t name deeper) where
  tame := follow_tame name fun run' hrun' p => by
    cases hrun'
    exact (hrun p).tame
  sound := by
    intro c o d hc hfollow
    unfold follow
    cases hfollow with
    | undefined htarget =>
      rw [htarget]
      rfl
    | refused htarget full =>
      rw [hc.enter_eq_of_lt h] at full
      cases full
    | entered htarget room derived =>
      rw [hc.enter_eq_of_lt h] at room
      cases room
      rw [htarget]
      dsimp only [Step.nested]
      rw [(hrun _).sound hc.deeper derived]
  total := by
    intro hcomplete c hc
    unfold follow
    cases htarget : ds.target t name with
    | none => exact .undefined htarget
    | some p => exact .entered htarget (hc.enter_eq_of_lt h) ((hrun p).total hcomplete _ hc.deeper)

/-- What references do at a depth, by what they do with so many levels left. -/
theorem follow_computes (refs : Nat → Step α) {run : Nat → Parser E t → Step α} {deeper : Parser E t → Behaviour α}
    (hfull : refs 0 = ds.follow t name none) (hroom : ∀ n, refs (n + 1) = ds.follow t name (some (run n)))
    (hrun : depth < limit → ∀ p, Computes i (depth + 1) complete (run (limit - (depth + 1)) p) (deeper p)) :
    Computes i depth complete (refs (limit - depth)) (Follow ds limit t name deeper) := by
  by_cases h : limit ≤ depth
  · rw [Nat.sub_eq_zero_of_le h, hfull]
    exact follow_computes_of_le h
  · have h := Nat.lt_of_not_le h
    rw [show limit - depth = limit - (depth + 1) + 1 by omega, hroom]
    exact follow_computes_of_lt h (hrun h)

end Definitions

section References

variable (hi : i.WellFormed)
include hi

theorem Definitions.recognizeRef_computes : ∀ (n depth : Nat) (t : Shape) (name : String),
    Computes i depth (limit - depth ≤ n) (ds.recognizeRef i (limit - depth) t name) (ds.RecognizesRef i limit n t name)
  | 0, depth, t, name =>
    follow_computes (fun n => ds.recognizeRef i n t name) rfl (fun _ => rfl) fun hlimit p =>
      .nothing (p.recognizeAt_tame hi _) (by omega)
  | n + 1, depth, t, name =>
    follow_computes (fun n => ds.recognizeRef i n t name) rfl (fun _ => rfl) fun hlimit p => by
      rw [Node.recognizeAt_eq]
      exact (p.recognizeWith_computes hi (recognizeRef_computes n (depth + 1))).imp (by omega)

theorem Definitions.parseRef_computes : ∀ (n depth : Nat) (t : Shape) (name : String),
    Computes i depth (limit - depth ≤ n) (ds.parseRef i env (limit - depth) t name) (ds.ParsesRef i env limit n t name)
  | 0, depth, t, name =>
    follow_computes (fun n => ds.parseRef i env n t name) rfl (fun _ => rfl) fun hlimit p =>
      .nothing (p.parseAt_tame hi _ ()) (by omega)
  | n + 1, depth, t, name =>
    follow_computes (fun n => ds.parseRef i env n t name) rfl (fun _ => rfl) fun hlimit p => by
      rw [Node.parseAt_eq]
      exact (p.parseWith_computes hi (parseRef_computes n (depth + 1)) ()).imp (by omega)

variable {a : Option Shape} {t : Shape}

theorem Node.recognizeAt_computes (x : Node E a t) (n depth : Nat) :
    Computes i depth (limit - depth ≤ n) (x.recognizeAt ds i (limit - depth))
      (x.RecognizesWith (ds.RecognizesRef i limit n) i) := by
  rw [recognizeAt_eq]
  exact x.recognizeWith_computes hi (Definitions.recognizeRef_computes hi n depth)

theorem Node.parseAt_computes (x : Node E a t) (left : Start a) (n depth : Nat) :
    Computes i depth (limit - depth ≤ n) (x.parseAt ds i env (limit - depth) left)
      (x.ParsesWith (ds.ParsesRef i env limit n) i env left) := by
  rw [parseAt_eq]
  exact x.parseWith_computes hi (Definitions.parseRef_computes hi n depth) left

end References
end Ambigram
