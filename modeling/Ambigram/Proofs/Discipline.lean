import Ambigram.Grammar.Parse
import Ambigram.Proofs.Extent
/-!
# Discipline

What every step keeps to, wherever it begins and however it ends: it goes forward within the source, it is at
the depth where it began, it gets no fuel back, and it pays fuel for every move.  A step that does not match
has not moved at all, which is what lets a choice go on with its second branch.

The nodes keep to it because every way of putting steps together does.
-/
namespace Ambigram

variable {E α β : Type} {i : Input}

/-! ## Where a step can end -/

/-- `d` can be where a step ends that began at `c`. -/
structure Cursor.Follows (i : Input) (c d : Cursor) : Prop where
  offset : c.offset ≤ d.offset
  within : c.offset ≤ i.source.size → d.offset ≤ i.source.size
  furthest : c.furthest ≤ d.furthest
  ahead : c.offset ≤ c.furthest → d.offset ≤ d.furthest
  depth : d.depth = c.depth
  fuel : d.fuel ≤ c.fuel
  paid : d.offset ≠ c.offset → d.fuel < c.fuel

namespace Cursor.Follows

variable {c d e : Cursor}

theorem refl (c : Cursor) : Follows i c c where
  offset := Nat.le_refl _
  within h := h
  furthest := Nat.le_refl _
  ahead h := h
  depth := rfl
  fuel := Nat.le_refl _
  paid h := absurd rfl h

theorem trans (h : Follows i c d) (k : Follows i d e) : Follows i c e where
  offset := Nat.le_trans h.offset k.offset
  within hc := k.within (h.within hc)
  furthest := Nat.le_trans h.furthest k.furthest
  ahead hc := k.ahead (h.ahead hc)
  depth := k.depth.trans h.depth
  fuel := Nat.le_trans k.fuel h.fuel
  paid he := by
    by_cases hd : d.offset = c.offset
    · exact Nat.lt_of_lt_of_le (k.paid (by rw [hd]; exact he)) h.fuel
    · exact Nat.lt_of_le_of_lt k.fuel (h.paid hd)

/-- Going back to where the step began is no move. -/
theorem goTo (h : Follows i c d) : Follows i c (d.goTo c.offset) where
  offset := Nat.le_refl _
  within hc := hc
  furthest := h.furthest
  ahead hc := Nat.le_trans hc h.furthest
  depth := h.depth
  fuel := h.fuel
  paid hd := absurd rfl hd

end Cursor.Follows

/-- Every way a step can end follows its beginning, and a non-match has not moved. -/
structure Step.Tame (i : Input) (x : Step α) : Prop where
  follows : ∀ c, Cursor.Follows i c (x c).2
  still : ∀ c, (x c).1 = .miss → (x c).2.offset = c.offset

namespace Step.Tame

open Cursor (Follows)

variable {x y : Step α} {f : α → Step β} {u : α → Step α}

theorem follows_of_eq (h : Tame i x) {c d : Cursor} {o : Outcome α} (hc : x c = (o, d)) : Follows i c d := by
  have := h.follows c
  rwa [hc] at this

theorem still_of_eq (h : Tame i x) {c d : Cursor} (hc : x c = (.miss, d)) : d.offset = c.offset := by
  have := h.still c
  rw [hc] at this
  exact this rfl

theorem hit (a : α) : Tame i (Step.hit a) := ⟨fun c => .refl c, fun _ _ => rfl⟩

theorem outcome (o : Outcome α) : Tame i (Step.still o) := ⟨fun c => .refl c, fun _ _ => rfl⟩

theorem fail (e : Error) : Tame i (Step.fail e : Step α) := ⟨fun c => .refl c, fun _ _ => rfl⟩

/-! ## One step after another

Going on from a match can miss after it has moved, so on its own that is not tame.  It is where the second
step always stays or the whole goes back. -/

theorem follows_bind (hx : Tame i x) (hf : ∀ a, Tame i (f a)) (c : Cursor) : Follows i c (x.bind f c).2 := by
  unfold Step.bind
  rcases hc : x c with ⟨o, d⟩
  cases o with
  | hit a => exact (hx.follows_of_eq hc).trans ((hf a).follows d)
  | miss => exact hx.follows_of_eq hc
  | fail e => exact hx.follows_of_eq hc

theorem bind (hx : Tame i x) (hf : ∀ a, Tame i (f a)) (hhit : ∀ a c, (f a c).1 ≠ .miss) : Tame i (x.bind f) := by
  refine ⟨hx.follows_bind hf, fun c h => ?_⟩
  unfold Step.bind at h ⊢
  rcases hc : x c with ⟨o, d⟩
  rw [hc] at h
  cases o with
  | hit a => exact absurd h (hhit a d)
  | miss => exact hx.still_of_eq hc
  | fail e => cases h

theorem map (f : α → β) (hx : Tame i x) : Tame i (x.map f) := hx.bind (fun a => hit (f a)) fun _ _ h => by cases h

theorem void (hx : Tame i x) : Tame i x.void := hx.map _

theorem backtrack (hx : ∀ c, Follows i c (x c).2) : Tame i x.backtrack := by
  refine ⟨fun c => ?_, fun c h => ?_⟩
  · have hf := hx c
    unfold Step.backtrack
    rcases hc : x c with ⟨o, d⟩
    rw [hc] at hf
    cases o with
    | hit a => exact hf
    | miss => exact hf.goTo
    | fail e => exact hf
  · unfold Step.backtrack at h ⊢
    rcases hc : x c with ⟨o, d⟩
    rw [hc] at h
    cases o with
    | hit a => cases h
    | miss => rfl
    | fail e => cases h

theorem sequence {b : Bool} {expected : Unit → String} (hx : Tame i x) (hf : ∀ a, Tame i (f a)) :
    Tame i (Step.sequence i b expected x f) := by
  refine ⟨fun c => ?_, fun c h => ?_⟩
  · unfold Step.sequence
    rcases hc : x c with ⟨o, d⟩
    have hcd := hx.follows_of_eq hc
    cases o with
    | hit a =>
      dsimp only
      rcases hd : f a d with ⟨p, e⟩
      have hce := hcd.trans ((hf a).follows_of_eq hd)
      cases p with
      | hit v => exact hce
      | miss =>
        cases b with
        | true => exact hce.goTo
        | false => exact hce
      | fail e' => exact hce
    | miss => exact hcd
    | fail e => exact hcd
  · unfold Step.sequence at h ⊢
    rcases hc : x c with ⟨o, d⟩
    rw [hc] at h
    cases o with
    | hit a =>
      dsimp only at h ⊢
      rcases hd : f a d with ⟨p, e⟩
      rw [hd] at h
      cases p with
      | hit v => cases h
      | miss =>
        cases b with
        | true => rfl
        | false => cases h
      | fail e' => cases h
    | miss => exact hx.still_of_eq hc
    | fail e => cases h

theorem orElse (hx : Tame i x) (hy : Tame i y) : Tame i (x.orElse y) := by
  refine ⟨fun c => ?_, fun c h => ?_⟩
  · unfold Step.orElse
    rcases hc : x c with ⟨o, d⟩
    have hcd := hx.follows_of_eq hc
    cases o with
    | hit a => exact hcd
    | miss => exact hcd.trans (hy.follows d)
    | fail e => exact hcd
  · unfold Step.orElse at h ⊢
    rcases hc : x c with ⟨o, d⟩
    rw [hc] at h
    cases o with
    | hit a => cases h
    | miss => exact (hy.still d h).trans (hx.still_of_eq hc)
    | fail e => cases h

/-! ## Loops -/

theorem optional (hu : ∀ a, Tame i (u a)) (a : α) : Tame i (Step.optional u a) := (hu a).orElse (hit a)

theorem repeatFor_ne_miss (u : α → Step α) : ∀ (n : Nat) (a : α) (c : Cursor), (Step.repeatFor u n a c).1 ≠ .miss
  | 0, _, _, h => by cases h
  | n + 1, a, c, h => by
    unfold Step.repeatFor at h
    rcases hc : u a c with ⟨o, d⟩
    rw [hc] at h
    cases o with
    | hit b =>
      dsimp only at h
      split at h
      · cases h
      · exact repeatFor_ne_miss u n b d h
    | miss => cases h
    | fail e => cases h

theorem follows_repeatFor (hu : ∀ a, Tame i (u a)) :
    ∀ (n : Nat) (a : α) (c : Cursor), Follows i c (Step.repeatFor u n a c).2
  | 0, _, c => .refl c
  | n + 1, a, c => by
    unfold Step.repeatFor
    rcases hc : u a c with ⟨o, d⟩
    have hcd := (hu a).follows_of_eq hc
    cases o with
    | hit b =>
      dsimp only
      split
      · exact hcd
      · exact hcd.trans (follows_repeatFor hu n b d)
    | miss => exact hcd
    | fail e => exact hcd

theorem repeated (hu : ∀ a, Tame i (u a)) (a : α) : Tame i (Step.repeated u a) :=
  ⟨fun c => follows_repeatFor hu (c.fuel + 1) a c, fun c h => absurd h (repeatFor_ne_miss u (c.fuel + 1) a c)⟩

theorem follows_times (hu : ∀ a, Tame i (u a)) : ∀ (n : Nat) (a : α) (c : Cursor), Follows i c (Step.times u n a c).2
  | 0, _, c => .refl c
  | n + 1, a, c => by
    unfold Step.times Step.bind
    rcases hc : u a c with ⟨o, d⟩
    have hcd := (hu a).follows_of_eq hc
    cases o with
    | hit b => exact hcd.trans (follows_times hu n b d)
    | miss => exact hcd
    | fail e => exact hcd

theorem atLeast (hu : ∀ a, Tame i (u a)) (n : Nat) (a : α) : Tame i (Step.atLeast n u a) := by
  refine backtrack fun c => ?_
  unfold Step.bind
  rcases hc : Step.times u n a c with ⟨o, d⟩
  have hcd := follows_times hu n a c
  rw [hc] at hcd
  cases o with
  | hit b => exact hcd.trans ((repeated hu b).follows d)
  | miss => exact hcd
  | fail e => exact hcd

theorem joinFor_ne_miss (s : Step Unit) (u : α → Step α) :
    ∀ (n : Nat) (a : α) (c : Cursor), (Step.joinFor s u n a c).1 ≠ .miss
  | 0, _, _, h => by cases h
  | n + 1, a, c, h => by
    unfold Step.joinFor at h
    rcases hc : s c with ⟨o, d⟩
    rw [hc] at h
    cases o with
    | hit b =>
      dsimp only at h
      rcases hd : u a d with ⟨p, e⟩
      rw [hd] at h
      cases p with
      | hit b' => exact joinFor_ne_miss s u n b' e h
      | miss => cases h
      | fail e' => cases h
    | miss => cases h
    | fail e => cases h

theorem follows_joinFor {s : Step Unit} (hs : Tame i s) (hu : ∀ a, Tame i (u a)) :
    ∀ (n : Nat) (a : α) (c : Cursor), Follows i c (Step.joinFor s u n a c).2
  | 0, _, c => .refl c
  | n + 1, a, c => by
    unfold Step.joinFor
    rcases hc : s c with ⟨o, d⟩
    have hcd := hs.follows_of_eq hc
    cases o with
    | hit b =>
      dsimp only
      rcases hd : u a d with ⟨p, e⟩
      have hce := hcd.trans ((hu a).follows_of_eq hd)
      cases p with
      | hit b' => exact hce.trans (follows_joinFor hs hu n b' e)
      | miss => exact hce.goTo
      | fail e' => exact hce
    | miss => exact hcd
    | fail e => exact hcd

theorem joined {s : Step Unit} (nonEmpty : Bool) (hs : Tame i s) (hu : ∀ a, Tame i (u a)) (a : α) :
    Tame i (Step.joined nonEmpty s u a) := by
  refine ⟨fun c => ?_, fun c h => ?_⟩
  · unfold Step.joined
    rcases hc : u a c with ⟨o, d⟩
    have hcd := (hu a).follows_of_eq hc
    cases o with
    | hit b => exact hcd.trans (follows_joinFor hs hu (d.fuel + 1) b d)
    | miss => exact hcd
    | fail e => exact hcd
  · unfold Step.joined at h ⊢
    rcases hc : u a c with ⟨o, d⟩
    rw [hc] at h
    cases o with
    | hit b => exact absurd h (joinFor_ne_miss s u (d.fuel + 1) b d)
    | miss => exact (hu a).still_of_eq hc
    | fail e => cases h

theorem nested (hx : Tame i x) : Tame i x.nested := by
  refine ⟨fun c => ?_, fun c h => hx.still { c with depth := c.depth + 1 } h⟩
  have hf := hx.follows { c with depth := c.depth + 1 }
  exact
    { offset := hf.offset, within := hf.within, furthest := hf.furthest, ahead := hf.ahead, fuel := hf.fuel,
      paid := hf.paid, depth := by
        show (x { c with depth := c.depth + 1 }).2.depth - 1 = c.depth
        rw [hf.depth, Nat.add_sub_cancel] }

end Step.Tame

/-! ## Tokens -/

namespace Input.WellFormed

variable (hi : i.WellFormed)
include hi

theorem stretch_skipTrivia_go : ∀ n offset, i.source.Stretch offset (Input.skipTrivia.go i n offset)
  | 0, _ => .nil
  | n + 1, offset => by
    unfold Input.skipTrivia.go
    split
    · rename_i m hm
      split
      · exact (hi.stretch hm).trans (stretch_skipTrivia_go n m.stop)
      · exact .nil
    · exact .nil

theorem stretch_skipTrivia (offset : Nat) : i.source.Stretch offset (i.skipTrivia offset) :=
  hi.stretch_skipTrivia_go _ offset

/-- An accepted token is made of whole characters, and only the end of the input is empty. -/
theorem stretch_stop {id : TokenId} {exclusive : Bool} {start stop : Nat}
    (h : Cursor.stop? i id exclusive start = .ok (some stop)) :
    i.source.Stretch start stop ∧ (id = .endOfInput → stop = start) ∧ (id ≠ .endOfInput → start < stop) := by
  unfold Cursor.stop? at h
  split at h
  · rename_i hid
    split at h
    · cases h
      exact ⟨.nil, fun _ => rfl, fun hne => absurd hid hne⟩
    · cases h
  · rename_i hid
    split at h
    · cases hm : i.matchOnly start id with
      | error e => rw [hm] at h; cases h
      | ok m =>
        rw [hm] at h
        cases m with
        | none => cases h
        | some m =>
          cases h
          exact ⟨hi.stretchOnly hm, fun he => absurd he hid, fun _ => hi.aheadOnly hm⟩
    · obtain ⟨m, hm, rfl⟩ := Option.map_eq_some_iff.1 (Except.ok.inj h)
      have hm := (Option.filter_eq_some_iff.1 hm).1
      exact ⟨hi.stretch hm, fun he => absurd he hid, fun _ => hi.ahead hm⟩

theorem accept_tame (id : TokenId) (exclusive : Bool) : Step.Tame i (Cursor.accept i id exclusive) := by
  constructor
  · rintro ⟨offset, furthest, fuel, depth⟩
    cases fuel with
    | zero => exact .refl _
    | succ fuel =>
      simp only [Cursor.accept]
      split
      · rename_i stop hstop
        have hstretch : i.source.Stretch offset stop := (hi.stretch_skipTrivia offset).trans (hi.stretch_stop hstop).1
        exact
          { offset := hstretch.le
            within := hstretch.within hi.source
            furthest := Nat.le_max_left _ _
            ahead := fun _ => Nat.le_max_right _ _
            depth := rfl
            fuel := Nat.le_succ _
            paid := fun _ => Nat.lt_succ_self _ }
      all_goals
        exact
          { offset := Nat.le_refl _, within := fun h => h, furthest := Nat.le_refl _, ahead := fun h => h, depth := rfl,
            fuel := Nat.le_succ _, paid := fun h => absurd rfl h }
  · rintro ⟨offset, furthest, fuel, depth⟩ h
    cases fuel with
    | zero => rfl
    | succ fuel =>
      simp only [Cursor.accept] at h ⊢
      split at h
      · cases h
      · rfl
      · cases h

end Input.WellFormed

/-! ## Nodes -/

open Step

theorem Recognizer.recognize_tame (hi : i.WellFormed) : ∀ r : Recognizer, Tame i (r.recognize i)
  | .token id exclusive _ => (hi.accept_tame id exclusive).void
  | .seq _ x y => (x.recognize_tame hi).sequence fun _ => y.recognize_tame hi
  | .choice x y => (x.recognize_tame hi).orElse (y.recognize_tame hi)
  | .rep x => Tame.repeated (fun _ => x.recognize_tame hi) ()
  | .opt _ x => Tame.optional (fun _ => x.recognize_tame hi) ()
  | .annotate _ x => x.recognize_tame hi

namespace Node

variable {env : E} {a : Option Shape} {t : Shape}

theorem still_ofExcept_ne_miss (r : Except Error α) (c : Cursor) : (Step.still (.ofExcept r) c).1 ≠ .miss := by
  cases r <;> simp [Step.still, Outcome.ofExcept]

theorem recognizeWith_tame (hi : i.WellFormed) {onRef : Shape → String → Step Unit} (h : ∀ t name, Tame i (onRef t name))
    (x : Node E a t) : Tame i (x.recognizeWith onRef i) := by
  induction x with
  | scan id exclusive label mapping => exact (hi.accept_tame id exclusive).void
  | initial value => exact Tame.hit ()
  | emptyList => exact Tame.hit ()
  | ref name => exact h _ name
  | fold p f ih => exact ih
  | map m => exact Tame.hit ()
  | seq b x y ihx ihy => exact ihx.sequence fun _ => ihy
  | before b r x ih => exact (r.recognize_tame hi).sequence fun _ => ih
  | after b x r ih => exact ih.sequence fun _ => r.recognize_tame hi
  | choice x y ihx ihy => exact ihx.orElse ihy
  | rep x ih => exact Tame.repeated (fun _ => ih) ()
  | opt x ih => exact Tame.optional (fun _ => ih) ()
  | atLeast n x ih => exact Tame.atLeast (fun _ => ih) n ()
  | join nonEmpty sep x ih => exact Tame.joined nonEmpty (sep.recognize_tame hi) (fun _ => ih) ()
  | annotate c x ih => exact ih

theorem parseWith_tame (hi : i.WellFormed) {onRef : (t : Shape) → String → Step t.Carrier}
    (h : ∀ t name, Tame i (onRef t name)) (x : Node E a t) (left : Start a) :
    Tame i (x.parseWith onRef i env left) := by
  induction x with
  | scan id exclusive label mapping =>
    exact (hi.accept_tame id exclusive).bind (fun _ => Tame.outcome _) fun _ c => still_ofExcept_ne_miss _ c
  | initial value => exact Tame.hit value
  | emptyList => exact Tame.hit []
  | ref name => exact h _ name
  | fold p f ih => exact (ih ()).bind (fun _ => Tame.outcome _) fun _ c => still_ofExcept_ne_miss _ c
  | map m => exact Tame.outcome _
  | seq b x y ihx ihy => exact (ihx left).sequence ihy
  | before b r x ih => exact (r.recognize_tame hi).sequence fun _ => ih left
  | after b x r ih => exact (ih left).sequence fun v => (r.recognize_tame hi).map fun _ => v
  | choice x y ihx ihy => exact (ihx left).orElse (ihy left)
  | rep x ih => exact Tame.repeated ih left
  | opt x ih => exact Tame.optional ih left
  | atLeast n x ih => exact Tame.atLeast ih n left
  | join nonEmpty sep x ih => exact Tame.joined nonEmpty (sep.recognize_tame hi) ih left
  | annotate c x ih => exact ih left

end Node

theorem Definitions.follow_tame {ds : Definitions E} {t : Shape} (name : String) {deeper : Option (Parser E t → Step α)}
    (h : ∀ run ∈ deeper, ∀ p, Tame i (run p)) : Tame i (ds.follow t name deeper) := by
  unfold follow
  cases ds.target t name with
  | none => exact Tame.fail _
  | some p =>
    cases deeper with
    | none => exact Tame.fail _
    | some run => exact (h run rfl p).nested

theorem Node.recognizeAt_tame (hi : i.WellFormed) {ds : Definitions E} :
    ∀ (n : Nat) {a : Option Shape} {t : Shape} (x : Node E a t), Tame i (x.recognizeAt ds i n)
  | 0, _, _, x => by
    rw [recognizeAt_eq]
    exact x.recognizeWith_tame hi fun t name => Definitions.follow_tame name fun run hrun => by cases hrun
  | n + 1, _, _, x => by
    rw [recognizeAt_eq]
    refine x.recognizeWith_tame hi fun t name => Definitions.follow_tame name fun run hrun p => ?_
    cases hrun
    exact p.recognizeAt_tame hi n

theorem Node.parseAt_tame (hi : i.WellFormed) {ds : Definitions E} {env : E} :
    ∀ (n : Nat) {a : Option Shape} {t : Shape} (x : Node E a t) (left : Start a), Tame i (x.parseAt ds i env n left)
  | 0, _, _, x, left => by
    rw [parseAt_eq]
    exact x.parseWith_tame hi (fun t name => Definitions.follow_tame name fun run hrun => by cases hrun) left
  | n + 1, _, _, x, left => by
    rw [parseAt_eq]
    refine x.parseWith_tame hi (fun t name => Definitions.follow_tame name fun run hrun p => ?_) left
    cases hrun
    exact p.parseAt_tame hi n ()

end Ambigram
