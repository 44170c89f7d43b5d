import Ambigram.Proofs.Computation
/-!
# Runs end

Every run comes to an end, whatever the grammar: references may go round in circles, and what is repeated may match
without moving.  What ends a run is the depth in references, the offset in repetitions and the fuel in joins, and they
take turns with one another; but a run has a finite derivation, and that is all it takes.

Having one also means that no run goes back to an offset that is refused.
-/
namespace Ambigram

variable {E α : Type} {a : Option Shape} {t : Shape}

/-! ## Derivations of runs -/

section Derivations

variable {s : Setting E} (hi : s.input.WellFormed) {c d : Cursor} (hc : c.offset ≤ s.input.source.size)
include hi hc

theorem Recognizer.recognizes_iff (r : Recognizer) {o : Outcome Unit} :
    r.Recognizes s.input c o d ↔ r.recognize s.input c = (o, d) := by
  have hr : Step.Computes s.input c.depth True (r.recognize s.input) (r.Recognizes s.input) := r.recognize_computes hi
  exact ⟨hr.sound ⟨hc, rfl⟩, hr.total_of_eq trivial ⟨hc, rfl⟩⟩

theorem Node.recognizesWithin (x : Node E a t) {o : Outcome Unit} (h : x.recognize s c = (o, d)) :
    x.RecognizesWithin s (s.depth - c.depth) c o d :=
  (x.recognizeAt_computes hi _ c.depth).total_of_eq (Nat.le_refl _) ⟨hc, rfl⟩ h

theorem Node.parsesWithin (x : Node E a t) (left : Start a) {o : Outcome t.Carrier} (h : x.parse s left c = (o, d)) :
    x.ParsesWithin s (s.depth - c.depth) left c o d :=
  (x.parseAt_computes hi left _ c.depth).total_of_eq (Nat.le_refl _) ⟨hc, rfl⟩ h

theorem Node.recognizes_iff (x : Node E a t) {o : Outcome Unit} :
    x.Recognizes s c o d ↔ x.recognize s c = (o, d) := by
  constructor
  · rintro ⟨n, h⟩
    exact (x.recognizeAt_computes hi n c.depth).sound ⟨hc, rfl⟩ h
  · exact fun h => ⟨_, x.recognizesWithin hi hc h⟩

theorem Node.parses_iff (x : Node E a t) (left : Start a) {o : Outcome t.Carrier} :
    x.Parses s left c o d ↔ x.parse s left c = (o, d) := by
  constructor
  · rintro ⟨n, h⟩
    exact (x.parseAt_computes hi left n c.depth).sound ⟨hc, rfl⟩ h
  · exact fun h => ⟨_, x.parsesWithin hi hc left h⟩

end Derivations

/-! ## Discipline of runs -/

open Cursor (Follows Stands)

/-- A run from `c` came to an outcome and a place that a run can come to. -/
structure Step.Keeps (i : Input) (c : Cursor) (r : Outcome α × Cursor) : Prop where
  follows : Follows i c r.2
  within : r.2.offset ≤ i.source.size
  still : r.1 = .miss → r.2.offset = c.offset

theorem Step.Tame.keeps {i : Input} {x : Step α} (hx : Tame i x) {c : Cursor} (hc : c.offset ≤ i.source.size) :
    Keeps i c (x c) :=
  ⟨hx.follows c, (hx.follows c).within hc, hx.still c⟩

/-- **Runs keep to their discipline.**  However a run within the source ends, it went forward and not past the end, it
is at the depth where it began, what was reached furthest was not lost, and no fuel came back.  If it did not match it
has not moved.  And it has a derivation, so wherever it went back the offset was not refused. -/
theorem keeps_of_run (ds : Definitions E) (env : E) (lexer : Lexer) (text : String) (depth : Nat) {c : Cursor}
    (hc : c.offset ≤ (Source.ofString text).size) :
    let s : Setting E := ⟨ds, env, .of lexer (.ofString text), depth⟩
    (∀ r : Recognizer, Step.Keeps s.input c (r.recognize s.input c) ∧
      r.Recognizes s.input c (r.recognize s.input c).1 (r.recognize s.input c).2) ∧
    ∀ {a : Option Shape} {t : Shape} (x : Node E a t),
      (Step.Keeps s.input c (x.recognize s c) ∧ x.Recognizes s c (x.recognize s c).1 (x.recognize s c).2) ∧
      ∀ left, Step.Keeps s.input c (x.parse s left c) ∧ x.Parses s left c (x.parse s left c).1 (x.parse s left c).2 := by
  intro s
  have hi : s.input.WellFormed := Input.wellFormed_of lexer text
  refine ⟨fun r => ⟨(r.recognize_tame hi).keeps hc, (r.recognizes_iff hi hc).2 rfl⟩,
    fun x => ⟨⟨?_, ?_⟩, fun left => ⟨?_, ?_⟩⟩⟩
  · exact (x.recognizeAt_tame hi (s.depth - c.depth)).keeps hc
  · exact (x.recognizes_iff hi hc).2 rfl
  · exact (x.parseAt_tame hi (s.depth - c.depth) left).keeps hc
  · exact (x.parses_iff hi hc left).2 rfl

/-- The comma has no element behind it and is given back, though the run has been behind it. -/
theorem keeps_of_run_items :
    let s : Setting Unit := ⟨Nested.definitions, (), .of Nested.lexer (.ofString "[a, ]"), 1⟩
    1 ≤ s.input.source.size ∧
    Nested.items.parse s [] ⟨1, 1, 20, 0⟩ = (.hit [.string "a"], ⟨2, 3, 16, 0⟩) ∧
    Step.Keeps s.input ⟨1, 1, 20, 0⟩ (Nested.items.parse s [] ⟨1, 1, 20, 0⟩) ∧
    Nested.items.Parses s [] ⟨1, 1, 20, 0⟩ (.hit [.string "a"]) ⟨2, 3, 16, 0⟩ := by
  intro s
  have hc : (⟨1, 1, 20, 0⟩ : Cursor).offset ≤ (Source.ofString "[a, ]").size := by decide
  have h : Nested.items.parse s [] ⟨1, 1, 20, 0⟩ = (.hit [.string "a"], ⟨2, 3, 16, 0⟩) := by decide +kernel
  obtain ⟨hkeeps, hparses⟩ :=
    ((keeps_of_run Nested.definitions () Nested.lexer "[a, ]" 1 hc).2 Nested.items).2 []
  refine ⟨hc, h, hkeeps, ?_⟩
  rwa [h] at hparses

/-! ## What bounds a run -/

/-- After a turn that ended at `d` a loop goes on from there, which is further on, or it ends there. -/
def Step.TurnsAt (c d : Cursor) (b : α) (loop rest : Outcome α × Cursor) : Prop :=
  c.offset < d.offset ∧ loop = rest ∨ d.offset = c.offset ∧ loop = (.hit b, d)

theorem Step.Computes.turnsAt {i : Input} {depth : Nat} {complete : Prop} {u : α → Step α} {U : α → Behaviour α}
    (hu : ∀ a, Computes i depth complete (u a) (U a)) (hcomplete : complete) {c d : Cursor} {a b : α}
    (hc : Stands i depth c) (h : u a c = (.hit b, d)) : TurnsAt c d b (Step.repeated u a c) (Step.repeated u b d) := by
  have hturn := (hu a).total_of_eq hcomplete hc h
  by_cases hmoved : d.offset = c.offset
  · exact .inr ⟨hmoved, (repeated hu a).sound hc (.still hturn hmoved)⟩
  · have hrest := (repeated hu b).total hcomplete d ((hu a).stands hc h)
    have hforward := ((hu a).tame.follows_of_eq h).offset
    exact .inl ⟨by omega, (repeated hu a).sound hc (.more hturn hmoved hrest)⟩

section Turns

variable {s : Setting E} (hi : s.input.WellFormed) {c d : Cursor} (hc : c.offset ≤ s.input.source.size)
include hi hc

theorem Recognizer.rep_turnsAt (r : Recognizer) (h : r.recognize s.input c = (.hit (), d)) :
    Step.TurnsAt c d () ((Recognizer.rep r).recognize s.input c) ((Recognizer.rep r).recognize s.input d) :=
  Step.Computes.turnsAt (fun _ => r.recognize_computes hi) trivial ⟨hc, rfl⟩ h

theorem Node.recognize_rep_turnsAt {u : Shape} (x : Reducer E u u) (h : x.recognize s c = (.hit (), d)) :
    Step.TurnsAt c d () ((Node.rep x).recognize s c) ((Node.rep x).recognize s d) := by
  have hx : Step.Computes s.input c.depth (s.depth - c.depth ≤ s.depth - c.depth)
      (x.recognizeAt s.definitions s.input (s.depth - c.depth)) (x.RecognizesWithin s (s.depth - c.depth)) :=
    x.recognizeAt_computes hi _ _
  have hturn := Step.Computes.turnsAt (fun _ : Unit => hx) (Nat.le_refl _) (a := ()) ⟨hc, rfl⟩ h
  unfold recognize
  rw [recognizeAt_eq, recognizeAt_eq, (hx.tame.follows_of_eq h).depth]
  rw [recognizeAt_eq] at hturn
  exact hturn

theorem Node.parse_rep_turnsAt {u : Shape} (x : Reducer E u u) {left mid : u.Carrier}
    (h : x.parse s left c = (.hit mid, d)) :
    Step.TurnsAt c d mid ((Node.rep x).parse s left c) ((Node.rep x).parse s mid d) := by
  have hx : ∀ left, Step.Computes s.input c.depth (s.depth - c.depth ≤ s.depth - c.depth)
      (x.parseAt s.definitions s.input s.env (s.depth - c.depth) left) (x.ParsesWithin s (s.depth - c.depth) left) :=
    fun left => x.parseAt_computes hi left _ _
  have hturn := Step.Computes.turnsAt hx (Nat.le_refl _) ⟨hc, rfl⟩ h
  unfold parse
  rw [parseAt_eq, parseAt_eq, ((hx left).tame.follows_of_eq h).depth]
  rw [parseAt_eq] at hturn
  exact hturn

end Turns

theorem Definitions.follow_eq_ite {ds : Definitions E} {name : String} {p : Parser E t} (refs : Nat → Step α)
    {run : Nat → Parser E t → Step α} (hfull : refs 0 = ds.follow t name none)
    (hroom : ∀ n, refs (n + 1) = ds.follow t name (some (run n))) (h : ds.target t name = some p) (limit : Nat)
    (c : Cursor) :
    refs (limit - c.depth) c =
      if c.depth < limit then (run (limit - (c.depth + 1)) p).nested c else (.fail .recursionLimit, c) := by
  by_cases hlimit : c.depth < limit
  · rw [if_pos hlimit, show limit - c.depth = limit - (c.depth + 1) + 1 by omega, hroom]
    unfold follow
    rw [h]
  · rw [if_neg hlimit, Nat.sub_eq_zero_of_le (Nat.le_of_not_lt hlimit), hfull]
    unfold follow
    rw [h]
    rfl

section References

variable {s : Setting E} {name : String} {p : Parser E t} (h : s.definitions.target t name = some p) (c : Cursor)
include h

/-- Entering a reference takes one more level, and there is none behind the limit. -/
theorem Node.recognize_ref : (Node.ref name : Parser E t).recognize s c =
    if c.depth < s.depth then Step.nested (p.recognize s) c else (.fail .recursionLimit, c) := by
  unfold recognize
  rw [recognizeAt_eq]
  exact Definitions.follow_eq_ite (fun n => s.definitions.recognizeRef s.input n t name) rfl (fun _ => rfl) h s.depth c

theorem Node.parse_ref : (Node.ref name : Parser E t).parse s () c =
    if c.depth < s.depth then Step.nested (p.parse s ()) c else (.fail .recursionLimit, c) := by
  unfold parse
  rw [parseAt_eq]
  exact Definitions.follow_eq_ite (fun n => s.definitions.parseRef s.input s.env n t name) rfl (fun _ => rfl) h s.depth c

end References

/-- **Runs end.**  Whatever references stand for and whatever loops go round, a run within the source has a derivation,
which is finite, and has it for one outcome and one place only.  In it references are within one another only as often
as there is room for.  What it takes: a recognizer spends fuel or ends in an error, every turn of a repetition but the
last goes forward, and a reference is only entered below the limit. -/
theorem terminates (ds : Definitions E) (env : E) (lexer : Lexer) (text : String) (depth : Nat) {c : Cursor}
    (hc : c.offset ≤ (Source.ofString text).size) :
    let s : Setting E := ⟨ds, env, .of lexer (.ofString text), depth⟩
    (∀ r : Recognizer,
      (∀ o d, r.Recognizes s.input c o d ↔ r.recognize s.input c = (o, d)) ∧
      ((r.recognize s.input c).2.fuel < c.fuel ∨ ∃ e, (r.recognize s.input c).1 = .fail e) ∧
      ∀ d, r.recognize s.input c = (.hit (), d) →
        Step.TurnsAt c d () ((Recognizer.rep r).recognize s.input c) ((Recognizer.rep r).recognize s.input d)) ∧
    (∀ {a : Option Shape} {t : Shape} (x : Node E a t),
      (∀ o d, x.Recognizes s c o d ↔ x.recognize s c = (o, d)) ∧
      x.RecognizesWithin s (s.depth - c.depth) c (x.recognize s c).1 (x.recognize s c).2 ∧
      ∀ left, (∀ o d, x.Parses s left c o d ↔ x.parse s left c = (o, d)) ∧
        x.ParsesWithin s (s.depth - c.depth) left c (x.parse s left c).1 (x.parse s left c).2) ∧
    (∀ {u : Shape} (x : Reducer E u u) (d : Cursor),
      (x.recognize s c = (.hit (), d) → Step.TurnsAt c d () ((Node.rep x).recognize s c) ((Node.rep x).recognize s d)) ∧
      ∀ left mid, x.parse s left c = (.hit mid, d) →
        Step.TurnsAt c d mid ((Node.rep x).parse s left c) ((Node.rep x).parse s mid d)) ∧
    ∀ {t : Shape} (name : String) (p : Parser E t), ds.target t name = some p →
      (Node.ref name : Parser E t).recognize s c =
        (if c.depth < depth then Step.nested (p.recognize s) c else (.fail .recursionLimit, c)) ∧
      (Node.ref name : Parser E t).parse s () c =
        if c.depth < depth then Step.nested (p.parse s ()) c else (.fail .recursionLimit, c) := by
  intro s
  have hi : s.input.WellFormed := Input.wellFormed_of lexer text
  refine ⟨fun r => ⟨fun o d => r.recognizes_iff hi hc, r.recognize_spends hi c, fun d h => r.rep_turnsAt hi hc h⟩,
    fun x => ⟨fun o d => x.recognizes_iff hi hc, x.recognizesWithin hi hc rfl,
      fun left => ⟨fun o d => x.parses_iff hi hc left, x.parsesWithin hi hc left rfl⟩⟩,
    fun x d => ⟨fun h => x.recognize_rep_turnsAt hi hc h, fun left mid h => x.parse_rep_turnsAt hi hc h⟩,
    fun name p h => ⟨Node.recognize_ref h c, Node.parse_ref h c⟩⟩

/-- A reference that stands for itself goes round until the limit. -/
theorem terminates_itself :
    let s : Setting Unit := ⟨⟨fun _ name => some (.ref name)⟩, (), .of Nested.lexer (.ofString "a"), 3⟩
    0 ≤ s.input.source.size ∧
    (Node.ref "itself" : Parser Unit .value).ParsesWithin s 3 () ⟨0, 0, 20, 0⟩ (.fail .recursionLimit) ⟨0, 0, 20, 0⟩ ∧
    ∀ o d, (Node.ref "itself" : Parser Unit .value).Parses s () ⟨0, 0, 20, 0⟩ o d →
      (o, d) = (.fail .recursionLimit, ⟨0, 0, 20, 0⟩) := by
  intro s
  have hc : (⟨0, 0, 20, 0⟩ : Cursor).offset ≤ (Source.ofString "a").size := by decide
  have h : (Node.ref "itself" : Parser Unit .value).parse s () ⟨0, 0, 20, 0⟩ =
      (.fail .recursionLimit, ⟨0, 0, 20, 0⟩) := rfl
  obtain ⟨hiff, hwithin⟩ :=
    ((terminates ⟨fun _ name => some (.ref name)⟩ () Nested.lexer "a" 3 hc).2.1
      (Node.ref "itself" : Parser Unit .value)).2.2 ()
  refine ⟨hc, ?_, fun o d hparses => ?_⟩
  · rw [h] at hwithin
    exact hwithin
  · rw [← (hiff o d).1 hparses]
    exact h

end Ambigram
