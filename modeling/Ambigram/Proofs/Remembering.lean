import Ambigram.Proofs.Derivation
import Ambigram.Proofs.Discipline
import Ambigram.Stream
/-!
# What a stream remembers

A stream answers as a cursor does that has nothing but its own place, and looks up every match afresh.  What carries
this is that a remembered match is the one that is found at its offset, which every operation preserves: the source and
the patterns never change, so it does not matter when the match was found, or where the stream has been since.
-/
namespace Ambigram

variable {α : Type}

/-! ## Operations on a cursor -/

theorem Input.skipTrivia_of {lexer : Lexer} {source : Source} (offset : Nat) :
    (of lexer source).skipTrivia offset = (fresh lexer source).skipTrivia offset := go _ offset
where
  go : ∀ n offset, skipTrivia.go (of lexer source) n offset = skipTrivia.go (fresh lexer source) n offset
    | 0, _ => rfl
    | n + 1, offset => by
      unfold skipTrivia.go
      simp only [matchAt_of, go n]
      rfl

namespace Stream

/-- What an operation comes to at a cursor. -/
def Op.at (i : Input) (depth : Nat) : Op → Step Answer
  | .accept token exclusive => answer .token (Cursor.accept i token exclusive)
  | .setOffset offset => answer (fun _ => .done) (Cursor.setOffset i offset)
  | .isAtEnd => fun c => (.hit (.atEnd (c.isAtEnd i)), c)
  | .nextOffset => fun c => (.hit (.offset (c.next i)), c)
  | .enter => answer (fun _ => .done) (Cursor.enter depth)
  | .leave => fun c => (.hit .done, c.leave)
where
  answer {α : Type} (f : α → Answer) (x : Step α) : Step Answer := fun c => ((x c).1.map f, (x c).2)

/-- The answers to operations one after another, each with the cursor behind it. -/
def Op.trace (i : Input) (depth : Nat) : List Op → Cursor → List (Outcome Answer × Cursor)
  | [], _ => []
  | op :: ops, c => op.at i depth c :: trace i depth ops (op.at i depth c).2

/-- A grammar's input keeps every longest match, which makes no difference either. -/
theorem Op.at_of {lexer : Lexer} {source : Source} (depth : Nat) (op : Op) :
    op.at (.of lexer source) depth = op.at (.fresh lexer source) depth := by
  cases op with
  | accept token exclusive =>
    funext c
    simp only [Op.at, Op.at.answer, Cursor.accept, Cursor.next, Cursor.stop?, Input.skipTrivia_of, Input.matchAt_of]
    rfl
  | isAtEnd =>
    funext c
    simp only [Op.at, Cursor.isAtEnd, Cursor.next, Input.skipTrivia_of]
    rfl
  | nextOffset =>
    funext c
    simp only [Op.at, Cursor.next, Input.skipTrivia_of]
  | setOffset | enter | leave => rfl

theorem Op.trace_of {lexer : Lexer} {source : Source} (depth : Nat) : ∀ (ops : List Op) (c : Cursor),
    trace (.of lexer source) depth ops c = trace (.fresh lexer source) depth ops c
  | [], _ => rfl
  | op :: ops, c => by rw [trace, trace, at_of, trace_of depth ops]

/-- The answers of a stream to operations one after another, each with the cursor that it has then. -/
def trace : List Op → Stream → List (Outcome Answer × Cursor)
  | [], _ => []
  | op :: ops, s => ((s.perform op).1, (s.perform op).2.cursor) :: trace ops (s.perform op).2

/-- The stream behind operations one after another. -/
def after : List Op → Stream → Stream
  | [], s => s
  | op :: ops, s => after ops (s.perform op).2

/-! ## What is remembered is right -/

section Sound

variable {i : Input} {limits : Limits} {s : Stream} {c : Cursor} {offset : Nat}

/-- The stream is set in the input, has its cursor at that one, and remembers what is found there. -/
structure At (i : Input) (limits : Limits) (s : Stream) (c : Cursor) : Prop where
  input : s.input = i
  limits : s.limits = limits
  cursor : s.cursor = c
  within : c.offset ≤ i.source.size
  last : ∀ offset m, s.last = some (offset, m) → i.matchAt offset = m

/-- The stream answers so, and is left there. -/
def Yields (i : Input) (limits : Limits) (r : α × Stream) (p : α × Cursor) : Prop :=
  ∃ s, r = (p.1, s) ∧ At i limits s p.2

theorem Yields.map {β : Type} {r : α × Stream} {p : α × Cursor} (f : α → β) (h : Yields i limits r p) :
    Yields i limits (f r.1, r.2) (f p.1, p.2) := by
  obtain ⟨s, rfl, hs⟩ := h
  exact ⟨s, rfl, hs⟩

theorem At.move (hs : At i limits s c) {x : Step α} (hx : (x c).2.offset ≤ i.source.size) :
    Yields i limits (s.move x) (x c) := by
  unfold Stream.move
  rw [hs.cursor]
  exact ⟨_, rfl, { hs with cursor := rfl, within := hx }⟩

variable (hi : i.WellFormed) (hkept : i.kept = #[])

section
include hkept

theorem At.find (hs : At i limits s c) (h : offset ≤ i.source.size) :
    Yields i limits (s.find offset) (.ok (i.matchAt offset), c) := by
  have hafresh : Lexer.matchOn i.source i.tracks offset none = .ok (i.matchAt offset) := by
    unfold Lexer.matchOn Input.matchAt
    rw [hkept]
    exact if_neg (Nat.not_lt.2 h)
  unfold Stream.find
  rw [hs.input, hafresh]
  refine ⟨_, rfl, { hs with input := rfl, last := ?_ }⟩
  rintro _ _ ⟨⟩
  rfl

theorem At.matchAt (hs : At i limits s c) (h : offset ≤ i.source.size) :
    Yields i limits (s.matchAt offset) (.ok (i.matchAt offset), c) := by
  unfold Stream.matchAt
  split
  · rename_i start m hlast
    split
    · rename_i heq
      rw [← hs.last start m hlast, heq]
      exact ⟨s, rfl, hs⟩
    · exact hs.find hkept h
  · exact hs.find hkept h

theorem At.stop? (hs : At i limits s c) (token : TokenId) (exclusive : Bool) (h : offset ≤ i.source.size) :
    Yields i limits (stop? token exclusive offset s) (Cursor.stop? i token exclusive offset, c) := by
  unfold Stream.stop? Cursor.stop?
  rw [hs.input]
  split
  · exact ⟨s, rfl, hs⟩
  split
  · refine ⟨s, ?_, hs⟩
    cases i.matchOnly offset token <;> rfl
  · exact (hs.matchAt hkept h).map fun r => r.map fun m => (m.filter (·.contains token)).map (·.stop)

end

include hi hkept

theorem At.skipTrivia_go : ∀ (n : Nat) {offset : Nat} {s : Stream}, At i limits s c → offset ≤ i.source.size →
    Yields i limits (skipTrivia.go n offset s) (.ok (Input.skipTrivia.go i n offset), c)
  | 0, _, s, hs, _ => ⟨s, rfl, hs⟩
  | n + 1, offset, s, hs, h => by
    unfold skipTrivia.go Input.skipTrivia.go
    obtain ⟨s', heq, hs'⟩ := hs.matchAt hkept h
    rw [heq]
    cases hm : i.matchAt offset with
    | none => exact ⟨s', rfl, hs'⟩
    | some m =>
      dsimp only
      rw [hs'.input]
      split
      · exact At.skipTrivia_go n hs' ((hi.stretch hm).within hi.source h)
      · exact ⟨s', rfl, hs'⟩

theorem At.skipTrivia (hs : At i limits s c) : Yields i limits s.skipTrivia (.ok (c.next i), c) := by
  unfold Stream.skipTrivia
  rw [hs.input, hs.cursor]
  exact hs.skipTrivia_go hi hkept _ hs.within

theorem At.accept (hs : At i limits s c) (token : TokenId) (exclusive : Bool) :
    Yields i limits (s.accept token exclusive) (Cursor.accept i token exclusive c) := by
  have hwithin : (Cursor.accept i token exclusive c).2.offset ≤ i.source.size :=
    ((hi.accept_tame token exclusive).follows c).within hs.within
  unfold Stream.accept
  unfold Cursor.accept at hwithin ⊢
  rw [hs.cursor]
  cases hfuel : c.fuel with
  | zero => exact ⟨s, rfl, hs⟩
  | succ fuel =>
    rw [hfuel] at hwithin
    have hpaid : At i limits { s with cursor := { c with fuel } } { c with fuel } := { hs with cursor := rfl }
    have hnext : Cursor.next i { c with fuel } ≤ i.source.size :=
      (hi.stretch_skipTrivia c.offset).within hi.source hs.within
    obtain ⟨s', heq, hs'⟩ := hpaid.skipTrivia hi hkept
    obtain ⟨s'', heq', hs''⟩ := hs'.stop? hkept token exclusive hnext
    dsimp only at hwithin ⊢
    rw [heq]
    dsimp only
    rw [heq']
    dsimp only
    cases hstop : Cursor.stop? i token exclusive (Cursor.next i { c with fuel }) with
    | error e => exact ⟨s'', rfl, hs''⟩
    | ok stop =>
      cases stop with
      | none => exact ⟨s'', rfl, hs''⟩
      | some stop =>
        rw [hstop] at hwithin
        dsimp only
        rw [hs''.cursor]
        exact ⟨_, rfl, { hs'' with cursor := rfl, within := hwithin }⟩

theorem At.perform (hs : At i limits s c) (op : Op) : Yields i limits (s.perform op) (op.at i limits.depth c) := by
  cases op with
  | accept token exclusive => exact (hs.accept hi hkept token exclusive).map (Outcome.map Answer.token)
  | setOffset offset =>
    refine .map (Outcome.map fun _ => Answer.done) ?_
    unfold Stream.setOffset
    rw [hs.input]
    refine hs.move ?_
    unfold Cursor.setOffset
    split
    · assumption
    · exact hs.within
  | isAtEnd =>
    refine Yields.map (Outcome.map Answer.atEnd) (p := (.hit (c.isAtEnd i), c)) ?_
    unfold Stream.isAtEnd
    obtain ⟨s', heq, hs'⟩ := hs.skipTrivia hi hkept
    rw [heq]
    dsimp only
    rw [hs'.input]
    exact ⟨s', rfl, hs'⟩
  | nextOffset => exact (hs.skipTrivia hi hkept).map fun r => Outcome.map Answer.offset (.ofExcept r)
  | enter =>
    refine .map (Outcome.map fun _ => Answer.done) ?_
    unfold Stream.enter
    rw [hs.limits]
    refine hs.move ?_
    unfold Cursor.enter
    split <;> exact hs.within
  | leave => exact .map (Outcome.map fun _ => Answer.done) (hs.move hs.within)

theorem At.trace_eq : ∀ (ops : List Op) {s : Stream} {c : Cursor}, At i limits s c →
    trace ops s = Op.trace i limits.depth ops c
  | [], _, _, _ => rfl
  | op :: ops, s, c, hs => by
    obtain ⟨s', heq, hs'⟩ := hs.perform hi hkept op
    unfold trace Op.trace
    rw [heq, hs'.cursor, At.trace_eq ops hs']

theorem At.after : ∀ (ops : List Op) {s : Stream} {c : Cursor}, At i limits s c → ∃ d, At i limits (after ops s) d
  | [], _, c, hs => ⟨c, hs⟩
  | op :: ops, s, c, hs => by
    obtain ⟨s', heq, hs'⟩ := hs.perform hi hkept op
    unfold Stream.after
    rw [heq]
    exact At.after ops hs'

end Sound

/-! ## Only the offset matters

Fuel says whether an attempt can be paid for, and the depth whether there is room for a reference.  Where there is
enough of the one and the other is not asked for, what is behind a stream cannot be told from its answers. -/

/-- Whether it is an attempt at a token. -/
def Op.isAttempt : Op → Bool
  | .accept _ _ => true
  | _ => false

/-- Every attempt costs fuel, and nothing else does. -/
def Op.cost (op : Op) : Nat := if op.isAttempt then 1 else 0

/-- The answers, each with the offset behind it. -/
def answers (rs : List (Outcome Answer × Cursor)) : List (Outcome Answer × Nat) := rs.map fun r => (r.1, r.2.offset)

variable {i : Input} {depth depth' : Nat}

theorem Op.at_congr {op : Op} {c c' : Cursor} (hop : op ≠ .enter) (hoffset : c'.offset = c.offset)
    (hfuel : op.cost ≤ c.fuel) (hfuel' : op.cost ≤ c'.fuel) :
    (op.at i depth' c').1 = (op.at i depth c).1 ∧ (op.at i depth' c').2.offset = (op.at i depth c).2.offset ∧
      (op.at i depth c).2.fuel = c.fuel - op.cost ∧ (op.at i depth' c').2.fuel = c'.fuel - op.cost := by
  obtain ⟨offset, furthest, fuel, d⟩ := c
  obtain ⟨offset', furthest', fuel', d'⟩ := c'
  cases hoffset
  cases op with
  | enter => exact absurd rfl hop
  | accept token exclusive =>
    obtain ⟨fuel, rfl⟩ := Nat.exists_eq_add_one_of_ne_zero (Nat.one_le_iff_ne_zero.1 hfuel)
    obtain ⟨fuel', rfl⟩ := Nat.exists_eq_add_one_of_ne_zero (Nat.one_le_iff_ne_zero.1 hfuel')
    simp only [Op.at, Op.at.answer, Cursor.accept, Cursor.next]
    rcases Cursor.stop? i token exclusive (i.skipTrivia offset) with e | _ | stop <;> exact ⟨rfl, rfl, rfl, rfl⟩
  | setOffset =>
    simp only [Op.at, Op.at.answer, Cursor.setOffset]
    split <;> exact ⟨rfl, rfl, rfl, rfl⟩
  | isAtEnd | nextOffset | leave => exact ⟨rfl, rfl, rfl, rfl⟩

theorem answers_congr : ∀ (ops : List Op) {c c' : Cursor}, .enter ∉ ops → c'.offset = c.offset →
    ops.countP Op.isAttempt ≤ c.fuel → ops.countP Op.isAttempt ≤ c'.fuel →
    answers (Op.trace i depth' ops c') = answers (Op.trace i depth ops c)
  | [], _, _, _, _, _, _ => rfl
  | op :: ops, c, c', hops, hoffset, hfuel, hfuel' => by
    have hcost : (op :: ops).countP Op.isAttempt = ops.countP Op.isAttempt + op.cost := List.countP_cons
    rw [hcost] at hfuel hfuel'
    have hop : op ≠ .enter := (List.ne_of_not_mem_cons hops).symm
    obtain ⟨hanswer, hmoved, hleft, hleft'⟩ := Op.at_congr hop hoffset (by omega) (by omega)
    unfold Op.trace answers
    rw [List.map_cons, List.map_cons, hanswer, hmoved]
    exact congrArg _ (answers_congr ops (List.not_mem_of_not_mem_cons hops) hmoved (by omega) (by omega))

/-- **What a stream remembers does not show.**  Every operation answers and leaves the offset, the furthest offset, the
fuel and the depth as they are where each longest match is found afresh, one after another from the start.  So what comes
of further operations depends on the offset alone, whatever was tried before and under whichever limits, if there is
fuel for them. -/
theorem trace_eq_fresh (lexer : Lexer) (text : String) (limits : Limits) (ops : List Op) :
    let source := Source.ofString text
    let fresh := Input.fresh lexer source
    (∀ offset ≤ source.size, lexer.longestMatch source offset none = .ok (fresh.matchAt offset)) ∧
    (∀ offset token, lexer.longestMatch source offset (some token) = fresh.matchOnly offset token) ∧
    trace ops (start lexer source limits) = Op.trace fresh limits.depth ops (.start limits) ∧
    Op.trace (.of lexer source) limits.depth ops (.start limits) = Op.trace fresh limits.depth ops (.start limits) ∧
    ∀ (limits' : Limits) (before further : List Op), .enter ∉ further →
      let s := after ops (start lexer source limits)
      let s' := after before (start lexer source limits')
      s'.cursor.offset = s.cursor.offset →
      further.countP Op.isAttempt ≤ s.cursor.fuel → further.countP Op.isAttempt ≤ s'.cursor.fuel →
      answers (trace further s') = answers (trace further s) := by
  intro source fresh
  have hi := Input.wellFormed_fresh lexer text
  have hstart (limits : Limits) : At fresh limits (start lexer source limits) (.start limits) :=
    { input := rfl, limits := rfl, cursor := rfl, within := Nat.zero_le _, last := nofun }
  refine ⟨fun offset h => if_neg (Nat.not_lt.2 h), fun offset token => rfl, (hstart limits).trace_eq hi rfl ops,
    Op.trace_of limits.depth ops _, fun limits' before further henter => ?_⟩
  obtain ⟨c, hc⟩ := (hstart limits).after hi rfl ops
  obtain ⟨c', hc'⟩ := (hstart limits').after hi rfl before
  intro s s'
  rw [hc.trace_eq hi rfl, hc'.trace_eq hi rfl, hc.cursor, hc'.cursor]
  exact answers_congr further henter

/-- Two ways to stand in front of `, [a]]`: on from the bracket, and with everything before it left out. -/
theorem trace_eq_fresh_nested :
    let before := [Op.accept (.pattern 0) false, .accept (.pattern 3) true]
    let before' := [Op.isAtEnd, .setOffset 1, .accept (.pattern 3) false]
    let further := [Op.accept (.pattern 0) false, .accept (.pattern 2) false, .nextOffset]
    let s := after before (start Nested.lexer (.ofString "[a, [a]]") ⟨9, 1⟩)
    let s' := after before' (start Nested.lexer (.ofString "[a, [a]]") ⟨5, 0⟩)
    (.enter ∉ further ∧ s'.cursor.offset = s.cursor.offset ∧
      further.countP Op.isAttempt ≤ s.cursor.fuel ∧ further.countP Op.isAttempt ≤ s'.cursor.fuel) ∧
    answers (trace further s) = [(.miss, 2), (.hit (.token ⟨.pattern 2, 2, 3⟩), 3), (.hit (.offset 4), 3)] ∧
    answers (trace further s') = answers (trace further s) := by
  intro before before' further s s'
  obtain ⟨-, -, -, -, h⟩ := trace_eq_fresh Nested.lexer "[a, [a]]" ⟨9, 1⟩ before
  have henter : .enter ∉ further := by decide
  have hoffset : s'.cursor.offset = s.cursor.offset := by decide +kernel
  have hfuel : further.countP Op.isAttempt ≤ s.cursor.fuel := by decide +kernel
  have hfuel' : further.countP Op.isAttempt ≤ s'.cursor.fuel := by decide +kernel
  exact ⟨⟨henter, hoffset, hfuel, hfuel'⟩, by decide +kernel, h ⟨5, 0⟩ before' further henter hoffset hfuel hfuel'⟩

end Stream
end Ambigram
