import Ambigram.Proofs.Compounds
import Ambigram.Proofs.Termination
import Ambigram.Proofs.Unwinding
/-!
# Repetition with a minimum

Repeating at least so many times is repeating, but for values and inputs with fewer.  Reading takes the matches that
have to be there first and any others after them.  Printing takes elements off from the right, so there the ones that
have to be there come last; the other way round a repetition would leave none for them.
-/
namespace Ambigram

variable {E α : Type} {i : Input} {depth : Nat}

open Cursor (Stands)

/-! ## Matches in a row -/

namespace Step

/-- So many matches in a row lead from one value and cursor to another. -/
inductive Streak (u : α → Step α) : Nat → α → Cursor → α → Cursor → Prop
  | nil {a : α} {c : Cursor} : Streak u 0 a c a c
  | cons {n : Nat} {a b v : α} {c d e : Cursor} (head : u a c = (.hit b, d)) (tail : Streak u n b d v e) :
    Streak u (n + 1) a c v e

/-- As long as it goes on matching from the value and the cursor, every match moves. -/
def Advances (u : α → Step α) (a : α) (c : Cursor) : Prop :=
  ∀ ⦃n b d v e⦄, Streak u n a c b d → u b d = (.hit v, e) → e.offset ≠ d.offset

variable {u : α → Step α} {a b v : α} {c d e : Cursor} {m n : Nat} {error : Error}

theorem Advances.tail (h : Advances u a c) (head : u a c = (.hit b, d)) : Advances u b d :=
  fun _ _ _ _ _ streak => h (.cons head streak)

namespace Streak

theorem times_add (h : Streak u m a c b d) (k : Nat) : times u (m + k) a c = times u k b d := by
  induction h with
  | nil => rw [Nat.zero_add]
  | @cons m a b v c d e head _ ih =>
    rw [Nat.succ_add, times, bind, head]
    exact ih

theorem times_eq_hit (h : Streak u m a c b d) : times u m a c = (.hit b, d) := h.times_add 0

theorem times_eq_miss (h : Streak u m a c b d) (hstop : u b d = (.miss, e)) (hm : m < n) :
    times u n a c = (.miss, e) := by
  obtain ⟨k, rfl⟩ := Nat.exists_eq_add_of_lt hm
  rw [Nat.add_assoc, h.times_add, times, bind, hstop]

theorem times_eq_fail (h : Streak u m a c b d) (hstop : u b d = (.fail error, e)) (hm : m < n) :
    times u n a c = (.fail error, e) := by
  obtain ⟨k, rfl⟩ := Nat.exists_eq_add_of_lt hm
  rw [Nat.add_assoc, h.times_add, times, bind, hstop]

theorem exists_of_le (h : Streak u m a c v e) (hn : n ≤ m) : ∃ b d, Streak u n a c b d ∧ Streak u (m - n) b d v e := by
  induction h generalizing n with
  | nil =>
    obtain rfl := Nat.le_zero.1 hn
    exact ⟨_, _, .nil, .nil⟩
  | @cons m a b v c d e head tail ih =>
    cases n with
    | zero => exact ⟨a, c, .nil, .cons head tail⟩
    | succ n =>
      obtain ⟨b', d', hfront, hback⟩ := ih (Nat.le_of_succ_le_succ hn)
      rw [Nat.succ_sub_succ]
      exact ⟨b', d', .cons head hfront, hback⟩

variable (hu : ∀ a, Tame i (u a))
include hu

/-- A repetition goes through a streak that moves. -/
theorem repeated_eq (h : Streak u m a c b d) (hmoves : Advances u a c) (hc : Stands i depth c) :
    repeated u a c = repeated u b d := by
  induction h with
  | nil => rfl
  | cons head _ ih =>
    have hd := ((hu _).follows_of_eq head).stands hc
    have hturn := Computes.turnsAt (fun a => (hu a).computes fun _ _ => rfl) trivial hc head
    obtain ⟨-, hgoesOn⟩ | ⟨hstill, -⟩ := hturn
    · rw [hgoesOn]
      exact ih (hmoves.tail head) hd
    · exact absurd hstill (hmoves .nil head)

end Streak

/-! ## Where a repetition ends -/

theorem repeated_eq_of_miss (h : u a c = (.miss, d)) : repeated u a c = (.hit a, d) := by
  simp only [repeated, repeatFor, h]

theorem repeated_eq_of_fail (h : u a c = (.fail error, d)) : repeated u a c = (.fail error, d) := by
  simp only [repeated, repeatFor, h]

/-- A repetition of matches that move ends where the next match is none. -/
theorem exists_streak {o : Outcome α} (h : Behaviour.Repeated (fun a => (u a).Does) a c o e) (hmoves : Advances u a c) :
    ∃ m b d, Streak u m a c b d ∧ ∀ v e, u b d ≠ (.hit v, e) := by
  induction h with
  | stop h | fail h => exact ⟨0, _, _, .nil, fun v e hhit => by cases h.symm.trans hhit⟩
  | still h hstill => exact absurd hstill (hmoves .nil h)
  | more h _ _ ih =>
    obtain ⟨m, b, d, hstreak, hend⟩ := ih (hmoves.tail h)
    exact ⟨m + 1, b, d, .cons h hstreak, hend⟩

section Minimum

variable (hu : ∀ a, Tame i (u a)) (hmoves : Advances u a c) (hc : Stands i depth c)
include hu hmoves hc

theorem exists_end : ∃ m b d, Streak u m a c b d ∧ ∀ v e, u b d ≠ (.hit v, e) :=
  exists_streak ((Computes.repeated (fun a => (hu a).computes fun _ _ => rfl) a).total trivial c hc) hmoves

theorem atLeast_eq_of_miss (h : Streak u m a c b d) (hstop : u b d = (.miss, e)) (n : Nat) :
    atLeast n u a c = if n ≤ m then (.hit b, e) else (.miss, e.goTo c.offset) := by
  unfold atLeast backtrack bind
  by_cases hn : n ≤ m
  · obtain ⟨b', d', hfront, hback⟩ := h.exists_of_le hn
    have hrest : repeated u b' d' = repeated u a c := (hfront.repeated_eq hu hmoves hc).symm
    rw [if_pos hn, hfront.times_eq_hit]
    dsimp only
    rw [hrest, h.repeated_eq hu hmoves hc, repeated_eq_of_miss hstop]
  · rw [if_neg hn, h.times_eq_miss hstop (Nat.lt_of_not_le hn)]

theorem atLeast_eq_of_fail (h : Streak u m a c b d) (hstop : u b d = (.fail error, e)) (n : Nat) :
    atLeast n u a c = (.fail error, e) := by
  unfold atLeast backtrack bind
  by_cases hn : n ≤ m
  · obtain ⟨b', d', hfront, hback⟩ := h.exists_of_le hn
    have hrest : repeated u b' d' = repeated u a c := (hfront.repeated_eq hu hmoves hc).symm
    rw [hfront.times_eq_hit]
    dsimp only
    rw [hrest, h.repeated_eq hu hmoves hc, repeated_eq_of_fail hstop]
  · rw [h.times_eq_fail hstop (Nat.lt_of_not_le hn)]

theorem atLeast_eq_hit_iff : atLeast n u a c = (.hit v, e) ↔
    repeated u a c = (.hit v, e) ∧ ∃ m ≥ n, ∃ d, Streak u m a c v d ∧ u v d = (.miss, e) := by
  constructor
  · intro h
    obtain ⟨m, b, d, hstreak, hend⟩ := exists_end hu hmoves hc
    rcases hstop : u b d with ⟨o, d'⟩
    cases o with
    | hit v => exact absurd hstop (hend v d')
    | miss =>
      rw [atLeast_eq_of_miss hu hmoves hc hstreak hstop] at h
      split at h
      · rename_i hn
        cases h
        refine ⟨?_, m, hn, d, hstreak, hstop⟩
        rw [hstreak.repeated_eq hu hmoves hc, repeated_eq_of_miss hstop]
      · cases h
    | fail error =>
      rw [atLeast_eq_of_fail hu hmoves hc hstreak hstop] at h
      cases h
  · rintro ⟨-, m, hn, d, hstreak, hstop⟩
    rw [atLeast_eq_of_miss hu hmoves hc hstreak hstop, if_pos hn]

end Minimum

/-! ## Sequences that go back

What goes back as a whole may have gone back in between. -/

theorem Tame.backtrack_eq {x : Step α} (hx : Tame i x) : x.backtrack = x := by
  funext c
  unfold Step.backtrack
  rcases hc : x c with ⟨o, d⟩
  cases o with
  | hit a => rfl
  | miss =>
    have hstill := hx.still_of_eq hc
    dsimp only
    rw [← hstill]
    rfl
  | fail error => rfl

theorem Tame.sequence_eq {β : Type} {x : Step α} (hx : Tame i x) (expected : Unit → String) (f : α → Step β) :
    Step.sequence i true expected x f = (x.bind f).backtrack := by
  funext c
  unfold Step.sequence Step.backtrack Step.bind
  rcases hc : x c with ⟨o, d⟩
  cases o with
  | hit a =>
    dsimp only
    rcases f a d with ⟨p, d'⟩
    cases p <;> rfl
  | miss =>
    have hstill := hx.still_of_eq hc
    dsimp only
    rw [← hstill]
    rfl
  | fail error => rfl

section Sequences

variable (hu : ∀ a, Tame i (u a)) (expected : Unit → String) (n : Nat) (a : α)
include hu

theorem times_one : (times u 1 a).backtrack = u a := by
  have h : times u 1 a = u a := bind_hit (u a)
  rw [h, (hu a).backtrack_eq]

theorem sequence_times :
    sequence i true expected (times u n a).backtrack u = (times u (n + 1) a).backtrack := by
  have htame : Tame i (times u n a).backtrack := .backtrack (Tame.follows_times hu n a)
  rw [htame.sequence_eq, backtrack_bind, times_succ]

theorem sequence_repeated :
    sequence i true expected (times u n a).backtrack (repeated u) = atLeast n u a := by
  have htame : Tame i (times u n a).backtrack := .backtrack (Tame.follows_times hu n a)
  rw [htame.sequence_eq, backtrack_bind]
  rfl

end Sequences

end Step

/-! ## Nodes in a row -/

namespace Node

variable {t : Shape}

/-- The node and so many more of it behind one another, where any that does not match gives all back. -/
def consecutive (x : Reducer E t t) : Nat → Reducer E t t
  | 0 => x
  | n + 1 => .seq true (x.consecutive n) x

section Steps

variable (hi : i.WellFormed) {env : E} (x : Reducer E t t)
include hi

theorem recognizeWith_consecutive {onRef : Shape → String → Step Unit} (href : ∀ t name, Step.Tame i (onRef t name)) :
    ∀ n : Nat, (x.consecutive n).recognizeWith onRef i =
      (Step.times (fun _ => x.recognizeWith onRef i) (n + 1) ()).backtrack
  | 0 => (Step.times_one (fun _ => x.recognizeWith_tame hi href) ()).symm
  | n + 1 => by
    show Step.sequence i true _ ((x.consecutive n).recognizeWith onRef i) (fun _ => x.recognizeWith onRef i) = _
    rw [recognizeWith_consecutive href n]
    exact Step.sequence_times (fun _ => x.recognizeWith_tame hi href) _ (n + 1) ()

theorem parseWith_consecutive {onRef : (t : Shape) → String → Step t.Carrier}
    (href : ∀ t name, Step.Tame i (onRef t name)) (left : t.Carrier) :
    ∀ n : Nat, (x.consecutive n).parseWith onRef i env left =
      (Step.times (x.parseWith onRef i env) (n + 1) left).backtrack
  | 0 => (Step.times_one (x.parseWith_tame hi href) left).symm
  | n + 1 => by
    show Step.sequence i true _ ((x.consecutive n).parseWith onRef i env left) (x.parseWith onRef i env) = _
    rw [parseWith_consecutive href left n]
    exact Step.sequence_times (x.parseWith_tame hi href) _ (n + 1) left

end Steps

/-! ### Reading them, and then any number of others -/

section Settings

variable {s : Setting E} (hi : s.input.WellFormed) (x : Reducer E t t) (n : Nat)
include hi

theorem recognize_atLeast_succ : (atLeast (n + 1) x).recognize s = (seq true (x.consecutive n) (rep x)).recognize s := by
  funext c
  have href : ∀ t name, Step.Tame s.input (s.definitions.recognizeRef s.input (s.depth - c.depth) t name) :=
    fun t name => by
      have h : Step.Tame s.input ((ref name : Parser E t).recognizeAt s.definitions s.input (s.depth - c.depth)) :=
        recognizeAt_tame hi _ _
      rwa [recognizeAt_eq] at h
  rw [recognize, recognize, recognizeAt_eq, recognizeAt_eq]
  show _ = Step.sequence s.input true _ ((x.consecutive n).recognizeWith _ s.input)
    (fun _ => (rep x).recognizeWith _ s.input) c
  rw [recognizeWith_consecutive hi x href]
  exact (congrFun (Step.sequence_repeated (fun _ => x.recognizeWith_tame hi href) _ (n + 1) ()) c).symm

theorem parse_atLeast_succ (left : t.Carrier) :
    (atLeast (n + 1) x).parse s left = (seq true (x.consecutive n) (rep x)).parse s left := by
  funext c
  have href : ∀ t name, Step.Tame s.input (s.definitions.parseRef s.input s.env (s.depth - c.depth) t name) :=
    fun t name => by
      have h : Step.Tame s.input ((ref name : Parser E t).parseAt s.definitions s.input s.env (s.depth - c.depth) ()) :=
        parseAt_tame hi _ _ _
      rwa [parseAt_eq] at h
  rw [parse, parse, parseAt_eq, parseAt_eq]
  show _ = Step.sequence s.input true _ ((x.consecutive n).parseWith _ s.input s.env left)
    ((rep x).parseWith _ s.input s.env) c
  rw [parseWith_consecutive hi x href]
  exact (congrFun (Step.sequence_repeated (x.parseWith_tame hi href) _ (n + 1) left) c).symm

end Settings

/-! ### Printing any number, and then them -/

variable {ds : Definitions E} {env : E} {budget : Nat}

theorem print_consecutive (x : Reducer E t t) : ∀ (n : Nat) (v : t.Carrier),
    (x.consecutive n).print ds env budget v = Print.takeOff (x.print ds env budget) (n + 1) v
  | 0, v => by
    rw [Print.takeOff]
    show x.print ds env budget v = _
    cases x.print ds env budget v <;> rfl
  | n + 1, v => by
    have hrest := print_consecutive x n
    rw [consecutive, print_seq, Print.takeOff]
    simp only [hrest]

theorem print_atLeast_succ (x : Reducer E t t) (n : Nat) (v : t.Carrier) :
    (atLeast (n + 1) x).print ds env budget v = (seq true (rep x) (x.consecutive n)).print ds env budget v := by
  rw [print_atLeast, print_seq, print_consecutive]
  refine congrArg _ (funext fun (mid, last) => ?_)
  dsimp only
  rw [print_rep]
  cases Print.peel (x.print ds env budget) budget mid [] <;> rfl

end Node

/-! ## At least so many -/

open Step (Streak Advances)

/-- **At least so many is any number with a minimum**, for reading and for printing.  Where every match of the run moves,
it matches if the repetition does with so many matches, and comes to the same; with fewer it has not moved, and an error
of the node is its error.  It prints a value that has so many elements, and then what the repetition prints in any
layout.  And it is put together in two ways: to read, so many in a row come before the repetition, and to print, behind
it. -/
theorem atLeast_is_rep (ds : Definitions E) (env : E) (lexer : Lexer) (text : String) (depth : Nat) {t : Shape}
    (x : Reducer E t t) (n : Nat) :
    let s : Setting E := ⟨ds, env, .of lexer (.ofString text), depth⟩
    (∀ (left : t.Carrier) (c : Cursor), c.offset ≤ s.input.source.size → Advances (x.parse s) left c →
      (∃ m b d, Streak (x.parse s) m left c b d ∧ ∀ v e, x.parse s b d ≠ (.hit v, e)) ∧
      (∀ v e, (Node.atLeast n x).parse s left c = (.hit v, e) ↔ (Node.rep x).parse s left c = (.hit v, e) ∧
        ∃ m ≥ n, ∃ d, Streak (x.parse s) m left c v d ∧ x.parse s v d = (.miss, e)) ∧
      ∀ m b d e, Streak (x.parse s) m left c b d →
        (x.parse s b d = (.miss, e) → m < n → (Node.atLeast n x).parse s left c = (.miss, e.goTo c.offset)) ∧
        ∀ error, x.parse s b d = (.fail error, e) → (Node.rep x).parse s left c = (.fail error, e) ∧
          (Node.atLeast n x).parse s left c = (.fail error, e)) ∧
    (∀ v left trees, x.Unwinds ds env v left trees →
      (Node.rep x).Prints ds env v (.hit (left, .concat trees)) ∧
      (trees.length < n → (Node.atLeast n x).Prints ds env v .miss) ∧
      (n ≤ trees.length → ∃ tree, (Node.atLeast n x).Prints ds env v (.hit (left, tree)) ∧
        ∀ {σ : Type} (layout : Layout σ) (out : σ), tree.render layout out = (Tree.concat trees).render layout out ∧
          tree.render layout out = Tree.renderAll layout trees out)) ∧
    ∀ k, n = k + 1 →
      (Node.atLeast n x).recognize s = (Node.seq true (x.consecutive k) (.rep x)).recognize s ∧
      (∀ left, (Node.atLeast n x).parse s left = (Node.seq true (x.consecutive k) (.rep x)).parse s left) ∧
      ∀ budget v, (Node.atLeast n x).print ds env budget v =
        (Node.seq true (.rep x) (x.consecutive k)).print ds env budget v := by
  intro s
  have hi : s.input.WellFormed := Input.wellFormed_of lexer text
  refine ⟨fun left c hc hmoves => ?_, fun v left trees h => ⟨h.rep_prints, h.atLeast_prints_miss, fun hn => ?_⟩, ?_⟩
  · have hu := x.parse_tame hi
    have hstands : Stands s.input c.depth c := ⟨hc, rfl⟩
    rw [Node.parse_atLeast hi hc, Node.parse_rep hi hc]
    refine ⟨Step.exists_end hu hmoves hstands, fun v e => Step.atLeast_eq_hit_iff hu hmoves hstands,
      fun m b d e h => ⟨fun hstop hn => ?_, fun error hstop => ⟨?_, Step.atLeast_eq_of_fail hu hmoves hstands h hstop n⟩⟩⟩
    · rw [Step.atLeast_eq_of_miss hu hmoves hstands h hstop, if_neg (Nat.not_le_of_lt hn)]
    · rw [h.repeated_eq hu hmoves hstands, Step.repeated_eq_of_fail hstop]
  · obtain ⟨tree, htree, hrender⟩ := h.exists_atLeast_prints hn
    exact ⟨tree, htree, fun layout out =>
      ⟨hrender layout out, (hrender layout out).trans (Tree.render_concat layout trees out)⟩⟩
  · rintro k rfl
    exact ⟨Node.recognize_atLeast_succ hi x k, Node.parse_atLeast_succ hi x k, fun budget v =>
      Node.print_atLeast_succ x k v⟩

/-- There are two words in front of the bracket, which are enough for two and not for three. -/
theorem atLeast_is_rep_words :
    let s : Setting Unit := ⟨Nested.definitions, (), .of Nested.lexer (.ofString "a a ["), 1⟩
    let words := Nested.words
    let c : Cursor := ⟨0, 0, 20, 0⟩
    (c.offset ≤ s.input.source.size ∧ Advances (words.parse s) [] c ∧
      words.Unwinds Nested.definitions () [.string "a", .string "a"] [] [.text "a", .text "a"]) ∧
    (Node.atLeast 2 words).parse s [] c = (.hit [.string "a", .string "a"], ⟨3, 3, 17, 0⟩) ∧
    (Node.atLeast 3 words).parse s [] c = (.miss, ⟨0, 3, 17, 0⟩) ∧
    (∃ tree, (Node.atLeast 2 words).Prints Nested.definitions () [.string "a", .string "a"] (.hit ([], tree)) ∧
      tree.render .plain "" = "aa") ∧
    (Node.atLeast 3 words).Prints Nested.definitions () [.string "a", .string "a"] .miss := by
  intro s words c
  have hi : s.input.WellFormed := Input.wellFormed_of Nested.lexer "a a ["
  have hc : c.offset ≤ s.input.source.size := Nat.zero_le _
  have hmoves : Advances (words.parse s) [] c :=
    fun _ _ _ _ _ _ h => Nat.ne_of_gt (Node.parse_fold_scan_lt hi h)
  have hfirst : words.parse s [] c = (.hit [.string "a"], ⟨1, 1, 19, 0⟩) := by decide +kernel
  have hsecond : words.parse s [.string "a"] ⟨1, 1, 19, 0⟩ = (.hit [.string "a", .string "a"], ⟨3, 3, 18, 0⟩) := by
    decide +kernel
  have hstop : words.parse s [.string "a", .string "a"] ⟨3, 3, 18, 0⟩ = (.miss, ⟨3, 3, 17, 0⟩) := by decide +kernel
  have hstreak : Streak (words.parse s) 2 [] c [.string "a", .string "a"] ⟨3, 3, 18, 0⟩ :=
    .cons hfirst (.cons hsecond .nil)
  have hrep : (Node.rep words).parse s [] c = (.hit [.string "a", .string "a"], ⟨3, 3, 17, 0⟩) := by decide +kernel
  have hunwinds := Nested.unwinds_words
  have htwo := atLeast_is_rep Nested.definitions () Nested.lexer "a a [" 1 words 2
  have hthree := atLeast_is_rep Nested.definitions () Nested.lexer "a a [" 1 words 3
  obtain ⟨tree, htree, hrender⟩ := (htwo.2.1 _ _ _ hunwinds).2.2 (Nat.le_refl 2)
  refine ⟨⟨hc, hmoves, hunwinds⟩, ?_, ?_, ⟨tree, htree, ?_⟩, ?_⟩
  · exact ((htwo.1 [] c hc hmoves).2.1 _ _).2 ⟨hrep, 2, Nat.le_refl 2, _, hstreak, hstop⟩
  · exact ((hthree.1 [] c hc hmoves).2.2 _ _ _ _ hstreak).1 hstop (by decide)
  · rw [(hrender .plain "").2]
    decide
  · exact (hthree.2.1 _ _ _ hunwinds).2.1 (by decide)

end Ambigram
