import Ambigram.Proofs.Discipline
import Mathlib.Data.Finset.Dedup
/-!
# Lexemes

What a source is to a grammar: its longest matches one after another, each with its text and its tokens, and whether
the source ends behind them.  Trivia are not in it, and neither is any offset.

Two sources that have the same lexemes need not have them at the same places.  What corresponds are the places that are
behind equally many.
-/
namespace Ambigram

/-- A longest match as it is read. -/
structure Lexeme where
  text : String
  tokens : Finset Nat
  deriving DecidableEq

structure Lexing where
  lexemes : List Lexeme
  /-- Whether the source ends there, but for trivia; otherwise nothing matches what comes next. -/
  ended : Bool
  deriving DecidableEq

/-- The match from a start, as it is read. -/
def LongestMatch.lexeme (m : LongestMatch) (s : Source) (start : Nat) : Lexeme :=
  ⟨s.slice start m.stop, m.tokens.toFinset⟩

theorem LongestMatch.contains_pattern (m : LongestMatch) (s : Source) (start k : Nat) :
    m.contains (.pattern k) = decide (k ∈ (m.lexeme s start).tokens) := by
  simp [contains, lexeme]

theorem LongestMatch.contains_eq {m m' : LongestMatch} {s s' : Source} {start start' : Nat}
    (h : m'.lexeme s' start' = m.lexeme s start) : ∀ id, m'.contains id = m.contains id
  | .pattern k => by rw [m'.contains_pattern s' start', h, m.contains_pattern s start]
  | .endOfInput => rfl

def Lexing.cons (l : Lexeme) (rest : Lexing) : Lexing := { rest with lexemes := l :: rest.lexemes }

namespace Input

variable (i : Input)

/-- Skips trivia and takes the longest match, again and again from an offset. -/
def lexingFrom (offset : Nat) : Lexing := go (i.source.size + 1) offset
where
  go : Nat → Nat → Lexing
    | 0, offset => ⟨[], offset = i.source.size⟩
    | n + 1, offset =>
      match i.matchAt (i.skipTrivia offset) with
      | some m => (go n m.stop).cons (m.lexeme i.source (i.skipTrivia offset))
      | none => ⟨[], i.skipTrivia offset = i.source.size⟩

def lexing : Lexing := i.lexingFrom 0

/-- The offset behind so many lexemes. -/
def behind : Nat → Option Nat
  | 0 => some 0
  | k + 1 => (behind k).bind fun offset => (i.matchAt (i.skipTrivia offset)).map (·.stop)

variable {i} in
theorem behind_succ {k a : Nat} : i.behind (k + 1) = some a ↔
    ∃ b m, i.behind k = some b ∧ i.matchAt (i.skipTrivia b) = some m ∧ m.stop = a := by
  simp [behind, Option.bind_eq_some_iff]

namespace WellFormed

variable {i : Input} (hi : i.WellFormed) {a b k l : Nat} {m : LongestMatch}
include hi

/-! ## One lexeme -/

theorem skipTrivia_le (h : a ≤ i.source.size) : i.skipTrivia a ≤ i.source.size :=
  (hi.stretch_skipTrivia a).within hi.source h

theorem lt_stop (hm : i.matchAt (i.skipTrivia a) = some m) : a < m.stop :=
  Nat.lt_of_le_of_lt (hi.stretch_skipTrivia a).le (hi.ahead hm)

theorem stop_le (h : a ≤ i.source.size) (hm : i.matchAt (i.skipTrivia a) = some m) : m.stop ≤ i.source.size :=
  (hi.stretch hm).within hi.source (hi.skipTrivia_le h)

/-- Nothing matches at the end. -/
theorem skipTrivia_ne_size (h : a ≤ i.source.size) (hm : i.matchAt (i.skipTrivia a) = some m) :
    i.skipTrivia a ≠ i.source.size :=
  Nat.ne_of_lt (Nat.lt_of_lt_of_le (hi.ahead hm) (hi.stop_le h hm))

theorem lexingFrom_go_eq : ∀ (n n' a : Nat), a ≤ i.source.size → i.source.size - a < n → i.source.size - a < n' →
    lexingFrom.go i n a = lexingFrom.go i n' a
  | 0, _, _, _, hn, _ => absurd hn (Nat.not_lt_zero _)
  | _, 0, _, _, _, hn' => absurd hn' (Nat.not_lt_zero _)
  | n + 1, n' + 1, a, h, hn, hn' => by
    unfold lexingFrom.go
    cases hm : i.matchAt (i.skipTrivia a) with
    | none => rfl
    | some m =>
      have := hi.lt_stop hm
      have hstop := hi.stop_le h hm
      dsimp only
      rw [lexingFrom_go_eq n n' m.stop hstop (by omega) (by omega)]

theorem lexingFrom_of_some (h : a ≤ i.source.size) (hm : i.matchAt (i.skipTrivia a) = some m) :
    i.lexingFrom a = (i.lexingFrom m.stop).cons (m.lexeme i.source (i.skipTrivia a)) := by
  have := hi.lt_stop hm
  have hstop := hi.stop_le h hm
  conv => lhs; unfold lexingFrom lexingFrom.go
  rw [hm]
  dsimp only
  rw [hi.lexingFrom_go_eq i.source.size (i.source.size + 1) m.stop hstop (by omega) (by omega)]
  rfl

omit hi in
theorem lexingFrom_of_none (hm : i.matchAt (i.skipTrivia a) = none) :
    i.lexingFrom a = ⟨[], i.skipTrivia a = i.source.size⟩ := by
  unfold lexingFrom lexingFrom.go
  rw [hm]

omit hi in
/-- Trivia in front make no difference. -/
theorem lexingFrom_congr (h : i.skipTrivia a = i.skipTrivia b) : i.lexingFrom a = i.lexingFrom b := by
  unfold lexingFrom lexingFrom.go
  rw [h]

/-! ## Behind so many lexemes -/

theorem behind_le : ∀ {k a : Nat}, i.behind k = some a → a ≤ i.source.size
  | 0, a, h => by
    cases h
    exact Nat.zero_le _
  | k + 1, a, h => by
    obtain ⟨b, m, hb, hm, rfl⟩ := behind_succ.1 h
    exact hi.stop_le (behind_le hb) hm

theorem behind_lt (ha : i.behind k = some a) : ∀ {l b : Nat}, i.behind l = some b → k < l → a < b
  | 0, _, _, h => absurd h (Nat.not_lt_zero _)
  | l + 1, b, hb, h => by
    obtain ⟨c, m, hc, hm, rfl⟩ := behind_succ.1 hb
    have hlt := hi.lt_stop hm
    rcases Nat.lt_or_eq_of_le (Nat.le_of_lt_succ h) with hkl | rfl
    · exact Nat.lt_trans (behind_lt ha hc hkl) hlt
    · cases ha.symm.trans hc
      exact hlt

theorem behind_le_iff (ha : i.behind k = some a) (hb : i.behind l = some b) : a ≤ b ↔ k ≤ l := by
  rcases Nat.lt_trichotomy k l with h | rfl | h
  · have := hi.behind_lt ha hb h
    omega
  · cases ha.symm.trans hb
    simp
  · have := hi.behind_lt hb ha h
    omega

theorem lexingFrom_behind : ∀ {k a : Nat}, i.behind k = some a →
    i.lexingFrom a = ⟨i.lexing.lexemes.drop k, i.lexing.ended⟩
  | 0, a, h => by
    cases h
    rfl
  | k + 1, a, h => by
    obtain ⟨b, m, hb, hm, rfl⟩ := behind_succ.1 h
    have heq := (hi.lexingFrom_of_some (hi.behind_le hb) hm).symm.trans (lexingFrom_behind hb)
    rw [Lexing.cons, Lexing.mk.injEq] at heq
    rw [← List.tail_drop, ← heq.1, List.tail_cons, ← heq.2]

end WellFormed
end Input

/-! ## Two inputs with the same lexemes -/

/-- The offsets are behind equally many lexemes. -/
def Input.Level (i i' : Input) (a a' : Nat) : Prop := ∃ k, i.behind k = some a ∧ i'.behind k = some a'

namespace Input.Level

variable {i i' : Input} {a a' b b' : Nat}

theorem zero : i.Level i' 0 0 := ⟨0, rfl, rfl⟩

/-- Either the same lexeme comes next and they are level behind it, or none does, here or there. -/
inductive Next (i i' : Input) (a a' : Nat) : Prop
  | lexeme {m m' : LongestMatch} (found : i.matchAt (i.skipTrivia a) = some m)
    (found' : i'.matchAt (i'.skipTrivia a') = some m')
    (same : m'.lexeme i'.source (i'.skipTrivia a') = m.lexeme i.source (i.skipTrivia a))
    (level : i.Level i' m.stop m'.stop)
  | nothing (found : i.matchAt (i.skipTrivia a) = none) (found' : i'.matchAt (i'.skipTrivia a') = none)

variable (hi : i.WellFormed) (hi' : i'.WellFormed)
include hi hi'

theorem le_iff (h : i.Level i' a a') (k : i.Level i' b b') : a ≤ b ↔ a' ≤ b' := by
  obtain ⟨_, ha, ha'⟩ := h
  obtain ⟨_, hb, hb'⟩ := k
  rw [hi.behind_le_iff ha hb, hi'.behind_le_iff ha' hb']

theorem eq_iff (h : i.Level i' a a') (k : i.Level i' b b') : a = b ↔ a' = b' := by
  rw [Nat.eq_iff_le_and_ge, Nat.eq_iff_le_and_ge, h.le_iff hi hi' k, k.le_iff hi hi' h]

theorem max (h : i.Level i' a a') (k : i.Level i' b b') : i.Level i' (max a b) (max a' b') := by
  have hle := h.le_iff hi hi' k
  by_cases hab : a ≤ b
  · rwa [Nat.max_eq_right hab, Nat.max_eq_right (hle.1 hab)]
  · rwa [Nat.max_eq_left (Nat.le_of_not_le hab), Nat.max_eq_left (Nat.le_of_not_le fun h' => hab (hle.2 h'))]

variable (hsame : i.lexing = i'.lexing)
include hsame

theorem lexingFrom_eq (h : i.Level i' a a') : i.lexingFrom a = i'.lexingFrom a' := by
  obtain ⟨_, ha, ha'⟩ := h
  rw [hi.lexingFrom_behind ha, hi'.lexingFrom_behind ha', hsame]

theorem next (h : i.Level i' a a') : Next i i' a a' := by
  have heq := h.lexingFrom_eq hi hi' hsame
  obtain ⟨k, ha, ha'⟩ := h
  cases hm : i.matchAt (i.skipTrivia a) with
  | none =>
    cases hm' : i'.matchAt (i'.skipTrivia a') with
    | none => exact .nothing hm hm'
    | some m' =>
      rw [WellFormed.lexingFrom_of_none hm, hi'.lexingFrom_of_some (hi'.behind_le ha') hm'] at heq
      cases congrArg Lexing.lexemes heq
  | some m =>
    rw [hi.lexingFrom_of_some (hi.behind_le ha) hm] at heq
    cases hm' : i'.matchAt (i'.skipTrivia a') with
    | none =>
      rw [WellFormed.lexingFrom_of_none hm'] at heq
      cases congrArg Lexing.lexemes heq
    | some m' =>
      rw [hi'.lexingFrom_of_some (hi'.behind_le ha') hm'] at heq
      have hlexeme := (List.cons.inj (congrArg Lexing.lexemes heq)).1
      exact .lexeme hm hm' hlexeme.symm ⟨k + 1, behind_succ.2 ⟨a, m, ha, hm, rfl⟩, behind_succ.2 ⟨a', m', ha', hm', rfl⟩⟩

/-- The one source ends where the other does. -/
theorem isAtEnd_iff (h : i.Level i' a a') : i.skipTrivia a = i.source.size ↔ i'.skipTrivia a' = i'.source.size := by
  have heq := h.lexingFrom_eq hi hi' hsame
  cases h.next hi hi' hsame with
  | lexeme hm hm' _ _ =>
    obtain ⟨_, ha, ha'⟩ := h
    exact iff_of_false (hi.skipTrivia_ne_size (hi.behind_le ha) hm) (hi'.skipTrivia_ne_size (hi'.behind_le ha') hm')
  | nothing hm hm' =>
    rw [WellFormed.lexingFrom_of_none hm, WellFormed.lexingFrom_of_none hm'] at heq
    exact decide_eq_decide.1 (congrArg Lexing.ended heq)

end Input.Level
end Ambigram
