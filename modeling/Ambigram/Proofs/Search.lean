import Ambigram.Automaton
import Ambigram.Proofs.Extent
import Mathlib.Data.List.Sort
/-!
# What a search finds

The last match that is told is the longest one.  The loop keeps the last of all ends before the place where it stands,
which is one byte behind the place that its state tells of: a state that says nothing leaves it, one that tells a match
replaces it, and behind a dead state there is no end any more.

There is one right answer, so any two ways to find it agree.
-/
namespace Ambigram

/-! ## The right answer -/

namespace LongestMatch

variable {ends : Nat → Nat → Prop} {offset : Nat}

/-- Of all ends of tokens this is the furthest one, behind the offset, with all tokens that end there in order. -/
structure Exact (ends : Nat → Nat → Prop) (offset : Nat) (m : LongestMatch) : Prop where
  ahead : offset < m.stop
  furthest : ∀ n k, ends n k → k ≤ m.stop
  reached : ∃ n, ends n m.stop
  sorted : m.tokens.Pairwise (· < ·)
  mem_tokens : ∀ n, n ∈ m.tokens ↔ ends n m.stop

/-- What there is to find at an offset: nothing, if nothing ends behind it. -/
def Found (ends : Nat → Nat → Prop) (offset : Nat) : Option LongestMatch → Prop
  | none => ∀ n k, ends n k → k ≤ offset
  | some m => m.Exact ends offset

theorem Exact.unique {m m' : LongestMatch} (h : m.Exact ends offset) (h' : m'.Exact ends offset) : m = m' := by
  obtain ⟨n, hn⟩ := h.reached
  obtain ⟨n', hn'⟩ := h'.reached
  have hstop : m.stop = m'.stop := Nat.le_antisymm (h'.furthest n _ hn) (h.furthest n' _ hn')
  have htokens : m.tokens = m'.tokens := by
    have hmem : ∀ n, n ∈ m.tokens ↔ n ∈ m'.tokens := fun n => by rw [h.mem_tokens, h'.mem_tokens, hstop]
    have hperm := (List.perm_ext_iff_of_nodup (h.sorted.imp Nat.ne_of_lt) (h'.sorted.imp Nat.ne_of_lt)).2 hmem
    exact hperm.eq_of_pairwise (fun _ _ _ _ hlt hgt => absurd hlt (Nat.lt_asymm hgt)) h.sorted h'.sorted
  cases m
  cases m'
  cases hstop
  cases htokens
  rfl

theorem Found.unique {o o' : Option LongestMatch} (h : Found ends offset o) (h' : Found ends offset o') : o = o' := by
  match o, o' with
  | none, none => rfl
  | some m, some m' => rw [Exact.unique h h']
  | none, some m =>
    obtain ⟨n, hn⟩ := h'.reached
    exact absurd h'.ahead (Nat.not_lt.2 (h n _ hn))
  | some m, none =>
    obtain ⟨n, hn⟩ := h.reached
    exact absurd h.ahead (Nat.not_lt.2 (h' n _ hn))

end LongestMatch

/-! ## Following an automaton -/

namespace Automaton

variable {σ : Type} {A : Automaton σ} {ends : Nat → Nat → Prop}

/-- Behind some bytes. -/
def run (A : Automaton σ) (q : σ) (bytes : List UInt8) : σ := bytes.foldl A.next q

/-- The states that matter are marked as special ones, and nothing matches behind a dead one. -/
structure Lawful (A : Automaton σ) : Prop where
  isSpecial_of_isMatch : ∀ {q}, A.isMatch q = true → A.isSpecial q = true
  isSpecial_of_isDead : ∀ {q}, A.isDead q = true → A.isSpecial q = true
  isMatch_of_isDead : ∀ {q}, A.isDead q = true → A.isMatch q = false
  isDead_next : ∀ {q} byte, A.isDead q = true → A.isDead (A.next q byte) = true
  isDead_finish : ∀ {q}, A.isDead q = true → A.isDead (A.finish q) = true

/-- The state tells whether something ends here, and what. -/
structure Tells (A : Automaton σ) (ends : Nat → Nat → Prop) (q : σ) (k : Nat) : Prop where
  isMatch_iff : A.isMatch q = true ↔ ∃ n, ends n k
  nodup : A.isMatch q = true → (A.patterns q).Nodup
  mem_patterns : A.isMatch q = true → ∀ n, n ∈ A.patterns q ↔ ends n k

/-- From the state on, the automaton tells of each place behind the byte that comes next, and is not given up. -/
structure Follows (A : Automaton σ) (ends : Nat → Nat → Prop) (q : σ) (bytes : List UInt8) (offset : Nat) : Prop where
  isQuit : ∀ n, A.isQuit (A.run q (bytes.take n)) = false
  tells : ∀ n < bytes.length, A.Tells ends (A.run q (bytes.take (n + 1))) (offset + n)
  finish : A.Tells ends (A.finish (A.run q bytes)) (offset + bytes.length)

/-- This is the last of all ends before a bound, and the state tells it. -/
def LastBefore (A : Automaton σ) (ends : Nat → Nat → Prop) (bound : Nat) : Option (Nat × σ) → Prop
  | none => ∀ n k, ends n k → bound ≤ k
  | some (j, q) => j < bound ∧ A.isMatch q = true ∧ A.Tells ends q j ∧ ∀ n k, ends n k → k ≤ j ∨ bound ≤ k

theorem Tells.not_of_isMatch {q : σ} {k : Nat} (h : A.Tells ends q k) (hq : A.isMatch q = false) (n : Nat) :
    ¬ ends n k := by
  intro hn
  have := h.isMatch_iff.2 ⟨n, hn⟩
  rw [hq] at this
  cases this

theorem Follows.tail {q : σ} {byte : UInt8} {bytes : List UInt8} {offset : Nat}
    (h : A.Follows ends q (byte :: bytes) offset) : A.Follows ends (A.next q byte) bytes (offset + 1) where
  isQuit n := h.isQuit (n + 1)
  tells n hn := by
    rw [Nat.add_assoc, Nat.add_comm 1]
    exact h.tells (n + 1) (Nat.succ_lt_succ hn)
  finish := by
    rw [Nat.add_assoc, Nat.add_comm 1]
    exact h.finish

/-- Behind a dead state nothing ends any more. -/
theorem Follows.lt_or_lt_of_isDead (hA : A.Lawful) : ∀ {bytes : List UInt8} {q : σ} {offset : Nat},
    A.Follows ends q bytes offset → A.isDead q = true → ∀ n k, ends n k → k < offset ∨ offset + bytes.length < k
  | [], q, offset, h, hq, n, k, hk => by
    have hend := h.finish.not_of_isMatch (hA.isMatch_of_isDead (hA.isDead_finish hq))
    rcases Nat.lt_trichotomy k offset with hlt | rfl | hgt
    · exact .inl hlt
    · exact absurd hk (hend n)
    · exact .inr hgt
  | byte :: bytes, q, offset, h, hq, n, k, hk => by
    have hdead := hA.isDead_next byte hq
    have hhere := (h.tells 0 (Nat.succ_pos _)).not_of_isMatch (hA.isMatch_of_isDead hdead)
    rw [List.length_cons]
    rcases h.tail.lt_or_lt_of_isDead hA hdead n k hk with hlt | hgt
    · rcases Nat.lt_or_eq_of_le (Nat.le_of_lt_succ hlt) with hlt | rfl
      · exact .inl hlt
      · exact absurd hk (hhere n)
    · exact .inr (by omega)

namespace LastBefore

variable {bound bound' : Nat} {last : Option (Nat × σ)} {q : σ}

theorem mono (h : A.LastBefore ends bound last) (hle : bound ≤ bound')
    (hnone : ∀ n k, ends n k → k < bound ∨ bound' ≤ k) :
    A.LastBefore ends bound' last := by
  match last with
  | none => exact fun n k hk => (hnone n k hk).resolve_left (Nat.not_lt.2 (h n k hk))
  | some (j, q) =>
    obtain ⟨hj, hq, htells, hlast⟩ := h
    refine ⟨Nat.lt_of_lt_of_le hj hle, hq, htells, fun n k hk => ?_⟩
    rcases hlast n k hk with hkj | hkb
    · exact .inl hkj
    · exact .inr ((hnone n k hk).resolve_left (Nat.not_lt.2 hkb))

theorem succ (h : A.LastBefore ends bound last) (hq : A.isMatch q = false) (htells : A.Tells ends q bound) :
    A.LastBefore ends (bound + 1) last := by
  refine h.mono (Nat.le_succ bound) fun n k hk => ?_
  rcases Nat.lt_trichotomy k bound with hlt | rfl | hgt
  · exact .inl hlt
  · exact absurd hk (htells.not_of_isMatch hq n)
  · exact .inr hgt

theorem told (hq : A.isMatch q = true) (htells : A.Tells ends q bound) :
    A.LastBefore ends (bound + 1) (some (bound, q)) :=
  ⟨Nat.lt_succ_self bound, hq, htells, fun _ k _ => Nat.lt_or_ge bound k |>.symm⟩

end LastBefore

/-- **The loop keeps the last end.**  Where it stops before the last byte, there is none behind all bytes either. -/
theorem scan_cases (hA : A.Lawful) : ∀ {bytes : List UInt8} {offset : Nat} {q : σ} {last : Option (Nat × σ)},
    A.Follows ends q bytes offset → A.LastBefore ends offset last →
      (∃ l, A.scan bytes offset q last = (l, some (A.run q bytes)) ∧ A.LastBefore ends (offset + bytes.length) l) ∨
      ∃ l, A.scan bytes offset q last = (l, none) ∧ A.LastBefore ends (offset + bytes.length + 1) l
  | [], _, _, last, _, hlast => .inl ⟨last, rfl, hlast⟩
  | byte :: bytes, offset, q, last, h, hlast => by
    have htells : A.Tells ends (A.next q byte) offset := h.tells 0 (Nat.succ_pos _)
    have hquit : A.isQuit (A.next q byte) = false := h.isQuit 1
    have hlength : offset + (byte :: bytes).length = offset + 1 + bytes.length := by
      rw [List.length_cons]
      omega
    rw [hlength]
    cases hmatch : A.isMatch (A.next q byte) with
    | true =>
      have hscan : A.scan (byte :: bytes) offset q last =
          A.scan bytes (offset + 1) (A.next q byte) (some (offset, A.next q byte)) := by
        simp only [scan, hmatch, hA.isSpecial_of_isMatch hmatch, Bool.not_true, Bool.false_eq_true, if_false, if_true]
      rw [hscan]
      exact scan_cases hA h.tail (.told hmatch htells)
    | false =>
      have hnext := hlast.succ hmatch htells
      cases hdead : A.isDead (A.next q byte) with
      | true =>
        refine .inr ⟨last, ?_, hnext.mono (by omega) (h.tail.lt_or_lt_of_isDead hA hdead)⟩
        simp only [scan, hmatch, hdead, hA.isSpecial_of_isDead hdead, Bool.not_true, Bool.false_eq_true, Bool.true_or,
          if_false, if_true]
      | false =>
        have hscan : A.scan (byte :: bytes) offset q last = A.scan bytes (offset + 1) (A.next q byte) last := by
          simp only [scan, hmatch, hdead, hquit, Bool.or_false, Bool.false_eq_true, if_false, ite_self]
        rw [hscan]
        exact scan_cases hA h.tail hnext

theorem lastMatch_lastBefore (hA : A.Lawful) {bytes : List UInt8} {offset : Nat} {q : σ}
    (h : A.Follows ends q bytes offset) (hfrom : ∀ n k, ends n k → offset ≤ k) :
    A.LastBefore ends (offset + bytes.length + 1) (A.lastMatch bytes offset q) := by
  unfold lastMatch
  have hstart : A.LastBefore ends offset none := hfrom
  obtain ⟨l, hscan, hl⟩ | ⟨l, hscan, hl⟩ := scan_cases hA h hstart
  · rw [hscan]
    dsimp only
    cases hmatch : A.isMatch (A.finish (A.run q bytes)) with
    | true => exact .told hmatch h.finish
    | false => exact hl.succ hmatch h.finish
  · rw [hscan]
    exact hl

end Automaton

/-! ## Searching -/

namespace Lexer

variable {σ : Type} {A : Automaton σ} {ends : Nat → Nat → Prop} {l : Lexer} {only : Option TokenId} {id : Option Nat}
  {bytes : List UInt8} {offset : Nat} {q : σ}

/-- **A search finds what there is to find.** -/
theorem search_found (hA : A.Lawful) (honly : l.only? only = .ok id) (ho : offset ≤ bytes.length)
    (hstart : A.start bytes offset id = .ok q) (hq : A.Follows ends q (bytes.drop offset) offset)
    (hends : ∀ n k, ends n k → offset ≤ k ∧ k ≤ bytes.length) :
    ∃ found, l.search A bytes offset only = .ok found ∧ LongestMatch.Found ends offset found := by
  have hlast := A.lastMatch_lastBefore hA hq fun n k hk => (hends n k hk).1
  have hlength : offset + (bytes.drop offset).length = bytes.length := by
    rw [List.length_drop]
    omega
  rw [hlength] at hlast
  unfold search
  rw [honly]
  show ∃ found, ((if bytes.length < offset then _ else _) : Except Error (Option LongestMatch)) = .ok found ∧ _
  rw [if_neg (Nat.not_lt.2 ho), hstart]
  show ∃ found, (match A.lastMatch (bytes.drop offset) offset q with
    | none => pure none
    | some (stop, q) => _ : Except Error (Option LongestMatch)) = .ok found ∧ _
  match hfound : A.lastMatch (bytes.drop offset) offset q with
  | none =>
    rw [hfound] at hlast
    exact ⟨none, rfl, fun n k hk => absurd (hends n k hk).2 (Nat.not_le_of_lt (hlast n k hk))⟩
  | some (stop, q) =>
    rw [hfound] at hlast
    obtain ⟨hstop, hmatch, htells, hlast⟩ := hlast
    have hfurthest : ∀ n k, ends n k → k ≤ stop := fun n k hk =>
      (hlast n k hk).resolve_right (Nat.not_le_of_lt (Nat.lt_succ_of_le (hends n k hk).2))
    refine ⟨_, rfl, ?_⟩
    split
    · rename_i heq
      exact heq ▸ hfurthest
    · rename_i hne
      obtain ⟨n, hn⟩ := htells.isMatch_iff.1 hmatch
      have hperm := (A.patterns q).mergeSort_perm (· ≤ ·)
      refine ⟨Nat.lt_of_le_of_ne (hends n stop hn).1 (Ne.symm hne), hfurthest, ⟨n, hn⟩, ?_, fun n => ?_⟩
      · have hnodup := hperm.nodup_iff.2 (htells.nodup hmatch)
        exact (List.sortedLE_mergeSort.sortedLT_of_nodup hnodup).pairwise
      · rw [hperm.mem_iff]
        exact htells.mem_patterns hmatch n

end Lexer
end Ambigram
