import Ambigram.Input
/-!
# Where matches end

A match is a stretch of whole characters, and not an empty one.  The first holds of every set of ends that a track
makes, because a track only moves over characters that are there; the second is in the way the furthest end is
taken.
-/
namespace Ambigram

/-! ## Stretches of a source -/

namespace Source

/-- From `a` to here there are whole characters. -/
inductive Stretch (s : Source) (a : Nat) : Nat → Prop
  | nil : Stretch s a a
  | snoc {b : Nat} {c : Char} (front : Stretch s a b) (h : s.at? b = some c) : Stretch s a (b + c.utf8Size)

/-- Behind a character there is another one or the end. -/
def WellFormed (s : Source) : Prop := ∀ j c, s.at? j = some c → s.IsBoundary (j + c.utf8Size)

variable {s : Source} {a b c : Nat}

theorem lt_of_at? {c : Char} (h : s.at? a = some c) : a < s.size := by
  have hsome : s.cells[a]? = some (some c) := Option.join_eq_some_iff.1 h
  exact (Array.getElem?_eq_some_iff.1 hsome).1

theorem IsBoundary.le (h : s.IsBoundary a) : a ≤ s.size := by
  rcases h with rfl | h
  · exact Nat.le_refl _
  · obtain ⟨c, hc⟩ := Option.isSome_iff_exists.1 h
    exact Nat.le_of_lt (lt_of_at? hc)

namespace Stretch

theorem le (h : s.Stretch a b) : a ≤ b := by
  induction h with
  | nil => exact Nat.le_refl a
  | snoc _ _ ih => omega

theorem trans (h : s.Stretch a b) (k : s.Stretch b c) : s.Stretch a c := by
  induction k with
  | nil => exact h
  | snoc _ hc ih => exact .snoc ih hc

/-- A stretch that is not empty begins with a character. -/
theorem exists_at? (h : s.Stretch a b) (hab : a < b) : ∃ c, s.at? a = some c := by
  induction h with
  | nil => exact absurd hab (Nat.lt_irrefl a)
  | @snoc b c front hc ih =>
    by_cases hb : a = b
    · subst hb
      exact ⟨c, hc⟩
    · have := front.le
      exact ih (by omega)

theorem isBoundary (hs : s.WellFormed) (h : s.Stretch a b) (ha : s.IsBoundary a) : s.IsBoundary b := by
  cases h with
  | nil => exact ha
  | @snoc b c _ hc => exact hs b c hc

theorem within (hs : s.WellFormed) (h : s.Stretch a b) (ha : a ≤ s.size) : b ≤ s.size := by
  cases h with
  | nil => exact ha
  | @snoc b c _ hc => exact (hs b c hc).le

end Stretch

/-! ## Texts as sources -/

theorem length_cellsOf (c : Char) : (cellsOf c).length = c.utf8Size := by
  have := c.utf8Size_pos
  simp only [cellsOf, List.length_cons, List.length_replicate]
  omega

/-- A character is in front of the cells of the others behind it. -/
theorem exists_of_getElem?_cells : ∀ {cs : List Char} {j : Nat} {c : Char}, (cs.flatMap cellsOf)[j]? = some (some c) →
    ∃ front rest, cs = front ++ c :: rest ∧ (front.flatMap cellsOf).length = j
  | [], _, _, h => by simp at h
  | d :: cs, j, c, h => by
    rw [List.flatMap_cons] at h
    by_cases hj : j < d.utf8Size
    · rw [List.getElem?_append_left (by rwa [length_cellsOf])] at h
      cases j with
      | zero =>
        cases h
        exact ⟨[], cs, rfl, rfl⟩
      | succ j =>
        rw [cellsOf, List.getElem?_cons_succ] at h
        cases List.eq_of_mem_replicate (List.mem_of_getElem? h)
    · rw [List.getElem?_append_right (by rw [length_cellsOf]; omega), length_cellsOf] at h
      obtain ⟨front, rest, rfl, hfront⟩ := exists_of_getElem?_cells h
      refine ⟨d :: front, rest, rfl, ?_⟩
      rw [List.flatMap_cons, List.length_append, length_cellsOf]
      omega

theorem next_of_getElem?_cells (cs : List Char) (j : Nat) (c : Char) (h : (cs.flatMap cellsOf)[j]? = some (some c)) :
    j + c.utf8Size = (cs.flatMap cellsOf).length ∨ ∃ d, (cs.flatMap cellsOf)[j + c.utf8Size]? = some (some d) := by
  obtain ⟨front, rest, rfl, rfl⟩ := exists_of_getElem?_cells h
  rw [← length_cellsOf, List.flatMap_append, List.flatMap_cons, ← List.append_assoc, ← List.length_append]
  cases rest with
  | nil => exact .inl (by rw [List.flatMap_nil, List.append_nil])
  | cons d rest =>
    refine .inr ⟨d, ?_⟩
    rw [List.getElem?_append_right (Nat.le_refl _), Nat.sub_self]
    rfl

theorem wellFormed_ofString (text : String) : (ofString text).WellFormed := by
  intro j c h
  have h : (text.toList.flatMap cellsOf)[j]? = some (some c) := by
    simpa [at?, ofString, Option.join_eq_some_iff] using h
  rcases next_of_getElem?_cells _ j c h with hend | ⟨d, hd⟩
  · left
    simpa [size, ofString] using hend
  · right
    simp [at?, ofString, hd]

end Source

/-! ## Tracks -/

namespace Regex

theorem testBit_without {x y k : Nat} :
    (Track.without x y).testBit k = true ↔ x.testBit k = true ∧ ¬ y.testBit k = true := by
  unfold Track.without
  rw [Nat.testBit_xor, Nat.testBit_and]
  cases x.testBit k <;> cases y.testBit k <;> simp

/-- Every offset in the set, taken as bits, has the property. -/
def Members (P : Nat → Prop) (set : Nat) : Prop := ∀ k, set.testBit k = true → P k

namespace Members

variable {P : Nat → Prop} {x y : Nat}

theorem zero : Members P 0 := by
  intro k hk
  simp at hk

theorem or (hx : Members P x) (hy : Members P y) : Members P (x ||| y) := by
  intro k hk
  rw [Nat.testBit_or, Bool.or_eq_true] at hk
  exact hk.elim (hx k) (hy k)

theorem and_left (hx : Members P x) : Members P (x &&& y) := by
  intro k hk
  rw [Nat.testBit_and, Bool.and_eq_true] at hk
  exact hx k hk.1

theorem without (hx : Members P x) : Members P (Track.without x y) := by
  intro k hk
  exact hx k (testBit_without.1 hk).1

theorem singleton {a : Nat} (ha : P a) : Members P (1 <<< a) := by
  intro k hk
  rw [Nat.one_shiftLeft, Nat.testBit_two_pow, decide_eq_true_eq] at hk
  exact hk ▸ ha

end Members

theorem testBit_marks {p : Nat → Bool} {k : Nat} : ∀ {n : Nat}, (marks p n).testBit k = true ↔ k < n ∧ p k = true
  | 0 => by simp [marks]
  | n + 1 => by
    unfold marks
    split
    · rename_i hp
      rw [Nat.testBit_or, Bool.or_eq_true, testBit_marks, Nat.one_shiftLeft, Nat.testBit_two_pow, decide_eq_true_eq]
      constructor
      · rintro (⟨hk, hp⟩ | rfl)
        · exact ⟨Nat.lt_succ_of_lt hk, hp⟩
        · exact ⟨Nat.lt_succ_self _, hp⟩
      · rintro ⟨hk, hp⟩
        exact (Nat.lt_or_eq_of_le (Nat.le_of_lt_succ hk)).imp (fun hk => ⟨hk, hp⟩) Eq.symm
    · rename_i hp
      rw [testBit_marks]
      constructor
      · exact fun ⟨hk, hp⟩ => ⟨Nat.lt_succ_of_lt hk, hp⟩
      · rintro ⟨hk, hp'⟩
        refine ⟨Nat.lt_of_le_of_ne (Nat.le_of_lt_succ hk) fun h => hp (h ▸ hp'), hp'⟩

variable {src : Source} {a : Nat}

/-- From an offset in the set over a character of the given width. -/
theorem members_advance {s : CharSet} {w set : Nat} (h : Members (src.Stretch a) set) :
    Members (src.Stretch a) ((set &&& advances src s w) <<< w) := by
  intro k hk
  rw [Nat.testBit_shiftLeft, Bool.and_eq_true, decide_eq_true_eq, Nat.testBit_and, Bool.and_eq_true] at hk
  obtain ⟨hw, hset, hmark⟩ := hk
  have hmark := (testBit_marks.1 hmark).2
  cases hc : src.at? (k - w) with
  | none => simp [hc] at hmark
  | some c =>
    have hwidth : c.utf8Size = w := by
      simp only [hc, Bool.and_eq_true, decide_eq_true_eq] at hmark
      exact hmark.1
    have hk : k - w + c.utf8Size = k := by omega
    exact hk ▸ (h _ hset).snoc hc

theorem members_move {s : CharSet} {set : Nat} (h : Members (src.Stretch a) set) : ∀ (ws : List Nat) (reached : Nat),
    Members (src.Stretch a) reached →
    Members (src.Stretch a) ((ws.map fun w => (w, advances src s w)).foldl
      (fun reached (m : Nat × Nat) => reached ||| ((set &&& m.2) <<< m.1)) reached)
  | [], _, hr => hr
  | _ :: ws, _, hr => members_move h ws _ (hr.or (members_advance h))

section Steps

variable {step : Nat → Nat} {P : Nat → Prop} (hstep : ∀ set, Members P set → Members P (step set))
include hstep

theorem members_exactly : ∀ (n set : Nat), Members P set → Members P (Track.exactly step n set)
  | 0, _, h => h
  | n + 1, set, h => by
    unfold Track.exactly
    split
    · exact .zero
    · exact members_exactly n _ (hstep set h)

theorem members_spread : ∀ (n frontier seen : Nat), Members P frontier → Members P seen →
    Members P (Track.spread step n frontier seen)
  | 0, _, _, _, hs => hs
  | n + 1, frontier, seen, hf, hs => by
    have hfresh : Members P (Track.without (step frontier) seen) := (hstep frontier hf).without
    unfold Track.spread
    dsimp only
    split
    · exact hs
    · exact members_spread n _ _ hfresh (hs.or hfresh)

end Steps

/-- **A track moves over whole characters.** -/
theorem members_run_track : ∀ (r : Regex) (set : Nat), Members (src.Stretch a) set →
    Members (src.Stretch a) ((r.track src).run src.size set)
  | .empty, _, h => h
  | .chars s, set, h => members_move h [1, 2, 3, 4] 0 .zero
  | .look l, set, h => h.and_left
  | .seq x y, set, h => by
    rw [track, Track.run]
    split
    · exact .zero
    · exact members_run_track y _ (members_run_track x set h)
  | .alt x y, set, h => (members_run_track x set h).or (members_run_track y set h)
  | .times min max x, set, h => by
    have hx := members_run_track x
    have hstart := members_exactly hx min set h
    exact members_spread hx _ _ _ hstart hstart

end Regex

/-! ## Longest matches -/

namespace Lexer

variable {offset k : Nat} {ends : Ends}

theorem testBit_foldl_or {acc : Nat} : (ends.foldl (fun acc e => acc ||| e.2) acc).testBit k = true ↔
    acc.testBit k = true ∨ ∃ e ∈ ends, e.2.testBit k = true := by
  induction ends generalizing acc with
  | nil => simp
  | cons e ends ih =>
    rw [List.foldl_cons, ih, Nat.testBit_or, Bool.or_eq_true]
    simp only [List.mem_cons, exists_eq_or_imp, or_assoc]

theorem testBit_le_log2 {n : Nat} (h : n.testBit k = true) : k ≤ n.log2 :=
  (Nat.le_log2 (by rintro rfl; simp at h)).2 (Nat.ge_two_pow_of_testBit h)

/-- Nothing ends behind the offset, or the match is at the last end of all. -/
theorem furthest_cases (offset : Nat) (ends : Ends) :
    (furthest offset ends = none ∧ ∀ e ∈ ends, ∀ k, e.2.testBit k = true → k ≤ offset) ∨
    ∃ m, furthest offset ends = some m ∧ offset < m.stop ∧ (∀ e ∈ ends, ∀ k, e.2.testBit k = true → k ≤ m.stop) ∧
      (∀ n, n ∈ m.tokens ↔ ∃ e ∈ ends, e.1 = n ∧ e.2.testBit m.stop = true) ∧ ∃ e ∈ ends, e.2.testBit m.stop = true := by
  generalize hall : ends.foldl (fun acc e => acc ||| e.2) 0 = all
  have hmem : ∀ {e}, e ∈ ends → ∀ k, e.2.testBit k = true → all.testBit k = true := fun he k hk =>
    hall ▸ testBit_foldl_or.2 (.inr ⟨_, he, hk⟩)
  unfold furthest
  dsimp only
  rw [hall, Nat.one_shiftLeft]
  split
  · rename_i hlt
    refine .inl ⟨rfl, fun e he k hk => ?_⟩
    have hle := Nat.ge_two_pow_of_testBit (hmem he k hk)
    exact Nat.le_of_lt_succ ((Nat.pow_lt_pow_iff_right (by decide)).1 (Nat.lt_of_le_of_lt hle hlt))
  · rename_i hge
    rw [Nat.not_lt] at hge
    have hne : all ≠ 0 := by
      rintro rfl
      exact absurd hge (Nat.not_le_of_lt (Nat.two_pow_pos _))
    have hbit : (ends.foldl (fun acc (e : Nat × Nat) => acc ||| e.2) 0).testBit all.log2 = true := by
      rw [hall]
      exact Nat.testBit_log2 hne
    have hlast : ∃ e ∈ ends, e.2.testBit all.log2 = true := (testBit_foldl_or.1 hbit).resolve_left (by simp)
    refine .inr ⟨_, rfl, (Nat.le_log2 hne).2 hge, fun e he k hk => testBit_le_log2 (hmem he k hk), fun n => ?_, hlast⟩
    simp only [List.mem_map, List.mem_filter]
    constructor
    · rintro ⟨e, ⟨he, hbit⟩, hn⟩
      exact ⟨e, he, hn, hbit⟩
    · rintro ⟨e, he, hn, hbit⟩
      exact ⟨e, ⟨he, hbit⟩, hn⟩

/-- A longest match is not empty, and it is the end of some match. -/
theorem furthest_eq_some {m : LongestMatch} (h : furthest offset ends = some m) :
    offset < m.stop ∧ ∃ e ∈ ends, e.2.testBit m.stop = true := by
  obtain ⟨hnone, -⟩ | ⟨m', hm', hahead, -, -, hlast⟩ := furthest_cases offset ends
  · cases hnone.symm.trans h
  · cases hm'.symm.trans h
    exact ⟨hahead, hlast⟩

end Lexer

/-! ## Inputs -/

/-- What the stream of tokens relies on: a match is a stretch of whole characters that is not empty. -/
structure Input.WellFormed (i : Input) : Prop where
  source : i.source.WellFormed
  ahead : ∀ {offset m}, i.matchAt offset = some m → offset < m.stop
  stretch : ∀ {offset m}, i.matchAt offset = some m → i.source.Stretch offset m.stop
  aheadOnly : ∀ {offset id m}, i.matchOnly offset id = .ok (some m) → offset < m.stop
  stretchOnly : ∀ {offset id m}, i.matchOnly offset id = .ok (some m) → i.source.Stretch offset m.stop

namespace Input

theorem matchOn_some {src : Source} {tracks : List Regex.Track} {offset : Nat} {id : TokenId} {m : LongestMatch}
    (h : Lexer.matchOn src tracks offset (some id) = .ok (some m)) :
    ∃ n, ∃ track ∈ tracks, Lexer.furthest offset [(n, track.run src.size (1 <<< offset))] = some m := by
  unfold Lexer.matchOn at h
  split at h
  · rename_i n _
    split at h
    · cases h
    rename_i track htrack
    split at h
    · cases h
    exact ⟨n, track, List.mem_of_getElem? htrack, Except.ok.inj h⟩
  · cases h
  · rename_i heq
    cases heq

/-- **A lexer set on a text is well formed.** -/
theorem wellFormed_of (lexer : Lexer) (text : String) : (of lexer (.ofString text)).WellFormed := by
  have hsrc := Source.wellFormed_ofString text
  generalize Source.ofString text = src at hsrc
  have hrun : ∀ {offset track k}, track ∈ lexer.tracks src → (track.run src.size (1 <<< offset)).testBit k = true →
      src.Stretch offset k := by
    intro offset track k htrack hk
    obtain ⟨r, -, rfl⟩ := List.mem_map.1 htrack
    exact r.members_run_track _ (Regex.Members.singleton .nil) k hk
  have hfind : ∀ {offset m}, (of lexer src).matchAt offset = some m →
      Lexer.furthest offset (Lexer.endsAt src (lexer.tracks src) offset) = some m := by
    intro offset m h
    rw [matchAt_of] at h
    exact h
  refine ⟨hsrc, fun h => (Lexer.furthest_eq_some (hfind h)).1, fun {offset m} h => ?_, fun {offset id m} h => ?_,
    fun {offset id m} h => ?_⟩
  · obtain ⟨-, e, he, hbit⟩ := Lexer.furthest_eq_some (hfind h)
    obtain ⟨⟨track, n⟩, htrack, rfl⟩ := List.mem_map.1 he
    exact hrun (List.fst_mem_of_mem_zipIdx htrack) hbit
  · obtain ⟨n, track, -, hm⟩ := matchOn_some h
    exact (Lexer.furthest_eq_some hm).1
  · obtain ⟨n, track, htrack, hm⟩ := matchOn_some h
    obtain ⟨-, e, he, hbit⟩ := Lexer.furthest_eq_some hm
    rw [List.mem_singleton.1 he] at hbit
    exact hrun htrack hbit

theorem wellFormed_fresh (lexer : Lexer) (text : String) : (fresh lexer (.ofString text)).WellFormed := by
  have h := wellFormed_of lexer text
  exact
    { source := h.source
      ahead := fun hm => h.ahead ((matchAt_of lexer _ _).trans hm)
      stretch := fun hm => h.stretch ((matchAt_of lexer _ _).trans hm)
      aheadOnly := h.aheadOnly
      stretchOnly := h.stretchOnly }

end Input
end Ambigram
