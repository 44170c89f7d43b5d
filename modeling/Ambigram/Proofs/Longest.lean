import Ambigram.Proofs.Coverage
import Ambigram.Proofs.Following
/-!
# Longest matches

What a lexer finds at an offset, in terms of what its expressions match: no expression reaches further, and the tokens
are all those whose expressions reach as far.

Below that stand the expressions of which most tokens are made: a text, and characters of a set one after another.  What
they match at an offset is a matter of the characters that come next there.
-/
namespace Ambigram

/-! ## What a lexer finds -/

theorem Lexer.mem_endsAt {src : Source} {rs : List Regex} {offset : Nat} {e : Nat × Nat} :
    e ∈ endsAt src (rs.map (·.track src)) offset ↔
      ∃ r, rs[e.1]? = some r ∧ e.2 = (r.track src).run src.size (1 <<< offset) := by
  unfold endsAt
  rw [List.mem_map]
  constructor
  · rintro ⟨⟨track, n⟩, h, rfl⟩
    have hn := List.mem_zipIdx_iff_getElem?.1 h
    rw [List.getElem?_map, Option.map_eq_some_iff] at hn
    obtain ⟨r, hr, rfl⟩ := hn
    exact ⟨r, hr, rfl⟩
  · rintro ⟨r, hr, he⟩
    refine ⟨(r.track src, e.1), List.mem_zipIdx_iff_getElem?.2 ?_, Prod.ext rfl he.symm⟩
    rw [List.getElem?_map, hr]
    rfl

/-- No expression reaches further from the offset, and the tokens are those whose expressions reach as far. -/
structure LongestMatch.Longest (m : LongestMatch) (rs : List Regex) (src : Source) (offset : Nat) : Prop where
  ahead : offset < m.stop
  furthest : ∀ r ∈ rs, ∀ k, r.Matches src offset k → k ≤ m.stop
  mem_tokens : ∀ n, n ∈ m.tokens ↔ ∃ r, rs[n]? = some r ∧ r.Matches src offset m.stop
  reached : ∃ n, n ∈ m.tokens

/-- **A lexer finds the longest match**, and nothing only if no expression matches more than nothing. -/
theorem Input.matchAt_cases {lexer : Lexer} {src : Source} (hs : src.WellFormed) (hr : ∀ r ∈ lexer.regexes, r.Ordered)
    {offset : Nat} (ho : offset ≤ src.size) :
    ((of lexer src).matchAt offset = none ∧ ∀ r ∈ lexer.regexes, ∀ k, r.Matches src offset k → k ≤ offset) ∨
    ∃ m, (of lexer src).matchAt offset = some m ∧ m.Longest lexer.regexes src offset := by
  have hbit : ∀ {r}, r ∈ lexer.regexes → ∀ k, ((r.track src).run src.size (1 <<< offset)).testBit k = true ↔
      r.Matches src offset k := fun hmem k => Regex.testBit_run_track hs (hr _ hmem) ho
  have hends : ∀ {r}, r ∈ lexer.regexes → ∃ e ∈ Lexer.endsAt src (lexer.tracks src) offset,
      ∀ k, e.2.testBit k = true ↔ r.Matches src offset k := by
    intro r hmem
    obtain ⟨n, hn⟩ := List.mem_iff_getElem?.1 hmem
    exact ⟨(n, (r.track src).run src.size (1 <<< offset)), Lexer.mem_endsAt.2 ⟨r, hn, rfl⟩, hbit hmem⟩
  rw [matchAt_of]
  obtain ⟨hnone, hle⟩ | ⟨m, hm, hahead, hle, htokens, e, he, hstop⟩ :=
    Lexer.furthest_cases offset (Lexer.endsAt src (lexer.tracks src) offset)
  · refine .inl ⟨hnone, fun r hmem k hk => ?_⟩
    obtain ⟨e, he, hek⟩ := hends hmem
    exact hle e he k ((hek k).2 hk)
  · refine .inr ⟨m, hm, hahead, fun r hmem k hk => ?_, fun n => ?_, ⟨e.1, (htokens e.1).2 ⟨e, he, rfl, hstop⟩⟩⟩
    · obtain ⟨e, he, hek⟩ := hends hmem
      exact hle e he k ((hek k).2 hk)
    · rw [htokens]
      constructor
      · rintro ⟨e, he, rfl, hstop⟩
        obtain ⟨r, hn, he⟩ := Lexer.mem_endsAt.1 he
        exact ⟨r, hn, (hbit (List.mem_of_getElem? hn) _).1 (he ▸ hstop)⟩
      · rintro ⟨r, hn, hmatch⟩
        exact ⟨(n, (r.track src).run src.size (1 <<< offset)), Lexer.mem_endsAt.2 ⟨r, hn, rfl⟩, rfl,
          (hbit (List.mem_of_getElem? hn) _).2 hmatch⟩

/-! ## Characters one after another -/

namespace Source

/-- The bytes of some characters. -/
def width (cs : List Char) : Nat := (cs.flatMap cellsOf).length

@[simp] theorem width_nil : width [] = 0 := rfl

@[simp] theorem width_cons (c : Char) (cs : List Char) : width (c :: cs) = c.utf8Size + width cs := by
  rw [width, List.flatMap_cons, List.length_append, length_cellsOf]
  rfl

@[simp] theorem width_append (cs ds : List Char) : width (cs ++ ds) = width cs + width ds := by
  rw [width, List.flatMap_append, List.length_append]
  rfl

theorem width_le_of_prefix {cs ds : List Char} (h : cs <+: ds) : width cs ≤ width ds := by
  obtain ⟨rest, rfl⟩ := h
  rw [width_append]
  exact Nat.le_add_right _ _

/-- From the offset to the end there are these characters. -/
structure Reads (s : Source) (a : Nat) (cs : List Char) : Prop where
  le : a ≤ s.size
  cells : s.cells.toList.drop a = cs.flatMap cellsOf

variable {s : Source} {a k : Nat} {c : Char} {cs w rest : List Char}

theorem reads_ofString (text : String) : (ofString text).Reads 0 text.toList := ⟨Nat.zero_le _, rfl⟩

namespace Reads

theorem size_eq (h : s.Reads a cs) : s.size = a + width cs := by
  have hlen := congrArg List.length h.cells
  rw [List.length_drop, Array.length_toList] at hlen
  have := h.le
  unfold size width at *
  omega

theorem append (h : s.Reads a (w ++ rest)) : s.Reads (a + width w) rest := by
  refine ⟨?_, ?_⟩
  · rw [h.size_eq, width_append]
    omega
  · rw [← List.drop_drop, h.cells, List.flatMap_append, width, List.drop_left]

theorem tail (h : s.Reads a (c :: cs)) : s.Reads (a + c.utf8Size) cs := by
  have h := append (w := [c]) h
  rwa [width_cons, width_nil, Nat.add_zero] at h

theorem at?_eq (h : s.Reads a cs) : s.at? a = cs.head? := by
  have hcell : s.cells[a]? = (cs.flatMap cellsOf)[0]? := by
    rw [← h.cells, List.getElem?_drop, Nat.add_zero, Array.getElem?_toList]
  unfold at?
  rw [hcell]
  cases cs <;> rfl

theorem filterMap_cells : ∀ w : List Char, (w.flatMap cellsOf).filterMap id = w
  | [] => rfl
  | c :: w => by
    rw [List.flatMap_cons, List.filterMap_append, filterMap_cells w, cellsOf, List.filterMap_cons]
    simp

theorem slice_eq (h : s.Reads a (w ++ rest)) : s.slice a (a + width w) = String.ofList w := by
  have hextract : (s.cells.extract a (a + width w)).toList = w.flatMap cellsOf := by
    rw [Array.toList_extract, List.extract_eq_take_drop, Nat.add_sub_cancel_left, h.cells, List.flatMap_append, width,
      List.take_left]
  rw [slice, hextract, filterMap_cells]

end Reads
end Source

/-! ## Texts, and characters of a set -/

namespace Regex

open Source (width)

variable {src : Source} {a k n : Nat} {cs : List Char} {s : CharSet}

theorem matches_chars (h : src.Reads a cs) : (Regex.chars s).Matches src a k ↔
    ∃ c rest, cs = c :: rest ∧ s.contains c = true ∧ k = a + c.utf8Size := by
  have hhead := h.at?_eq
  constructor
  · intro hm
    cases hm with
    | chars hc hs =>
      rw [hc] at hhead
      obtain ⟨rest, rfl⟩ := List.head?_eq_some_iff.1 hhead.symm
      exact ⟨_, rest, rfl, hs, rfl⟩
  · rintro ⟨c, rest, rfl, hs, rfl⟩
    exact .chars hhead hs

theorem chain_chars (h : src.Reads a cs) : Chain ((Regex.chars s).Matches src) n a k ↔
    ∃ w rest, cs = w ++ rest ∧ w.length = n ∧ (∀ c ∈ w, s.contains c = true) ∧ k = a + width w := by
  induction n generalizing a cs with
  | zero =>
    constructor
    · rintro rfl
      exact ⟨[], cs, rfl, rfl, by simp, rfl⟩
    · rintro ⟨w, rest, -, hw, -, rfl⟩
      cases List.length_eq_zero_iff.1 hw
      rfl
  | succ n ih =>
    constructor
    · rintro ⟨b, hb, hk⟩
      obtain ⟨c, rest, rfl, hc, rfl⟩ := (matches_chars h).1 hb
      obtain ⟨w, rest, rfl, rfl, hw, rfl⟩ := (ih h.tail).1 hk
      refine ⟨c :: w, rest, rfl, rfl, List.forall_mem_cons.2 ⟨hc, hw⟩, ?_⟩
      rw [Source.width_cons, Nat.add_assoc]
    · rintro ⟨w, rest, rfl, hlen, hw, rfl⟩
      obtain ⟨c, w, rfl⟩ := List.exists_cons_of_length_eq_add_one hlen
      obtain ⟨hc, hw⟩ := List.forall_mem_cons.1 hw
      refine ⟨a + c.utf8Size, (matches_chars h).2 ⟨c, w ++ rest, rfl, hc, rfl⟩, (ih h.tail).2 ?_⟩
      exact ⟨w, rest, rfl, Nat.succ.inj hlen, hw, by rw [Source.width_cons, Nat.add_assoc]⟩

/-- One or more characters of a set. -/
theorem matches_many (h : src.Reads a cs) : (Regex.times 1 none (.chars s)).Matches src a k ↔
    ∃ w rest, cs = w ++ rest ∧ w ≠ [] ∧ (∀ c ∈ w, s.contains c = true) ∧ k = a + width w := by
  rw [matches_times]
  simp only [chain_chars h]
  constructor
  · rintro ⟨_, hn, -, w, rest, hcs, rfl, hw, hk⟩
    exact ⟨w, rest, hcs, List.ne_nil_of_length_pos hn, hw, hk⟩
  · rintro ⟨w, rest, hcs, hne, hw, hk⟩
    exact ⟨w.length, List.length_pos_iff.2 hne, by simp, w, rest, hcs, rfl, hw, hk⟩

theorem contains_single {c d : Char} : (CharSet.single c).contains d = true ↔ d = c := by
  rw [Char.ext_iff, ← UInt32.toNat_inj]
  simp only [CharSet.single, CharSet.contains, CharSet.mem, Unicode.Ranges.mem, List.any_cons, List.any_nil,
    Bool.or_false, Bool.and_eq_true, decide_eq_true_eq, Char.toNat]
  omega

/-- A text matches where it stands. -/
theorem matches_literal : ∀ {t : List Char} {a k : Nat} {cs : List Char}, src.Reads a cs →
    ((literal t).Matches src a k ↔ ∃ rest, cs = t ++ rest ∧ k = a + width t)
  | [], _, _, cs, _ => by
    constructor
    · intro hm
      cases hm
      exact ⟨cs, rfl, rfl⟩
    · rintro ⟨-, -, rfl⟩
      exact .empty _
  | c :: t, a, _, cs, h => by
    constructor
    · intro hm
      cases hm with
      | seq hc ht =>
        obtain ⟨c', cs, rfl, hcontains, rfl⟩ := (matches_chars h).1 hc
        cases contains_single.1 hcontains
        obtain ⟨rest, rfl, rfl⟩ := (matches_literal h.tail).1 ht
        exact ⟨rest, rfl, by rw [Source.width_cons, Nat.add_assoc]⟩
    · rintro ⟨rest, rfl, rfl⟩
      refine .seq ((matches_chars h).2 ⟨c, t ++ rest, rfl, contains_single.2 rfl, rfl⟩) ((matches_literal h.tail).2 ?_)
      exact ⟨rest, rfl, by rw [Source.width_cons, Nat.add_assoc]⟩

end Regex
end Ambigram
