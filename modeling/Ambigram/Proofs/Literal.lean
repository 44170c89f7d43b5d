import Ambigram.Proofs.Bounds
import Ambigram.Proofs.Longest
/-!
# Texts as patterns

A text that is a pattern matches its own bytes, and nothing else.  There are two sides to it.  As a regular expression
it is written with backslashes, which the reader takes away again, so no character of it means anything but itself.  And
a character never begins inside another one, so the bytes of a text are found only where its characters are.
-/
namespace Ambigram

/-! ## Escaped texts -/

namespace Regex

theorem ordered_literal : ∀ t : List Char, (literal t).Ordered
  | [] => trivial
  | _ :: t => ⟨trivial, ordered_literal t⟩

namespace Reader

variable {s : State} {c : Char} {cs rest : List Char}

/-- A character as it is written. -/
def escaped (c : Char) : List Char := if isMeta c then ['\\', c] else [c]

theorem readEscape_of_isMeta (h : isMeta c = true) : readEscape false (c :: cs) = .ok (.literal ⟨c, false⟩, cs) := by
  have hmem := of_decide_eq_true h
  simp only [List.mem_cons, List.not_mem_nil, or_false] at hmem
  obtain rfl | rfl | rfl | rfl | rfl | rfl | rfl | rfl | rfl | rfl | rfl | rfl | rfl | rfl | rfl | rfl | rfl | rfl :=
    hmem <;> rfl

theorem readPart_of_not_isMeta (h : isMeta c = false) :
    readPart s c cs = .ok ({ s with parts := .literal ⟨c, false⟩ :: s.parts }, cs) := by
  unfold readPart
  split
  case h_13 => rfl
  all_goals exact absurd h (by decide)

/-- One turn reads a character back, as it was written. -/
theorem readAll_escaped (hs : s.free = false) (n : Nat) :
    readAll (n + 1) s (escaped c ++ cs) = readAll n { s with parts := .literal ⟨c, false⟩ :: s.parts } cs := by
  have hskip : ∀ cs, skip s.free cs = cs := fun cs => by rw [hs]; rfl
  unfold escaped
  split
  · rename_i hmeta
    rw [readAll, hskip]
    show ((readEscape s.free (c :: cs)) >>= _) >>= _ = _
    rw [hs, readEscape_of_isMeta hmeta]
    rfl
  · rename_i hmeta
    rw [readAll, hskip]
    show readPart s c cs >>= _ = _
    rw [readPart_of_not_isMeta (Bool.eq_false_iff.2 hmeta)]
    rfl

end Reader

/-- The parts that stand for the characters of a text. -/
def Ast.characters (t : List Char) : List Ast := t.map fun c => .literal ⟨c, false⟩

theorem Reader.readAll_flatMap_escaped : ∀ (t : List Char) {n : Nat} {s : State}, s.free = false → t.length < n →
    readAll n s (t.flatMap escaped) = .ok { s with parts := (Ast.characters t).reverse ++ s.parts }
  | _, 0, _, _, hn => absurd hn (Nat.not_lt_zero _)
  | [], n + 1, s, hs, _ => by
    obtain ⟨free, names, stack, parts⟩ := s
    cases hs
    rfl
  | c :: t, n + 1, s, hs, hn => by
    have hrest := readAll_flatMap_escaped t (n := n) (s := { s with parts := .literal ⟨c, false⟩ :: s.parts }) hs
      (Nat.lt_of_succ_lt_succ hn)
    rw [List.flatMap_cons, readAll_escaped hs, hrest, Ast.characters, Ast.characters, List.map_cons, List.reverse_cons,
      List.append_assoc]
    rfl

theorem Ast.heights_characters : ∀ t : List Char, heights (characters t) = 0
  | [] => rfl
  | c :: t => by
    show Nat.max 0 (heights (characters t)) = 0
    rw [heights_characters t]
    rfl

theorem Ast.height_ofParts_characters : ∀ t : List Char, (ofParts (characters t)).height ≤ maxHeight
  | [] | [_] => Nat.zero_le _
  | c :: d :: t => by
    show heights (characters (c :: d :: t)) + 1 ≤ maxHeight
    rw [heights_characters]
    decide

theorem Ast.sequence_characters : ∀ t : List Char, sequence {} (characters t) = .ok (Regex.literal t, {})
  | [] => rfl
  | c :: t => by
    show (sequence {} (characters t) >>= fun b => _) = _
    rw [sequence_characters t]
    rfl

/-- An escaped text is read as its characters, one after another. -/
theorem Ast.read_escape (t : String) : Ast.read (escape t) = .ok (.ofParts (characters t.toList)) := by
  have hlist : (escape t).toList = t.toList.flatMap Reader.escaped := by
    rw [escape, String.toList_ofList]
    rfl
  have hlength : ∀ t : List Char, t.length ≤ (t.flatMap Reader.escaped).length := by
    intro t
    induction t with
    | nil => exact Nat.le_refl 0
    | cons c t ih =>
      have hpos : 0 < (Reader.escaped c).length := by
        unfold Reader.escaped
        split <;> exact Nat.succ_pos _
      rw [List.flatMap_cons, List.length_append, List.length_cons]
      omega
  have hparts : ((characters t.toList).reverse ++ []).reverse = characters t.toList := by
    rw [List.append_nil, List.reverse_reverse]
  unfold Ast.read
  rw [hlist]
  dsimp only
  rw [Reader.readAll_flatMap_escaped t.toList rfl (Nat.lt_succ_of_le (hlength _))]
  show (if maxHeight < (ofParts ((characters t.toList).reverse ++ []).reverse).height then _ else _) = _
  rw [hparts]
  exact if_neg (Nat.not_lt.2 (height_ofParts_characters t.toList))

/-- **An escaped text means the text.** -/
theorem read_escape (t : String) : ∃ r, read (escape t) = .ok r ∧
    ∀ {src : Source} {a k : Nat}, r.Matches src a k ↔ (literal t.toList).Matches src a k := by
  unfold read
  rw [Ast.read_escape]
  generalize t.toList = t
  match t with
  | [] => exact ⟨.empty, rfl, Iff.rfl⟩
  | [c] =>
    refine ⟨.chars (.single c), rfl, fun {src a k} => ⟨fun h => .seq h (.empty k), fun h => ?_⟩⟩
    cases h with
    | seq hc hk =>
      cases hk
      exact hc
  | c :: d :: t =>
    refine ⟨literal (c :: d :: t), ?_, Iff.rfl⟩
    show (Ast.sequence {} (Ast.characters (c :: d :: t)) >>= fun r => _) = _
    rw [Ast.sequence_characters]
    rfl

end Regex

/-! ## Bytes of a text -/

namespace Source

variable {text t : String} {a k : Nat} {c : Char}

theorem width_toList (t : String) : width t.toList = t.utf8ByteSize := by
  have h : ∀ cs : List Char, width cs = (String.ofList cs).utf8ByteSize := by
    intro cs
    induction cs with
    | nil => rfl
    | cons c cs ih =>
      rw [width_cons, ih, ← List.singleton_append, String.ofList_append, String.utf8ByteSize_append,
        ← String.singleton_eq_ofList, String.utf8ByteSize_singleton]
  rw [h, String.ofList_toList]

theorem size_ofString (text : String) : (ofString text).size = text.utf8ByteSize := by
  rw [(reads_ofString text).size_eq, Nat.zero_add, width_toList]

/-- What comes behind a front of the text. -/
theorem reads_append (s₁ s₂ : String) : (ofString (s₁ ++ s₂)).Reads s₁.utf8ByteSize s₂.toList := by
  have h := reads_ofString (s₁ ++ s₂)
  rw [String.toList_append] at h
  rw [← width_toList, ← Nat.zero_add (width _)]
  exact h.append

/-- Where a character begins, the text falls into two. -/
theorem exists_append_of_at? (h : (ofString text).at? a = some c) :
    ∃ s₁ s₂, text = s₁ ++ s₂ ∧ s₁.utf8ByteSize = a := by
  have hcell : (text.toList.flatMap cellsOf)[a]? = some (some c) := by
    simpa [at?, ofString, Option.join_eq_some_iff] using h
  obtain ⟨front, rest, htext, hfront⟩ := exists_of_getElem?_cells hcell
  refine ⟨.ofList front, .ofList (c :: rest), ?_, ?_⟩
  · rw [← String.ofList_append, ← htext, String.ofList_toList]
  · rw [← width_toList, String.toList_ofList]
    exact hfront

end Source

namespace Regex

variable {text t : String} {a : Nat}

/-- What the bytes at an offset are the bytes of begins there as a text, for no character begins inside another. -/
theorem exists_append_of_extract (ht : t ≠ "") (h : text.toByteArray.extract a (a + t.utf8ByteSize) = t.toByteArray) :
    ∃ s₁ s₂, text = s₁ ++ s₂ ∧ s₁.utf8ByteSize = a ∧ t.toList <+: s₂.toList := by
  have hpos : 0 < t.utf8ByteSize := Nat.pos_of_ne_zero (mt String.utf8ByteSize_eq_zero_iff.1 ht)
  have hsize := congrArg ByteArray.size h
  rw [ByteArray.size_extract, String.size_toByteArray, String.size_toByteArray] at hsize
  have hwithin : a + t.utf8ByteSize ≤ text.utf8ByteSize := by omega
  have hvalid := String.Pos.Raw.isValidUTF8_extract_iff (s := text) ⟨a⟩ ⟨a + t.utf8ByteSize⟩ (Nat.le_add_right _ _)
    hwithin
  rw [h] at hvalid
  obtain heq | ⟨hstart, -⟩ := hvalid.1 t.isValidUTF8
  · have := congrArg String.Pos.Raw.byteIdx heq
    dsimp only at this
    omega
  obtain ⟨s₁, s₂, rfl, hs₁⟩ := String.Pos.Raw.isValid_iff_exists_append.1 hstart
  cases hs₁
  refine ⟨s₁, s₂, rfl, rfl, List.isPrefix_of_utf8Encode_append_eq_utf8Encode
    (s₂.toByteArray.extract t.utf8ByteSize s₂.utf8ByteSize) ?_⟩
  have hfront : s₂.toByteArray.extract 0 t.utf8ByteSize = t.toByteArray := by
    rw [← h, String.toByteArray_append]
    exact (ByteArray.extract_append_size_add (i := 0)).symm
  rw [String.utf8Encode_toList, String.utf8Encode_toList, ← hfront, ← ByteArray.extract_eq_extract_append_extract]
  · exact ByteArray.extract_zero_size
  · exact Nat.zero_le _
  · rw [String.utf8ByteSize_append] at hwithin
    exact Nat.le_of_add_le_add_left hwithin

/-- **A text matches its own bytes**, wherever they stand. -/
theorem matches_literal_iff {k : Nat} : (literal t.toList).Matches (.ofString text) a k ↔
    k = a + t.utf8ByteSize ∧ text.toByteArray.extract a k = t.toByteArray := by
  by_cases ht : t = ""
  · subst ht
    constructor
    · intro h
      cases h
      exact ⟨rfl, ByteArray.extract_same⟩
    · rintro ⟨rfl, -⟩
      exact .empty _
  constructor
  · intro h
    obtain ⟨c, hc⟩ : ∃ c, (Source.ofString text).at? a = some c := by
      obtain ⟨c, cs, hcs⟩ := List.exists_cons_of_ne_nil (mt String.toList_eq_nil_iff.1 ht)
      rw [hcs] at h
      cases h with
      | seq hc _ =>
        cases hc with
        | chars hc _ => exact ⟨_, hc⟩
    obtain ⟨s₁, s₂, rfl, rfl⟩ := Source.exists_append_of_at? hc
    obtain ⟨rest, hs₂, rfl⟩ := (matches_literal (Source.reads_append s₁ s₂)).1 h
    obtain rfl : s₂ = t ++ String.ofList rest := by
      rw [← String.toList_inj, hs₂, String.toList_append, String.toList_ofList]
    rw [Source.width_toList]
    refine ⟨rfl, ?_⟩
    rw [String.toByteArray_append, String.toByteArray_append]
    exact (ByteArray.extract_append_size_add (i := 0)).trans (ByteArray.extract_append_eq_left rfl)
  · rintro ⟨rfl, hbytes⟩
    obtain ⟨s₁, s₂, rfl, rfl, rest, hrest⟩ := exists_append_of_extract ht hbytes
    exact (matches_literal (Source.reads_append s₁ s₂)).2 ⟨rest, hrest.symm, by rw [Source.width_toList]⟩

end Regex

/-! ## Patterns -/

namespace Pattern

/-- The pattern, as it is written, is an expression that matches the stretch. -/
def Matches (p : Pattern) (src : Source) (a k : Nat) : Prop := ∃ r, Regex.read p.written = .ok r ∧ r.Matches src a k

variable {p : Pattern} {r : Regex} {src : Source} {a k : Nat}

theorem check_eq_ok : p.check = .ok r ↔ p.meaning = .ok r := by
  cases p with
  | text t => simp only [check, meaning, Except.ok.injEq]
  | regex source => cases h : meaning (.regex source) <;> simp only [check, h, Except.ok.injEq, reduceCtorEq]

/-- What a pattern stands for is what it says as it is written. -/
theorem matches_iff_of_check (h : p.check = .ok r) : p.Matches src a k ↔ r.Matches src a k := by
  have hmeaning := check_eq_ok.1 h
  unfold Matches
  cases p with
  | text t =>
    cases hmeaning
    obtain ⟨r, hr, hmatches⟩ := Regex.read_escape t
    simp only [written, hr, Except.ok.injEq, exists_eq_left', hmatches]
  | regex source =>
    have hread : Regex.read source = .ok r := hmeaning
    simp only [written, hread, Except.ok.injEq, exists_eq_left']

theorem text_matches_iff {text t : String} : (Pattern.text t).Matches (.ofString text) a k ↔
    k = a + t.utf8ByteSize ∧ text.toByteArray.extract a k = t.toByteArray :=
  (matches_iff_of_check (check_eq_ok.2 rfl)).trans Regex.matches_literal_iff

theorem ordered_of_check (h : p.check = .ok r) : r.Ordered := by
  have hmeaning := check_eq_ok.1 h
  cases p with
  | text t =>
    cases hmeaning
    exact Regex.ordered_literal t.toList
  | regex source => exact Regex.ordered_of_read hmeaning

end Pattern
end Ambigram
