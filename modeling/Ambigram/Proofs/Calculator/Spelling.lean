import Ambigram.Proofs.Calculator.Grammar
import Ambigram.Proofs.Vocabulary
/-!
# How a text is cut into lexemes

Each character belongs to one kind of word: blanks, numbers and each of the signs.  A word of blanks or digits goes on as
long as such characters follow, and a sign is a word alone.  So a text that is spelled in such words is read as just
those, and nobody sees the blanks.
-/
namespace Ambigram
namespace Calculator

open Regex (CharSet)

/-! ## Words -/

/-- The characters of which a token is made. -/
def Kind : Nat → Char → Prop
  | 0, c => blanks.contains c = true
  | 1, c => digits.contains c = true
  | n + 2, c => signs[n]? = some c

instance : ∀ (n : Nat) (c : Char), Decidable (Kind n c)
  | 0, c => inferInstanceAs (Decidable (blanks.contains c = true))
  | 1, c => inferInstanceAs (Decidable (digits.contains c = true))
  | n + 2, c => inferInstanceAs (Decidable (signs[n]? = some c))

theorem contains_blanks {c : Char} : blanks.contains c = true ↔ c.toNat = 32 ∨ c.toNat = 9 ∨ c.toNat = 10 := by
  simp only [blanks, CharSet.contains, CharSet.mem, CharSet.none, Unicode.Ranges.mem, List.any_cons, List.any_nil,
    Bool.or_false, Bool.or_eq_true, Bool.and_eq_true, decide_eq_true_eq]
  omega

theorem contains_digits {c : Char} : digits.contains c = true ↔ 48 ≤ c.toNat ∧ c.toNat ≤ 57 := by
  simp only [digits, CharSet.contains, CharSet.mem, Unicode.Ranges.mem, List.any_cons, List.any_nil, Bool.or_false,
    Bool.and_eq_true, decide_eq_true_eq]

theorem contains_digits_iff {c : Char} : digits.contains c = true ↔ c.isDigit = true := by
  rw [contains_digits, Char.isDigit, Bool.and_eq_true, decide_eq_true_eq, decide_eq_true_eq]
  rfl

/-- A sign is no blank and no digit. -/
theorem sign_toNat {c : Char} (h : c ∈ signs) : 33 ≤ c.toNat ∧ c.toNat < 48 := by
  have hall : (signs.all fun c => 33 ≤ c.toNat && c.toNat < 48) = true := by decide
  simpa using List.all_eq_true.1 hall c h

theorem Kind.unique {c : Char} : ∀ {n n' : Nat}, Kind n c → Kind n' c → n = n'
  | 0, 0, _, _ | 1, 1, _, _ => rfl
  | 0, 1, h, h' | 1, 0, h', h => by
    have := contains_blanks.1 h
    have := contains_digits.1 h'
    omega
  | 0, _ + 2, h, h' | _ + 2, 0, h', h => by
    have := contains_blanks.1 h
    have := sign_toNat (List.mem_of_getElem? h')
    omega
  | 1, _ + 2, h, h' | _ + 2, 1, h', h => by
    have := contains_digits.1 h
    have := sign_toNat (List.mem_of_getElem? h')
    omega
  | n + 2, n' + 2, h, h' => by
    have hlt : n < signs.length := (List.getElem?_eq_some_iff.1 h).1
    rw [(List.getElem?_inj hlt (by decide)).1 (h.trans h'.symm)]

/-- What a token matches: a sign is a single character. -/
structure Word (n : Nat) (w : List Char) : Prop where
  nonempty : w ≠ []
  kind : ∀ c ∈ w, Kind n c
  single : 2 ≤ n → w.length = 1

/-- What follows does not make the word longer. -/
def Stops (n : Nat) (rest : List Char) : Prop := ∀ c ∈ rest.head?, Kind n c → 2 ≤ n

theorem stops_nil (n : Nat) : Stops n [] := by
  simp [Stops]

/-! ## The vocabulary -/

def entries : List Entry := .many blanks :: .many digits :: signs.map fun c => .text [c]

theorem kind_of_begins {e : Entry} {c : Char} : ∀ {n : Nat}, entries[n]? = some e → e.Begins c → Kind n c
  | 0, rfl, hc | 1, rfl, hc => hc
  | n + 2, h, hc => by
    obtain ⟨d, hd, rfl⟩ := Option.map_eq_some_iff.1 ((List.getElem?_map ..).symm.trans h)
    cases Option.some.inj hc
    exact hd

/-- No character is of two kinds. -/
def vocabulary : Vocabulary lexer where
  entries := entries
  regexes := rfl
  nonempty := by simp [entries, signs, Entry.Word]
  begins_unique h h' hc hc' := (kind_of_begins h hc).unique (kind_of_begins h' hc')

theorem Word.exists_entry {w rest : List Char} : ∀ {n : Nat}, Word n w → Stops n rest →
    ∃ e, entries[n]? = some e ∧ e.Word w ∧ e.Stops rest
  | 0, hw, hstop | 1, hw, hstop =>
    ⟨_, rfl, ⟨hw.nonempty, hw.kind⟩, fun c hc => Bool.eq_false_iff.2 fun h => absurd (hstop c hc h) (by decide)⟩
  | n + 2, hw, _ => by
    obtain ⟨c, rfl⟩ := List.length_eq_one_iff.1 (hw.single (Nat.le_add_left _ _))
    have hc : signs[n]? = some c := hw.kind c (List.mem_singleton.2 rfl)
    exact ⟨.text [c], (List.getElem?_map ..).trans (congrArg (Option.map _) hc), rfl, trivial⟩

/-- Only blanks are trivia. -/
theorem isSkipped_iff : ∀ {n : Nat}, lexer.isSkipped (.pattern n) = true ↔ n = 0
  | 0 | 1 => by decide
  | n + 2 => by
    show ((signs.map fun _ => false)[n]?.getD false) = true ↔ n + 2 = 0
    rw [List.getElem?_map]
    cases signs[n]? <;> simp

/-! ## Spelling -/

/-- The characters are words that do not run into each other, with blanks between them, and these are the words. -/
inductive Spells : List Char → List Lexeme → Prop
  | done : Spells [] []
  | blank {w rest : List Char} {ls : List Lexeme} (word : Word 0 w) (stop : Stops 0 rest) (more : Spells rest ls) :
    Spells (w ++ rest) ls
  | word {n : Nat} {w rest : List Char} {ls : List Lexeme} (hn : n ≠ 0) (word : Word n w) (stop : Stops n rest)
    (more : Spells rest ls) : Spells (w ++ rest) (⟨String.ofList w, {n}⟩ :: ls)

/-- A blank in front changes nothing. -/
theorem Spells.cons_blank {c : Char} {cs : List Char} {ls : List Lexeme} (h : Spells cs ls) (hc : Kind 0 c) :
    Spells (c :: cs) ls := by
  have hone : Word 0 [c] := ⟨by simp, fun d hd => List.mem_singleton.1 hd ▸ hc, fun h => absurd h (by decide)⟩
  cases h with
  | done => exact .blank hone (stops_nil 0) .done
  | @blank w rest _ hw hstop hmore =>
    have hw' : Word 0 (c :: w) := ⟨by simp, List.forall_mem_cons.2 ⟨hc, hw.kind⟩, fun h => absurd h (by decide)⟩
    exact .blank hw' hstop hmore
  | @word n w rest _ hn hw hstop hmore =>
    refine .blank hone (fun d hd hd0 => ?_) (.word hn hw hstop hmore)
    obtain ⟨c', w, rfl⟩ := List.exists_cons_of_ne_nil hw.nonempty
    cases hd
    exact absurd ((hw.kind d List.mem_cons_self).unique hd0) hn

theorem Spells.append_blanks {ws cs : List Char} {ls : List Lexeme} (h : Spells cs ls) (hws : ∀ c ∈ ws, Kind 0 c) :
    Spells (ws ++ cs) ls := by
  induction ws with
  | nil => exact h
  | cons c ws ih =>
    obtain ⟨hc, hws⟩ := List.forall_mem_cons.1 hws
    exact (ih hws).cons_blank hc

theorem Spells.inVocabulary {cs : List Char} {ls : List Lexeme} (h : Spells cs ls) : vocabulary.Spells cs ls := by
  induction h with
  | done => exact .done
  | blank hw hstop _ ih =>
    obtain ⟨e, he, hword, hends⟩ := hw.exists_entry hstop
    exact .trivia he (isSkipped_iff.2 rfl) hword hends ih
  | word hn hw hstop _ ih =>
    obtain ⟨e, he, hword, hends⟩ := hw.exists_entry hstop
    exact .word he (Bool.eq_false_iff.2 fun h => hn (isSkipped_iff.1 h)) hword hends ih

/-- **A text that is spelled in words is read as just these words.** -/
theorem lexingFrom_of_spells {text : String} {a : Nat} {cs : List Char} {ls : List Lexeme} (h : Spells cs ls)
    (hreads : (Source.ofString text).Reads a cs) :
    (Input.of lexer (.ofString text)).lexingFrom a = ⟨ls, true⟩ :=
  h.inVocabulary.lexingFrom hreads

end Calculator
end Ambigram
