import Ambigram.Proofs.Computation
import Ambigram.Proofs.Lexemes
import Ambigram.Proofs.Literal
import Ambigram.Proofs.Longest
import Mathlib.Data.Finset.Insert
/-!
# Words that do not run into each other

Many lexers have tokens of two kinds: one or more characters of a set, and a text.  If no character begins words of two
tokens, the next character says which token comes.  A word of a set goes on as long as its characters follow, and a text
is as long as it is.  So a text that is spelled in such words is read as just those words, and nobody sees the trivia.
-/
namespace Ambigram

open Source (width)

/-! ## Words -/

/-- What a token is made of. -/
inductive Entry
  /-- One or more characters of a set. -/
  | many (s : Regex.CharSet)
  | text (t : List Char)

namespace Entry

def regex : Entry → Regex
  | .many s => .times 1 none (.chars s)
  | .text t => .literal t

/-- What the token matches. -/
def Word : Entry → List Char → Prop
  | .many s, w => w ≠ [] ∧ ∀ c ∈ w, s.contains c = true
  | .text t, w => w = t

/-- The character is one that a word begins with. -/
def Begins : Entry → Char → Prop
  | .many s, c => s.contains c = true
  | .text t, c => t.head? = some c

/-- What follows does not make a word longer. -/
def Stops : Entry → List Char → Prop
  | .many s, rest => ∀ c ∈ rest.head?, s.contains c = false
  | .text _, _ => True

variable {e : Entry} {src : Source} {a k : Nat} {c : Char} {cs w w' rest rest' : List Char}

theorem ordered_regex : ∀ e : Entry, e.regex.Ordered
  | .many s => by simp [regex, Regex.Ordered]
  | .text t => Regex.ordered_literal t

/-- The expression matches the words. -/
theorem matches_regex (h : src.Reads a cs) :
    e.regex.Matches src a k ↔ ∃ w rest, cs = w ++ rest ∧ e.Word w ∧ k = a + width w := by
  cases e with
  | many s =>
    rw [regex, Regex.matches_many h]
    simp only [Word, and_assoc]
  | text t =>
    rw [regex, Regex.matches_literal h]
    constructor
    · rintro ⟨rest, hcs, hk⟩
      exact ⟨t, rest, hcs, rfl, hk⟩
    · rintro ⟨w, rest, hcs, rfl, hk⟩
      exact ⟨rest, hcs, hk⟩

theorem Word.begins (h : e.Word (c :: w)) : e.Begins c := by
  cases e with
  | many s => exact h.2 c List.mem_cons_self
  | text t => exact congrArg List.head? (Eq.symm h)

/-- Where a word stops, no word of the token is longer. -/
theorem Word.isPrefix (hw : e.Word w) (hstop : e.Stops rest) (hw' : e.Word w') (h : w ++ rest = w' ++ rest') :
    w' <+: w := by
  cases e with
  | text t =>
    cases hw
    cases hw'
    exact List.prefix_refl _
  | many s =>
    obtain hle | ⟨more, rfl⟩ :=
      List.prefix_or_prefix_of_prefix (h ▸ List.prefix_append w' rest' : w' <+: w ++ rest) (List.prefix_append w rest)
    · exact hle
    rw [List.append_assoc, List.append_cancel_left_eq] at h
    subst h
    cases more with
    | nil => exact ⟨[], by simp⟩
    | cons c more =>
      have hnot : s.contains c = false := hstop c rfl
      rw [hw'.2 c (by simp)] at hnot
      cases hnot

end Entry

/-- What the tokens of a lexer are made of.  Each character begins words of one token at most. -/
structure Vocabulary (lexer : Lexer) where
  entries : List Entry
  regexes : lexer.regexes = entries.map Entry.regex
  nonempty : ∀ e ∈ entries, ¬ e.Word []
  begins_unique {n n' : Nat} {e e' : Entry} {c : Char} (h : entries[n]? = some e) (h' : entries[n']? = some e')
    (hc : e.Begins c) (hc' : e'.Begins c) : n = n'

namespace Vocabulary

variable {lexer : Lexer} (v : Vocabulary lexer) {src : Source} {a k n : Nat} {e : Entry} {cs w rest : List Char}

include v in
theorem ordered : ∀ r ∈ lexer.regexes, r.Ordered := by
  rw [v.regexes]
  intro r hr
  obtain ⟨e, -, rfl⟩ := List.mem_map.1 hr
  exact e.ordered_regex

variable {v}

theorem exists_cons (he : v.entries[n]? = some e) (hw : e.Word w) : ∃ c w', w = c :: w' ∧ e.Begins c := by
  cases w with
  | nil => exact absurd hw (v.nonempty e (List.mem_of_getElem? he))
  | cons c w => exact ⟨c, w, rfl, hw.begins⟩

theorem width_pos (he : v.entries[n]? = some e) (hw : e.Word w) : 0 < width w := by
  obtain ⟨c, w, rfl, -⟩ := exists_cons he hw
  have := c.utf8Size_pos
  rw [Source.width_cons]
  omega

/-! ## What the lexer finds -/

/-- Where a word begins the lexer finds the word, and no other token. -/
theorem matchAt_word (hs : src.WellFormed) (h : src.Reads a (w ++ rest)) (he : v.entries[n]? = some e) (hw : e.Word w)
    (hstop : e.Stops rest) :
    ∃ m, (Input.of lexer src).matchAt a = some m ∧ m.stop = a + width w ∧ m.tokens.toFinset = {n} := by
  have hr : lexer.regexes[n]? = some e.regex := by rw [v.regexes, List.getElem?_map, he, Option.map_some]
  have hmatch : e.regex.Matches src a (a + width w) := (Entry.matches_regex h).2 ⟨w, rest, rfl, hw, rfl⟩
  obtain ⟨-, hnone⟩ | ⟨m, hm, hlongest⟩ := Input.matchAt_cases hs v.ordered h.le
  · have := hnone _ (List.mem_of_getElem? hr) _ hmatch
    have := width_pos he hw
    omega
  have hle := hlongest.furthest _ (List.mem_of_getElem? hr) _ hmatch
  -- whatever is found begins with the same character, so it is of this token and no longer
  have htoken : ∀ n' ∈ m.tokens, n' = n ∧ m.stop ≤ a + width w := by
    intro n' hn'
    obtain ⟨r', hr', hmatch'⟩ := (hlongest.mem_tokens n').1 hn'
    rw [v.regexes, List.getElem?_map] at hr'
    obtain ⟨e', he', rfl⟩ := Option.map_eq_some_iff.1 hr'
    obtain ⟨w', rest', hcs, hw', hstop'⟩ := (Entry.matches_regex h).1 hmatch'
    obtain ⟨c, u, hu, hbegins⟩ := exists_cons he hw
    obtain ⟨c', u', hu', hbegins'⟩ := exists_cons he' hw'
    obtain rfl : c = c' := by
      rw [hu, hu'] at hcs
      exact (List.cons.inj hcs).1
    obtain rfl := v.begins_unique he he' hbegins hbegins'
    cases he.symm.trans he'
    have := Source.width_le_of_prefix (hw.isPrefix hstop hw' hcs)
    exact ⟨rfl, by omega⟩
  obtain ⟨n', hn'⟩ := hlongest.reached
  have hstop : m.stop = a + width w := Nat.le_antisymm (htoken n' hn').2 hle
  refine ⟨m, hm, hstop, Finset.ext fun k => ?_⟩
  rw [List.mem_toFinset, Finset.mem_singleton]
  constructor
  · exact fun hk => (htoken k hk).1
  · rintro rfl
    exact (htoken n' hn').1 ▸ hn'

variable (v) in
include v in
/-- At the end of the text there is nothing. -/
theorem matchAt_end (hs : src.WellFormed) (h : src.Reads a []) : (Input.of lexer src).matchAt a = none := by
  obtain ⟨hnone, -⟩ | ⟨m, -, hlongest⟩ := Input.matchAt_cases hs v.ordered h.le
  · exact hnone
  obtain ⟨n, hn⟩ := hlongest.reached
  obtain ⟨r, hr, hmatch⟩ := (hlongest.mem_tokens n).1 hn
  rw [v.regexes, List.getElem?_map] at hr
  obtain ⟨e, he, rfl⟩ := Option.map_eq_some_iff.1 hr
  obtain ⟨w, rest, hcs, hw, -⟩ := (Entry.matches_regex h).1 hmatch
  obtain ⟨c, w, rfl, -⟩ := exists_cons he hw
  cases hcs

theorem isTrivia_eq {m : LongestMatch} (h : m.tokens.toFinset = {n}) :
    lexer.isTrivia m = lexer.isSkipped (.pattern n) := by
  have hmem : ∀ k, k ∈ m.tokens ↔ k = n := fun k => by rw [← List.mem_toFinset, h, Finset.mem_singleton]
  rw [Lexer.isTrivia, Bool.eq_iff_iff, List.any_eq_true]
  simp only [hmem, exists_eq_left]

/-! ## Spelling -/

variable (v) in
/-- The characters are words that do not run into each other, and these are the words but for trivia. -/
inductive Spells : List Char → List Lexeme → Prop
  | done : Spells [] []
  | trivia {n : Nat} {e : Entry} {w rest : List Char} {ls : List Lexeme} (entry : v.entries[n]? = some e)
    (skipped : lexer.isSkipped (.pattern n) = true) (word : e.Word w) (stop : e.Stops rest) (more : Spells rest ls) :
    Spells (w ++ rest) ls
  | word {n : Nat} {e : Entry} {w rest : List Char} {ls : List Lexeme} (entry : v.entries[n]? = some e)
    (kept : lexer.isSkipped (.pattern n) = false) (word : e.Word w) (stop : e.Stops rest) (more : Spells rest ls) :
    Spells (w ++ rest) (⟨String.ofList w, {n}⟩ :: ls)

/-- **A text that is spelled in words is read as just these words.** -/
theorem Spells.lexingFrom {text : String} {cs : List Char} {ls : List Lexeme} (h : v.Spells cs ls) {a : Nat}
    (hreads : (Source.ofString text).Reads a cs) :
    (Input.of lexer (.ofString text)).lexingFrom a = ⟨ls, true⟩ := by
  have hi := Input.wellFormed_of lexer text
  have hs := Source.wellFormed_ofString text
  generalize hin : Input.of lexer (.ofString text) = i at *
  have hsource : i.source = .ofString text := hin ▸ rfl
  have hlexer : i.lexer = lexer := hin ▸ rfl
  induction h generalizing a with
  | done =>
    have hm : i.matchAt a = none := hin ▸ v.matchAt_end hs hreads
    have hskip : i.skipTrivia a = a := (hi.settles_iff (hsource ▸ hreads.le)).1 (.nothing hm)
    rw [Input.WellFormed.lexingFrom_of_none (hskip.symm ▸ hm), hskip, hsource, hreads.size_eq]
    simp
  | @trivia n e w rest ls he hskipped hw hstop hmore ih =>
    obtain ⟨m, hm, hend, htokens⟩ := matchAt_word hs hreads he hw hstop
    rw [hin] at hm
    have htrivia : i.lexer.isTrivia m = true := hlexer ▸ (isTrivia_eq htokens).trans hskipped
    have hle : m.stop ≤ i.source.size := by
      rw [hsource, hend]
      exact hreads.append.le
    have hrest : i.Settles m.stop (i.skipTrivia m.stop) := (hi.settles_iff hle).2 rfl
    have hskip : i.skipTrivia a = i.skipTrivia m.stop :=
      (hi.settles_iff (hsource ▸ hreads.le)).1 (.trivia hm htrivia hrest)
    rw [Input.WellFormed.lexingFrom_congr hskip, hend]
    exact ih hreads.append
  | @word n e w rest ls he hkept hw hstop hmore ih =>
    obtain ⟨m, hm, hend, htokens⟩ := matchAt_word hs hreads he hw hstop
    rw [hin] at hm
    have htrivia : i.lexer.isTrivia m = false := hlexer ▸ (isTrivia_eq htokens).trans hkept
    have hle : a ≤ i.source.size := hsource ▸ hreads.le
    have hskip : i.skipTrivia a = a := (hi.settles_iff hle).1 (.other hm htrivia)
    have hlexeme : m.lexeme i.source a = ⟨String.ofList w, {n}⟩ := by
      rw [LongestMatch.lexeme, htokens, hend, hsource, hreads.slice_eq]
    rw [hi.lexingFrom_of_some hle (hskip.symm ▸ hm), hskip, hlexeme, hend, ih hreads.append]
    rfl

theorem Spells.lexing {text : String} {ls : List Lexeme} (h : v.Spells text.toList ls) :
    (Input.of lexer (.ofString text)).lexing = ⟨ls, true⟩ :=
  h.lexingFrom (Source.reads_ofString text)

end Vocabulary
end Ambigram
