import Ambigram.Proofs.Literal
import Ambigram.Proofs.Search
/-!
# Longest matches are exact

What a lexer finds at an offset, in terms of the patterns that it was made of: the furthest end of all matches of those
that are allowed, with all of them that end there.  A pattern is allowed if the search is not restricted to another one.

The lexer gets there with sets of offsets, and a table of states would get there byte after byte; both find all that
there is to find, so it is the same.
-/
namespace Ambigram

/-- A pattern that is allowed matches from the offset to an end. -/
def Tokenizer.Reaches (t : Tokenizer) (src : Source) (offset : Nat) (only : Option TokenId) (n k : Nat) : Prop :=
  (∀ id ∈ only, id = .pattern n) ∧ ∃ p, t.patterns[n]? = some p ∧ p.Matches src offset k

theorem LongestMatch.Found.congr {ends ends' : Nat → Nat → Prop} {offset : Nat} {o : Option LongestMatch}
    (h : Found ends offset o) (hends : ∀ n k, ends n k ↔ ends' n k) : Found ends' offset o := by
  obtain rfl : ends = ends' := funext₂ fun n k => propext (hends n k)
  exact h

/-! ## Lexers that were built -/

theorem rel_of_mapM_check : ∀ {ps : List Pattern} {rs : List Regex}, ps.mapM Pattern.check = .ok rs →
    ∀ n : Nat, Option.Rel (fun p r => Pattern.check p = .ok r) ps[n]? rs[n]?
  | [], rs, h, n => by
    cases h
    exact .none
  | p :: ps, rs, h, n => by
    rw [List.mapM_cons] at h
    obtain ⟨r, hr, h⟩ := bind_eq_ok.1 h
    obtain ⟨rs, hrs, h⟩ := bind_eq_ok.1 h
    cases h
    cases n with
    | zero => exact .some hr
    | succ n => exact rel_of_mapM_check hrs n

/-- The expressions of a lexer are what its patterns stand for. -/
structure Tokenizer.Built (t : Tokenizer) (l : Lexer) : Prop where
  patterns : l.patterns = t.patterns
  rel : ∀ n : Nat, Option.Rel (fun p r => Pattern.check p = .ok r) t.patterns[n]? l.regexes[n]?

theorem Tokenizer.built_of_build {t : Tokenizer} {l : Lexer} (h : t.build = .ok l) : t.Built l := by
  obtain ⟨regexes, hregexes, h⟩ := bind_eq_ok.1 h
  dsimp only at h
  split at h
  · cases h
  · cases h
    exact ⟨rfl, rel_of_mapM_check hregexes⟩

/-! ## What it finds -/

namespace Lexer

theorem furthest_sorted {ends : Ends} (h : (ends.map Prod.fst).Pairwise (· < ·)) {offset : Nat} {m : LongestMatch}
    (hm : furthest offset ends = some m) : m.tokens.Pairwise (· < ·) := by
  unfold furthest at hm
  dsimp only at hm
  split at hm
  · cases hm
  · cases hm
    exact h.sublist (List.filter_sublist.map Prod.fst)

theorem furthest_found {ends : Ends} (h : (ends.map Prod.fst).Pairwise (· < ·)) (offset : Nat) :
    LongestMatch.Found (fun n k => ∃ e ∈ ends, e.1 = n ∧ e.2.testBit k = true) offset (furthest offset ends) := by
  obtain ⟨hnone, hle⟩ | ⟨m, hm, hahead, hle, htokens, e, he, hstop⟩ := furthest_cases offset ends
  · rw [hnone]
    rintro n k ⟨e, he, -, hk⟩
    exact hle e he k hk
  · rw [hm]
    refine ⟨hahead, ?_, ⟨e.1, e, he, rfl, hstop⟩, furthest_sorted h hm, htokens⟩
    rintro n k ⟨e, he, -, hk⟩
    exact hle e he k hk

theorem map_fst_endsAt (src : Source) (tracks : List Regex.Track) (offset : Nat) :
    (endsAt src tracks offset).map Prod.fst = List.range' 0 tracks.length := by
  unfold endsAt
  rw [List.map_map]
  exact List.zipIdx_map_snd 0 tracks

variable {t : Tokenizer} {l : Lexer} (hl : t.Built l) {src : Source} (hs : src.WellFormed) {offset : Nat}
  (ho : offset ≤ src.size)
include hl hs ho

/-- The ends of a token are those of the expression that its pattern stands for. -/
theorem reaches_iff (only : Option TokenId) (n k : Nat) : t.Reaches src offset only n k ↔
    (∀ id ∈ only, id = .pattern n) ∧
      ∃ r, l.regexes[n]? = some r ∧ ((r.track src).run src.size (1 <<< offset)).testBit k = true := by
  unfold Tokenizer.Reaches
  refine and_congr_right fun _ => ?_
  have hrel := hl.rel n
  cases hp : t.patterns[n]? with
  | none =>
    rw [hp] at hrel
    cases hr : l.regexes[n]? with
    | none => simp
    | some r =>
      rw [hr] at hrel
      cases hrel
  | some p =>
    rw [hp] at hrel
    cases hr : l.regexes[n]? with
    | none =>
      rw [hr] at hrel
      cases hrel
    | some r =>
      rw [hr] at hrel
      cases hrel with
      | some hcheck =>
        simp only [Option.some.injEq, exists_eq_left', Pattern.matches_iff_of_check hcheck,
          Regex.testBit_run_track hs (Pattern.ordered_of_check hcheck) ho]

theorem reaches_iff_mem (only : Option TokenId) (n k : Nat) : t.Reaches src offset only n k ↔
    ∃ e ∈ (endsAt src (l.tracks src) offset).filter fun e => only.all (· = .pattern e.1),
      e.1 = n ∧ e.2.testBit k = true := by
  rw [reaches_iff hl hs ho]
  simp only [List.mem_filter, Option.all_eq_true, decide_eq_true_eq]
  constructor
  · rintro ⟨hallowed, r, hr, hk⟩
    exact ⟨(n, _), ⟨mem_endsAt.2 ⟨r, hr, rfl⟩, hallowed⟩, rfl, hk⟩
  · rintro ⟨e, ⟨he, hallowed⟩, rfl, hk⟩
    obtain ⟨r, hr, he⟩ := mem_endsAt.1 he
    exact ⟨hallowed, r, hr, he ▸ hk⟩

/-- **A lexer finds what there is to find.** -/
theorem longestMatch_found {only : Option TokenId} (honly : ∀ id ∈ only, ∃ n < t.size, id = .pattern n) :
    ∃ found, l.longestMatch src offset only = .ok found ∧
      LongestMatch.Found (t.Reaches src offset only) offset found := by
  cases only with
  | none =>
    refine ⟨_, if_neg (Nat.not_lt.2 ho), (furthest_found ?_ offset).congr fun n k => ?_⟩
    · rw [map_fst_endsAt]
      exact List.pairwise_lt_range' 1
    · rw [reaches_iff_mem hl hs ho]
      simp only [Option.all_none, List.filter_true]
  | some id =>
    obtain ⟨i, hi, rfl⟩ := honly id rfl
    obtain ⟨r, hr⟩ : ∃ r, l.regexes[i]? = some r := by
      have hrel := hl.rel i
      rw [List.getElem?_eq_getElem hi] at hrel
      cases hr : l.regexes[i]? with
      | none =>
        rw [hr] at hrel
        cases hrel
      | some r => exact ⟨r, rfl⟩
    have htrack : (l.tracks src)[i]? = some (r.track src) := by
      unfold tracks
      rw [List.getElem?_map, hr]
      rfl
    refine ⟨furthest offset [(i, (r.track src).run src.size (1 <<< offset))], ?_,
      (furthest_found (List.pairwise_singleton _ _) offset).congr fun n k => ?_⟩
    · unfold longestMatch matchOn
      dsimp only
      rw [htrack]
      exact if_neg (Nat.not_lt.2 ho)
    · rw [reaches_iff hl hs ho]
      constructor
      · rintro ⟨e, he, rfl, hk⟩
        cases List.mem_singleton.1 he
        exact ⟨fun id hid => (Option.some.inj hid).symm, r, hr, hk⟩
      · rintro ⟨hallowed, r', hr', hk⟩
        cases hallowed _ rfl
        cases hr.symm.trans hr'
        exact ⟨_, List.mem_singleton_self _, rfl, hk⟩

end Lexer

/-! ## Longest matches -/

theorem Tokenizer.Reaches.within {t : Tokenizer} {src : Source} (hs : src.WellFormed) {offset : Nat}
    (ho : offset ≤ src.size) {only : Option TokenId} {n k : Nat}
    (h : t.Reaches src offset only n k) : offset ≤ k ∧ k ≤ src.size := by
  obtain ⟨-, p, -, r, -, hr⟩ := h
  obtain ⟨hle, hwithin⟩ := Regex.forward_matches hs r hr
  exact ⟨hle, hwithin ho⟩

theorem Lexer.exists_only? {l : Lexer} {only : Option TokenId} (h : ∀ id ∈ only, ∃ n < l.size, id = .pattern n) :
    ∃ id, l.only? only = .ok id := by
  cases only with
  | none => exact ⟨none, rfl⟩
  | some id =>
    obtain ⟨n, hn, rfl⟩ := h id rfl
    exact ⟨some n, if_pos hn⟩

/-- **The longest match is exact.**  A lexer that was built finds nothing just if no pattern that is allowed matches more
than nothing at the offset.  Otherwise it finds the furthest end behind the offset of all their matches, and the tokens
of just those that match up to there, in order.  A search with an automaton for the patterns finds the same, and a text
matches its own bytes, whatever is in it. -/
theorem longestMatch_exact {t : Tokenizer} {lexer : Lexer} (hbuild : t.build = .ok lexer) (text : String) {offset : Nat}
    (ho : offset ≤ text.utf8ByteSize) {only : Option TokenId} (honly : ∀ id ∈ only, ∃ n < t.size, id = .pattern n) :
    let src := Source.ofString text
    let bytes := text.toByteArray.data.toList
    let reaches := t.Reaches src offset only
    ∃ found, lexer.longestMatch src offset only = .ok found ∧
      (found = none ↔ ∀ n k, reaches n k → ¬ offset < k) ∧
      (∀ m, found = some m ↔ m.Exact reaches offset) ∧
      (∃ id, lexer.only? only = .ok id ∧ ∀ {σ : Type} (A : Automaton σ) (q : σ), A.Lawful →
        A.start bytes offset id = .ok q → A.Follows reaches q (bytes.drop offset) offset →
        lexer.search A bytes offset only = .ok found) ∧
      ∀ (t : String) (k : Nat), (Pattern.text t).Matches src offset k ↔
        k = offset + t.utf8ByteSize ∧ text.toByteArray.extract offset k = t.toByteArray := by
  intro src bytes reaches
  have hl := Tokenizer.built_of_build hbuild
  have hs : src.WellFormed := Source.wellFormed_ofString text
  have hsize : src.size = text.utf8ByteSize := Source.size_ofString text
  have hsrc : offset ≤ src.size := hsize ▸ ho
  obtain ⟨found, hfound, h⟩ := Lexer.longestMatch_found hl hs hsrc honly
  refine ⟨found, hfound, ⟨?_, fun hnone => ?_⟩, fun m => ⟨?_, fun hm => ?_⟩, ?_, fun t k => Pattern.text_matches_iff⟩
  · rintro rfl n k hk
    exact Nat.not_lt.2 (h n k hk)
  · have hnothing : LongestMatch.Found reaches offset none := fun n k hk => Nat.not_lt.1 (hnone n k hk)
    exact h.unique hnothing
  · rintro rfl
    exact h
  · have hfound' : LongestMatch.Found reaches offset (some m) := hm
    exact h.unique hfound'
  · obtain ⟨id, hid⟩ : ∃ id, lexer.only? only = .ok id := by
      refine Lexer.exists_only? ?_
      rw [Lexer.size, hl.patterns]
      exact honly
    refine ⟨id, hid, fun A q hA hstart hq => ?_⟩
    have hlength : bytes.length = src.size := hsize.symm
    have hends : ∀ n k, reaches n k → offset ≤ k ∧ k ≤ bytes.length := fun n k hk => hlength ▸ hk.within hs hsrc
    obtain ⟨found', hsearch, h'⟩ := Lexer.search_found hA hid ho hstart hq hends
    rw [hsearch, h'.unique h]

/-! ### A text with a sign

The text `a+` and words of letters and signs. -/

namespace Plus

def tokenizer : Tokenizer := ⟨[.text "a+", .regex "[a-z+]+"], []⟩

def lexer : Lexer where
  patterns := tokenizer.patterns
  regexes := [.literal ['a', '+'],
    .times 1 none (.chars (.union (.ranges [(97, 122)]) (.union (.single '+') .none)))]
  skipped := [false, false]

/-- The tokens of what was read, of those that are allowed. -/
def tokensOf (only : Option Nat) (word : List UInt8) : List Nat :=
  [0, 1].filter fun n => only.all (· = n) && if n = 0 then word = [97, 43] else !word.isEmpty

/-- A state is the word that was read, as long as it goes on, with the tokens in front of its last byte. -/
def automaton : Automaton (Option (Option Nat × List UInt8) × List Nat) where
  start _ _ only := .ok (some (only, []), [])
  next
    | (some (only, word), _), byte =>
      (if 97 ≤ byte && byte ≤ 122 || byte = 43 then some (only, word ++ [byte]) else none, tokensOf only word)
    | (none, _), _ => (none, [])
  finish
    | (some (only, word), _) => (none, tokensOf only word)
    | (none, _) => (none, [])
  isSpecial q := q.1.isNone || !q.2.isEmpty
  isMatch q := !q.2.isEmpty
  isDead q := q.1.isNone && q.2.isEmpty
  isQuit _ := false
  patterns q := q.2

theorem lawful : automaton.Lawful where
  isSpecial_of_isMatch h := Bool.or_eq_true_iff.2 (.inr h)
  isSpecial_of_isDead h := Bool.or_eq_true_iff.2 (.inl (Bool.and_eq_true_iff.1 h).1)
  isMatch_of_isDead h := by
    show (!_) = false
    rw [(Bool.and_eq_true_iff.1 h).2]
    rfl
  isDead_next {q} byte h := by
    obtain ⟨word, tokens⟩ := q
    cases word with
    | none => rfl
    | some word => cases h
  isDead_finish {q} h := by
    obtain ⟨word, tokens⟩ := q
    cases word with
    | none => rfl
    | some word => cases h

end Plus

/-- It is enough to know the tokens that are told at each place. -/
theorem Automaton.follows_of_patterns {σ : Type} {A : Automaton σ} {ends : Nat → Nat → Prop} {es : Lexer.Ends} {q : σ}
    {bytes : List UInt8} {offset : Nat} (hends : ∀ n k, ends n k ↔ ∃ e ∈ es, e.1 = n ∧ e.2.testBit k = true)
    (hes : (es.map Prod.fst).Nodup) (hmatch : ∀ q, A.isMatch q = !(A.patterns q).isEmpty)
    (hquit : ∀ q, A.isQuit q = false)
    (htold : ∀ n < bytes.length,
      A.patterns (A.run q (bytes.take (n + 1))) = (es.filter (·.2.testBit (offset + n))).map Prod.fst)
    (hlast : A.patterns (A.finish (A.run q bytes)) = (es.filter (·.2.testBit (offset + bytes.length))).map Prod.fst) :
    A.Follows ends q bytes offset := by
  have htells : ∀ {q : σ} {k : Nat}, A.patterns q = (es.filter (·.2.testBit k)).map Prod.fst → A.Tells ends q k := by
    intro q k hq
    have hmem : ∀ n, n ∈ A.patterns q ↔ ends n k := fun n => by
      rw [hq, hends]
      simp only [List.mem_map, List.mem_filter]
      exact exists_congr fun e => ⟨fun ⟨⟨he, hk⟩, hn⟩ => ⟨he, hn, hk⟩, fun ⟨he, hn, hk⟩ => ⟨⟨he, hk⟩, hn⟩⟩
    refine ⟨?_, fun _ => hq ▸ hes.sublist (List.filter_sublist.map Prod.fst), fun _ => hmem⟩
    rw [hmatch, Bool.not_eq_true', List.isEmpty_eq_false_iff_exists_mem]
    exact exists_congr hmem
  exact ⟨fun n => hquit _, fun n hn => htells (htold n hn), htells hlast⟩

/-- Letters behind the sign make a longer word, which the text alone does not match. -/
theorem longestMatch_exact_plus :
    let text := "a+ a+b"
    let src := Source.ofString text
    let bytes := text.toByteArray.data.toList
    let alone : TokenId := .pattern 0
    let start (only : Option Nat) := (some (only, ([] : List UInt8)), ([] : List Nat))
    (Plus.tokenizer.build = .ok Plus.lexer ∧ 3 ≤ text.utf8ByteSize ∧
      (∀ id ∈ some alone, ∃ n < Plus.tokenizer.size, id = .pattern n) ∧
      Plus.automaton.Lawful ∧
      Plus.automaton.Follows (Plus.tokenizer.Reaches src 3 none) (start none) (bytes.drop 3) 3 ∧
      Plus.automaton.Follows (Plus.tokenizer.Reaches src 3 (some alone)) (start (some 0)) (bytes.drop 3) 3) ∧
    Plus.lexer.longestMatch src 3 none = .ok (some ⟨6, [1]⟩) ∧
    Plus.lexer.longestMatch src 3 (some alone) = .ok (some ⟨5, [0]⟩) ∧
    Plus.lexer.search Plus.automaton bytes 3 none = .ok (some ⟨6, [1]⟩) ∧
    Plus.lexer.search Plus.automaton bytes 3 (some alone) = .ok (some ⟨5, [0]⟩) ∧
    LongestMatch.Exact (Plus.tokenizer.Reaches src 3 none) 3 ⟨6, [1]⟩ ∧
    LongestMatch.Exact (Plus.tokenizer.Reaches src 3 (some alone)) 3 ⟨5, [0]⟩ := by
  intro text src bytes alone start
  have hbuild : Plus.tokenizer.build = .ok Plus.lexer := rfl
  have ho : 3 ≤ text.utf8ByteSize := by decide +kernel
  have hnone : ∀ id ∈ (none : Option TokenId), ∃ n < Plus.tokenizer.size, id = .pattern n := nofun
  have halone : ∀ id ∈ some alone, ∃ n < Plus.tokenizer.size, id = .pattern n := by
    rintro _ ⟨⟩
    exact ⟨0, by decide, rfl⟩
  have hwithin : 3 ≤ src.size := by decide +kernel
  have hreaches := Lexer.reaches_iff_mem (Tokenizer.built_of_build hbuild) (Source.wellFormed_ofString text) hwithin
  have hall : Plus.automaton.Follows (Plus.tokenizer.Reaches src 3 none) (start none) (bytes.drop 3) 3 :=
    Automaton.follows_of_patterns (hreaches none) (by decide +kernel) (fun _ => rfl) (fun _ => rfl) (by decide +kernel)
      (by decide +kernel)
  have hone : Plus.automaton.Follows (Plus.tokenizer.Reaches src 3 (some alone)) (start (some 0)) (bytes.drop 3) 3 :=
    Automaton.follows_of_patterns (hreaches (some alone)) (by decide +kernel) (fun _ => rfl) (fun _ => rfl)
      (by decide +kernel) (by decide +kernel)
  have hlongest : Plus.lexer.longestMatch src 3 none = .ok (some ⟨6, [1]⟩) := by decide +kernel
  have hlongest' : Plus.lexer.longestMatch src 3 (some alone) = .ok (some ⟨5, [0]⟩) := by decide +kernel
  obtain ⟨found, hfound, -, hexact, ⟨id, hid, hsearch⟩, -⟩ := longestMatch_exact hbuild text ho hnone
  obtain ⟨found', hfound', -, hexact', ⟨id', hid', hsearch'⟩, -⟩ := longestMatch_exact hbuild text ho halone
  cases hlongest.symm.trans hfound
  cases hlongest'.symm.trans hfound'
  cases hid
  cases hid'
  exact ⟨⟨hbuild, ho, halone, Plus.lawful, hall, hone⟩, hlongest, hlongest', hsearch _ _ Plus.lawful rfl hall,
    hsearch' _ _ Plus.lawful rfl hone, (hexact _).1 rfl, (hexact' _).1 rfl⟩

end Ambigram
