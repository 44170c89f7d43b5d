import Ambigram.Proofs.Calculator.Spelling
import Ambigram.Proofs.Costs
import Ambigram.Proofs.Inversion
import Ambigram.Proofs.Misses
import Ambigram.Proofs.Reach
import Ambigram.Proofs.SeparatedLists
import Ambigram.Proofs.Vocabulary
/-!
# Lists of numbers

Numbers with a separator between them, and blanks anywhere between the tokens.  A separator in which there is no digit
and no blank does not run into what is next to it, so a list is read back from what is printed for it.  Behind each
number the separator is looked for once, and each separator is followed by a number: that is two tokens for a number,
and half as many numbers as there is fuel can be read.
-/
namespace Ambigram
namespace Numbers

open Calculator (blanks digits contains_blanks contains_digits contains_digits_iff)
open Filter (atTop)

/-! ## The grammar -/

/-- Registers blanks, which are trivia, then numbers and then the separator. -/
def register (sep : String) : Except Error Tokenizer := do
  let (blank, t) ← Tokenizer.empty.add (.regex "[ \\t\\n]+")
  let t ← t.skip blank
  let (_, t) ← t.add (.regex "[0-9]+")
  return (← t.add (.text sep)).2

def lexer (sep : String) : Lexer where
  patterns := [.regex "[ \\t\\n]+", .regex "[0-9]+", .text sep]
  regexes := [.times 1 none (.chars blanks), .times 1 none (.chars digits), .literal sep.toList]
  skipped := [true, false, false]

theorem asksUnicodeWord_literal : ∀ cs : List Char, (Regex.literal cs).asksUnicodeWord = false
  | [] => rfl
  | _ :: cs => asksUnicodeWord_literal cs

/-- **The lexer is made of what is registered.** -/
theorem build_register (sep : String) : (register sep).bind Tokenizer.build = .ok (lexer sep) := by
  have hregister : register sep = .ok ⟨[.regex "[ \\t\\n]+", .regex "[0-9]+", .text sep], [0]⟩ := rfl
  have hchecks : [Pattern.regex "[ \\t\\n]+", .regex "[0-9]+", .text sep].mapM Pattern.check =
      .ok (lexer sep).regexes := rfl
  have hnone : (lexer sep).regexes.any Regex.asksUnicodeWord = false := by
    simp [lexer, Regex.asksUnicodeWord, asksUnicodeWord_literal]
  rw [hregister]
  show Tokenizer.build _ = _
  unfold Tokenizer.build
  dsimp only
  rw [hchecks]
  show (if (lexer sep).regexes.any Regex.asksUnicodeWord then _ else _) = _
  rw [hnone]
  rfl

def number : Parser Unit .value := .scan (.pattern 1) false (some (Pattern.regex "[0-9]+").display) TextMapping.unsigned

def separator (sep : String) : Recognizer := .token (.pattern 2) false sep

/-- The whole grammar. -/
def numbers (sep : String) : Parser Unit .list :=
  .seq false .emptyList (.join false (separator sep) (.appends 0 number))

/-! ## Texts -/

/-- There is something to the separator, but no digit and no blank. -/
structure Separates (sep : String) : Prop where
  nonempty : sep ≠ ""
  clear : ∀ c ∈ sep.toList, c.isDigit = false ∧ c ≠ ' ' ∧ c ≠ '\t' ∧ c ≠ '\n'

def numeral (n : Int64) : String := Decimal.ofInt n.toInt

/-- The numbers with the separator between them. -/
def text (sep : String) (ns : List Int64) : String := sep.intercalate (ns.map numeral)

def numeralLexeme (n : Int64) : Lexeme := ⟨numeral n, {1}⟩

def separatorLexeme (sep : String) : Lexeme := ⟨sep, {2}⟩

/-- Behind a number. -/
def behind (sep : String) (ns : List Int64) : List Lexeme := ns.flatMap fun n => [separatorLexeme sep, numeralLexeme n]

def lexemes (sep : String) : List Int64 → List Lexeme
  | [] => []
  | n :: ns => numeralLexeme n :: behind sep ns

theorem toList_text {sep : String} (n : Int64) (ns : List Int64) : (text sep (n :: ns)).toList =
    (numeral n).toList ++ ns.flatMap fun n => sep.toList ++ (numeral n).toList := by
  induction ns generalizing n with
  | nil => simp [text]
  | cons m ns ih =>
    have hmore : text sep (n :: m :: ns) = numeral n ++ sep ++ text sep (m :: ns) := String.intercalate_cons_cons
    rw [hmore, String.toList_append, String.toList_append, ih, List.flatMap_cons, List.append_assoc, List.append_assoc]

def entries (sep : String) : List Entry := [.many blanks, .many digits, .text sep.toList]

section Spelling

variable {sep : String} (hsep : Separates sep) {n : Int64} {ns : List Int64}
include hsep

/-- No character of a separator is one of another token. -/
theorem Separates.not_contains {c : Char} (hc : c ∈ sep.toList) :
    ¬ blanks.contains c = true ∧ ¬ digits.contains c = true := by
  obtain ⟨hdigit, hspace, htab, hline⟩ := hsep.clear c hc
  refine ⟨fun h => ?_, fun h => ?_⟩
  · obtain h | h | h := contains_blanks.1 h
    · exact hspace (Char.toNat_inj.1 h)
    · exact htab (Char.toNat_inj.1 h)
    · exact hline (Char.toNat_inj.1 h)
  · rw [contains_digits_iff.1 h] at hdigit
    cases hdigit

theorem entries_begin_apart {n n' : Nat} {e e' : Entry} {c : Char} (he : (entries sep)[n]? = some e)
    (he' : (entries sep)[n']? = some e') (hc : e.Begins c) (hc' : e'.Begins c) : n = n' := by
  have hapart : ¬ (blanks.contains c = true ∧ digits.contains c = true) := by
    rintro ⟨h, h'⟩
    have := contains_blanks.1 h
    have := contains_digits.1 h'
    omega
  have hclear (h : sep.toList.head? = some c) := hsep.not_contains (List.mem_of_mem_head? h)
  match n, n', he, he' with
  | 0, 0, _, _ | 1, 1, _, _ | 2, 2, _, _ => rfl
  | 0, 1, rfl, rfl => exact absurd ⟨hc, hc'⟩ hapart
  | 1, 0, rfl, rfl => exact absurd ⟨hc', hc⟩ hapart
  | 0, 2, rfl, rfl => exact absurd hc (hclear hc').1
  | 2, 0, rfl, rfl => exact absurd hc' (hclear hc).1
  | 1, 2, rfl, rfl => exact absurd hc (hclear hc').2
  | 2, 1, rfl, rfl => exact absurd hc' (hclear hc).2

theorem entries_nonempty : ∀ e ∈ entries sep, ¬ e.Word [] := by
  have := hsep.nonempty
  simp [entries, Entry.Word, this]

/-- Blanks, numbers and a separator do not run into each other. -/
def vocabulary : Vocabulary (lexer sep) where
  entries := entries sep
  regexes := rfl
  nonempty := entries_nonempty hsep
  begins_unique := entries_begin_apart hsep

theorem spells_numeral {rest : List Char} {ls : List Lexeme} (hn : 0 ≤ n.toInt)
    (hstop : ∀ c ∈ rest.head?, digits.contains c = false) (h : (vocabulary hsep).Spells rest ls) :
    (vocabulary hsep).Spells ((numeral n).toList ++ rest) (numeralLexeme n :: ls) := by
  have hdigits : (numeral n).toList = Decimal.digits n.toInt.toNat := by
    rw [numeral, Decimal.ofInt_toInt hn, Decimal.ofNat, String.toList_ofList]
  have hword : (Entry.many digits).Word (numeral n).toList := by
    rw [hdigits]
    exact ⟨Nat.toDigits_ne_nil, fun c hc => contains_digits_iff.2 (Decimal.isDigit_of_mem_digits hc)⟩
  have hlexeme : numeralLexeme n = ⟨String.ofList (numeral n).toList, {1}⟩ := by
    rw [String.ofList_toList, numeralLexeme]
  rw [hlexeme]
  exact .word (n := 1) rfl rfl hword hstop h

theorem spells_behind (hns : ∀ n ∈ ns, 0 ≤ n.toInt) :
    (vocabulary hsep).Spells (ns.flatMap fun n => sep.toList ++ (numeral n).toList) (behind sep ns) ∧
    ∀ c ∈ (ns.flatMap fun n => sep.toList ++ (numeral n).toList).head?, digits.contains c = false := by
  induction ns with
  | nil => exact ⟨.done, by simp⟩
  | cons n ns ih =>
    obtain ⟨hn, hns⟩ := List.forall_mem_cons.1 hns
    obtain ⟨hspells, hstop⟩ := ih hns
    have hnumeral := spells_numeral hsep hn hstop hspells
    have hword : (vocabulary hsep).Spells (sep.toList ++ ((numeral n).toList ++ _))
        (⟨String.ofList sep.toList, {2}⟩ :: _) := .word (n := 2) rfl rfl rfl trivial hnumeral
    rw [String.ofList_toList] at hword
    rw [List.flatMap_cons, List.append_assoc]
    refine ⟨hword, fun c hc => ?_⟩
    obtain ⟨d, cs, hcs⟩ := List.exists_cons_of_ne_nil (by simpa using hsep.nonempty : sep.toList ≠ [])
    rw [hcs] at hc
    cases hc
    exact Bool.eq_false_iff.2 (hsep.not_contains (by simp [hcs])).2

/-- **The lexer takes the text apart into the numbers and separators it was made of.** -/
theorem lexing_text (hns : ∀ n ∈ ns, 0 ≤ n.toInt) :
    (Input.of (lexer sep) (.ofString (text sep ns))).lexing = ⟨lexemes sep ns, true⟩ := by
  refine Vocabulary.Spells.lexing (v := vocabulary hsep) ?_
  cases ns with
  | nil => exact .done
  | cons n ns =>
    obtain ⟨hn, hns⟩ := List.forall_mem_cons.1 hns
    obtain ⟨hspells, hstop⟩ := spells_behind hsep hns
    rw [toList_text]
    exact spells_numeral hsep hn hstop hspells

end Spelling

/-! ## Reading -/

section Reading

variable {i : Input} (hi : i.WellFormed) (sep : String) {ds : Definitions Unit} {level : Nat} {rest : List Lexeme}
include hi

theorem number_costs (acc : List Value) (n : Int64) : (Node.appends 0 number).Costs ds i () level 1 acc [numeralLexeme n]
    (.hit (acc ++ [.int n])) rest :=
  .fold (.scan hi (Finset.mem_singleton_self 1) (TextMapping.apply_unsigned () n)) rfl

theorem separator_costs : (separator sep).Costs i 1 [separatorLexeme sep] (.hit ()) rest :=
  .token hi (Finset.mem_singleton_self 2)

/-- Behind a number a separator is looked for as often as there are numbers, and once more. -/
theorem behind_costs (ns : List Int64) (acc : List Value) :
    Step.Costs.Tail i (2 * ns.length + 1) ((separator sep).recognize i) ((Node.appends 0 number).parseAt ds i () level)
      acc (behind sep ns) (.hit (acc ++ ns.map .int)) [] := by
  induction ns generalizing acc with
  | nil =>
    rw [List.map_nil, List.append_nil]
    exact Step.Costs.tail_stop (Recognizer.Costs.token_miss hi (by simp [NotNext]))
  | cons n ns ih =>
    have hcost : 2 * (n :: ns).length + 1 = 1 + 1 + (2 * ns.length + 1) := by
      rw [List.length_cons]
      omega
    rw [hcost, List.map_cons, List.append_cons]
    exact Step.Costs.tail_more (separator_costs hi sep) (number_costs hi acc n) Nat.one_pos (ih _)

theorem numbers_costs (ns : List Int64) : (numbers sep).Costs ds i () level (max 1 (2 * ns.length)) () (lexemes sep ns)
    (.hit (ns.map .int)) [] := by
  cases ns with
  | nil =>
    have hnone : (Node.appends 0 number).Costs ds i () level 1 [] [] .miss [] :=
      .fold_miss (.scan_miss hi (by simp [NotNext]))
    exact (Node.Costs.seq .emptyList (.join_none hnone) (by simp)).congr rfl rfl
  | cons n ns =>
    have hjoin : (Node.join false (separator sep) (.appends 0 number)).Costs ds i () level (1 + (2 * ns.length + 1)) []
        (lexemes sep (n :: ns)) (.hit ((n :: ns).map .int)) [] :=
      .join (number_costs hi [] n) (behind_costs hi sep ns _)
    refine (Node.Costs.seq .emptyList hjoin (by simp)).congr ?_ rfl
    rw [List.length_cons]
    omega

end Reading

/-! ## Printing -/

section Printing

variable {sep : String} {ds : Definitions Unit} {n : Int64} {ns : List Int64}

theorem number_prints (hn : 0 ≤ n.toInt) : number.Prints ds () (.int n) (.hit ((), .text (numeral n))) :=
  .scan (if_pos hn)

theorem number_prints_miss (hn : n.toInt < 0) : number.Prints ds () (.int n) .miss :=
  .scan_miss (if_neg (Int.not_le.2 hn))

theorem number_settles (n : Int64) : number.Settles ds () (.int n) := by
  by_cases hn : 0 ≤ n.toInt
  · exact ⟨_, number_prints hn, by simp⟩
  · exact ⟨_, number_prints_miss (Int.not_le.1 hn), by simp⟩

theorem numbers_unwind (hns : ∀ n ∈ ns, 0 ≤ n.toInt) :
    (Node.appends 0 number).Unwinds ds () (ns.map .int) [] (ns.map fun n => .text (numeral n)) := by
  induction ns using List.reverseRecOn with
  | nil => exact .done (Node.appends_prints_miss (Nat.le_refl 0))
  | append_singleton ns n ih =>
    have hlast : (Node.appends 0 number).Prints ds () (ns.map .int ++ [.int n]) (.hit (ns.map .int, .text (numeral n))) :=
      Node.appends_prints_snoc (Nat.zero_le _) (number_prints (hns n (by simp)))
    rw [List.map_append, List.map_append]
    exact .more hlast (ih fun m hm => hns m (List.mem_append_left _ hm))

theorem numbers_prints (hsep : Separates sep) (hns : ∀ n ∈ ns, 0 ≤ n.toInt) :
    ∃ tree, (numbers sep).Prints ds () (ns.map .int) (.hit ((), tree)) ∧ tree.toSource = text sep ns := by
  refine ⟨_, .seq ((numbers_unwind hns).join_prints (separator sep) false) .emptyList, ?_⟩
  have hseparator : (separator sep).print.toSource = sep := by
    rw [separator, Recognizer.print, if_neg (by simpa using hsep.nonempty), Tree.toSource_text]
  have htexts : (ns.map fun n => Tree.text (numeral n)).map Tree.toSource = ns.map numeral := by
    rw [List.map_map]
    exact List.map_congr_left fun n _ => Tree.toSource_text (numeral n)
  rw [Tree.empty_append, Tree.toSource, Tree.render_concat, Tree.renderAll_intersperse, hseparator, htexts,
    String.empty_append]
  rfl

/-- A negative number stays, and then there is a list left that nothing can be made of. -/
theorem numbers_prints_miss (hns : ∃ n ∈ ns, n.toInt < 0) : (numbers sep).Prints ds () (ns.map .int) .miss := by
  obtain ⟨n, hmem, hn⟩ := hns
  have hsettles : ∀ w ∈ ns.map Value.int, number.Settles ds () w := by
    intro w hw
    obtain ⟨m, -, rfl⟩ := List.mem_map.1 hw
    exact number_settles m
  obtain ⟨k, trees, ⟨⟨-, hback⟩, -⟩, -, hunwinds⟩ := Node.exists_unwinds (m := 0) (ns.map .int) hsettles
  have hleft : (ns.map Value.int).take k ≠ [] := by
    intro hnil
    have hall : Value.int n ∈ (ns.map Value.int).take k ++ (ns.map Value.int).drop k := by
      rw [List.take_append_drop]
      exact List.mem_map_of_mem hmem
    rw [hnil, List.nil_append] at hall
    exact (hback (.int n) hall).not_miss (number_prints_miss hn)
  exact .seq_miss_of_hit (hunwinds.join_prints (separator sep) false) (.emptyList_miss hleft)

end Printing

/-! ## Round trips -/

/-- **Lists of numbers are read back from what is printed for them, as long as there is fuel for two tokens a number.** -/
theorem parse_print_numbers (sep : String) (hsep : Separates sep) :
    (register sep).bind Tokenizer.build = .ok (lexer sep) ∧
      ∀ ns : List Int64,
        ((∀ n ∈ ns, 0 ≤ n.toInt) →
          (∀ᶠ budget in atTop, (numbers sep).printSource .empty () budget (ns.map .int) = .ok (text sep ns)) ∧
          (numbers sep).parseSource .empty () {} (.of (lexer sep) (.ofString (text sep ns))) =
            (if ns.length ≤ 500000 then .ok (ns.map .int) else .error .fuelExhausted) ∧
          (ns.length ≤ 500000 →
            ((numbers sep).parseRest ⟨.empty, (), .of (lexer sep) (.ofString (text sep ns)), ({} : Limits).depth⟩
              (.start {})).2.fuel + max 1 (2 * ns.length) = 1000000)) ∧
        ((∃ n ∈ ns, n.toInt < 0) →
          ∀ᶠ budget in atTop,
            (numbers sep).printSource .empty () budget (ns.map .int) =
              .error (.notPrintable (numbers sep).describe)) := by
  refine ⟨build_register sep, fun ns => ⟨fun hns => ⟨?_, ?_⟩, fun hns => (numbers_prints_miss hns).printSource_miss⟩⟩
  · obtain ⟨tree, htree, htext⟩ := numbers_prints hsep hns
    exact htext ▸ htree.printSource
  · have hlexing := lexing_text hsep hns
    generalize hin : Input.of (lexer sep) (.ofString (text sep ns)) = i at *
    have hi : i.WellFormed := hin ▸ Input.wellFormed_of (lexer sep) _
    have hfuel : ({} : Limits).fuel = 1000000 := rfl
    unfold Node.parseSource
    have hcosts : (numbers sep).Costs .empty i () ({} : Limits).depth _ () _ _ [] := numbers_costs hi sep ns
    obtain ⟨hle, d, hd, hcost⟩ | ⟨hlt, d, hd⟩ := hcosts.parseRest_eq_ok hi hlexing
    · rw [hd, if_pos (by omega)]
      exact ⟨rfl, fun _ => hcost⟩
    · rw [hd, if_neg (by omega)]
      exact ⟨rfl, fun h => by omega⟩

theorem parse_print_numbers_comma : Separates "," ∧ (∀ n ∈ [7, (40 : Int64)], 0 ≤ n.toInt) ∧
    (∀ᶠ budget in atTop, (numbers ",").printSource .empty () budget [.int 7, .int 40] = .ok "7,40") ∧
    (numbers ",").parseSource .empty () {} (.of (lexer ",") (.ofString "7,40")) = .ok [.int 7, .int 40] := by
  have hsep : Separates "," := by
    refine ⟨by decide, fun c hc => ?_⟩
    obtain rfl : c = ',' := List.mem_singleton.1 hc
    decide
  have hns : ∀ n ∈ [7, (40 : Int64)], 0 ≤ n.toInt :=
    List.forall_mem_cons.2 ⟨by decide, List.forall_mem_singleton.2 (by decide)⟩
  have htext : text "," [7, 40] = "7,40" := by decide
  obtain ⟨hprint, hparse, -⟩ := ((parse_print_numbers "," hsep).2 [7, 40]).1 hns
  rw [htext] at hprint hparse
  exact ⟨hsep, hns, hprint, hparse⟩

end Numbers
end Ambigram
