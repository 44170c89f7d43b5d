import Ambigram.Proofs.Costs
import Ambigram.Proofs.Inversion
import Ambigram.Proofs.Misses
import Ambigram.Proofs.Vocabulary
import Mathlib.Algebra.Group.Nat.Defs
/-!
# Counting parentheses

The smallest grammar that refers to itself:

    depth = '(' depth ')' | nothing

What is read is how many parentheses are within one another.  Every one of them takes one level of references, and gives
it back behind its end; so the count is also the number of levels that it takes, and a limit is met at one count exactly.
-/
namespace Ambigram
namespace Nesting

open Filter (atTop)

/-! ## The grammar -/

def register : Except Error Tokenizer := do
  let (_, t) ← Tokenizer.empty.add (.text "(")
  return (← t.add (.text ")")).2

def lexer : Lexer where
  patterns := [.text "(", .text ")"]
  regexes := [.literal ['('], .literal [')']]
  skipped := [false, false]

/-- **The lexer is made of what is registered.** -/
theorem build_register : register.bind Tokenizer.build = .ok lexer := by rfl

def opening : Recognizer := .token (.pattern 0) false "("

def closing : Recognizer := .token (.pattern 1) false ")"

def more : Reducer Unit .value .value := .map (.counter 0)

/-- One more than what is between the parentheses. -/
def deeper : Parser Unit .value :=
  .seq false (.after false (.before false opening (.ref "depth")) closing) more

def depth : Parser Unit .value := .choice deeper (.initial (.int 0))

def definitions : Definitions Unit where
  target
    | .value, name => if name = "depth" then some depth else none
    | .list, _ => none

theorem define_depth : Definitions.empty.define .value "depth" depth = .ok definitions := by
  refine congrArg (fun target => Except.ok (Definitions.mk target)) (funext fun t => funext fun name => ?_)
  cases t <;> rfl

theorem target_depth : definitions.target .value "depth" = some depth := rfl

/-- The whole grammar. -/
def nesting : Parser Unit .value := .ref "depth"

/-! ## Counts -/

/-- So many, as a value. -/
def count (n : Nat) : Value := .int (.ofInt n)

theorem eq_count {v : Int64} {n : Nat} (h : v.toInt = n) : n < 2 ^ 63 ∧ .int v = count n := by
  have := v.toInt_lt
  exact ⟨by omega, by rw [count, ← h, Int64.ofInt_toInt]⟩

theorem toInt_ofInt {n : Nat} (h : n < 2 ^ 63) : (Int64.ofInt n).toInt = n :=
  Int64.toInt_ofInt_of_le (by omega) (by omega)

theorem apply_counter {n : Nat} (h : n + 1 < 2 ^ 63) : (Mapping.counter 0).apply () (count n) = .ok (count (n + 1)) := by
  have hnext : int64? ((Int64.ofInt n).toInt + 1) = some (.ofInt ((n + 1 : Nat) : Int)) := by
    rw [toInt_ofInt (by omega), ← int64?_toInt, toInt_ofInt h]
    rfl
  unfold Mapping.counter Mapping.increment count
  dsimp only
  rw [hnext]
  rfl

theorem undo_counter {n : Nat} (h : n + 1 < 2 ^ 63) : (Mapping.counter 0).undo () (count (n + 1)) = .hit (count n) := by
  have hpos : (0 : Int64) < .ofInt ((n + 1 : Nat) : Int) := by
    rw [Int64.lt_iff_toInt_lt, toInt_ofInt h]
    simp
  have hback : Int64.ofInt ((n + 1 : Nat) : Int) - 1 = .ofInt n := by
    have hone : (1 : Int64) = .ofInt 1 := rfl
    rw [hone, ← Int64.ofInt_sub]
    exact congrArg Int64.ofInt (by omega)
  unfold Mapping.counter Mapping.increment count
  dsimp only
  rw [if_pos hpos, hback]
  rfl

/-- Nothing below one was counted up to. -/
theorem undo_counter_of_le {v : Int64} (h : v.toInt ≤ 0) : (Mapping.counter 0).undo () (.int v) = .miss := by
  have hnot : ¬ (0 : Int64) < v := by
    rw [Int64.lt_iff_toInt_lt]
    simpa using h
  unfold Mapping.counter Mapping.increment
  dsimp only
  rw [if_neg hnot]
  rfl

/-! ## Texts -/

def openingLexeme : Lexeme := ⟨"(", {0}⟩

def closingLexeme : Lexeme := ⟨")", {1}⟩

/-- So many opening parentheses, and as many closing ones. -/
def parentheses (n : Nat) : String := String.ofList (List.replicate n '(' ++ List.replicate n ')')

def vocabulary : Vocabulary lexer where
  entries := [.text ['('], .text [')']]
  regexes := rfl
  nonempty := by simp [Entry.Word]
  begins_unique := by
    intro n n' e e' c he he' hc hc'
    match n, n', he, he' with
    | 0, 0, _, _ | 1, 1, _, _ => rfl
    | 0, 1, rfl, rfl | 1, 0, rfl, rfl => cases Option.some.inj (hc.trans hc'.symm)

theorem spells_closing (m : Nat) : vocabulary.Spells (List.replicate m ')') (List.replicate m closingLexeme) := by
  induction m with
  | zero => exact .done
  | succ m ih => exact .word (n := 1) (w := [')']) rfl rfl rfl trivial ih

theorem spells_parentheses (n m : Nat) : vocabulary.Spells (List.replicate n '(' ++ List.replicate m ')')
    (List.replicate n openingLexeme ++ List.replicate m closingLexeme) := by
  induction n with
  | zero => exact spells_closing m
  | succ n ih => exact .word (n := 0) (w := ['(']) rfl rfl rfl trivial ih

theorem lexing_parentheses (n : Nat) : (Input.of lexer (.ofString (parentheses n))).lexing =
    ⟨List.replicate n openingLexeme ++ List.replicate n closingLexeme, true⟩ := by
  refine Vocabulary.Spells.lexing (v := vocabulary) ?_
  rw [parentheses, String.toList_ofList]
  exact spells_parentheses n n

/-! ## Reading

One more parenthesis is one more token in front, one behind, and one more level; what is between them costs the same as
before.  At the innermost place an opening parenthesis is looked for once in vain. -/

section Reading

variable {i : Input} (hi : i.WellFormed) {level m n : Nat} {ls rest : List Lexeme} {e : Error}
include hi

theorem opening_costs : opening.Costs i 1 [openingLexeme] (.hit ()) rest := .token hi (Finset.mem_singleton_self 0)

theorem closing_costs : closing.Costs i 1 [closingLexeme] (.hit ()) rest := .token hi (Finset.mem_singleton_self 1)

theorem opening_costs_miss (m : Nat) : opening.Costs i 1 [] .miss (List.replicate m closingLexeme) := by
  refine .token_miss hi fun l hl => ?_
  obtain rfl := List.eq_of_mem_replicate (List.mem_of_mem_head? hl)
  decide

theorem deeper_costs (hn : n + 1 < 2 ^ 63)
    (h : nesting.Costs definitions i () level m () ls (.hit (count n)) (closingLexeme :: rest)) :
    deeper.Costs definitions i () level (m + 2) () (openingLexeme :: ls ++ [closingLexeme]) (.hit (count (n + 1)))
      rest := by
  have hopened := Node.Costs.before (b := false) (opening_costs hi) h (by simp)
  have hclosed := Node.Costs.after (b := false) hopened (closing_costs hi)
  exact (hclosed.seq (.map (apply_counter hn)) (by simp)).congr (by omega) (by simp)

theorem deeper_costs_fail (h : nesting.Costs definitions i () level m () ls (.fail e) rest) :
    deeper.Costs definitions i () level (m + 1) () (openingLexeme :: ls) (.fail e) rest := by
  have hopened := Node.Costs.before (b := false) (opening_costs hi) h (by simp)
  exact (hopened.after_fail.seq_fail).congr (Nat.add_comm 1 m) rfl

/-- **So many parentheses take as many levels, and two tokens each.** -/
theorem depth_costs (hn : n < 2 ^ 63) (hlevel : n ≤ level) (m : Nat) :
    depth.Costs definitions i () level (2 * n + 1) () (List.replicate n openingLexeme ++ List.replicate n closingLexeme)
      (.hit (count n)) (List.replicate m closingLexeme) := by
  induction n generalizing level m with
  | zero =>
    have hnone : deeper.Costs definitions i () level 1 () [] .miss (List.replicate m closingLexeme) :=
      .seq_miss (.after_miss (.before_miss (opening_costs_miss hi m)))
    have hzero : (Node.initial (.int 0) : Parser Unit .value).Costs definitions i () level 0 () [] (.hit (count 0))
        (List.replicate m closingLexeme) := .initial
    have hdepth : depth.Costs definitions i () level (1 + 0) () [] (.hit (count 0)) (List.replicate m closingLexeme) :=
      .second hnone hzero
    exact hdepth
  | succ n ih =>
    obtain ⟨level, rfl⟩ : ∃ k, level = k + 1 := ⟨level - 1, by omega⟩
    have hinner := ih (by omega) (Nat.le_of_succ_le_succ hlevel) (m + 1)
    refine ((deeper_costs hi hn (.ref target_depth hinner)).first (by simp)).congr (by omega) ?_
    rw [List.replicate_succ, List.replicate_succ', List.cons_append, List.cons_append, List.append_assoc]

/-- With more parentheses than levels the first one without a level is an error. -/
theorem depth_costs_fail (level : Nat) (rest : List Lexeme) :
    depth.Costs definitions i () level (level + 1) () (List.replicate (level + 1) openingLexeme) (.fail .recursionLimit)
      rest := by
  induction level with
  | zero => exact (deeper_costs_fail hi (.ref_refused target_depth)).first (by simp)
  | succ level ih => exact (deeper_costs_fail hi (.ref target_depth ih)).first (by simp)

/-- The reference itself takes one level more. -/
theorem nesting_costs (hn : n < 2 ^ 63) (hlevel : n < level) :
    nesting.Costs definitions i () level (2 * n + 1) () (List.replicate n openingLexeme ++ List.replicate n closingLexeme)
      (.hit (count n)) [] := by
  obtain ⟨level, rfl⟩ : ∃ k, level = k + 1 := ⟨level - 1, by omega⟩
  exact .ref target_depth (depth_costs hi hn (Nat.le_of_lt_succ hlevel) 0)

theorem nesting_costs_fail (level : Nat) (rest : List Lexeme) :
    nesting.Costs definitions i () level level () (List.replicate level openingLexeme) (.fail .recursionLimit) rest := by
  cases level with
  | zero => exact .ref_refused target_depth
  | succ level => exact .ref target_depth (depth_costs_fail hi level rest)

end Reading

/-! ## Printing -/

theorem parentheses_succ (n : Nat) : parentheses (n + 1) = "(" ++ parentheses n ++ ")" := by
  refine String.toList_injective ?_
  simp only [parentheses, String.toList_ofList, String.toList_append, List.replicate_succ, List.cons_append]
  rw [← List.replicate_succ, List.replicate_succ']
  simp

theorem depth_prints {n : Nat} (hn : n < 2 ^ 63) :
    ∃ tree, depth.Prints definitions () (count n) (.hit ((), tree)) ∧ tree.toSource = parentheses n := by
  induction n with
  | zero =>
    have hnone : deeper.Prints definitions () (count 0) .miss := .seq_miss (.map_miss (undo_counter_of_le (by decide)))
    exact ⟨.empty, .second hnone .initial, rfl⟩
  | succ n ih =>
    obtain ⟨tree, htree, htext⟩ := ih (by omega)
    have hinner := Node.Prints.after (b := false) (q := closing)
      (.before (b := false) (q := opening) (.ref target_depth htree))
    refine ⟨_, .first (.seq (.map (undo_counter hn)) hinner), ?_⟩
    rw [Tree.append_empty, Tree.toSource_append, Tree.toSource_append, htext, parentheses_succ]
    rfl

theorem depth_prints_miss {v : Int64} (h : v.toInt < 0) : depth.Prints definitions () (.int v) .miss := by
  have hne : Value.int v ≠ .int 0 := by
    rintro ⟨⟩
    exact absurd h (by decide)
  exact .choice_miss (.seq_miss (.map_miss (undo_counter_of_le (Int.le_of_lt h)))) (.initial_miss hne)

/-! ## Counts and parentheses -/

/-- **Parentheses are counted up to the limit for references exactly, and printed back.** -/
theorem count_parentheses_up_to_limit :
    register.bind Tokenizer.build = .ok lexer ∧ Definitions.empty.define .value "depth" depth = .ok definitions ∧
      (∀ (v : Int64) (n : Nat), v.toInt = n →
        (∀ limits : Limits, 2 * n + 1 ≤ limits.fuel →
          ∃ d, nesting.parseRest ⟨definitions, (), .of lexer (.ofString (parentheses n)), limits.depth⟩ (.start limits) =
              (if n < limits.depth then .ok (.int v) else .error .recursionLimit, d) ∧
            d.depth = 0 ∧ d.fuel + (if n < limits.depth then 2 * n + 1 else limits.depth) = limits.fuel) ∧
        ∀ᶠ budget in atTop, nesting.printSource definitions () budget (.int v) = .ok (parentheses n)) ∧
      ∀ v : Int64, v.toInt < 0 →
        ∀ᶠ budget in atTop, nesting.printSource definitions () budget (.int v) = .error (.notPrintable "depth") := by
  refine ⟨build_register, define_depth, fun v n hv => ?_, fun v hv => ?_⟩
  · obtain ⟨hn, hvalue⟩ := eq_count hv
    rw [hvalue]
    refine ⟨fun limits hfuel => ?_, ?_⟩
    · have hlexing := lexing_parentheses n
      generalize hin : Input.of lexer (.ofString (parentheses n)) = i at *
      have hi : i.WellFormed := hin ▸ Input.wellFormed_of lexer _
      have hdepth := nesting.parseRest_depth hi (s := ⟨definitions, (), i, limits.depth⟩) rfl (.start limits)
      by_cases hlimit : n < limits.depth
      · rw [if_pos hlimit, if_pos hlimit]
        obtain ⟨-, d, hd, hcost⟩ | ⟨hless, -⟩ := (nesting_costs hi hn hlimit).parseRest_eq_ok hi hlexing
        · rw [hd] at hdepth
          exact ⟨d, hd, hdepth, hcost⟩
        · omega
      · rw [if_neg hlimit, if_neg hlimit]
        have hsplit : List.replicate n openingLexeme = List.replicate limits.depth openingLexeme ++
            List.replicate (n - limits.depth) openingLexeme := by
          rw [List.replicate_append_replicate]
          exact congrArg (List.replicate · openingLexeme) (by omega)
        rw [hsplit, List.append_assoc] at hlexing
        obtain ⟨d, hd, hcost⟩ := (nesting_costs_fail hi limits.depth _).parseRest_eq_error hlexing (by omega)
        rw [hd] at hdepth
        exact ⟨d, hd, hdepth, hcost⟩
    · obtain ⟨tree, htree, htext⟩ := depth_prints hn
      exact htext ▸ (Node.Prints.ref target_depth htree).printSource
  · exact (Node.Prints.ref_miss target_depth (depth_prints_miss hv)).printSource_miss

/-- Three pairs with four levels, which is enough, and with three. -/
theorem count_three_pairs :
    let at3 (limits : Limits) := nesting.parseRest ⟨definitions, (), .of lexer (.ofString "((()))"), limits.depth⟩
      (.start limits)
    (∃ d, at3 ⟨7, 4⟩ = (.ok (.int 3), d) ∧ d.depth = 0 ∧ d.fuel = 0) ∧
      (∃ d, at3 ⟨7, 3⟩ = (.error .recursionLimit, d) ∧ d.depth = 0 ∧ d.fuel = 4) ∧
      (∀ᶠ budget in atTop, nesting.printSource definitions () budget (.int 3) = .ok "((()))") ∧
      ∀ᶠ budget in atTop, nesting.printSource definitions () budget (.int (-2)) = .error (.notPrintable "depth") := by
  intro at3
  obtain ⟨-, -, hcount, hnegative⟩ := count_parentheses_up_to_limit
  obtain ⟨hparse, hprint⟩ := hcount 3 3 (by decide)
  obtain ⟨d, hd, hdepth, hfuel⟩ := hparse ⟨7, 4⟩ (by decide)
  obtain ⟨e, he, hdepth', hfuel'⟩ := hparse ⟨7, 3⟩ (by decide)
  exact ⟨⟨d, hd, hdepth, Nat.add_right_cancel hfuel⟩, ⟨e, he, hdepth', Nat.add_right_cancel hfuel'⟩, hprint,
    hnegative (-2) (by decide)⟩

end Nesting
end Ambigram
