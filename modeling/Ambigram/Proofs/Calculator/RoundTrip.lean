import Ambigram.Proofs.Calculator.Printing
import Ambigram.Proofs.Calculator.Reading
/-!
# Printing and reading expressions

Every expression can be printed, and what is printed is read as the same expression, with blanks around the operators or
without.  Both directions go by how the expression is written: printing makes the symbols, the text is spelled in their
words, and the parser takes the lexemes.
-/
namespace Ambigram
namespace Calculator

/-- Reading the text gives the expression under all limits that are large enough.  Under any others it gives the
expression as well, or a limit is reported as spent. -/
def ReadsBack (text : String) (e : Expr) : Prop :=
  (∃ enough, ∀ limits : Limits, enough ≤ limits.fuel → enough ≤ limits.depth →
    expression.parseSource definitions () limits (.of lexer (.ofString text)) = .ok e.value) ∧
  ∀ limits : Limits, expression.parseSource definitions () limits (.of lexer (.ofString text)) = .ok e.value ∨
    expression.parseSource definitions () limits (.of lexer (.ofString text)) = .error .fuelExhausted ∨
    expression.parseSource definitions () limits (.of lexer (.ofString text)) = .error .recursionLimit

/-- Whatever blanks a layout puts around the operators, the text is read back. -/
theorem Written.readsBack {e : Expr} {ss : List Symbol} (h : Written (.chain .sum) e ss) {tree : Tree}
    (htree : tree.pieces = ss.map Symbol.piece) {pad : String} (hpad : ∀ c ∈ pad.toList, Kind 0 c) :
    ReadsBack (tree.render (.padded pad) "") e := by
  generalize htext : tree.render (.padded pad) "" = text
  have hcharacters : text.toList = characters pad ss := by
    rw [← htext, Tree.render_padded, htree]
    simp [characters, String.toList_join, List.flatMap_map]
  have hspells : Spells text.toList (ss.flatMap Symbol.lexemes) := by
    simpa [hcharacters] using h.spells hpad .done (stops_nil 1)
  have hlexing : (Input.of lexer (.ofString text)).lexing = ⟨ss.flatMap Symbol.lexemes, true⟩ :=
    lexingFrom_of_spells hspells (Source.reads_ofString text)
  have hi := Input.wellFormed_of lexer text
  have hsum := (h.read hi).comesTo hi (ends_nil _)
  exact Node.ComesTo.parseSource hi (.ref target_sum hsum) hlexing

/-- **What is printed is read as the expression it was printed from.** -/
theorem parse_print_expression : register.bind Tokenizer.build = .ok lexer ∧
    Definitions.empty.define .value "sum" sum = .ok definitions ∧
    ∀ e : Expr, ∃ tree : Tree,
      (∀ᶠ budget in Filter.atTop, expression.printTree definitions () budget e.value = .ok tree) ∧
      (∀ᶠ budget in Filter.atTop, expression.printSource definitions () budget e.value = .ok (tree.render .plain "")) ∧
      ReadsBack (tree.render .plain "") e ∧ ReadsBack (tree.render .spaced "") e ∧
      ∀ e' : Expr, e'.value = e.value → e' = e := by
  refine ⟨build_register, define_sum, fun e => ?_⟩
  obtain ⟨ss, hwritten⟩ := Written.exists_written e (.chain .sum)
  obtain ⟨tree, hprints, hpieces⟩ := hwritten.printed.prints
  have hexpression : expression.Prints definitions () e.value (.hit ((), tree)) := .ref target_sum hprints
  have hprint : ∀ᶠ budget in Filter.atTop, expression.printTree definitions () budget e.value = .ok tree := by
    filter_upwards [hexpression] with budget h
    rw [Node.printTree, h]
  refine ⟨tree, hprint, ?_, ?_, ?_, fun _ => Expr.value_injective⟩
  · filter_upwards [hprint] with budget h
    rw [Node.printSource, h]
    rfl
  · rw [Layout.plain_eq]
    exact hwritten.readsBack hpieces (by simp)
  · rw [Layout.spaced_eq]
    exact hwritten.readsBack hpieces (by simp [Kind, contains_blanks])

/-- The sign of a negation stands next to an operator, and subtraction is read from the left. -/
example :
    let one : Expr := .num 1 (by decide)
    let two : Expr := .num 2 (by decide)
    expression.printSource definitions () 5 (Expr.bin .sub (.neg one) (.bin .sub two (.neg (.bin .add one two)))).value =
      .ok "-1-(2--(1+2))" := by
  decide +kernel

end Calculator
end Ambigram
