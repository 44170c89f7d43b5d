import Ambigram.Proofs.Calculator.Writing
import Ambigram.Proofs.Inversion
import Ambigram.Proofs.Misses
/-!
# Printing expressions

What is printed is what is written.  Printing comes down through the levels.  A chain is peeled for as long as the value
is an operation of its own, a level to which the expression does not belong has nothing to take off, and what belongs
above a term goes into parentheses.
-/
namespace Ambigram
namespace Calculator

open Node (Prints PrintsRow)

/-! ## What a part cannot have made -/

theorem operand_miss {e : Expr} {op : Op} (side : Parser Unit .value) (he : ∀ l r, e ≠ .bin op l r) :
    (operand side op).Prints definitions () e.value .miss := by
  refine .before_miss (.fold_miss ?_)
  cases e with
  | num _ _ | neg _ => rfl
  | bin op' l r =>
    have hop : op'.text ≠ op.text := fun h => he l r (by rw [Op.text_inj.1 h])
    exact if_neg hop

theorem row_miss {e : Expr} {tier : Tier} (he : e.level ≠ .chain tier) :
    tier.row.Prints definitions () e.value .miss := by
  have hfirst : ∀ l r, e ≠ .bin tier.first l r := by
    rintro l r rfl
    exact he (congrArg Level.chain tier.tier_first)
  have hsecond : ∀ l r, e ≠ .bin tier.second l r := by
    rintro l r rfl
    exact he (congrArg Level.chain tier.tier_second)
  exact .choice_miss (operand_miss _ hfirst) (operand_miss _ hsecond)

theorem negated_miss {e : Expr} (he : e.level ≠ .literal) : negated.Prints definitions () e.value .miss := by
  refine .seq_miss (.map_miss ?_)
  cases e with
  | num _ _ | bin _ _ _ => rfl
  | neg e => exact absurd rfl he

theorem num_miss {e : Expr} (he : e.level ≠ .term) : num.Prints definitions () e.value .miss := by
  refine .scan_miss ?_
  cases e with
  | num _ _ => exact absurd rfl he
  | neg _ | bin _ _ _ => rfl

/-! ## What is printed -/

theorem print_sign (c : Char) : (sign c).print = .text (String.ofList [c]) := if_neg (by simp)

theorem pieces_operator (op : Op) : ((sign op.sign).print.annotate infixed).pieces = op.symbols.map Symbol.piece := by
  rw [Tree.pieces_annotate rfl, print_sign]
  rfl

/-- An operation comes apart at its operator. -/
theorem row_prints {op : Op} {l r : Expr} {tree : Tree}
    (h : (parser op.tier.below).Prints definitions () r.value (.hit ((), tree))) :
    op.tier.row.Prints definitions () (Expr.bin op l r).value
      (.hit (l.value, ((sign op.sign).print.annotate infixed).append tree)) := by
  have hoperand : (operand (parser op.tier.below) op).Prints definitions () (Expr.bin op l r).value
      (.hit (l.value, ((sign op.sign).print.annotate infixed).append tree)) :=
    .before (.fold (if_pos rfl) (if_pos rfl) h)
  unfold Tier.row
  obtain hop | hop := op.eq_first_or_second
  · rw [← hop]
    exact .first hoperand
  · have hother : ∀ l' r', Expr.bin op l r ≠ .bin op.tier.first l' r' := by
      intro l' r' h
      exact op.tier.first_ne_second ((Expr.bin.inj h).1.symm.trans hop)
    rw [← hop]
    exact .second (operand_miss _ hother) hoperand

/-- Printing the expression at the level gives these symbols.  At a chain that is told by its first operand, which does
not belong there, and the operations in a row. -/
def Printed : Level → Expr → List Symbol → Prop
  | .chain tier, e, ss => ∃ (front : Expr) (tree : Tree) (ts : List Tree), front.level ≠ .chain tier ∧
    (parser tier.below).Prints definitions () front.value (.hit ((), tree)) ∧
    tier.row.PrintsRow definitions () front.value ts e.value ∧ tree.pieces ++ ts.flatMap Tree.pieces = ss.map Symbol.piece
  | level, e, ss => ∃ tree : Tree, (parser level).Prints definitions () e.value (.hit ((), tree)) ∧
    tree.pieces = ss.map Symbol.piece

theorem Printed.prints : ∀ {level : Level} {e : Expr} {ss : List Symbol}, Printed level e ss →
    ∃ tree : Tree, (parser level).Prints definitions () e.value (.hit ((), tree)) ∧ tree.pieces = ss.map Symbol.piece
  | .term, _, _, h | .literal, _, _, h => h
  | .chain tier, _, _, ⟨front, tree, ts, hfront, hprints, hrow, hpieces⟩ => by
    refine ⟨tree.append (.concat ts), ?_, by simpa using hpieces⟩
    rw [parser_chain]
    exact .seq (.rep hrow (row_miss hfront)) hprints

/-- **An expression is printed as it is written.** -/
theorem Written.printed {level : Level} {e : Expr} {ss : List Symbol} (h : Written level e ss) : Printed level e ss := by
  induction h with
  | @num n nonneg =>
    have hundo : (TextMapping.unsigned : Mapping Unit _ _).undo () (.int n) = .hit (Decimal.ofInt n.toInt) :=
      if_pos nonneg
    exact ⟨.text (Decimal.ofInt n.toInt), .first (.scan hundo), rfl⟩
  | parens he _ ih =>
    obtain ⟨tree, hprints, hpieces⟩ := ih.prints
    refine ⟨_, .second (num_miss he) (.after (.before (.ref target_sum hprints))), ?_⟩
    simp [print_sign, hpieces, Symbol.piece]
  | @neg e ss _ ih =>
    obtain ⟨tree, hprints, hpieces⟩ := ih.prints
    have hundo : (Mapping.tag "neg" : Mapping Unit _ _).undo () e.neg.value = .hit e.value := by
      simp [Mapping.tag, Expr.value]
    refine ⟨_, .first (.seq (.map hundo) (.before hprints)), ?_⟩
    simp [print_sign, hpieces, Symbol.piece]
  | @bin op l r ss ss' _ _ ihl ihr =>
    obtain ⟨front, tree, ts, hfront, hprints, hrow, hpieces⟩ := ihl
    obtain ⟨tree', hprints', hpieces'⟩ := ihr.prints
    refine ⟨front, tree, ts ++ [_], hfront, hprints, hrow.append (.cons (row_prints hprints') (.nil _)), ?_⟩
    simp [← hpieces, hpieces', pieces_operator]
  | @lift level e ss hlevel he _ ih =>
    obtain ⟨tree, hprints, hpieces⟩ := ih.prints
    cases level with
    | term => exact absurd rfl hlevel
    | literal => exact ⟨tree, .second (negated_miss he) hprints, hpieces⟩
    | chain tier => exact ⟨e, tree, [], he, hprints, .nil _, by simpa using hpieces⟩

end Calculator
end Ambigram
