import Ambigram.Proofs.Calculator.Writing
import Ambigram.Proofs.Taking
/-!
# Reading expressions

What is written is read.  At each level the parser takes the symbols of the expression and stops where what comes next
is no operator that the level would go on with.  A chain takes its operations from left to right, and they come out as
they were nested.
-/
namespace Ambigram

namespace Calculator

variable {i : Input}

/-! ## Where levels end -/

theorem signToken_inj {c c' : Char} (hc : c ∈ signs) (hc' : c' ∈ signs) : signToken c = signToken c' ↔ c = c' := by
  refine ⟨fun h => ?_, congrArg signToken⟩
  have hkind : Kind (signToken c') c := h ▸ kind_sign hc
  exact Option.some.inj (hkind.symm.trans (kind_sign hc'))

theorem Op.sign_inj {op op' : Op} : op.sign = op'.sign ↔ op = op' := by
  cases op <;> cases op' <;> decide

theorem notNext_cons {k k' : Nat} {text : String} {rest : List Lexeme} (h : k ≠ k') :
    NotNext k (⟨text, {k'}⟩ :: rest) := by
  intro l hl
  cases hl
  simpa using h

theorem notNext_sign {c c' : Char} {rest : List Lexeme} (hc : c ∈ signs) (hc' : c' ∈ signs) (h : c ≠ c') :
    NotNext (signToken c) (signLexeme c' :: rest) :=
  notNext_cons fun heq => h ((signToken_inj hc hc').1 heq)

/-- The operators with which a level goes on. -/
def Op.Within (op : Op) : Level → Prop
  | .term | .literal => False
  | .chain .product => op.tier = .product
  | .chain .sum => True

/-- What comes next is no operator with which the level goes on. -/
def Ends (level : Level) (rest : List Lexeme) : Prop := ∀ op : Op, op.Within level → NotNext (signToken op.sign) rest

theorem Op.within_tier (op : Op) : op.Within (.chain op.tier) := by
  cases op <;> trivial

theorem Op.not_within_below (op : Op) : ¬ op.Within op.tier.below := by
  cases op <;> simp [Within, Op.tier, Tier.below]

theorem Ends.below {tier : Tier} {rest : List Lexeme} (h : Ends (.chain tier) rest) : Ends tier.below rest := by
  intro op hop
  cases tier with
  | product => exact absurd hop id
  | sum => exact h op trivial

theorem ends_sign {level : Level} {c : Char} {rest : List Lexeme} (hc : c ∈ signs)
    (h : ∀ op : Op, op.Within level → op.sign ≠ c) : Ends level (signLexeme c :: rest) :=
  fun op hop => notNext_sign (mem_signs op) hc (h op hop)

/-- An operator ends its operands. -/
theorem ends_operator (op : Op) (rest : List Lexeme) : Ends op.tier.below (signLexeme op.sign :: rest) := by
  refine ends_sign (mem_signs op) fun op' hop' h => ?_
  cases Op.sign_inj.1 h
  exact op.not_within_below hop'

theorem ends_close (level : Level) (rest : List Lexeme) : Ends level (signLexeme ')' :: rest) := by
  refine ends_sign (by decide) fun op _ => ?_
  cases op <;> decide

theorem ends_nil (level : Level) : Ends level [] := by
  simp [Ends, NotNext]

/-! ## What is read -/

/-- Reading the symbols at the level gives the expression.  A chain is told by the value of its first operand and by
the operations in a row, for which only the last operand has to end. -/
def Read (i : Input) : Level → Expr → List Symbol → Prop
  | .chain tier, e, ss => ∀ rest, Ends tier.below rest → ∃ left ls ls', ss.flatMap Symbol.lexemes = ls ++ ls' ∧
    (parser tier.below).ComesTo definitions i () () ls (.hit left) (ls' ++ rest) ∧
    tier.row.Row definitions i () rest left ls' e.value
  | level, e, ss => ∀ rest,
    (parser level).ComesTo definitions i () () (ss.flatMap Symbol.lexemes) (.hit e.value) rest

section WellFormed

variable (hi : i.WellFormed)
include hi

theorem sign_takes (c : Char) (rest : List Lexeme) : (sign c).ComesTo i [signLexeme c] (.hit ()) rest :=
  .token hi (Finset.mem_singleton_self _)

theorem operand_declines {side : Parser Unit .value} {op : Op} {left : Value} {rest : List Lexeme}
    (h : NotNext (signToken op.sign) rest) : (operand side op).ComesTo definitions i () left [] .miss rest :=
  .before_miss (Recognizer.ComesTo.token_miss hi h).annotate

/-- An operation takes its operator and its right operand. -/
theorem row_takes {op : Op} {l r : Expr} {ls rest : List Lexeme}
    (h : (parser op.tier.below).ComesTo definitions i () () ls (.hit r.value) rest) :
    op.tier.row.ComesTo definitions i () l.value (signLexeme op.sign :: ls)
      (.hit (Expr.bin op l r).value) rest := by
  have hoperand : (operand (parser op.tier.below) op).ComesTo definitions i () l.value
      (signLexeme op.sign :: ls) (.hit (Expr.bin op l r).value) rest :=
    .before (sign_takes hi op.sign _).annotate (.fold h rfl)
  unfold Tier.row
  obtain hop | hop := op.eq_first_or_second
  · rw [← hop]
    exact .first hoperand
  · have hother : op.tier.first.sign ≠ op.sign := fun h => op.tier.first_ne_second ((Op.sign_inj.1 h).trans hop)
    rw [← hop]
    exact .second (operand_declines hi (notNext_sign (mem_signs _) (mem_signs op) hother)) hoperand

theorem Read.comesTo : ∀ {level : Level} {e : Expr} {ss : List Symbol} {rest : List Lexeme}, Read i level e ss →
    Ends level rest → (parser level).ComesTo definitions i () () (ss.flatMap Symbol.lexemes) (.hit e.value) rest
  | .term, _, _, rest, h, _ | .literal, _, _, rest, h, _ => h rest
  | .chain tier, _, _, rest, h, hends => by
    obtain ⟨left, ls, ls', hlexemes, hfront, hrow⟩ := h rest hends.below
    have hstop : ∀ op : Op, op.tier = tier → NotNext (signToken op.sign) rest := by
      rintro op rfl
      exact hends op op.within_tier
    rw [parser_chain, hlexemes]
    refine .seq hfront (hrow.comesTo hi (.second ?_ ?_))
    · exact operand_declines hi (hstop _ tier.tier_first)
    · exact operand_declines hi (hstop _ tier.tier_second)

/-- A term does not begin with the sign of a negation. -/
theorem negated_declines {e : Expr} {ss : List Symbol} (h : Written .term e ss) (rest : List Lexeme) :
    negated.ComesTo definitions i () () [] .miss (ss.flatMap Symbol.lexemes ++ rest) := by
  refine .seq_miss (.before_miss (.token_miss hi ?_))
  cases h with
  | num => exact notNext_cons (by decide)
  | parens _ _ => exact notNext_sign (by decide) (by decide) (by decide)
  | lift hlevel _ _ => exact absurd rfl hlevel

/-- **An expression is read as it is written.** -/
theorem Written.read {level : Level} {e : Expr} {ss : List Symbol} (h : Written level e ss) : Read i level e ss := by
  induction h with
  | @num n _ =>
    intro rest
    exact .first (.scan hi (by simp) (TextMapping.apply_unsigned () n))
  | @parens e ss _ _ ih =>
    intro rest
    have hsum : (Node.ref "sum").ComesTo definitions i () () (ss.flatMap Symbol.lexemes) (.hit e.value)
        (signLexeme ')' :: rest) := .ref target_sum (ih.comesTo hi (ends_close _ rest))
    have hterm : term.ComesTo definitions i () () ((signLexeme '(' :: ss.flatMap Symbol.lexemes) ++ [signLexeme ')'])
        (.hit e.value) rest :=
      .second (.scan_miss hi (notNext_cons (by decide)))
        (.after (.before (sign_takes hi '(' _) hsum) (sign_takes hi ')' rest))
    simpa [parser, Symbol.lexemes] using hterm
  | @neg e ss _ ih =>
    intro rest
    have hterm : (Node.before false (sign '-') term).ComesTo definitions i () ()
        (signLexeme '-' :: ss.flatMap Symbol.lexemes) (.hit e.value) ([] ++ rest) :=
      .before (sign_takes hi '-' _) (ih rest)
    have hnegated : negated.ComesTo definitions i () () ((signLexeme '-' :: ss.flatMap Symbol.lexemes) ++ [])
        (.hit e.neg.value) rest := .seq hterm (.map rfl)
    rw [List.append_nil] at hnegated
    exact .first hnegated
  | @bin op l r ss ss' _ _ ihl ihr =>
    intro rest hends
    -- the operator ends the left operand, and then the row is longer by one operation
    obtain ⟨left, ls, ls', hlexemes, hfront, hrow⟩ := ihl _ (ends_operator op (ss'.flatMap Symbol.lexemes ++ rest))
    have hlast : op.tier.row.Row definitions i () rest l.value (signLexeme op.sign :: ss'.flatMap Symbol.lexemes)
        (Expr.bin op l r).value := .single (List.cons_ne_nil _ _) (row_takes hi (ihr.comesTo hi hends))
    refine ⟨left, ls, _, ?_, ?_, hrow.append hlast⟩
    · simp [Op.symbols, Symbol.lexemes, hlexemes]
    · simpa using hfront
  | @lift level e ss hlevel he hbelow ih =>
    cases level with
    | term => exact absurd rfl hlevel
    | literal => exact fun rest => .second (negated_declines hi hbelow rest) (ih rest)
    | chain tier =>
      exact fun rest hends => ⟨e.value, _, [], (List.append_nil _).symm, ih.comesTo hi hends, .nil _⟩

end WellFormed
end Calculator
end Ambigram
