import Ambigram.Proofs.Calculator.Spelling
import Ambigram.Proofs.Pieces
/-!
# How expressions are written

An expression is written at a level of the grammar: as it is where it belongs there or further down, and in parentheses
where it does not.  `Written` says which symbols that takes.  They are spelled in words that do not run into each other,
whatever blanks are put around the operators.
-/
namespace Ambigram
namespace Calculator

/-! ## Symbols -/

inductive Symbol
  | number (n : Int64)
  | sign (c : Char)
  /-- Where an operator begins or ends. -/
  | edge
  deriving DecidableEq

def signLexeme (c : Char) : Lexeme := ⟨String.ofList [c], {signToken c}⟩

namespace Symbol

def piece : Symbol → Piece
  | .number n => .text (Decimal.ofInt n.toInt)
  | .sign c => .text (String.ofList [c])
  | .edge => .edge

def lexemes : Symbol → List Lexeme
  | .number n => [⟨Decimal.ofInt n.toInt, {1}⟩]
  | .sign c => [signLexeme c]
  | .edge => []

end Symbol

/-- An operator has edges, and parentheses and the sign of a negation have none. -/
def Op.symbols (op : Op) : List Symbol := [.edge, .sign op.sign, .edge]

/-- At a level, the expression is written in these symbols. -/
inductive Written : Level → Expr → List Symbol → Prop
  | num {n : Int64} {nonneg : 0 ≤ n.toInt} : Written .term (.num n nonneg) [.number n]
  | parens {e : Expr} {ss : List Symbol} (he : e.level ≠ .term) (h : Written (.chain .sum) e ss) :
    Written .term e (.sign '(' :: (ss ++ [.sign ')']))
  | neg {e : Expr} {ss : List Symbol} (h : Written .term e ss) : Written .literal (.neg e) (.sign '-' :: ss)
  /-- The left operand may be a chain of the same operators, and the right one may not. -/
  | bin {op : Op} {l r : Expr} {ss ss' : List Symbol} (hl : Written (.chain op.tier) l ss)
    (hr : Written op.tier.below r ss') : Written (.chain op.tier) (.bin op l r) (ss ++ (op.symbols ++ ss'))
  | lift {level : Level} {e : Expr} {ss : List Symbol} (hlevel : level ≠ .term) (he : e.level ≠ level)
    (h : Written level.below e ss) : Written level e ss

namespace Written

variable {e : Expr} {level : Level}

/-- What is written at its own level is written at every level. -/
theorem exists_of_own (h : ∃ ss, Written e.level e ss) : ∀ level, ∃ ss, Written level e ss := by
  have hlift : ∀ level, level ≠ .term → (∃ ss, Written level.below e ss) → ∃ ss, Written level e ss := by
    rintro level hlevel ⟨ss, hbelow⟩
    by_cases he : e.level = level
    · exact he ▸ h
    · exact ⟨ss, .lift hlevel he hbelow⟩
  have hliteral : (∃ ss, Written .term e ss) → ∃ ss, Written .literal e ss := hlift .literal (by simp)
  have hproduct : (∃ ss, Written .literal e ss) → ∃ ss, Written (.chain .product) e ss :=
    hlift (.chain .product) (by simp)
  have hsum : (∃ ss, Written (.chain .product) e ss) → ∃ ss, Written (.chain .sum) e ss :=
    hlift (.chain .sum) (by simp)
  -- from its own level it goes up to sums, from there into parentheses, and up again
  have htop : ∃ ss, Written (.chain .sum) e ss := by
    cases hown : e.level with
    | term =>
      rw [hown] at h
      exact hsum (hproduct (hliteral h))
    | literal =>
      rw [hown] at h
      exact hsum (hproduct h)
    | chain tier =>
      rw [hown] at h
      cases tier with
      | product => exact hsum h
      | sum => exact h
  have hterm : ∃ ss, Written .term e ss := by
    by_cases he : e.level = .term
    · exact he ▸ h
    · obtain ⟨ss, hss⟩ := htop
      exact ⟨_, .parens he hss⟩
  rintro (_ | _ | ⟨_ | _⟩)
  · exact hterm
  · exact hliteral hterm
  · exact hproduct (hliteral hterm)
  · exact htop

/-- **Every expression can be written at every level.** -/
theorem exists_written : ∀ (e : Expr) (level : Level), ∃ ss, Written level e ss
  | .num _ _ => exists_of_own ⟨_, .num⟩
  | .neg e => by
    obtain ⟨ss, h⟩ := exists_written e .term
    exact exists_of_own ⟨_, .neg h⟩
  | .bin op l r => by
    obtain ⟨ss, hl⟩ := exists_written l (.chain op.tier)
    obtain ⟨ss', hr⟩ := exists_written r op.tier.below
    exact exists_of_own ⟨_, .bin hl hr⟩

end Written

/-! ## Their text -/

theorem mem_signs (op : Op) : op.sign ∈ signs := by
  cases op <;> decide

theorem kind_sign {c : Char} (hc : c ∈ signs) : Kind (signToken c) c := List.getElem?_idxOf hc

namespace Spells

variable {cs ws rest : List Char} {ls : List Lexeme} {c : Char}

theorem cons_sign (hc : c ∈ signs) (h : Spells rest ls) :
    Spells (c :: rest) (signLexeme c :: ls) := by
  have hword : Word (signToken c) [c] := ⟨by simp, by simpa using kind_sign hc, fun _ => rfl⟩
  exact .word (Nat.succ_ne_zero _) hword (fun _ _ _ => Nat.le_add_left _ _) h

/-- A number ends where no digit follows. -/
theorem append_number {n : Nat} (h : Spells rest ls) (hstop : Stops 1 rest) :
    Spells (Decimal.digits n ++ rest) (⟨Decimal.ofNat n, {1}⟩ :: ls) := by
  have hword : Word 1 (Decimal.digits n) := by
    exact ⟨Nat.toDigits_ne_nil, fun c hc => contains_digits_iff.2 (Decimal.isDigit_of_mem_digits hc),
      fun h => absurd h (by decide)⟩
  exact .word (by decide) hword hstop h

end Spells

/-- Behind a number there is a sign, if there is anything; blanks may stand between them. -/
theorem stops_sign {ws rest : List Char} {c : Char} (hws : ∀ d ∈ ws, Kind 0 d) (hc : c ∈ signs) :
    Stops 1 (ws ++ c :: rest) := by
  intro d hd hdigit
  cases ws with
  | nil =>
    cases hd
    have := (kind_sign hc).unique hdigit
    exact absurd this (by simp [signToken])
  | cons b ws =>
    cases hd
    exact absurd ((hws d List.mem_cons_self).unique hdigit) (by decide)

/-- The characters of symbols, with some at the edges. -/
def characters (pad : String) (ss : List Symbol) : List Char := ss.flatMap fun s => (s.piece.padded pad).toList

section Characters

variable (pad : String) (ss ss' : List Symbol) (c : Char)

@[simp] theorem characters_append : characters pad (ss ++ ss') = characters pad ss ++ characters pad ss' :=
  List.flatMap_append

@[simp] theorem characters_sign : characters pad (.sign c :: ss) = c :: characters pad ss := by
  simp [characters, Symbol.piece, Piece.padded]

@[simp] theorem characters_edge : characters pad (.edge :: ss) = pad.toList ++ characters pad ss := rfl

@[simp] theorem characters_nil : characters pad [] = [] := rfl

end Characters

/-- **What is written is spelled in the words of its symbols.** -/
theorem Written.spells {pad : String} (hpad : ∀ c ∈ pad.toList, Kind 0 c) {level : Level} {e : Expr} {ss : List Symbol}
    (h : Written level e ss) : ∀ {rest : List Char} {ls : List Lexeme}, Spells rest ls → Stops 1 rest →
      Spells (characters pad ss ++ rest) (ss.flatMap Symbol.lexemes ++ ls) := by
  induction h with
  | @num n nonneg =>
    intro rest ls hrest hstop
    have htext : characters pad [.number n] = Decimal.digits n.toInt.toNat := by
      simp [characters, Symbol.piece, Piece.padded, Decimal.ofInt_toInt nonneg, Decimal.ofNat]
    rw [htext, List.flatMap_singleton, Symbol.lexemes, Decimal.ofInt_toInt nonneg]
    exact hrest.append_number hstop
  | parens _ _ ih =>
    intro rest ls hrest _
    have hclose : Stops 1 ([] ++ ')' :: rest) := stops_sign (by simp) (by decide)
    have hinner := ih (hrest.cons_sign (c := ')') (by decide)) hclose
    simpa [Symbol.lexemes] using hinner.cons_sign (c := '(') (by decide)
  | neg _ ih =>
    intro rest ls hrest hstop
    simpa [Symbol.lexemes] using (ih hrest hstop).cons_sign (c := '-') (by decide)
  | @bin op l r ss ss' _ _ ihl ihr =>
    intro rest ls hrest hstop
    have hright := ((ihr hrest hstop).append_blanks hpad).cons_sign (mem_signs op)
    have hleft := ihl (hright.append_blanks hpad) (stops_sign hpad (mem_signs op))
    simpa [Op.symbols, Symbol.lexemes] using hleft
  | lift _ _ _ ih => exact ih

end Calculator
end Ambigram
