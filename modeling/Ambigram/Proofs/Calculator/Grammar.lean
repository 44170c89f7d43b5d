import Ambigram.Grammar.Node
import Ambigram.Lexer
/-!
# A calculator

Arithmetic over whole numbers, with blanks between the tokens:

    sum     = product (('+' | '-') product)*
    product = literal (('*' | '/') literal)*
    literal = '-' term | term
    term    = [0-9]+ | '(' sum ')'

Operators stand in category 0.  What is read is a value that says how the operations are nested, and parentheses leave
no other trace in it.
-/
namespace Ambigram
namespace Calculator

/-! ## Tokens -/

/-- The signs, each of which is a token. -/
def signs : List Char := ['(', ')', '-', '+', '*', '/']

def signText (c : Char) : Pattern := .text (String.ofList [c])

/-- Registers blanks, which are trivia, then numbers and then the signs. -/
def register : Except Error Tokenizer := do
  let (blank, t) ← Tokenizer.empty.add (.regex "[ \\t\\n]+")
  let t ← t.skip blank
  let (_, t) ← t.add (.regex "[0-9]+")
  signs.foldlM (fun t c => return (← t.add (signText c)).2) t

def blanks : Regex.CharSet := .union (.ranges [(32, 32)]) (.union (.ranges [(9, 9)]) (.union (.ranges [(10, 10)]) .none))

def digits : Regex.CharSet := .ranges [(48, 57)]

def lexer : Lexer where
  patterns := .regex "[ \\t\\n]+" :: .regex "[0-9]+" :: signs.map signText
  regexes := .times 1 none (.chars blanks) :: .times 1 none (.chars digits) :: signs.map fun c => .literal [c]
  skipped := true :: false :: signs.map fun _ => false

/-- **The lexer is made of what is registered.** -/
theorem build_register : (register.bind Tokenizer.build) = .ok lexer := by rfl

/-! ## Expressions -/

inductive Op
  | add
  | sub
  | mul
  | div
  deriving DecidableEq

/-- Numbers are written without a sign. -/
inductive Expr
  | num (n : Int64) (nonneg : 0 ≤ n.toInt)
  | neg (e : Expr)
  | bin (op : Op) (l r : Expr)
  deriving DecidableEq

def Op.sign : Op → Char
  | .add => '+'
  | .sub => '-'
  | .mul => '*'
  | .div => '/'

def Op.text (op : Op) : String := String.ofList [op.sign]

/-- What is made of an expression that was read. -/
def Expr.value : Expr → Value
  | .num n _ => .int n
  | .neg e => .list [.string "neg", e.value]
  | .bin op l r => .list [.string op.text, l.value, r.value]

theorem Op.text_inj {op op' : Op} : op.text = op'.text ↔ op = op' := by
  cases op <;> cases op' <;> decide

theorem Expr.value_injective : ∀ {e e' : Expr}, e.value = e'.value → e = e'
  | .num n _, .num n' _, h => by
    cases h
    rfl
  | .neg e, .neg e', h => by
    simp only [value, Value.list.injEq, List.cons.injEq, and_true, true_and] at h
    rw [value_injective h]
  | .bin op l r, .bin op' l' r', h => by
    simp only [value, Value.list.injEq, Value.string.injEq, List.cons.injEq, and_true, Op.text_inj] at h
    obtain ⟨rfl, hl, hr⟩ := h
    rw [value_injective hl, value_injective hr]
  | .num _ _, .neg _, h | .num _ _, .bin _ _ _, h | .neg _, .num _ _, h | .bin _ _ _, .num _ _, h => by
    simp [value] at h
  | .neg _, .bin _ _ _, h | .bin _ _ _, .neg _, h => by
    simp [value] at h

/-! ## The grammar -/

/-- The token of a sign. -/
def signToken (c : Char) : Nat := signs.idxOf c + 2

def sign (c : Char) : Recognizer := .token (.pattern (signToken c)) false (String.ofList [c])

def infixed : Category := ⟨0, by decide⟩

def num : Parser Unit .value := .scan (.pattern 1) false (some (Pattern.regex "[0-9]+").display) TextMapping.unsigned

def term : Parser Unit .value := .choice num (.after false (.before false (sign '(') (.ref "sum")) (sign ')'))

def negated : Parser Unit .value := .seq false (.before false (sign '-') term) (.map (.tag "neg"))

def literal : Parser Unit .value := .choice negated term

/-- An operator and what stands on its right. -/
def operand (side : Parser Unit .value) (op : Op) : Reducer Unit .value .value :=
  .before false (.annotate infixed (sign op.sign)) (.fold side (.binary op.text))

/-- Operands with one of two operators between them. -/
def chain (side : Parser Unit .value) (op op' : Op) : Parser Unit .value :=
  .seq false side (.rep (.choice (operand side op) (operand side op')))

def product : Parser Unit .value := chain literal .mul .div

def sum : Parser Unit .value := chain product .add .sub

def definitions : Definitions Unit where
  target
    | .value, name => if name = "sum" then some sum else none
    | .list, _ => none

theorem define_sum : Definitions.empty.define .value "sum" sum = .ok definitions := by
  refine congrArg (fun target => Except.ok (Definitions.mk target)) (funext fun t => funext fun name => ?_)
  cases t <;> rfl

/-- The whole grammar. -/
def expression : Parser Unit .value := .ref "sum"

/-! ## Levels

What binds more tightly is further down. -/

/-- The levels that are chains. -/
inductive Tier
  | product
  | sum
  deriving DecidableEq

inductive Level
  | term
  | literal
  | chain (tier : Tier)
  deriving DecidableEq

/-- The level of the operands. -/
def Tier.below : Tier → Level
  | .product => .literal
  | .sum => .chain .product

def Level.below : Level → Level
  | .term | .literal => .term
  | .chain tier => tier.below

def parser : Level → Parser Unit .value
  | .term => term
  | .literal => literal
  | .chain .product => product
  | .chain .sum => sum

theorem target_sum : definitions.target .value "sum" = some (parser (.chain .sum)) := rfl

/-- The operators of a chain, in the order in which they are tried. -/
def Tier.first : Tier → Op
  | .product => .mul
  | .sum => .add

def Tier.second : Tier → Op
  | .product => .div
  | .sum => .sub

def Tier.row (tier : Tier) : Reducer Unit .value .value :=
  .choice (operand (parser tier.below) tier.first) (operand (parser tier.below) tier.second)

theorem parser_chain (tier : Tier) : parser (.chain tier) = .seq false (parser tier.below) (.rep tier.row) := by
  cases tier <;> rfl

def Op.tier : Op → Tier
  | .add | .sub => .sum
  | .mul | .div => .product

theorem Op.eq_first_or_second (op : Op) : op = op.tier.first ∨ op = op.tier.second := by
  cases op <;> decide

theorem Tier.tier_first (tier : Tier) : tier.first.tier = tier := by
  cases tier <;> rfl

theorem Tier.tier_second (tier : Tier) : tier.second.tier = tier := by
  cases tier <;> rfl

theorem Tier.first_ne_second (tier : Tier) : tier.first ≠ tier.second := by
  cases tier <;> decide

/-- The level at which an expression is written without parentheses. -/
def Expr.level : Expr → Level
  | .num _ _ => .term
  | .neg _ => .literal
  | .bin op _ _ => .chain op.tier

end Calculator
end Ambigram
