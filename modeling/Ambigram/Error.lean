import Ambigram.Text.Decimal
/-!
# Errors

The names of tokens, and every way in which building a grammar, parsing or printing can go wrong.  An ordinary
non-match is not among them.  `Error.message` is the one place that words them; `Error.offset?` tells the syntax
errors, which point into the source, from all others.
-/
namespace Ambigram

/-! ## Token identities -/

/-- A token is named by the place at which its pattern was registered, or it is the end of the input, which no pattern
stands for.  A message gives tokens by a number of 32 bits, and the largest one is the end of the input: there is room
for the patterns at all places below it, and a tokenizer is taken to hold no more. -/
inductive TokenId
  | pattern (index : Nat)
  | endOfInput
  deriving DecidableEq

namespace TokenId

/-- The number a message gives for the token. -/
def number : TokenId → Nat
  | .pattern index => index
  | .endOfInput => 4294967295

end TokenId

/-! ## Errors -/

inductive Error
  | invalidPattern (pattern reason : String)
  | build (reason : String)
  | search (reason : String)
  | unknownToken (token : TokenId)
  | fuelExhausted
  | recursionLimit
  /-- The second half of a committing sequence did not match after the first half did. -/
  | unexpectedInput (offset : Nat) (expected : String)
  | noMatch (offset : Nat) (expected : String)
  | trailingInput (offset : Nat)
  | unknownField (type field : String)
  | kindMismatch (type field expected found : String)
  | undefinedRef (name : String)
  | refAlreadyDefined (name : String)
  | notPrintable (printer : String)
  /-- A mapping or a fold was given a value outside its domain. -/
  | invalidValue (reason : String)
  | offsetPastEnd (offset size : Nat)
  | searchPastEnd
  | categoryOutOfRange
  /-- Printing needed more turns than it was given. -/
  | budgetExhausted
  deriving DecidableEq

namespace Error

def message : Error → String
  | .invalidPattern pattern reason => "invalid pattern `" ++ pattern ++ "`: " ++ reason
  | .build reason => "failed to compile lexer: " ++ reason
  | .search reason => "lexer search failed: " ++ reason
  | .unknownToken token =>
    "token TokenId(" ++ Decimal.ofNat token.number ++ ") is not registered with this lexer"
  | .fuelExhausted => "execution limit exceeded"
  | .recursionLimit => "recursion limit exceeded"
  | .unexpectedInput _ expected => "expected " ++ expected
  | .noMatch _ expected => "no match for " ++ expected
  | .trailingInput _ => "unexpected trailing input"
  | .unknownField type field => "type `" ++ type ++ "` has no field `" ++ field ++ "`"
  | .kindMismatch type field expected found =>
    "field `" ++ field ++ "` of `" ++ type ++ "` holds " ++ found ++ ", expected " ++ expected
  | .undefinedRef name => "reference `" ++ name ++ "` is used before it is defined"
  | .refAlreadyDefined name => "reference `" ++ name ++ "` is already defined"
  | .notPrintable printer => "value cannot be printed by " ++ printer
  | .invalidValue reason => "invalid value: " ++ reason
  | .offsetPastEnd offset size =>
    "set_offset: " ++ Decimal.ofNat offset ++ " is past the end of the source ("
      ++ Decimal.ofNat size ++ ")"
  | .searchPastEnd => "search starts past the end of the source"
  | .categoryOutOfRange => "category id out of range"
  | .budgetExhausted => "printing did not finish within its budget"

/-- Where a syntax error points. -/
def offset? : Error → Option Nat
  | .unexpectedInput offset _ | .noMatch offset _ | .trailingInput offset => some offset
  | _ => none

/-- Malformed input, rather than a malformed grammar or value. -/
def isSyntax (e : Error) : Bool := e.offset?.isSome

end Error

theorem bind_eq_ok {ε α β : Type} {x : Except ε α} {f : α → Except ε β} {b : β} :
    x >>= f = .ok b ↔ ∃ a, x = .ok a ∧ f a = .ok b := by
  cases x with
  | error e => exact ⟨nofun, nofun⟩
  | ok a => exact ⟨fun h => ⟨a, rfl, h⟩, fun ⟨_, ha, h⟩ => by cases ha; exact h⟩

end Ambigram
