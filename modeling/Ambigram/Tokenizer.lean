import Ambigram.Error
import Ambigram.Regex.Meaning
/-!
# Registering tokens

Patterns are registered while a grammar is written.  A token is the place of its pattern in the order of
first registration, so registering a pattern again gives the same token, and no later call moves a token.
A pattern that is not well formed is refused and leaves the tokenizer as it was.
-/
namespace Ambigram

inductive Pattern
  /-- Text that stands for itself. -/
  | text (t : String)
  | regex (source : String)
  deriving DecidableEq

namespace Pattern

def display : Pattern → String
  | .text t => "'" ++ t ++ "'"
  | .regex source => "/" ++ source ++ "/"

/-- The regular expression that says the same. -/
def written : Pattern → String
  | .text t => Regex.escape t
  | .regex source => source

def meaning : Pattern → Except Regex.Flaw Regex
  | .text t => .ok (.literal t.toList)
  | .regex source => Regex.read source

/-- What the pattern stands for, or why it is refused. -/
def check (p : Pattern) : Except Error Regex :=
  match p, p.meaning with
  | _, .ok r => .ok r
  | .text t, .error flaw => .error (.invalidPattern t flaw.message)
  | .regex source, .error flaw => .error (.invalidPattern source flaw.message)

end Pattern

/-- The registered patterns, each once, and the tokens marked as trivia. -/
structure Tokenizer where
  patterns : List Pattern
  skipped : List Nat

namespace Tokenizer

def empty : Tokenizer := ⟨[], []⟩

def size (t : Tokenizer) : Nat := t.patterns.length

/-! ## Calls

A call answers or fails, and either way it leaves a tokenizer behind. -/

/-- Registers a pattern, unless it is there already or is not well formed. -/
def register (t : Tokenizer) (p : Pattern) : Except Error TokenId × Tokenizer :=
  match t.patterns.idxOf? p with
  | some i => (.ok (.pattern i), t)
  | none =>
    match p.check with
    | .ok _ => (.ok (.pattern t.size), { t with patterns := t.patterns ++ [p] })
    | .error e => (.error e, t)

/-- Marks a token as trivia, which is consumed in front of every token. -/
def mark (t : Tokenizer) : TokenId → Except Error Unit × Tokenizer
  | .pattern i =>
    if i < t.size then (.ok (), if i ∈ t.skipped then t else { t with skipped := t.skipped ++ [i] })
    else (.error (.unknownToken (.pattern i)), t)
  | .endOfInput => (.error (.unknownToken .endOfInput), t)

/-- The token of a pattern, and the tokenizer that knows it. -/
def add (t : Tokenizer) (p : Pattern) : Except Error (TokenId × Tokenizer) :=
  match t.register p with
  | (.ok id, t') => .ok (id, t')
  | (.error e, _) => .error e

/-- The tokenizer in which a token is trivia. -/
def skip (t : Tokenizer) (id : TokenId) : Except Error Tokenizer :=
  match t.mark id with
  | (.ok (), t') => .ok t'
  | (.error e, _) => .error e

def pattern? (t : Tokenizer) : TokenId → Option Pattern
  | .pattern i => t.patterns[i]?
  | .endOfInput => none

end Tokenizer
end Ambigram
