import Ambigram.Text.Decimal
import Ambigram.Value.Record
/-!
# Values as JSON text

The compact form: no blanks, a record as an object with its type first and then its set fields in
declared order.  A string escapes the quote, the backslash and the control characters below the blank,
five of them by a letter.
-/
namespace Ambigram
namespace Json

def hexDigit (n : Nat) : Char := Nat.digitChar n

def escape (c : Char) : List Char :=
  match c with
  | '"' => ['\\', '"']
  | '\\' => ['\\', '\\']
  | '\x08' => ['\\', 'b']
  | '\x0c' => ['\\', 'f']
  | '\n' => ['\\', 'n']
  | '\r' => ['\\', 'r']
  | '\t' => ['\\', 't']
  | c =>
    if c.toNat < 32 then ['\\', 'u', '0', '0', hexDigit (c.toNat / 16), hexDigit (c.toNat % 16)]
    else [c]

def quote (s : String) : String := "\"" ++ String.ofList (s.toList.flatMap escape) ++ "\""

end Json

namespace Value

mutual
/-- The compact JSON text. -/
def json : Value → String
  | .bool b => if b then "true" else "false"
  | .int n => Decimal.ofInt n.toInt
  | .string s => Json.quote s
  | .list items => "[" ++ jsonItems items ++ "]"
  | .record type slots =>
    "\x7b" ++ Json.quote "type" ++ ":" ++ Json.quote type.name ++ jsonFields type.fields slots ++ "\x7d"

def jsonItems : List Value → String
  | [] => ""
  | [v] => json v
  | v :: w :: rest => json v ++ "," ++ jsonItems (w :: rest)

def jsonFields : List (String × Kind) → List (Option Value) → String
  | (name, _) :: fields, some v :: slots =>
    "," ++ Json.quote name ++ ":" ++ json v ++ jsonFields fields slots
  | _ :: fields, none :: slots => jsonFields fields slots
  | _, _ => ""
end

end Value
end Ambigram
