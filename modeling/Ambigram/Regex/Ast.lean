import Ambigram.Regex
/-!
# Written expressions

The parts of a pattern as it is written, before flags have given them a meaning, and how deeply they
nest.
-/
namespace Ambigram
namespace Regex

/-! ## Faults -/

/-- Why a pattern is not well formed. -/
inductive Flaw
  | unopenedGroup
  | unclosedGroup
  | unclosedClass
  | lookAround
  | backReference
  | groupName
  | duplicateGroupName
  | unknownFlag
  | duplicateFlag
  | danglingNegation
  | missingOperand
  | repetitionCount
  | unfinishedEscape
  | unknownEscape
  | badCodePoint
  | badRange
  | escapeInClass
  | badWordEdge
  | unknownProperty
  | tooDeep
  /-- Characters of all scripts are asked for where only bytes are matched. -/
  | unicodeNotAllowed
  /-- The expression could match a part of a character. -/
  | partialCharacter
  deriving DecidableEq

def Flaw.message : Flaw → String
  | .unopenedGroup => "unopened group"
  | .unclosedGroup => "unclosed group"
  | .unclosedClass => "unclosed character class"
  | .lookAround => "look-around is not supported"
  | .backReference => "backreferences are not supported"
  | .groupName => "invalid capture group name"
  | .duplicateGroupName => "duplicate capture group name"
  | .unknownFlag => "unrecognized flag"
  | .duplicateFlag => "duplicate flag"
  | .danglingNegation => "dangling flag negation operator"
  | .missingOperand => "repetition operator missing expression"
  | .repetitionCount => "invalid repetition count"
  | .unfinishedEscape => "incomplete escape sequence"
  | .unknownEscape => "unrecognized escape sequence"
  | .badCodePoint => "invalid hexadecimal code point"
  | .badRange => "invalid character class range"
  | .escapeInClass => "invalid escape sequence in character class"
  | .badWordEdge => "invalid word boundary"
  | .unknownProperty => "unknown property"
  | .tooDeep => "too many nested parts"
  | .unicodeNotAllowed => "Unicode is not allowed here"
  | .partialCharacter => "pattern can match invalid UTF-8"

/-! ## Parts -/

inductive Flag
  | caseInsensitive | multiLine | dotAll | swapGreed | unicode | crlf | ignoreBlanks
  deriving DecidableEq

/-- Flags with the state they are put in, as written. -/
abbrev FlagChange := List (Flag × Bool)

/-- A character; `byte` if it is written as two hexadecimal digits. -/
structure Literal where
  char : Char
  byte : Bool

inductive Assertion
  | startLine | endLine | startText | endText
  | word (e : WordEdge)

/-- The classes that are named by one letter after a backslash. -/
inductive LetterClass
  | digit | blank | word
  deriving DecidableEq

inductive PropertyQuery
  | alone (name : List Char)
  | valued (name value : List Char)

inductive SetOp
  | inter | diff | symmDiff

/-- What stands between the brackets of a class. -/
inductive SetAst
  | literal (c : Literal)
  | range (first last : Literal)
  | named (ranges : List (Nat × Nat)) (negated : Bool)
  | property (query : PropertyQuery) (negated : Bool)
  | letter (cls : LetterClass) (negated : Bool)
  | bracketed (negated : Bool) (inner : SetAst)
  | union (items : List SetAst)
  | op (kind : SetOp) (left right : SetAst)

inductive Ast
  | empty
  | flags (change : FlagChange)
  | literal (c : Literal)
  | dot
  | assertion (a : Assertion)
  | property (query : PropertyQuery) (negated : Bool)
  | letter (cls : LetterClass) (negated : Bool)
  | bracketed (negated : Bool) (inner : SetAst)
  | times (min : Nat) (max : Option Nat) (x : Ast)
  | group (change : FlagChange) (x : Ast)
  | alternation (branches : List Ast)
  | concat (parts : List Ast)

/-! ## Nesting -/

mutual
def SetAst.height : SetAst → Nat
  | .bracketed _ inner => inner.height + 1
  | .union items => SetAst.heights items + 1
  | .op _ left right => Nat.max left.height right.height + 1
  | _ => 0

def SetAst.heights : List SetAst → Nat
  | [] => 0
  | item :: items => Nat.max item.height (SetAst.heights items)
end

mutual
def Ast.height : Ast → Nat
  | .bracketed _ inner => inner.height + 1
  | .times _ _ x | .group _ x => x.height + 1
  | .alternation branches => Ast.heights branches + 1
  | .concat parts => Ast.heights parts + 1
  | _ => 0

def Ast.heights : List Ast → Nat
  | [] => 0
  | x :: xs => Nat.max x.height (Ast.heights xs)
end

/-- No deeper pattern is accepted. -/
def maxHeight : Nat := 250

/-- Parts in a row; a single part stands for itself. -/
def Ast.ofParts : List Ast → Ast
  | [] => .empty
  | [x] => x
  | xs => .concat xs

/-- Items side by side; a single item stands for itself. -/
def SetAst.ofItems : List SetAst → SetAst
  | [x] => x
  | xs => .union xs

end Regex
end Ambigram
