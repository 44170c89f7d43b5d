import Ambigram.Regex.Reader
/-!
# The meaning of a written expression

A pattern matches text in UTF-8 and never a part of a character.  Flags change what the parts after them
stand for, up to the end of the group; a directive goes on into the branches that follow.  Without the
flag for Unicode, classes hold ASCII characters alone, so there a negated class is refused.
-/
namespace Ambigram
namespace Regex

structure Flags where
  caseInsensitive : Bool := false
  multiLine : Bool := false
  dotAll : Bool := false
  unicode : Bool := true
  crlf : Bool := false

namespace Flags

/-- Which match is preferred does not count here, and blanks have been dealt with by the reader. -/
def set (flags : Flags) : Flag × Bool → Flags
  | (.caseInsensitive, on) => { flags with caseInsensitive := on }
  | (.multiLine, on) => { flags with multiLine := on }
  | (.dotAll, on) => { flags with dotAll := on }
  | (.unicode, on) => { flags with unicode := on }
  | (.crlf, on) => { flags with crlf := on }
  | (.swapGreed, _) | (.ignoreBlanks, _) => flags

def change (flags : Flags) (change : FlagChange) : Flags := change.foldl set flags

end Flags

/-! ## Classes -/

def asciiLetters : LetterClass → List (Nat × Nat)
  | .digit => [(48, 57)]
  | .blank => [(9, 13), (32, 32)]
  | .word => [(48, 57), (65, 90), (95, 95), (97, 122)]

def unicodeLetters : LetterClass → List (Nat × Nat)
  | .digit => Unicode.Property.digits
  | .blank => Unicode.Property.blanks
  | .word => Unicode.Property.wordCharacters

def letterMeaning (flags : Flags) (cls : LetterClass) (negated : Bool) : Except Flaw CharSet :=
  if flags.unicode then
    let s := CharSet.ranges (unicodeLetters cls)
    .ok (if negated then s.compl else s)
  else if negated then .error .partialCharacter
  else .ok (.ranges (asciiLetters cls))

/-- Closes a class under case if that is asked for, and negates it after that. -/
def foldNegate (flags : Flags) (negated : Bool) (s : CharSet) : Except Flaw CharSet :=
  if flags.unicode then
    let s := if flags.caseInsensitive then s.folded else s
    .ok (if negated then s.compl else s)
  else if negated then .error .partialCharacter
  else .ok (if flags.caseInsensitive then s.foldedAscii else s)

def lookUp : PropertyQuery → Option (List (Nat × Nat))
  | .alone name => Unicode.Property.alone? name
  | .valued name value => Unicode.Property.valued? name value

def propertyMeaning (flags : Flags) (query : PropertyQuery) (negated : Bool) : Except Flaw CharSet :=
  if flags.unicode then
    match lookUp query with
    | some rs => foldNegate flags negated (.ranges rs)
    | none => .error .unknownProperty
  else .error .unicodeNotAllowed

/-- A character in a class; without Unicode it must be an ASCII one. -/
def memberMeaning (flags : Flags) (c : Literal) : Except Flaw Char :=
  if flags.unicode || c.char.toNat ≤ 127 then .ok c.char
  else .error (if c.byte then .partialCharacter else .unicodeNotAllowed)

def combine : SetOp → CharSet → CharSet → CharSet
  | .inter => .inter
  | .diff => .diff
  | .symmDiff => .symmDiff

mutual
def SetAst.meaning (flags : Flags) : SetAst → Except Flaw CharSet
  | .literal c => do return .single (← memberMeaning flags c)
  | .range first last => do
    return .ranges [((← memberMeaning flags first).toNat, (← memberMeaning flags last).toNat)]
  | .named rs negated => foldNegate flags negated (.ranges rs)
  | .property query negated => propertyMeaning flags query negated
  | .letter cls negated => letterMeaning flags cls negated
  | .bracketed negated inner => do foldNegate flags negated (← inner.meaning flags)
  | .union items => SetAst.meanings flags items
  | .op kind left right => do
    let left ← foldNegate flags false (← left.meaning flags)
    let right ← foldNegate flags false (← right.meaning flags)
    return combine kind left right

def SetAst.meanings (flags : Flags) : List SetAst → Except Flaw CharSet
  | [] => .ok .none
  | item :: items => do return .union (← item.meaning flags) (← SetAst.meanings flags items)
end

/-! ## Expressions -/

/-- A character outside a class. -/
def literalMeaning (flags : Flags) (c : Literal) : Except Flaw Regex :=
  if flags.unicode then
    let s := CharSet.single c.char
    .ok (.chars (if flags.caseInsensitive then s.folded else s))
  else if c.byte && 127 < c.char.toNat then .error .partialCharacter
  else
    let s := CharSet.single c.char
    .ok (.chars (if flags.caseInsensitive then s.foldedAscii else s))

def lineFeed : CharSet := .single '\n'

/-- Any character, or any that does not end a line. -/
def dotMeaning (flags : Flags) : Except Flaw Regex :=
  if !flags.unicode then .error .partialCharacter
  else if flags.dotAll then .ok (.chars .all)
  else if flags.crlf then .ok (.chars (.compl (.union (.single '\r') lineFeed)))
  else .ok (.chars lineFeed.compl)

def assertionMeaning (flags : Flags) : Assertion → Look
  | .startLine => if flags.multiLine then .lineStart flags.crlf else .textStart
  | .endLine => if flags.multiLine then .lineEnd flags.crlf else .textEnd
  | .startText => .textStart
  | .endText => .textEnd
  | .word e => .word e flags.unicode

mutual
/-- What the part stands for, and the flags that hold after it. -/
def Ast.meaning (flags : Flags) : Ast → Except Flaw (Regex × Flags)
  | .empty => .ok (.empty, flags)
  | .flags change => .ok (.empty, flags.change change)
  | .literal c => do return (← literalMeaning flags c, flags)
  | .dot => do return (← dotMeaning flags, flags)
  | .assertion a => .ok (.look (assertionMeaning flags a), flags)
  | .property query negated => do return (.chars (← propertyMeaning flags query negated), flags)
  | .letter cls negated => do return (.chars (← letterMeaning flags cls negated), flags)
  | .bracketed negated inner => do
    return (.chars (← foldNegate flags negated (← inner.meaning flags)), flags)
  | .times min max x => do
    let (x, flags) ← x.meaning flags
    return (mkTimes min max x, flags)
  | .group change x => do
    let (x, _) ← x.meaning (flags.change change)
    return (x, flags)
  | .alternation branches => Ast.alternatives flags branches
  | .concat parts => Ast.sequence flags parts

def Ast.alternatives (flags : Flags) : List Ast → Except Flaw (Regex × Flags)
  | [] => .ok (.chars .none, flags)
  | [x] => x.meaning flags
  | x :: y :: xs => do
    let (a, flags) ← x.meaning flags
    let (b, flags) ← Ast.alternatives flags (y :: xs)
    return (.alt a b, flags)

def Ast.sequence (flags : Flags) : List Ast → Except Flaw (Regex × Flags)
  | [] => .ok (.empty, flags)
  | x :: xs => do
    let (a, flags) ← x.meaning flags
    let (b, flags) ← Ast.sequence flags xs
    return (.seq a b, flags)
end

/-- The expression that a pattern stands for. -/
def read (pattern : String) : Except Flaw Regex := do
  return (← (← Ast.read pattern).meaning {}).1

end Regex
end Ambigram
