import Ambigram.Regex.Ast
/-!
# Reading patterns

From the text of a pattern to its parts.  Groups and classes are read with a stack of what is open
around the current place.  With `free`, blanks do not count and a comment runs from a number sign to
the end of its line.

Each reader takes the characters that are left and returns what it read with the characters after it.
Loops that may skip blanks carry the number of characters left as fuel; each turn takes one at least.
-/
namespace Ambigram
namespace Regex
namespace Reader

open Unicode (Property.isBlank Property.isAlphabetic Property.isAlphanumeric)

/-! ## Blanks and comments -/

mutual
def skipBlanks : List Char → List Char
  | [] => []
  | c :: cs =>
    if Property.isBlank c then skipBlanks cs else if c = '#' then skipComment cs else c :: cs

def skipComment : List Char → List Char
  | [] => []
  | c :: cs => if c = '\n' then skipBlanks cs else skipComment cs
end

/-- To the next character that counts. -/
def skip (free : Bool) (cs : List Char) : List Char := if free then skipBlanks cs else cs

/-- Characters up to a closing brace, with what comes after it; none if it is missing. -/
def untilBrace (free : Bool) : Nat → List Char → Option (List Char × List Char)
  | _, [] => none
  | _, '}' :: cs => some ([], cs)
  | 0, _ => none
  | fuel + 1, c :: cs => (untilBrace free fuel (skip free cs)).map fun (name, rest) => (c :: name, rest)

/-! ## Numbers -/

def hexValue? (c : Char) : Option Nat :=
  if c.isDigit then some (c.toNat - '0'.toNat)
  else if 'a' ≤ c ∧ c ≤ 'f' then some (c.toNat - 'a'.toNat + 10)
  else if 'A' ≤ c ∧ c ≤ 'F' then some (c.toNat - 'A'.toNat + 10)
  else none

def codePoint (n : Nat) : Except Flaw Char :=
  if n.isValidChar then .ok (Char.ofNat n) else .error .badCodePoint

/-- So many hexadecimal digits. -/
def hexDigits (free : Bool) : Nat → Nat → List Char → Except Flaw (Nat × List Char)
  | 0, value, cs => .ok (value, cs)
  | _ + 1, _, [] => .error .unfinishedEscape
  | n + 1, value, c :: cs =>
    match hexValue? c with
    | some d => hexDigits free n (value * 16 + d) (skip free cs)
    | none => .error .badCodePoint

/-- A code point after one of the letters that announce it, in braces or with a fixed width. -/
def readHex (free : Bool) (kind : Char) (cs : List Char) : Except Flaw (Literal × List Char) :=
  match skip free cs with
  | [] => .error .unfinishedEscape
  | '{' :: cs => do
    match untilBrace free cs.length (skip free cs) with
    | none => throw .unfinishedEscape
    | some (digits, rest) =>
      if digits.isEmpty then throw .badCodePoint
      let (n, _) ← hexDigits false digits.length 0 digits
      return (⟨← codePoint n, false⟩, skip free rest)
  | cs => do
    let width := if kind = 'x' then 2 else if kind = 'u' then 4 else 8
    let (n, rest) ← hexDigits free width 0 cs
    return (⟨← codePoint n, kind = 'x'⟩, rest)

def decimalDigits (free : Bool) : Nat → List Char → List Char × List Char
  | fuel + 1, c :: cs =>
    if c.isDigit then
      let (ds, rest) := decimalDigits free fuel (skip free cs)
      (c :: ds, rest)
    else ([], c :: cs)
  | _, cs => ([], cs)

/-- A number of 32 bits with blanks around it. -/
def readDecimal (free : Bool) (cs : List Char) : Except Flaw (Nat × List Char) :=
  let cs := cs.dropWhile Property.isBlank
  let (ds, rest) := decimalDigits free cs.length cs
  let rest := if free then skipBlanks rest else rest.dropWhile Property.isBlank
  let n := Nat.ofDigitChars 10 ds 0
  if ds.isEmpty || 4294967295 < n then .error .repetitionCount else .ok (n, rest)

/-! ## Escapes -/

/-- One character, class or condition. -/
inductive Atom
  | literal (c : Literal)
  | dot
  | assertion (a : Assertion)
  | property (query : PropertyQuery) (negated : Bool)
  | letter (cls : LetterClass) (negated : Bool)

/-- Characters with a meaning of their own, which a backslash takes away. -/
def isMeta (c : Char) : Bool := c ∈ ['\\', '.', '+', '*', '?', '(', ')', '|', '[', ']', '\x7b', '\x7d', '^',
  '$', '#', '&', '-', '~']

/-- Characters that may be escaped for no reason. -/
def isIdle (c : Char) : Bool := c.toNat ≤ 127 && !c.isAlphanum && c ≠ '<' && c ≠ '>'

/-- Splits at the first place where the text occurs. -/
def splitAt? (text : List Char) : List Char → Option (List Char × List Char)
  | [] => none
  | c :: cs =>
    if text.isPrefixOf (c :: cs) then some ([], (c :: cs).drop text.length)
    else (splitAt? text cs).map fun (before, after) => (c :: before, after)

def queryOf (name : List Char) : PropertyQuery :=
  match splitAt? ['!', '='] name with
  | some (n, v) => .valued n v
  | none =>
    match splitAt? [':'] name with
    | some (n, v) => .valued n v
    | none =>
      match splitAt? ['='] name with
      | some (n, v) => .valued n v
      | none => .alone name

/-- The name of a property: one letter, or anything in braces. -/
def readProperty (free : Bool) (cs : List Char) : Except Flaw (PropertyQuery × List Char) :=
  match skip free cs with
  | [] => .error .unfinishedEscape
  | '{' :: cs =>
    match untilBrace free cs.length (skip free cs) with
    | none => .error .unfinishedEscape
    | some (name, rest) => .ok (queryOf name, rest)
  | c :: cs => if c = '\\' then .error .unknownProperty else .ok (.alone [c], skip free cs)

def isEdgeLetter (c : Char) : Bool := c.isAlpha || c = '-'

def edgeName (free : Bool) : Nat → List Char → List Char × List Char
  | fuel + 1, c :: cs =>
    if isEdgeLetter c then
      let (name, rest) := edgeName free fuel (skip free cs)
      (c :: name, rest)
    else ([], c :: cs)
  | _, cs => ([], cs)

/-- A word edge, whose kind may follow in braces.  Braces that hold something else repeat it. -/
def readEdge (free : Bool) (cs : List Char) : Except Flaw (WordEdge × List Char) :=
  match cs with
  | '{' :: inner =>
    match skip free inner with
    | [] => .error .badWordEdge
    | c :: _ =>
      if isEdgeLetter c then
        match edgeName free inner.length (skip free inner) with
        | (name, '}' :: rest) =>
          if name = "start".toList then .ok (.start, rest)
          else if name = "end".toList then .ok (.stop, rest)
          else if name = "start-half".toList then .ok (.startHalf, rest)
          else if name = "end-half".toList then .ok (.stopHalf, rest)
          else .error .badWordEdge
        | _ => .error .badWordEdge
      else .ok (.edge, cs)
  | _ => .ok (.edge, cs)

/-- What follows a backslash. -/
def readEscape (free : Bool) : List Char → Except Flaw (Atom × List Char)
  | [] => .error .unfinishedEscape
  | c :: cs =>
    let plain (c : Char) : Except Flaw (Atom × List Char) := .ok (.literal ⟨c, false⟩, cs)
    let assertion (a : Assertion) : Except Flaw (Atom × List Char) := .ok (.assertion a, cs)
    let letter (cls : LetterClass) (negated : Bool) : Except Flaw (Atom × List Char) :=
      .ok (.letter cls negated, cs)
    match c with
    | 'x' | 'u' | 'U' => do
      let (lit, rest) ← readHex free c cs
      return (.literal lit, rest)
    | 'p' | 'P' => do
      let (query, rest) ← readProperty free cs
      return (.property query (c = 'P'), rest)
    | 'd' => letter .digit false
    | 'D' => letter .digit true
    | 's' => letter .blank false
    | 'S' => letter .blank true
    | 'w' => letter .word false
    | 'W' => letter .word true
    | 'a' => plain '\x07'
    | 'f' => plain '\x0c'
    | 't' => plain '\t'
    | 'n' => plain '\n'
    | 'r' => plain '\r'
    | 'v' => plain '\x0b'
    | 'A' => assertion .startText
    | 'z' => assertion .endText
    | 'b' => do
      let (e, rest) ← readEdge free cs
      return (.assertion (.word e), rest)
    | 'B' => assertion (.word .noEdge)
    | '<' => assertion (.word .start)
    | '>' => assertion (.word .stop)
    | c =>
      if c.isDigit then .error .backReference
      else if isMeta c || isIdle c then plain c
      else .error .unknownEscape

/-! ## Classes -/

/-- What is open around the current place in a class. -/
inductive ClassFrame
  | opened (items : List SetAst) (negated : Bool)
  | pending (kind : SetOp) (left : SetAst)

/-- The classes that are named between colons. -/
def namedClasses : List (String × List (Nat × Nat)) := [
  ("alnum", [(48, 57), (65, 90), (97, 122)]),
  ("alpha", [(65, 90), (97, 122)]),
  ("ascii", [(0, 127)]),
  ("blank", [(9, 9), (32, 32)]),
  ("cntrl", [(0, 31), (127, 127)]),
  ("digit", [(48, 57)]),
  ("graph", [(33, 126)]),
  ("lower", [(97, 122)]),
  ("print", [(32, 126)]),
  ("punct", [(33, 47), (58, 64), (91, 96), (123, 126)]),
  ("space", [(9, 13), (32, 32)]),
  ("upper", [(65, 90)]),
  ("word", [(48, 57), (65, 90), (95, 95), (97, 122)]),
  ("xdigit", [(48, 57), (65, 70), (97, 102)])]

/-- A class named between colons, after the opening bracket.  Anything else is left to be read as an
ordinary class. -/
def readNamed? (cs : List Char) : Option (SetAst × List Char) :=
  match cs with
  | ':' :: cs =>
    let (negated, cs) := match cs with
      | '^' :: rest => (true, rest)
      | _ => (false, cs)
    let name := cs.takeWhile (· ≠ ':')
    match cs.drop name.length with
    | ':' :: ']' :: rest =>
      (namedClasses.find? fun n => n.1.toList = name).map fun n => (.named n.2 negated, rest)
    | _ => none
  | _ => none

def minusSigns (free : Bool) : Nat → List Char → List SetAst × List Char
  | fuel + 1, '-' :: cs =>
    let (items, rest) := minusSigns free fuel (skip free cs)
    (.literal ⟨'-', false⟩ :: items, rest)
  | _, cs => ([], cs)

/-- After an opening bracket: whether the class is negated, and the minus signs or the closing bracket
that stand for themselves at its start.  Items are in reverse. -/
def openClass (free : Bool) (cs : List Char) : Except Flaw ((Bool × List SetAst) × List Char) :=
  let cs := skip free cs
  let (negated, cs) := match cs with
    | '^' :: rest => (true, skip free rest)
    | _ => (false, cs)
  let (items, cs) := minusSigns free cs.length cs
  let (items, cs) := match items, cs with
    | [], ']' :: rest => ([SetAst.literal ⟨']', false⟩], skip free rest)
    | _, _ => (items, cs)
  if cs.isEmpty then .error .unclosedClass else .ok ((negated, items), cs)

def readSetAtom (free : Bool) : List Char → Except Flaw (Atom × List Char)
  | [] => .error .unclosedClass
  | '\\' :: cs => readEscape free cs
  | c :: cs => .ok (.literal ⟨c, false⟩, cs)

def atomItem : Atom → Except Flaw SetAst
  | .literal c => .ok (.literal c)
  | .property query negated => .ok (.property query negated)
  | .letter cls negated => .ok (.letter cls negated)
  | .dot | .assertion _ => .error .escapeInClass

def atomLiteral : Atom → Except Flaw Literal
  | .literal c => .ok c
  | _ => .error .badRange

/-- An item or a range.  A minus sign before the closing bracket or before another one makes no
range. -/
def readItem (free : Bool) (cs : List Char) : Except Flaw (SetAst × List Char) := do
  let (first, rest) ← readSetAtom free cs
  match skip free rest with
  | [] => throw .unclosedClass
  | '-' :: after =>
    match skip free after with
    | ']' :: _ | '-' :: _ => return (← atomItem first, '-' :: after)
    | [] => throw .unclosedClass
    | after => do
      let (last, rest) ← readSetAtom free after
      let first ← atomLiteral first
      let last ← atomLiteral last
      if last.char < first.char then throw .badRange
      return (.range first last, rest)
  | rest => return (← atomItem first, rest)

/-- Ends an operand: joins it to the operation that waits for it. -/
def closeOperand (stack : List ClassFrame) (operand : SetAst) : List ClassFrame × SetAst :=
  match stack with
  | .pending kind left :: stack => (stack, .op kind left operand)
  | _ => (stack, operand)

def startOperation (kind : SetOp) (stack : List ClassFrame) (items : List SetAst) : List ClassFrame :=
  let (stack, left) := closeOperand stack (.ofItems items.reverse)
  .pending kind left :: stack

/-- Reads on in a class; `items` are those of the innermost one so far, in reverse. -/
def readClassFrom (free : Bool) :
    Nat → List ClassFrame → List SetAst → List Char → Except Flaw (Ast × List Char)
  | 0, _, _, _ => .error .unclosedClass
  | fuel + 1, stack, items, cs =>
    match skip free cs with
    | [] => .error .unclosedClass
    | '[' :: rest =>
      match readNamed? rest with
      | some (item, rest) => readClassFrom free fuel stack (item :: items) rest
      | none => do
        let ((negated, inner), rest) ← openClass free rest
        readClassFrom free fuel (.opened items negated :: stack) inner rest
    | ']' :: rest =>
      match closeOperand stack (.ofItems items.reverse) with
      | ([.opened _ negated], inner) => .ok (.bracketed negated inner, rest)
      | (.opened outer negated :: stack, inner) =>
        readClassFrom free fuel stack (.bracketed negated inner :: outer) rest
      | _ => .error .unclosedClass
    | '&' :: '&' :: rest => readClassFrom free fuel (startOperation .inter stack items) [] rest
    | '-' :: '-' :: rest => readClassFrom free fuel (startOperation .diff stack items) [] rest
    | '~' :: '~' :: rest => readClassFrom free fuel (startOperation .symmDiff stack items) [] rest
    | cs => do
      let (item, rest) ← readItem free cs
      readClassFrom free fuel stack (item :: items) rest

/-- A class, after its opening bracket. -/
def readClass (free : Bool) (cs : List Char) : Except Flaw (Ast × List Char) := do
  let ((negated, items), rest) ← openClass free cs
  readClassFrom free (cs.length + 1) [.opened [] negated] items rest

/-! ## Groups -/

def flag? : Char → Option Flag
  | 'i' => some .caseInsensitive
  | 'm' => some .multiLine
  | 's' => some .dotAll
  | 'U' => some .swapGreed
  | 'u' => some .unicode
  | 'R' => some .crlf
  | 'x' => some .ignoreBlanks
  | _ => none

/-- Flags up to a colon or a closing parenthesis, which is returned with the rest.  `negated` once a
minus sign was seen, and `dangling` directly after it. -/
def readFlags :
    (negated dangling : Bool) → FlagChange → List Char → Except Flaw (FlagChange × List Char)
  | _, _, _, [] => .error .unclosedGroup
  | negated, dangling, change, c :: cs =>
    if c = ':' || c = ')' then
      if dangling then .error .danglingNegation else .ok (change, c :: cs)
    else if c = '-' then
      if negated then .error .danglingNegation else readFlags true true change cs
    else match flag? c with
      | none => .error .unknownFlag
      | some f =>
        if change.any (·.1 = f) then .error .duplicateFlag
        else readFlags negated false (change ++ [(f, !negated)]) cs

/-- The name of a group up to the closing angle bracket. -/
def readGroupName (cs : List Char) : Except Flaw (List Char × List Char) :=
  let name := cs.takeWhile (· ≠ '>')
  match cs.drop name.length, name with
  | [], _ | _, [] => .error .groupName
  | _ :: rest, first :: others =>
    if (first = '_' || Property.isAlphabetic first) &&
        others.all (fun c => c = '_' || c = '.' || c = '[' || c = ']' || Property.isAlphanumeric c) then
      .ok (name, rest)
    else .error .groupName

/-- How a group opens. -/
inductive Opening
  | directive (change : FlagChange)
  | group (change : FlagChange) (name : Option (List Char))

/-- What follows an opening parenthesis. -/
def readOpening (cs : List Char) : Except Flaw (Opening × List Char) :=
  match cs with
  | '?' :: '=' :: _ | '?' :: '!' :: _ | '?' :: '<' :: '=' :: _ | '?' :: '<' :: '!' :: _ => .error .lookAround
  | '?' :: 'P' :: '<' :: rest | '?' :: '<' :: rest => do
    let (name, rest) ← readGroupName rest
    return (.group [] (some name), rest)
  | '?' :: rest => do
    match ← readFlags false false [] rest with
    | ([], ')' :: _) => throw .missingOperand
    | (change, ')' :: rest) => return (.directive change, rest)
    | (change, _ :: rest) => return (.group change none, rest)
    | (_, []) => throw .unclosedGroup
  | _ => .ok (.group [] none, cs)

/-! ## Patterns -/

/-- What is open around the current place.  Parts and branches are in reverse. -/
inductive Frame
  /-- `free` is what held before the group. -/
  | group (before : List Ast) (change : FlagChange) (free : Bool)
  | branches (done : List Ast)

structure State where
  free : Bool
  names : List (List Char)
  stack : List Frame
  parts : List Ast

/-- Whether the change says that blanks do not count, or else what held before. -/
def freeAfter (change : FlagChange) (free : Bool) : Bool := (change.lookup .ignoreBlanks).getD free

/-- The operand of a repetition is the part before it, which must not be a flag directive. -/
def repeatLast (parts : List Ast) (min : Nat) (max : Option Nat) : Except Flaw (List Ast) :=
  match parts with
  | [] | .flags _ :: _ | .empty :: _ => .error .missingOperand
  | x :: parts => .ok (.times min max x :: parts)

/-- A question mark after a repetition only says which match is preferred. -/
def dropLazy : List Char → List Char
  | '?' :: cs => cs
  | cs => cs

/-- The bounds of a counted repetition, after the opening brace. -/
def readBounds (free : Bool) (cs : List Char) : Except Flaw ((Nat × Option Nat) × List Char) := do
  let (min, rest) ← readDecimal free (skip free cs)
  let (max, rest) ← match rest with
    | ',' :: rest =>
      match skip free rest with
      | '}' :: rest => pure (none, '}' :: rest)
      | rest => do
        let (max, rest) ← readDecimal free rest
        pure (some max, rest)
    | rest => pure (some min, rest)
  match rest with
  | '}' :: rest =>
    if max.any (· < min) then throw .repetitionCount
    return ((min, max), dropLazy (skip free rest))
  | _ => throw .repetitionCount

/-- The branches that are open, with the parts as the last of them. -/
def closeBranches (stack : List Frame) (parts : List Ast) : List Frame × Ast :=
  match stack with
  | .branches done :: stack => (stack, .alternation (.ofParts parts.reverse :: done).reverse)
  | _ => (stack, .ofParts parts.reverse)

def closeGroup (s : State) : Except Flaw State :=
  match closeBranches s.stack s.parts with
  | (.group before change free :: stack, inner) =>
    .ok { s with free, stack, parts := .group change inner :: before }
  | _ => .error .unopenedGroup

def openGroup (s : State) : Opening → Except Flaw State
  | .directive change => .ok { s with free := freeAfter change s.free, parts := .flags change :: s.parts }
  | .group change name => do
    if name.any s.names.contains then throw .duplicateGroupName
    return { free := freeAfter change s.free, names := name.toList ++ s.names
             stack := .group s.parts change s.free :: s.stack, parts := [] }

def nextBranch (s : State) : State :=
  let branch := Ast.ofParts s.parts.reverse
  match s.stack with
  | .branches done :: stack => { s with stack := .branches (branch :: done) :: stack, parts := [] }
  | stack => { s with stack := .branches [branch] :: stack, parts := [] }

def atomAst : Atom → Ast
  | .literal c => .literal c
  | .dot => .dot
  | .assertion a => .assertion a
  | .property query negated => .property query negated
  | .letter cls negated => .letter cls negated

/-- Reads the next part of the pattern, whose first character is given. -/
def readPart (s : State) (c : Char) (cs : List Char) : Except Flaw (State × List Char) :=
  let push (part : Ast) (rest : List Char) : Except Flaw (State × List Char) :=
    .ok ({ s with parts := part :: s.parts }, rest)
  let again (min : Nat) (max : Option Nat) : Except Flaw (State × List Char) := do
    return ({ s with parts := ← repeatLast s.parts min max }, dropLazy cs)
  match c with
  | '(' => do
    let (opening, rest) ← readOpening (skip s.free cs)
    return (← openGroup s opening, rest)
  | ')' => do return (← closeGroup s, cs)
  | '|' => .ok (nextBranch s, cs)
  | '[' => do
    let (cls, rest) ← readClass s.free cs
    push cls rest
  | '?' => again 0 (some 1)
  | '*' => again 0 none
  | '+' => again 1 none
  | '{' => do
    let _ ← repeatLast s.parts 0 none
    let ((min, max), rest) ← readBounds s.free cs
    return ({ s with parts := ← repeatLast s.parts min max }, rest)
  | '\\' => do
    let (atom, rest) ← readEscape s.free cs
    push (atomAst atom) rest
  | '.' => push .dot cs
  | '^' => push (.assertion .startLine) cs
  | '$' => push (.assertion .endLine) cs
  | c => push (.literal ⟨c, false⟩) cs

def readAll : Nat → State → List Char → Except Flaw State
  | 0, s, _ => .ok s
  | fuel + 1, s, cs =>
    match skip s.free cs with
    | [] => .ok s
    | c :: cs => do
      let (s, rest) ← readPart s c cs
      readAll fuel s rest

end Reader

/-- The parts of a pattern. -/
def Ast.read (pattern : String) : Except Flaw Ast := do
  let cs := pattern.toList
  let s ← Reader.readAll (cs.length + 1) ⟨false, [], [], []⟩ cs
  match Reader.closeBranches s.stack s.parts with
  | ([], ast) => if maxHeight < ast.height then throw .tooDeep else return ast
  | _ => throw .unclosedGroup

/-- A text as a pattern: a backslash takes away what any of its characters means elsewhere. -/
def escape (text : String) : String :=
  String.ofList (text.toList.flatMap fun c => if Reader.isMeta c then ['\\', c] else [c])

end Regex
end Ambigram
