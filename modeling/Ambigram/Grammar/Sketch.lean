import Ambigram.Grammar.Part
import Ambigram.Tokenizer
import Ambigram.Value.Recipe
/-!
# Sketches

A grammar written down without roles and types.  Building a sketch registers its tokens from left to
right, finds the roles of its parts, and refuses parts that do not fit together.  The environment of a
built grammar is one integer, the scale.
-/
namespace Ambigram

/-! ## Folds and mappings -/

inductive FoldSketch
  | append (min : Nat)
  | appendEven
  | field (name : String)
  | slot (place : Nat)
  | binary (op : String)
  | pair
  | positional

/-- A fold with the shapes that it works on. -/
structure AnyFold where
  left : Shape
  right : Shape
  result : Shape
  fold : Fold Int64 left.Carrier right.Carrier result.Carrier

def FoldSketch.build : FoldSketch → AnyFold
  | .append min => ⟨.list, .value, .list, .append min⟩
  | .appendEven => ⟨.list, .value, .list, .appendEven⟩
  | .field name => ⟨.value, .value, .value, .field name⟩
  | .slot place => ⟨.list, .value, .list, (Setter.slot place).fold⟩
  | .binary op => ⟨.value, .value, .value, .binary op⟩
  | .pair => ⟨.value, .value, .list, .pair⟩
  | .positional => ⟨.value, .value, .value, .positional⟩

inductive MappingSketch
  | identity (s : Shape)
  | singleton
  | permute (order : List Nat)
  | counter (min : Int64)
  | tag (name : String)
  | even
  | wrap
  | unwrap

structure AnyMapping where
  source : Shape
  result : Shape
  mapping : Mapping Int64 source.Carrier result.Carrier

def MappingSketch.build : MappingSketch → Except Error AnyMapping
  | .identity s => .ok ⟨s, s, .identity⟩
  | .singleton => .ok ⟨.value, .list, .singleton⟩
  | .permute order => do return ⟨.list, .list, .permute (← Mapping.Permutation.ofList order)⟩
  | .counter min => .ok ⟨.value, .value, .counter min⟩
  | .tag name => .ok ⟨.value, .value, .tag name⟩
  | .even => .ok ⟨.value, .value, .even⟩
  | .wrap => .ok ⟨.list, .value, .wrap⟩
  | .unwrap => .ok ⟨.value, .list, .unwrap⟩

inductive TextSketch
  | string | unsigned | signed | scaled | bool | quoted

def TextSketch.build : TextSketch → Mapping Int64 String Value
  | .string => TextMapping.string
  | .unsigned => TextMapping.unsigned
  | .signed => TextMapping.signed
  | .scaled => TextMapping.scaled
  | .bool => TextMapping.bool
  | .quoted => TextMapping.quoted

/-! ## Nodes -/

inductive Sketch
  | named (name : String)
  | literal (text : String) (exclusive : Bool)
  | token (id : TokenId) (exclusive : Bool) (text : String)
  | endOfInput
  | regex (source : String) (mapping : TextSketch) (exclusive : Bool)
  | scan (id : TokenId) (mapping : TextSketch) (exclusive : Bool)
  | initial (v : Recipe)
  | initialList (items : List Recipe)
  | emptyList
  | ref (name : String)
  | fold (x : Sketch) (f : FoldSketch)
  | map (m : MappingSketch)
  | seq (backtracks : Bool) (xs : List Sketch)
  | choice (xs : List Sketch)
  | rep (x : Sketch)
  | plus (x : Sketch)
  | opt (always : Bool) (x : Sketch)
  | atLeast (n : Nat) (x : Sketch)
  | join (nonEmpty : Bool) (separator x : Sketch)
  | annotate (category : Nat) (x : Sketch)

/-- What sketches may name. -/
structure Workshop where
  types : List RecordType
  refs : List (String × Shape)
  named : List (String × Part Int64)

/-- Building registers tokens, also where it fails later on. -/
abbrev Build := ExceptT Fault (StateM Tokenizer)

namespace Build

def ofExcept {α : Type} : Except Fault α → Build α
  | .ok a => pure a
  | .error e => throw e

def register (p : Pattern) : Build TokenId := do
  let (o, tokenizer) := (← get).register p
  set tokenizer
  ofExcept (Fault.lift o)

end Build

namespace Sketch

/-- Parts joined from left to right. -/
def joinAll (f : Part Int64 → Part Int64 → Option (Part Int64)) : List (Part Int64) → Build (Part Int64)
  | [] => throw .malformed
  | x :: xs => xs.foldlM (fun acc y => Build.ofExcept (Fault.need (f acc y))) x

/-- A value parsed by the part and folded, if the fold takes it. -/
def foldPart (f : AnyFold) (x : Part Int64) : Option (Part Int64) :=
  (x.parserOf? f.right).map fun p => .node (.fold p f.fold)

mutual
def build (w : Workshop) : Sketch → Build (Part Int64)
  | .named name => Build.ofExcept (Fault.need (w.named.lookup name))
  | .literal text exclusive => do
    return .recognizer (.token (← Build.register (.text text)) exclusive text)
  | .token id exclusive text => return .recognizer (.token id exclusive text)
  | .endOfInput => return .recognizer .endOfInput
  | .regex source mapping exclusive => do
    let id ← Build.register (.regex source)
    return .node (.scan (t := .value) id exclusive (some (Pattern.regex source).display) mapping.build)
  | .scan id mapping exclusive => return .node (.scan (t := .value) id exclusive none mapping.build)
  | .initial v => do
    return .node (.initial (t := .value) (← Build.ofExcept (v.build w.types)))
  | .initialList items => do
    return .node (.initial (t := .list) (← Build.ofExcept (Recipe.buildAll w.types items)))
  | .emptyList => return .node .emptyList
  | .ref name => do
    let s ← Build.ofExcept (Fault.need (w.refs.lookup name))
    return .node (.ref (t := s) name)
  | .fold x f => do Build.ofExcept (Fault.need (foldPart f.build (← x.build w)))
  | .map m => do
    let m ← Build.ofExcept (Fault.lift m.build)
    return .node (.map m.mapping)
  | .seq backtracks xs => do joinAll (Part.andThen backtracks) (← buildAll w xs)
  | .choice xs => do joinAll Part.orElse (← buildAll w xs)
  | .rep x => do Build.ofExcept (Fault.need (← x.build w).rep)
  | .plus x => do Build.ofExcept (Fault.need (← x.build w).plus)
  | .opt always x => do Build.ofExcept (Fault.need ((← x.build w).opt always))
  | .atLeast n x => do Build.ofExcept (Fault.need ((← x.build w).atLeast n))
  | .join nonEmpty sep x => do
    let sep ← sep.build w
    Build.ofExcept (Fault.need (sep.join nonEmpty (← x.build w)))
  | .annotate c x => do
    let c ← Build.ofExcept (Fault.lift (Category.ofNat c))
    return (← x.build w).annotate c

def buildAll (w : Workshop) : List Sketch → Build (List (Part Int64))
  | [] => return []
  | x :: xs => do return (← x.build w) :: (← buildAll w xs)
end

end Sketch
end Ambigram
