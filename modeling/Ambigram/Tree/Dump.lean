import Ambigram.Text.Decimal
import Ambigram.Text.Quoted
import Ambigram.Tree.Texts
/-!
# Dumps

A tree written out for inspection: quoted fragments with blanks between them, and a category as its
number with its contents in parentheses.

A dump shows the outline of a tree and all of it.  Each item is followed by a blank, and where a dump is
trimmed the last of these blanks goes and nothing else, for an item ends with a quote or a parenthesis.
-/
namespace Ambigram

namespace Tree

def dropBlanks (cs : List Char) : List Char := (cs.reverse.dropWhile Unicode.Property.isBlank).reverse

mutual
/-- Every item is followed by a blank. -/
def dumpItems : Tree → List Char
  | .fragment t => Quoted.quote t.toList ++ [' ']
  | .sequence ps => dumpAll ps
  | .category c content =>
    '#' :: Decimal.digits c.id ++ '(' :: dropBlanks (dumpItems content) ++ [')', ' ']

def dumpAll : List Tree → List Char
  | [] => []
  | t :: ts => dumpItems t ++ dumpAll ts
end

def dump (t : Tree) : String := String.ofList (dropBlanks (dumpItems t))

end Tree

/-! ## Outlines

What stands in a tree, from left to right: fragments, the empty ones included, and groups under a category with what
stands in them.  How the fragments were put into sequences does not show. -/

inductive Outline
  | text (t : String)
  | group (c : Category) (parts : List Outline)

namespace Tree

mutual
def outline : Tree → List Outline
  | .fragment t => [.text t]
  | .sequence ps => outlineAll ps
  | .category c content => [.group c (outline content)]

def outlineAll : List Tree → List Outline
  | [] => []
  | t :: ts => outline t ++ outlineAll ts
end

theorem outlineAll_eq : ∀ ts : List Tree, outlineAll ts = ts.flatMap outline
  | [] => rfl
  | t :: ts => by rw [outlineAll, outlineAll_eq ts, List.flatMap_cons]

theorem outline_empty : empty.outline = [] := rfl

theorem outline_text (t : String) : (text t).outline = [.text t] := rfl

theorem outline_annotate (t : Tree) (c : Category) : (t.annotate c).outline = [.group c t.outline] := rfl

theorem outline_concat (ts : List Tree) : (concat ts).outline = ts.flatMap outline := flatMap_concat outlineAll_eq ts

theorem outline_append (t u : Tree) : (t.append u).outline = t.outline ++ u.outline := flatMap_append outlineAll_eq t u

end Tree

namespace Outline

/-! ## What is left after trimming -/

mutual
def write : Outline → List Char
  | .text t => Quoted.quote t.toList
  | .group c parts => '#' :: Decimal.digits c.id ++ '(' :: writeAll parts ++ [')']

/-- One blank between two items. -/
def writeAll : List Outline → List Char
  | [] => []
  | [o] => write o
  | o :: p :: rest => write o ++ ' ' :: writeAll (p :: rest)
end

/-- One blank behind every item. -/
def spread (os : List Outline) : List Char := os.flatMap fun o => o.write ++ [' ']

theorem isBlank_blank : Unicode.Property.isBlank ' ' = true := by decide +kernel

theorem write_ends (o : Outline) : ∃ front last, o.write = front ++ [last] ∧ Unicode.Property.isBlank last = false := by
  cases o with
  | text t => exact ⟨'"' :: t.toList.flatMap Quoted.escape, '"', rfl, by decide +kernel⟩
  | group c parts => exact ⟨'#' :: Decimal.digits c.id ++ '(' :: writeAll parts, ')', rfl, by decide +kernel⟩

theorem writeAll_ends : ∀ (o : Outline) (os : List Outline), ∃ front last, writeAll (o :: os) = front ++ [last] ∧
    Unicode.Property.isBlank last = false
  | o, [] => write_ends o
  | o, p :: os => by
    obtain ⟨front, last, heq, hlast⟩ := writeAll_ends p os
    refine ⟨o.write ++ ' ' :: front, last, ?_, hlast⟩
    rw [writeAll, heq, List.append_assoc, List.cons_append]

theorem spread_cons : ∀ (o : Outline) (os : List Outline), spread (o :: os) = writeAll (o :: os) ++ [' ']
  | o, [] => List.append_nil _
  | o, p :: os => by
    have hrest := spread_cons p os
    unfold spread at hrest ⊢
    rw [List.flatMap_cons, hrest, writeAll]
    simp only [List.append_assoc, List.cons_append, List.nil_append]

theorem spread_append (os ps : List Outline) : spread (os ++ ps) = spread os ++ spread ps := List.flatMap_append

/-- Only the blank behind the last item goes. -/
theorem dropBlanks_spread : ∀ os : List Outline, Tree.dropBlanks (spread os) = writeAll os
  | [] => rfl
  | o :: os => by
    obtain ⟨front, last, heq, hlast⟩ := writeAll_ends o os
    rw [spread_cons, heq, Tree.dropBlanks]
    simp [isBlank_blank, hlast]

end Outline

namespace Tree

mutual
theorem dumpItems_eq : ∀ t : Tree, t.dumpItems = Outline.spread t.outline
  | .fragment _ => (List.append_nil _).symm
  | .sequence ps => dumpAll_eq ps
  | .category c content => by
    rw [dumpItems, dumpItems_eq content, Outline.dropBlanks_spread]
    simp [outline, Outline.spread, Outline.write]

theorem dumpAll_eq : ∀ ts : List Tree, dumpAll ts = Outline.spread (outlineAll ts)
  | [] => rfl
  | t :: ts => by rw [dumpAll, dumpItems_eq t, dumpAll_eq ts, ← Outline.spread_append, outlineAll]
end

/-- **A dump shows the outline.** -/
theorem dump_eq (t : Tree) : t.dump = String.ofList (Outline.writeAll t.outline) := by
  rw [dump, dumpItems_eq, Outline.dropBlanks_spread]

end Tree

end Ambigram
