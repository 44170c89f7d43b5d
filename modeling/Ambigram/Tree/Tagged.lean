import Ambigram.Tree.Layout
/-!
# Tagged nodes

A tree as it is stored: leaves that hold text and nodes that hold other nodes, each with a kind of 16 bits.  Two kinds
are reserved, for texts and for plain sequences, and the categories take the kinds behind them.  Trees are built and
printed on the nodes just as on the trees themselves, and a tree can be read off its node again.
-/
namespace Ambigram

/-- Kinds are attached to text and to nodes alike, and do not tell the one from the other. -/
inductive Tagged
  | leaf (kind : UInt16) (text : String)
  | inner (kind : UInt16) (children : List Tagged)

namespace Tagged

def textKind : UInt16 := 0

def sequenceKind : UInt16 := 1

def kind : Tagged → UInt16
  | .leaf k _ => k
  | .inner k _ => k

def children : Tagged → List Tagged
  | .leaf _ _ => []
  | .inner _ ns => ns

end Tagged

/-! ## Categories -/

namespace Category

/-- The first two kinds are reserved. -/
def kind (c : Category) : UInt16 := .ofNat (c.id + 2)

def ofKind? (k : UInt16) : Option Category :=
  if 2 ≤ k.toNat then some ⟨k.toNat - 2, by have := k.toNat_lt; omega⟩ else none

theorem toNat_kind (c : Category) : c.kind.toNat = c.id + 2 := by
  have := c.inRange
  exact UInt16.toNat_ofNat_of_lt' (by show c.id + 2 < 2 ^ 16; omega)

/-- A category is told from its kind. -/
theorem ofKind?_kind (c : Category) : ofKind? c.kind = some c := by
  unfold ofKind?
  simp only [toNat_kind]
  rw [if_pos (Nat.le_add_left 2 c.id)]
  rfl

theorem kind_ne_textKind (c : Category) : c.kind ≠ Tagged.textKind := fun h => by
  have := congrArg UInt16.toNat h
  rw [toNat_kind] at this
  exact absurd this (Nat.succ_ne_zero _)

theorem kind_ne_sequenceKind (c : Category) : c.kind ≠ Tagged.sequenceKind := fun h => by
  have := congrArg UInt16.toNat h
  rw [toNat_kind] at this
  exact absurd (Nat.succ.inj this) (Nat.succ_ne_zero _)

end Category

namespace Tagged

/-! ## Building -/

def empty : Tagged := .inner sequenceKind []

def text (t : String) : Tagged := .inner sequenceKind [.leaf textKind t]

/-- What a node contributes to a sequence. -/
def spliced (n : Tagged) : List Tagged := if n.kind = sequenceKind then n.children else [n]

def concat (ns : List Tagged) : Tagged := .inner sequenceKind (ns.flatMap spliced)

def isEmpty (n : Tagged) : Bool := n.kind = sequenceKind && n.children.length = 0

def append (n m : Tagged) : Tagged :=
  if n.isEmpty then m else if m.isEmpty then n else concat [n, m]

def annotate (n : Tagged) (c : Category) : Tagged := .inner c.kind [n]

def category? (n : Tagged) : Option Category := Category.ofKind? n.kind

/-- The first thing that a node holds, if it is a node itself.  Anything else is not expected in a category. -/
def content? (n : Tagged) : Option Tagged :=
  match n.children.head? with
  | some (.inner k ns) => some (.inner k ns)
  | _ => none

/-! ## Printing -/

/-- Receives the texts of a tree, and each category with the node that it holds.  It may look at that node and print
any of it with itself or others, and it may give up. -/
structure Printer (σ : Type) where
  text : String → σ → Option σ
  annotated : Category → Tagged → σ → Option σ

variable {σ : Type}

mutual
def print (p : Printer σ) : Tagged → σ → Option σ
  | .leaf _ t, out => p.text t out
  | .inner k ns, out =>
    match Category.ofKind? k with
    | some c => (content? (.inner k ns)).bind (p.annotated c · out)
    | none => printAll p ns out

def printAll (p : Printer σ) : List Tagged → σ → Option σ
  | [], out => some out
  | n :: ns, out => (print p n out).bind (printAll p ns)
end

end Tagged

/-! ## Trees -/

namespace Tree

mutual
def tagged : Tree → Tagged
  | .fragment t => .leaf Tagged.textKind t
  | .sequence ps => .inner Tagged.sequenceKind (taggedAll ps)
  | .category c t => .inner c.kind [tagged t]

def taggedAll : List Tree → List Tagged
  | [] => []
  | t :: ts => tagged t :: taggedAll ts
end

theorem taggedAll_eq_map (ts : List Tree) : taggedAll ts = ts.map tagged := by
  induction ts with
  | nil => rfl
  | cons t ts ih => rw [taggedAll, ih, List.map_cons]

end Tree

namespace Tagged

mutual
/-- The tree that a node stands for. -/
def tree : Tagged → Tree
  | .leaf _ t => .fragment t
  | .inner k ns =>
    match Category.ofKind? k with
    | some c => .category c ((trees ns).headD .empty)
    | none => .sequence (trees ns)

def trees : List Tagged → List Tree
  | [] => []
  | n :: ns => tree n :: trees ns
end

theorem trees_eq_map (ns : List Tagged) : trees ns = ns.map tree := by
  induction ns with
  | nil => rfl
  | cons n ns ih => rw [trees, ih, List.map_cons]

/-- A layout prints what a category holds by itself, and never gives up. -/
def Printer.ofLayout {σ : Type} (layout : Layout σ) : Printer σ where
  text t out := some (layout.text t out)
  annotated c n out := some (layout.annotated c (n.tree.render layout) out)

end Tagged

namespace Tree

theorem tree_tagged : ∀ t : Tree, t.tagged.tree = t
  | .fragment t => rfl
  | .sequence ps => by
    have hparts : (taggedAll ps).map Tagged.tree = ps := by
      rw [taggedAll_eq_map, List.map_map]
      exact (List.map_congr_left fun p _ => tree_tagged p).trans (List.map_id ps)
    rw [tagged, Tagged.tree, Tagged.trees_eq_map, hparts]
    rfl
  | .category c t => by
    rw [tagged, Tagged.tree, Category.ofKind?_kind, Tagged.trees, tree_tagged t]
    rfl

/-- No two trees are stored alike. -/
theorem tagged_injective : Function.Injective tagged := fun t u h => by
  rw [← tree_tagged t, h, tree_tagged]

/-! ### Building -/

theorem tagged_empty : empty.tagged = .empty := rfl

theorem tagged_text (t : String) : (text t).tagged = .text t := rfl

theorem tagged_annotate (t : Tree) (c : Category) : (t.annotate c).tagged = t.tagged.annotate c := rfl

theorem spliced_tagged (t : Tree) : t.tagged.spliced = t.parts.map tagged := by
  cases t with
  | fragment t => rfl
  | sequence ps => exact taggedAll_eq_map ps
  | category c t => exact if_neg c.kind_ne_sequenceKind

theorem tagged_concat (ts : List Tree) : (concat ts).tagged = .concat (ts.map tagged) := by
  rw [concat, tagged, Tagged.concat, taggedAll_eq_map, List.map_flatMap, List.flatMap_map]
  simp only [spliced_tagged]

theorem isEmpty_tagged (t : Tree) : t.tagged.isEmpty = t.isEmpty := by
  rcases t with t | ⟨_ | ⟨p, ps⟩⟩ | ⟨c, t⟩
  · rfl
  · rfl
  · rfl
  · have := c.kind_ne_sequenceKind
    simp [tagged, Tagged.isEmpty, Tagged.kind, isEmpty, this]

theorem tagged_append (t u : Tree) : (t.append u).tagged = t.tagged.append u.tagged := by
  unfold append Tagged.append
  rw [isEmpty_tagged, isEmpty_tagged]
  split
  · rfl
  split
  · rfl
  · exact tagged_concat [t, u]

theorem category?_tagged (t : Tree) : t.tagged.category? = t.category? := by
  cases t with
  | fragment t => rfl
  | sequence ps => rfl
  | category c t => exact c.ofKind?_kind

/-! ### Printing -/

section

variable {σ : Type} (p : Tagged.Printer σ)

theorem printAll_append : ∀ (ns ms : List Tagged) (out : σ),
    Tagged.printAll p (ns ++ ms) out = (Tagged.printAll p ns out).bind (Tagged.printAll p ms)
  | [], _, _ => rfl
  | n :: ns, ms, out => by
    rw [List.cons_append, Tagged.printAll, Tagged.printAll, Option.bind_assoc]
    exact Option.bind_congr fun out' _ => printAll_append ns ms out'

theorem printAll_singleton (n : Tagged) (out : σ) : Tagged.printAll p [n] out = n.print p out := Option.bind_fun_some _

theorem printAll_map_tagged : ∀ (ts : List Tree) (out : σ),
    Tagged.printAll p (ts.map tagged) out = ts.foldlM (fun out t => t.tagged.print p out) out
  | [], _ => rfl
  | t :: ts, out => by
    rw [List.map_cons, Tagged.printAll, List.foldlM_cons]
    exact Option.bind_congr fun out' _ => printAll_map_tagged ts out'

theorem print_sequence (ps : List Tree) (out : σ) :
    (sequence ps).tagged.print p out = Tagged.printAll p (ps.map tagged) out := by
  rw [tagged, Tagged.print, taggedAll_eq_map]
  rfl

theorem printAll_parts (t : Tree) (out : σ) : Tagged.printAll p (t.parts.map tagged) out = t.tagged.print p out := by
  cases t with
  | sequence ps => exact (print_sequence p ps out).symm
  | fragment t => exact printAll_singleton p _ out
  | category c t => exact printAll_singleton p _ out

/-- **Joined trees are printed one after another.** -/
theorem print_concat : ∀ (ts : List Tree) (out : σ),
    (concat ts).tagged.print p out = Tagged.printAll p (ts.map tagged) out
  | [], _ => rfl
  | t :: ts, out => by
    have hrest := print_concat ts
    simp only [concat, print_sequence] at hrest ⊢
    rw [List.flatMap_cons, List.map_append, printAll_append, printAll_parts, List.map_cons, Tagged.printAll]
    exact Option.bind_congr fun out' _ => hrest out'

theorem print_append (t u : Tree) (out : σ) :
    (t.append u).tagged.print p out = (t.tagged.print p out).bind (u.tagged.print p) := by
  have hempty : ∀ out, empty.tagged.print p out = some out := fun _ => rfl
  by_cases ht : t = empty
  · rw [ht, empty_append, hempty, Option.bind_some]
  by_cases hu : u = empty
  · rw [hu, append_empty, funext hempty, Option.bind_fun_some]
  · have hjoined : t.append u = concat [t, u] := by
      rw [append_eq ht hu, concat, List.flatMap_cons, List.flatMap_singleton]
    rw [hjoined, print_concat, List.map_cons, List.map_singleton, Tagged.printAll]
    exact Option.bind_congr fun out' _ => printAll_singleton p _ out'

end

end Tree
end Ambigram
