import Ambigram.Tree.Texts
/-!
# The pieces of a tree

What a layout is told about a tree, if it cares for nothing but category 0: the fragments in order, and where parts of
that category begin and end.  A layout that only puts blanks there writes the pieces one after another.
-/
namespace Ambigram

inductive Piece
  | text (t : String)
  /-- Where a part of category 0 begins or ends. -/
  | edge
  deriving DecidableEq

/-- With this at the edges. -/
def Piece.padded (pad : String) : Piece → String
  | .text t => t
  | .edge => pad

namespace Tree

mutual
def pieces : Tree → List Piece
  | .fragment t => [.text t]
  | .sequence ps => piecesAll ps
  | .category c content => if c.id = 0 then .edge :: (pieces content ++ [.edge]) else pieces content

def piecesAll : List Tree → List Piece
  | [] => []
  | t :: ts => pieces t ++ piecesAll ts
end

theorem piecesAll_eq : ∀ ts : List Tree, piecesAll ts = ts.flatMap pieces
  | [] => rfl
  | t :: ts => by rw [piecesAll, piecesAll_eq ts, List.flatMap_cons]

@[simp] theorem pieces_empty : empty.pieces = [] := rfl

@[simp] theorem pieces_text (t : String) : (text t).pieces = [.text t] := rfl

@[simp] theorem pieces_concat (ts : List Tree) : (concat ts).pieces = ts.flatMap pieces := flatMap_concat piecesAll_eq ts

@[simp] theorem pieces_append (t u : Tree) : (t.append u).pieces = t.pieces ++ u.pieces := flatMap_append piecesAll_eq t u

theorem pieces_annotate {t : Tree} {c : Category} (hc : c.id = 0) :
    (t.annotate c).pieces = .edge :: (t.pieces ++ [.edge]) := by
  rw [annotate, pieces, if_pos hc]

end Tree

/-! ## Layouts that put blanks at edges -/

namespace Layout

/-- Something on both sides of category 0. -/
def padded (pad : String) : Layout String where
  text t out := out ++ t
  annotated c content out := if c.id = 0 then content (out ++ pad) ++ pad else content out

theorem plain_eq : plain = padded "" := by
  refine congrArg (Layout.mk _) (funext fun c => funext fun content => funext fun out => ?_)
  simp

theorem spaced_eq : spaced = padded " " := rfl

end Layout

namespace Tree

variable (pad : String)

mutual
theorem render_padded : ∀ (t : Tree) (out : String),
    t.render (.padded pad) out = out ++ String.join (t.pieces.map (Piece.padded pad))
  | .fragment t, out => by simp [render, Layout.padded, pieces, Piece.padded]
  | .sequence ps, out => renderAll_padded ps out
  | .category c content, out => by
    show (if c.id = 0 then content.render (.padded pad) (out ++ pad) ++ pad else content.render (.padded pad) out) = _
    rw [render_padded content, render_padded content, pieces]
    split
    · simp [Piece.padded, String.append_assoc]
    · rfl

theorem renderAll_padded : ∀ (ts : List Tree) (out : String),
    renderAll (.padded pad) ts out = out ++ String.join ((piecesAll ts).map (Piece.padded pad))
  | [], out => by simp [renderAll, piecesAll]
  | t :: ts, out => by
    show renderAll (.padded pad) ts (render (.padded pad) t out) = _
    rw [renderAll_padded ts, render_padded t, piecesAll, List.map_append, String.append_assoc, ← String.join_append]
end

end Tree
end Ambigram
