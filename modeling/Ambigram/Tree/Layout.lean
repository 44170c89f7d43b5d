import Ambigram.Text.Decimal
import Ambigram.Tree
/-!
# Layouts

A layout turns a tree into text.  It is told the fragments in order, and for a category it is handed the
rendering of what the category holds, to place where it likes.
-/
namespace Ambigram

/-- Works on a state in `σ`, which is mostly the text so far. -/
structure Layout (σ : Type) where
  text : String → σ → σ
  annotated : Category → (σ → σ) → σ → σ

namespace Tree

variable {σ : Type}

mutual
def render (layout : Layout σ) : Tree → σ → σ
  | .fragment t => layout.text t
  | .sequence ps => renderAll layout ps
  | .category c content => layout.annotated c (render layout content)

def renderAll (layout : Layout σ) : List Tree → σ → σ
  | [] => id
  | t :: ts => fun s => renderAll layout ts (render layout t s)
end

/-! Joining trees only splices their parts, so they are rendered one after another. -/

section Joined

variable (layout : Layout σ)

theorem renderAll_append : ∀ (ts us : List Tree) (out : σ),
    renderAll layout (ts ++ us) out = renderAll layout us (renderAll layout ts out)
  | [], _, _ => rfl
  | t :: ts, us, out => renderAll_append ts us (render layout t out)

theorem renderAll_parts (t : Tree) (out : σ) : renderAll layout t.parts out = t.render layout out := by
  cases t <;> rfl

theorem render_concat : ∀ (ts : List Tree) (out : σ), (concat ts).render layout out = renderAll layout ts out
  | [], _ => rfl
  | t :: ts, out => by
    have hrest := render_concat ts (t.render layout out)
    simp only [concat, render] at hrest ⊢
    rw [List.flatMap_cons, renderAll_append, renderAll_parts, hrest]
    rfl

theorem render_of_isEmpty {t : Tree} (h : t.isEmpty) (out : σ) : t.render layout out = out := by
  unfold isEmpty at h
  split at h
  · rfl
  · cases h

theorem render_append (t u : Tree) (out : σ) :
    (t.append u).render layout out = u.render layout (t.render layout out) := by
  unfold append
  split
  · rename_i ht
    rw [render_of_isEmpty layout ht]
  split
  · rename_i hu
    rw [render_of_isEmpty layout hu]
  · rw [render_concat]
    rfl

end Joined

end Tree

namespace Layout

/-- Fragments back to back. -/
def plain : Layout String where
  text t out := out ++ t
  annotated _ content := content

/-- Each category between tags that carry its number. -/
def bracket : Layout String where
  text t out := out ++ t
  annotated c content out :=
    content (out ++ "<" ++ Decimal.ofNat c.id ++ ">") ++ "</" ++ Decimal.ofNat c.id ++ ">"

/-- One blank on both sides of category 0. -/
def spaced : Layout String where
  text t out := out ++ t
  annotated c content out := if c.id = 0 then content (out ++ " ") ++ " " else content out

end Layout

/-- The text of a tree with nothing between the fragments. -/
def Tree.toSource (t : Tree) : String := t.render .plain ""

end Ambigram
