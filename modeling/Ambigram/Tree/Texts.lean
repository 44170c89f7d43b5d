import Ambigram.Tree.Layout
/-!
# The texts of a tree

What a tree holds once categories are left out: its fragments in order, but for the empty ones, which
nobody can see.
-/
namespace Ambigram

/-- An empty text counts for nothing. -/
def textsOf (t : String) : List String := if t = "" then [] else [t]

@[simp] theorem textsOf_empty : textsOf "" = [] := rfl

theorem join_textsOf (t : String) : String.join (textsOf t) = t := by
  unfold textsOf
  split
  · rename_i h
    exact h.symm
  · simp

namespace Tree

mutual
def texts : Tree → List String
  | .fragment t => textsOf t
  | .sequence ps => textsAll ps
  | .category _ content => texts content

def textsAll : List Tree → List String
  | [] => []
  | t :: ts => texts t ++ textsAll ts
end

theorem textsAll_eq : ∀ ts : List Tree, textsAll ts = ts.flatMap texts
  | [] => rfl
  | t :: ts => by rw [textsAll, textsAll_eq ts, List.flatMap_cons]

@[simp] theorem texts_empty : empty.texts = [] := rfl

@[simp] theorem texts_text (t : String) : (text t).texts = textsOf t := List.append_nil _

@[simp] theorem texts_annotate (t : Tree) (c : Category) : (t.annotate c).texts = t.texts := rfl

section Parts

/-! What is read off the parts of a sequence one after another is read off joined trees in the same way, for joining
only splices parts. -/

variable {α : Type} {f : Tree → List α} (hf : ∀ ps, f (.sequence ps) = ps.flatMap f)
include hf

theorem flatMap_parts (t : Tree) : t.parts.flatMap f = f t := by
  cases t with
  | sequence ps => exact (hf ps).symm
  | fragment t => exact List.append_nil _
  | category c content => exact List.append_nil _

theorem flatMap_concat (ts : List Tree) : f (concat ts) = ts.flatMap f := by
  rw [concat, hf, List.flatMap_assoc]
  simp only [flatMap_parts hf]

theorem eq_nil_of_isEmpty {t : Tree} (h : t.isEmpty) : f t = [] := by
  unfold isEmpty at h
  split at h
  · exact hf []
  · cases h

theorem flatMap_append (t u : Tree) : f (t.append u) = f t ++ f u := by
  unfold append
  split
  · rename_i h
    rw [eq_nil_of_isEmpty hf h, List.nil_append]
  split
  · rename_i h
    rw [eq_nil_of_isEmpty hf h, List.append_nil]
  · rw [flatMap_concat hf, List.flatMap_cons, List.flatMap_singleton]

end Parts

@[simp] theorem texts_concat (ts : List Tree) : (concat ts).texts = ts.flatMap texts := flatMap_concat textsAll_eq ts

@[simp] theorem texts_append (t u : Tree) : (t.append u).texts = t.texts ++ u.texts := flatMap_append textsAll_eq t u

mutual
theorem render_plain : ∀ (t : Tree) (out : String), t.render .plain out = out ++ String.join t.texts
  | .fragment t, out => by
    rw [texts, join_textsOf]
    rfl
  | .sequence ps, out => renderAll_plain ps out
  | .category _ content, out => render_plain content out

theorem renderAll_plain : ∀ (ts : List Tree) (out : String), renderAll .plain ts out = out ++ String.join (textsAll ts)
  | [], out => by simp [renderAll, textsAll]
  | t :: ts, out => by
    show renderAll .plain ts (render .plain t out) = _
    rw [renderAll_plain ts, render_plain t, textsAll, String.append_assoc, ← String.join_append]
end

/-- **The text of a tree is its texts one after another.** -/
theorem toSource_eq (t : Tree) : t.toSource = String.join t.texts := by
  rw [toSource, render_plain, String.empty_append]

theorem toSource_text (t : String) : (text t).toSource = t := by
  rw [toSource_eq, texts_text, join_textsOf]

theorem toSource_append (t u : Tree) : (t.append u).toSource = t.toSource ++ u.toSource := by
  rw [toSource_eq, toSource_eq, toSource_eq, texts_append, String.join_append]

theorem toSource_foldl_append : ∀ (ts : List Tree) (front : Tree),
    (ts.foldl Tree.append front).toSource = front.toSource ++ String.join (ts.map toSource)
  | [], front => by simp
  | t :: ts, front => by
    rw [List.foldl_cons, toSource_foldl_append ts, toSource_append, List.map_cons, String.join_cons, String.append_assoc]

theorem render_plain_eq (t : Tree) (out : String) : t.render .plain out = out ++ t.toSource := by
  rw [render_plain, toSource_eq]

end Tree
end Ambigram
