import Ambigram.Error
/-!
# Printed trees

What printing makes: fragments of text in order, with parts grouped under a category.  A plain sequence
never stands directly inside another one, because joining trees splices their parts; the depth of a tree
only grows with its categories.  The tree says nothing about blanks: a layout decides about those.
-/
namespace Ambigram

/-- A category is a number that the author of a grammar chooses. -/
structure Category where
  id : Nat
  inRange : id ≤ 65533
  deriving DecidableEq

def Category.ofNat (id : Nat) : Except Error Category :=
  if h : id ≤ 65533 then .ok ⟨id, h⟩ else .error .categoryOutOfRange

/-- Fragments stand inside sequences; a category holds one tree. -/
inductive Tree
  | fragment (text : String)
  | sequence (parts : List Tree)
  | category (c : Category) (content : Tree)

namespace Tree

mutual
def decEq : (t u : Tree) → Decidable (t = u)
  | .fragment a, .fragment b => if h : a = b then isTrue (h ▸ rfl) else isFalse (fun e => h (by cases e; rfl))
  | .sequence a, .sequence b =>
    match decEqParts a b with
    | isTrue h => isTrue (h ▸ rfl)
    | isFalse h => isFalse (fun e => h (by cases e; rfl))
  | .category c a, .category d b =>
    if hc : c = d then
      match decEq a b with
      | isTrue h => isTrue (hc ▸ h ▸ rfl)
      | isFalse h => isFalse (fun e => h (by cases e; rfl))
    else isFalse (fun e => hc (by cases e; rfl))
  | .fragment _, .sequence _ | .fragment _, .category _ _ | .sequence _, .fragment _
  | .sequence _, .category _ _ | .category _ _, .fragment _ | .category _ _, .sequence _ =>
    isFalse (fun e => by cases e)

def decEqParts : (t u : List Tree) → Decidable (t = u)
  | [], [] => isTrue rfl
  | [], _ :: _ | _ :: _, [] => isFalse (fun e => by cases e)
  | a :: t, b :: u =>
    match decEq a b, decEqParts t u with
    | isTrue h, isTrue k => isTrue (h ▸ k ▸ rfl)
    | isFalse h, _ => isFalse (fun e => h (by cases e; rfl))
    | _, isFalse k => isFalse (fun e => k (by cases e; rfl))
end

instance : DecidableEq Tree := decEq

/-! ## Building -/

def empty : Tree := .sequence []

def text (t : String) : Tree := .sequence [.fragment t]

/-- What a tree contributes to a sequence: a sequence its parts, anything else itself. -/
def parts : Tree → List Tree
  | .sequence ps => ps
  | t => [t]

/-- The trees in order, as one sequence. -/
def concat (ts : List Tree) : Tree := .sequence (ts.flatMap parts)

/-- Only a sequence without parts; a category with nothing in it is not empty. -/
def isEmpty : Tree → Bool
  | .sequence [] => true
  | _ => false

/-- One tree and then another.  Next to an empty one, a tree stays as it is. -/
def append (t u : Tree) : Tree :=
  if t.isEmpty then u else if u.isEmpty then t else concat [t, u]

def annotate (t : Tree) (c : Category) : Tree := .category c t

def category? : Tree → Option Category
  | .category c _ => some c
  | _ => none

/-- The number of direct parts. -/
def size : Tree → Nat
  | .fragment _ => 0
  | .sequence ps => ps.length
  | .category _ _ => 1

/-! ## Joining

Trees that are not empty are joined by their parts, of which they have some.  So it makes no difference which are
joined first. -/

theorem sequence_eq_empty_iff {ps : List Tree} : sequence ps = empty ↔ ps = [] := by
  simp [empty]

theorem isEmpty_iff {t : Tree} : t.isEmpty ↔ t = empty := by
  rcases t with t | ⟨_ | ⟨p, ps⟩⟩ | ⟨c, t⟩ <;> simp [isEmpty, empty]

theorem parts_eq_nil_iff {t : Tree} : t.parts = [] ↔ t = empty := by
  cases t <;> simp [parts, empty]

theorem empty_append (t : Tree) : empty.append t = t := rfl

theorem append_empty (t : Tree) : t.append empty = t := by
  unfold append
  split
  · rename_i h
    exact (isEmpty_iff.1 h).symm
  · rfl

theorem append_eq {t u : Tree} (ht : t ≠ empty) (hu : u ≠ empty) : t.append u = .sequence (t.parts ++ u.parts) := by
  rw [append, if_neg (mt isEmpty_iff.1 ht), if_neg (mt isEmpty_iff.1 hu), concat, List.flatMap_cons,
    List.flatMap_singleton]

theorem append_assoc (t u v : Tree) : (t.append u).append v = t.append (u.append v) := by
  by_cases ht : t = empty
  · rw [ht, empty_append, empty_append]
  by_cases hu : u = empty
  · rw [hu, append_empty, empty_append]
  by_cases hv : v = empty
  · rw [hv, append_empty, append_empty]
  have hfront : sequence (t.parts ++ u.parts) ≠ empty := fun h =>
    ht (parts_eq_nil_iff.1 (List.append_eq_nil_iff.1 (sequence_eq_empty_iff.1 h)).1)
  have hback : sequence (u.parts ++ v.parts) ≠ empty := fun h =>
    hu (parts_eq_nil_iff.1 (List.append_eq_nil_iff.1 (sequence_eq_empty_iff.1 h)).1)
  rw [append_eq ht hu, append_eq hfront hv, append_eq hu hv, append_eq ht hback]
  simp only [parts, List.append_assoc]

end Tree
end Ambigram
