import Ambigram.Tree.Dump
/-!
# Dumps told apart

What was trimmed is read back from the left: a quoted text ends at its own quote, the number of a category at its
parenthesis, and what a category holds at the first parenthesis that no item starts with.
-/
namespace Ambigram

/-! ## Reading it back -/

theorem Decimal.digits_append_inj {m n : Nat} {x y : List Char}
    (h : digits m ++ '(' :: x = digits n ++ '(' :: y) : m = n ∧ x = y := by
  have hdigits : ∀ {k : Nat}, ∀ c ∈ digits k, c.isDigit = true := fun _ => isDigit_of_mem_digits
  obtain ⟨htake, hdrop⟩ := takeWhile_append_cons (a := '(') x (hdigits (k := m)) (by decide)
  obtain ⟨htake', hdrop'⟩ := takeWhile_append_cons (a := '(') y (hdigits (k := n)) (by decide)
  have hfront : digits m = digits n := by rw [← htake, h, htake']
  have hrest : '(' :: x = '(' :: y := by rw [← hdrop, h, hdrop']
  have hnumber : some m = some n := by rw [← nat?_digits, hfront, nat?_digits]
  exact ⟨Option.some.inj hnumber, (List.cons.inj hrest).2⟩

namespace Outline

/-- Behind the items of a group or of a whole dump. -/
def Closed (x : List Char) : Prop := ∀ c ∈ x.head?, c = ')'

theorem write_starts (o : Outline) : ∃ c cs, o.write = c :: cs ∧ c ≠ ')' := by
  cases o with
  | text t => exact ⟨_, _, rfl, by decide⟩
  | group c parts => exact ⟨_, _, rfl, by decide⟩

theorem Closed.ne_write_append {x : List Char} (h : Closed x) (o : Outline) (y : List Char) : x ≠ o.write ++ y := by
  obtain ⟨c, cs, heq, hc⟩ := o.write_starts
  rintro rfl
  rw [heq] at h
  exact hc (h c rfl)

theorem not_closed_blank (x : List Char) : ¬ Closed (' ' :: x) := fun h => absurd (h ' ' rfl) (by decide)

theorem exists_writeAll_cons (o : Outline) (os : List Outline) (x : List Char) :
    ∃ y, writeAll (o :: os) ++ x = o.write ++ y := by
  cases os with
  | nil => exact ⟨x, rfl⟩
  | cons p os => exact ⟨_, List.append_assoc _ _ _⟩

mutual
theorem write_append_inj : ∀ {o p : Outline} {x y : List Char}, o.write ++ x = p.write ++ y → o = p ∧ x = y
  | .text s, .text t, x, y, h => by
    obtain ⟨hst, hxy⟩ := Quoted.quote_append_inj h
    rw [String.toList_inj.1 hst]
    exact ⟨rfl, hxy⟩
  | .text _, .group _ _, _, _, h => absurd (List.cons.inj h).1 (by decide)
  | .group _ _, .text _, _, _, h => absurd (List.cons.inj h).1 (by decide)
  | .group c os, .group d ps, x, y, h => by
    simp only [write, List.cons_append, List.append_assoc, List.cons.injEq, true_and] at h
    obtain ⟨hid, hparts⟩ := Decimal.digits_append_inj h
    obtain ⟨rfl, hxy⟩ := writeAll_append_inj (x := ')' :: x) (y := ')' :: y) (by simp [Closed]) (by simp [Closed]) hparts
    have hcd : c = d := by
      cases c
      cases d
      cases hid
      rfl
    exact ⟨hcd ▸ rfl, (List.cons.inj hxy).2⟩

theorem writeAll_append_inj : ∀ {os ps : List Outline} {x y : List Char}, Closed x → Closed y →
    writeAll os ++ x = writeAll ps ++ y → os = ps ∧ x = y
  | [], [], _, _, _, _, h => ⟨rfl, h⟩
  | [], p :: ps, x, y, hx, _, h => by
    obtain ⟨z, hz⟩ := exists_writeAll_cons p ps y
    exact absurd (h.trans hz) (hx.ne_write_append p z)
  | o :: os, [], x, y, _, hy, h => by
    obtain ⟨z, hz⟩ := exists_writeAll_cons o os x
    exact absurd (h.symm.trans hz) (hy.ne_write_append o z)
  | [o], [p], _, _, _, _, h => by
    obtain ⟨rfl, hxy⟩ := write_append_inj h
    exact ⟨rfl, hxy⟩
  -- Where the one is closed, the other goes on with a blank.
  | [o], p :: q :: ps, x, y, hx, _, h => by
    rw [writeAll, writeAll, List.append_assoc] at h
    obtain ⟨-, hxy⟩ := write_append_inj h
    exact absurd (hxy ▸ hx) (not_closed_blank _)
  | o :: r :: os, [p], x, y, _, hy, h => by
    rw [writeAll, writeAll, List.append_assoc] at h
    obtain ⟨-, hxy⟩ := write_append_inj h
    exact absurd (hxy ▸ hy) (not_closed_blank _)
  | o :: r :: os, p :: q :: ps, x, y, hx, hy, h => by
    rw [writeAll, writeAll, List.append_assoc, List.append_assoc] at h
    obtain ⟨rfl, hrest⟩ := write_append_inj h
    obtain ⟨hos, hxy⟩ := writeAll_append_inj hx hy (List.cons.inj hrest).2
    exact ⟨hos ▸ rfl, hxy⟩
end

theorem writeAll_injective {os ps : List Outline} (h : writeAll os = writeAll ps) : os = ps := by
  have hclosed : Closed [] := nofun
  refine (writeAll_append_inj hclosed hclosed ?_).1
  rw [List.append_nil, List.append_nil, h]

end Outline

/-! ## The law of dumps -/

/-- **Two trees are dumped alike exactly if the same stands in them.**  What stands in a tree is told by how it was
built: joined trees hold what they held one after another, and an annotated tree is one group.  Wherever a dump is
trimmed, at the outside as in every group, the blank behind the last item goes, if there is one, and all the items are
left in full with the blanks between them. -/
theorem dump_faithful :
    ((Tree.empty.outline = [] ∧ ∀ s, (Tree.text s).outline = [.text s]) ∧
      (∀ t u : Tree, (t.append u).outline = t.outline ++ u.outline) ∧
      (∀ ts, (Tree.concat ts).outline = ts.flatMap Tree.outline) ∧
      ∀ (t : Tree) c, (t.annotate c).outline = [.group c t.outline]) ∧
    (∀ t u : Tree, t.dump = u.dump ↔ t.outline = u.outline) ∧
    ∀ t : Tree, t.dumpItems = Tree.dropBlanks t.dumpItems ++ (if t.outline.isEmpty then [] else [' ']) ∧
      Tree.dropBlanks t.dumpItems = Outline.writeAll t.outline := by
  refine ⟨⟨⟨Tree.outline_empty, Tree.outline_text⟩, Tree.outline_append, Tree.outline_concat, Tree.outline_annotate⟩,
    fun t u => ?_, fun t => ?_⟩
  · rw [Tree.dump_eq, Tree.dump_eq, String.ofList_inj]
    exact ⟨Outline.writeAll_injective, congrArg Outline.writeAll⟩
  · rw [Tree.dumpItems_eq, Outline.dropBlanks_spread]
    refine ⟨?_, rfl⟩
    cases t.outline with
    | nil => rfl
    | cons o os => exact Outline.spread_cons o os

/-- Quotes and blanks in a fragment are not taken for those around it. -/
example : (Tree.text "a\" \"b").dump = "\"a\\\" \\\"b\"" ∧ ((Tree.text "a").append (.text "b")).dump = "\"a\" \"b\"" := by
  decide +kernel

end Ambigram
