import Ambigram.Mapping
import Mathlib.Data.List.Perm.Subperm
/-!
# Permutations

Lists that are put into an order, and back.  The pass that checks an order never looks whether all places are marked in
the end; none can be left over, because there are as many numbers as places.  A list is put back by writing its elements
over the list itself, at the places in the order; every place is written to once, so nothing of the list remains where
it was.
-/
namespace Ambigram
namespace Mapping

variable {E α ι : Type}

/-! ## The check -/

namespace Permutation

/-- As many different numbers as there are places leave no place over. -/
theorem perm_range_iff {order : List Nat} :
    order.Perm (List.range order.length) ↔ order.Nodup ∧ ∀ i ∈ order, i < order.length := by
  constructor
  · intro h
    exact ⟨h.nodup_iff.2 List.nodup_range, fun i hi => List.mem_range.1 (h.mem_iff.1 hi)⟩
  · rintro ⟨hnodup, hbounded⟩
    have hsub : order ⊆ List.range order.length := fun i hi => List.mem_range.2 (hbounded i hi)
    exact (List.subperm_of_subset hnodup hsub).perm_of_length_le (Nat.le_of_eq List.length_range)

theorem isSome_marks_iff_perm {order : List Nat} : (marks order).isSome ↔ order.Perm (List.range order.length) := by
  rw [isSome_marks_iff, perm_range_iff]

theorem ofList_eq_ok_iff {order : List Nat} {p : Permutation} :
    ofList order = .ok p ↔ order.Perm (List.range order.length) ∧ p.order = order := by
  rw [← isSome_marks_iff_perm]
  unfold ofList
  split
  · rename_i h
    obtain ⟨places, _, _⟩ := p
    rw [Except.ok.injEq, mk.injEq, and_iff_right h, eq_comm]
  · rename_i h
    exact ⟨nofun, fun hmarks => absurd hmarks.1 h⟩

theorem ofList_eq_error {order : List Nat} (h : ¬ order.Perm (List.range order.length)) :
    ofList order = .error (.invalidValue (showOrder order ++ " is not a permutation")) :=
  dif_neg (mt isSome_marks_iff_perm.1 h)

theorem perm_range (p : Permutation) : p.order.Perm (List.range p.order.length) :=
  perm_range_iff.2 ⟨p.nodup, p.bounded⟩

end Permutation

/-! ## Reading and writing

Reading leaves out what is not there, and writing behind the end does nothing.  Here neither happens, and both do what
they do when every place is checked. -/

theorem mapM_eq_some_iff {f : ι → Option α} : ∀ {is : List ι} {xs : List α},
    is.mapM f = some xs ↔ is.map f = xs.map some
  | [], [] | [], _ :: _ => by simp
  | i :: is, [] => by
    rw [List.mapM_cons]
    cases f i <;> cases is.mapM f <;> simp
  | i :: is, x :: xs => by
    rw [List.mapM_cons, List.map_cons, List.map_cons, List.cons.injEq, ← mapM_eq_some_iff]
    cases f i <;> cases is.mapM f <;> simp

theorem mapM_eq_some_filterMap {f : ι → Option α} {is : List ι} (h : ∀ i ∈ is, (f i).isSome) :
    is.mapM f = some (is.filterMap f) := by
  rw [mapM_eq_some_iff, List.map_filterMap]
  symm
  rw [List.filterMap_eq_map_iff_forall_eq_some]
  intro i hi
  obtain ⟨x, hx⟩ := Option.isSome_iff_exists.1 (h i hi)
  rw [hx]
  rfl

/-- Writes an element to its place, if there is one. -/
def write (xs : List α) (w : α × Nat) : Option (List α) := if w.2 < xs.length then some (xs.set w.2 w.1) else none

/-- Writes each element to its place, as far as there is one. -/
def writeAll (xs : List α) (ws : List (α × Nat)) : List α := ws.foldl (fun xs (y, i) => xs.set i y) xs

theorem foldlM_write : ∀ {ws : List (α × Nat)} {xs : List α}, (∀ w ∈ ws, w.2 < xs.length) →
    ws.foldlM write xs = some (writeAll xs ws)
  | [], _, _ => rfl
  | w :: ws, xs, h => by
    have hrest : ∀ v ∈ ws, v.2 < (xs.set w.2 w.1).length := fun v hv => by
      rw [List.length_set]
      exact h v (List.mem_cons_of_mem w hv)
    rw [List.foldlM_cons, write, if_pos (h w List.mem_cons_self), Option.bind_eq_bind, Option.bind_some,
      foldlM_write hrest]
    rfl

theorem length_writeAll : ∀ (ws : List (α × Nat)) (xs : List α), (writeAll xs ws).length = xs.length
  | [], _ => rfl
  | w :: ws, xs => (length_writeAll ws (xs.set w.2 w.1)).trans List.length_set

theorem getElem?_writeAll_of_notMem {i : Nat} : ∀ {ws : List (α × Nat)} (xs : List α), i ∉ ws.map Prod.snd →
    (writeAll xs ws)[i]? = xs[i]?
  | [], _, _ => rfl
  | w :: ws, xs, h => by
    rw [List.map_cons, List.mem_cons, not_or] at h
    exact (getElem?_writeAll_of_notMem (xs.set w.2 w.1) h.2).trans (List.getElem?_set_ne (Ne.symm h.1))

/-- Where no place is written to twice, what is written stays. -/
theorem getElem?_writeAll {w : α × Nat} : ∀ {ws : List (α × Nat)} (xs : List α), (ws.map Prod.snd).Nodup → w ∈ ws →
    w.2 < xs.length → (writeAll xs ws)[w.2]? = some w.1
  | v :: ws, xs, hnodup, hw, hlt => by
    rw [List.map_cons, List.nodup_cons] at hnodup
    obtain rfl | hw := List.mem_cons.1 hw
    · exact (getElem?_writeAll_of_notMem (xs.set w.2 w.1) hnodup.1).trans (List.getElem?_set_self hlt)
    · exact getElem?_writeAll (xs.set v.2 v.1) hnodup.2 hw (by rwa [List.length_set])

/-! ## There and back -/

section

variable (p : Permutation) {env : E} {xs ys zs : List α} {i k : Nat}

theorem apply_permute_eq_ok_iff :
    (permute p).apply env xs = .ok zs ↔ xs.length = p.order.length ∧ p.order.mapM (xs[·]?) = some zs := by
  unfold permute
  dsimp only
  split
  · rename_i h
    have hinside : ∀ i ∈ p.order, (xs[i]?).isSome := fun i hi => by
      rw [List.getElem?_eq_getElem (h ▸ p.bounded i hi)]
      rfl
    rw [mapM_eq_some_filterMap hinside]
    simp [h]
  · rename_i h
    exact ⟨nofun, fun hxs => absurd hxs.1 h⟩

theorem undo_permute_eq_hit_iff :
    (permute p).undo env ys = .hit zs ↔ ys.length = p.order.length ∧ (ys.zip p.order).foldlM write ys = some zs := by
  unfold permute
  dsimp only
  split
  · rename_i h
    have hinside : ∀ w ∈ ys.zip p.order, w.2 < ys.length := fun w hw => by
      rw [h]
      exact p.bounded w.2 (List.of_mem_zip hw).2
    rw [foldlM_write hinside]
    simp [h, writeAll]
  · rename_i h
    exact ⟨nofun, fun hys => absurd hys.1 h⟩

/-- Each element is put back to the place that the order names for it. -/
theorem getElem?_writeAll_zip (h : ys.length = p.order.length) (hk : p.order[k]? = some i) :
    (writeAll ys (ys.zip p.order))[i]? = ys[k]? := by
  have hlt : k < ys.length := h ▸ (List.getElem?_eq_some_iff.1 hk).1
  have hy : ys[k]? = some ys[k] := List.getElem?_eq_getElem hlt
  have hmem : (ys[k], i) ∈ ys.zip p.order := List.mem_of_getElem? (List.getElem?_zip_eq_some.2 ⟨hy, hk⟩)
  have hplaces : (ys.zip p.order).map Prod.snd = p.order := List.map_snd_zip (Nat.le_of_eq h.symm)
  rw [hy]
  exact getElem?_writeAll _ (hplaces.symm ▸ p.nodup) hmem (h ▸ p.bounded i (List.mem_of_getElem? hk))

theorem undo_of_apply_permute (h : (permute p).apply env xs = .ok zs) : (permute p).undo env zs = .hit xs := by
  obtain ⟨hlen, hreads⟩ := (apply_permute_eq_ok_iff p).1 h
  have hmap := mapM_eq_some_iff.1 hreads
  have hzs : zs.length = p.order.length := by simpa using (congrArg List.length hmap).symm
  have hback : writeAll zs (zs.zip p.order) = xs := by
    refine List.ext_getElem? fun i => ?_
    by_cases hi : i < p.order.length
    · -- The order names every place, so what was there is written over.
      obtain ⟨k, hk⟩ := List.mem_iff_getElem?.1 (p.perm_range.mem_iff.2 (List.mem_range.2 hi))
      have hread := congrArg (·[k]?) hmap
      simp only [List.getElem?_map, hk, Option.map_some] at hread
      rw [getElem?_writeAll_zip p hzs hk]
      cases hz : zs[k]? with
      | none => simp [hz] at hread
      | some z => simpa [hz] using hread.symm
    · rw [List.getElem?_eq_none, List.getElem?_eq_none]
      · omega
      · rw [length_writeAll]
        omega
  unfold permute
  dsimp only
  rw [if_pos hzs]
  exact congrArg Outcome.hit hback

theorem apply_of_undo_permute (h : (permute p).undo env ys = .hit xs) : (permute p).apply env xs = .ok ys := by
  unfold permute at h
  dsimp only at h
  split at h
  · rename_i hys
    obtain rfl : writeAll ys (ys.zip p.order) = xs := Outcome.hit.inj h
    refine (apply_permute_eq_ok_iff p).2 ⟨(length_writeAll _ _).trans hys, mapM_eq_some_iff.2 ?_⟩
    refine List.ext_getElem? fun k => ?_
    rw [List.getElem?_map, List.getElem?_map]
    by_cases hk : k < p.order.length
    · have hi : p.order[k]? = some p.order[k] := List.getElem?_eq_getElem hk
      have hy : ys[k]? = some ys[k] := List.getElem?_eq_getElem (hys ▸ hk)
      rw [hi, Option.map_some, getElem?_writeAll_zip p hys hi, hy, Option.map_some]
    · rw [List.getElem?_eq_none (by omega), List.getElem?_eq_none (by omega)]
      rfl
  · cases h

theorem apply_permute_eq_error (h : xs.length ≠ p.order.length) : (permute p).apply env xs =
    .error (.invalidValue ("expected a list of " ++ Decimal.ofNat p.order.length ++ " elements, got "
      ++ Decimal.ofNat xs.length)) :=
  if_neg h

theorem undo_permute_eq_miss (h : ys.length ≠ p.order.length) : (permute p).undo env ys = .miss := if_neg h

end

/-! ## The law of permutations -/

/-- **Orders are checked exactly, and lists of their length are put into them and back.**  An order is taken if it is a
permutation of the numbers below its length, and refused otherwise; one pass that marks places takes the same orders.
Exactly the lists of the length of the order are put into it, and exactly those are put back.  Both are done without
reading or writing a place that is not there, and each undoes the other. -/
theorem permutations_exact :
    (∀ order : List Nat,
      ((∃ p, Permutation.ofList order = .ok p ∧ p.order = order) ↔ order.Perm (List.range order.length)) ∧
      (Permutation.ofList order = .error (.invalidValue (showOrder order ++ " is not a permutation")) ↔
        ¬ order.Perm (List.range order.length)) ∧
      ((Permutation.marks order).isSome ↔ order.Perm (List.range order.length))) ∧
    ∀ (E α : Type) (env : E) (order : List Nat) (p : Permutation), Permutation.ofList order = .ok p →
      ∀ xs ys : List α,
      (((∃ zs, (permute p).apply env xs = .ok zs) ↔ xs.length = order.length) ∧
        (xs.length ≠ order.length → (permute p).apply env xs = .error (.invalidValue ("expected a list of "
          ++ Decimal.ofNat order.length ++ " elements, got " ++ Decimal.ofNat xs.length)))) ∧
      (((∃ zs, (permute p).undo env ys = .hit zs) ↔ ys.length = order.length) ∧
        (ys.length ≠ order.length → (permute p).undo env ys = .miss)) ∧
      (∀ zs, (permute p).apply env xs = .ok zs →
        order.mapM (xs[·]?) = some zs ∧ (permute p).undo env zs = .hit xs) ∧
      ∀ zs, (permute p).undo env ys = .hit zs →
        (ys.zip order).foldlM write ys = some zs ∧ (permute p).apply env zs = .ok ys := by
  constructor
  · intro order
    refine ⟨⟨fun ⟨p, hp, _⟩ => (Permutation.ofList_eq_ok_iff.1 hp).1, fun h => ?_⟩, ⟨fun h hperm => ?_,
      Permutation.ofList_eq_error⟩, Permutation.isSome_marks_iff_perm⟩
    · obtain ⟨hnodup, hbounded⟩ := Permutation.perm_range_iff.1 h
      exact ⟨⟨order, hnodup, hbounded⟩, Permutation.ofList_eq_ok_iff.2 ⟨h, rfl⟩, rfl⟩
    · obtain ⟨hnodup, hbounded⟩ := Permutation.perm_range_iff.1 hperm
      have hok := Permutation.ofList_eq_ok_iff (p := ⟨order, hnodup, hbounded⟩).2 ⟨hperm, rfl⟩
      rw [h] at hok
      cases hok
  · intro E α env order p hp xs ys
    obtain ⟨-, rfl⟩ := Permutation.ofList_eq_ok_iff.1 hp
    refine ⟨⟨⟨fun ⟨zs, h⟩ => ((apply_permute_eq_ok_iff p).1 h).1, fun h => ?_⟩, apply_permute_eq_error p⟩,
      ⟨⟨fun ⟨zs, h⟩ => ((undo_permute_eq_hit_iff p).1 h).1, fun h => ⟨_, if_pos h⟩⟩, undo_permute_eq_miss p⟩,
      fun zs h => ⟨((apply_permute_eq_ok_iff p).1 h).2, undo_of_apply_permute p h⟩,
      fun zs h => ⟨((undo_permute_eq_hit_iff p).1 h).2, apply_of_undo_permute p h⟩⟩
    exact ⟨_, if_pos h⟩

/-- Three elements are moved around by one place, and back. -/
theorem permutations_exact_rotation : ∃ p,
    Permutation.ofList [2, 0, 1] = .ok p ∧ (Permutation.marks [2, 0, 1]).isSome ∧
    (Permutation.ofList [0, 0, 1] = .error (.invalidValue "[0, 0, 1] is not a permutation")) ∧
    (permute p).apply () ["a", "b", "c"] = .ok ["c", "a", "b"] ∧
    (permute p).undo () ["c", "a", "b"] = .hit ["a", "b", "c"] ∧
    (permute p).undo () ["c"] = .miss := by
  have hlaw := permutations_exact
  obtain ⟨p, hp, horder⟩ := (hlaw.1 [2, 0, 1]).1.2 (by decide)
  have happly : (permute p).apply () ["a", "b", "c"] = .ok ["c", "a", "b"] := by
    obtain ⟨order, _, _⟩ := p
    subst horder
    rfl
  obtain ⟨-, ⟨-, hmiss⟩, hback, -⟩ := hlaw.2 Unit String () [2, 0, 1] p hp ["a", "b", "c"] ["c"]
  exact ⟨p, hp, by decide, (hlaw.1 [0, 0, 1]).2.1.2 (by decide), happly, (hback _ happly).2, hmiss (by decide)⟩

end Mapping
end Ambigram
