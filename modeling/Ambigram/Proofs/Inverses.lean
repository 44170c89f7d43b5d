import Ambigram.Mapping
import Ambigram.Proofs.Records
/-!
# Folds taken apart again

Which results a fold takes apart, and into what.  Appending, writing a field and counting up are undone exactly where
they could have been done: their inverses give back what was put together, and what they give can be put together
again.  Only the bounds say where that ends, the minimal length of a list, the field that was set before, and the
largest integer.
-/
namespace Ambigram

variable {E α β γ : Type}

/-- The two inverses of a fold say the same of a result: they refuse it, it was not made by the fold, or it is made
again from what they give. -/
inductive Fold.Splits (env : E) (f : Fold E α β γ) (x : γ) : Prop
  | refused {e : Error} (left : f.left env x = .fail e) (right : f.right env x = .fail e)
  | whole (left : f.left env x = .miss) (right : f.right env x = .miss)
  | parts {l : α} {r : β} (left : f.left env x = .hit l) (right : f.right env x = .hit r)
    (made : f.apply env l r = .ok x)

/-! ## Lists -/

namespace Fold

variable {env : E} {min : Nat} {l xs : List α} {x : α}

theorem append_whole (h : xs.length ≤ min) :
    (append min).left env xs = .miss ∧ (append min).right env xs = .miss :=
  ⟨if_pos h, if_pos h⟩

theorem append_parts (h : min ≤ l.length) :
    (append min).left env (l ++ [x]) = .hit l ∧ (append min).right env (l ++ [x]) = .hit x := by
  have hlong : ¬ (l ++ [x]).length ≤ min := by
    rw [List.length_append, List.length_singleton]
    omega
  unfold append
  dsimp only
  rw [if_neg hlong, if_neg hlong, List.dropLast_concat, List.getLast?_concat]
  exact ⟨rfl, rfl⟩

/-- A list that is longer than the least one has a last element. -/
theorem splits_append (min : Nat) (env : E) (xs : List α) : (append min).Splits env xs := by
  by_cases h : xs.length ≤ min
  · exact .whole (append_whole h).1 (append_whole h).2
  · obtain rfl | ⟨l, x, rfl⟩ := xs.eq_nil_or_concat
    · exact absurd (Nat.zero_le min) h
    · rw [List.concat_eq_append] at h ⊢
      rw [List.length_append, List.length_singleton] at h
      have hlong : min ≤ l.length := Nat.le_of_lt_succ (Nat.lt_of_not_le h)
      exact .parts (append_parts hlong).1 (append_parts hlong).2 rfl

end Fold

/-! ## Fields

Clearing a field and writing to it leave the same behind, whatever was there before.  What is taken out of a field was
of its kind, so it can be put back. -/

namespace Record

variable {r r' r'' : Record} {f : String} {v : Value}

/-- What is stored under a name is of the kind that is declared for it. -/
def Typed (r : Record) : Prop := ∀ f v, r.get f = .ok (some v) → ∃ k, r.type.kind? f = some k ∧ k.admits v = true

theorem typed_unset (type : RecordType) : (unset type).Typed := fun _ _ h => by cases get_unset h

theorem Typed.put (hr : r.Typed) (hfits : r.Fits) (h : r.put f v = .ok r') : r'.Typed := by
  intro g w hg
  rw [get_put hfits h] at hg
  rw [type_of_put h]
  split at hg
  · rename_i hgf
    obtain ⟨_, k, -, hk, hadmits, -⟩ := put_eq_ok.1 h
    cases hg
    exact ⟨k, hgf ▸ hk, hadmits⟩
  · exact hr g w hg

theorem Typed.clear (hr : r.Typed) (h : r.clear f = .ok r') : r'.Typed := by
  intro g w hg
  rw [type_of_clear h]
  exact hr g w (get_of_get_clear h hg)

theorem Reached.typed {type : RecordType} (h : Reached type r) : r.Typed := by
  induction h with
  | unset => exact typed_unset _
  | put hreached hput ih => exact ih.put hreached.fits hput
  | clear _ hclear ih => exact ih.clear hclear

theorem clear_of_put (h : r.put f v = .ok r') : r'.clear f = r.clear f := by
  obtain ⟨i, _, hi, -, -, rfl⟩ := put_eq_ok.1 h
  have hcleared : r.clear f = .ok { r with slots := r.slots.set i none } := clear_eq_ok.2 ⟨i, hi, rfl⟩
  rw [hcleared]
  refine clear_eq_ok.2 ⟨i, hi, ?_⟩
  dsimp only
  rw [List.set_set]

theorem clear_eq_self_iff (h : r.clear f = .ok r') : r' = r ↔ r.get f = .ok none := by
  constructor
  · intro heq
    have hget := get_clear h f
    rwa [if_pos rfl, heq] at hget
  · intro hget
    obtain ⟨i, hi, rfl⟩ := clear_eq_ok.1 h
    have hnone : r.slots[i]?.join = none := Except.ok.inj ((get_of_place hi).symm.trans hget)
    have hslots : r.slots.set i none = r.slots := by
      by_cases hlt : i < r.slots.length
      · rw [List.getElem?_eq_getElem hlt] at hnone
        have hslot : r.slots[i] = none := hnone
        rw [← hslot, List.set_getElem_self]
      · exact List.set_eq_of_length_le (Nat.le_of_not_lt hlt)
    rw [hslots]

/-- What was taken out of a field can be put back. -/
theorem put_of_clear (hr : r.Typed) (hget : r.get f = .ok (some v)) (h : r.clear f = .ok r') : r'.put f v = .ok r := by
  obtain ⟨i, hi, rfl⟩ := clear_eq_ok.1 h
  obtain ⟨k, hk, hadmits⟩ := hr f v hget
  refine put_eq_ok.2 ⟨i, k, hi, hk, hadmits, ?_⟩
  have hslot : r.slots[i]?.join = some v := Except.ok.inj ((get_of_place hi).symm.trans hget)
  obtain ⟨hlt, hslot⟩ := List.getElem?_eq_some_iff.1 (Option.join_eq_some_iff.1 hslot)
  dsimp only
  rw [List.set_set, ← hslot, List.set_getElem_self]

end Record

/-- If the value is a record, writes and clears lead to it. -/
def Value.Made (v : Value) : Prop := ∀ r : Record, v = r.toValue → r.Reached r.type

theorem Record.Reached.made {type : RecordType} {r : Record} (h : r.Reached type) : r.toValue.Made := by
  intro r' hr'
  obtain rfl := toValue_inj hr'
  rwa [h.type_eq]

namespace Fold

variable {env : E} {name : String} {l r v : Value}

/-- A written field gives back what was written, and what was there before it is gone. -/
theorem field_parts (hl : l.Made) (h : (field name).apply env l r = .ok v) :
    (field name).right env v = .hit r ∧ ∃ l', (field name).left env v = .hit l' ∧ l.clear name = .ok l' ∧
      (l' = l ↔ l.get name = .ok none) := by
  obtain ⟨s, s', rfl, hput, rfl⟩ := Value.put_eq_ok.1 h
  have hget : s'.toValue.get name = .ok (some r) := by
    refine Value.get_eq_ok.2 ⟨s', rfl, ?_⟩
    rw [Record.get_put (hl s rfl).fits hput, if_pos rfl]
  obtain ⟨c, hc⟩ := Record.exists_clear (Record.get_put (hl s rfl).fits hput name |>.trans (if_pos rfl))
  have hclear : s.clear name = .ok c := Record.clear_of_put hput ▸ hc
  refine ⟨Outcome.ofExceptOption_eq_hit.2 hget, c.toValue, ?_, Value.clear_eq_ok.2 ⟨s, c, rfl, hclear, rfl⟩, ?_⟩
  · have hcleared : s'.toValue.clear name = .ok c.toValue := Value.clear_eq_ok.2 ⟨s', c, rfl, hc, rfl⟩
    unfold field
    dsimp only
    rw [hget]
    dsimp only
    rw [hcleared]
    rfl
  · have hunset : s.toValue.get name = .ok none ↔ s.get name = .ok none := Iff.rfl
    rw [hunset, ← Record.clear_eq_self_iff hclear]
    exact ⟨Record.toValue_inj, congrArg Record.toValue⟩

/-- What a field holds can be taken out and put back. -/
theorem splits_field (name : String) (env : E) (hv : v.Made) : (field name).Splits env v := by
  cases hget : v.get name with
  | error e =>
    refine .refused (e := e) ?_ (congrArg Outcome.ofExceptOption hget)
    unfold field
    dsimp only
    rw [hget]
  | ok o =>
    cases o with
    | none =>
      refine .whole ?_ (congrArg Outcome.ofExceptOption hget)
      unfold field
      dsimp only
      rw [hget]
    | some x =>
      obtain ⟨s, rfl, hs⟩ := Value.get_eq_ok.1 hget
      obtain ⟨c, hc⟩ := Record.exists_clear hs
      have hclear : s.toValue.clear name = .ok c.toValue := Value.clear_eq_ok.2 ⟨s, c, rfl, hc, rfl⟩
      have hback := Record.put_of_clear (hv s rfl).typed hs hc
      refine .parts (l := c.toValue) (r := x) ?_ (Outcome.ofExceptOption_eq_hit.2 hget)
        (Value.put_eq_ok.2 ⟨c, s, rfl, hback, rfl⟩)
      unfold field
      dsimp only
      rw [hget]
      dsimp only
      rw [hclear]
      rfl

end Fold

/-! ## Counting

An integer is told by what it stands for, so that neither the next nor the last one is met as 64 bits. -/

namespace Mapping

variable {env : E} {min m n : Int64}

theorem apply_increment_eq_ok : (increment min).apply env n = .ok m ↔ m.toInt = n.toInt + 1 := by
  rw [← int64?_eq_some_iff]
  unfold increment
  dsimp only
  cases int64? (n.toInt + 1) with
  | none => simp
  | some k => simp

/-- Only the largest integer has none that follows it. -/
theorem apply_increment_eq_error {e : Error} : (increment min).apply env n = .error e ↔
    n = .maxValue ∧ e = .invalidValue ("counter overflow at " ++ Decimal.ofInt n.toInt) := by
  have hlast : int64? (n.toInt + 1) = none ↔ n = .maxValue := by
    have hle := n.toInt_le
    have hge := n.minValue_le_toInt
    rw [int64?_eq_none_iff, ← Int64.toInt_inj]
    omega
  rw [← hlast]
  unfold increment
  dsimp only
  cases int64? (n.toInt + 1) with
  | none => simp [eq_comm]
  | some k => simp

/-- What is above some integer is above the least one, so counting down does not leave the 64 bits. -/
theorem toInt_sub_one (h : min < m) : (m - 1).toInt = m.toInt - 1 := by
  have hlt := Int64.lt_iff_toInt_lt.1 h
  have hmin := min.le_toInt
  have hm := m.toInt_lt
  have hone : (1 : Int64).toInt = 1 := rfl
  rw [Int64.toInt_sub, hone]
  exact Int.bmod_eq_of_le (by omega) (by omega)

theorem undo_increment_eq_miss : (increment min).undo env m = .miss ↔ m ≤ min := by
  unfold increment
  dsimp only
  split
  · rename_i h
    simpa using h
  · rename_i h
    simpa using h

theorem undo_increment_eq_hit : (increment min).undo env m = .hit n ↔ min < m ∧ n.toInt = m.toInt - 1 := by
  unfold increment
  dsimp only
  split
  · rename_i h
    rw [← toInt_sub_one h, Int64.toInt_inj]
    simp [h, eq_comm]
  · rename_i h
    simp [h]

/-- What was counted up is counted down again, unless it was below the least count. -/
theorem undo_of_apply_increment (h : (increment min).apply env n = .ok m) :
    (increment min).undo env m = if min ≤ n then .hit n else .miss := by
  have hm := apply_increment_eq_ok.1 h
  split
  · rename_i hle
    rw [Int64.le_iff_toInt_le] at hle
    refine undo_increment_eq_hit.2 ⟨Int64.lt_iff_toInt_lt.2 (by omega), by omega⟩
  · rename_i hlt
    rw [Int64.le_iff_toInt_le] at hlt
    exact undo_increment_eq_miss.2 (Int64.le_iff_toInt_le.2 (by omega))

/-- What is counted down can be counted up again. -/
theorem apply_of_undo_increment (h : min < m) : (increment min).undo env m = .hit (m - 1) ∧
    (m - 1).toInt = m.toInt - 1 ∧ (increment min).apply env (m - 1) = .ok m := by
  have hsub := toInt_sub_one h
  exact ⟨undo_increment_eq_hit.2 ⟨h, hsub⟩, hsub, apply_increment_eq_ok.2 (by omega)⟩

end Mapping

/-! ## The law of the inverses -/

/-- **Appending, writing to a field and counting up are undone exactly where they could have been done.**  An element
that was appended is given back with the list it was appended to, unless that list was too short.  A value that was
written to a field is given back with the record without the field.  A count that was not below the least one is given
back, and there is always one more, up to the largest integer.  The other way round, the two inverses agree on whether
a value was put together, and it is put together again from what they give; counting down stays within 64 bits. -/
theorem inverses_exact (env : E) :
    ((∀ (min : Nat) (l : List α) (x : α), ∃ xs, (Fold.append min).apply env l x = .ok xs ∧
        (min ≤ l.length → (Fold.append min).left env xs = .hit l ∧ (Fold.append min).right env xs = .hit x) ∧
        (l.length < min → (Fold.append min).left env xs = .miss ∧ (Fold.append min).right env xs = .miss)) ∧
      ∀ (min : Nat) (xs : List α), (Fold.append min).Splits env xs) ∧
    ((∀ (name : String) (l r v : Value), l.Made → (Fold.field name).apply env l r = .ok v →
        (Fold.field name).right env v = .hit r ∧ ∃ l', (Fold.field name).left env v = .hit l' ∧
          l.clear name = .ok l' ∧ (l' = l ↔ l.get name = .ok none)) ∧
      ∀ (name : String) (v : Value), v.Made → (Fold.field name).Splits env v) ∧
    (∀ min n : Int64,
      (∀ m, (Mapping.increment min).apply env n = .ok m →
        m.toInt = n.toInt + 1 ∧ (Mapping.increment min).undo env m = if min ≤ n then .hit n else .miss) ∧
      ((∃ e, (Mapping.increment min).apply env n = .error e) ↔ n = .maxValue)) ∧
    ∀ min m : Int64,
      (m ≤ min → (Mapping.increment min).undo env m = .miss) ∧
      (min < m → (Mapping.increment min).undo env m = .hit (m - 1) ∧ (m - 1).toInt = m.toInt - 1 ∧
        (Mapping.increment min).apply env (m - 1) = .ok m) := by
  refine ⟨⟨fun min l x => ⟨l ++ [x], rfl, Fold.append_parts, fun h => Fold.append_whole ?_⟩, fun min xs =>
      Fold.splits_append min env xs⟩,
    ⟨fun name l r v hl h => Fold.field_parts hl h, fun name v hv => Fold.splits_field name env hv⟩,
    fun min n => ⟨fun m h => ⟨Mapping.apply_increment_eq_ok.1 h, Mapping.undo_of_apply_increment h⟩, ?_⟩,
    fun min m => ⟨Mapping.undo_increment_eq_miss.2, Mapping.apply_of_undo_increment⟩⟩
  · rw [List.length_append, List.length_singleton]
    exact h
  · exact ⟨fun ⟨_, h⟩ => (Mapping.apply_increment_eq_error.1 h).1, fun h =>
      ⟨_, Mapping.apply_increment_eq_error.2 ⟨h, rfl⟩⟩⟩

/-- A list of one element, a record with one field that is written twice, and a count from the least one. -/
theorem inverses_exact_small :
    let type := RecordType.ofList "box" [("x", .int)]
    let empty : Record := .unset type
    let one : Record := ⟨type, [some (.int 1)]⟩
    let two : Record := ⟨type, [some (.int 2)]⟩
    let f : Fold Unit Value Value Value := .field "x"
    let g : Fold Unit (List Value) Value (List Value) := .append 1
    let up : Mapping Unit Int64 Int64 := .increment 0
    (g.left () [.int 1, .int 2] = .hit [.int 1] ∧ g.left () [.int 1] = .miss) ∧
    (one.toValue.Made ∧ f.apply () one.toValue (.int 2) = .ok two.toValue ∧
      f.right () two.toValue = .hit (.int 2) ∧ f.left () two.toValue = .hit empty.toValue) ∧
    f.Splits () two.toValue ∧
    (up.apply () 0 = .ok 1 ∧ up.undo () 1 = .hit 0) ∧
    (up.apply () (-1) = .ok 0 ∧ up.undo () 0 = .miss) ∧
    (∃ e, up.apply () .maxValue = .error e) ∧
    up.apply () (3 - 1) = .ok 3 := by
  intro type empty one two f g up
  have hone : one.Reached type := .put (f := "x") (v := .int 1) .unset rfl
  have htwo : two.Reached type := .put (f := "x") (v := .int 2) hone rfl
  obtain ⟨⟨happend, -⟩, ⟨hfield, hsplits⟩, hup, hdown⟩ := inverses_exact (α := Value) ()
  obtain ⟨xs, hxs, hlong, -⟩ := happend 1 [.int 1] (.int 2)
  obtain ⟨ys, hys, -, hshort⟩ := happend 1 [] (.int 1)
  obtain rfl := Except.ok.inj hxs
  obtain rfl := Except.ok.inj hys
  obtain ⟨hright, l', hleft, hl', -⟩ := hfield "x" one.toValue (.int 2) two.toValue hone.made rfl
  obtain rfl : empty.toValue = l' := Except.ok.inj hl'
  have hcounted := ((hup 0 0).1 1 rfl).2
  have hbelow := ((hup 0 (-1)).1 0 rfl).2
  exact ⟨⟨(hlong (by decide)).1, (hshort (by decide)).1⟩, ⟨hone.made, rfl, hright, hleft⟩, hsplits "x" _ htwo.made,
    ⟨rfl, hcounted.trans (if_pos (by decide))⟩, ⟨rfl, hbelow.trans (if_neg (by decide))⟩, (hup 0 _).2.2 rfl,
    ((hdown 0 3).2 (by decide)).2.2⟩

end Ambigram
