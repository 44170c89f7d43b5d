import Ambigram.Proofs.Records
import Ambigram.Value.Stored
/-!
# Stored records written to

What is stored after any number of writes.  A write fails if its field is not declared or takes other values, and else
it is what is found under its name from then on; so every stored field is declared, is of its kind and is stored once.
However the fields were stored, the record that they stand for is the one that the same writes lead to.
-/
namespace Ambigram

namespace StoredRecord

variable {r r' : StoredRecord} {f : String} {s? : Option Stored}

/-! ## One write -/

theorem get_of_kind? {k : Kind} (h : r.type.kind? f = some k) : r.get f = .ok (r.entries.lookup f) := by
  unfold get kindOf
  rw [h]
  rfl

theorem get_of_undeclared (h : r.type.kind? f = none) : r.get f = .error (.unknownField r.type.name f) := by
  unfold get kindOf
  rw [h]
  rfl

theorem write_eq_error_iff {e : Error} : r.write f s? = .error e ↔
    r.type.kind? f = none ∧ e = .unknownField r.type.name f ∨
    ∃ k s, r.type.kind? f = some k ∧ s? = some s ∧ (k ≠ .any ∧ k ≠ s.kind) ∧
      e = .kindMismatch r.type.name f k.name s.kindName := by
  unfold write kindOf
  cases r.type.kind? f with
  | none => simp [bind, Except.bind, eq_comm]
  | some k =>
    cases s? with
    | none => simp [bind, Except.bind, pure, Except.pure]
    | some s =>
      by_cases hk : k ≠ .any ∧ k ≠ s.kind
      · simp [bind, Except.bind, hk, throw, throwThe, MonadExceptOf.throw, eq_comm]
      · simp only [bind, Except.bind, hk, if_false, pure, Except.pure]
        simp [hk]

theorem write_some_eq_ok_iff {s : Stored} : r.write f (some s) = .ok r' ↔
    ∃ k, r.type.kind? f = some k ∧ (k = .any ∨ k = s.kind) ∧ r' = { r with entries := Entries.insert f s r.entries } := by
  unfold write kindOf
  cases r.type.kind? f with
  | none => simp [bind, Except.bind]
  | some k =>
    by_cases hk : k ≠ .any ∧ k ≠ s.kind
    · simp [bind, Except.bind, hk, throw, throwThe, MonadExceptOf.throw]
    · simp only [bind, Except.bind, hk, if_false, pure, Except.pure]
      have hk' : k = .any ∨ k = s.kind := Decidable.or_iff_not_not_and_not.2 hk
      simp [hk', eq_comm]

theorem write_none_eq_ok_iff : r.write f none = .ok r' ↔
    (r.type.kind? f).isSome ∧ r' = { r with entries := Entries.remove f r.entries } := by
  unfold write kindOf
  cases r.type.kind? f with
  | none => simp [bind, Except.bind]
  | some k => simp [bind, Except.bind, pure, Except.pure, eq_comm]

/-- A write either takes what is stored under a name out or puts something of the right kind there. -/
theorem write_cases (h : r.write f s? = .ok r') :
    (∃ k s, s? = some s ∧ r.type.kind? f = some k ∧ (k = .any ∨ k = s.kind) ∧
      r' = { r with entries := Entries.insert f s r.entries }) ∨
    s? = none ∧ r' = { r with entries := Entries.remove f r.entries } := by
  cases s? with
  | none => exact .inr ⟨rfl, (write_none_eq_ok_iff.1 h).2⟩
  | some s =>
    obtain ⟨k, hk, hkind, hr'⟩ := write_some_eq_ok_iff.1 h
    exact .inl ⟨k, s, rfl, hk, hkind, hr'⟩

theorem type_write (h : r.write f s? = .ok r') : r'.type = r.type := by
  obtain ⟨k, s, -, -, -, rfl⟩ | ⟨-, rfl⟩ := write_cases h <;> rfl

/-! ## What every write keeps -/

/-- Every stored field is declared, stored once and of its kind. -/
structure Checked (r : StoredRecord) : Prop where
  declared : r.type.Distinct
  distinct : Entries.Distinct r.entries
  typed : ∀ e ∈ r.entries, ∃ k, r.type.kind? e.1 = some k ∧ (k = .any ∨ k = e.2.kind)

theorem checked_unset {type : RecordType} (h : type.Distinct) : (unset type).Checked := ⟨h, List.nodup_nil, nofun⟩

theorem Checked.write (hr : r.Checked) (h : r.write f s? = .ok r') : r'.Checked := by
  obtain ⟨k, s, -, hk, hkind, rfl⟩ | ⟨-, rfl⟩ := write_cases h
  · refine ⟨hr.declared, hr.distinct.insert f s, fun e he => ?_⟩
    obtain rfl | he := Entries.mem_insert he
    · exact ⟨k, hk, hkind⟩
    · exact hr.typed e he
  · exact ⟨hr.declared, hr.distinct.remove f, fun e he => hr.typed e (Entries.mem_remove he)⟩

theorem Checked.lookup_of_undeclared (hr : r.Checked) (h : r.type.kind? f = none) : r.entries.lookup f = none := by
  rw [Entries.lookup_eq_none_iff]
  intro hf
  obtain ⟨e, he, rfl⟩ := List.mem_map.1 hf
  obtain ⟨k, hk, -⟩ := hr.typed e he
  rw [h] at hk
  cases hk

/-- What was written is found under its name, and everything else as before. -/
theorem Checked.lookup_write (hr : r.Checked) (h : r.write f s? = .ok r') (g : String) :
    r'.entries.lookup g = if g = f then s? else r.entries.lookup g := by
  obtain ⟨k, s, rfl, -, -, rfl⟩ | ⟨rfl, rfl⟩ := write_cases h
  · exact Entries.lookup_insert f g s r.entries
  · exact hr.distinct.lookup_remove f g

theorem Checked.get_write (hr : r.Checked) (h : r.write f s? = .ok r') (g : String) :
    r'.get g = if g = f then .ok s? else r.get g := by
  have htype := type_write h
  cases hg : r.type.kind? g with
  | some k =>
    rw [get_of_kind? hg, get_of_kind? (htype ▸ hg), hr.lookup_write h]
    split <;> rfl
  | none =>
    have hne : g ≠ f := fun heq => by
      have herror : r.write f s? = .error _ := write_eq_error_iff.2 (.inl ⟨heq ▸ hg, rfl⟩)
      rw [h] at herror
      cases herror
    rw [get_of_undeclared hg, get_of_undeclared (htype ▸ hg), htype, if_neg hne]

/-! ## Many writes -/

theorem type_run : ∀ (writes : List (String × Option Stored)) (r : StoredRecord), (r.run writes).type = r.type
  | [], _ => rfl
  | (f, s?) :: writes, r => by
    unfold run
    cases h : r.write f s? with
    | ok r' => exact (type_run writes r').trans (type_write h)
    | error e => exact type_run writes r

theorem Checked.run : ∀ (writes : List (String × Option Stored)) {r : StoredRecord}, r.Checked → (r.run writes).Checked
  | [], _, hr => hr
  | (f, s?) :: writes, r, hr => by
    unfold StoredRecord.run
    cases h : r.write f s? with
    | ok r' => exact Checked.run writes (hr.write h)
    | error e => exact Checked.run writes hr

/-- What is stored was written. -/
theorem forall_mem_run (P : Stored → Prop) : ∀ (writes : List (String × Option Stored)) (r : StoredRecord),
    (∀ e ∈ r.entries, P e.2) → (∀ w ∈ writes, ∀ s ∈ w.2, P s) → ∀ e ∈ (r.run writes).entries, P e.2
  | [], _, hr, _ => hr
  | (f, s?) :: writes, r, hr, hwrites => by
    rw [List.forall_mem_cons] at hwrites
    unfold run
    cases h : r.write f s? with
    | error e => exact forall_mem_run P writes r hr hwrites.2
    | ok r' =>
      refine forall_mem_run P writes r' (fun e he => ?_) hwrites.2
      obtain ⟨k, s, hs, -, -, rfl⟩ | ⟨-, rfl⟩ := write_cases h
      · obtain rfl | he := Entries.mem_insert he
        · exact hwrites.1 s hs
        · exact hr e he
      · exact hr e (Entries.mem_remove he)

/-- **The last write that did not fail is what is found**, and what was stored before where there was none. -/
theorem Checked.lookup_run (g : String) : ∀ (writes : List (String × Option Stored)) {r : StoredRecord}, r.Checked →
    (r.run writes).entries.lookup g = ((r.done writes).reverse.lookup g).getD (r.entries.lookup g)
  | [], _, _ => rfl
  | (f, s?) :: writes, r, hr => by
    unfold StoredRecord.run done
    cases h : r.write f s? with
    | error e => exact Checked.lookup_run g writes hr
    | ok r' =>
      dsimp only
      -- A write that comes later hides this one.
      rw [Checked.lookup_run g writes (hr.write h), hr.lookup_write h, List.reverse_cons, List.lookup_append,
        Entries.lookup_cons]
      cases (r'.done writes).reverse.lookup g with
      | some s => rfl
      | none =>
        by_cases hg : g = f
        · rw [if_pos hg, if_pos hg]
          rfl
        · rw [if_neg hg, if_neg hg]
          rfl

/-! ## In declared order -/

theorem map_fst_listed_sublist (r : StoredRecord) : (r.listed.map Prod.fst).Sublist (r.type.fields.map Prod.fst) := by
  unfold listed
  induction r.type.fields with
  | nil => exact .slnil
  | cons d fields ih =>
    rw [List.filterMap_cons]
    cases r.entries.lookup d.1 with
    | none => exact ih.cons d.1
    | some s => exact ih.cons_cons d.1

theorem Checked.mem_listed_iff (hr : r.Checked) {s : Stored} : (f, s) ∈ r.listed ↔ r.entries.lookup f = some s := by
  unfold listed
  rw [List.mem_filterMap]
  constructor
  · rintro ⟨d, -, hd⟩
    obtain ⟨s', hs', heq⟩ := Option.map_eq_some_iff.1 hd
    cases heq
    exact hs'
  · intro h
    obtain ⟨k, hk, -⟩ := hr.typed _ (Entries.mem_of_lookup h)
    exact ⟨(f, k), Entries.mem_of_lookup hk, by rw [h]; rfl⟩

/-- Every stored field is listed once. -/
theorem Checked.length_listed (hr : r.Checked) : r.listed.length = r.entries.length := by
  have hlisted : (r.listed.map Prod.fst).Nodup := List.Pairwise.sublist (map_fst_listed_sublist r) hr.declared
  have hperm : (r.listed.map Prod.fst).Perm (r.entries.map Prod.fst) := by
    refine (List.perm_ext_iff_of_nodup hlisted hr.distinct).2 fun g => ?_
    simp only [List.mem_map]
    constructor
    · rintro ⟨e, he, rfl⟩
      exact ⟨e, Entries.mem_of_lookup (hr.mem_listed_iff.1 he), rfl⟩
    · rintro ⟨e, he, rfl⟩
      exact ⟨e, hr.mem_listed_iff.2 (hr.distinct.lookup_of_mem he), rfl⟩
  simpa using hperm.length_eq

end StoredRecord
end Ambigram
