import Ambigram.Proofs.Storage
import Mathlib.Data.List.Perm.Subperm
/-!
# Stored values compared

When two stored values count as the same.  A comparison only looks up the fields of the one record in the other and
counts them; because every field is stored once, this says that the two records agree on every name.  So it does not
matter which one comes first, and in which order the fields were stored or declared.
-/
namespace Ambigram

/-! ## Entries -/

namespace Entries

variable {α β : Type} {es : List (String × α)} {fs : List (String × β)}

/-- Entries that are as many and are all found among others are all of those: there is no room for a name besides. -/
theorem covers_iff (R : α → β → Prop) (hes : Distinct es) (hfs : Distinct fs) :
    (es.length = fs.length ∧ ∀ e ∈ es, ∃ w, fs.lookup e.1 = some w ∧ R e.2 w) ↔
      ∀ f, Option.Rel R (es.lookup f) (fs.lookup f) := by
  constructor
  · rintro ⟨hlen, hfound⟩ f
    cases hf : es.lookup f with
    | some v =>
      obtain ⟨w, hw, hvw⟩ := hfound (f, v) (mem_of_lookup hf)
      dsimp only at hw
      rw [hw]
      exact .some hvw
    | none =>
      -- Both have as many names, so the names of the second one are all in the first one.
      have hsub : es.map Prod.fst ⊆ fs.map Prod.fst := fun g hg => by
        obtain ⟨e, he, rfl⟩ := List.mem_map.1 hg
        obtain ⟨w, hw, -⟩ := hfound e he
        exact List.mem_map.2 ⟨(e.1, w), mem_of_lookup hw, rfl⟩
      have hperm : (es.map Prod.fst).Perm (fs.map Prod.fst) :=
        (List.subperm_of_subset hes hsub).perm_of_length_le (by simp [hlen])
      rw [lookup_eq_none_iff.2 (mt hperm.mem_iff.2 (lookup_eq_none_iff.1 hf))]
      exact .none
  · intro hrel
    have hsame : ∀ f, f ∈ es.map Prod.fst ↔ f ∈ fs.map Prod.fst := fun f => by
      have hf := hrel f
      rw [← not_iff_not, ← lookup_eq_none_iff, ← lookup_eq_none_iff]
      generalize es.lookup f = v at hf
      generalize fs.lookup f = w at hf
      cases hf <;> simp
    refine ⟨?_, fun e he => ?_⟩
    · simpa using ((List.perm_ext_iff_of_nodup hes hfs).2 hsame).length_eq
    · have hf := hrel e.1
      rw [hes.lookup_of_mem (v := e.2) he] at hf
      generalize fs.lookup e.1 = w at hf
      cases hf with
      | some h => exact ⟨_, rfl, h⟩

/-! What is found under one name in several places. -/

section Found

variable {γ : Type} {R : α → β → Prop} {v : Option α} {w : Option β} {x : Option γ}

theorem rel_comm {S : β → α → Prop} (h : ∀ a ∈ v, ∀ b ∈ w, R a b ↔ S b a) : Option.Rel R v w ↔ Option.Rel S w v := by
  cases v <;> cases w
  · simp
  · exact ⟨nofun, nofun⟩
  · exact ⟨nofun, nofun⟩
  · simpa using h _ rfl _ rfl

theorem rel_trans {S : β → γ → Prop} {T : α → γ → Prop} (hvw : Option.Rel R v w) (hwx : Option.Rel S w x)
    (h : ∀ a ∈ v, ∀ b ∈ w, ∀ c ∈ x, R a b → S b c → T a c) : Option.Rel T v x := by
  cases hvw with
  | none =>
    cases hwx
    exact .none
  | some hab =>
    cases hwx with
    | some hbc => exact .some (h _ rfl _ rfl _ rfl hab hbc)

theorem rel_iff_map_eq {f : α → γ} {g : β → γ} (h : ∀ a ∈ v, ∀ b ∈ w, R a b ↔ f a = g b) :
    Option.Rel R v w ↔ v.map f = w.map g := by
  cases v <;> cases w
  · simp
  · exact ⟨nofun, nofun⟩
  · exact ⟨nofun, nofun⟩
  · simpa using h _ rfl _ rfl

end Found

end Entries

/-! ## Types -/

theorem RecordType.same_iff {t u : RecordType} (ht : t.Distinct) (hu : u.Distinct) :
    t.same u = true ↔ t.name = u.name ∧ ∀ f, t.kind? f = u.kind? f := by
  have hfields : (∀ f, Option.Rel (· = ·) (t.kind? f) (u.kind? f)) ↔ ∀ f, t.kind? f = u.kind? f :=
    forall_congr' fun f => (Entries.rel_iff_map_eq (f := id) (g := id) fun _ _ _ _ => Iff.rfl).trans (by simp)
  rw [← hfields, same, Bool.and_eq_true, Bool.and_eq_true, and_assoc, decide_eq_true_iff, decide_eq_true_iff]
  refine and_congr Iff.rfl (Iff.trans (and_congr Iff.rfl ?_) (Entries.covers_iff (· = ·) ht hu))
  rw [List.all_eq_true]
  refine forall₂_congr fun d _ => ?_
  rw [decide_eq_true_iff, exists_eq_right']
  rfl

namespace Stored

variable {a b c : Stored} {r r' : StoredRecord} {as bs : List Stored}

/-! ## One comparison -/

theorem covered_iff : ∀ (es fs : List (String × Stored)), covered es fs = true ↔
    ∀ e ∈ es, ∃ s, fs.lookup e.1 = some s ∧ s.same e.2 = true
  | [], fs => by simp [covered]
  | (f, a) :: es, fs => by
    rw [covered, Bool.and_eq_true, covered_iff es fs, List.forall_mem_cons]
    refine and_congr ?_ Iff.rfl
    split
    · rename_i s hs
      simp [hs]
    · rename_i hnone
      simp [hnone]

theorem same_stored_iff (hr : r.Checked) (hr' : r'.Checked) : r.stored.same r'.stored = true ↔
    r.type.same r'.type = true ∧
      ∀ f, Option.Rel (fun a b => b.same a = true) (r.entries.lookup f) (r'.entries.lookup f) := by
  rw [StoredRecord.stored, StoredRecord.stored, same, Bool.and_eq_true, Bool.and_eq_true, and_assoc, covered_iff,
    decide_eq_true_iff]
  exact and_congr Iff.rfl (Entries.covers_iff (fun a b => b.same a = true) hr.distinct hr'.distinct)

/-! ## Sound values -/

/-- All records in the value are checked. -/
inductive Sound : Stored → Prop
  | bool (b : Bool) : Sound (.bool b)
  | int (n : Int64) : Sound (.int n)
  | string (s : String) : Sound (.string s)
  | list {items : List Stored} (h : ∀ s ∈ items, Sound s) : Sound (.list items)
  | record {type : RecordType} {es : List (String × Stored)} (hr : (StoredRecord.mk type es).Checked)
    (h : ∀ e ∈ es, Sound e.2) : Sound (.record type es)

theorem sameAll_self : ∀ {as : List Stored}, (∀ a ∈ as, a.same a = true) → sameAll as as = true
  | [], _ => by rw [sameAll]
  | a :: as, h => by
    rw [sameAll, h a List.mem_cons_self, sameAll_self fun b hb => h b (List.mem_cons_of_mem a hb)]
    rfl

theorem sameAll_comm : ∀ {as bs : List Stored}, (∀ a ∈ as, ∀ b ∈ bs, a.same b = b.same a) → sameAll as bs = sameAll bs as
  | [], [], _ => rfl
  | [], b :: bs, _ => by simp [sameAll]
  | a :: as, [], _ => by simp [sameAll]
  | a :: as, b :: bs, h => by
    rw [sameAll, sameAll, h a List.mem_cons_self b List.mem_cons_self, sameAll_comm fun c hc d hd =>
      h c (List.mem_cons_of_mem a hc) d (List.mem_cons_of_mem b hd)]

theorem sameAll_trans : ∀ {as bs cs : List Stored},
    (∀ a ∈ as, ∀ b ∈ bs, ∀ c ∈ cs, a.same b = true → b.same c = true → a.same c = true) →
    sameAll as bs = true → sameAll bs cs = true → sameAll as cs = true
  | [], [], _, _, _, h => h
  | [], _ :: _, _, _, h, _ => by simp [sameAll] at h
  | _ :: _, [], _, _, h, _ => by simp [sameAll] at h
  | _ :: _, _ :: _, [], _, _, h => by simp [sameAll] at h
  | a :: as, b :: bs, c :: cs, htrans, hab, hbc => by
    rw [sameAll, Bool.and_eq_true] at hab hbc ⊢
    exact ⟨htrans a List.mem_cons_self b List.mem_cons_self c List.mem_cons_self hab.1 hbc.1,
      sameAll_trans (fun a' ha b' hb c' hc => htrans a' (List.mem_cons_of_mem a ha) b' (List.mem_cons_of_mem b hb) c'
        (List.mem_cons_of_mem c hc)) hab.2 hbc.2⟩

theorem Sound.same_self (ha : a.Sound) : a.same a = true := by
  induction ha with
  | bool b => simp [same]
  | int n => simp [same]
  | string s => simp [same]
  | list _ ih =>
    rw [same]
    exact sameAll_self ih
  | @record type es hr _ ih =>
    refine (same_stored_iff hr hr).2 ⟨(RecordType.same_iff hr.declared hr.declared).2 ⟨rfl, fun _ => rfl⟩, fun f => ?_⟩
    dsimp only
    cases hf : es.lookup f with
    | none => exact .none
    | some s => exact .some (ih _ (Entries.mem_of_lookup hf))

theorem Sound.same_comm (ha : a.Sound) : ∀ {b : Stored}, b.Sound → a.same b = b.same a := by
  induction ha with
  | bool x => intro b _; cases b <;> simp [same, eq_comm]
  | int n => intro b _; cases b <;> simp [same, eq_comm]
  | string s => intro b _; cases b <;> simp [same, eq_comm]
  | list _ ih =>
    intro b hb
    cases hb with
    | list hbs =>
      rw [same, same]
      exact sameAll_comm fun a ha b hb => ih a ha (hbs b hb)
    | _ => simp [same]
  | @record type es hr _ ih =>
    intro b hb
    cases hb with
    | @record type' fs hr' hfs =>
      rw [Bool.eq_iff_iff]
      refine (same_stored_iff hr hr').trans (Iff.trans ?_ (same_stored_iff hr' hr).symm)
      rw [RecordType.same_iff hr.declared hr'.declared, RecordType.same_iff hr'.declared hr.declared]
      refine and_congr (by simp only [eq_comm]) (forall_congr' fun f => Entries.rel_comm fun x hx y hy => ?_)
      rw [ih _ (Entries.mem_of_lookup hx) (hfs _ (Entries.mem_of_lookup hy))]
    | _ => simp [same]

theorem Sound.same_trans (ha : a.Sound) : ∀ {b c : Stored}, b.Sound → c.Sound → a.same b = true → b.same c = true →
    a.same c = true := by
  induction ha with
  | bool x => intro b c _ _ hab hbc; cases b <;> cases c <;> simp_all [same]
  | int n => intro b c _ _ hab hbc; cases b <;> cases c <;> simp_all [same]
  | string s => intro b c _ _ hab hbc; cases b <;> cases c <;> simp_all [same]
  | list _ ih =>
    intro b c hb hc hab hbc
    cases hb with
    | list hbs =>
      cases hc with
      | list hcs =>
        rw [same] at hab hbc ⊢
        exact sameAll_trans (fun a ha b hb c hc => ih a ha (hbs b hb) (hcs c hc)) hab hbc
      | _ => simp [same] at hbc
    | _ => simp [same] at hab
  | @record type es hr hes ih =>
    intro b c hb hc hab hbc
    cases hb with
    | @record type' fs hr' hfs =>
      cases hc with
      | @record type'' gs hr'' hgs =>
        obtain ⟨htype, hab⟩ := (same_stored_iff hr hr').1 hab
        obtain ⟨htype', hbc⟩ := (same_stored_iff hr' hr'').1 hbc
        rw [RecordType.same_iff hr.declared hr'.declared] at htype
        rw [RecordType.same_iff hr'.declared hr''.declared] at htype'
        refine (same_stored_iff hr hr'').2 ⟨(RecordType.same_iff hr.declared hr''.declared).2
          ⟨htype.1.trans htype'.1, fun f => (htype.2 f).trans (htype'.2 f)⟩, fun f =>
          Entries.rel_trans (hab f) (hbc f) fun x hx y hy z hz hxy hyz => ?_⟩
        -- Each comparison put the second value first; turned round, they go the way of the induction.
        have hx' := hes _ (Entries.mem_of_lookup hx)
        have hy' := hfs _ (Entries.mem_of_lookup hy)
        have hz' := hgs _ (Entries.mem_of_lookup hz)
        rw [hy'.same_comm hx'] at hxy
        rw [hz'.same_comm hy'] at hyz
        rw [hz'.same_comm hx']
        exact ih _ (Entries.mem_of_lookup hx) hy' hz' hxy hyz
      | _ => simp [same] at hbc
    | _ => simp [same] at hab

end Stored

end Ambigram
