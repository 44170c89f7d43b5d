/-!
# Entries

Names with what is stored under them, in the order in which the names came.  A name that is there already keeps its
place when something else is stored under it, and when a name is taken out, those behind it move up.
-/
namespace Ambigram
namespace Entries

variable {α : Type} {f g : String} {v : α} {e : String × α} {es : List (String × α)}

def insert (f : String) (v : α) : List (String × α) → List (String × α)
  | [] => [(f, v)]
  | (g, w) :: es => if g = f then (g, v) :: es else (g, w) :: insert f v es

def remove (f : String) (es : List (String × α)) : List (String × α) := es.eraseP fun e => e.1 = f

/-- Every name occurs once. -/
def Distinct (es : List (String × α)) : Prop := (es.map Prod.fst).Nodup

/-! ## Names -/

theorem lookup_cons (g f : String) (v : α) (es : List (String × α)) :
    ((f, v) :: es).lookup g = if g = f then some v else es.lookup g := by
  rw [List.lookup_cons]
  by_cases h : g = f
  · simp [h]
  · simp [beq_false_of_ne h, h]

theorem lookup_eq_none_iff : es.lookup f = none ↔ f ∉ es.map Prod.fst := by
  rw [List.lookup_eq_none_iff, List.mem_map]
  simp only [bne_iff_ne, not_exists, not_and]
  exact ⟨fun h e he heq => h e he heq.symm, fun h e he heq => h e he heq.symm⟩

theorem mem_of_lookup (h : es.lookup f = some v) : (f, v) ∈ es := by
  obtain ⟨front, back, rfl, -⟩ := List.lookup_eq_some_iff.1 h
  exact List.mem_append_right front List.mem_cons_self

theorem Distinct.lookup_of_mem : ∀ {es : List (String × α)}, Distinct es → (f, v) ∈ es → es.lookup f = some v
  | (g, w) :: es, hes, h => by
    rw [Distinct, List.map_cons, List.nodup_cons] at hes
    rw [lookup_cons]
    obtain heq | h := List.mem_cons.1 h
    · cases heq
      exact if_pos rfl
    · have hne : f ≠ g := fun heq => hes.1 (List.mem_map.2 ⟨(f, v), h, heq⟩)
      rw [if_neg hne]
      exact Distinct.lookup_of_mem hes.2 h

/-- A name that came before keeps its place. -/
theorem eraseDups_concat {γ : Type} [DecidableEq γ] (xs : List γ) (x : γ) :
    (xs ++ [x]).eraseDups = if x ∈ xs then xs.eraseDups else xs.eraseDups ++ [x] := by
  rw [List.eraseDups_append]
  split
  · rename_i h
    simp [List.removeAll, h]
  · rename_i h
    have hkept : [x].removeAll xs = [x] := by simp [List.removeAll, h]
    rw [hkept]
    rfl

/-! ## Storing -/

theorem lookup_insert (f g : String) (v : α) : ∀ es : List (String × α),
    (insert f v es).lookup g = if g = f then some v else es.lookup g
  | [] => lookup_cons g f v []
  | (h, w) :: es => by
    unfold insert
    by_cases hf : h = f
    · rw [if_pos hf, lookup_cons, lookup_cons]
      grind
    · rw [if_neg hf, lookup_cons, lookup_cons, lookup_insert f g v es]
      grind

/-- A name that is there already leaves the names as they are, and a new one comes last. -/
theorem map_fst_insert (f : String) (v : α) : ∀ es : List (String × α),
    f ∈ es.map Prod.fst ∧ (insert f v es).map Prod.fst = es.map Prod.fst ∨
      f ∉ es.map Prod.fst ∧ (insert f v es).map Prod.fst = es.map Prod.fst ++ [f]
  | [] => .inr ⟨List.not_mem_nil, rfl⟩
  | (g, w) :: es => by
    unfold insert
    by_cases h : g = f
    · subst h
      exact .inl ⟨List.mem_cons_self, by rw [if_pos rfl]; rfl⟩
    rw [if_neg h]
    obtain ⟨hmem, hrest⟩ | ⟨hnew, hrest⟩ := map_fst_insert f v es
    · exact .inl ⟨List.mem_cons_of_mem _ hmem, by rw [List.map_cons, hrest, List.map_cons]⟩
    · refine .inr ⟨fun hf => ?_, by rw [List.map_cons, hrest, List.map_cons, List.cons_append]⟩
      obtain hf | hf := List.mem_cons.1 hf
      · exact h hf.symm
      · exact hnew hf

theorem Distinct.insert (h : Distinct es) (f : String) (v : α) : Distinct (insert f v es) := by
  unfold Distinct
  obtain ⟨-, heq⟩ | ⟨hnew, heq⟩ := map_fst_insert f v es
  · rw [heq]
    exact h
  · rw [heq]
    exact List.nodup_append.2 ⟨h, List.pairwise_singleton _ f, fun g hg a ha hga =>
      hnew (List.mem_singleton.1 ha ▸ hga ▸ hg)⟩

theorem mem_insert : ∀ {es : List (String × α)}, e ∈ insert f v es → e = (f, v) ∨ e ∈ es
  | [], h => .inl (List.mem_singleton.1 h)
  | (g, w) :: es, h => by
    unfold Entries.insert at h
    by_cases hg : g = f
    · rw [if_pos hg] at h
      exact (List.mem_cons.1 h).imp (fun he => hg ▸ he) (List.mem_cons_of_mem _)
    · rw [if_neg hg] at h
      obtain rfl | h := List.mem_cons.1 h
      · exact .inr List.mem_cons_self
      · exact (mem_insert h).imp_right (List.mem_cons_of_mem _)

/-! ## Taking out -/

theorem mem_remove (h : e ∈ remove f es) : e ∈ es := List.mem_of_mem_eraseP h

theorem Distinct.remove (h : Distinct es) (f : String) : Distinct (remove f es) :=
  List.Pairwise.sublist (List.eraseP_sublist.map Prod.fst) h

theorem Distinct.lookup_remove (f g : String) : ∀ {es : List (String × α)}, Distinct es →
    (Entries.remove f es).lookup g = if g = f then none else es.lookup g
  | [], _ => by simp [Entries.remove]
  | (h, w) :: es, hes => by
    rw [Distinct, List.map_cons, List.nodup_cons] at hes
    unfold Entries.remove
    rw [List.eraseP_cons, lookup_cons]
    by_cases hf : h = f
    · have hgone : es.lookup h = none := lookup_eq_none_iff.2 hes.1
      simp only [hf, decide_true, cond_true]
      grind
    · have hrest : (Entries.remove f es).lookup g = _ := Distinct.lookup_remove f g hes.2
      simp only [hf, decide_false, cond_false]
      rw [lookup_cons, ← Entries.remove, hrest]
      grind

end Entries
end Ambigram
