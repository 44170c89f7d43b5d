import Ambigram.Value.Entries
import Ambigram.Value.Record
import Mathlib.Data.List.Induction
/-!
# Records by name

What is read back from a record that was written to.  A declared name has one place, and no other name has that place, so
a write is seen under its own name and under no other.  Records of one type are the same if they read the same under
every name.
-/
namespace Ambigram

/-! ## Declarations -/

namespace RecordType

variable {type : RecordType} {f g : String} {i : Nat}

/-- Every name is declared once. -/
def Distinct (type : RecordType) : Prop := (type.fields.map Prod.fst).Nodup

theorem exists_of_place? (h : type.place? f = some i) : ∃ k, type.fields[i]? = some (f, k) := by
  obtain ⟨hi, hname, -⟩ := List.findIdx?_eq_some_iff_getElem.1 h
  exact ⟨type.fields[i].2, by rw [List.getElem?_eq_getElem hi, ← of_decide_eq_true hname]⟩

theorem place?_inj (hf : type.place? f = some i) (hg : type.place? g = some i) : f = g := by
  obtain ⟨k, hk⟩ := exists_of_place? hf
  obtain ⟨l, hl⟩ := exists_of_place? hg
  rw [hk] at hl
  cases hl
  rfl

theorem Distinct.place?_eq (h : type.Distinct) (hi : i < type.fields.length) : type.place? type.fields[i].1 = some i := by
  refine List.findIdx?_eq_some_iff_getElem.2 ⟨hi, by simp, fun j hj hname => ?_⟩
  have hne := List.pairwise_iff_getElem.1 h j i (by simp; omega) (by simpa using hi) hj
  simp only [List.getElem_map] at hne
  exact hne (of_decide_eq_true hname)

theorem exists_place? (h : f ∈ type.fields.map Prod.fst) : ∃ i, type.place? f = some i := by
  refine Option.isSome_iff_exists.1 ?_
  unfold place?
  obtain ⟨d, hd, rfl⟩ := List.mem_map.1 h
  rw [List.findIdx?_isSome, List.any_eq_true]
  exact ⟨d, hd, decide_eq_true rfl⟩

/-- A name has a kind if it has a place. -/
theorem isSome_kind? (type : RecordType) (f : String) : (type.kind? f).isSome = (type.place? f).isSome := by
  unfold kind? place?
  induction type.fields with
  | nil => rfl
  | cons d rest ih =>
    obtain ⟨g, k⟩ := d
    rw [List.lookup_cons, List.findIdx?_cons]
    by_cases h : g = f
    · simp [h]
    · simp only [beq_false_of_ne (Ne.symm h), h, decide_false, Bool.false_eq_true, if_false, ih, Option.isSome_map]

/-- A field is declared as an entry is stored. -/
theorem place_eq_insert (f : String) (k : Kind) : ∀ fields : List (String × Kind),
    declare.place f k fields = Entries.insert f k fields
  | [] => rfl
  | (g, l) :: rest => by rw [declare.place, Entries.insert, place_eq_insert f k rest]

theorem Distinct.declare (h : type.Distinct) (f : String) (k : Kind) : (type.declare f k).Distinct :=
  (congrArg Entries.Distinct (place_eq_insert f k type.fields)).mpr (Entries.Distinct.insert h f k)

theorem kind?_declare (type : RecordType) (f g : String) (k : Kind) :
    (type.declare f k).kind? g = if g = f then some k else type.kind? g := by
  show (declare.place f k type.fields).lookup g = _
  rw [place_eq_insert, Entries.lookup_insert]
  rfl

theorem ofList_concat (name : String) (declared : List (String × Kind)) (d : String × Kind) :
    ofList name (declared ++ [d]) = (ofList name declared).declare d.1 d.2 := by
  rw [ofList, List.foldl_append]
  rfl

theorem name_ofList (name : String) (declared : List (String × Kind)) : (ofList name declared).name = name := by
  induction declared using List.reverseRecOn with
  | nil => rfl
  | append_singleton declared d ih => exact (congrArg RecordType.name (ofList_concat name declared d)).trans ih

/-- A name that is declared again keeps its place. -/
theorem names_ofList (name : String) (declared : List (String × Kind)) :
    (ofList name declared).fields.map Prod.fst = (declared.map Prod.fst).eraseDups := by
  induction declared using List.reverseRecOn with
  | nil => rfl
  | append_singleton declared d ih =>
    rw [ofList_concat, List.map_append, List.map_singleton, Entries.eraseDups_concat, ← ih]
    show (declare.place d.1 d.2 (ofList name declared).fields).map Prod.fst = _
    rw [place_eq_insert]
    obtain ⟨hmem, heq⟩ | ⟨hnew, heq⟩ := Entries.map_fst_insert d.1 d.2 (ofList name declared).fields
    · rw [heq, if_pos (List.mem_eraseDups.1 (ih ▸ hmem))]
    · rw [heq, if_neg fun h => hnew (ih ▸ List.mem_eraseDups.2 h)]

/-- The kind that was declared last counts. -/
theorem kind?_ofList (name : String) (declared : List (String × Kind)) (f : String) :
    (ofList name declared).kind? f = declared.reverse.lookup f := by
  induction declared using List.reverseRecOn with
  | nil => rfl
  | append_singleton declared d ih =>
    rw [ofList_concat, kind?_declare, ih, List.reverse_append]
    exact (Entries.lookup_cons f d.1 d.2 declared.reverse).symm

theorem distinct_ofList (name : String) (declared : List (String × Kind)) : (ofList name declared).Distinct := by
  induction declared using List.reverseRecOn with
  | nil => exact List.nodup_nil
  | append_singleton declared d ih => exact ofList_concat name declared d ▸ ih.declare d.1 d.2

theorem mem_names_ofList {name : String} {declared : List (String × Kind)} :
    f ∈ (ofList name declared).fields.map Prod.fst ↔ f ∈ declared.map Prod.fst := by
  rw [names_ofList, List.mem_eraseDups]

end RecordType

/-! ## Writing -/

namespace Record

variable {r r' : Record} {f g : String} {v : Value}

theorem get_of_place {i : Nat} (hi : r.type.place? f = some i) : r.get f = .ok r.slots[i]?.join := by
  have hkind := r.type.isSome_kind? f
  rw [hi] at hkind
  obtain ⟨k, hk⟩ := Option.isSome_iff_exists.1 hkind
  unfold get declared
  rw [hi, hk]
  rfl

theorem get_of_no_place (h : r.type.place? f = none) : r.get f = .error (.unknownField r.type.name f) := by
  unfold get declared
  rw [h]
  rfl

theorem exists_get (h : f ∈ r.type.fields.map Prod.fst) : ∃ o, r.get f = .ok o :=
  (RecordType.exists_place? h).imp' _ fun _ hi => get_of_place hi

theorem mem_names_of_get {o : Option Value} (h : r.get f = .ok o) : f ∈ r.type.fields.map Prod.fst := by
  cases hi : r.type.place? f with
  | none =>
    rw [get_of_no_place hi] at h
    cases h
  | some i =>
    obtain ⟨k, hk⟩ := RecordType.exists_of_place? hi
    exact List.mem_map.2 ⟨(f, k), List.mem_of_getElem? hk, rfl⟩

theorem put_eq_ok : r.put f v = .ok r' ↔ ∃ i k, r.type.place? f = some i ∧ r.type.kind? f = some k ∧
    k.admits v = true ∧ r' = { r with slots := r.slots.set i (some v) } := by
  unfold put declared
  cases hi : r.type.place? f with
  | none => simp [bind, Except.bind]
  | some i =>
    cases hk : r.type.kind? f with
    | none => simp [bind, Except.bind]
    | some k =>
      by_cases hadmits : k.admits v
      · simp only [bind, Except.bind, hadmits, if_true, pure, Except.pure]
        constructor
        · intro h
          cases h
          exact ⟨i, k, rfl, rfl, hadmits, rfl⟩
        · rintro ⟨_, _, ⟨⟩, ⟨⟩, -, rfl⟩
          rfl
      · simp [bind, Except.bind, hadmits, throw, throwThe, MonadExceptOf.throw]

theorem clear_eq_ok : r.clear f = .ok r' ↔ ∃ i, r.type.place? f = some i ∧
    r' = { r with slots := r.slots.set i none } := by
  have hkind := r.type.isSome_kind? f
  unfold clear declared
  cases hi : r.type.place? f with
  | none => simp [bind, Except.bind]
  | some i =>
    rw [hi] at hkind
    obtain ⟨k, hk⟩ := Option.isSome_iff_exists.1 hkind
    rw [hk]
    simp [bind, Except.bind, pure, Except.pure, eq_comm]

/-- What can be read can be cleared. -/
theorem exists_clear {o : Option Value} (h : r.get f = .ok o) : ∃ r', r.clear f = .ok r' := by
  cases hi : r.type.place? f with
  | none =>
    rw [get_of_no_place hi] at h
    cases h
  | some i => exact ⟨_, clear_eq_ok.2 ⟨i, hi, rfl⟩⟩

theorem type_of_put (h : r.put f v = .ok r') : r'.type = r.type := by
  obtain ⟨_, _, -, -, -, rfl⟩ := put_eq_ok.1 h
  rfl

theorem type_of_clear (h : r.clear f = .ok r') : r'.type = r.type := by
  obtain ⟨_, -, rfl⟩ := clear_eq_ok.1 h
  rfl

/-- Another name has another place, or none, and there nothing was changed. -/
theorem get_set {i : Nat} (hi : r.type.place? f = some i) (hne : g ≠ f) (o : Option Value) :
    ({ r with slots := r.slots.set i o } : Record).get g = r.get g := by
  cases hj : r.type.place? g with
  | none => rw [get_of_no_place hj, get_of_no_place (by exact hj)]
  | some j =>
    have hij : i ≠ j := fun hij => hne (RecordType.place?_inj hj (hij ▸ hi))
    rw [get_of_place hj, get_of_place (by exact hj), List.getElem?_set_ne hij]

theorem get_clear (h : r.clear f = .ok r') (g : String) : r'.get g = if g = f then .ok none else r.get g := by
  obtain ⟨i, hi, rfl⟩ := clear_eq_ok.1 h
  by_cases hgf : g = f
  · subst hgf
    rw [get_of_place (by exact hi), if_pos rfl, List.getElem?_set_self']
    cases r.slots[i]? <;> rfl
  · rw [if_neg hgf]
    exact get_set hi hgf none

/-- What is set behind a clearing was set before. -/
theorem get_of_get_clear (h : r.clear f = .ok r') (hg : r'.get g = .ok (some v)) : r.get g = .ok (some v) := by
  rw [get_clear h] at hg
  split at hg
  · cases hg
  · exact hg

/-! ## Slots -/

/-- There is a slot for every declared field. -/
def Fits (r : Record) : Prop := r.slots.length = r.type.fields.length

theorem fits_unset (type : RecordType) : (unset type).Fits := by
  simp [Fits, unset]

theorem Fits.put (hr : r.Fits) (h : r.put f v = .ok r') : r'.Fits := by
  obtain ⟨_, _, -, -, -, rfl⟩ := put_eq_ok.1 h
  simpa [Fits] using hr

theorem Fits.clear (hr : r.Fits) (h : r.clear f = .ok r') : r'.Fits := by
  obtain ⟨_, -, rfl⟩ := clear_eq_ok.1 h
  simpa [Fits] using hr

theorem get_put (hr : r.Fits) (h : r.put f v = .ok r') (g : String) :
    r'.get g = if g = f then .ok (some v) else r.get g := by
  obtain ⟨i, k, hi, -, -, rfl⟩ := put_eq_ok.1 h
  by_cases hgf : g = f
  · subst hgf
    obtain ⟨_, hfield⟩ := RecordType.exists_of_place? hi
    have hlen : i < r.slots.length := hr ▸ (List.getElem?_eq_some_iff.1 hfield).1
    rw [get_of_place (by exact hi), if_pos rfl, List.getElem?_set_self hlen]
    rfl
  · rw [if_neg hgf]
    exact get_set hi hgf (some v)

theorem get_unset {type : RecordType} {o : Option Value} (h : (unset type).get f = .ok o) : o = none := by
  cases hi : (unset type).type.place? f with
  | none =>
    rw [get_of_no_place hi] at h
    cases h
  | some i =>
    rw [get_of_place hi] at h
    cases h
    show (type.fields.map fun _ => none)[i]?.join = none
    rw [List.getElem?_map]
    cases type.fields[i]? <;> rfl

/-- Records of one type in which every name reads the same are one record. -/
theorem eq_of_get (htype : r.type = r'.type) (hdistinct : r.type.Distinct) (hr : r.Fits) (hr' : r'.Fits)
    (h : ∀ f, r.get f = r'.get f) : r = r' := by
  obtain ⟨type, slots⟩ := r
  obtain ⟨_, slots'⟩ := r'
  obtain rfl : type = _ := htype
  have hslots : slots = slots' := by
    refine List.ext_getElem (hr.trans hr'.symm) fun i hi hi' => ?_
    have hplace := hdistinct.place?_eq (hr ▸ hi)
    have hget := h type.fields[i].1
    rw [get_of_place hplace, get_of_place (by exact hplace)] at hget
    dsimp only at hget
    rw [List.getElem?_eq_getElem hi, List.getElem?_eq_getElem hi'] at hget
    exact Except.ok.inj hget
  rw [hslots]

/-- A record in which nothing is set is the unset one. -/
theorem eq_unset (hdistinct : r.type.Distinct) (hr : r.Fits) (h : ∀ f v, r.get f ≠ .ok (some v)) : r = unset r.type := by
  refine eq_of_get rfl hdistinct hr (fits_unset _) fun f => ?_
  cases hi : r.type.place? f with
  | none =>
    rw [get_of_no_place hi, get_of_no_place (by exact hi)]
    rfl
  | some i =>
    have hget := get_of_place hi
    have hunset : (unset r.type).get f = .ok _ := get_of_place (by exact hi)
    cases hslot : r.slots[i]?.join with
    | none => rw [hget, hslot, hunset, get_unset hunset]
    | some v => exact absurd (hslot ▸ hget) (h f v)

/-! ## Records that were made -/

/-- A record of the type that writes and clears lead to, in any order, from the one with nothing set. -/
inductive Reached (type : RecordType) : Record → Prop
  | unset : Reached type (unset type)
  | put {r r' : Record} {f : String} {v : Value} (h : Reached type r) (hput : r.put f v = .ok r') : Reached type r'
  | clear {r r' : Record} {f : String} (h : Reached type r) (hclear : r.clear f = .ok r') : Reached type r'

theorem Reached.type_eq {type : RecordType} (h : Reached type r) : r.type = type := by
  induction h with
  | unset => rfl
  | put _ hput ih => exact (type_of_put hput).trans ih
  | clear _ hclear ih => exact (type_of_clear hclear).trans ih

theorem Reached.fits {type : RecordType} (h : Reached type r) : r.Fits := by
  induction h with
  | unset => exact fits_unset _
  | put _ hput ih => exact ih.put hput
  | clear _ hclear ih => exact ih.clear hclear

end Record

/-! ## Values that are records -/

namespace Value

variable {v v' w : Value} {f : String}

theorem asRecord_eq_ok {r : Record} : v.asRecord f = .ok r ↔ v = r.toValue := by
  constructor
  · intro h
    cases v with
    | record type slots =>
      cases h
      rfl
    | bool _ | int _ | string _ | list _ => cases h
  · rintro rfl
    rfl

theorem get_eq_ok {o : Option Value} : v.get f = .ok o ↔ ∃ r : Record, v = r.toValue ∧ r.get f = .ok o := by
  simp only [get, bind_eq_ok, asRecord_eq_ok]

theorem put_eq_ok : v.put f w = .ok v' ↔ ∃ r r' : Record, v = r.toValue ∧ r.put f w = .ok r' ∧ v' = r'.toValue := by
  simp only [put, bind_eq_ok, asRecord_eq_ok]
  exact ⟨fun ⟨r, hv, r', hr', h⟩ => ⟨r, r', hv, hr', (Except.ok.inj h).symm⟩, fun ⟨r, r', hv, hr', h⟩ =>
    ⟨r, hv, r', hr', congrArg Except.ok h.symm⟩⟩

theorem clear_eq_ok : v.clear f = .ok v' ↔ ∃ r r' : Record, v = r.toValue ∧ r.clear f = .ok r' ∧ v' = r'.toValue := by
  simp only [clear, bind_eq_ok, asRecord_eq_ok]
  exact ⟨fun ⟨r, hv, r', hr', h⟩ => ⟨r, r', hv, hr', (Except.ok.inj h).symm⟩, fun ⟨r, r', hv, hr', h⟩ =>
    ⟨r, hv, r', hr', congrArg Except.ok h.symm⟩⟩

end Value

theorem Record.toValue_inj {r r' : Record} (h : r.toValue = r'.toValue) : r = r' := by
  obtain ⟨type, slots⟩ := r
  obtain ⟨type', slots'⟩ := r'
  cases h
  rfl

end Ambigram
