import Ambigram.Proofs.Sameness
import Ambigram.Value.Json
/-!
# Records as finite maps

A record is told by what is found under each declared name, however it came there.  What is stored and the record with
its slots say the same: they are written to, read and written out alike, and as long as the name of a type stands for
one type they are compared alike.
-/
namespace Ambigram

/-! ## Records with slots -/

namespace Record

variable {r : Record} {f : String} {v : Value}

theorem put_of_undeclared (h : r.type.kind? f = none) : r.put f v = .error (.unknownField r.type.name f) := by
  unfold put declared
  rw [h]
  cases r.type.place? f <;> rfl

theorem clear_of_undeclared (h : r.type.kind? f = none) : r.clear f = .error (.unknownField r.type.name f) := by
  unfold clear declared
  rw [h]
  cases r.type.place? f <;> rfl

theorem exists_place_of_kind? {k : Kind} (h : r.type.kind? f = some k) : ∃ i, r.type.place? f = some i := by
  have hplace := r.type.isSome_kind? f
  rw [h] at hplace
  exact Option.isSome_iff_exists.1 hplace.symm

theorem put_of_not_admits {k : Kind} (h : r.type.kind? f = some k) (hk : k.admits v = false) :
    r.put f v = .error (.kindMismatch r.type.name f k.name v.kindName) := by
  obtain ⟨i, hi⟩ := exists_place_of_kind? h
  unfold put declared
  rw [h, hi]
  simp [bind, Except.bind, hk, throw, throwThe, MonadExceptOf.throw]

end Record

namespace Value

theorem jsonFields_eq : ∀ (fields : List (String × Kind)) (slots : List (Option Value)), jsonFields fields slots =
    String.join (((fields.zip slots).filterMap fun (d, slot) => slot.map (d.1, ·)).map fun e =>
      "," ++ Json.quote e.1 ++ ":" ++ e.2.json)
  | [], _ => by simp [jsonFields]
  | _ :: _, [] => by simp [jsonFields]
  | (name, k) :: fields, some v :: slots => by
    rw [jsonFields, jsonFields_eq fields slots]
    simp [String.join_cons]
  | d :: fields, none :: slots => by
    rw [jsonFields, jsonFields_eq fields slots]
    simp

/-- A record is written out with its type and then its set fields in declared order. -/
theorem json_toValue (r : Record) : r.toValue.json = "\x7b" ++ Json.quote "type" ++ ":" ++ Json.quote r.type.name ++
    String.join (r.entries.map fun e => "," ++ Json.quote e.1 ++ ":" ++ e.2.json) ++ "\x7d" := by
  rw [Record.toValue, json, jsonFields_eq]
  rfl

end Value

/-! ## What is stored in slots -/

namespace Stored

theorem kind_value : ∀ s : Stored, s.value.kind = s.kind
  | .bool _ | .int _ | .string _ | .list _ | .record _ _ => rfl

theorem kindName_value : ∀ s : Stored, s.value.kindName = s.kindName
  | .bool _ | .int _ | .string _ | .list _ | .record _ _ => rfl

theorem admits_value {k : Kind} {s : Stored} : k.admits s.value = true ↔ k = .any ∨ k = s.kind := by
  simp [Kind.admits, kind_value]

theorem lookup_namedValues (f : String) : ∀ es : List (String × Stored),
    (namedValues es).lookup f = (es.lookup f).map value
  | [] => rfl
  | (g, s) :: es => by
    rw [namedValues, Entries.lookup_cons, Entries.lookup_cons, lookup_namedValues f es]
    split <;> rfl

end Stored

namespace StoredRecord

variable {r r' : StoredRecord} {f : String} {s : Stored}

theorem fits_record (r : StoredRecord) : r.record.Fits := List.length_map _

theorem record_unset (type : RecordType) : (unset type).record = Record.unset type := rfl

theorem get_record (r : StoredRecord) (f : String) : r.record.get f = (r.get f).map (·.map Stored.value) := by
  cases hk : r.type.kind? f with
  | none =>
    have hnone : r.type.place? f = none := by simpa [hk] using (r.type.isSome_kind? f).symm
    rw [get_of_undeclared hk]
    exact Record.get_of_no_place hnone
  | some k =>
    obtain ⟨i, hi⟩ := Record.exists_place_of_kind? (r := r.record) hk
    obtain ⟨l, hl⟩ : ∃ l, r.type.fields[i]? = some (f, l) := RecordType.exists_of_place? hi
    rw [get_of_kind? hk, Record.get_of_place hi]
    dsimp only [record]
    rw [List.getElem?_map, hl, Option.map_some, Option.join_some, Stored.lookup_namedValues]
    rfl

theorem entries_record (r : StoredRecord) : r.record.entries = r.listed.map fun e => (e.1, e.2.value) := by
  unfold Record.entries record listed
  dsimp only
  induction r.type.fields with
  | nil => rfl
  | cons d fields ih =>
    rw [List.map_cons, List.zip_cons_cons, List.filterMap_cons, List.filterMap_cons, ih, Stored.lookup_namedValues]
    cases r.entries.lookup d.1 <;> rfl

/-- A record that reads like the one before, but for what was written, is the one after. -/
theorem Checked.eq_record_of_write (hr : r.Checked) {s? : Option Stored} (h : r.write f s? = .ok r') {q : Record}
    (htype : q.type = r.type) (hfits : q.Fits)
    (hget : ∀ g, q.get g = if g = f then .ok (s?.map Stored.value) else r.record.get g) : q = r'.record := by
  refine Record.eq_of_get (htype.trans (type_write h).symm) (htype ▸ hr.declared) hfits r'.fits_record fun g => ?_
  rw [hget, get_record, get_record, hr.get_write h]
  split <;> rfl

theorem Checked.record_put (hr : r.Checked) (f : String) (s : Stored) :
    r.record.put f s.value = (r.write f (some s)).map record := by
  cases h : r.write f (some s) with
  | error e =>
    obtain ⟨hk, rfl⟩ | ⟨k, _, hk, heq, hkind, rfl⟩ := write_eq_error_iff.1 h
    · exact Record.put_of_undeclared hk
    · cases heq
      have hadmits : k.admits s.value = false := by
        rw [← Bool.not_eq_true, Stored.admits_value]
        exact fun h => h.elim hkind.1 hkind.2
      rw [← Stored.kindName_value]
      exact Record.put_of_not_admits (r := r.record) hk hadmits
  | ok r' =>
    obtain ⟨k, hk, hkind, -⟩ := write_some_eq_ok_iff.1 h
    obtain ⟨i, hi⟩ := Record.exists_place_of_kind? (r := r.record) hk
    have hput := Record.put_eq_ok.2 ⟨i, k, hi, hk, Stored.admits_value.2 hkind, rfl⟩
    rw [hput]
    exact congrArg Except.ok <|
      hr.eq_record_of_write h rfl (r.fits_record.put hput) fun g => Record.get_put r.fits_record hput g

theorem Checked.record_clear (hr : r.Checked) (f : String) : r.record.clear f = (r.write f none).map record := by
  cases h : r.write f none with
  | error e =>
    obtain ⟨hk, rfl⟩ | ⟨_, _, -, heq, -⟩ := write_eq_error_iff.1 h
    · exact Record.clear_of_undeclared hk
    · cases heq
  | ok r' =>
    obtain ⟨k, hk⟩ := Option.isSome_iff_exists.1 (write_none_eq_ok_iff.1 h).1
    obtain ⟨i, hi⟩ := Record.exists_place_of_kind? (r := r.record) hk
    have hclear := Record.clear_eq_ok.2 ⟨i, hi, rfl⟩
    rw [hclear]
    exact congrArg Except.ok <|
      hr.eq_record_of_write h rfl (r.fits_record.clear hclear) fun g => Record.get_clear hclear g

end StoredRecord

namespace Stored

variable {a : Stored}

/-! ## What compares alike is stored for the same -/

/-- All records in the value are of types that are found under their names. -/
inductive Known (types : List RecordType) : Stored → Prop
  | bool (b : Bool) : Known types (.bool b)
  | int (n : Int64) : Known types (.int n)
  | string (s : String) : Known types (.string s)
  | list {items : List Stored} (h : ∀ s ∈ items, Known types s) : Known types (.list items)
  | record {type : RecordType} {es : List (String × Stored)}
    (htype : types.find? (fun t => t.name = type.name) = some type) (h : ∀ e ∈ es, Known types e.2) :
    Known types (.record type es)

theorem sameAll_iff_values_eq : ∀ {as bs : List Stored},
    (∀ a ∈ as, ∀ b ∈ bs, a.same b = true ↔ a.value = b.value) → (sameAll as bs = true ↔ values as = values bs)
  | [], [], _ => by simp [sameAll]
  | [], _ :: _, _ => by simp [sameAll, values]
  | _ :: _, [], _ => by simp [sameAll, values]
  | a :: as, b :: bs, h => by
    rw [sameAll, Bool.and_eq_true, values, values, List.cons.injEq, h a List.mem_cons_self b List.mem_cons_self,
      sameAll_iff_values_eq fun c hc d hd => h c (List.mem_cons_of_mem a hc) d (List.mem_cons_of_mem b hd)]

/-- Where a name stands for one type, a comparison of what is stored is one of the values. -/
theorem Sound.same_iff_value_eq {types : List RecordType} (ha : a.Sound) : ∀ {b : Stored}, b.Sound → a.Known types →
    b.Known types → (a.same b = true ↔ a.value = b.value) := by
  induction ha with
  | bool x => intro b _ _ _; cases b <;> simp [same, value]
  | int n => intro b _ _ _; cases b <;> simp [same, value]
  | string s => intro b _ _ _; cases b <;> simp [same, value]
  | list _ ih =>
    intro b hb hka hkb
    cases hb with
    | list hbs =>
      cases hka with
      | list hka =>
        cases hkb with
        | list hkb =>
          rw [same, value, value, Value.list.injEq]
          exact sameAll_iff_values_eq fun x hx y hy => ih x hx (hbs y hy) (hka x hx) (hkb y hy)
    | _ => simp [same, value]
  | @record t es hr hes ih =>
    intro b hb hka hkb
    cases hb with
    | @record u fs hr' hfs =>
      cases hka with
      | record ht hka =>
        cases hkb with
        | record hu hkb =>
          -- A field of one record is found in the other one, and compared from there.
          have hfield : ∀ f, Option.Rel (fun x y => y.same x = true) (es.lookup f) (fs.lookup f) ↔
              (es.lookup f).map value = (fs.lookup f).map value := fun f =>
            Entries.rel_iff_map_eq fun x hx y hy => by
              have hx := Entries.mem_of_lookup hx
              have hy := Entries.mem_of_lookup hy
              rw [(hfs _ hy).same_comm (hes _ hx)]
              exact ih _ hx (hfs _ hy) (hka _ hx) (hkb _ hy)
          refine (same_stored_iff hr hr').trans ?_
          rw [RecordType.same_iff hr.declared hr'.declared, value, value, Value.record.injEq]
          constructor
          · rintro ⟨⟨hname, -⟩, hslots⟩
            dsimp only at hname
            rw [hname, hu] at ht
            cases ht
            refine ⟨rfl, List.map_congr_left fun d _ => ?_⟩
            rw [lookup_namedValues, lookup_namedValues]
            exact (hfield d.1).1 (hslots d.1)
          · rintro ⟨rfl, hslots⟩
            refine ⟨⟨rfl, fun _ => rfl⟩, fun f => ?_⟩
            cases hf : t.kind? f with
            | none =>
              rw [hr.lookup_of_undeclared hf, hr'.lookup_of_undeclared hf]
              exact .none
            | some k =>
              have hslot := List.map_inj_left.1 hslots (f, k) (Entries.mem_of_lookup hf)
              rw [lookup_namedValues, lookup_namedValues] at hslot
              exact (hfield f).2 hslot
    | _ => simp [same, value]

/-! ## Values that were made -/

/-- Records are made by writes, of values made before, to one in which nothing is set. -/
inductive Made : Stored → Prop
  | bool (b : Bool) : Made (.bool b)
  | int (n : Int64) : Made (.int n)
  | string (s : String) : Made (.string s)
  | list {items : List Stored} (h : ∀ s ∈ items, Made s) : Made (.list items)
  | record (name : String) (declared : List (String × Kind)) {writes : List (String × Option Stored)}
    (h : ∀ w ∈ writes, ∀ s ∈ w.2, Made s) :
    Made ((StoredRecord.unset (.ofList name declared)).run writes).stored

end Stored

namespace StoredRecord

/-- A type is made of declarations, and a record of it by writes. -/
theorem checked_run (name : String) (declared : List (String × Kind)) (writes : List (String × Option Stored)) :
    ((unset (.ofList name declared)).run writes).Checked :=
  Checked.run writes (checked_unset (RecordType.distinct_ofList name declared))

end StoredRecord

theorem Stored.Made.sound {s : Stored} (h : s.Made) : s.Sound := by
  induction h with
  | bool b => exact .bool b
  | int n => exact .int n
  | string s => exact .string s
  | list _ ih => exact .list ih
  | record name declared _ ih =>
    exact .record (StoredRecord.checked_run name declared _) (StoredRecord.forall_mem_run Sound _ _ nofun ih)

namespace StoredRecord

variable {r r' : StoredRecord}

theorem checked_of_sound (h : r.stored.Sound) : r.Checked := by
  obtain ⟨type, es⟩ := r
  cases h with
  | record hr _ => exact hr

/-- Records of one type are the same if what is read under every declared name is. -/
theorem same_iff_get (hr : r.stored.Sound) (hr' : r'.stored.Sound) (htype : r.type.same r'.type = true) :
    r.stored.same r'.stored = true ↔ ∀ f k, r.type.kind? f = some k →
      ∃ v w, r.get f = .ok v ∧ r'.get f = .ok w ∧ Option.Rel (fun a b => a.same b = true) v w := by
  have hchecked := checked_of_sound hr
  have hchecked' := checked_of_sound hr'
  obtain ⟨hname, hkind⟩ := (RecordType.same_iff hchecked.declared hchecked'.declared).1 htype
  have htype' : r'.type.same r.type = true :=
    (RecordType.same_iff hchecked'.declared hchecked.declared).2 ⟨hname.symm, fun f => (hkind f).symm⟩
  rw [hr.same_comm hr', Stored.same_stored_iff hchecked' hchecked, htype', eq_self, true_and]
  refine forall_congr' fun f => (Entries.rel_comm fun _ _ _ _ => Iff.rfl).trans ?_
  cases hf : r.type.kind? f with
  | none =>
    rw [hchecked.lookup_of_undeclared hf, hchecked'.lookup_of_undeclared (hkind f ▸ hf)]
    exact ⟨nofun, fun _ => .none⟩
  | some k =>
    rw [get_of_kind? hf, get_of_kind? (hkind f ▸ hf)]
    constructor
    · rintro h _ -
      exact ⟨_, _, rfl, rfl, h⟩
    · intro h
      obtain ⟨v, w, ⟨⟩, ⟨⟩, hvw⟩ := h k rfl
      exact hvw

/-! ## Any number of writes -/

theorem get_run_unset {type : RecordType} (h : type.Distinct) (writes : List (String × Option Stored)) (f : String) :
    ((unset type).run writes).get f =
      if (type.kind? f).isSome then .ok (((unset type).done writes).reverse.lookup f).join
      else .error (.unknownField type.name f) := by
  have htype : ((unset type).run writes).type = type := type_run writes (unset type)
  have hkind : ((unset type).run writes).type.kind? f = type.kind? f := by rw [htype]
  cases hf : type.kind? f with
  | none =>
    rw [get_of_undeclared (hkind.trans hf), htype]
    rfl
  | some k =>
    rw [get_of_kind? (hkind.trans hf), (checked_unset h).lookup_run f writes]
    cases ((unset type).done writes).reverse.lookup f <;> rfl

theorem Checked.mem_listed_iff_get (hr : r.Checked) {f : String} {s : Stored} :
    (f, s) ∈ r.listed ↔ r.get f = .ok (some s) := by
  rw [hr.mem_listed_iff]
  cases hf : r.type.kind? f with
  | none => simp [hr.lookup_of_undeclared hf, get_of_undeclared hf]
  | some k => simp [get_of_kind? hf]

theorem json_record (r : StoredRecord) : r.record.toValue.json =
    "\x7b" ++ Json.quote "type" ++ ":" ++ Json.quote r.type.name ++
      String.join (r.listed.map fun e => "," ++ Json.quote e.1 ++ ":" ++ e.2.value.json) ++ "\x7d" := by
  rw [Value.json_toValue, entries_record, List.map_map]
  rfl

end StoredRecord

/-- **A record is a finite map.**  Whatever is declared and written, a write fails only for a name that is not declared
or a value that its field does not take, what is found is what was written last, and what is written out is in declared
order.  Comparing is an equivalence on the values that are made so, and it tells two records of one type apart only by
what is found under their names. -/
theorem record_is_finite_map :
    (∀ (name : String) (declared : List (String × Kind)) (writes : List (String × Option Stored)),
      let type := RecordType.ofList name declared
      let r := (StoredRecord.unset type).run writes
      let done := (StoredRecord.unset type).done writes
      -- What is declared: the first place and the last kind.
      (type.name = name ∧ type.fields.map Prod.fst = (declared.map Prod.fst).eraseDups ∧
        ∀ f, type.kind? f = declared.reverse.lookup f) ∧
      -- The next write.
      (∀ f s? e, r.write f s? = .error e ↔
        type.kind? f = none ∧ e = .unknownField name f ∨
        ∃ k s, type.kind? f = some k ∧ s? = some s ∧ (k ≠ .any ∧ k ≠ s.kind) ∧
          e = .kindMismatch name f k.name s.kindName) ∧
      -- What is stored, and what is found.
      (∀ e ∈ r.entries, ∃ k, type.kind? e.1 = some k ∧ (k = .any ∨ k = e.2.kind)) ∧
      (∀ f, r.get f =
        if (type.kind? f).isSome then .ok (done.reverse.lookup f).join else .error (.unknownField name f)) ∧
      -- What is written out.
      ((r.listed.map Prod.fst).Sublist (type.fields.map Prod.fst) ∧
        (∀ f s, (f, s) ∈ r.listed ↔ r.get f = .ok (some s)) ∧ r.listed.length = r.entries.length ∧
        r.record.toValue.json = "\x7b" ++ Json.quote "type" ++ ":" ++ Json.quote name ++
          String.join (r.listed.map fun e => "," ++ Json.quote e.1 ++ ":" ++ e.2.value.json) ++ "\x7d") ∧
      -- The record with slots does the same.
      ((StoredRecord.unset type).record = Record.unset type ∧
        (∀ f, r.record.get f = (r.get f).map (·.map Stored.value)) ∧
        (∀ f s, r.record.put f s.value = (r.write f (some s)).map StoredRecord.record) ∧
        ∀ f, r.record.clear f = (r.write f none).map StoredRecord.record)) ∧
    Equivalence (fun a b : {s : Stored // s.Made} => a.val.same b.val = true) ∧
    (∀ r r' : StoredRecord, r.stored.Made → r'.stored.Made → r.type.same r'.type = true →
      (r.stored.same r'.stored = true ↔ ∀ f k, r.type.kind? f = some k →
        ∃ v w, r.get f = .ok v ∧ r'.get f = .ok w ∧ Option.Rel (fun a b => a.same b = true) v w)) ∧
    (∀ (types : List RecordType) (a b : Stored), a.Made → b.Made → a.Known types → b.Known types →
      (a.same b = true ↔ a.value = b.value)) := by
  refine ⟨fun name declared writes => ?_, ⟨fun a => a.2.sound.same_self, fun {a b} h => ?_, fun {a b c} hab hbc => ?_⟩,
    fun r r' hr hr' => StoredRecord.same_iff_get hr.sound hr'.sound, fun types a b ha hb =>
    ha.sound.same_iff_value_eq hb.sound⟩
  · intro type r done
    have hname : type.name = name := RecordType.name_ofList name declared
    have htype : r.type = type := StoredRecord.type_run writes _
    have hr : r.Checked := StoredRecord.checked_run name declared writes
    refine ⟨⟨hname, RecordType.names_ofList name declared, RecordType.kind?_ofList name declared⟩, fun f s? e => ?_, ?_,
      fun f => ?_, ⟨?_, fun f s => hr.mem_listed_iff_get, hr.length_listed, ?_⟩, StoredRecord.record_unset type,
      r.get_record, hr.record_put, hr.record_clear⟩
    · rw [StoredRecord.write_eq_error_iff, htype, hname]
    · exact htype ▸ hr.typed
    · rw [← hname]
      exact StoredRecord.get_run_unset (RecordType.distinct_ofList name declared) writes f
    · exact htype ▸ r.map_fst_listed_sublist
    · rw [r.json_record, htype, hname]
  · rw [← a.2.sound.same_comm b.2.sound]
    exact h
  · exact a.2.sound.same_trans b.2.sound c.2.sound hab hbc

/-- Two ways of writing the same, with writes that fail, that are written over and that are cleared. -/
theorem record_is_finite_map_two_orders :
    let declared : List (String × Kind) := [("x", .any), ("y", .int), ("x", .string)]
    let writes : List (String × Option Stored) :=
      [("y", some (.int 2)), ("z", none), ("x", some (.int 1)), ("x", some (.string "a"))]
    let writes' : List (String × Option Stored) :=
      [("x", some (.string "b")), ("y", some (.int 2)), ("x", none), ("x", some (.string "a"))]
    let type := RecordType.ofList "point" declared
    let r := (StoredRecord.unset type).run writes
    let r' := (StoredRecord.unset type).run writes'
    r.stored.same r'.stored = true ∧ r'.stored.same r.stored = true ∧ r.stored.value = r'.stored.value ∧
      r.write "x" (some (.int 1)) = .error (.kindMismatch "point" "x" "string" "int") ∧
      r.record.toValue.json = "\x7b\"type\":\"point\",\"x\":\"a\",\"y\":2\x7d" := by
  intro declared writes writes' type r r'
  obtain ⟨hmap, hequiv, hget, hvalue⟩ := record_is_finite_map
  obtain ⟨-, hwrite, -, -, ⟨-, -, -, hjson⟩, -⟩ := hmap "point" declared writes
  have hr : r.stored.Made := .record "point" declared (by simp [writes, Stored.Made.int, Stored.Made.string])
  have hr' : r'.stored.Made := .record "point" declared (by simp [writes', Stored.Made.int, Stored.Made.string])
  have hknown : r.stored.Known [type] := .record (by decide) <|
    StoredRecord.forall_mem_run _ _ _ nofun (by simp [writes, Stored.Known.int, Stored.Known.string])
  have hknown' : r'.stored.Known [type] := .record (by decide) <|
    StoredRecord.forall_mem_run _ _ _ nofun (by simp [writes', Stored.Known.int, Stored.Known.string])
  have hsame : r.stored.same r'.stored = true := by
    refine (hget r r' hr hr' (by decide)).2 fun f k hk => ?_
    have hfield : (f, k) ∈ [("x", Kind.string), ("y", .int)] := Entries.mem_of_lookup hk
    simp only [List.mem_cons, List.not_mem_nil, or_false, Prod.mk.injEq] at hfield
    obtain ⟨rfl, rfl⟩ | ⟨rfl, rfl⟩ := hfield
    · exact ⟨some (.string "a"), some (.string "a"), rfl, rfl, .some (by simp [Stored.same])⟩
    · exact ⟨some (.int 2), some (.int 2), rfl, rfl, .some (by simp [Stored.same])⟩
  refine ⟨hsame, hequiv.symm (x := ⟨_, hr⟩) (y := ⟨_, hr'⟩) hsame, (hvalue [type] _ _ hr hr' hknown hknown').1 hsame,
    (hwrite "x" (some (.int 1)) _).2 (.inr ⟨.string, .int 1, rfl, rfl, by decide, rfl⟩), hjson.trans (by decide)⟩

end Ambigram
