import Ambigram.Proofs.Budget
import Ambigram.Proofs.Compounds
import Ambigram.Proofs.Records
import Mathlib.Data.List.Induction
import Mathlib.Order.Filter.Finite
/-!
# Records field by field

A grammar of a record begins with the record that has nothing set, and goes on with a parser for each of some fields.
Printing goes back over the fields, clears each in turn, and asks in the end whether the unset record is left.  So it
takes a record that has these fields and no others, and never takes one where a field was to be cleared twice.
-/
namespace Ambigram

variable {E : Type}

namespace Node

/-- The value of the parser in a field of a record. -/
def writes (f : String) (x : Parser E .value) : Reducer E .value .value := .fold x (.field f)

/-- The unset record, and then the fields in order. -/
def fieldwise (b : Bool) (type : RecordType) (fields : List (String × Parser E .value)) : Parser E .value :=
  fields.foldl (fun front field => .seq b front (writes field.1 field.2)) (.initial (Record.unset type).toValue)

variable {b : Bool} {type : RecordType} {fields : List (String × Parser E .value)} {f : String} {x : Parser E .value}

theorem fieldwise_concat :
    fieldwise b type (fields ++ [(f, x)]) = .seq b (fieldwise b type fields) (writes f x) := by
  simp [fieldwise]

theorem mem_names_concat {g : String} :
    g ∈ (fields ++ [(f, x)]).map Prod.fst ↔ g ∈ fields.map Prod.fst ∨ g = f := by
  rw [List.map_append, List.mem_append, List.map_singleton, List.mem_singleton]

theorem nodup_names_concat :
    ((fields ++ [(f, x)]).map Prod.fst).Nodup ↔ f ∉ fields.map Prod.fst ∧ (fields.map Prod.fst).Nodup := by
  rw [List.map_append, List.map_singleton, (List.perm_append_singleton f _).nodup_iff, List.nodup_cons]

/-! ## Reading -/

/-- The parsers match one behind the other, with these values. -/
inductive InTurn (s : Setting E) : List (Parser E .value) → Cursor → List Value → Cursor → Prop
  | nil (c : Cursor) : InTurn s [] c [] c
  | snoc {xs : List (Parser E .value)} {x : Parser E .value} {c mid d : Cursor} {ws : List Value} {w : Value}
    (front : InTurn s xs c ws mid) (last : x.parse s () mid = (.hit w, d)) : InTurn s (xs ++ [x]) c (ws ++ [w]) d

theorem InTurn.length_eq {s : Setting E} {xs : List (Parser E .value)} {c d : Cursor} {ws : List Value}
    (h : InTurn s xs c ws d) : ws.length = xs.length := by
  induction h with
  | nil => rfl
  | snoc _ _ ih => rw [List.length_append, List.length_append, ih]; rfl

theorem parse_writes_eq_hit {s : Setting E} {v v' : Value} {c d : Cursor} :
    (writes f x).parse s v c = (.hit v', d) ↔ ∃ w, x.parse s () c = (.hit w, d) ∧ v.put f w = .ok v' := by
  rw [writes, parse_fold, Step.bind_eq_hit]
  constructor
  · rintro ⟨w, e, hx, hfolded⟩
    obtain ⟨hput, rfl⟩ := Prod.mk.inj hfolded
    exact ⟨w, hx, Outcome.ofExcept_eq_hit.1 hput⟩
  · rintro ⟨w, hx, hput⟩
    exact ⟨w, d, hx, Prod.ext (Outcome.ofExcept_eq_hit.2 hput) rfl⟩

/-- What was read is the record with the values that were read, each in its field. -/
theorem parse_fieldwise {s : Setting E} (hi : s.input.WellFormed) {c d : Cursor} {v : Value}
    (hnodup : (fields.map Prod.fst).Nodup) (h : (fieldwise b type fields).parse s () c = (.hit v, d)) :
    ∃ (r : Record) (ws : List Value), v = r.toValue ∧ r.Reached type ∧ InTurn s (fields.map Prod.snd) c ws d ∧
      ∀ f w, r.get f = .ok (some w) ↔ (f, w) ∈ (fields.map Prod.fst).zip ws := by
  induction fields using List.reverseRecOn generalizing v d with
  | nil =>
    have hinitial : (fieldwise b type []).parse s () c = (.hit (Record.unset type).toValue, c) := by
      rw [parse, parseAt_eq]
      rfl
    rw [hinitial] at h
    cases h
    refine ⟨Record.unset type, [], rfl, .unset, .nil c, fun f w => ⟨fun hget => ?_, fun hmem => ?_⟩⟩
    · cases Record.get_unset hget
    · cases hmem
  | append_singleton fields field ih =>
    obtain ⟨f, x⟩ := field
    rw [fieldwise_concat, parse_seq hi, Step.sequence_eq_hit] at h
    obtain ⟨v₀, mid, hfront, hlast⟩ := h
    obtain ⟨w, hw, hput⟩ := parse_writes_eq_hit.1 hlast
    obtain ⟨hnew, hnodup⟩ := nodup_names_concat.1 hnodup
    obtain ⟨r₀, ws, rfl, hr₀, hturn, hget⟩ := ih hnodup hfront
    obtain ⟨r₀', r, heq, hput, rfl⟩ := Value.put_eq_ok.1 hput
    obtain rfl := Record.toValue_inj heq
    refine ⟨r, ws ++ [w], rfl, hr₀.put hput, ?_, fun g u => ?_⟩
    · rw [List.map_append]
      exact hturn.snoc hw
    · have hlen : (fields.map Prod.fst).length = ws.length := by rw [hturn.length_eq, List.length_map, List.length_map]
      have hpair : (g, u) ∈ (List.map Prod.fst [(f, x)]).zip [w] ↔ g = f ∧ u = w := by simp
      rw [Record.get_put hr₀.fits hput, List.map_append, List.zip_append hlen, List.mem_append, ← hget, hpair]
      by_cases hgf : g = f
      · -- the field was not read before, so it had no value
        have hunset : r₀.get g ≠ .ok (some u) := fun hset =>
          hnew (hgf ▸ (List.of_mem_zip ((hget g u).1 hset)).1)
        simp [hgf ▸ hunset, hgf, eq_comm]
      · simp [hgf]

/-! ## Printing -/

variable {ds : Definitions E} {env : E} {n : Nat}

theorem print_writes_of_unset {r : Record} (hget : r.get f = .ok none) :
    (writes f x).print ds env n r.toValue = .miss := by
  have hget : r.toValue.get f = .ok none := hget
  rw [writes, print_fold]
  simp only [Fold.field, hget]
  rfl

theorem print_writes_of_set {r r' : Record} {w : Value} (hget : r.get f = .ok (some w)) (hclear : r.clear f = .ok r') :
    (writes f x).print ds env n r.toValue = (x.print ds env n w).map fun (_, tree) => (r'.toValue, tree) := by
  have hget : r.toValue.get f = .ok (some w) := hget
  have hclear : r.toValue.clear f = .ok r'.toValue := Value.clear_eq_ok.2 ⟨r, r', rfl, hclear, rfl⟩
  rw [writes, print_fold]
  simp only [Fold.field, hget, hclear]
  rfl

/-- Only a field that is set is printed, and it is cleared. -/
theorem print_writes_eq_hit {v left : Value} {tree : Tree} : (writes f x).print ds env n v = .hit (left, tree) ↔
    ∃ (r r' : Record) (w : Value), v = r.toValue ∧ r.get f = .ok (some w) ∧ r.clear f = .ok r' ∧ left = r'.toValue ∧
      x.print ds env n w = .hit ((), tree) := by
  constructor
  · intro h
    rw [writes, print_fold] at h
    obtain ⟨left', hleft, h⟩ := Outcome.andThen_eq_hit.1 h
    obtain ⟨w, hright, h⟩ := Outcome.andThen_eq_hit.1 h
    obtain ⟨⟨⟨⟩, tree'⟩, hx, heq⟩ := Outcome.map_eq_hit.1 h
    cases heq
    have hget : v.get f = .ok (some w) := Outcome.ofExceptOption_eq_hit.1 hright
    simp only [Fold.field, hget] at hleft
    obtain ⟨r, rfl, hget⟩ := Value.get_eq_ok.1 hget
    obtain ⟨r₀, r', heq, hclear, rfl⟩ := Value.clear_eq_ok.1 (Outcome.ofExcept_eq_hit.1 hleft)
    obtain rfl := Record.toValue_inj heq
    exact ⟨r, r', w, rfl, hget, hclear, rfl, hx⟩
  · rintro ⟨r, r', w, rfl, hget, hclear, rfl, hx⟩
    rw [print_writes_of_set hget hclear, hx]
    rfl

/-- These fields of the record are set and no others, and their parsers have these trees for what they hold. -/
structure Fills (prints : Parser E .value → Value → Tree → Prop) (fields : List (String × Parser E .value)) (r : Record)
    (trees : List Tree) : Prop where
  set (f : String) : (∃ w, r.get f = .ok (some w)) ↔ f ∈ fields.map Prod.fst
  printed : List.Forall₂ (fun field tree => ∃ w, r.get field.1 = .ok (some w) ∧ prints field.2 w tree) fields trees

section

variable {prints : Parser E .value → Value → Tree → Prop} {r r' : Record} {trees : List Tree}

theorem forall₂_concat_iff {α β : Type} {R : α → β → Prop} {l : List α} {a : α} {k : List β} :
    List.Forall₂ R (l ++ [a]) k ↔ ∃ k' b, k = k' ++ [b] ∧ List.Forall₂ R l k' ∧ R a b := by
  rw [← List.forall₂_reverse_iff, List.reverse_append, List.reverse_singleton, List.singleton_append,
    List.forall₂_cons_left_iff]
  constructor
  · rintro ⟨b, k', hab, hl, hk⟩
    refine ⟨k'.reverse, b, ?_, List.forall₂_reverse_iff.1 (by rwa [List.reverse_reverse]), hab⟩
    rw [← List.reverse_reverse k, hk, List.reverse_cons]
  · rintro ⟨k', b, rfl, hl, hab⟩
    exact ⟨b, k'.reverse, hab, List.forall₂_reverse_iff.2 hl, by simp⟩

/-- A field that was cleared is none of those that are set. -/
theorem Fills.concat {w : Value} {tree : Tree} (h : Fills prints fields r' trees) (hget : r.get f = .ok (some w))
    (hclear : r.clear f = .ok r') (hx : prints x w tree) :
    f ∉ fields.map Prod.fst ∧ Fills prints (fields ++ [(f, x)]) r (trees ++ [tree]) := by
  have hcleared := Record.get_clear hclear
  refine ⟨fun hmem => ?_, fun g => ?_, forall₂_concat_iff.2 ⟨trees, tree, rfl, ?_, w, hget, hx⟩⟩
  · obtain ⟨u, hu⟩ := (h.set f).2 hmem
    rw [hcleared, if_pos rfl] at hu
    cases hu
  · rw [mem_names_concat, ← h.set]
    by_cases hgf : g = f
    · exact ⟨fun _ => .inr hgf, fun _ => ⟨w, hgf ▸ hget⟩⟩
    · rw [hcleared, if_neg hgf, or_iff_left hgf]
  · exact h.printed.imp fun field t => fun ⟨u, hu, ht⟩ => ⟨u, Record.get_of_get_clear hclear hu, ht⟩

/-- The last field can be cleared, which leaves the others. -/
theorem Fills.exists_front (h : Fills prints (fields ++ [(f, x)]) r trees) (hnew : f ∉ fields.map Prod.fst) :
    ∃ r' w ts tree, trees = ts ++ [tree] ∧ r.get f = .ok (some w) ∧ r.clear f = .ok r' ∧ prints x w tree ∧
      Fills prints fields r' ts := by
  obtain ⟨ts, tree, rfl, hfront, w, hget, hx⟩ := forall₂_concat_iff.1 h.printed
  obtain ⟨r', hclear⟩ := Record.exists_clear hget
  have hcleared := Record.get_clear hclear
  have hother : ∀ field ∈ fields, field.1 ≠ f := fun field hfield hf => hnew (List.mem_map.2 ⟨field, hfield, hf⟩)
  refine ⟨r', w, ts, tree, rfl, hget, hclear, hx, fun g => ?_, ?_⟩
  · rw [hcleared]
    by_cases hgf : g = f
    · rw [if_pos hgf]
      exact ⟨fun ⟨u, hu⟩ => (by cases hu), fun hg => absurd (hgf ▸ hg) hnew⟩
    · rw [if_neg hgf, h.set, mem_names_concat, or_iff_left hgf]
  · refine ((List.forall₂_and_left fields ts).2 ⟨hother, hfront⟩).imp ?_
    rintro field t ⟨hf, u, hu, ht⟩
    exact ⟨u, by rw [hcleared, if_neg hf]; exact hu, ht⟩

end

theorem print_fieldwise (hdistinct : type.Distinct) (hnodup : (fields.map Prod.fst).Nodup) {r : Record}
    {trees : List Tree} (htype : r.type = type) (hr : r.Fits)
    (h : Fills (fun x w tree => x.print ds env n w = .hit ((), tree)) fields r trees) :
    (fieldwise b type fields).print ds env n r.toValue = .hit ((), trees.foldl Tree.append .empty) := by
  induction fields using List.reverseRecOn generalizing r trees with
  | nil =>
    cases h.printed
    subst htype
    have hunset : r = .unset r.type := Record.eq_unset hdistinct hr fun f w hw => by
      cases (h.set f).1 ⟨w, hw⟩
    rw [hunset]
    exact print_initial.trans (if_pos rfl)
  | append_singleton fields field ih =>
    obtain ⟨f, x⟩ := field
    obtain ⟨hnew, hnodup⟩ := nodup_names_concat.1 hnodup
    obtain ⟨r', w, ts, tree, rfl, hget, hclear, hx, hfront⟩ := h.exists_front hnew
    have hlast := print_writes_eq_hit.2 ⟨r, r', w, rfl, hget, hclear, rfl, hx⟩
    have hrest := ih hnodup ((Record.type_of_clear hclear).trans htype) (hr.clear hclear) hfront
    rw [fieldwise_concat, print_seq, hlast]
    show ((fieldwise b type fields).print ds env n r'.toValue).map _ = _
    rw [hrest, List.foldl_append]
    rfl

theorem fills_of_print_fieldwise {v : Value} {tree : Tree}
    (h : (fieldwise b type fields).print ds env n v = .hit ((), tree)) : (fields.map Prod.fst).Nodup ∧
      ∃ (r : Record) (trees : List Tree), v = r.toValue ∧
        Fills (fun x w tree => x.print ds env n w = .hit ((), tree)) fields r trees := by
  induction fields using List.reverseRecOn generalizing v tree with
  | nil =>
    have hv : v = (Record.unset type).toValue := by
      rw [fieldwise, List.foldl_nil, print_initial] at h
      split at h
      · assumption
      · cases h
    refine ⟨List.nodup_nil, .unset type, [], hv, fun f => ?_, .nil⟩
    exact ⟨fun ⟨w, hw⟩ => (by cases Record.get_unset hw), fun hf => (by cases hf)⟩
  | append_singleton fields field ih =>
    obtain ⟨f, x⟩ := field
    rw [fieldwise_concat, print_seq] at h
    obtain ⟨⟨mid, second⟩, hlast, hfront⟩ := Outcome.andThen_eq_hit.1 h
    obtain ⟨⟨⟨⟩, first⟩, hfront, -⟩ := Outcome.map_eq_hit.1 hfront
    obtain ⟨r, r', w, rfl, hget, hclear, rfl, hx⟩ := print_writes_eq_hit.1 hlast
    obtain ⟨hnodup, r₀, trees, heq, hfills⟩ := ih hfront
    obtain rfl := Record.toValue_inj heq
    obtain ⟨hnew, hfills⟩ := hfills.concat hget hclear hx
    exact ⟨nodup_names_concat.2 ⟨hnew, hnodup⟩, r, _, rfl, hfills⟩

/-- Printing comes to an error only if the parser of a field that is set does. -/
theorem print_fieldwise_ne_fail {r : Record} (hget : ∀ field ∈ fields, ∃ o, r.get field.1 = .ok o)
    (h : ∀ field ∈ fields, ∀ w, r.get field.1 = .ok (some w) → ∀ e, field.2.print ds env n w ≠ .fail e) (e : Error) :
    (fieldwise b type fields).print ds env n r.toValue ≠ .fail e := by
  induction fields using List.reverseRecOn generalizing r with
  | nil =>
    rw [fieldwise, List.foldl_nil, print_initial]
    split <;> exact nofun
  | append_singleton fields field ih =>
    obtain ⟨f, x⟩ := field
    have hlast : (f, x) ∈ fields ++ [(f, x)] := List.mem_append_right _ List.mem_cons_self
    have hfront : ∀ {field}, field ∈ fields → field ∈ fields ++ [(f, x)] := List.mem_append_left _
    rw [fieldwise_concat, print_seq]
    obtain ⟨o, ho⟩ := hget _ hlast
    cases o with
    | none =>
      rw [print_writes_of_unset ho]
      exact nofun
    | some w =>
      obtain ⟨r', hclear⟩ := Record.exists_clear ho
      rw [print_writes_of_set ho hclear]
      cases hx : x.print ds env n w with
      | hit p =>
        have hrest : (fieldwise b type fields).print ds env n r'.toValue ≠ .fail e := by
          refine ih (fun field hfield => ?_) fun field hfield w hw =>
            h field (hfront hfield) w (Record.get_of_get_clear hclear hw)
          rw [Record.get_clear hclear]
          split
          · exact ⟨none, rfl⟩
          · exact hget field (hfront hfield)
        show ((fieldwise b type fields).print ds env n r'.toValue).map _ ≠ _
        exact mt Outcome.map_eq_fail.1 hrest
      | miss => exact nofun
      | fail e' => exact absurd hx (h _ hlast w ho e')

/-! ## Answers -/

variable {r : Record}

theorem fieldwise_prints (hdistinct : type.Distinct) (hnodup : (fields.map Prod.fst).Nodup) (htype : r.type = type)
    (hr : r.Fits) {trees : List Tree} (h : Fills (fun x w tree => x.Prints ds env w (.hit ((), tree))) fields r trees) :
    (fieldwise b type fields).Prints ds env r.toValue (.hit ((), trees.foldl Tree.append .empty)) := by
  have hprinted := eventually_forall₂ (h.printed.imp fun field tree ⟨w, hw, ht⟩ => ht.mono fun n hn =>
    (⟨w, hw, hn⟩ : ∃ w, r.get field.1 = .ok (some w) ∧ field.2.print ds env n w = .hit ((), tree)))
  filter_upwards [hprinted] with n hn
  exact print_fieldwise hdistinct hnodup htype hr ⟨h.set, hn⟩

theorem fills_of_printable (h : (fieldwise b type fields).Printable ds env r.toValue) :
    (fields.map Prod.fst).Nodup ∧
      ∃ trees, Fills (fun x w tree => x.Prints ds env w (.hit ((), tree))) fields r trees := by
  obtain ⟨tree, h⟩ := h
  obtain ⟨n, hn⟩ := h.exists
  obtain ⟨hnodup, r₀, trees, heq, hfills⟩ := fills_of_print_fieldwise hn
  obtain rfl := Record.toValue_inj heq
  exact ⟨hnodup, trees, hfills.set, hfills.printed.imp fun _ _ ⟨w, hw, ht⟩ => ⟨w, hw, prints_of_print ht (by simp)⟩⟩

theorem fieldwise_prints_miss (hget : ∀ field ∈ fields, ∃ o, r.get field.1 = .ok o)
    (h : ∀ field ∈ fields, ∀ w, r.get field.1 = .ok (some w) →
      field.2.Printable ds env w ∨ field.2.Prints ds env w .miss)
    (hnot : ¬ (fieldwise b type fields).Printable ds env r.toValue) :
    (fieldwise b type fields).Prints ds env r.toValue .miss := by
  have hanswers : ∀ᶠ n in Filter.atTop, ∀ field ∈ fields, ∀ w, r.get field.1 = .ok (some w) →
      ∀ e, field.2.print ds env n w ≠ .fail e := by
    refine (Filter.eventually_all_finite (List.finite_toSet fields)).2 fun field hfield => ?_
    obtain ⟨o, ho⟩ := hget field hfield
    cases o with
    | none =>
      refine .of_forall fun n w hw => ?_
      rw [ho] at hw
      cases hw
    | some w =>
      obtain ⟨tree, hx⟩ | hx := h field hfield w ho
      all_goals
        filter_upwards [hx] with n hn w' hw' e
        rw [ho] at hw'
        cases hw'
        rw [hn]
        exact nofun
  filter_upwards [hanswers] with n hn
  cases hprint : (fieldwise b type fields).print ds env n r.toValue with
  | hit p => exact absurd ⟨p.2, prints_of_print hprint (by simp)⟩ hnot
  | miss => rfl
  | fail e => exact absurd hprint (print_fieldwise_ne_fail hget hn e)

end Node

/-- **A grammar of fields is a grammar of the records with these fields.**  For different fields of a type, whatever was
read is a record in which these fields are set and no others, each to the value that its parser read.  A record that was
made by writes in any order is printed if and only if it has these fields and no others, and all of them are printed;
then its text is theirs in the order of the grammar.  If it is not printed, and no field comes to an error, then that is
no error either.  With one field twice, no value is printed. -/
theorem fieldwise_exact (ds : Definitions E) (env : E) (lexer : Lexer) (text : String) (depth : Nat) (b : Bool)
    (name : String) (declared : List (String × Kind)) (fields : List (String × Parser E .value)) :
    let s : Setting E := ⟨ds, env, .of lexer (.ofString text), depth⟩
    let type := RecordType.ofList name declared
    let grammar := Node.fieldwise b type fields
    let Fills := Node.Fills fun x w tree => x.Prints ds env w (.hit ((), tree))
    ((fields.map Prod.fst).Nodup →
      (∀ c v d, grammar.parse s () c = (.hit v, d) → ∃ (r : Record) (ws : List Value), v = r.toValue ∧ r.Reached type ∧
        Node.InTurn s (fields.map Prod.snd) c ws d ∧
        ∀ f w, r.get f = .ok (some w) ↔ (f, w) ∈ (fields.map Prod.fst).zip ws) ∧
      ∀ r : Record, r.Reached type →
        (grammar.Printable ds env r.toValue ↔ ∃ trees, Fills fields r trees) ∧
        (∀ trees, Fills fields r trees → ∃ tree, grammar.Prints ds env r.toValue (.hit ((), tree)) ∧
          tree.toSource = String.join (trees.map Tree.toSource)) ∧
        ((∀ field ∈ fields, field.1 ∈ declared.map Prod.fst ∧ ∀ w, r.get field.1 = .ok (some w) →
            field.2.Printable ds env w ∨ field.2.Prints ds env w .miss) →
          ¬ grammar.Printable ds env r.toValue → grammar.Prints ds env r.toValue .miss)) ∧
    (¬ (fields.map Prod.fst).Nodup → ∀ r : Record, ¬ grammar.Printable ds env r.toValue) := by
  intro s type grammar Fills
  have hi : s.input.WellFormed := Input.wellFormed_of lexer text
  have hdistinct : type.Distinct := RecordType.distinct_ofList name declared
  refine ⟨fun hnodup => ⟨fun c v d h => Node.parse_fieldwise hi hnodup h, fun r hr => ⟨⟨fun h => ?_, ?_⟩, ?_, ?_⟩⟩,
    fun htwice r h => htwice (Node.fills_of_printable h).1⟩
  · exact (Node.fills_of_printable h).2
  · rintro ⟨trees, h⟩
    exact ⟨_, Node.fieldwise_prints hdistinct hnodup hr.type_eq hr.fits h⟩
  · intro trees h
    refine ⟨_, Node.fieldwise_prints hdistinct hnodup hr.type_eq hr.fits h, ?_⟩
    rw [Tree.toSource_foldl_append]
    exact String.empty_append
  · intro h hnot
    refine Node.fieldwise_prints_miss (fun field hfield => ?_) (fun field hfield => (h field hfield).2) hnot
    exact Record.exists_get (hr.type_eq ▸ RecordType.mem_names_ofList.2 (h field hfield).1)

/-- The second field of a pair stands in front of the first one, in the grammar and so in the text. -/
theorem fieldwise_exact_pair :
    let s : Setting Unit := ⟨Nested.definitions, (), .of Nested.lexer (.ofString "a a"), 1⟩
    let declared : List (String × Kind) := [("first", .string), ("second", .any)]
    let type := RecordType.ofList "pair" declared
    let fields := [("second", Nested.word), ("first", Nested.word)]
    let grammar := Node.fieldwise true type fields
    let Fills := Node.Fills fun x w tree => x.Prints Nested.definitions () w (.hit ((), tree))
    let r : Record := ⟨type, [some (.string "a"), some (.string "a")]⟩
    let half : Record := ⟨type, [some (.string "a"), none]⟩
    ((fields.map Prod.fst).Nodup ∧ grammar.parse s () ⟨0, 0, 20, 0⟩ = (.hit r.toValue, ⟨3, 3, 18, 0⟩) ∧
      r.Reached type ∧ Fills fields r [.text "a", .text "a"] ∧ half.Reached type ∧
      ¬ grammar.Printable Nested.definitions () half.toValue) ∧
    (∃ ws, Node.InTurn s (fields.map Prod.snd) ⟨0, 0, 20, 0⟩ ws ⟨3, 3, 18, 0⟩ ∧
      ("first", .string "a") ∈ (fields.map Prod.fst).zip ws) ∧
    (∃ tree, grammar.Prints Nested.definitions () r.toValue (.hit ((), tree)) ∧ tree.toSource = "aa") ∧
    grammar.Prints Nested.definitions () half.toValue .miss ∧
    ¬ (Node.fieldwise true type [("first", Nested.word), ("first", Nested.word)]).Printable Nested.definitions ()
      r.toValue := by
  intro s declared type fields grammar Fills r half
  have hnodup : (fields.map Prod.fst).Nodup := by decide
  have hparse : grammar.parse s () ⟨0, 0, 20, 0⟩ = (.hit r.toValue, ⟨3, 3, 18, 0⟩) := by decide +kernel
  have hhalf : half.Reached type := .put (f := "first") (v := .string "a") .unset rfl
  have hr : r.Reached type := .put (f := "second") (v := .string "a") hhalf rfl
  have hword : Nested.word.Prints Nested.definitions () (.string "a") (.hit ((), .text "a")) :=
    Node.prints_of_print (n := 0) rfl (by simp)
  have hfills : Fills fields r [.text "a", .text "a"] := by
    refine ⟨fun f => ⟨fun ⟨w, hw⟩ => ?_, fun hf => ?_⟩, .cons ⟨_, rfl, hword⟩ (.cons ⟨_, rfl, hword⟩ .nil)⟩
    · obtain rfl | hf := List.mem_cons.1 (RecordType.mem_names_ofList.1 (Record.mem_names_of_get hw))
      · exact List.mem_cons_of_mem _ List.mem_cons_self
      · exact List.mem_singleton.1 hf ▸ List.mem_cons_self
    · obtain rfl | hf := List.mem_cons.1 hf
      · exact ⟨_, rfl⟩
      · exact List.mem_singleton.1 hf ▸ ⟨_, rfl⟩
  have hmissing : ¬ grammar.Printable Nested.definitions () half.toValue := by
    intro h
    obtain ⟨-, trees, hhalf⟩ := Node.fills_of_printable h
    obtain ⟨w, hw⟩ := (hhalf.set "second").2 (by decide)
    cases hw
  have hexact := fieldwise_exact Nested.definitions () Nested.lexer "a a" 1 true "pair" declared fields
  have hdouble := fieldwise_exact Nested.definitions () Nested.lexer "a a" 1 true "pair" declared
    [("first", Nested.word), ("first", Nested.word)]
  obtain ⟨hread, hprint⟩ := hexact.1 hnodup
  obtain ⟨r', ws, heq, -, hturn, hvalues⟩ := hread _ _ _ hparse
  obtain rfl := Record.toValue_inj heq
  refine ⟨⟨hnodup, hparse, hr, hfills, hhalf, hmissing⟩, ⟨ws, hturn, (hvalues "first" (.string "a")).1 rfl⟩,
    (hprint r hr).2.1 _ hfills, (hprint half hhalf).2.2 (fun field hfield => ?_) hmissing, hdouble.2 (by decide) r⟩
  obtain rfl | hfield := List.mem_cons.1 hfield
  · exact ⟨by decide, fun w hw => (by cases hw)⟩
  · obtain rfl := List.mem_singleton.1 hfield
    refine ⟨by decide, fun w hw => .inl ?_⟩
    cases hw
    exact ⟨_, hword⟩

end Ambigram
