import Ambigram.Proofs.Appending
import Ambigram.Proofs.Minimum
import Ambigram.Proofs.Separators
/-!
# Separated lists

A list with separators can begin with its first value, which further values are appended to, or as the empty list, which
all values are appended to.  In the one case the list must not be taken apart below its first value, and in the other
one it may not be empty.  Both grammars read and print the same lists.
-/
namespace Ambigram

variable {E : Type}

open Print (Peeled Trees intersperse)

namespace Node

/-- The list of one value. -/
def single (x : Parser E .value) : Parser E .list := .seq true x (.map .singleton)

/-- The first value, and any number of further ones with a separator in front of each. -/
def fromFirst (q : Recognizer) (x : Parser E .value) : Parser E .list :=
  .seq true (single x) (.rep (.before true q (appends 1 x)))

/-- The empty list, and at least one value with separators between them. -/
def fromEmpty (q : Recognizer) (x : Parser E .value) : Parser E .list :=
  .seq true .emptyList (.join true q (appends 0 x))

/-! ## Reading -/

section

variable {s : Setting E} (hi : s.input.WellFormed) {q : Recognizer} {x : Parser E .value} {c : Cursor}
include hi

/-- The list of a value is the empty list with the value behind it. -/
theorem parse_single : (single x).parse s () = (appends 0 x).parse s [] := by
  have hsingleton : ∀ v : Value, (Node.map .singleton : Reducer E .value .list).parse s v = Step.hit [v] := by
    intro v
    funext c
    rw [parse, parseAt_eq]
    rfl
  rw [single, parse_seq hi, funext hsingleton, (x.parse_tame hi ()).sequence_eq, parse_appends]
  exact ((x.parse_tame hi ()).map _).backtrack_eq

omit hi in
/-- Reading does not ask how short the list may get. -/
theorem parse_rep_appends (b : Bool) (min : Nat) :
    (Node.rep (.before b q (appends min x))).parse s = (Node.rep (.before b q (appends 0 x))).parse s := by
  funext left c
  rw [parse, parse, parseAt_eq, parseAt_eq]
  rfl

theorem parse_fromFirst_eq (hc : c.offset ≤ s.input.source.size)
    (hmoves : Step.Moving s.input c.depth (q.recognize s.input) fun _ : Value => x.parse s ()) :
    (fromFirst q x).parse s () c = (fromEmpty q x).parse s () c := by
  have hmoves' : Step.Moving s.input c.depth (q.recognize s.input) ((appends 0 x).parse s) := by
    intro left vs c₀ d e hc₀ hd he
    rw [parse_appends] at he
    obtain ⟨v, hv, -⟩ := Step.map_eq_hit.1 he
    exact hmoves (a := v) hc₀ hd hv
  have hempty : (Node.emptyList : Parser E .list).parse s () = Step.hit [] := by
    funext c
    rw [parse, parseAt_eq]
    rfl
  calc (fromFirst q x).parse s () c
    _ = (Step.bind ((appends 0 x).parse s []) ((Node.rep (.before true q (appends 0 x))).parse s)).backtrack c := by
      rw [fromFirst, parse_seq hi, parse_single hi, parse_rep_appends, (parse_tame hi _ _).sequence_eq]
    _ = (separated q (appends 0 x)).parse s [] c := by
      rw [separated, parse_seq hi, (parse_tame hi _ _).sequence_eq]
    _ = (Node.join true q (appends 0 x)).parse s [] c := ((parse_join_eq hi hc hmoves' []).1).symm
    _ = (fromEmpty q x).parse s () c := by
      rw [fromEmpty, parse_seq hi, hempty, (Step.Tame.hit _).sequence_eq, Step.hit_bind,
        (parse_tame hi _ _).backtrack_eq]

end

/-! ## Printing -/

variable {ds : Definitions E} {env : E} {q : Recognizer} {x : Parser E .value} {n : Nat} {v : Value} {vs : List Value}
  {tree : Tree} {trees : List Tree}

/-- Only a list of one value is printed as that value. -/
theorem print_single_eq_hit : (single x).print ds env n vs = .hit ((), tree) ↔
    ∃ v, vs = [v] ∧ x.print ds env n v = .hit ((), tree) := by
  constructor
  · intro h
    rw [single, print_seq, print_map] at h
    obtain ⟨⟨mid, second⟩, hmid, hx⟩ := Outcome.andThen_eq_hit.1 h
    obtain ⟨v, hv, heq⟩ := Outcome.map_eq_hit.1 hmid
    obtain ⟨⟨⟨⟩, first⟩, hfirst, htree⟩ := Outcome.map_eq_hit.1 hx
    cases heq
    cases htree
    rw [Tree.append_empty]
    match vs, hv with
    | [_], rfl => exact ⟨_, rfl, hfirst⟩
  · rintro ⟨v, rfl, hv⟩
    rw [single, print_seq, print_map]
    show (x.print ds env n v).map _ = _
    rw [hv]
    show Outcome.hit ((), tree.append .empty) = _
    rw [Tree.append_empty]

theorem print_fromFirst (h : Trees (x.print ds env n) (v :: vs) (tree :: trees)) (hn : trees.length < n) :
    (fromFirst q x).print ds env n (v :: vs) = .hit ((), tree.append (.concat (trees.map q.print.append))) := by
  obtain ⟨hv, hvs⟩ := List.forall₂_cons.1 h
  have hpeeled := takesLast_before.peeled (trees_before (b := true) (q := q) hvs) [v] (Nat.le_refl 1)
  have hpeel := hpeeled.peel_eq_hit (takesLast_before.miss (Nat.le_refl 1)) (by rwa [List.length_map])
  rw [fromFirst, print_seq, print_rep, ← List.singleton_append, hpeel]
  show ((single x).print ds env n [v]).map _ = _
  rw [print_single_eq_hit.2 ⟨v, rfl, hv⟩]
  rfl

theorem print_fromEmpty (h : Trees (x.print ds env n) (v :: vs) (tree :: trees)) (hn : trees.length + 1 < n) :
    (fromEmpty q x).print ds env n (v :: vs) = .hit ((), .concat (intersperse q.print (tree :: trees))) := by
  have hpeeled := takesLast_appends.peeled h [] (Nat.zero_le 0)
  have hpeel := hpeeled.peel_eq_hit (takesLast_appends.miss (Nat.zero_le 0)) hn
  rw [List.nil_append] at hpeel
  rw [fromEmpty, print_seq, print_join, hpeel]
  show ((Node.emptyList : Parser E .list).print ds env n []).map _ = _
  rw [print_emptyList]
  rfl

theorem exists_of_print_fromFirst (h : (fromFirst q x).print ds env n vs = .hit ((), tree)) :
    vs ≠ [] ∧ ∀ v ∈ vs, ∃ tree, x.print ds env n v = .hit ((), tree) := by
  rw [fromFirst, print_seq, print_rep] at h
  obtain ⟨⟨mid, second⟩, hrep, hfirst⟩ := Outcome.andThen_eq_hit.1 h
  obtain ⟨⟨left, trees⟩, hpeel, heq⟩ := Outcome.map_eq_hit.1 hrep
  cases heq
  obtain ⟨⟨⟨⟩, first⟩, hsingle, -⟩ := Outcome.map_eq_hit.1 hfirst
  obtain ⟨v, rfl, hv⟩ := print_single_eq_hit.1 hsingle
  obtain ⟨ts, -, hpeeled, -⟩ := Print.peel_eq_hit hpeel
  obtain ⟨back, rfl, hback⟩ := takesLast_before.exists_back hpeeled
  refine ⟨List.cons_ne_nil v back, fun w hw => ?_⟩
  obtain rfl | hw := List.mem_cons.1 hw
  · exact ⟨first, hv⟩
  · obtain ⟨t, ht⟩ := exists_forall₂_iff.1 ⟨ts, hback⟩ w hw
    rw [print_before] at ht
    obtain ⟨⟨⟨⟩, t'⟩, ht', -⟩ := Outcome.map_eq_hit.1 ht
    exact ⟨t', ht'⟩

theorem print_emptyList_eq_hit {v : Unit} (h : (Node.emptyList : Parser E .list).print ds env n vs = .hit (v, tree)) :
    vs = [] := by
  rw [print_emptyList] at h
  by_cases hvs : vs.isEmpty
  · exact List.isEmpty_iff.1 hvs
  · rw [if_neg hvs] at h
    cases h

theorem exists_of_print_fromEmpty (h : (fromEmpty q x).print ds env n vs = .hit ((), tree)) :
    vs ≠ [] ∧ ∀ v ∈ vs, ∃ tree, x.print ds env n v = .hit ((), tree) := by
  rw [fromEmpty, print_seq, print_join] at h
  obtain ⟨⟨mid, second⟩, hjoin, hempty⟩ := Outcome.andThen_eq_hit.1 h
  obtain ⟨⟨left, trees⟩, hpeel, htrees⟩ := Outcome.andThen_eq_hit.1 hjoin
  obtain ⟨ts, rfl, hpeeled, -⟩ := Print.peel_eq_hit hpeel
  obtain ⟨back, rfl, hback⟩ := takesLast_appends.exists_back hpeeled
  cases ts with
  | nil => cases htrees
  | cons t ts =>
    cases htrees
    obtain ⟨⟨⟨⟩, first⟩, hnil, -⟩ := Outcome.map_eq_hit.1 hempty
    have hmid : mid = [] := print_emptyList_eq_hit hnil
    subst hmid
    refine ⟨fun hnone => ?_, exists_forall₂_iff.1 ⟨_, hback⟩⟩
    rw [List.nil_append] at hnone
    subst hnone
    cases hback

theorem fromFirst_prints
    (h : List.Forall₂ (fun v tree => x.Prints ds env v (.hit ((), tree))) (v :: vs) (tree :: trees)) :
    (fromFirst q x).Prints ds env (v :: vs) (.hit ((), tree.append (.concat (trees.map q.print.append)))) := by
  filter_upwards [eventually_forall₂ h, Filter.eventually_gt_atTop trees.length] with n hn hlen
  exact print_fromFirst hn hlen

theorem fromEmpty_prints
    (h : List.Forall₂ (fun v tree => x.Prints ds env v (.hit ((), tree))) (v :: vs) (tree :: trees)) :
    (fromEmpty q x).Prints ds env (v :: vs) (.hit ((), .concat (intersperse q.print (tree :: trees)))) := by
  filter_upwards [eventually_forall₂ h, Filter.eventually_gt_atTop (trees.length + 1)] with n hn hlen
  exact print_fromEmpty hn hlen

end Node

/-! ## Texts -/

namespace Tree

variable {σ : Type} (layout : Layout σ) (separator : Tree)

theorem renderAll_map_append : ∀ (ts : List Tree) (out : σ),
    renderAll layout (ts.map separator.append) out = renderAll layout (ts.flatMap fun t => [separator, t]) out
  | [], _ => rfl
  | t :: ts, out => by
    have hrest := renderAll_map_append ts (t.render layout (separator.render layout out))
    rw [List.map_cons, List.flatMap_cons, renderAll_append]
    show renderAll layout (ts.map separator.append) ((separator.append t).render layout out) = _
    rw [render_append, hrest]
    rfl

theorem renderAll_intersperse (separator : Tree) : ∀ (ts : List Tree) (out : String),
    renderAll .plain (intersperse separator ts) out = out ++ separator.toSource.intercalate (ts.map toSource)
  | [], out => by simp [intersperse, renderAll]
  | [t], out => by
    show t.render .plain out = _
    rw [render_plain_eq, List.map_singleton, String.intercalate_singleton]
  | t :: u :: ts, out => by
    show renderAll .plain (intersperse separator (u :: ts)) (separator.render .plain (t.render .plain out)) = _
    rw [renderAll_intersperse separator (u :: ts), render_plain_eq, render_plain_eq]
    simp only [List.map_cons, String.intercalate_cons_cons, String.append_assoc]

end Tree

namespace Node

variable {ds : Definitions E} {env : E} {q : Recognizer} {x : Parser E .value} {vs : List Value}

/-- What both grammars print, as a text and in any layout. -/
theorem fromFirst_fromEmpty_print (hvs : vs ≠ []) {trees : List Tree}
    (h : List.Forall₂ (fun v tree => x.Prints ds env v (.hit ((), tree))) vs trees) :
    ∃ tree tree', (fromFirst q x).Prints ds env vs (.hit ((), tree)) ∧
      (fromEmpty q x).Prints ds env vs (.hit ((), tree')) ∧
      (∀ {σ : Type} (layout : Layout σ) (out : σ), tree.render layout out = tree'.render layout out) ∧
      tree.toSource = q.print.toSource.intercalate (trees.map Tree.toSource) := by
  cases h with
  | nil => exact absurd rfl hvs
  | @cons v tree vs trees hv hrest =>
    have hsame : ∀ {σ : Type} (layout : Layout σ) (out : σ),
        (tree.append (.concat (trees.map q.print.append))).render layout out =
          (Tree.concat (intersperse q.print (tree :: trees))).render layout out := by
      intro σ layout out
      rw [Tree.render_append, Tree.render_concat, Tree.render_concat, Print.intersperse_cons,
        Tree.renderAll_map_append]
      rfl
    refine ⟨_, _, fromFirst_prints (.cons hv hrest), fromEmpty_prints (.cons hv hrest), hsame, ?_⟩
    rw [Tree.toSource, hsame, Tree.render_concat, Tree.renderAll_intersperse, String.empty_append]

theorem fromFirst_printable_iff :
    (fromFirst q x).Printable ds env vs ↔ vs ≠ [] ∧ ∀ v ∈ vs, x.Printable ds env v := by
  constructor
  · rintro ⟨tree, h⟩
    obtain ⟨n, hn⟩ := h.exists
    obtain ⟨hvs, hall⟩ := exists_of_print_fromFirst hn
    exact ⟨hvs, fun v hv => (hall v hv).imp fun _ hv => prints_of_print hv (by simp)⟩
  · rintro ⟨hvs, hall⟩
    obtain ⟨trees, htrees⟩ := exists_forall₂_iff.2 hall
    obtain ⟨tree, -, h, -⟩ := fromFirst_fromEmpty_print hvs htrees
    exact ⟨tree, h⟩

theorem fromEmpty_printable_iff :
    (fromEmpty q x).Printable ds env vs ↔ vs ≠ [] ∧ ∀ v ∈ vs, x.Printable ds env v := by
  constructor
  · rintro ⟨tree, h⟩
    obtain ⟨n, hn⟩ := h.exists
    obtain ⟨hvs, hall⟩ := exists_of_print_fromEmpty hn
    exact ⟨hvs, fun v hv => (hall v hv).imp fun _ hv => prints_of_print hv (by simp)⟩
  · rintro ⟨hvs, hall⟩
    obtain ⟨trees, htrees⟩ := exists_forall₂_iff.2 hall
    obtain ⟨-, tree, -, h, -⟩ := fromFirst_fromEmpty_print (q := q) hvs htrees
    exact ⟨tree, h⟩

end Node

/-- **Both grammars of a separated list do the same.**  Where a separator with a value behind it always moves, they read
the same.  They print the same lists, which are those of at least one value where each of the values is printed; and
what they print is the text of each value, with the one of the separator between neighbours. -/
theorem fromFirst_is_fromEmpty (ds : Definitions E) (env : E) (lexer : Lexer) (text : String) (depth : Nat)
    (q : Recognizer) (x : Parser E .value) :
    let s : Setting E := ⟨ds, env, .of lexer (.ofString text), depth⟩
    (∀ c : Cursor, c.offset ≤ s.input.source.size →
      Step.Moving s.input c.depth (q.recognize s.input) (fun _ : Value => x.parse s ()) →
      (Node.fromFirst q x).parse s () c = (Node.fromEmpty q x).parse s () c) ∧
    ∀ vs : List Value,
      ((Node.fromFirst q x).Printable ds env vs ↔ vs ≠ [] ∧ ∀ v ∈ vs, x.Printable ds env v) ∧
      ((Node.fromEmpty q x).Printable ds env vs ↔ vs ≠ [] ∧ ∀ v ∈ vs, x.Printable ds env v) ∧
      ∀ trees, vs ≠ [] → List.Forall₂ (fun v tree => x.Prints ds env v (.hit ((), tree))) vs trees →
        ∃ tree tree', (Node.fromFirst q x).Prints ds env vs (.hit ((), tree)) ∧
          (Node.fromEmpty q x).Prints ds env vs (.hit ((), tree')) ∧
          (∀ {σ : Type} (layout : Layout σ) (out : σ), tree.render layout out = tree'.render layout out) ∧
          tree.toSource = q.print.toSource.intercalate (trees.map Tree.toSource) := by
  intro s
  have hi : s.input.WellFormed := Input.wellFormed_of lexer text
  exact ⟨fun c hc hmoves => Node.parse_fromFirst_eq hi hc hmoves, fun vs => ⟨Node.fromFirst_printable_iff,
    Node.fromEmpty_printable_iff, fun trees hvs htrees => Node.fromFirst_fromEmpty_print hvs htrees⟩⟩

/-- The last comma has no word behind it and is given back; two words are printed with one comma. -/
theorem fromFirst_is_fromEmpty_words :
    let s : Setting Unit := ⟨Nested.definitions, (), .of Nested.lexer (.ofString "a, a,]"), 1⟩
    let comma : Recognizer := .token (.pattern 2) false ","
    let c : Cursor := ⟨0, 0, 20, 0⟩
    let words : List Value := [.string "a", .string "a"]
    (c.offset ≤ s.input.source.size ∧
      Step.Moving s.input c.depth (comma.recognize s.input) (fun _ : Value => Nested.word.parse s ()) ∧ words ≠ [] ∧
      List.Forall₂ (fun v tree => Nested.word.Prints Nested.definitions () v (.hit ((), tree))) words
        [.text "a", .text "a"]) ∧
    (Node.fromEmpty comma Nested.word).parse s () c = (.hit words, ⟨4, 5, 15, 0⟩) ∧
    (Node.fromFirst comma Nested.word).parse s () c = (.hit words, ⟨4, 5, 15, 0⟩) ∧
    ∃ tree, (Node.fromFirst comma Nested.word).Prints Nested.definitions () words (.hit ((), tree)) ∧
      tree.toSource = "a,a" := by
  intro s comma c words
  have hi : s.input.WellFormed := Input.wellFormed_of Nested.lexer "a, a,]"
  have hc : c.offset ≤ s.input.source.size := Nat.zero_le _
  have hmoves : Step.Moving s.input c.depth (comma.recognize s.input) (fun _ : Value => Nested.word.parse s ()) := by
    intro _ _ c d e _ hd he
    have hcomma := ((comma.recognize_tame hi).follows_of_eq hd).offset
    have hword := Node.parse_scan_lt hi he
    omega
  have hword : Nested.word.Prints Nested.definitions () (.string "a") (.hit ((), .text "a")) :=
    Node.prints_of_print (n := 0) rfl (by simp)
  have htrees : List.Forall₂ (fun v tree => Nested.word.Prints Nested.definitions () v (.hit ((), tree))) words
      [.text "a", .text "a"] := .cons hword (.cons hword .nil)
  have hempty : (Node.fromEmpty comma Nested.word).parse s () c = (.hit words, ⟨4, 5, 15, 0⟩) := by decide +kernel
  have hboth := fromFirst_is_fromEmpty Nested.definitions () Nested.lexer "a, a,]" 1 comma Nested.word
  obtain ⟨tree, -, htree, -, -, hsource⟩ := (hboth.2 words).2.2 _ (List.cons_ne_nil _ _) htrees
  refine ⟨⟨hc, hmoves, List.cons_ne_nil _ _, htrees⟩, hempty, (hboth.1 c hc hmoves).trans hempty, tree, htree, ?_⟩
  rw [hsource]
  decide +kernel

end Ambigram
