import Ambigram.Proofs.Compounds
import Ambigram.Proofs.Unwinding
/-!
# Separators

Matches with separators between them are one match, and then a repetition of a separator with a match behind it; without
any match they may be left out as a whole.  The two loops part only where a turn matches and does not move, for there
the repetition stops.

Printing knows no such repetition: it takes the elements off and puts the separator between those that it took.
-/
namespace Ambigram

variable {E α : Type} {i : Input} {depth : Nat}

open Cursor (Stands)

/-! ## Turns -/

namespace Step

/-- From the places at a depth, a match of the first step with a match of the second one behind it has moved. -/
def Moving (i : Input) (depth : Nat) (q : Step Unit) (u : α → Step α) : Prop :=
  ∀ ⦃a b c d e⦄, Stands i depth c → q c = (.hit (), d) → u a d = (.hit b, e) → e.offset ≠ c.offset

theorem Moving.congr {q : Step Unit} {u w : α → Step α} (hq : Tame i q) (h : Moving i depth q u)
    (huw : ∀ a c, Stands i depth c → u a c = w a c) : Moving i depth q w := by
  intro a b c d e hc hd he
  have hstands := (hq.follows_of_eq hd).stands hc
  exact h hc hd ((huw a d hstands).trans he)

/-- Where a first match is not asked for, it may be left out. -/
theorem joined_false (q : Step Unit) (u : α → Step α) (a : α) : joined false q u a = optional (joined true q u) a := by
  funext c
  unfold optional orElse joined
  rcases hd : u a c with ⟨o, d⟩
  cases o with
  | hit b =>
    have hmatches := Tame.joinFor_ne_miss q u (d.fuel + 1) b d
    dsimp only
    rcases hloop : joinFor q u (d.fuel + 1) b d with ⟨p, e⟩
    rw [hloop] at hmatches
    cases p with
    | hit v => rfl
    | miss => exact absurd rfl hmatches
    | fail error => rfl
  | miss => rfl
  | fail error => rfl

section Loops

variable {q : Step Unit} {u : α → Step α} (hq : Tame i q) (hu : ∀ a, Tame i (u a)) (hmoves : Moving i depth q u)
  (expected : Unit → String)
include hq hu hmoves

/-- With the same turns left, both loops take the same ones. -/
theorem joinFor_eq_repeatFor : ∀ (n : Nat) (a : α) {c : Cursor}, Stands i depth c →
    joinFor q u n a c = repeatFor (fun a => sequence i true expected q fun _ => u a) n a c
  | 0, _, _, _ => rfl
  | n + 1, a, c, hc => by
    unfold joinFor repeatFor sequence
    rcases hd : q c with ⟨o, d⟩
    cases o with
    | hit =>
      have hstands := (hq.follows_of_eq hd).stands hc
      dsimp only
      rcases he : u a d with ⟨p, e⟩
      cases p with
      | hit b =>
        dsimp only
        rw [if_neg (hmoves hc hd he)]
        exact joinFor_eq_repeatFor n b (((hu a).follows_of_eq he).stands hstands)
      | miss => rfl
      | fail error => rfl
    | miss => rfl
    | fail error => rfl

theorem joined_true_eq (a : α) {c : Cursor} (hc : Stands i depth c) (expected' : Unit → String) :
    joined true q u a c =
      sequence i true expected' (u a) (repeated fun a => sequence i true expected q fun _ => u a) c := by
  rw [joined, sequence]
  rcases hd : u a c with ⟨o, d⟩
  cases o with
  | hit b =>
    have hstands := ((hu a).follows_of_eq hd).stands hc
    have hmatches := Tame.repeatFor_ne_miss (fun a => sequence i true expected q fun _ => u a) (d.fuel + 1) b d
    dsimp only
    rw [joinFor_eq_repeatFor hq hu hmoves expected (d.fuel + 1) b hstands]
    rcases hloop : repeatFor (fun a => sequence i true expected q fun _ => u a) (d.fuel + 1) b d with ⟨p, e⟩
    rw [hloop] at hmatches
    have hrepeated : repeated (fun a => sequence i true expected q fun _ => u a) b d = (p, e) := hloop
    rw [hrepeated]
    cases p with
    | hit v => rfl
    | miss => exact absurd rfl hmatches
    | fail error => rfl
  | miss => rfl
  | fail error => rfl

theorem joined_false_eq (a : α) {c : Cursor} (hc : Stands i depth c) (expected' : Unit → String) :
    joined false q u a c = optional
      (fun a => sequence i true expected' (u a) (repeated fun a => sequence i true expected q fun _ => u a)) a c := by
  have htrue := joined_true_eq hq hu hmoves expected a hc expected'
  rw [joined_false]
  unfold optional orElse
  rw [htrue]

end Loops

end Step

/-! ## Nodes -/

namespace Node

variable {t : Shape}

/-- The node, and then any number of it with a separator in front of each. -/
def separated (q : Recognizer) (x : Reducer E t t) : Reducer E t t := .seq true x (.rep (.before true q x))

variable {s : Setting E} (hi : s.input.WellFormed) {q : Recognizer} {x : Reducer E t t} {c : Cursor}
  (hc : c.offset ≤ s.input.source.size)
include hi hc

theorem recognize_join_eq
    (hmoves : Step.Moving s.input c.depth (q.recognize s.input) fun _ : Unit => x.recognize s) :
    (join true q x).recognize s c = (separated q x).recognize s c ∧
    (join false q x).recognize s c = (opt (separated q x)).recognize s c := by
  have hx := recognizeWith_computes_does c.depth hi x
  have hq := q.recognize_tame hi
  have hmoves' := hmoves.congr hq fun _ d hd => (hx.unique (recognize_computes hi x) hd).symm
  unfold recognize
  simp only [recognizeAt_eq]
  exact ⟨Step.joined_true_eq hq (fun _ => hx.tame) hmoves' _ () ⟨hc, rfl⟩ _,
    Step.joined_false_eq hq (fun _ => hx.tame) hmoves' _ () ⟨hc, rfl⟩ _⟩

theorem parse_join_eq (hmoves : Step.Moving s.input c.depth (q.recognize s.input) (x.parse s)) (left : t.Carrier) :
    (join true q x).parse s left c = (separated q x).parse s left c ∧
    (join false q x).parse s left c = (opt (separated q x)).parse s left c := by
  have hx := fun left => parseWith_computes_does c.depth hi x left
  have hq := q.recognize_tame hi
  have hmoves' := hmoves.congr hq fun left d hd => ((hx left).unique (parse_computes hi x left) hd).symm
  unfold parse
  simp only [parseAt_eq]
  exact ⟨Step.joined_true_eq hq (fun left => (hx left).tame) hmoves' _ left ⟨hc, rfl⟩ _,
    Step.joined_false_eq hq (fun left => (hx left).tame) hmoves' _ left ⟨hc, rfl⟩ _⟩

end Node

/-! ## Trees with a separator between them -/

theorem Print.intersperse_cons (separator : Tree) : ∀ (t : Tree) (ts : List Tree),
    intersperse separator (t :: ts) = t :: ts.flatMap fun u => [separator, u]
  | _, [] => rfl
  | t, u :: ts => by
    rw [intersperse, intersperse_cons separator u ts]
    rfl

/-- **Joining is the loop it stands for.**  Where a separator with a match behind it always moves, reading with or
without values is reading the node and then a repetition of the two, or leaving that out.  And whatever the node unwinds
a value to is what is printed, with the separator in front of every tree but the first. -/
theorem join_is_rep (ds : Definitions E) (env : E) (lexer : Lexer) (text : String) (depth : Nat) {t : Shape}
    (q : Recognizer) (x : Reducer E t t) :
    let s : Setting E := ⟨ds, env, .of lexer (.ofString text), depth⟩
    let loop : Reducer E t t := .seq true x (.rep (.before true q x))
    (∀ c : Cursor, c.offset ≤ s.input.source.size →
      (Step.Moving s.input c.depth (q.recognize s.input) (fun _ : Unit => x.recognize s) →
        (Node.join true q x).recognize s c = loop.recognize s c ∧
        (Node.join false q x).recognize s c = (Node.opt loop).recognize s c) ∧
      (Step.Moving s.input c.depth (q.recognize s.input) (x.parse s) → ∀ left,
        (Node.join true q x).parse s left c = loop.parse s left c ∧
        (Node.join false q x).parse s left c = (Node.opt loop).parse s left c)) ∧
    ∀ v left trees, x.Unwinds ds env v left trees →
      ∃ tree, (Node.join false q x).Prints ds env v (.hit (left, tree)) ∧
        (Node.join true q x).Prints ds env v (if trees = [] then .miss else .hit (left, tree)) ∧
        ∀ {σ : Type} (layout : Layout σ) (out : σ), tree.render layout out =
          match trees with
          | [] => out
          | first :: rest => Tree.renderAll layout (first :: rest.flatMap fun u => [q.print, u]) out := by
  intro s loop
  have hi : s.input.WellFormed := Input.wellFormed_of lexer text
  refine ⟨fun c hc => ⟨fun hmoves => Node.recognize_join_eq hi hc hmoves, fun hmoves left =>
    Node.parse_join_eq hi hc hmoves left⟩, fun v left trees h => ?_⟩
  have hfalse := h.join_prints q false
  have htrue := h.join_prints q true
  refine ⟨_, hfalse, ?_, fun layout out => ?_⟩
  · simpa only [Bool.true_and, List.isEmpty_iff] using htrue
  · rw [Tree.render_concat]
    cases trees with
    | nil => rfl
    | cons first rest => rw [Print.intersperse_cons]

/-- A comma and the word behind it have moved, and the last comma has no word behind it. -/
theorem join_is_rep_words :
    let s : Setting Unit := ⟨Nested.definitions, (), .of Nested.lexer (.ofString "a, a,]"), 1⟩
    let comma : Recognizer := .token (.pattern 2) false ","
    let words := Nested.words
    let loop : Reducer Unit .list .list := .seq true words (.rep (.before true comma words))
    let c : Cursor := ⟨0, 0, 20, 0⟩
    (c.offset ≤ s.input.source.size ∧
      Step.Moving s.input 0 (comma.recognize s.input) (fun _ : Unit => words.recognize s) ∧
      Step.Moving s.input 0 (comma.recognize s.input) (words.parse s) ∧
      words.Unwinds Nested.definitions () [.string "a", .string "a"] [] [.text "a", .text "a"]) ∧
    loop.parse s [] c = (.hit [.string "a", .string "a"], ⟨4, 5, 15, 0⟩) ∧
    (Node.join true comma words).parse s [] c = (.hit [.string "a", .string "a"], ⟨4, 5, 15, 0⟩) ∧
    (Node.join true comma words).recognize s c = loop.recognize s c ∧
    ∃ tree, (Node.join true comma words).Prints Nested.definitions () [.string "a", .string "a"] (.hit ([], tree)) ∧
      tree.render .plain "" = "a,a" := by
  intro s comma words loop c
  have hi : s.input.WellFormed := Input.wellFormed_of Nested.lexer "a, a,]"
  have hc : c.offset ≤ s.input.source.size := Nat.zero_le _
  have hmoves : Step.Moving s.input 0 (comma.recognize s.input) (fun _ : Unit => words.recognize s) := by
    intro _ _ c d e _ hd he
    have hcomma := ((comma.recognize_tame hi).follows_of_eq hd).offset
    have hword := Node.recognize_fold_scan_lt hi he
    omega
  have hmoves' : Step.Moving s.input 0 (comma.recognize s.input) (words.parse s) := by
    intro _ _ c d e _ hd he
    have hcomma := ((comma.recognize_tame hi).follows_of_eq hd).offset
    have hword := Node.parse_fold_scan_lt hi he
    omega
  have hunwinds := Nested.unwinds_words
  have hloop : loop.parse s [] c = (.hit [.string "a", .string "a"], ⟨4, 5, 15, 0⟩) := by decide +kernel
  have hjoin := join_is_rep Nested.definitions () Nested.lexer "a, a,]" 1 comma words
  obtain ⟨tree, -, htree, hrender⟩ := hjoin.2 _ _ _ hunwinds
  refine ⟨⟨hc, hmoves, hmoves', hunwinds⟩, hloop, ?_, ((hjoin.1 c hc).1 hmoves).1, tree, htree, ?_⟩
  · exact (((hjoin.1 c hc).2 hmoves' []).1).trans hloop
  · rw [hrender .plain ""]
    decide

end Ambigram
