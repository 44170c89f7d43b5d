import Ambigram.Proofs.Furthest
import Ambigram.Proofs.Grouping
/-!
# Factoring

A choice between two sequences with the same first part is that part and then a choice.  Written out, the first part is
read once more where the second branch begins, from a cursor that has less fuel and has reached further; so it is the
same run, and only the fuel shows that there were two.

Printing does not come back to the first part with another split.  Where both second parts print a value, and the first
part prints only what the later one leaves of it, the choice in front prints and the choice behind does not.
-/
namespace Ambigram

variable {E α β γ : Type}

/-! ## Steps -/

namespace Step

/-- Unless a limit ends the first step, the second one comes to the same, at the same place and with any fuel. -/
def AgreesButFuel (x x' : Step α) : Prop := ∀ c, ¬ (x c).1.CutOff → (x' c).1 = (x c).1 ∧ (x c).2.SamePlace (x' c).2

theorem map_orElse {x y : Step α} (f : α → β) : (x.orElse y).map f = (x.map f).orElse (y.map f) := by
  funext c
  rcases hx : x c with ⟨o, d⟩
  cases o with
  | hit _ | fail _ => simp only [map, bind, orElse, hit, hx]
  | miss => simp only [map, bind, orElse, hx]

variable {i : Input} {e e' e'' : Unit → String} {x : Step α} {f g : α → Step β}

theorem sequence_cutOff {b : Bool} {c : Cursor} (h : (x c).1.CutOff) : (sequence i b e x f c).1.CutOff := by
  unfold sequence
  rcases hc : x c with ⟨o, d⟩
  rw [hc] at h
  cases o with
  | hit a => exact absurd h (Outcome.not_cutOff_hit a)
  | miss => exact absurd h Outcome.not_cutOff_miss
  | fail e => exact (Outcome.cutOff_fail e).1 h

/-- A choice between two sequences runs the first step again, where there is one choice behind it. -/
theorem agreesButFuel_sequence_orElse (hx : Steady i x) (hf : ∀ a, Tame i (f a)) (hg : ∀ a, Steady i (g a)) :
    AgreesButFuel ((sequence i true e x f).orElse (sequence i true e' x g))
      (sequence i true e'' x fun a => (f a).orElse (g a)) := by
  intro c hcut
  rcases hc : x c with ⟨o, d⟩
  cases o with
  | hit a =>
    rcases hd : f a d with ⟨p, d₁⟩
    cases p with
    | miss =>
      have hchoice : ((sequence i true e x f).orElse (sequence i true e' x g)) c =
          sequence i true e' x g (d₁.goTo c.offset) := by
        simp only [orElse, sequence, hc, hd, if_true]
      rw [hchoice] at hcut ⊢
      -- the second branch stands where the first one stopped, with less fuel
      have hstill : d₁.goTo d.offset = d₁ := by
        rw [← (hf a).still_of_eq hd]
        rfl
      obtain ⟨d₂, hagain, hplace, hfuel⟩ :=
        hx.again hc ((hf a).follows_of_eq hd) fun h => hcut (sequence_cutOff h)
      rw [hstill] at hplace
      simp only [sequence, orElse, hc, hd, hagain] at hcut ⊢
      rcases hu : g a d₂ with ⟨q, e₂⟩
      rcases hv : g a d₁ with ⟨q', e₁⟩
      have hsame : ¬ q.CutOff → SameRun d₂ d₁ (q, e₂) (q', e₁) := by
        rw [← hu, ← hv]
        exact fun hq => ((hg a).refuels _).sameRun hplace hfuel (by rw [hu]; exact hq)
      rw [hu] at hcut
      cases q with
      | hit v =>
        obtain ⟨rfl, hleft, -⟩ := hsame hcut
        exact ⟨rfl, hleft⟩
      | miss =>
        obtain ⟨rfl, hleft, -⟩ := hsame hcut
        exact ⟨rfl, rfl, hleft.furthest, hleft.depth⟩
      | fail _ =>
        obtain ⟨rfl, hleft, -⟩ := hsame hcut
        exact ⟨rfl, hleft⟩
    | hit _ | fail _ =>
      simp only [orElse, sequence, hc, hd]
      exact ⟨trivial, .refl _⟩
  | miss =>
    have hchoice : ((sequence i true e x f).orElse (sequence i true e' x g)) c = sequence i true e' x g d := by
      simp only [orElse, sequence, hc]
    have hstill : d.goTo c.offset = d := by
      rw [← hx.tame.still_of_eq hc]
      rfl
    rw [hchoice] at hcut ⊢
    obtain ⟨d', hagain, hplace, -⟩ :=
      hx.again hc (.refl d) fun h => hcut (sequence_cutOff (hstill ▸ h))
    rw [hstill] at hagain
    simp only [sequence, hc, hagain]
    exact ⟨trivial, hplace⟩
  | fail _ =>
    simp only [orElse, sequence, hc]
    exact ⟨trivial, .refl _⟩

end Step

/-! ## Outcomes -/

/-- Where the second outcome is a match, the first one is the same match. -/
def Outcome.Covers (o o' : Outcome α) : Prop := ∀ a, o' = .hit a → o = .hit a

/-- What is left is split in one way, by the first outcome that there is. -/
theorem Outcome.covers_inFront_orElse (o o' : Outcome (α × Tree)) (f : α → Outcome (β × Tree)) :
    Covers ((o.inFront f).orElse (o'.inFront f)) ((o.orElse o').inFront f) := by
  intro w h
  cases o with
  | hit p =>
    have h : (Outcome.hit p).inFront f = .hit w := h
    rw [h]
    rfl
  | miss => exact h
  | fail e => cases h

/-! ## Parts -/

namespace Part

/-- What a part starts from, if it is not a parser, and the shape of its value; recognizers have neither. -/
def role : Part E → Option (Option Shape × Shape)
  | .recognizer _ => none
  | @node _ a t _ => some (a, t)

variable {a : Option Shape} {t u : Shape}

theorem role_eq_node {x : Node E a t} {p : Part E} (h : (node x).role = p.role) : ∃ y : Node E a t, p = .node y := by
  cases p with
  | recognizer r => cases h
  | node y =>
    cases h
    exact ⟨y, rfl⟩

theorem orElse_nodes (x y : Node E a t) : (node x).orElse (.node y) = some (.node (.choice x y)) := by
  cases a <;> simp [orElse]

section

variable {s : Setting E} (hi : s.input.WellFormed)
include hi

theorem factored_recognizers (p q r : Recognizer) : Related s Step.AgreesButFuel Outcome.Covers
    (.recognizer (.choice (.seq true p q) (.seq true p r))) (.recognizer (.seq true p (.choice q r))) :=
  .recognizer (Step.agreesButFuel_sequence_orElse (p.recognize_steady hi) (fun _ => q.recognize_tame hi) fun _ =>
    r.recognize_steady hi) rfl

theorem factored_before (p : Recognizer) (y z : Node E a t) : Related s Step.AgreesButFuel Outcome.Covers
    (.node (.choice (.before true p y) (.before true p z))) (.node (.before true p (.choice y z))) := by
  refine .node ?_ (fun left => ?_) fun n v => ?_
  · rw [Node.recognize_choice hi, Node.recognize_before hi, Node.recognize_before hi, Node.recognize_before hi,
      Node.recognize_choice hi]
    exact Step.agreesButFuel_sequence_orElse (p.recognize_steady hi) (fun _ => y.recognize_tame hi) fun _ =>
      z.recognize_steady hi
  · rw [Node.parse_choice hi, Node.parse_before hi, Node.parse_before hi, Node.parse_before hi, Node.parse_choice hi]
    exact Step.agreesButFuel_sequence_orElse (p.recognize_steady hi) (fun _ => y.parse_tame hi left) fun _ =>
      z.parse_steady hi left
  · rw [Node.print_choice, Node.print_before_inFront, Node.print_before_inFront, Node.print_before_inFront,
      Node.print_choice]
    exact Outcome.covers_inFront_orElse _ _ _

theorem factored_after (x : Node E a t) (q r : Recognizer) : Related s Step.AgreesButFuel Outcome.Covers
    (.node (.choice (.after true x q) (.after true x r))) (.node (.after true x (.choice q r))) := by
  refine .node ?_ (fun left => ?_) fun n v => ?_
  · rw [Node.recognize_choice hi, Node.recognize_after, Node.recognize_after, Node.recognize_after]
    exact Step.agreesButFuel_sequence_orElse (x.recognize_steady hi) (fun _ => q.recognize_tame hi) fun _ =>
      r.recognize_steady hi
  · have hmap : ∀ v : t.Carrier, ((Recognizer.choice q r).recognize s.input).map (fun _ => v) =
        ((q.recognize s.input).map fun _ => v).orElse ((r.recognize s.input).map fun _ => v) :=
      fun v => Step.map_orElse _
    rw [Node.parse_choice hi, Node.parse_after, Node.parse_after, Node.parse_after, funext hmap]
    exact Step.agreesButFuel_sequence_orElse (x.parse_steady hi left) (fun v => (q.recognize_tame hi).map _) fun v =>
      (r.recognize_steady hi).map _
  · rw [Node.print_choice, Node.print_after_inFront, Node.print_after_inFront, Node.print_after_inFront]
    exact Outcome.covers_inFront_orElse (.hit (v, q.print)) (.hit (v, r.print)) _

theorem factored_nodes (x : Node E a t) (y z : Node E (some t) u) : Related s Step.AgreesButFuel Outcome.Covers
    (.node (.choice (.seq true x y) (.seq true x z))) (.node (.seq true x (.choice y z))) := by
  refine .node ?_ (fun left => ?_) fun n v => ?_
  · rw [Node.recognize_choice hi, Node.recognize_seq hi, Node.recognize_seq hi, Node.recognize_seq hi,
      Node.recognize_choice hi]
    exact Step.agreesButFuel_sequence_orElse (x.recognize_steady hi) (fun _ => y.recognize_tame hi) fun _ =>
      z.recognize_steady hi
  · rw [Node.parse_choice hi, Node.parse_seq hi, Node.parse_seq hi, Node.parse_seq hi, funext (Node.parse_choice hi y z)]
    exact Step.agreesButFuel_sequence_orElse (x.parse_steady hi left) (y.parse_tame hi) (z.parse_steady hi)
  · rw [Node.print_choice, Node.print_seq_inFront, Node.print_seq_inFront, Node.print_seq_inFront, Node.print_choice]
    exact Outcome.covers_inFront_orElse _ _ _

end

end Part

/-- **A common first part can be put in front of the choice.**  For second parts of one role, the choice between the two
sequences and the sequence with the choice behind it compose both or neither.  Wherever no limit ends what the first one
reads, the second one comes to the same, with all but the fuel where the first one has it.  Whatever the second one
prints, the first one prints the same.  What recognizers print is the first part and then the first one of the two. -/
theorem andThen_orElse (ds : Definitions E) (env : E) (lexer : Lexer) (text : String) (depth : Nat) :
    let s : Setting E := ⟨ds, env, .of lexer (.ofString text), depth⟩
    (∀ p q r : Part E, q.role = r.role →
      Option.Rel (Part.Related s Step.AgreesButFuel Outcome.Covers)
        ((p.andThen true q).bind fun x => (p.andThen true r).bind fun y => x.orElse y)
        ((q.orElse r).bind fun x => p.andThen true x)) ∧
    ∀ p q r : Recognizer, (Recognizer.choice (.seq true p q) (.seq true p r)).print = p.print.append q.print ∧
      (Recognizer.seq true p (.choice q r)).print = p.print.append q.print := by
  intro s
  have hi : s.input.WellFormed := Input.wellFormed_of lexer text
  refine ⟨fun p q r hrole => ?_, fun p q r => ⟨rfl, rfl⟩⟩
  cases q with
  | recognizer q =>
    cases r with
    | recognizer r =>
      cases p with
      | recognizer p => exact .some (Part.factored_recognizers hi p q r)
      | node x =>
        show Option.Rel _ ((Part.node (.after true x q)).orElse (.node (.after true x r))) _
        rw [Part.orElse_nodes]
        exact .some (Part.factored_after hi x q r)
    | node z => cases hrole
  | @node a t y =>
    obtain ⟨z, rfl⟩ := Part.role_eq_node hrole
    rw [Part.orElse_nodes, Option.bind_some]
    cases p with
    | recognizer p =>
      show Option.Rel _ ((Part.node (.before true p y)).orElse (.node (.before true p z))) _
      rw [Part.orElse_nodes]
      exact .some (Part.factored_before hi p y z)
    | @node a' u x =>
      cases a with
      | none => exact .none
      | some w =>
        by_cases h : u = w
        · subst h
          simp only [Part.andThen, dite_true, Option.bind_some, Part.orElse_nodes]
          exact .some (Part.factored_nodes hi x y z)
        · simp only [Part.andThen, dif_neg h]
          exact .none

/-- A word is read again where no comma stands behind it, for the bracket that does. -/
theorem andThen_orElse_bracket :
    let s : Setting Unit := ⟨Nested.definitions, (), .of Nested.lexer (.ofString "a]"), 1⟩
    let comma : Recognizer := .token (.pattern 2) false ","
    let close : Recognizer := .token (.pattern 1) false "]"
    let choice : Parser Unit .value := .choice (.after true Nested.word comma) (.after true Nested.word close)
    let factored : Parser Unit .value := .after true Nested.word (.choice comma close)
    Part.role (.recognizer comma : Part Unit) = Part.role (.recognizer close : Part Unit) ∧
    choice.parse s () ⟨0, 0, 20, 0⟩ = (.hit (.string "a"), ⟨2, 2, 16, 0⟩) ∧
    ((factored.parse s () ⟨0, 0, 20, 0⟩).1 = .hit (.string "a") ∧
      Cursor.SamePlace ⟨2, 2, 16, 0⟩ (factored.parse s () ⟨0, 0, 20, 0⟩).2) ∧
    ∀ n v, ((choice.print Nested.definitions () n v).Covers (factored.print Nested.definitions () n v)) := by
  intro s comma close choice factored
  have hparse : choice.parse s () ⟨0, 0, 20, 0⟩ = (.hit (.string "a"), ⟨2, 2, 16, 0⟩) := by decide +kernel
  have hrole : Part.role (.recognizer comma : Part Unit) = Part.role (.recognizer close : Part Unit) := rfl
  have hrel : Option.Rel (Part.Related s Step.AgreesButFuel Outcome.Covers)
      (some (.node choice)) (some (.node factored)) :=
    (andThen_orElse Nested.definitions () Nested.lexer "a]" 1).1 (.node Nested.word) (.recognizer comma)
      (.recognizer close) hrole
  cases hrel with
  | some h =>
    cases h with
    | node hrecognize hagrees hprint =>
      have hsame := hagrees () ⟨0, 0, 20, 0⟩ (by rw [hparse]; exact Outcome.not_cutOff_hit _)
      rw [hparse] at hsame
      exact ⟨hrole, hparse, hsame, hprint⟩

/-- The list of a word is the empty list with a word behind it, but a choice behind the empty list does not get there. -/
example :
    let keep : Reducer Unit .list .list := .map .identity
    let append : Reducer Unit .list .list := .fold Nested.word (.append 0)
    let choice : Parser Unit .list := .choice (.seq true .emptyList keep) (.seq true .emptyList append)
    let factored : Parser Unit .list := .seq true .emptyList (.choice keep append)
    choice.print Nested.definitions () 0 [.string "a"] = .hit ((), .text "a") ∧
    factored.print Nested.definitions () 0 [.string "a"] = .miss := by
  decide +kernel

end Ambigram
