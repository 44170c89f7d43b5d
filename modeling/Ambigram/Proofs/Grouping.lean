import Ambigram.Grammar.Part
import Ambigram.Proofs.Compounds
import Ambigram.Proofs.Erasure
/-!
# Grouping

Three parts in a row may be grouped from the left or from the right.  Their roles compose in one way if they do in the
other, and what they make reads and prints the same.

Sequences that commit name what they expected where they break off.  Behind the first part that is the second one
alone, or the second one with the third.
-/
namespace Ambigram

variable {E α β γ : Type}

/-! ## Parts that do the same -/

namespace Part

/-- What a part does without its value. -/
def recognize (s : Setting E) : Part E → Step Unit
  | .recognizer r => r.recognize s.input
  | .node x => x.recognize s

/-- The parts are of one role.  What they do when they read is related by `R`, and what they print by `Q`. -/
inductive Related (s : Setting E) (R : {α : Type} → Step α → Step α → Prop)
    (Q : {α : Type} → Outcome α → Outcome α → Prop) : Part E → Part E → Prop
  | recognizer {r r' : Recognizer} (recognize : R (r.recognize s.input) (r'.recognize s.input))
    (print : r'.print = r.print) : Related s R Q (.recognizer r) (.recognizer r')
  | node {a : Option Shape} {t : Shape} {x x' : Node E a t} (recognize : R (x.recognize s) (x'.recognize s))
    (parse : ∀ left, R (x.parse s left) (x'.parse s left))
    (print : ∀ budget v, Q (x.print s.definitions s.env budget v) (x'.print s.definitions s.env budget v)) :
    Related s R Q (.node x) (.node x')

/-- The ways in which one part is put behind another. -/
inductive Joins (b : Bool) : Part E → Part E → Part E → Prop
  | recognizers (r q : Recognizer) : Joins b (.recognizer r) (.recognizer q) (.recognizer (.seq b r q))
  | before {a : Option Shape} {t : Shape} (r : Recognizer) (x : Node E a t) :
    Joins b (.recognizer r) (.node x) (.node (.before b r x))
  | after {a : Option Shape} {t : Shape} (x : Node E a t) (r : Recognizer) :
    Joins b (.node x) (.recognizer r) (.node (.after b x r))
  | nodes {a : Option Shape} {t u : Shape} (x : Node E a t) (y : Node E (some t) u) :
    Joins b (.node x) (.node y) (.node (.seq b x y))

theorem andThen_eq_some {b : Bool} {p q x : Part E} : p.andThen b q = some x ↔ Joins b p q x := by
  constructor
  · intro h
    cases p with
    | recognizer r => cases q <;> (cases h; constructor)
    | @node a t y =>
      cases q with
      | recognizer r =>
        cases h
        exact .after y r
      | @node a' u z =>
        cases a' with
        | none => cases h
        | some s =>
          obtain ⟨rfl, h⟩ := Option.dite_none_right_eq_some.1 h
          cases h
          exact .nodes y z
  · rintro (⟨r, q⟩ | ⟨r, x⟩ | ⟨x, r⟩ | ⟨x, y⟩)
    all_goals simp [andThen]

/-- From the first cursor the one part matches, and where the second cursor is the other part did not match behind it. -/
def Breaks (s : Setting E) (p q : Part E) (c d : Cursor) : Prop :=
  ∃ e, p.recognize s c = (.hit (), e) ∧ q.recognize s e = (.miss, d)

end Part

/-! ## Steps in a row -/

namespace Step

/-- The second step does what the first one does, but where a sequence that commits breaks off: at the same place, both
come to an unexpected input at what comes next, and each expects its own text there. -/
def Regroups (i : Input) (backtracks : Bool) (breaks : Cursor → Cursor → Prop) (expected expected' : String)
    (x x' : Step α) : Prop :=
  ∀ c, x' c = x c ∨ backtracks = false ∧ ∃ d, breaks c d ∧
    x c = (.fail (.unexpectedInput (d.next i) expected), d) ∧ x' c = (.fail (.unexpectedInput (d.next i) expected'), d)

variable {i : Input} {b : Bool} {e e' e'' : Unit → String} {x : Step α} {f : α → Step β}

theorem map_eq_miss {h : α → β} {c d : Cursor} : x.map h c = (.miss, d) ↔ x c = (.miss, d) := by
  unfold map bind
  rcases x c with ⟨o, d'⟩
  cases o <;> simp [hit]

theorem sequence_map {g : β → Step γ} (h : α → β) :
    sequence i b e (x.map h) g = sequence i b e x fun a => g (h a) := by
  funext c
  unfold sequence map bind
  rcases x c with ⟨o, d⟩
  cases o <;> rfl

theorem map_sequence (h : β → γ) : (sequence i b e x f).map h = sequence i b e x fun a => (f a).map h := by
  funext c
  rcases hx : x c with ⟨o, d⟩
  cases o with
  | hit a =>
    rcases hf : f a d with ⟨p, d'⟩
    cases p with
    | miss => cases b <;> simp only [map, bind, sequence, hx, hf] <;> rfl
    | hit _ | fail _ => simp only [map, bind, sequence, hx, hf, hit]
  | miss | fail _ => simp only [map, bind, sequence, hx]

theorem regroups_sequence {g : β → Step γ} {breaks : Cursor → Cursor → Prop}
    (hbreaks : ∀ {c d d' a}, x c = (.hit a, d) → f a d = (.miss, d') → breaks c d') :
    Regroups i b breaks (e ()) (e' ()) (sequence i b e'' (sequence i b e x f) g)
      (sequence i b e' x fun a => sequence i b e'' (f a) g) := by
  intro c
  unfold sequence
  rcases hx : x c with ⟨o, d⟩
  cases o with
  | hit a =>
    dsimp only
    rcases hf : f a d with ⟨p, d'⟩
    cases p with
    | hit v =>
      left
      dsimp only
      rcases g v d' with ⟨q, d''⟩
      cases q with
      | miss => cases b <;> rfl
      | hit _ | fail _ => rfl
    | miss =>
      cases b with
      | true => exact .inl rfl
      | false => exact .inr ⟨rfl, d', hbreaks hx hf, rfl, rfl⟩
    | fail _ => exact .inl rfl
  | miss | fail _ => exact .inl rfl

end Step

/-! ## Trees in front of one another -/

/-- Goes on with what is left of a value, and puts the tree of that in front. -/
def Outcome.inFront (o : Outcome (α × Tree)) (f : α → Outcome (β × Tree)) : Outcome (β × Tree) :=
  o.andThen fun (mid, second) => (f mid).map fun (left, first) => (left, first.append second)

theorem Outcome.inFront_assoc (o : Outcome (α × Tree)) (f : α → Outcome (β × Tree)) (g : β → Outcome (γ × Tree)) :
    (o.inFront f).inFront g = o.inFront fun mid => (f mid).inFront g := by
  cases o with
  | hit p =>
    dsimp only [inFront, andThen]
    cases f p.1 with
    | hit q =>
      dsimp only [map]
      cases g q.1 with
      | hit l => exact congrArg (fun tree => hit (l.1, tree)) (Tree.append_assoc _ _ _).symm
      | miss | fail _ => rfl
    | miss | fail _ => rfl
  | miss | fail _ => rfl

namespace Node

variable {ds : Definitions E} {env : E} {n : Nat} {a : Option Shape} {t u : Shape} {b : Bool} {r : Recognizer}

theorem print_seq_inFront {x : Node E a t} {y : Node E (some t) u} (v : u.Carrier) :
    (seq b x y).print ds env n v = (y.print ds env n v).inFront (x.print ds env n) := print_seq

theorem print_before_inFront {x : Node E a t} (v : t.Carrier) :
    (before b r x).print ds env n v = (x.print ds env n v).inFront fun left => .hit (left, r.print) := by
  rw [print_before]
  cases x.print ds env n v <;> rfl

theorem print_after_inFront {x : Node E a t} (v : t.Carrier) :
    (after b x r).print ds env n v = (Outcome.hit (v, r.print)).inFront (x.print ds env n) := print_after

end Node

/-! ## Joined parts -/

/-- Without its value, a node does what it does with it, but for the errors of folds and mappings. -/
theorem Node.parse_erases (s : Setting E) {a : Option Shape} {t : Shape} (x : Node E a t) (left : Start a) :
    Step.Erases (fun _ => True) (x.parse s left) (x.recognize s) :=
  fun c => x.parseAt_erases (s.depth - c.depth) left (fun _ _ => trivial) c

namespace Part

/-- The last two parts do the same, up to what it changes to group the first three from the left or from the right. -/
def Regrouped (s : Setting E) (b : Bool) (p q r : Part E) : Part E → Part E → Prop :=
  Related s (Step.Regroups s.input b (Breaks s p q) q.describe (q.describe ++ " " ++ r.describe)) Eq

variable {s : Setting E} {b : Bool} {p q r x y u v : Part E}

section

variable {a : Option Shape} {t w k : Shape} (hi : s.input.WellFormed)
include hi

theorem Joins.recognize_eq (h : Joins b p q x) : x.recognize s =
    Step.sequence s.input b (fun _ => q.describe) (p.recognize s) fun _ => q.recognize s := by
  cases h with
  | recognizers r q => rfl
  | before r x => exact Node.recognize_before hi b r x
  | after x r => exact Node.recognize_after b x r
  | nodes x y => exact Node.recognize_seq hi b x y

/-- The three parts grouped from the left, and from the right. -/
theorem Joins.recognize_regroups (h : Joins b p q x) (hx : Joins b x r u) (hy : Joins b q r y) (hv : Joins b p y v) :
    Step.Regroups s.input b (Breaks s p q) q.describe y.describe (u.recognize s) (v.recognize s) := by
  rw [hx.recognize_eq hi, h.recognize_eq hi, hv.recognize_eq hi, hy.recognize_eq hi]
  exact Step.regroups_sequence fun hp hq => ⟨_, hp, hq⟩

theorem regrouped_recognizers (p q r : Recognizer) : Regrouped s b (.recognizer p) (.recognizer q) (.recognizer r)
    (.recognizer (.seq b (.seq b p q) r)) (.recognizer (.seq b p (.seq b q r))) :=
  .recognizer ((Joins.recognizers p q).recognize_regroups hi (.recognizers _ r) (.recognizers q r) (.recognizers p _))
    (Tree.append_assoc _ _ _).symm

theorem regrouped_before_before (p q : Recognizer) (x : Node E a t) : Regrouped s b (.recognizer p) (.recognizer q)
    (.node x) (.node (.before b (.seq b p q) x)) (.node (.before b p (.before b q x))) := by
  refine .node ((Joins.recognizers p q).recognize_regroups hi (.before _ x) (.before q x) (.before p _))
    (fun left => ?_) fun n v => ?_
  · rw [Node.parse_before hi, Node.parse_before hi, Node.parse_before hi]
    exact Step.regroups_sequence fun hp hq => ⟨_, hp, hq⟩
  · rw [Node.print_before_inFront, Node.print_before_inFront, Node.print_before_inFront, Outcome.inFront_assoc]
    rfl

theorem regrouped_before_after (p : Recognizer) (x : Node E a t) (r : Recognizer) : Regrouped s b (.recognizer p)
    (.node x) (.recognizer r) (.node (.after b (.before b p x) r)) (.node (.before b p (.after b x r))) := by
  refine .node ((Joins.before p x).recognize_regroups hi (.after _ r) (.after x r) (.before p _))
    (fun left => ?_) fun n v => ?_
  · rw [Node.parse_after, Node.parse_before hi, Node.parse_before hi, Node.parse_after]
    exact Step.regroups_sequence fun hp hq => ⟨_, hp, (x.parse_erases s left).of_miss hq⟩
  · rw [Node.print_after_inFront, Node.print_before_inFront, Node.print_after_inFront, Outcome.inFront_assoc,
      funext Node.print_before_inFront]

theorem regrouped_before_nodes (p : Recognizer) (x : Node E a t) (y : Node E (some t) w) : Regrouped s b (.recognizer p)
    (.node x) (.node y) (.node (.seq b (.before b p x) y)) (.node (.before b p (.seq b x y))) := by
  refine .node ((Joins.before p x).recognize_regroups hi (.nodes _ y) (.nodes x y) (.before p _))
    (fun left => ?_) fun n v => ?_
  · rw [Node.parse_seq hi, Node.parse_before hi, Node.parse_before hi, Node.parse_seq hi]
    exact Step.regroups_sequence fun hp hq => ⟨_, hp, (x.parse_erases s left).of_miss hq⟩
  · rw [Node.print_seq_inFront, Node.print_before_inFront, Node.print_seq_inFront, Outcome.inFront_assoc,
      funext Node.print_before_inFront]

theorem regrouped_after_after (x : Node E a t) (q r : Recognizer) : Regrouped s b (.node x) (.recognizer q)
    (.recognizer r) (.node (.after b (.after b x q) r)) (.node (.after b x (.seq b q r))) := by
  refine .node ((Joins.after x q).recognize_regroups hi (.after _ r) (.recognizers q r) (.after x _))
    (fun left => ?_) fun n v => ?_
  · have hback : ∀ v : t.Carrier, ((Recognizer.seq b q r).recognize s.input).map (fun _ => v) = Step.sequence s.input b
        (fun _ => r.describe) ((q.recognize s.input).map fun _ => v) fun v => (r.recognize s.input).map fun _ => v :=
      fun v => (Step.map_sequence _).trans
        (Step.sequence_map (g := fun w => (r.recognize s.input).map fun _ => w) fun _ => v).symm
    rw [Node.parse_after, Node.parse_after, Node.parse_after, funext hback]
    exact Step.regroups_sequence fun hp hq => ⟨_, (x.parse_erases s left).of_hit hp, Step.map_eq_miss.1 hq⟩
  · rw [Node.print_after_inFront, Node.print_after_inFront, funext Node.print_after_inFront, ← Outcome.inFront_assoc]
    rfl

theorem regrouped_after_nodes (x : Node E a t) (q : Recognizer) (y : Node E (some t) w) : Regrouped s b (.node x)
    (.recognizer q) (.node y) (.node (.seq b (.after b x q) y)) (.node (.seq b x (.before b q y))) := by
  refine .node ((Joins.after x q).recognize_regroups hi (.nodes _ y) (.before q y) (.nodes x _))
    (fun left => ?_) fun n v => ?_
  · have hback : ∀ v, (Node.before b q y).parse s v = Step.sequence s.input b (fun _ => y.describe)
        ((q.recognize s.input).map fun _ => v) (y.parse s) :=
      fun v => (Node.parse_before hi b q y v).trans (Step.sequence_map _).symm
    rw [Node.parse_seq hi, Node.parse_after, Node.parse_seq hi, funext hback]
    exact Step.regroups_sequence fun hp hq => ⟨_, (x.parse_erases s left).of_hit hp, Step.map_eq_miss.1 hq⟩
  · rw [Node.print_seq_inFront, Node.print_seq_inFront, Node.print_before_inFront, Outcome.inFront_assoc,
      funext Node.print_after_inFront]

theorem regrouped_nodes_after (x : Node E a t) (y : Node E (some t) w) (r : Recognizer) : Regrouped s b (.node x)
    (.node y) (.recognizer r) (.node (.after b (.seq b x y) r)) (.node (.seq b x (.after b y r))) := by
  refine .node ((Joins.nodes x y).recognize_regroups hi (.after _ r) (.after y r) (.nodes x _))
    (fun left => ?_) fun n v => ?_
  · rw [Node.parse_after, Node.parse_seq hi, Node.parse_seq hi, funext (Node.parse_after b y r)]
    exact Step.regroups_sequence fun hp hq => ⟨_, (x.parse_erases s left).of_hit hp, (y.parse_erases s _).of_miss hq⟩
  · rw [Node.print_after_inFront, Node.print_seq_inFront, Node.print_after_inFront, Outcome.inFront_assoc,
      funext Node.print_seq_inFront]

theorem regrouped_nodes (x : Node E a t) (y : Node E (some t) w) (z : Node E (some w) k) : Regrouped s b (.node x)
    (.node y) (.node z) (.node (.seq b (.seq b x y) z)) (.node (.seq b x (.seq b y z))) := by
  refine .node ((Joins.nodes x y).recognize_regroups hi (.nodes _ z) (.nodes y z) (.nodes x _))
    (fun left => ?_) fun n v => ?_
  · rw [Node.parse_seq hi, Node.parse_seq hi, Node.parse_seq hi, funext (Node.parse_seq hi b y z)]
    exact Step.regroups_sequence fun hp hq => ⟨_, (x.parse_erases s left).of_hit hp, (y.parse_erases s _).of_miss hq⟩
  · rw [Node.print_seq_inFront, Node.print_seq_inFront, Node.print_seq_inFront, Outcome.inFront_assoc,
      funext Node.print_seq_inFront]

/-- Grouped from the left, parts can be grouped from the right, and do the same. -/
theorem Joins.exists_right (h : Joins b p q x) (hx : Joins b x r u) :
    ∃ y v, Joins b q r y ∧ Joins b p y v ∧ Regrouped s b p q r u v := by
  cases h with
  | recognizers p q =>
    cases hx with
    | recognizers _ r => exact ⟨_, _, .recognizers q r, .recognizers p _, regrouped_recognizers hi p q r⟩
    | before _ z => exact ⟨_, _, .before q z, .before p _, regrouped_before_before hi p q z⟩
  | before p y =>
    cases hx with
    | after _ r => exact ⟨_, _, .after y r, .before p _, regrouped_before_after hi p y r⟩
    | nodes _ z => exact ⟨_, _, .nodes y z, .before p _, regrouped_before_nodes hi p y z⟩
  | after x q =>
    cases hx with
    | after _ r => exact ⟨_, _, .recognizers q r, .after x _, regrouped_after_after hi x q r⟩
    | nodes _ z => exact ⟨_, _, .before q z, .nodes x _, regrouped_after_nodes hi x q z⟩
  | nodes x y =>
    cases hx with
    | after _ r => exact ⟨_, _, .after y r, .nodes x _, regrouped_nodes_after hi x y r⟩
    | nodes _ z => exact ⟨_, _, .nodes y z, .nodes x _, regrouped_nodes hi x y z⟩

end

/-- What can be grouped from the right can be grouped from the left. -/
theorem Joins.exists_left (hy : Joins b q r y) (hv : Joins b p y v) : ∃ x u, Joins b p q x ∧ Joins b x r u := by
  cases hy with
  | recognizers q r =>
    cases hv with
    | recognizers p _ => exact ⟨_, _, .recognizers p q, .recognizers _ r⟩
    | after x _ => exact ⟨_, _, .after x q, .after _ r⟩
  | before q z =>
    cases hv with
    | before p _ => exact ⟨_, _, .recognizers p q, .before _ z⟩
    | nodes x _ => exact ⟨_, _, .after x q, .nodes _ z⟩
  | after y r =>
    cases hv with
    | before p _ => exact ⟨_, _, .before p y, .after _ r⟩
    | nodes x _ => exact ⟨_, _, .nodes x y, .after _ r⟩
  | nodes y z =>
    cases hv with
    | before p _ => exact ⟨_, _, .before p y, .nodes _ z⟩
    | nodes x _ => exact ⟨_, _, .nodes x y, .nodes _ z⟩

end Part

/-- **Grouping makes no difference.**  Three parts are grouped from the left or from the right where their roles let the
one be put behind the other.  They compose from the left if and only if they compose from the right, and then both come
to the same wherever they read and whatever they print, up to the cursor and the tree.  Sequences that commit do so as
well, but for one text: where the first part matches and the second one does not match behind it, what was expected is
the second part for the one, and all that is behind the first part for the other. -/
theorem andThen_assoc (ds : Definitions E) (env : E) (lexer : Lexer) (text : String) (depth : Nat) (backtracks : Bool)
    (p q r : Part E) :
    let s : Setting E := ⟨ds, env, .of lexer (.ofString text), depth⟩
    let left := (p.andThen backtracks q).bind fun x => x.andThen backtracks r
    let right := (q.andThen backtracks r).bind fun y => p.andThen backtracks y
    (∀ u, left = some u ↔ ∃ x, Part.Joins backtracks p q x ∧ Part.Joins backtracks x r u) ∧
    (∀ v, right = some v ↔ ∃ y, Part.Joins backtracks q r y ∧ Part.Joins backtracks p y v) ∧
    Option.Rel
      (Part.Related s
        (Step.Regroups s.input backtracks (Part.Breaks s p q) q.describe (q.describe ++ " " ++ r.describe)) Eq)
      left right := by
  intro s left right
  have hi : s.input.WellFormed := Input.wellFormed_of lexer text
  have hleft : ∀ u, left = some u ↔ ∃ x, Part.Joins backtracks p q x ∧ Part.Joins backtracks x r u := fun u => by
    simp only [left, Option.bind_eq_some_iff, Part.andThen_eq_some]
  have hright : ∀ v, right = some v ↔ ∃ y, Part.Joins backtracks q r y ∧ Part.Joins backtracks p y v := fun v => by
    simp only [right, Option.bind_eq_some_iff, Part.andThen_eq_some]
  refine ⟨hleft, hright, ?_⟩
  cases hu : left with
  | some u =>
    obtain ⟨x, hx, hxu⟩ := (hleft u).1 hu
    obtain ⟨y, v, hy, hv, hsame⟩ := hx.exists_right hi hxu
    rw [(hright v).2 ⟨y, hy, hv⟩]
    exact .some hsame
  | none =>
    cases hv : right with
    | some v =>
      obtain ⟨y, hy, hyv⟩ := (hright v).1 hv
      obtain ⟨x, u, hx, hxu⟩ := hy.exists_left hyv
      rw [(hleft u).2 ⟨x, hx, hxu⟩] at hu
      cases hu
    | none => exact .none

/-- A word stands where a closing bracket was expected: the bracket alone, or the bracket and a comma. -/
theorem andThen_assoc_brackets :
    let s : Setting Unit := ⟨Nested.definitions, (), .of Nested.lexer (.ofString "[ a"), 1⟩
    let p : Part Unit := .recognizer (.token (.pattern 0) false "[")
    let q : Part Unit := .recognizer (.token (.pattern 1) false "]")
    let r : Part Unit := .recognizer (.token (.pattern 2) false ",")
    ∃ u v, ((p.andThen false q).bind fun x => x.andThen false r) = some u ∧
      ((q.andThen false r).bind fun y => p.andThen false y) = some v ∧
      Part.Related s (Step.Regroups s.input false (Part.Breaks s p q) "']'" "']' ','") Eq u v ∧
      u.recognize s ⟨0, 0, 20, 0⟩ = (.fail (.unexpectedInput 2 "']'"), ⟨1, 1, 18, 0⟩) ∧
      v.recognize s ⟨0, 0, 20, 0⟩ = (.fail (.unexpectedInput 2 "']' ','"), ⟨1, 1, 18, 0⟩) := by
  intro s p q r
  obtain ⟨hleft, hright, hsame⟩ := andThen_assoc Nested.definitions () Nested.lexer "[ a" 1 false p q r
  have hu := (hleft _).2 ⟨_, .recognizers _ _, .recognizers _ _⟩
  have hv := (hright _).2 ⟨_, .recognizers _ _, .recognizers _ _⟩
  rw [hu, hv] at hsame
  cases hsame with
  | some hsame => exact ⟨_, _, hu, hv, hsame, by decide +kernel, by decide +kernel⟩

end Ambigram
