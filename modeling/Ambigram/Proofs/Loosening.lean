import Ambigram.Grammar.Print
import Ambigram.Proofs.Derivation
import Ambigram.Proofs.Mirror
/-!
# Committing

A sequence that commits turns a failure behind its first half into an error, and that is all there is to it.  Let
some sequences of a grammar go back instead: a run that did not end in such an error is the same run, because the
error would have ended it, wherever it had come up.  Printing does not look at what commits.
-/
namespace Ambigram

variable {E : Type}

/-! ## Letting sequences go back -/

/-- The second recognizer is the first one with some sequences going back that were committing. -/
inductive Recognizer.Loosens : Recognizer → Recognizer → Prop
  | token {id : TokenId} {exclusive : Bool} {text : String} :
    Loosens (.token id exclusive text) (.token id exclusive text)
  | seq {b b' : Bool} {x x' y y' : Recognizer} (hb : b = true → b' = true) (hx : Loosens x x') (hy : Loosens y y') :
    Loosens (.seq b x y) (.seq b' x' y')
  | choice {x x' y y' : Recognizer} (hx : Loosens x x') (hy : Loosens y y') : Loosens (.choice x y) (.choice x' y')
  | rep {x x' : Recognizer} (h : Loosens x x') : Loosens (.rep x) (.rep x')
  | opt {always : Bool} {x x' : Recognizer} (h : Loosens x x') : Loosens (.opt always x) (.opt always x')
  | annotate {k : Category} {x x' : Recognizer} (h : Loosens x x') : Loosens (.annotate k x) (.annotate k x')

inductive Node.Loosens : {a : Option Shape} → {t : Shape} → Node E a t → Node E a t → Prop
  | scan {t : Shape} {id : TokenId} {exclusive : Bool} {label : Option String} {m : Mapping E String t.Carrier} :
    Loosens (.scan id exclusive label m) (.scan id exclusive label m)
  | initial {t : Shape} {v : t.Carrier} : Loosens (.initial v) (.initial v)
  | emptyList : Loosens .emptyList .emptyList
  | ref {t : Shape} {name : String} : Loosens (.ref (t := t) name) (.ref name)
  | fold {s v t : Shape} {p p' : Parser E v} {f : Fold E s.Carrier v.Carrier t.Carrier} (h : Loosens p p') :
    Loosens (.fold p f) (.fold p' f)
  | map {s t : Shape} {m : Mapping E s.Carrier t.Carrier} : Loosens (.map m) (.map m)
  | seq {a : Option Shape} {s t : Shape} {b b' : Bool} {x x' : Node E a s} {y y' : Node E (some s) t}
    (hb : b = true → b' = true) (hx : Loosens x x') (hy : Loosens y y') : Loosens (.seq b x y) (.seq b' x' y')
  | before {a : Option Shape} {t : Shape} {b b' : Bool} {r r' : Recognizer} {x x' : Node E a t}
    (hb : b = true → b' = true) (hr : r.Loosens r') (hx : Loosens x x') : Loosens (.before b r x) (.before b' r' x')
  | after {a : Option Shape} {t : Shape} {b b' : Bool} {r r' : Recognizer} {x x' : Node E a t}
    (hb : b = true → b' = true) (hx : Loosens x x') (hr : r.Loosens r') : Loosens (.after b x r) (.after b' x' r')
  | choice {a : Option Shape} {t : Shape} {x x' y y' : Node E a t} (hx : Loosens x x') (hy : Loosens y y') :
    Loosens (.choice x y) (.choice x' y')
  | rep {s : Shape} {x x' : Reducer E s s} (h : Loosens x x') : Loosens (.rep x) (.rep x')
  | opt {s : Shape} {x x' : Reducer E s s} (h : Loosens x x') : Loosens (.opt x) (.opt x')
  | atLeast {s : Shape} {min : Nat} {x x' : Reducer E s s} (h : Loosens x x') : Loosens (.atLeast min x) (.atLeast min x')
  | join {s : Shape} {nonEmpty : Bool} {q q' : Recognizer} {x x' : Reducer E s s} (hq : q.Loosens q') (h : Loosens x x') :
    Loosens (.join nonEmpty q x) (.join nonEmpty q' x')
  | annotate {a : Option Shape} {t : Shape} {k : Category} {x x' : Node E a t} (h : Loosens x x') :
    Loosens (.annotate k x) (.annotate k x')

/-- Each reference stands for a parser in which some sequences go back that were committing. -/
def Definitions.Loosens (ds ds' : Definitions E) : Prop :=
  ∀ t name, Option.Rel Node.Loosens (ds.target t name) (ds'.target t name)

/-- The error of a sequence that commits. -/
def Error.IsUnexpected : Error → Prop
  | .unexpectedInput _ _ => True
  | _ => False

/-! ## Reading -/

open Step
open Error (IsUnexpected)

variable {i : Input} {env : E}

theorem Recognizer.Loosens.recognize_mirrors {r r' : Recognizer} (h : r.Loosens r') :
    Mirrors IsUnexpected id (r.recognize i) (r'.recognize i) := by
  induction h with
  | token => exact .refl _
  | seq hb _ _ ihx ihy => exact ihx.sequence (fun _ => ihy) (.inr ⟨hb, fun _ => trivial⟩)
  | choice _ _ ihx ihy => exact ihx.orElse ihy
  | rep _ ih => exact Mirrors.repeated (fun _ => ih) ()
  | opt _ ih => exact Mirrors.optional (fun _ => ih) ()
  | annotate _ ih => exact ih

namespace Node

variable {a : Option Shape} {t : Shape} {x x' : Node E a t}

theorem Loosens.recognizeWith_mirrors {onRef onRef' : Shape → String → Step Unit}
    (href : ∀ t name, Mirrors IsUnexpected id (onRef t name) (onRef' t name)) (h : x.Loosens x') :
    Mirrors IsUnexpected id (x.recognizeWith onRef i) (x'.recognizeWith onRef' i) := by
  induction h with
  | scan => exact .refl _
  | initial => exact .refl _
  | emptyList => exact .refl _
  | ref => exact href _ _
  | fold _ ih => exact ih
  | map => exact .refl _
  | seq hb _ _ ihx ihy => exact ihx.sequence (fun _ => ihy) (.inr ⟨hb, fun _ => trivial⟩)
  | before hb hr _ ih => exact hr.recognize_mirrors.sequence (fun _ => ih) (.inr ⟨hb, fun _ => trivial⟩)
  | after hb _ hr ih => exact ih.sequence (fun _ => hr.recognize_mirrors) (.inr ⟨hb, fun _ => trivial⟩)
  | choice _ _ ihx ihy => exact ihx.orElse ihy
  | rep _ ih => exact Mirrors.repeated (fun _ => ih) ()
  | opt _ ih => exact Mirrors.optional (fun _ => ih) ()
  | atLeast _ ih => exact Mirrors.atLeast (fun _ => ih) _ ()
  | join hq _ ih => exact Mirrors.joined _ hq.recognize_mirrors (fun _ => ih) ()
  | annotate _ ih => exact ih

theorem Loosens.parseWith_mirrors {onRef onRef' : (t : Shape) → String → Step t.Carrier}
    (href : ∀ t name, Mirrors IsUnexpected id (onRef t name) (onRef' t name)) (h : x.Loosens x') (left : Start a) :
    Mirrors IsUnexpected id (x.parseWith onRef i env left) (x'.parseWith onRef' i env left) := by
  induction h with
  | scan => exact .refl _
  | initial => exact .refl _
  | emptyList => exact .refl _
  | ref => exact href _ _
  | fold _ ih => exact (ih ()).bind fun _ => .refl _
  | map => exact .refl _
  | seq hb _ _ ihx ihy => exact (ihx left).sequence ihy (.inr ⟨hb, fun _ => trivial⟩)
  | before hb hr _ ih => exact hr.recognize_mirrors.sequence (fun _ => ih left) (.inr ⟨hb, fun _ => trivial⟩)
  | after hb _ hr ih =>
    exact (ih left).sequence (fun v => hr.recognize_mirrors.bind fun _ => .hit id v) (.inr ⟨hb, fun _ => trivial⟩)
  | choice _ _ ihx ihy => exact (ihx left).orElse (ihy left)
  | rep _ ih => exact Mirrors.repeated ih left
  | opt _ ih => exact Mirrors.optional ih left
  | atLeast _ ih => exact Mirrors.atLeast ih _ left
  | join hq _ ih => exact Mirrors.joined _ hq.recognize_mirrors ih left
  | annotate _ ih => exact ih left

end Node

/-! ## References -/

section References

variable {ds ds' : Definitions E} (hds : ds.Loosens ds')
include hds

/-- References agree on having a target, and what they stand for is loosened. -/
theorem Definitions.Loosens.follow_mirrors {α : Type} {t : Shape} {name : String}
    {deeper deeper' : Option (Parser E t → Step α)}
    (h : deeper = none ∧ deeper' = none ∨ ∃ run run', deeper = some run ∧ deeper' = some run' ∧
      ∀ {p p' : Parser E t}, p.Loosens p' → Mirrors IsUnexpected id (run p) (run' p')) :
    Mirrors IsUnexpected id (ds.follow t name deeper) (ds'.follow t name deeper') := by
  have hrel := hds t name
  refine Definitions.follow_mirrors (fun hnone => ?_) fun p hp => ?_
  · rw [hnone] at hrel
    cases htarget : ds'.target t name with
    | none => rfl
    | some p' =>
      rw [htarget] at hrel
      cases hrel
  · rw [hp] at hrel
    cases htarget : ds'.target t name with
    | none =>
      rw [htarget] at hrel
      cases hrel
    | some p' =>
      rw [htarget] at hrel
      cases hrel with
      | some hp' =>
        refine ⟨p', rfl, h.imp id ?_⟩
        rintro ⟨run, run', hrun, hrun', hmirrors⟩
        exact ⟨run, run', hrun, hrun', hmirrors hp'⟩

theorem Node.Loosens.recognizeAt_mirrors : ∀ (n : Nat) {a : Option Shape} {t : Shape} {x x' : Node E a t}, x.Loosens x' →
    Mirrors IsUnexpected id (x.recognizeAt ds i n) (x'.recognizeAt ds' i n)
  | 0, _, _, _, _, h => by
    rw [recognizeAt_eq, recognizeAt_eq]
    exact h.recognizeWith_mirrors fun t name => hds.follow_mirrors (.inl ⟨rfl, rfl⟩)
  | n + 1, _, _, _, _, h => by
    rw [recognizeAt_eq, recognizeAt_eq]
    exact h.recognizeWith_mirrors fun t name =>
      hds.follow_mirrors (.inr ⟨_, _, rfl, rfl, fun hp => recognizeAt_mirrors n hp⟩)

theorem Node.Loosens.parseAt_mirrors : ∀ (n : Nat) {a : Option Shape} {t : Shape} {x x' : Node E a t}, x.Loosens x' →
    ∀ left : Start a, Mirrors IsUnexpected id (x.parseAt ds i env n left) (x'.parseAt ds' i env n left)
  | 0, _, _, _, _, h, left => by
    rw [parseAt_eq, parseAt_eq]
    exact h.parseWith_mirrors (fun t name => hds.follow_mirrors (.inl ⟨rfl, rfl⟩)) left
  | n + 1, _, _, _, _, h, left => by
    rw [parseAt_eq, parseAt_eq]
    exact h.parseWith_mirrors (fun t name =>
      hds.follow_mirrors (.inr ⟨_, _, rfl, rfl, fun hp => parseAt_mirrors n hp ()⟩)) left

end References

/-! ## Printing -/

theorem Recognizer.Loosens.print_eq {r r' : Recognizer} (h : r.Loosens r') : r'.print = r.print := by
  induction h with
  | token => rfl
  | seq _ _ _ ihx ihy => simp only [print, ihx, ihy]
  | choice _ _ ihx _ => exact ihx
  | rep _ _ => rfl
  | opt _ ih => simp only [print, ih]
  | annotate _ ih => simp only [print, ih]

theorem Recognizer.Loosens.describe_eq {r r' : Recognizer} (h : r.Loosens r') : r'.describe = r.describe := by
  induction h with
  | token => rfl
  | seq _ _ _ ihx ihy => simp only [describe, ihx, ihy]
  | choice _ _ ihx ihy => simp only [describe, ihx, ihy]
  | rep _ ih => simp only [describe, ih]
  | opt _ ih => simp only [describe, ih]
  | annotate _ ih => simp only [describe, ih]

namespace Node

variable {a : Option Shape} {t : Shape} {x x' : Node E a t}

theorem Loosens.describe_eq (h : x.Loosens x') : x'.describe = x.describe := by
  induction h with
  | scan => rfl
  | initial => rfl
  | emptyList => rfl
  | ref => rfl
  | fold _ ih => exact ih
  | map => rfl
  | seq _ _ _ ihx ihy => simp only [describe, ihx, ihy]
  | before _ hr _ ih => simp only [describe, hr.describe_eq, ih]
  | after _ _ hr ih => simp only [describe, hr.describe_eq, ih]
  | choice _ _ ihx ihy => simp only [describe, ihx, ihy]
  | rep _ ih => simp only [describe, ih]
  | opt _ ih => simp only [describe, ih]
  | atLeast _ ih => simp only [describe, ih]
  | join hq _ ih => simp only [describe, hq.describe_eq, ih]
  | annotate _ ih => exact ih

theorem Loosens.printWith_eq {onRef : (t : Shape) → String → t.Carrier → Outcome Tree} {turns : Nat} (h : x.Loosens x') :
    x'.printWith onRef env turns = x.printWith onRef env turns := by
  induction h with
  | scan => rfl
  | initial => rfl
  | emptyList => rfl
  | ref => rfl
  | fold _ ih => funext v; simp only [printWith, ih]
  | map => rfl
  | seq _ _ _ ihx ihy => funext v; simp only [printWith, ihx, ihy]
  | before _ hr _ ih => funext v; simp only [printWith, hr.print_eq, ih]
  | after _ _ hr ih => funext v; simp only [printWith, hr.print_eq, ih]
  | choice _ _ ihx ihy => funext v; simp only [printWith, ihx, ihy]
  | rep _ ih => funext v; simp only [printWith, ih]
  | opt _ ih => funext v; simp only [printWith, ih]
  | atLeast _ ih => funext v; simp only [printWith, ih]
  | join hq _ ih => funext v; simp only [printWith, hq.print_eq, ih]
  | annotate _ ih => funext v; simp only [printWith, ih]

end Node

section References

variable {ds ds' : Definitions E} (hds : ds.Loosens ds')
include hds

theorem Definitions.Loosens.printRef_eq {t : Shape} {name : String} {deeper deeper' : Option (Parser E t → Outcome Tree)}
    (h : deeper = none ∧ deeper' = none ∨ ∃ print print', deeper = some print ∧ deeper' = some print' ∧
      ∀ {p p' : Parser E t}, p.Loosens p' → print' p' = print p) :
    ds'.printRef t name deeper' = ds.printRef t name deeper := by
  have hrel := hds t name
  unfold Definitions.printRef
  generalize ds.target t name = p? at hrel
  generalize ds'.target t name = p'? at hrel
  cases hrel with
  | none => rfl
  | some hp =>
    obtain ⟨rfl, rfl⟩ | ⟨print, print', rfl, rfl, hprint⟩ := h
    · rfl
    · exact hprint hp

theorem Node.Loosens.print_eq : ∀ (n : Nat) {a : Option Shape} {t : Shape} {x x' : Node E a t}, x.Loosens x' →
    x'.print ds' env n = x.print ds env n
  | 0, _, _, x, x', h => by
    have hrefs : ds'.printRefWithin env 0 = ds.printRefWithin env 0 := by
      funext t name v
      exact hds.printRef_eq (.inl ⟨rfl, rfl⟩)
    rw [Node.print_eq, Node.print_eq, hrefs, h.printWith_eq]
  | n + 1, _, _, x, x', h => by
    have hrefs : ds'.printRefWithin env (n + 1) = ds.printRefWithin env (n + 1) := by
      funext t name v
      refine hds.printRef_eq (.inr ⟨_, _, rfl, rfl, fun hp => ?_⟩)
      rw [print_eq n hp]
    rw [Node.print_eq, Node.print_eq, hrefs, h.printWith_eq]

end References

/-- **Committing is only a knob.**  Some committing sequences of a grammar are made to go back.  Where a run of the
grammar did not end in the error of a committing sequence, the other one runs just the same, to the same outcome and
the same cursor.  And both print every value in the same way. -/
theorem same_of_loosens {s : Setting E} {ds : Definitions E} (hds : s.definitions.Loosens ds) :
    (∀ {r r' : Recognizer}, r.Loosens r' → r'.print = r.print ∧
      ∀ c, ¬ (r.recognize s.input c).1.FailsBy IsUnexpected → r'.recognize s.input c = r.recognize s.input c) ∧
    ∀ {a : Option Shape} {t : Shape} {x x' : Node E a t}, x.Loosens x' →
      (∀ c, ¬ (x.recognize s c).1.FailsBy IsUnexpected →
        x'.recognize { s with definitions := ds } c = x.recognize s c) ∧
      (∀ left c, ¬ (x.parse s left c).1.FailsBy IsUnexpected →
        x'.parse { s with definitions := ds } left c = x.parse s left c) ∧
      (∀ n v, x'.print ds s.env n v = x.print s.definitions s.env n v) ∧ x'.describe = x.describe := by
  have same : ∀ {α : Type} {r : Outcome α × Cursor}, (r.1.map id, r.2) = r := by
    rintro α ⟨o, d⟩
    cases o <;> rfl
  refine ⟨fun h => ⟨h.print_eq, fun c hc => (h.recognize_mirrors c hc).trans same⟩, fun h => ⟨fun c hc => ?_,
    fun left c hc => ?_, fun n v => congrFun (h.print_eq hds n) v, h.describe_eq⟩⟩
  · exact (h.recognizeAt_mirrors hds (s.depth - c.depth) c hc).trans same
  · exact (h.parseAt_mirrors hds (s.depth - c.depth) left c hc).trans same

namespace Nested

/-- Lists again, but whatever is no list is only a non-match. -/
def patient : Parser Unit .value :=
  .before true (.token (.pattern 0) false "[")
    (.after true (.seq true (.seq true .emptyList items) (.map .wrap)) (.token (.pattern 1) false "]"))

def patientDefinitions : Definitions Unit where
  target
    | .value, name => if name = "nested" then some patient else none
    | .list, _ => none

theorem loosens_patient : nested.Loosens patient :=
  .before (fun _ => rfl) .token
    (.after (fun _ => rfl) (.seq id (.seq id .emptyList (.join .token (.fold (.choice .scan .ref)))) .map) .token)

theorem loosens_patientDefinitions : definitions.Loosens patientDefinitions := by
  intro t name
  cases t with
  | list => exact .none
  | value =>
    show Option.Rel _ (if _ then _ else _) (if _ then _ else _)
    split
    · exact .some loosens_patient
    · exact .none

end Nested

/-- Both read this list, and both write it in the same way. -/
theorem same_of_loosens_nested :
    let s : Setting Unit := ⟨Nested.definitions, (), .of Nested.lexer (.ofString "[a, [a]]"), 1⟩
    let v : Value := .list [.string "a", .list [.string "a"]]
    (Nested.definitions.Loosens Nested.patientDefinitions ∧ Nested.nested.Loosens Nested.patient) ∧
    Nested.nested.parse s () ⟨0, 0, 20, 0⟩ = (.hit v, ⟨8, 8, 10, 0⟩) ∧
    Nested.patient.parse { s with definitions := Nested.patientDefinitions } () ⟨0, 0, 20, 0⟩ = (.hit v, ⟨8, 8, 10, 0⟩) ∧
    Nested.patient.print Nested.patientDefinitions () 5 v = Nested.nested.print Nested.definitions () 5 v := by
  intro s v
  have h : Nested.nested.parse s () ⟨0, 0, 20, 0⟩ = (.hit v, ⟨8, 8, 10, 0⟩) := by decide +kernel
  have hcommits : ¬ (Nested.nested.parse s () ⟨0, 0, 20, 0⟩).1.FailsBy IsUnexpected := by
    rw [h]
    exact Outcome.not_failsBy_hit _
  obtain ⟨-, hparse, hprint, -⟩ :=
    (same_of_loosens (s := s) Nested.loosens_patientDefinitions).2 Nested.loosens_patient
  exact ⟨⟨Nested.loosens_patientDefinitions, Nested.loosens_patient⟩, h, (hparse () _ hcommits).trans h, hprint 5 v⟩

end Ambigram
