import Ambigram.Proofs.Computation
import Ambigram.Proofs.Coverage
/-!
# Compound nodes

What a node does in terms of what its parts do.  A node is run with so many levels of references left, and a part takes
that number over; run from a cursor it counts the levels anew, from the depth that the cursor is at.  The two agree
because no step changes the depth, so a loop of a node is a loop of what the node does at each cursor that it comes to.
-/
namespace Ambigram

variable {E α : Type} {i : Input} {depth : Nat}

open Cursor (Stands)

/-! ## Steps that do the same -/

/-- What the step does. -/
def Step.Does (x : Step α) : Behaviour α := fun c o d => x c = (o, d)

theorem Step.Tame.computes {x y : Step α} (hx : Tame i x) (h : ∀ c, Stands i depth c → x c = y c) :
    Computes i depth True x y.Does where
  tame := hx
  sound hc hdoes := (h _ hc).trans hdoes
  total _ c hc := (h c hc).symm

/-- There is one step at most that does all that is derived. -/
theorem Step.Computes.unique {x y : Step α} {X : Behaviour α} (hx : Computes i depth True x X)
    (hy : Computes i depth True y X) {c : Cursor} (hc : Stands i depth c) : x c = y c :=
  (hy.sound hc (hx.total trivial c hc)).symm

/-- A sequence only asks for what its second step does behind a match of the first one. -/
theorem Step.sequence_congr {β : Type} {b : Bool} {expected : Unit → String} {x x' : Step α} {f f' : α → Step β}
    {c : Cursor} (hx : x c = x' c) (hf : ∀ a d, x c = (.hit a, d) → f a d = f' a d) :
    sequence i b expected x f c = sequence i b expected x' f' c := by
  unfold sequence
  rw [← hx]
  rcases hd : x c with ⟨o, d⟩
  cases o with
  | hit a =>
    dsimp only
    rw [hf a d hd]
  | miss | fail _ => rfl

/-- A choice only asks for what its second step does behind a non-match of the first one. -/
theorem Step.orElse_congr {x x' y y' : Step α} {c : Cursor} (hx : x c = x' c) (hy : ∀ d, x c = (.miss, d) → y d = y' d) :
    (x.orElse y) c = (x'.orElse y') c := by
  unfold orElse
  rw [← hx]
  rcases hd : x c with ⟨o, d⟩
  cases o with
  | miss => exact hy d hd
  | hit _ | fail _ => rfl

/-- A token of a pattern is not empty. -/
theorem Input.WellFormed.accept_lt (hi : i.WellFormed) {k : Nat} {exclusive : Bool} {c d : Cursor} {token : Token}
    (h : Cursor.accept i (.pattern k) exclusive c = (.hit token, d)) : c.offset < d.offset := by
  obtain ⟨-, hstart, hstop, hd⟩ := Cursor.accept_eq_hit h
  have htrivia : c.offset ≤ token.start := hstart ▸ (hi.stretch_skipTrivia c.offset).le
  have hahead : token.start < token.stop := (hi.stretch_stop hstop).2.2 (by simp)
  omega

/-! ## Nodes at a cursor -/

namespace Node

variable {s : Setting E} (hi : s.input.WellFormed) {a : Option Shape} {t u w : Shape}
include hi

theorem recognize_tame (x : Node E a t) : Step.Tame s.input (x.recognize s) :=
  ⟨fun c => (x.recognizeAt_tame hi _).follows c, fun c => (x.recognizeAt_tame hi _).still c⟩

theorem parse_tame (x : Node E a t) (left : Start a) : Step.Tame s.input (x.parse s left) :=
  ⟨fun c => (x.parseAt_tame hi _ left).follows c, fun c => (x.parseAt_tame hi _ left).still c⟩

theorem recognize_computes (x : Node E a t) :
    Step.Computes s.input depth True (x.recognize s) (Step.Does (x.recognize s)) :=
  (x.recognize_tame hi).computes fun _ _ => rfl

theorem parse_computes (x : Node E a t) (left : Start a) :
    Step.Computes s.input depth True (x.parse s left) (Step.Does (x.parse s left)) :=
  (x.parse_tame hi left).computes fun _ _ => rfl

variable (depth) in
/-- With the levels that are left at a depth, the node does what it does at every cursor of that depth. -/
theorem recognizeWith_computes_does (x : Node E a t) : Step.Computes s.input depth True
    (x.recognizeWith (s.definitions.recognizeRef s.input (s.depth - depth)) s.input) (Step.Does (x.recognize s)) := by
  rw [← recognizeAt_eq]
  refine (x.recognizeAt_tame hi _).computes fun c hc => ?_
  rw [recognize, hc.depth]

variable (depth) in
theorem parseWith_computes_does (x : Node E a t) (left : Start a) : Step.Computes s.input depth True
    (x.parseWith (s.definitions.parseRef s.input s.env (s.depth - depth)) s.input s.env left)
    (Step.Does (x.parse s left)) := by
  rw [← parseAt_eq]
  refine (x.parseAt_tame hi _ left).computes fun c hc => ?_
  rw [parse, hc.depth]

variable {c : Cursor}

/-! ## Sequences, choices and folds

The second part begins at the depth where the first one began. -/

theorem recognize_seq (b : Bool) (x : Node E a u) (y : Node E (some u) t) : (seq b x y).recognize s =
    Step.sequence s.input b (fun _ => y.describe) (x.recognize s) fun _ => y.recognize s := by
  funext c
  rw [recognize, recognizeAt_eq]
  refine Step.sequence_congr (by rw [recognize, recognizeAt_eq]) fun _ d hd => ?_
  rw [← recognizeAt_eq] at hd
  rw [recognize, ((x.recognizeAt_tame hi _).follows_of_eq hd).depth, recognizeAt_eq]

theorem parse_seq (b : Bool) (x : Node E a u) (y : Node E (some u) t) (left : Start a) : (seq b x y).parse s left =
    Step.sequence s.input b (fun _ => y.describe) (x.parse s left) (y.parse s) := by
  funext c
  rw [parse, parseAt_eq]
  refine Step.sequence_congr (by rw [parse, parseAt_eq]) fun _ d hd => ?_
  rw [← parseAt_eq] at hd
  rw [parse, ((x.parseAt_tame hi _ left).follows_of_eq hd).depth, parseAt_eq]

theorem recognize_before (b : Bool) (r : Recognizer) (x : Node E a t) : (before b r x).recognize s =
    Step.sequence s.input b (fun _ => x.describe) (r.recognize s.input) fun _ => x.recognize s := by
  funext c
  rw [recognize, recognizeAt_eq]
  refine Step.sequence_congr rfl fun _ d hd => ?_
  rw [recognize, ((r.recognize_tame hi).follows_of_eq hd).depth, recognizeAt_eq]

theorem parse_before (b : Bool) (r : Recognizer) (x : Node E a t) (left : Start a) : (before b r x).parse s left =
    Step.sequence s.input b (fun _ => x.describe) (r.recognize s.input) fun _ => x.parse s left := by
  funext c
  rw [parse, parseAt_eq]
  refine Step.sequence_congr rfl fun _ d hd => ?_
  rw [parse, ((r.recognize_tame hi).follows_of_eq hd).depth, parseAt_eq]

omit hi in
theorem recognize_after (b : Bool) (x : Node E a t) (r : Recognizer) : (after b x r).recognize s =
    Step.sequence s.input b (fun _ => r.describe) (x.recognize s) fun _ => r.recognize s.input := by
  funext c
  rw [recognize, recognizeAt_eq]
  exact Step.sequence_congr (by rw [recognize, recognizeAt_eq]) fun _ _ _ => rfl

omit hi in
theorem parse_after (b : Bool) (x : Node E a t) (r : Recognizer) (left : Start a) : (after b x r).parse s left =
    Step.sequence s.input b (fun _ => r.describe) (x.parse s left) fun v => (r.recognize s.input).map fun _ => v := by
  funext c
  rw [parse, parseAt_eq]
  exact Step.sequence_congr (by rw [parse, parseAt_eq]) fun _ _ _ => rfl

theorem recognize_choice (x y : Node E a t) : (choice x y).recognize s = (x.recognize s).orElse (y.recognize s) := by
  funext c
  rw [recognize, recognizeAt_eq]
  refine Step.orElse_congr (by rw [recognize, recognizeAt_eq]) fun d hd => ?_
  rw [← recognizeAt_eq] at hd
  rw [recognize, ((x.recognizeAt_tame hi _).follows_of_eq hd).depth, recognizeAt_eq]

theorem parse_choice (x y : Node E a t) (left : Start a) :
    (choice x y).parse s left = (x.parse s left).orElse (y.parse s left) := by
  funext c
  rw [parse, parseAt_eq]
  refine Step.orElse_congr (by rw [parse, parseAt_eq]) fun d hd => ?_
  rw [← parseAt_eq] at hd
  rw [parse, ((x.parseAt_tame hi _ left).follows_of_eq hd).depth, parseAt_eq]

omit hi in
theorem parse_fold (p : Parser E u) (f : Fold E w.Carrier u.Carrier t.Carrier) (left : w.Carrier) :
    (fold p f).parse s left = (p.parse s ()).bind fun right => Step.still (.ofExcept (f.apply s.env left right)) := by
  funext c
  simp only [Step.bind, parse, parseAt_eq]
  rfl

/-! ## Repetitions -/

section

variable (hc : c.offset ≤ s.input.source.size)
include hc

theorem parse_rep (x : Reducer E t t) (left : t.Carrier) :
    (rep x).parse s left c = Step.repeated (x.parse s) left c := by
  rw [parse, parseAt_eq]
  exact (Step.Computes.repeated (parseWith_computes_does _ hi x) left).unique
    (.repeated (parse_computes hi x) left) ⟨hc, rfl⟩

theorem parse_atLeast (n : Nat) (x : Reducer E t t) (left : t.Carrier) :
    (atLeast n x).parse s left c = Step.atLeast n (x.parse s) left c := by
  rw [parse, parseAt_eq]
  exact (Step.Computes.atLeast (parseWith_computes_does _ hi x) n left).unique
    (.atLeast (parse_computes hi x) n left) ⟨hc, rfl⟩

theorem recognize_join (nonEmpty : Bool) (q : Recognizer) (x : Reducer E t t) :
    (join nonEmpty q x).recognize s c = Step.joined nonEmpty (q.recognize s.input) (fun _ => x.recognize s) () c := by
  rw [recognize, recognizeAt_eq]
  exact (Step.Computes.joined (fun _ => recognizeWith_computes_does _ hi x) (q.recognize_computes hi)
    (q.recognize_spends hi) nonEmpty ()).unique
    (.joined (fun _ => recognize_computes hi x) (q.recognize_computes hi) (q.recognize_spends hi) nonEmpty ()) ⟨hc, rfl⟩

end

/-! ## Tokens move -/

theorem parse_scan_lt {k : Nat} {exclusive : Bool} {label : Option String} {m : Mapping E String t.Carrier}
    {v : t.Carrier} {d : Cursor}
    (h : (scan (.pattern k) exclusive label m).parse s () c = (.hit v, d)) : c.offset < d.offset := by
  rw [parse, parseAt_eq] at h
  obtain ⟨token, e, htoken, hmapping⟩ := Step.bind_eq_hit.1 h
  cases congrArg Prod.snd hmapping
  exact hi.accept_lt htoken

theorem parse_fold_scan_lt {k : Nat} {exclusive : Bool} {label : Option String} {m : Mapping E String u.Carrier}
    {f : Fold E w.Carrier u.Carrier t.Carrier} {left : w.Carrier} {v : t.Carrier} {d : Cursor}
    (h : (fold (.scan (.pattern k) exclusive label m) f).parse s left c = (.hit v, d)) : c.offset < d.offset := by
  rw [parse_fold] at h
  obtain ⟨right, e, hscan, hfold⟩ := Step.bind_eq_hit.1 h
  cases congrArg Prod.snd hfold
  exact parse_scan_lt hi hscan

theorem recognize_fold_scan_lt {k : Nat} {exclusive : Bool} {label : Option String} {m : Mapping E String u.Carrier}
    {f : Fold E w.Carrier u.Carrier t.Carrier} {d : Cursor}
    (h : (fold (.scan (.pattern k) exclusive label m) f).recognize s c = (.hit (), d)) : c.offset < d.offset := by
  rw [recognize, recognizeAt_eq] at h
  obtain ⟨token, htoken, -⟩ := Step.map_eq_hit.1 h
  exact hi.accept_lt htoken

end Node
end Ambigram
