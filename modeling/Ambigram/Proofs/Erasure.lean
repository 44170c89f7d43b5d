import Ambigram.Grammar.Sketch
import Ambigram.Proofs.Derivation
import Ambigram.Proofs.Mirror
/-!
# Recognizing is parsing without the values

Recognizing runs no fold and no mapping, and it is written down apart from parsing.  It still goes the same way:
it takes the same branches, goes round its loops equally often and spends the same fuel.  Only an error that a fold
or a mapping raised has nothing to answer to it.
-/
namespace Ambigram

variable {E α β γ : Type} {P : Error → Prop}

/-! ## Errors of folds and mappings

The folds and mappings at hand refuse values, and nothing else about them can go wrong. -/

/-- A value of the wrong kind, or outside what a fold or a mapping is for. -/
def Error.IsValue : Error → Prop
  | .invalidValue _ | .unknownField _ _ | .kindMismatch _ _ _ _ => True
  | _ => False

/-- Every error the computation ends in is of the kind. -/
def ErrorsIn (P : Error → Prop) (r : Except Error α) : Prop := ∀ e, r = .error e → P e

namespace ErrorsIn

theorem ok (a : α) : ErrorsIn P (.ok a) := fun _ h => by cases h

theorem error {e : Error} (h : P e) : ErrorsIn P (.error e : Except Error α) := fun _ he => by
  cases he
  exact h

theorem bind {r : Except Error α} {f : α → Except Error β} (hr : ErrorsIn P r) (hf : ∀ a, ErrorsIn P (f a)) :
    ErrorsIn P (r >>= f) := by
  cases r with
  | ok a => exact hf a
  | error e => exact error (hr e rfl)

end ErrorsIn

open Error (IsValue)

theorem Record.errorsIn_put (r : Record) (field : String) (v : Value) : ErrorsIn IsValue (r.put field v) := by
  refine .bind ?_ fun d => ?_
  · unfold declared
    split
    · exact .ok _
    · exact .error trivial
  · dsimp only
    split
    · exact .ok _
    · exact .error trivial

theorem Value.errorsIn_put (v : Value) (field : String) (x : Value) : ErrorsIn IsValue (v.put field x) := by
  refine .bind ?_ fun (r : Record) => .bind (r.errorsIn_put field x) fun _ => .ok _
  unfold asRecord
  split
  · exact .ok _
  · exact .error trivial

theorem Fold.errorsIn_positional (scale : Int64) (l r : Value) : ErrorsIn IsValue (positional.apply scale l r) := by
  unfold positional
  dsimp only
  split
  · split
    · exact .ok _
    · exact .error trivial
  · exact .error trivial

theorem FoldSketch.errorsIn_apply (f : FoldSketch) (scale : Int64) (l : f.build.left.Carrier)
    (r : f.build.right.Carrier) : ErrorsIn IsValue (f.build.fold.apply scale l r) := by
  cases f with
  | field name => exact Value.errorsIn_put l name r
  | positional => exact Fold.errorsIn_positional scale l r
  | _ => exact .ok _

theorem Mapping.errorsIn_counter (min scale : Int64) (v : Value) : ErrorsIn IsValue ((counter min).apply scale v) := by
  unfold counter
  dsimp only
  split
  · unfold increment Except.map
    dsimp only
    split
    · rename_i h; split at h
      · cases h
      · cases h; exact .error trivial
    · exact .ok _
  · exact .error trivial

theorem MappingSketch.errorsIn_apply (m : MappingSketch) {b : AnyMapping} (hb : m.build = .ok b) (scale : Int64)
    (v : b.source.Carrier) : ErrorsIn IsValue (b.mapping.apply scale v) := by
  cases m with
  | permute order =>
    simp only [build] at hb
    cases hp : Mapping.Permutation.ofList order with
    | error e => rw [hp] at hb; cases hb
    | ok p =>
      rw [hp] at hb
      cases hb
      show ErrorsIn _ (if _ then _ else _)
      split
      · exact .ok _
      · exact .error trivial
  | counter min => cases hb; exact Mapping.errorsIn_counter min scale v
  | even =>
    cases hb
    show ErrorsIn _ (if _ then _ else _)
    split
    · exact .ok _
    · exact .error trivial
  | unwrap =>
    cases hb
    cases v with
    | list items => exact .ok _
    | _ => exact .error trivial
  | _ => cases hb; exact .ok _

theorem TextMapping.errorsIn_readInt (t : String) : ErrorsIn IsValue (readInt t) := by
  unfold readInt
  split
  · exact .ok _
  · exact .error trivial

theorem TextSketch.errorsIn_apply (m : TextSketch) (scale : Int64) (t : String) :
    ErrorsIn IsValue (m.build.apply scale t) := by
  cases m with
  | string => exact .ok _
  | unsigned => exact .bind (TextMapping.errorsIn_readInt t) fun _ => .ok _
  | signed => exact .bind (TextMapping.errorsIn_readInt t) fun _ => .ok _
  | scaled =>
    refine .bind (TextMapping.errorsIn_readInt t) fun n => ?_
    split
    · exact .ok _
    · exact .error trivial
  | bool => exact .ok _
  | quoted =>
    unfold build TextMapping.quoted
    dsimp only
    split
    · exact .ok _
    · exact .error trivial

/-! ## Where a grammar can raise an error -/

/-- Some fold or mapping that the node comes to, by its references as well, raises the error for some values. -/
inductive Node.Raises (ds : Definitions E) (env : E) (e : Error) : {a : Option Shape} → {t : Shape} → Node E a t → Prop
  | scan {t : Shape} {id : TokenId} {exclusive : Bool} {label : Option String} {m : Mapping E String t.Carrier}
    {text : String} (h : m.apply env text = .error e) : Raises ds env e (.scan id exclusive label m)
  | ref {t : Shape} {name : String} {p : Parser E t} (target : ds.target t name = some p) (h : Raises ds env e p) :
    Raises ds env e (.ref name)
  | fold {s v t : Shape} {p : Parser E v} {f : Fold E s.Carrier v.Carrier t.Carrier} {left : s.Carrier}
    {right : v.Carrier} (h : f.apply env left right = .error e) : Raises ds env e (.fold p f)
  | folded {s v t : Shape} {p : Parser E v} {f : Fold E s.Carrier v.Carrier t.Carrier} (h : Raises ds env e p) :
    Raises ds env e (.fold p f)
  | map {s t : Shape} {m : Mapping E s.Carrier t.Carrier} {left : s.Carrier} (h : m.apply env left = .error e) :
    Raises ds env e (.map m)
  | seqFirst {a : Option Shape} {s t : Shape} {b : Bool} {x : Node E a s} {y : Node E (some s) t}
    (h : Raises ds env e x) : Raises ds env e (.seq b x y)
  | seqSecond {a : Option Shape} {s t : Shape} {b : Bool} {x : Node E a s} {y : Node E (some s) t}
    (h : Raises ds env e y) : Raises ds env e (.seq b x y)
  | before {a : Option Shape} {t : Shape} {b : Bool} {r : Recognizer} {x : Node E a t} (h : Raises ds env e x) :
    Raises ds env e (.before b r x)
  | after {a : Option Shape} {t : Shape} {b : Bool} {r : Recognizer} {x : Node E a t} (h : Raises ds env e x) :
    Raises ds env e (.after b x r)
  | choiceFirst {a : Option Shape} {t : Shape} {x y : Node E a t} (h : Raises ds env e x) :
    Raises ds env e (.choice x y)
  | choiceSecond {a : Option Shape} {t : Shape} {x y : Node E a t} (h : Raises ds env e y) :
    Raises ds env e (.choice x y)
  | rep {s : Shape} {x : Reducer E s s} (h : Raises ds env e x) : Raises ds env e (.rep x)
  | opt {s : Shape} {x : Reducer E s s} (h : Raises ds env e x) : Raises ds env e (.opt x)
  | atLeast {s : Shape} {min : Nat} {x : Reducer E s s} (h : Raises ds env e x) : Raises ds env e (.atLeast min x)
  | join {s : Shape} {nonEmpty : Bool} {q : Recognizer} {x : Reducer E s s} (h : Raises ds env e x) :
    Raises ds env e (.join nonEmpty q x)
  | annotate {a : Option Shape} {t : Shape} {k : Category} {x : Node E a t} (h : Raises ds env e x) :
    Raises ds env e (.annotate k x)

/-! ## Steps without their values -/

/-- The second step is the first one without its values, but for errors of the kind `P`. -/
abbrev Step.Erases (P : Error → Prop) (x : Step α) (q : Step Unit) : Prop := Mirrors P (fun _ => ()) x q

namespace Step
namespace Erases

variable {x : Step α} {q : Step Unit}

/-- What is computed from the values of a step is nothing to the step without them. -/
theorem bind {f : α → Step β} (hx : Erases P x q) (hf : ∀ a, Erases P (f a) (Step.hit ())) : Erases P (x.bind f) q := by
  rw [← bind_hit q]
  exact Mirrors.bind hx hf

theorem map (q : Step Unit) (a : α) : Erases P (q.map fun _ => a) q := by
  suffices h : Erases P (q.map fun _ => a) (q.bind Step.hit) by rwa [bind_hit] at h
  exact (Mirrors.refl q).bind fun _ => Mirrors.hit (fun _ => ()) a

/-- Nothing is left to show where what is computed is an error that is let off. -/
theorem still {r : Except Error α} (h : ErrorsIn P r) : Erases P (Step.still (.ofExcept r)) (Step.hit ()) := by
  intro c hc
  cases r with
  | ok a => rfl
  | error e => exact absurd (Outcome.failsBy_fail.2 (h e rfl)) hc

end Erases
end Step

/-! ## Nodes -/

open Step

namespace Node

variable {ds : Definitions E} {i : Input} {env : E} {a : Option Shape} {t : Shape}

theorem parseWith_erases {onRef : (t : Shape) → String → Step t.Carrier} {onRef' : Shape → String → Step Unit}
    (href : ∀ t name, (∀ e, (Node.ref name : Parser E t).Raises ds env e → P e) →
      Erases P (onRef t name) (onRef' t name)) (x : Node E a t) (left : Start a)
    (hx : ∀ e, x.Raises ds env e → P e) : Erases P (x.parseWith onRef i env left) (x.recognizeWith onRef' i) := by
  induction x with
  | scan id exclusive label m =>
    exact (Mirrors.refl _).bind fun _ => Erases.still fun e he => hx e (.scan he)
  | initial value => exact Mirrors.hit _ value
  | emptyList => exact Mirrors.hit _ []
  | ref name => exact href _ name hx
  | fold p f ih =>
    exact (ih () fun e he => hx e (.folded he)).bind fun _ => Erases.still fun e he => hx e (.fold he)
  | map m => exact Erases.still fun e he => hx e (.map he)
  | seq b x y ihx ihy =>
    exact (ihx left fun e he => hx e (.seqFirst he)).sequence (fun mid => ihy mid fun e he => hx e (.seqSecond he))
      (.inl ⟨rfl, rfl⟩)
  | before b r x ih =>
    exact (Mirrors.refl _).sequence (fun _ => ih left fun e he => hx e (.before he)) (.inl ⟨rfl, rfl⟩)
  | after b x r ih =>
    exact (ih left fun e he => hx e (.after he)).sequence (fun v => Erases.map _ v) (.inl ⟨rfl, rfl⟩)
  | choice x y ihx ihy =>
    exact (ihx left fun e he => hx e (.choiceFirst he)).orElse (ihy left fun e he => hx e (.choiceSecond he))
  | rep x ih => exact Mirrors.repeated (fun l => ih l fun e he => hx e (.rep he)) left
  | opt x ih => exact Mirrors.optional (fun l => ih l fun e he => hx e (.opt he)) left
  | atLeast n x ih => exact Mirrors.atLeast (fun l => ih l fun e he => hx e (.atLeast he)) n left
  | join nonEmpty q x ih =>
    exact Mirrors.joined nonEmpty (Mirrors.refl _) (fun l => ih l fun e he => hx e (.join he)) left
  | annotate k x ih => exact ih left fun e he => hx e (.annotate he)

theorem parseAt_erases : ∀ (n : Nat) {a : Option Shape} {t : Shape} (x : Node E a t) (left : Start a),
    (∀ e, x.Raises ds env e → P e) → Erases P (x.parseAt ds i env n left) (x.recognizeAt ds i n)
  | 0, _, _, x, left, hx => by
    rw [parseAt_eq, recognizeAt_eq]
    exact x.parseWith_erases
      (fun t name _ => Definitions.follow_mirrors id fun p hp => ⟨p, hp, .inl ⟨rfl, rfl⟩⟩) left hx
  | n + 1, _, _, x, left, hx => by
    rw [parseAt_eq, recognizeAt_eq]
    refine x.parseWith_erases (fun t name href => Definitions.follow_mirrors id fun p hp => ?_) left hx
    exact ⟨p, hp, .inr ⟨_, _, rfl, rfl, parseAt_erases n p () fun e he => href e (.ref hp he)⟩⟩

end Node

/-! ## Errors that are none of a fold's or a mapping's

Other errors come out of a run if folds and mappings raise other errors, but only where the error was one of theirs. -/

/-- The same mapping with other errors. -/
def Mapping.mapError (g : Error → Error) (m : Mapping E α β) : Mapping E α β :=
  { m with apply := fun env a => (m.apply env a).mapError g }

def Fold.mapError (g : Error → Error) (f : Fold E α β γ) : Fold E α β γ :=
  { f with apply := fun env l r => (f.apply env l r).mapError g }

/-- The same node with other errors in its folds and mappings. -/
def Node.mapErrors (g : Error → Error) {a : Option Shape} {t : Shape} : Node E a t → Node E a t
  | .scan id exclusive label m => .scan id exclusive label (m.mapError g)
  | .initial v => .initial v
  | .emptyList => .emptyList
  | .ref name => .ref name
  | .fold p f => .fold (p.mapErrors g) (f.mapError g)
  | .map m => .map (m.mapError g)
  | .seq b x y => .seq b (x.mapErrors g) (y.mapErrors g)
  | .before b r x => .before b r (x.mapErrors g)
  | .after b x r => .after b (x.mapErrors g) r
  | .choice x y => .choice (x.mapErrors g) (y.mapErrors g)
  | .rep x => .rep (x.mapErrors g)
  | .opt x => .opt (x.mapErrors g)
  | .atLeast n x => .atLeast n (x.mapErrors g)
  | .join ne q x => .join ne q (x.mapErrors g)
  | .annotate k x => .annotate k (x.mapErrors g)

def Definitions.mapErrors (g : Error → Error) (ds : Definitions E) : Definitions E :=
  ⟨fun t name => (ds.target t name).map (Node.mapErrors g)⟩

/-- The setting with other errors in all folds and mappings of its references. -/
def Setting.mapErrors (g : Error → Error) (s : Setting E) : Setting E :=
  { s with definitions := s.definitions.mapErrors g }

section MapErrors

variable {g : Error → Error} {ds : Definitions E} {i : Input} {env : E} {a : Option Shape} {t : Shape}

theorem exists_of_mapError_eq_error {r : Except Error α} {e : Error} (h : r.mapError g = .error e) : ∃ e', g e' = e := by
  cases r with
  | ok a => cases h
  | error e' =>
    cases h
    exact ⟨e', rfl⟩

theorem Node.Raises.exists_of_mapErrors {e : Error} {y : Node E a t} (h : y.Raises (ds.mapErrors g) env e) :
    ∀ x : Node E a t, y = x.mapErrors g → ∃ e', g e' = e := by
  induction h with
  | scan h | fold h | map h =>
    intro x hx
    cases x <;> cases hx
    exact exists_of_mapError_eq_error h
  | ref target _ ih =>
    intro x _
    obtain ⟨p, -, rfl⟩ := Option.map_eq_some_iff.1 target
    exact ih p rfl
  | folded _ ih | seqFirst _ ih | seqSecond _ ih | before _ ih | after _ ih | choiceFirst _ ih | choiceSecond _ ih
  | rep _ ih | opt _ ih | atLeast _ ih | join _ ih | annotate _ ih =>
    intro x hx
    cases x <;> cases hx
    exact ih _ rfl

theorem Node.describe_mapErrors (x : Node E a t) : (x.mapErrors g).describe = x.describe := by
  induction x with
  | scan => rfl
  | initial => rfl
  | emptyList => rfl
  | ref => rfl
  | fold _ _ ih => exact ih
  | map => rfl
  | seq _ _ _ ihx ihy => simp only [mapErrors, describe, ihx, ihy]
  | before _ _ _ ih => simp only [mapErrors, describe, ih]
  | after _ _ _ ih => simp only [mapErrors, describe, ih]
  | choice _ _ ihx ihy => simp only [mapErrors, describe, ihx, ihy]
  | rep _ ih => simp only [mapErrors, describe, ih]
  | opt _ ih => simp only [mapErrors, describe, ih]
  | atLeast _ _ ih => simp only [mapErrors, describe, ih]
  | join _ _ _ ih => simp only [mapErrors, describe, ih]
  | annotate _ _ ih => exact ih

theorem Node.recognizeWith_mapErrors (onRef : Shape → String → Step Unit) (x : Node E a t) :
    (x.mapErrors g).recognizeWith onRef i = x.recognizeWith onRef i := by
  induction x with
  | scan => rfl
  | initial => rfl
  | emptyList => rfl
  | ref => rfl
  | fold _ _ ih => exact ih
  | map => rfl
  | seq _ _ _ ihx ihy => simp only [mapErrors, recognizeWith, describe_mapErrors, ihx, ihy]
  | before _ _ _ ih => simp only [mapErrors, recognizeWith, describe_mapErrors, ih]
  | after _ _ _ ih => simp only [mapErrors, recognizeWith, ih]
  | choice _ _ ihx ihy => simp only [mapErrors, recognizeWith, ihx, ihy]
  | rep _ ih => simp only [mapErrors, recognizeWith, ih]
  | opt _ ih => simp only [mapErrors, recognizeWith, ih]
  | atLeast _ _ ih => simp only [mapErrors, recognizeWith, ih]
  | join _ _ _ ih => simp only [mapErrors, recognizeWith, ih]
  | annotate _ _ ih => exact ih

theorem Definitions.follow_mapErrors {name : String} (deeper : Option (Parser E t → Step α)) :
    (ds.mapErrors g).follow t name deeper = ds.follow t name (deeper.map fun run p => run (p.mapErrors g)) := by
  unfold follow mapErrors
  dsimp only
  cases ds.target t name <;> cases deeper <;> rfl

/-- Recognizing has nothing to do with what folds and mappings raise. -/
theorem Node.recognizeAt_mapErrors : ∀ (n : Nat) {a : Option Shape} {t : Shape} (x : Node E a t),
    (x.mapErrors g).recognizeAt (ds.mapErrors g) i n = x.recognizeAt ds i n
  | 0, _, _, x => by
    have hrefs : (ds.mapErrors g).recognizeRef i 0 = ds.recognizeRef i 0 := by
      funext t name
      exact Definitions.follow_mapErrors _
    rw [recognizeAt_eq, recognizeAt_eq, recognizeWith_mapErrors, hrefs]
  | n + 1, _, _, x => by
    have hrefs : (ds.mapErrors g).recognizeRef i (n + 1) = ds.recognizeRef i (n + 1) := by
      funext t name
      refine (Definitions.follow_mapErrors _).trans ?_
      simp only [Option.map_some, recognizeAt_mapErrors n]
      rfl
    rw [recognizeAt_eq, recognizeAt_eq, recognizeWith_mapErrors, hrefs]

end MapErrors

/-- **Recognizing is parsing without the values.**  From the same cursor it matches where parsing matches, does not
match where parsing does not, and ends in the error that parsing ends in, unless a fold or a mapping raised that one:
parsing would have ended in another error if they raised another.  And it leaves the same cursor behind.  The folds and
mappings at hand raise errors about values only. -/
theorem recognize_of_parse (s : Setting E) {a : Option Shape} {t : Shape} (x : Node E a t) (left : Start a) (c : Cursor) :
    (∀ v d, x.parse s left c = (.hit v, d) → x.recognize s c = (.hit (), d)) ∧
    (∀ d, x.parse s left c = (.miss, d) → x.recognize s c = (.miss, d)) ∧
    (∀ e d, x.parse s left c = (.fail e, d) →
      ¬ x.Raises s.definitions s.env e ∨
        (∀ g, (x.mapErrors g).parse (s.mapErrors g) left c = (.fail e, d)) →
      x.recognize s c = (.fail e, d)) ∧
    (∀ (f : FoldSketch) (scale : Int64) (l : f.build.left.Carrier) (r : f.build.right.Carrier),
      ErrorsIn IsValue (f.build.fold.apply scale l r)) ∧
    (∀ (m : MappingSketch) (b : AnyMapping), m.build = .ok b → ∀ (scale : Int64) (v : b.source.Carrier),
      ErrorsIn IsValue (b.mapping.apply scale v)) ∧
    ∀ (m : TextSketch) (scale : Int64) (text : String), ErrorsIn IsValue (m.build.apply scale text) := by
  have erases : ∀ (s : Setting E) (x : Node E a t),
      Erases (x.Raises s.definitions s.env) (x.parse s left) (x.recognize s) :=
    fun s x c => x.parseAt_erases (s.depth - c.depth) left (fun _ he => he) c
  refine ⟨fun v d hp => (erases s x).of_hit hp, fun d hp => (erases s x).of_miss hp, fun e d hp he => ?_,
    FoldSketch.errorsIn_apply, fun m b hb => m.errorsIn_apply hb, TextSketch.errorsIn_apply⟩
  rcases he with he | hall
  · exact (erases s x).of_fail (γ := Unit) hp (by rwa [Outcome.failsBy_fail])
  · -- with one and the same other error everywhere, this one is raised nowhere
    obtain ⟨e', hne⟩ : ∃ e' : Error, e' ≠ e := by
      by_cases h : e = .fuelExhausted
      · exact ⟨.recursionLimit, by rw [h]; intro h; cases h⟩
      · exact ⟨.fuelExhausted, Ne.symm h⟩
    have hraises : ¬ (x.mapErrors fun _ => e').Raises (s.mapErrors fun _ => e').definitions s.env e := fun h =>
      hne (h.exists_of_mapErrors x rfl).choose_spec
    have h := (erases (s.mapErrors fun _ => e') (x.mapErrors fun _ => e')).of_fail (γ := Unit) (hall fun _ => e')
      (by rwa [Outcome.failsBy_fail])
    unfold Node.recognize Setting.mapErrors at h
    rwa [Node.recognizeAt_mapErrors] at h

/-- A list is recognized as it is parsed, a bracket is not a word either way, and without fuel both end in the same
error, which is none of a mapping. -/
theorem recognize_of_parse_nested :
    let s : Setting Unit := ⟨Nested.definitions, (), .of Nested.lexer (.ofString "[a, [a]]"), 1⟩
    (Nested.nested.parse s () ⟨0, 0, 20, 0⟩ = (.hit (.list [.string "a", .list [.string "a"]]), ⟨8, 8, 10, 0⟩) ∧
      Nested.nested.recognize s ⟨0, 0, 20, 0⟩ = (.hit (), ⟨8, 8, 10, 0⟩)) ∧
    (Nested.word.parse s () ⟨0, 0, 20, 0⟩ = (.miss, ⟨0, 0, 19, 0⟩) ∧
      Nested.word.recognize s ⟨0, 0, 20, 0⟩ = (.miss, ⟨0, 0, 19, 0⟩)) ∧
    (Nested.word.parse s () ⟨0, 0, 0, 0⟩ = (.fail .fuelExhausted, ⟨0, 0, 0, 0⟩) ∧
      ¬ Nested.word.Raises Nested.definitions () .fuelExhausted ∧
      Nested.word.recognize s ⟨0, 0, 0, 0⟩ = (.fail .fuelExhausted, ⟨0, 0, 0, 0⟩)) := by
  intro s
  have hlist : Nested.nested.parse s () ⟨0, 0, 20, 0⟩ =
      (.hit (.list [.string "a", .list [.string "a"]]), ⟨8, 8, 10, 0⟩) := by decide +kernel
  have hword : Nested.word.parse s () ⟨0, 0, 20, 0⟩ = (.miss, ⟨0, 0, 19, 0⟩) := by decide +kernel
  have hspent : Nested.word.parse s () ⟨0, 0, 0, 0⟩ = (.fail .fuelExhausted, ⟨0, 0, 0, 0⟩) := rfl
  have hraises : ¬ Nested.word.Raises Nested.definitions () .fuelExhausted := by
    rintro (h | _)
    cases h
  exact ⟨⟨hlist, (recognize_of_parse s Nested.nested () _).1 _ _ hlist⟩,
    ⟨hword, (recognize_of_parse s Nested.word () _).2.1 _ hword⟩,
    ⟨hspent, hraises, (recognize_of_parse s Nested.word () _).2.2.1 _ _ hspent (.inl hraises)⟩⟩

end Ambigram
