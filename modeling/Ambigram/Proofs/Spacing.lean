import Ambigram.Proofs.Abreast
import Ambigram.Proofs.Derivation
import Ambigram.Proofs.Erasure
/-!
# Spacing

A grammar that takes its tokens from longest matches, and never asks for the end of the input, sees nothing of a source
but its lexemes.  Two sources that differ in their trivia alone are the same to it.
-/
namespace Ambigram

open Outcome (Alike)
open Step (Abreast)

variable {α E : Type}

/-! ## The tokens of a grammar -/

def Recognizer.leaves : Recognizer → List (TokenId × Bool)
  | .token id exclusive _ => [(id, exclusive)]
  | .seq _ x y | .choice x y => x.leaves ++ y.leaves
  | .rep x | .opt _ x | .annotate _ x => x.leaves

def Node.leaves {a : Option Shape} {t : Shape} : Node E a t → List (TokenId × Bool)
  | .scan id exclusive _ _ => [(id, exclusive)]
  | .initial _ | .emptyList | .ref _ | .map _ => []
  | .fold p _ => p.leaves
  | .seq _ x y => x.leaves ++ y.leaves
  | .before _ r x | .after _ x r | .join _ r x => r.leaves ++ x.leaves
  | .choice x y => x.leaves ++ y.leaves
  | .rep x | .opt x | .atLeast _ x | .annotate _ x => x.leaves

def Node.references {a : Option Shape} {t : Shape} : Node E a t → List (Shape × String)
  | .ref name => [(t, name)]
  | .scan _ _ _ _ | .initial _ | .emptyList | .map _ => []
  | .fold p _ => p.references
  | .seq _ x y => x.references ++ y.references
  | .choice x y => x.references ++ y.references
  | .before _ _ x | .after _ x _ | .join _ _ x | .rep x | .opt x | .atLeast _ x | .annotate _ x => x.references

/-- The token is that of a leaf which the node comes to, by its references as well. -/
inductive Node.Reads (ds : Definitions E) (id : TokenId) (exclusive : Bool) :
    {a : Option Shape} → {t : Shape} → Node E a t → Prop
  | leaf {a : Option Shape} {t : Shape} {x : Node E a t} (h : (id, exclusive) ∈ x.leaves) : Reads ds id exclusive x
  | ref {a : Option Shape} {t u : Shape} {x : Node E a t} {name : String} {p : Parser E u} (h : (u, name) ∈ x.references)
    (target : ds.target u name = some p) (reads : Reads ds id exclusive p) : Reads ds id exclusive x

theorem Node.Reads.mem_leaves {ds : Definitions E} {id : TokenId} {exclusive : Bool} {a : Option Shape} {t : Shape}
    {x : Node E a t} (h : x.Reads ds id exclusive) :
    (id, exclusive) ∈ x.leaves ∨ ∃ u name p, ds.target u name = some p ∧ (id, exclusive) ∈ p.leaves := by
  induction h with
  | leaf h => exact .inl h
  | ref _ target _ ih =>
    obtain h | h := ih
    · exact .inr ⟨_, _, _, target, h⟩
    · exact .inr h

/-- The token is taken from longest matches, and is not the end of the input. -/
def TokenId.Plain (id : TokenId) (exclusive : Bool) : Prop := exclusive = false ∧ id ≠ .endOfInput

/-- All tokens of the node are plain, and all errors of its folds and mappings of the kind `R`. -/
structure Node.Suits (ds : Definitions E) (env : E) (R : Error → Prop) {a : Option Shape} {t : Shape} (x : Node E a t) :
    Prop where
  reads : ∀ id exclusive, x.Reads ds id exclusive → id.Plain exclusive
  raises : ∀ e, x.Raises ds env e → R e

section Suits

variable {ds : Definitions E} {env : E} {R : Error → Prop} {a b : Option Shape} {t u : Shape}

theorem Node.Suits.leaf {x : Node E a t} (h : x.Suits ds env R) {id : TokenId} {exclusive : Bool}
    (hleaf : (id, exclusive) ∈ x.leaves) : id.Plain exclusive := h.reads id exclusive (.leaf hleaf)

theorem Node.Suits.sub {x : Node E a t} {y : Node E b u} (h : y.Suits ds env R) (hleaves : x.leaves ⊆ y.leaves)
    (hrefs : x.references ⊆ y.references) (hraises : ∀ {e}, x.Raises ds env e → y.Raises ds env e) :
    x.Suits ds env R where
  reads id exclusive hx := h.reads id exclusive (by
    cases hx with
    | leaf hleaf => exact .leaf (hleaves hleaf)
    | ref href target hp => exact .ref (hrefs href) target hp)
  raises e hx := h.raises e (hraises hx)

/-- A parser that a suitable reference stands for. -/
theorem Node.Suits.target {name : String} {p : Parser E t} (h : (Node.ref name : Parser E t).Suits ds env R)
    (target : ds.target t name = some p) : p.Suits ds env R where
  reads id exclusive hp := h.reads id exclusive (.ref (List.mem_singleton.2 rfl) target hp)
  raises e hp := h.raises e (.ref target hp)

end Suits

/-! ## Grammars abreast -/

section Nodes

variable {i i' : Input} (hi : i.WellFormed) (hi' : i'.WellFormed) (hsame : i.lexing = i'.lexing)
include hi hi' hsame

theorem Recognizer.recognize_abreast {R : Error → Prop} : ∀ r : Recognizer,
    (∀ id exclusive, (id, exclusive) ∈ r.leaves → id.Plain exclusive) →
    Abreast i i' R Eq (r.recognize i) (r.recognize i')
  | .token id exclusive _, h => by
    obtain ⟨rfl, hid⟩ := h id exclusive (List.mem_singleton.2 rfl)
    exact (Abreast.accept hi hi' hsame hid).map fun _ _ _ => rfl
  | .seq _ x y, h =>
    (recognize_abreast x fun id e hx => h id e (List.mem_append_left _ hx)).sequence fun _ _ _ =>
      recognize_abreast y fun id e hy => h id e (List.mem_append_right _ hy)
  | .choice x y, h =>
    (recognize_abreast x fun id e hx => h id e (List.mem_append_left _ hx)).orElse
      (recognize_abreast y fun id e hy => h id e (List.mem_append_right _ hy))
  | .rep x, h => .repeated hi hi' (fun _ => recognize_abreast x h) ()
  | .opt _ x, h => .optional (fun _ => recognize_abreast x h) ()
  | .annotate _ x, h => recognize_abreast x h

variable {ds : Definitions E} {env : E} {R : Error → Prop}

theorem Node.parseWith_abreast {onRef onRef' : (t : Shape) → String → Step t.Carrier}
    (href : ∀ t name, (Node.ref name : Parser E t).Suits ds env R → Abreast i i' R Eq (onRef t name) (onRef' t name))
    {a : Option Shape} {t : Shape} (x : Node E a t) (left : Start a) (hx : x.Suits ds env R) :
    Abreast i i' R Eq (x.parseWith onRef i env left) (x.parseWith onRef' i' env left) := by
  -- what a fold or a mapping makes of the same values is the same, an error as well
  have made : ∀ {β : Type} (r : Except Error β), (∀ e, r = .error e → R e) →
      Abreast i i' R Eq (Step.still (.ofExcept r)) (Step.still (.ofExcept r)) := by
    intro β r hr
    cases r with
    | ok b => exact .hit rfl
    | error e => exact .still (.fail (.other (.inr (hr e rfl))))
  induction x with
  | scan id exclusive label m =>
    obtain ⟨rfl, hid⟩ := hx.leaf (List.mem_singleton.2 rfl)
    refine (Abreast.accept hi hi' hsame hid).bind fun k k' hk => ?_
    rw [hk]
    exact made _ fun e he => hx.raises e (.scan he)
  | initial | emptyList => exact .hit rfl
  | ref name => exact href _ name hx
  | fold p f ih =>
    refine (ih () (hx.sub (.refl _) (.refl _) .folded)).bind fun right _ h => ?_
    subst h
    exact made _ fun e he => hx.raises e (.fold he)
  | map m => exact made _ fun e he => hx.raises e (.map he)
  | seq b x y ihx ihy =>
    refine (ihx left (hx.sub (List.subset_append_left _ _) (List.subset_append_left _ _) .seqFirst)).sequence
      fun mid _ h => ?_
    subst h
    exact ihy mid (hx.sub (List.subset_append_right _ _) (List.subset_append_right _ _) .seqSecond)
  | before b r x ih =>
    exact (r.recognize_abreast hi hi' hsame fun id e h => hx.leaf (List.mem_append_left _ h)).sequence
      fun _ _ _ => ih left (hx.sub (List.subset_append_right _ _) (.refl _) .before)
  | after b x r ih =>
    exact (ih left (hx.sub (List.subset_append_right _ _) (.refl _) .after)).sequence fun v _ h =>
      (r.recognize_abreast hi hi' hsame fun id e h => hx.leaf (List.mem_append_left _ h)).map fun _ _ _ => h
  | choice x y ihx ihy =>
    exact (ihx left (hx.sub (List.subset_append_left _ _) (List.subset_append_left _ _) .choiceFirst)).orElse
      (ihy left (hx.sub (List.subset_append_right _ _) (List.subset_append_right _ _) .choiceSecond))
  | rep x ih => exact .repeated hi hi' (fun l => ih l (hx.sub (.refl _) (.refl _) .rep)) left
  | opt x ih => exact .optional (fun l => ih l (hx.sub (.refl _) (.refl _) .opt)) left
  | atLeast n x ih => exact .atLeast hi hi' (fun l => ih l (hx.sub (.refl _) (.refl _) .atLeast)) n left
  | join nonEmpty q x ih =>
    exact .joined nonEmpty (q.recognize_abreast hi hi' hsame fun id e h => hx.leaf (List.mem_append_left _ h))
      (fun l => ih l (hx.sub (List.subset_append_right _ _) (.refl _) .join)) left
  | annotate k x ih => exact ih left (hx.sub (.refl _) (.refl _) .annotate)

omit hi hi' hsame in
theorem Definitions.follow_abreast {t : Shape} {name : String} {deeper deeper' : Option (Parser E t → Step α)}
    (h : deeper = none ∧ deeper' = none ∨ ∃ run run', deeper = some run ∧ deeper' = some run' ∧
      ∀ p, ds.target t name = some p → Abreast i i' R Eq (run p) (run' p)) :
    Abreast i i' R Eq (ds.follow t name deeper) (ds.follow t name deeper') := by
  unfold follow
  cases htarget : ds.target t name with
  | none => exact .fail rfl
  | some p =>
    obtain ⟨rfl, rfl⟩ | ⟨run, run', rfl, rfl, hrun⟩ := h
    · exact .fail rfl
    · exact (hrun p htarget).nested

theorem Node.parseAt_abreast : ∀ (n : Nat) {a : Option Shape} {t : Shape} (x : Node E a t) (left : Start a),
    x.Suits ds env R → Abreast i i' R Eq (x.parseAt ds i env n left) (x.parseAt ds i' env n left)
  | 0, _, _, x, left, hx => by
    rw [parseAt_eq, parseAt_eq]
    exact x.parseWith_abreast hi hi' hsame (fun t name _ => Definitions.follow_abreast (.inl ⟨rfl, rfl⟩)) left hx
  | n + 1, _, _, x, left, hx => by
    rw [parseAt_eq, parseAt_eq]
    exact x.parseWith_abreast hi hi' hsame (fun t name href => Definitions.follow_abreast
      (.inr ⟨_, _, rfl, rfl, fun p hp => parseAt_abreast n p () (href.target hp)⟩)) left hx

/-- The results are alike, and the cursors are left abreast. -/
def Node.Ends (i i' : Input) (R : Error → Prop) {α : Type} (r r' : Except Error α × Cursor) : Prop :=
  ((∃ v, r.1 = .ok v ∧ r'.1 = .ok v) ∨ ∃ e e', r.1 = .error e ∧ r'.1 = .error e' ∧ Error.Abreast i i' R e e') ∧
    Cursor.Abreast i i' r.2 r'.2

theorem Node.parseRest_abreast {t : Shape} {p : Parser E t} (hp : p.Suits ds env R) (depth : Nat) {c c' : Cursor}
    (hc : Cursor.Abreast i i' c c') :
    Ends i i' R (p.parseRest ⟨ds, env, i, depth⟩ c) (p.parseRest ⟨ds, env, i', depth⟩ c') := by
  unfold parseRest parse
  dsimp only
  rw [hc.depth]
  obtain ⟨v, _, d, d', hx, hy, rfl, hd⟩ | ⟨d, d', hx, hy, hd⟩ | ⟨e, e', d, d', hx, hy, he, hd⟩ :=
    (p.parseAt_abreast hi hi' hsame (depth - c.depth) () hp).cases hc
  · rw [hx, hy]
    have hend := hd.offset.isAtEnd_iff hi hi' hsame
    by_cases h : d.next i = i.source.size
    · have h' : d'.next i' = i'.source.size := hend.1 h
      simp only [Cursor.isAtEnd, h, h', decide_true, if_true]
      exact ⟨.inl ⟨v, rfl, rfl⟩, hd⟩
    · have h' : ¬ d'.next i' = i'.source.size := fun h' => h (hend.2 h')
      simp only [Cursor.isAtEnd, h, h', decide_false, Bool.false_eq_true, if_false]
      exact ⟨.inr ⟨_, _, rfl, rfl, .trailingInput hd.offset⟩, hd⟩
  · rw [hx, hy]
    exact ⟨.inr ⟨_, _, rfl, rfl, .noMatch hd.furthest⟩, hd⟩
  · rw [hx, hy]
    exact ⟨.inr ⟨_, _, rfl, rfl, he⟩, hd⟩

end Nodes

/-- **Spacing does not matter.**  Take two sources that have the same lexemes one after another, and end in the same
way.  A parser of which all tokens are taken from longest matches, and none is the end of the input, comes to the same
value on both or to an error of the same kind with the same expectation.  A syntax error points behind equally many
lexemes in both, or before what comes next there, unless a fold or a mapping made it up.  And as much fuel is left. -/
theorem ends_of_lexing_eq {ds : Definitions E} {env : E} {t : Shape} {p : Parser E t} {lexer : Lexer}
    {text text' : String} (hreads : ∀ id exclusive, p.Reads ds id exclusive → exclusive = false ∧ id ≠ .endOfInput)
    (hsame : (Input.of lexer (.ofString text)).lexing = (Input.of lexer (.ofString text')).lexing) (limits : Limits) :
    let i := Input.of lexer (.ofString text)
    let i' := Input.of lexer (.ofString text')
    let r := p.parseRest ⟨ds, env, i, limits.depth⟩ (.start limits)
    let r' := p.parseRest ⟨ds, env, i', limits.depth⟩ (.start limits)
    ((∃ v, r.1 = .ok v ∧ r'.1 = .ok v) ∨
      ∃ e e', r.1 = .error e ∧ r'.1 = .error e' ∧ Error.Abreast i i' (p.Raises ds env) e e') ∧
    Cursor.Abreast i i' r.2 r'.2 :=
  Node.parseRest_abreast (Input.wellFormed_of lexer text) (Input.wellFormed_of lexer text') hsame
    ⟨hreads, fun _ h => h⟩ limits.depth (.start limits)

/-- A list with and without blanks. -/
theorem ends_of_lexing_eq_nested :
    let i := Input.of Nested.lexer (.ofString "[a, [a]]")
    let i' := Input.of Nested.lexer (.ofString " [a,[ a ] ]")
    let r := Nested.nested.parseRest ⟨Nested.definitions, (), i, 1⟩ (.start ⟨20, 1⟩)
    let r' := Nested.nested.parseRest ⟨Nested.definitions, (), i', 1⟩ (.start ⟨20, 1⟩)
    ((∀ id exclusive, Nested.nested.Reads Nested.definitions id exclusive → exclusive = false ∧ id ≠ .endOfInput) ∧
      i.lexing = i'.lexing) ∧
    r.1 = .ok (.list [.string "a", .list [.string "a"]]) ∧
    ((∃ v, r.1 = .ok v ∧ r'.1 = .ok v) ∨
      ∃ e e', r.1 = .error e ∧ r'.1 = .error e' ∧ Error.Abreast i i' (Nested.nested.Raises Nested.definitions ()) e e') ∧
    Cursor.Abreast i i' r.2 r'.2 := by
  intro i i' r r'
  have hleaves : ∀ l ∈ Nested.nested.leaves, l.2 = false ∧ l.1 ≠ .endOfInput := by decide
  have hreads : ∀ id exclusive, Nested.nested.Reads Nested.definitions id exclusive →
      exclusive = false ∧ id ≠ .endOfInput := by
    intro id exclusive h
    obtain h | ⟨u, name, p, target, h⟩ := h.mem_leaves
    · exact hleaves _ h
    · cases u with
      | value =>
        unfold Nested.definitions at target
        dsimp only at target
        split at target <;> cases target
        exact hleaves _ h
      | list => cases target
  have hsame : i.lexing = i'.lexing := by decide +kernel
  exact ⟨⟨hreads, hsame⟩, by decide +kernel, ends_of_lexing_eq hreads hsame ⟨20, 1⟩⟩

end Ambigram
