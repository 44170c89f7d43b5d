import Ambigram.Grammar.Parse
import Ambigram.Grammar.Print
import Ambigram.Proofs.Alike
import Ambigram.Tree.Texts
import Mathlib.Data.List.Forall2
/-!
# Annotations

A category is something that a layout may look at, and nothing else does.  Leave all annotations of a grammar out:
reading is the same step, and printing comes to the same, but for the categories of the tree.  An annotated tree is put
together in another way, since a category is never spliced and is not empty even if it holds nothing; what it holds is
the same texts in the same order.
-/
namespace Ambigram

variable {E α : Type}

/-! ## Leaving annotations out -/

/-- The recognizer without its annotations. -/
def Recognizer.bare : Recognizer → Recognizer
  | .token id exclusive text => .token id exclusive text
  | .seq b x y => .seq b x.bare y.bare
  | .choice x y => .choice x.bare y.bare
  | .rep x => .rep x.bare
  | .opt always x => .opt always x.bare
  | .annotate _ x => x.bare

/-- The node without its annotations, nor any in the recognizers that it is made of. -/
def Node.bare {a : Option Shape} {t : Shape} : Node E a t → Node E a t
  | .scan id exclusive label m => .scan id exclusive label m
  | .initial v => .initial v
  | .emptyList => .emptyList
  | .ref name => .ref name
  | .fold p f => .fold p.bare f
  | .map m => .map m
  | .seq b x y => .seq b x.bare y.bare
  | .before b r x => .before b r.bare x.bare
  | .after b x r => .after b x.bare r.bare
  | .choice x y => .choice x.bare y.bare
  | .rep x => .rep x.bare
  | .opt x => .opt x.bare
  | .atLeast n x => .atLeast n x.bare
  | .join ne q x => .join ne q.bare x.bare
  | .annotate _ x => x.bare

def Definitions.bare (ds : Definitions E) : Definitions E := ⟨fun t name => (ds.target t name).map Node.bare⟩

/-- The setting without annotations in what its references stand for. -/
def Setting.bare (s : Setting E) : Setting E := { s with definitions := s.definitions.bare }

/-- The categories that a recognizer annotates with. -/
def Recognizer.categories : Recognizer → List Category
  | .token _ _ _ => []
  | .seq _ x y | .choice x y => x.categories ++ y.categories
  | .rep x | .opt _ x => x.categories
  | .annotate c x => c :: x.categories

def Node.categories {a : Option Shape} {t : Shape} : Node E a t → List Category
  | .scan _ _ _ _ | .initial _ | .emptyList | .ref _ | .map _ => []
  | .fold p _ => p.categories
  | .seq _ x y => x.categories ++ y.categories
  | .before _ r x | .after _ x r | .join _ r x => r.categories ++ x.categories
  | .choice x y => x.categories ++ y.categories
  | .rep x | .opt x | .atLeast _ x => x.categories
  | .annotate c x => c :: x.categories

theorem Recognizer.categories_bare (r : Recognizer) : r.bare.categories = [] := by
  induction r with
  | token => rfl
  | seq _ _ _ ihx ihy | choice _ _ ihx ihy => simp only [bare, categories, ihx, ihy, List.append_nil]
  | rep _ ih | opt _ _ ih | annotate _ _ ih => simpa only [bare, categories] using ih

theorem Node.categories_bare {a : Option Shape} {t : Shape} (x : Node E a t) : x.bare.categories = [] := by
  induction x with
  | scan | initial | emptyList | ref | map => rfl
  | seq _ _ _ ihx ihy | choice _ _ ihx ihy => simp only [bare, categories, ihx, ihy, List.append_nil]
  | before _ _ _ ih | after _ _ _ ih | join _ _ _ ih =>
    simp only [bare, categories, Recognizer.categories_bare, ih, List.append_nil]
  | fold _ _ ih | rep _ ih | opt _ ih | atLeast _ _ ih | annotate _ _ ih => simpa only [bare, categories] using ih

/-! ## Descriptions -/

theorem Recognizer.describe_bare (r : Recognizer) : r.bare.describe = r.describe := by
  induction r with
  | token => rfl
  | seq _ _ _ ihx ihy | choice _ _ ihx ihy => simp only [bare, describe, ihx, ihy]
  | rep _ ih | opt _ _ ih => simp only [bare, describe, ih]
  | annotate _ _ ih => exact ih

theorem Node.describe_bare {a : Option Shape} {t : Shape} (x : Node E a t) : x.bare.describe = x.describe := by
  induction x with
  | scan | initial | emptyList | ref | map => rfl
  | seq _ _ _ ihx ihy | choice _ _ ihx ihy => simp only [bare, describe, ihx, ihy]
  | before _ _ _ ih | after _ _ _ ih | join _ _ _ ih => simp only [bare, describe, Recognizer.describe_bare, ih]
  | rep _ ih | opt _ ih | atLeast _ _ ih => simp only [bare, describe, ih]
  | fold _ _ ih | annotate _ _ ih => exact ih

/-! ## Reading -/

section Reading

variable {i : Input} {env : E} {ds : Definitions E} {a : Option Shape} {t : Shape}

theorem Recognizer.recognize_bare (r : Recognizer) : r.bare.recognize i = r.recognize i := by
  induction r with
  | token => rfl
  | seq _ _ _ ihx ihy => simp only [bare, recognize, describe_bare, ihx, ihy]
  | choice _ _ ihx ihy => simp only [bare, recognize, ihx, ihy]
  | rep _ ih | opt _ _ ih => simp only [bare, recognize, ih]
  | annotate _ _ ih => exact ih

theorem Node.recognizeWith_bare (onRef : Shape → String → Step Unit) (x : Node E a t) :
    x.bare.recognizeWith onRef i = x.recognizeWith onRef i := by
  induction x with
  | scan | initial | emptyList | ref | map => rfl
  | seq _ _ _ ihx ihy => simp only [bare, recognizeWith, describe_bare, ihx, ihy]
  | before _ _ _ ih | after _ _ _ ih =>
    simp only [bare, recognizeWith, describe_bare, Recognizer.describe_bare, Recognizer.recognize_bare, ih]
  | choice _ _ ihx ihy => simp only [bare, recognizeWith, ihx, ihy]
  | rep _ ih | opt _ ih | atLeast _ _ ih => simp only [bare, recognizeWith, ih]
  | join _ _ _ ih => simp only [bare, recognizeWith, Recognizer.recognize_bare, ih]
  | fold _ _ ih | annotate _ _ ih => exact ih

theorem Node.parseWith_bare (onRef : (t : Shape) → String → Step t.Carrier) (x : Node E a t) :
    x.bare.parseWith onRef i env = x.parseWith onRef i env := by
  induction x with
  | scan | initial | emptyList | ref | map => rfl
  | fold _ _ ih => funext left; simp only [bare, parseWith, ih]
  | seq _ _ _ ihx ihy => funext left; simp only [bare, parseWith, describe_bare, ihx, ihy]
  | before _ _ _ ih | after _ _ _ ih =>
    funext left
    simp only [bare, parseWith, describe_bare, Recognizer.describe_bare, Recognizer.recognize_bare, ih]
  | choice _ _ ihx ihy => funext left; simp only [bare, parseWith, ihx, ihy]
  | rep _ ih | opt _ ih | atLeast _ _ ih => funext left; simp only [bare, parseWith, ih]
  | join _ _ _ ih => funext left; simp only [bare, parseWith, Recognizer.recognize_bare, ih]
  | annotate _ _ ih => exact ih

theorem Definitions.follow_bare {name : String} (deeper : Option (Parser E t → Step α)) :
    ds.bare.follow t name deeper = ds.follow t name (deeper.map fun run p => run p.bare) := by
  unfold follow bare
  dsimp only
  cases ds.target t name <;> cases deeper <;> rfl

theorem Node.recognizeAt_bare : ∀ (n : Nat) {a : Option Shape} {t : Shape} (x : Node E a t),
    x.bare.recognizeAt ds.bare i n = x.recognizeAt ds i n
  | 0, _, _, x => by
    have hrefs : ds.bare.recognizeRef i 0 = ds.recognizeRef i 0 := by
      funext t name
      exact Definitions.follow_bare _
    rw [recognizeAt_eq, recognizeAt_eq, recognizeWith_bare, hrefs]
  | n + 1, _, _, x => by
    have hrefs : ds.bare.recognizeRef i (n + 1) = ds.recognizeRef i (n + 1) := by
      funext t name
      refine (Definitions.follow_bare _).trans ?_
      simp only [Option.map_some, recognizeAt_bare n]
      rfl
    rw [recognizeAt_eq, recognizeAt_eq, recognizeWith_bare, hrefs]

theorem Node.parseAt_bare : ∀ (n : Nat) {a : Option Shape} {t : Shape} (x : Node E a t),
    x.bare.parseAt ds.bare i env n = x.parseAt ds i env n
  | 0, _, _, x => by
    have hrefs : ds.bare.parseRef i env 0 = ds.parseRef i env 0 := by
      funext t name
      exact Definitions.follow_bare _
    rw [parseAt_eq, parseAt_eq, parseWith_bare, hrefs]
  | n + 1, _, _, x => by
    have hrefs : ds.bare.parseRef i env (n + 1) = ds.parseRef i env (n + 1) := by
      funext t name
      refine (Definitions.follow_bare _).trans ?_
      simp only [Option.map_some, parseAt_bare n]
      rfl
    rw [parseAt_eq, parseAt_eq, parseWith_bare, hrefs]

variable (s : Setting E)

theorem Node.recognize_bare (x : Node E a t) : x.bare.recognize s.bare = x.recognize s := by
  funext c
  exact congrFun (x.recognizeAt_bare _) c

theorem Node.parse_bare (x : Node E a t) : x.bare.parse s.bare = x.parse s := by
  funext left c
  exact congrFun (congrFun (x.parseAt_bare _) left) c

theorem Node.parseRest_bare (p : Parser E t) : p.bare.parseRest s.bare = p.parseRest s := by
  funext c
  unfold parseRest
  rw [parse_bare, describe_bare]
  rfl

end Reading

/-! ## Printing

What is peeled off in one grammar is peeled off in the other, tree by tree, and each tree has the texts of its
counterpart. -/

/-- The trees have the same texts. -/
def Tree.SameTexts (t u : Tree) : Prop := u.texts = t.texts

/-- The same is left, and the trees have the same texts. -/
def Print.SamePart (q r : α × Tree) : Prop := r.1 = q.1 ∧ q.2.SameTexts r.2

/-- The same is left, and the trees have the same texts one by one. -/
def Print.SameParts (q r : α × List Tree) : Prop := r.1 = q.1 ∧ List.Forall₂ Tree.SameTexts q.2 r.2

namespace Tree.SameTexts

variable {t t' u u' : Tree} {ts us : List Tree}

theorem append (h : t.SameTexts t') (k : u.SameTexts u') : (t.append u).SameTexts (t'.append u') := by
  unfold SameTexts at *
  rw [texts_append, texts_append, h, k]

theorem flatMap_eq (h : List.Forall₂ SameTexts ts us) : us.flatMap texts = ts.flatMap texts := by
  induction h with
  | nil => rfl
  | cons h _ ih => rw [List.flatMap_cons, List.flatMap_cons, h, ih]

theorem concat (h : List.Forall₂ SameTexts ts us) : (concat ts).SameTexts (.concat us) := by
  unfold SameTexts
  rw [texts_concat, texts_concat, flatMap_eq h]

theorem intersperse (hsep : t.SameTexts t') (h : List.Forall₂ SameTexts ts us) :
    List.Forall₂ SameTexts (Print.intersperse t ts) (Print.intersperse t' us) := by
  induction h with
  | nil => exact .nil
  | cons head tail ih =>
    cases tail with
    | nil => exact .cons head .nil
    | cons _ _ => exact .cons head (.cons hsep ih)

theorem toSource_eq (h : t.SameTexts t') : t'.toSource = t.toSource := by
  rw [Tree.toSource_eq, Tree.toSource_eq, h]

end Tree.SameTexts

open Outcome (Alike)
open Print (SamePart SameParts)

namespace Print

variable {element element' : α → Outcome (α × Tree)} (h : ∀ v, Alike SamePart Eq (element v) (element' v))
include h

theorem peel_alike : ∀ (n : Nat) (v : α) {ts us : List Tree}, List.Forall₂ Tree.SameTexts ts us →
    Alike SameParts Eq (peel element n v ts) (peel element' n v us)
  | 0, _, _, _, _ => .fail rfl
  | n + 1, v, ts, us, hts => by
    unfold peel
    have hv := h v
    revert hv
    generalize element v = o
    generalize element' v = o'
    rintro (⟨hleft, htree⟩ | _ | he)
    · dsimp only
      rw [hleft]
      exact peel_alike n _ (.cons htree hts)
    · exact .hit ⟨rfl, hts⟩
    · exact .fail he

theorem takeOff_alike : ∀ (n : Nat) (v : α), Alike SamePart Eq (takeOff element n v) (takeOff element' n v)
  | 0, _ => .hit ⟨rfl, rfl⟩
  | n + 1, v => (h v).andThen fun (_, tree) (left, tree') ⟨hleft, htree⟩ => by
    subst hleft
    exact (takeOff_alike n left).map fun _ _ hp => ⟨hp.1, hp.2.append htree⟩

end Print

theorem Recognizer.print_bare : ∀ r : Recognizer, r.print.SameTexts r.bare.print
  | .token _ _ _ | .rep _ => rfl
  | .seq _ x y => x.print_bare.append y.print_bare
  | .choice x _ => x.print_bare
  | .opt always x => by
    cases always with
    | true => exact x.print_bare
    | false => rfl
  | .annotate _ x => x.print_bare

section Printing

variable {ds : Definitions E} {env : E} {a : Option Shape} {t : Shape}

theorem Node.printWith_bare {onRef onRef' : (t : Shape) → String → t.Carrier → Outcome Tree} {turns : Nat}
    (href : ∀ t name v, Alike Tree.SameTexts Eq (onRef t name v) (onRef' t name v)) (x : Node E a t) :
    ∀ v, Alike SamePart Eq (x.printWith onRef env turns v) (x.bare.printWith onRef' env turns v) := by
  have same : ∀ {β : Type} (o : Outcome (β × Tree)), Alike SamePart Eq o o := .refl (fun _ => ⟨rfl, rfl⟩) fun _ => rfl
  have eq : ∀ {β : Type} (o : Outcome β), Alike Eq Eq o o := .refl (fun _ => rfl) fun _ => rfl
  induction x with
  | scan | initial | emptyList | map => exact fun v => same _
  | ref name => exact fun v => (href _ name v).map fun _ _ h => ⟨rfl, h⟩
  | fold p f ih =>
    refine fun v => (eq _).andThen fun left _ hleft => (eq _).andThen fun right _ hright => ?_
    subst hleft hright
    exact (ih right).map fun _ _ h => ⟨rfl, h.2⟩
  | seq b x y ihx ihy =>
    refine fun v => (ihy v).andThen fun (_, second) (mid, second') ⟨hmid, hsecond⟩ => ?_
    subst hmid
    exact (ihx mid).map fun _ _ h => ⟨h.1, h.2.append hsecond⟩
  | before b r x ih => exact fun v => (ih v).map fun _ _ h => ⟨h.1, r.print_bare.append h.2⟩
  | after b x r ih => exact fun v => (ih v).map fun _ _ h => ⟨h.1, h.2.append r.print_bare⟩
  | choice x y ihx ihy => exact fun v => (ihx v).orElse (ihy v)
  | rep x ih => exact fun v => (Print.peel_alike ih turns v .nil).map fun _ _ h => ⟨h.1, .concat h.2⟩
  | opt x ih => exact fun v => (ih v).orElse (same _)
  | atLeast n x ih =>
    refine fun v => (Print.takeOff_alike ih n v).andThen fun (_, last) (mid, last') ⟨hmid, hlast⟩ => ?_
    subst hmid
    exact (Print.peel_alike ih turns mid .nil).map fun _ _ h => ⟨h.1, (Tree.SameTexts.concat h.2).append hlast⟩
  | join nonEmpty sep x ih =>
    refine fun v => (Print.peel_alike ih turns v .nil).andThen fun q r hq => ?_
    have hempty : r.2.isEmpty = q.2.isEmpty := by
      rw [Bool.eq_iff_iff, List.isEmpty_iff_length_eq_zero, List.isEmpty_iff_length_eq_zero, hq.2.length_eq]
    dsimp only
    rw [hempty]
    split
    · exact .miss
    · exact .hit ⟨hq.1, .concat (sep.print_bare.intersperse hq.2)⟩
  | annotate c x ih =>
    exact fun v => (ih v).mapLeft fun _ _ h => h

theorem Definitions.printRef_bare (name : String) {deeper deeper' : Option (Parser E t → Outcome Tree)}
    (h : deeper = none ∧ deeper' = none ∨ ∃ print print', deeper = some print ∧ deeper' = some print' ∧
      ∀ p : Parser E t, Alike Tree.SameTexts Eq (print p) (print' p.bare)) :
    Alike Tree.SameTexts Eq (ds.printRef t name deeper) (ds.bare.printRef t name deeper') := by
  unfold printRef bare
  dsimp only
  cases ds.target t name with
  | none => exact .fail rfl
  | some p =>
    obtain ⟨rfl, rfl⟩ | ⟨print, print', rfl, rfl, hprint⟩ := h
    · exact .fail rfl
    · exact hprint p

theorem Node.print_bare : ∀ (n : Nat) {a : Option Shape} {t : Shape} (x : Node E a t) (v : t.Carrier),
    Alike SamePart Eq (x.print ds env n v) (x.bare.print ds.bare env n v)
  | 0, _, _, x, v => by
    rw [print_eq, print_eq]
    exact x.printWith_bare (fun t name v => Definitions.printRef_bare name (.inl ⟨rfl, rfl⟩)) v
  | n + 1, _, _, x, v => by
    rw [print_eq, print_eq]
    exact x.printWith_bare (fun t name v => Definitions.printRef_bare name
      (.inr ⟨_, _, rfl, rfl, fun p => (print_bare n p v).map fun _ _ h => h.2⟩)) v

end Printing

/-- **Annotations only change categories.**  Without its annotations a grammar reads in the same way, wherever it begins
and however that ends.  And it prints the same values with the same text, leaves the same accumulator, and has the same
errors where it does not. -/
theorem same_of_bare (s : Setting E) :
    (∀ r : Recognizer, r.bare.categories = [] ∧ r.bare.recognize s.input = r.recognize s.input ∧
      r.bare.print.toSource = r.print.toSource) ∧
    (∀ {a : Option Shape} {t : Shape} (x : Node E a t), x.bare.categories = [] ∧
      x.bare.recognize s.bare = x.recognize s ∧ x.bare.parse s.bare = x.parse s ∧
      ∀ n v, Alike (fun q r => r.1 = q.1 ∧ r.2.toSource = q.2.toSource) Eq (x.print s.definitions s.env n v)
        (x.bare.print s.definitions.bare s.env n v)) ∧
    (∀ t name p, s.definitions.bare.target t name = some p → p.categories = []) ∧
    ∀ {t : Shape} (p : Parser E t), p.bare.parseRest s.bare = p.parseRest s ∧
      ∀ n v, p.bare.printSource s.definitions.bare s.env n v = p.printSource s.definitions s.env n v := by
  refine ⟨fun r => ⟨r.categories_bare, r.recognize_bare, r.print_bare.toSource_eq⟩,
    fun x => ⟨x.categories_bare, x.recognize_bare s, x.parse_bare s, fun n v => ?_⟩, fun t name p hp => ?_,
    fun p => ⟨p.parseRest_bare s, fun n v => ?_⟩⟩
  · exact (x.print_bare n v).mono fun _ _ h => ⟨h.1, h.2.toSource_eq⟩
  · obtain ⟨q, -, rfl⟩ := Option.map_eq_some_iff.1 hp
    exact q.categories_bare
  · have h : Alike SamePart Eq (p.print s.definitions s.env n v) (p.bare.print s.definitions.bare s.env n v) :=
      p.print_bare n v
    unfold Node.printSource Node.printTree
    revert h
    generalize p.print s.definitions s.env n v = o
    generalize p.bare.print s.definitions.bare s.env n v = o'
    rintro (⟨-, h⟩ | _ | h)
    · exact congrArg Except.ok h.toSource_eq
    · rw [p.describe_bare]
    · rw [h]

end Ambigram
