import Ambigram.Proofs.Budget
import Ambigram.Proofs.Derivation
import Ambigram.Proofs.Peeling
import Ambigram.Proofs.Run
/-!
# Printing inverts parsing

A run can be gone back: what a node made of its accumulator prints, and printing hands the accumulator back.
Printing never tries another split, so it has to take off the very steps that the run took, and this is what is
asked of the run: the values in it can be taken apart again, no repetition begins with something its element could
take off as well, and what a second branch made is nothing to the first.
-/
namespace Ambigram

variable {E : Type}

open Print

/-! ## Rows of steps -/

/-- From `left` to `v` there are steps of the element with these trees, and each prints back. -/
def Node.PrintsRow (ds : Definitions E) (env : E) {s : Shape} (x : Reducer E s s) (left : s.Carrier) (ts : List Tree)
    (v : s.Carrier) : Prop :=
  ∀ᶠ n in Filter.atTop, Peeled (x.print ds env n) left ts v

namespace Node.PrintsRow

variable {ds : Definitions E} {env : E} {s : Shape} {x : Reducer E s s} {left mid v : s.Carrier} {ts us : List Tree}

theorem nil (v : s.Carrier) : x.PrintsRow ds env v [] v := .of_forall fun _ => .nil v

theorem cons {tree : Tree} (h : x.Prints ds env mid (.hit (left, tree))) (tail : x.PrintsRow ds env mid ts v) :
    x.PrintsRow ds env left (tree :: ts) v := by
  filter_upwards [h, tail] with n h tail
  exact .cons h tail

theorem append (h : x.PrintsRow ds env left ts mid) (k : x.PrintsRow ds env mid us v) :
    x.PrintsRow ds env left (ts ++ us) v := by
  filter_upwards [h, k] with n h k
  exact h.append k

/-- Peeling needs a turn for each step and a last one in which there is nothing left. -/
theorem peel (h : x.PrintsRow ds env left ts v) (hleft : x.Prints ds env left .miss) :
    ∀ᶠ n in Filter.atTop, Print.peel (x.print ds env n) n v [] = .hit (left, ts) := by
  filter_upwards [h, hleft, Filter.eventually_gt_atTop ts.length] with n h hleft hn
  exact h.peel_eq_hit hleft hn

end Node.PrintsRow

/-! ## What each node prints

Printing a node comes to a match where its parts do, each within its own budget. -/

open Outcome (map_eq_hit andThen_eq_hit orElse_eq_hit)

namespace Node.Prints

variable {ds : Definitions E} {env : E} {a : Option Shape} {s t : Shape} {left : Start a} {v : t.Carrier}

theorem scan {id : TokenId} {exclusive : Bool} {label : Option String} {m : Mapping E String t.Carrier} {text : String}
    (h : m.undo env v = .hit text) : (Node.scan id exclusive label m).Prints ds env v (.hit ((), .text text)) := by
  refine .of_forall fun n => ?_
  rw [print_scan, h]
  rfl

theorem initial : (Node.initial v).Prints ds env v (.hit ((), .empty)) := by
  refine .of_forall fun n => ?_
  rw [print_initial, if_pos rfl]

theorem emptyList : Node.emptyList.Prints ds env [] (.hit ((), .empty)) := by
  refine .of_forall fun n => ?_
  rw [print_emptyList]
  rfl

/-- The target needs a smaller budget than the reference. -/
theorem ref {name : String} {p : Parser E t} {tree : Tree} (target : ds.target t name = some p)
    (h : p.Prints ds env v (.hit ((), tree))) : (Node.ref name).Prints ds env v (.hit ((), tree)) := by
  obtain ⟨n, hn⟩ := Filter.eventually_atTop.1 h
  refine Filter.eventually_atTop.2 ⟨n + 1, fun m hm => ?_⟩
  obtain ⟨m, rfl⟩ : ∃ k, m = k + 1 := ⟨m - 1, by omega⟩
  have hp : (p.print ds env m v).map Prod.snd = .hit tree := map_eq_hit.2 ⟨_, hn m (by omega), rfl⟩
  rw [print_ref]
  exact map_eq_hit.2 ⟨tree, Definitions.printRef_eq_hit.2 ⟨p, _, target, rfl, hp⟩, rfl⟩

theorem fold {u : Shape} {p : Parser E u} {f : Fold E s.Carrier u.Carrier t.Carrier} {left : s.Carrier}
    {right : u.Carrier} {tree : Tree} (hleft : f.left env v = .hit left) (hright : f.right env v = .hit right)
    (h : p.Prints ds env right (.hit ((), tree))) : (Node.fold p f).Prints ds env v (.hit (left, tree)) := by
  filter_upwards [h] with n h
  have hp : (p.print ds env n right).map (fun q => (left, q.2)) = .hit (left, tree) := map_eq_hit.2 ⟨_, h, rfl⟩
  rw [print_fold]
  exact andThen_eq_hit.2 ⟨left, hleft, andThen_eq_hit.2 ⟨right, hright, hp⟩⟩

theorem map {m : Mapping E s.Carrier t.Carrier} {left : s.Carrier} (h : m.undo env v = .hit left) :
    (Node.map m).Prints ds env v (.hit (left, .empty)) := by
  refine .of_forall fun n => ?_
  rw [print_map]
  exact map_eq_hit.2 ⟨left, h, rfl⟩

theorem seq {b : Bool} {x : Node E a s} {y : Node E (some s) t} {mid : s.Carrier} {first second : Tree}
    (hy : y.Prints ds env v (.hit (mid, second))) (hx : x.Prints ds env mid (.hit (left, first))) :
    (Node.seq b x y).Prints ds env v (.hit (left, first.append second)) := by
  filter_upwards [hx, hy] with n hx hy
  have hfront : (x.print ds env n mid).map (fun q => (q.1, q.2.append second)) = .hit (left, first.append second) :=
    map_eq_hit.2 ⟨_, hx, rfl⟩
  rw [print_seq]
  exact andThen_eq_hit.2 ⟨(mid, second), hy, hfront⟩

theorem before {b : Bool} {q : Recognizer} {x : Node E a t} {tree : Tree} (h : x.Prints ds env v (.hit (left, tree))) :
    (Node.before b q x).Prints ds env v (.hit (left, q.print.append tree)) := by
  filter_upwards [h] with n h
  rw [print_before]
  exact map_eq_hit.2 ⟨_, h, rfl⟩

theorem after {b : Bool} {q : Recognizer} {x : Node E a t} {tree : Tree} (h : x.Prints ds env v (.hit (left, tree))) :
    (Node.after b x q).Prints ds env v (.hit (left, tree.append q.print)) := by
  filter_upwards [h] with n h
  rw [print_after]
  exact map_eq_hit.2 ⟨_, h, rfl⟩

theorem annotate {k : Category} {x : Node E a t} {tree : Tree} (h : x.Prints ds env v (.hit (left, tree))) :
    (Node.annotate k x).Prints ds env v (.hit (left, tree.annotate k)) := by
  filter_upwards [h] with n h
  rw [print_annotate]
  exact map_eq_hit.2 ⟨_, h, rfl⟩

theorem first {x y : Node E a t} {tree : Tree} (h : x.Prints ds env v (.hit (left, tree))) :
    (Node.choice x y).Prints ds env v (.hit (left, tree)) := by
  filter_upwards [h] with n h
  rw [print_choice]
  exact orElse_eq_hit.2 (.inl h)

theorem second {x y : Node E a t} {tree : Tree} (hx : x.Prints ds env v .miss)
    (hy : y.Prints ds env v (.hit (left, tree))) : (Node.choice x y).Prints ds env v (.hit (left, tree)) := by
  filter_upwards [hx, hy] with n hx hy
  rw [print_choice]
  exact orElse_eq_hit.2 (.inr ⟨hx, hy⟩)

section Repetitions

variable {x : Reducer E s s} {left v : s.Carrier} {ts : List Tree}

theorem optOne {tree : Tree} (h : x.Prints ds env v (.hit (left, tree))) :
    (Node.opt x).Prints ds env v (.hit (left, tree)) := by
  filter_upwards [h] with n h
  rw [print_opt]
  exact orElse_eq_hit.2 (.inl h)

theorem optNone (h : x.Prints ds env v .miss) : (Node.opt x).Prints ds env v (.hit (v, .empty)) := by
  filter_upwards [h] with n h
  rw [print_opt]
  exact orElse_eq_hit.2 (.inr ⟨h, rfl⟩)

theorem rep (h : x.PrintsRow ds env left ts v) (hleft : x.Prints ds env left .miss) :
    (Node.rep x).Prints ds env v (.hit (left, .concat ts)) := by
  filter_upwards [h.peel hleft] with n h
  rw [print_rep]
  exact map_eq_hit.2 ⟨_, h, rfl⟩

/-- The steps that have to be there are taken off first, and they are the last ones. -/
theorem atLeast {min : Nat} (h : x.PrintsRow ds env left ts v) (hmin : min ≤ ts.length)
    (hleft : x.Prints ds env left .miss) : ∃ tree, (Node.atLeast min x).Prints ds env v (.hit (left, tree)) := by
  obtain ⟨us, vs, rfl, hvs⟩ : ∃ us vs, ts = us ++ vs ∧ vs.length = min :=
    ⟨ts.take (ts.length - min), ts.drop (ts.length - min), (List.take_append_drop _ _).symm, by
      rw [List.length_drop]
      omega⟩
  refine ⟨(Tree.concat us).append (vs.foldl Tree.append .empty), ?_⟩
  filter_upwards [h, hleft, Filter.eventually_gt_atTop us.length] with n h hleft hn
  obtain ⟨mid, hfront, hback⟩ := h.split
  have hlast : takeOff (x.print ds env n) min v = .hit (mid, vs.foldl Tree.append .empty) := by
    rw [← hvs]
    exact hback.takeOff_eq_hit
  have hothers : Print.peel (x.print ds env n) n mid [] = .hit (left, us) := hfront.peel_eq_hit hleft hn
  rw [print_atLeast]
  exact andThen_eq_hit.2 ⟨_, hlast, map_eq_hit.2 ⟨_, hothers, rfl⟩⟩

theorem join {nonEmpty : Bool} {q : Recognizer} (h : x.PrintsRow ds env left ts v)
    (hne : nonEmpty = true → ts ≠ []) (hleft : x.Prints ds env left .miss) :
    (Node.join nonEmpty q x).Prints ds env v (.hit (left, .concat (intersperse q.print ts))) := by
  have hts : ¬ (nonEmpty && ts.isEmpty) = true := by simpa using hne
  filter_upwards [h.peel hleft] with n h
  rw [print_join]
  exact andThen_eq_hit.2 ⟨_, h, if_neg hts⟩

end Repetitions

theorem printSource {p : Parser E t} {tree : Tree} (h : p.Prints ds env v (.hit ((), tree))) :
    ∀ᶠ budget in Filter.atTop, p.printSource ds env budget v = .ok tree.toSource := by
  filter_upwards [h] with n h
  rw [Node.printSource, printTree, h]
  rfl

end Node.Prints

/-! ## Runs that can be gone back

Three things are asked.  Folds and mappings give back what they were applied to, and the mapping of a token gives
some text.  Nothing can be taken off what a repetition began with, nor off what an option left as it was.  And the
first branch of a choice has nothing to print for what the second one made. -/

variable {ds : Definitions E} {i : Input} {env : E}

/-- The values of the run can be taken apart again, and only in the way they were put together. -/
def Run.Reversible {n : Nat} {a : Option Shape} {t : Shape} {task : Task E a t} {left : Start a} {c : Cursor}
    {v : t.Carrier} {d : Cursor} : Run ds i env n task left c v d → Prop
  | .scan (m := m) (v := v) _ _ _ => ∃ text, m.undo env v = .hit text
  | .initial | .emptyList | .loopStop _ | .timesDone | .tailStop _ | .tailGivenBack _ _ => True
  | .ref _ r | .first r | .optOne r | .annotate r | .loopStill r _ => r.Reversible
  | .fold (f := f) (l := left) (w := right) (v := v) r _ =>
    f.left env v = .hit left ∧ f.right env v = .hit right ∧ r.Reversible
  | .map (m := m) (l := left) (v := v) _ => m.undo env v = .hit left
  | .seq rx ry => rx.Reversible ∧ ry.Reversible
  | .before _ rx | .after rx _ => rx.Reversible
  | .second (x := x) (v := v) _ r => x.Prints ds env v .miss ∧ r.Reversible
  | .rep (x := x) (l := left) r => x.Prints ds env left .miss ∧ r.Reversible
  | .optNone (x := x) (l := left) _ | .joinNone (x := x) (l := left) _ => x.Prints ds env left .miss
  | .atLeast (x := x) (l := left) r more | .join (x := x) (l := left) r more =>
    x.Prints ds env left .miss ∧ r.Reversible ∧ more.Reversible
  | .loopMore r _ more | .timesMore r more | .tailMore _ r more => r.Reversible ∧ more.Reversible

/-- What comes of a task prints back to what it began with.  The steps of a loop stand in a row, and each of them
can be taken off. -/
def Task.PrintsBack (ds : Definitions E) (env : E) {a : Option Shape} {t : Shape} :
    Task E a t → Start a → t.Carrier → Prop
  | .node x, left, v => ∃ tree, x.Prints ds env v (.hit (left, tree))
  | .loop x, left, v | .tail _ x, left, v => ∃ ts, x.PrintsRow ds env left ts v
  | .times k x, left, v => ∃ ts, ts.length = k ∧ x.PrintsRow ds env left ts v

theorem Run.printsBack {n : Nat} {a : Option Shape} {t : Shape} {task : Task E a t} {left : Start a} {c : Cursor}
    {v : t.Carrier} {d : Cursor} (r : Run ds i env n task left c v d) (hr : r.Reversible) :
    task.PrintsBack ds env left v := by
  induction r with
  | scan k h made =>
    obtain ⟨text, hundo⟩ := hr
    exact ⟨_, .scan hundo⟩
  | initial => exact ⟨_, .initial⟩
  | emptyList => exact ⟨_, .emptyList⟩
  | ref target r ih =>
    obtain ⟨tree, h⟩ := ih hr
    exact ⟨tree, .ref target h⟩
  | fold r made ih =>
    obtain ⟨hleft, hright, hr⟩ := hr
    obtain ⟨tree, h⟩ := ih hr
    exact ⟨tree, .fold hleft hright h⟩
  | map made => exact ⟨_, .map hr⟩
  | seq rx ry ihx ihy =>
    obtain ⟨first, hx⟩ := ihx hr.1
    obtain ⟨second, hy⟩ := ihy hr.2
    exact ⟨_, .seq hy hx⟩
  | before rq rx ih =>
    obtain ⟨tree, h⟩ := ih hr
    exact ⟨_, .before h⟩
  | after rx rq ih =>
    obtain ⟨tree, h⟩ := ih hr
    exact ⟨_, .after h⟩
  | first r ih =>
    obtain ⟨tree, h⟩ := ih hr
    exact ⟨tree, .first h⟩
  | second h r ih =>
    obtain ⟨hx, hr⟩ := hr
    obtain ⟨tree, hy⟩ := ih hr
    exact ⟨tree, .second hx hy⟩
  | rep r ih =>
    obtain ⟨hleft, hr⟩ := hr
    obtain ⟨ts, h⟩ := ih hr
    exact ⟨_, .rep h hleft⟩
  | optNone h => exact ⟨_, .optNone hr⟩
  | optOne r ih =>
    obtain ⟨tree, h⟩ := ih hr
    exact ⟨tree, .optOne h⟩
  | atLeast r more ih ihmore =>
    obtain ⟨hleft, hr, hmore⟩ := hr
    obtain ⟨ts, hlen, hts⟩ := ih hr
    obtain ⟨us, hus⟩ := ihmore hmore
    -- printing counts from the other end, so both parts are one row
    have hrow := hts.append hus
    have hmin : ts.length ≤ (ts ++ us).length := by
      rw [List.length_append]
      omega
    rw [hlen] at hmin
    exact Node.Prints.atLeast hrow hmin hleft
  | joinNone h => exact ⟨_, .join (.nil _) (by simp) hr⟩
  | join r more ih ihmore =>
    obtain ⟨hleft, hr, hmore⟩ := hr
    obtain ⟨tree, h⟩ := ih hr
    obtain ⟨ts, hts⟩ := ihmore hmore
    have hrow : Node.PrintsRow _ _ _ _ (tree :: ts) _ := .cons h hts
    exact ⟨_, .join hrow (by simp) hleft⟩
  | annotate r ih =>
    obtain ⟨tree, h⟩ := ih hr
    exact ⟨_, .annotate h⟩
  | loopStop h => exact ⟨[], .nil _⟩
  | loopStill r hd ih =>
    obtain ⟨tree, h⟩ := ih hr
    exact ⟨[tree], .cons h (.nil _)⟩
  | loopMore r hd more ih ihmore =>
    obtain ⟨tree, h⟩ := ih hr.1
    obtain ⟨ts, hts⟩ := ihmore hr.2
    exact ⟨tree :: ts, .cons h hts⟩
  | timesDone => exact ⟨[], rfl, .nil _⟩
  | timesMore r more ih ihmore =>
    obtain ⟨tree, h⟩ := ih hr.1
    obtain ⟨ts, hlen, hts⟩ := ihmore hr.2
    exact ⟨tree :: ts, by rw [List.length_cons, hlen], .cons h hts⟩
  | tailStop h => exact ⟨[], .nil _⟩
  | tailGivenBack hq h => exact ⟨[], .nil _⟩
  | tailMore rq r more ih ihmore =>
    obtain ⟨tree, h⟩ := ih hr.1
    obtain ⟨ts, hts⟩ := ihmore hr.2
    exact ⟨tree :: ts, .cons h hts⟩

/-- **Printing inverts parsing.**  A match has a run, and where the run can be gone back, what was made prints: the
accumulator that is handed back is the one the node began with, and a budget that is too small for it runs out. -/
theorem print_parse {s : Setting E} {a : Option Shape} {t : Shape} {x : Node E a t} {left : Start a} {c : Cursor}
    {v : t.Carrier} {d : Cursor} (h : x.parse s left c = (.hit v, d)) :
    Nonempty (Run s.definitions s.input s.env (s.depth - c.depth) (.node x) left c v d) ∧
    ∀ r : Run s.definitions s.input s.env (s.depth - c.depth) (.node x) left c v d, r.Reversible →
      ∃ tree, x.Prints s.definitions s.env v (.hit (left, tree)) ∧
        ∀ n, x.print s.definitions s.env n v = .hit (left, tree) ∨
          x.print s.definitions s.env n v = .fail .budgetExhausted := by
  refine ⟨x.run_of_parse _ h, fun r hr => ?_⟩
  obtain ⟨tree, htree⟩ := r.printsBack hr
  exact ⟨tree, htree, htree.print_eq_or⟩

namespace Nested

def brackets : Input := .of lexer (.ofString "[[]]")

/-- How the inner list of `brackets` is read. -/
def innerRun : Run definitions brackets () 1 (.node nested) () ⟨1, 1, 18, 1⟩ (.list []) ⟨3, 3, 14, 1⟩ :=
  .before (d := ⟨2, 2, 17, 1⟩) (.token ⟨.pattern 0, 1, 2⟩ (by decide +kernel))
    (.after (d := ⟨2, 2, 15, 1⟩) (.seq (.seq .emptyList (.joinNone (by decide +kernel))) (.map rfl))
      (.token ⟨.pattern 1, 2, 3⟩ (by decide +kernel)))

/-- The list in it is no word, so it is read by the reference. -/
def outerRun : Run definitions brackets () 2 (.node nested) () ⟨0, 0, 20, 0⟩ (.list [.list []]) ⟨4, 4, 12, 0⟩ :=
  .before (d := ⟨1, 1, 19, 0⟩) (.token ⟨.pattern 0, 0, 1⟩ (by decide +kernel))
    (.after (d := ⟨3, 3, 13, 0⟩)
      (.seq
        (.seq .emptyList
          (.join
            (.fold (.second (d := ⟨1, 1, 18, 0⟩) (by decide +kernel) (.ref (d := ⟨3, 3, 14, 1⟩) rfl innerRun)) rfl)
            (.tailStop (by decide +kernel))))
        (.map rfl))
      (.token ⟨.pattern 1, 3, 4⟩ (by decide +kernel)))

theorem outerRun_reversible : outerRun.Reversible := by
  have helement : (Node.fold (.choice word (.ref "nested")) (.append 0) : Reducer Unit .list .list).Prints
      definitions () [] .miss := Node.prints_of_print (n := 0) rfl (by simp)
  have hword : word.Prints definitions () (.list []) .miss := Node.prints_of_print (n := 0) rfl (by simp)
  have hinner : innerRun.Reversible := ⟨⟨trivial, helement⟩, rfl⟩
  exact ⟨⟨trivial, helement, ⟨rfl, rfl, hword, hinner⟩, trivial⟩, rfl⟩

end Nested

/-- A list within a list, through the reference and the second branch. -/
theorem print_parse_nested :
    Nested.nested.parse ⟨Nested.definitions, (), Nested.brackets, 2⟩ () ⟨0, 0, 20, 0⟩ =
      (.hit (.list [.list []]), ⟨4, 4, 12, 0⟩) ∧
    Nested.outerRun.Reversible ∧
    ∃ tree, Nested.nested.Prints Nested.definitions () (.list [.list []]) (.hit ((), tree)) := by
  have h : Nested.nested.parse ⟨Nested.definitions, (), Nested.brackets, 2⟩ () ⟨0, 0, 20, 0⟩ =
      (.hit (.list [.list []]), ⟨4, 4, 12, 0⟩) := by decide +kernel
  obtain ⟨tree, htree, -⟩ := (print_parse h).2 Nested.outerRun Nested.outerRun_reversible
  exact ⟨h, Nested.outerRun_reversible, tree, htree⟩

end Ambigram
