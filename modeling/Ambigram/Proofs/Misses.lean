import Ambigram.Proofs.Budget
/-!
# Values that do not print

A node has nothing to print for a value that its last part, which is the first to be taken off, cannot have made.  No
budget is needed to find that out.
-/
namespace Ambigram
namespace Node.Prints

variable {E : Type} {ds : Definitions E} {env : E} {a : Option Shape} {s t : Shape} {v : t.Carrier}

theorem scan_miss {id : TokenId} {exclusive : Bool} {label : Option String} {m : Mapping E String t.Carrier}
    (h : m.undo env v = .miss) : (Node.scan id exclusive label m).Prints ds env v .miss := by
  refine .of_forall fun n => ?_
  rw [print_scan, h]
  rfl

theorem initial_miss {value : t.Carrier} (h : v ≠ value) : (Node.initial value).Prints ds env v .miss := by
  refine .of_forall fun n => ?_
  rw [print_initial, if_neg h]

theorem emptyList_miss {vs : List Value} (h : vs ≠ []) : Node.emptyList.Prints ds env vs .miss := by
  refine .of_forall fun n => ?_
  rw [print_emptyList, if_neg (by simpa using h)]

/-- The target needs a smaller budget than the reference. -/
theorem ref_miss {name : String} {p : Parser E t} (target : ds.target t name = some p) (h : p.Prints ds env v .miss) :
    (Node.ref name).Prints ds env v .miss := by
  obtain ⟨n, hn⟩ := Filter.eventually_atTop.1 h
  refine Filter.eventually_atTop.2 ⟨n + 1, fun m hm => ?_⟩
  obtain ⟨m, rfl⟩ : ∃ k, m = k + 1 := ⟨m - 1, by omega⟩
  have hp : (p.print ds env m v).map Prod.snd = .miss := by
    rw [hn m (by omega)]
    rfl
  have href : ds.printRefWithin env (m + 1) t name v = .miss := by
    show ds.printRef t name _ = .miss
    unfold Definitions.printRef
    rw [target]
    exact hp
  rw [print_ref, href]
  rfl

theorem fold_miss {u : Shape} {p : Parser E u} {f : Fold E s.Carrier u.Carrier t.Carrier}
    (h : f.left env v = .miss) : (Node.fold p f).Prints ds env v .miss := by
  refine .of_forall fun n => ?_
  rw [print_fold, h]
  rfl

theorem map_miss {m : Mapping E s.Carrier t.Carrier} (h : m.undo env v = .miss) :
    (Node.map m).Prints ds env v .miss := by
  refine .of_forall fun n => ?_
  rw [print_map, h]
  rfl

theorem seq_miss {b : Bool} {x : Node E a s} {y : Node E (some s) t} (hy : y.Prints ds env v .miss) :
    (Node.seq b x y).Prints ds env v .miss := by
  filter_upwards [hy] with n hy
  rw [print_seq, hy]
  rfl

/-- What the last part leaves may be nothing the first part can have made. -/
theorem seq_miss_of_hit {b : Bool} {x : Node E a s} {y : Node E (some s) t} {mid : s.Carrier} {second : Tree}
    (hy : y.Prints ds env v (.hit (mid, second))) (hx : x.Prints ds env mid .miss) :
    (Node.seq b x y).Prints ds env v .miss := by
  filter_upwards [hx, hy] with n hx hy
  rw [print_seq, hy]
  show (x.print ds env n mid).map _ = _
  rw [hx]
  rfl

theorem before_miss {b : Bool} {q : Recognizer} {x : Node E a t} (h : x.Prints ds env v .miss) :
    (Node.before b q x).Prints ds env v .miss := by
  filter_upwards [h] with n h
  rw [print_before, h]
  rfl

theorem choice_miss {x y : Node E a t} (hx : x.Prints ds env v .miss) (hy : y.Prints ds env v .miss) :
    (Node.choice x y).Prints ds env v .miss := by
  filter_upwards [hx, hy] with n hx hy
  rw [print_choice, hx, hy]
  rfl

theorem printSource_miss {p : Parser E t} (h : p.Prints ds env v .miss) :
    ∀ᶠ budget in Filter.atTop, p.printSource ds env budget v = .error (.notPrintable p.describe) := by
  filter_upwards [h] with n h
  rw [Node.printSource, printTree, h]
  rfl

end Node.Prints
end Ambigram
