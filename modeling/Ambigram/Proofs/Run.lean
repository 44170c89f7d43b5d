import Ambigram.Proofs.Discipline
/-!
# Runs

A run is the account of one match: which branch was taken, how often a loop went round, what each part made of
which accumulator.  What was tried and given up leaves nothing in it but the non-match itself.  So whatever is
read off a run, its tokens or the values that arose in it, belongs to the match.

`Node.run_of_parse` says that a node has a run wherever it matches.
-/
namespace Ambigram

variable {E : Type}

/-- How a recognizer went from one cursor to another. -/
inductive Recognizer.Run (i : Input) : Recognizer → Cursor → Cursor → Type
  | token {id : TokenId} {exclusive : Bool} {text : String} {c d : Cursor} (token : Token)
    (h : Cursor.accept i id exclusive c = (.hit token, d)) : Run i (.token id exclusive text) c d
  | seq {b : Bool} {x y : Recognizer} {c d e : Cursor} (rx : Run i x c d) (ry : Run i y d e) : Run i (.seq b x y) c e
  | first {x y : Recognizer} {c d : Cursor} (r : Run i x c d) : Run i (.choice x y) c d
  | second {x y : Recognizer} {c d e : Cursor} (h : x.recognize i c = (.miss, d)) (r : Run i y d e) :
    Run i (.choice x y) c e
  | repStop {x : Recognizer} {c d : Cursor} (h : x.recognize i c = (.miss, d)) : Run i (.rep x) c d
  | repStill {x : Recognizer} {c d : Cursor} (r : Run i x c d) (h : d.offset = c.offset) : Run i (.rep x) c d
  | repMore {x : Recognizer} {c d e : Cursor} (r : Run i x c d) (h : d.offset ≠ c.offset) (more : Run i (.rep x) d e) :
    Run i (.rep x) c e
  | optNone {always : Bool} {x : Recognizer} {c d : Cursor} (h : x.recognize i c = (.miss, d)) :
    Run i (.opt always x) c d
  | optOne {always : Bool} {x : Recognizer} {c d : Cursor} (r : Run i x c d) : Run i (.opt always x) c d
  | annotate {k : Category} {x : Recognizer} {c d : Cursor} (r : Run i x c d) : Run i (.annotate k x) c d

/-- What a run is of: a node, or one of the loops that a node goes through. -/
inductive Task (E : Type) : Option Shape → Shape → Type
  | node {a : Option Shape} {t : Shape} (x : Node E a t) : Task E a t
  /-- As often as it matches. -/
  | loop {s : Shape} (x : Reducer E s s) : Task E (some s) s
  /-- So often and no more. -/
  | times {s : Shape} (n : Nat) (x : Reducer E s s) : Task E (some s) s
  /-- Separators with an element behind each. -/
  | tail {s : Shape} (separator : Recognizer) (x : Reducer E s s) : Task E (some s) s

/-- How a task, with so many levels of references, went from an accumulator and a cursor to a value and a cursor. -/
inductive Run (ds : Definitions E) (i : Input) (env : E) :
    Nat → {a : Option Shape} → {t : Shape} → Task E a t → Start a → Cursor → t.Carrier → Cursor → Type
  | scan {n : Nat} {t : Shape} {id : TokenId} {exclusive : Bool} {label : Option String}
    {m : Mapping E String t.Carrier} {c d : Cursor} {v : t.Carrier} (token : Token)
    (h : Cursor.accept i id exclusive c = (.hit token, d))
    (made : m.apply env (i.source.slice token.start token.stop) = .ok v) :
    Run ds i env n (.node (.scan id exclusive label m)) () c v d
  | initial {n : Nat} {t : Shape} {v : t.Carrier} {c : Cursor} : Run ds i env n (.node (.initial v)) () c v c
  | emptyList {n : Nat} {c : Cursor} : Run ds i env n (.node .emptyList) () c [] c
  /-- The target runs one level deeper. -/
  | ref {n : Nat} {t : Shape} {name : String} {p : Parser E t} {c d : Cursor} {v : t.Carrier}
    (target : ds.target t name = some p) (r : Run ds i env n (.node p) () { c with depth := c.depth + 1 } v d) :
    Run ds i env (n + 1) (.node (.ref name)) () c v d.leave
  | fold {n : Nat} {s u t : Shape} {p : Parser E u} {f : Fold E s.Carrier u.Carrier t.Carrier} {l : s.Carrier}
    {w : u.Carrier} {v : t.Carrier} {c d : Cursor} (r : Run ds i env n (.node p) () c w d)
    (made : f.apply env l w = .ok v) : Run ds i env n (.node (.fold p f)) l c v d
  | map {n : Nat} {s t : Shape} {m : Mapping E s.Carrier t.Carrier} {l : s.Carrier} {v : t.Carrier} {c : Cursor}
    (made : m.apply env l = .ok v) : Run ds i env n (.node (.map m)) l c v c
  | seq {n : Nat} {a : Option Shape} {s t : Shape} {b : Bool} {x : Node E a s} {y : Node E (some s) t} {l : Start a}
    {mid : s.Carrier} {v : t.Carrier} {c d e : Cursor} (rx : Run ds i env n (.node x) l c mid d)
    (ry : Run ds i env n (.node y) mid d v e) : Run ds i env n (.node (.seq b x y)) l c v e
  | before {n : Nat} {a : Option Shape} {t : Shape} {b : Bool} {q : Recognizer} {x : Node E a t} {l : Start a}
    {v : t.Carrier} {c d e : Cursor} (rq : q.Run i c d) (rx : Run ds i env n (.node x) l d v e) :
    Run ds i env n (.node (.before b q x)) l c v e
  | after {n : Nat} {a : Option Shape} {t : Shape} {b : Bool} {q : Recognizer} {x : Node E a t} {l : Start a}
    {v : t.Carrier} {c d e : Cursor} (rx : Run ds i env n (.node x) l c v d) (rq : q.Run i d e) :
    Run ds i env n (.node (.after b x q)) l c v e
  | first {n : Nat} {a : Option Shape} {t : Shape} {x y : Node E a t} {l : Start a} {v : t.Carrier} {c d : Cursor}
    (r : Run ds i env n (.node x) l c v d) : Run ds i env n (.node (.choice x y)) l c v d
  | second {n : Nat} {a : Option Shape} {t : Shape} {x y : Node E a t} {l : Start a} {v : t.Carrier}
    {c d e : Cursor} (h : x.parseAt ds i env n l c = (.miss, d)) (r : Run ds i env n (.node y) l d v e) :
    Run ds i env n (.node (.choice x y)) l c v e
  | rep {n : Nat} {s : Shape} {x : Reducer E s s} {l v : s.Carrier} {c d : Cursor}
    (r : Run ds i env n (.loop x) l c v d) : Run ds i env n (.node (.rep x)) l c v d
  | optNone {n : Nat} {s : Shape} {x : Reducer E s s} {l : s.Carrier} {c d : Cursor}
    (h : x.parseAt ds i env n l c = (.miss, d)) : Run ds i env n (.node (.opt x)) l c l d
  | optOne {n : Nat} {s : Shape} {x : Reducer E s s} {l v : s.Carrier} {c d : Cursor}
    (r : Run ds i env n (.node x) l c v d) : Run ds i env n (.node (.opt x)) l c v d
  | atLeast {n min : Nat} {s : Shape} {x : Reducer E s s} {l mid v : s.Carrier} {c d e : Cursor}
    (r : Run ds i env n (.times min x) l c mid d) (more : Run ds i env n (.loop x) mid d v e) :
    Run ds i env n (.node (.atLeast min x)) l c v e
  | joinNone {n : Nat} {s : Shape} {q : Recognizer} {x : Reducer E s s} {l : s.Carrier} {c d : Cursor}
    (h : x.parseAt ds i env n l c = (.miss, d)) : Run ds i env n (.node (.join false q x)) l c l d
  | join {n : Nat} {s : Shape} {nonEmpty : Bool} {q : Recognizer} {x : Reducer E s s} {l mid v : s.Carrier}
    {c d e : Cursor} (r : Run ds i env n (.node x) l c mid d) (more : Run ds i env n (.tail q x) mid d v e) :
    Run ds i env n (.node (.join nonEmpty q x)) l c v e
  | annotate {n : Nat} {a : Option Shape} {t : Shape} {k : Category} {x : Node E a t} {l : Start a} {v : t.Carrier}
    {c d : Cursor} (r : Run ds i env n (.node x) l c v d) : Run ds i env n (.node (.annotate k x)) l c v d
  | loopStop {n : Nat} {s : Shape} {x : Reducer E s s} {l : s.Carrier} {c d : Cursor}
    (h : x.parseAt ds i env n l c = (.miss, d)) : Run ds i env n (.loop x) l c l d
  | loopStill {n : Nat} {s : Shape} {x : Reducer E s s} {l v : s.Carrier} {c d : Cursor}
    (r : Run ds i env n (.node x) l c v d) (h : d.offset = c.offset) : Run ds i env n (.loop x) l c v d
  | loopMore {n : Nat} {s : Shape} {x : Reducer E s s} {l mid v : s.Carrier} {c d e : Cursor}
    (r : Run ds i env n (.node x) l c mid d) (h : d.offset ≠ c.offset) (more : Run ds i env n (.loop x) mid d v e) :
    Run ds i env n (.loop x) l c v e
  | timesDone {n : Nat} {s : Shape} {x : Reducer E s s} {l : s.Carrier} {c : Cursor} :
    Run ds i env n (.times 0 x) l c l c
  | timesMore {n k : Nat} {s : Shape} {x : Reducer E s s} {l mid v : s.Carrier} {c d e : Cursor}
    (r : Run ds i env n (.node x) l c mid d) (more : Run ds i env n (.times k x) mid d v e) :
    Run ds i env n (.times (k + 1) x) l c v e
  | tailStop {n : Nat} {s : Shape} {q : Recognizer} {x : Reducer E s s} {l : s.Carrier} {c d : Cursor}
    (h : q.recognize i c = (.miss, d)) : Run ds i env n (.tail q x) l c l d
  /-- A separator without an element behind it is given back, so it leaves no run. -/
  | tailGivenBack {n : Nat} {s : Shape} {q : Recognizer} {x : Reducer E s s} {l : s.Carrier} {c d e : Cursor}
    (hq : q.recognize i c = (.hit (), d)) (h : x.parseAt ds i env n l d = (.miss, e)) :
    Run ds i env n (.tail q x) l c l (e.goTo c.offset)
  | tailMore {n : Nat} {s : Shape} {q : Recognizer} {x : Reducer E s s} {l mid v : s.Carrier} {c d e f : Cursor}
    (rq : q.Run i c d) (r : Run ds i env n (.node x) l d mid e) (more : Run ds i env n (.tail q x) mid e v f) :
    Run ds i env n (.tail q x) l c v f

/-! ## Every match has a run -/

section Exists

variable {ds : Definitions E} {i : Input} {env : E} {n : Nat} {s : Shape}

theorem Recognizer.run_repeatFor {x : Recognizer}
    (ih : ∀ {c d : Cursor}, x.recognize i c = (.hit (), d) → Nonempty (x.Run i c d)) :
    ∀ (k : Nat) {c d : Cursor}, Step.repeatFor (fun _ => x.recognize i) k () c = (.hit (), d) →
      Nonempty ((Recognizer.rep x).Run i c d)
  | 0, _, _, h => by cases h
  | k + 1, c, e, h => by
    rcases Step.repeatFor_eq_hit.1 h with ⟨hx, -⟩ | ⟨hx, hd⟩ | ⟨_, d, hx, hd, hmore⟩
    · exact ⟨.repStop hx⟩
    · obtain ⟨r⟩ := ih hx
      exact ⟨.repStill r hd⟩
    · obtain ⟨r⟩ := ih hx
      obtain ⟨more⟩ := run_repeatFor ih k hmore
      exact ⟨.repMore r hd more⟩

theorem Recognizer.run_of_recognize : ∀ {x : Recognizer} {c d : Cursor}, x.recognize i c = (.hit (), d) →
    Nonempty (x.Run i c d)
  | .token id exclusive text, c, e, h => by
    obtain ⟨token, h, -⟩ := Step.map_eq_hit.1 h
    exact ⟨.token token h⟩
  | .seq b x y, c, f, h => by
    obtain ⟨_, d, hx, hy⟩ := Step.sequence_eq_hit.1 h
    obtain ⟨rx⟩ := run_of_recognize hx
    obtain ⟨ry⟩ := run_of_recognize hy
    exact ⟨.seq rx ry⟩
  | .choice x y, c, d, h => by
    rcases Step.orElse_eq_hit.1 h with h | ⟨d', hx, hy⟩
    · obtain ⟨r⟩ := run_of_recognize h
      exact ⟨.first r⟩
    · obtain ⟨r⟩ := run_of_recognize hy
      exact ⟨.second hx r⟩
  | .rep x, c, d, h => run_repeatFor (fun h => run_of_recognize h) (c.fuel + 1) h
  | .opt always x, c, d, h => by
    rcases Step.orElse_eq_hit.1 h with h | ⟨d', hx, hy⟩
    · obtain ⟨r⟩ := run_of_recognize h
      exact ⟨.optOne r⟩
    · cases hy
      exact ⟨.optNone hx⟩
  | .annotate k x, c, d, h => by
    obtain ⟨r⟩ := run_of_recognize (x := x) h
    exact ⟨.annotate r⟩

namespace Run

variable {x : Reducer E s s}
  (ih : ∀ {left : s.Carrier} {c : Cursor} {v : s.Carrier} {d : Cursor}, x.parseAt ds i env n left c = (.hit v, d) →
    Nonempty (Run ds i env n (.node x) left c v d))
include ih

theorem of_repeatFor : ∀ (k : Nat) {left v : s.Carrier} {c d : Cursor},
    Step.repeatFor (x.parseAt ds i env n) k left c = (.hit v, d) → Nonempty (Run ds i env n (.loop x) left c v d)
  | 0, _, _, _, _, h => by cases h
  | k + 1, left, v, c, e, h => by
    rcases Step.repeatFor_eq_hit.1 h with ⟨hx, rfl⟩ | ⟨hx, hd⟩ | ⟨mid, d, hx, hd, hmore⟩
    · exact ⟨.loopStop hx⟩
    · obtain ⟨r⟩ := ih hx
      exact ⟨.loopStill r hd⟩
    · obtain ⟨r⟩ := ih hx
      obtain ⟨more⟩ := of_repeatFor k hmore
      exact ⟨.loopMore r hd more⟩

theorem of_times : ∀ (k : Nat) {left v : s.Carrier} {c d : Cursor},
    Step.times (x.parseAt ds i env n) k left c = (.hit v, d) → Nonempty (Run ds i env n (.times k x) left c v d)
  | 0, _, _, _, _, h => by
    cases h
    exact ⟨.timesDone⟩
  | k + 1, left, v, c, e, h => by
    obtain ⟨mid, d, hx, h⟩ := Step.bind_eq_hit.1 h
    obtain ⟨r⟩ := ih hx
    obtain ⟨more⟩ := of_times k h
    exact ⟨.timesMore r more⟩

theorem of_joinFor {q : Recognizer} : ∀ (k : Nat) {left v : s.Carrier} {c d : Cursor},
    Step.joinFor (q.recognize i) (x.parseAt ds i env n) k left c = (.hit v, d) →
      Nonempty (Run ds i env n (.tail q x) left c v d)
  | 0, _, _, _, _, h => by cases h
  | k + 1, left, v, c, f, h => by
    rcases Step.joinFor_eq_hit.1 h with ⟨hq, rfl⟩ | ⟨d, hq, ⟨e, hx, rfl, rfl⟩ | ⟨mid, e, hx, hmore⟩⟩
    · exact ⟨.tailStop hq⟩
    · exact ⟨.tailGivenBack hq hx⟩
    · obtain ⟨rq⟩ := Recognizer.run_of_recognize hq
      obtain ⟨r⟩ := ih hx
      obtain ⟨more⟩ := of_joinFor k hmore
      exact ⟨.tailMore rq r more⟩

end Run

theorem Node.run_of_parseWith
    (href : ∀ {t : Shape} {name : String} {c d : Cursor} {v : t.Carrier}, ds.parseRef i env n t name c = (.hit v, d) →
      Nonempty (Run ds i env n (.node (.ref name)) () c v d))
    {a : Option Shape} {t : Shape} (x : Node E a t) : ∀ {left : Start a} {c : Cursor} {v : t.Carrier} {d : Cursor},
      x.parseAt ds i env n left c = (.hit v, d) → Nonempty (Run ds i env n (.node x) left c v d) := by
  induction x with
  | scan id exclusive label m =>
    intro left c v d h
    rw [parseAt_eq] at h
    obtain ⟨token, d', hc, h⟩ := Step.bind_eq_hit.1 h
    cases hm : m.apply env (i.source.slice token.start token.stop) with
    | error e => rw [hm] at h; cases h
    | ok w =>
      rw [hm] at h
      cases h
      exact ⟨.scan token hc hm⟩
  | initial value =>
    intro left c v d h
    rw [parseAt_eq] at h
    cases h
    exact ⟨.initial⟩
  | emptyList =>
    intro left c v d h
    rw [parseAt_eq] at h
    cases h
    exact ⟨.emptyList⟩
  | ref name =>
    intro left c v d h
    rw [parseAt_eq] at h
    exact href h
  | fold p f ih =>
    intro left c v d h
    rw [parseAt_eq] at h
    obtain ⟨right, d', hp, h⟩ := Step.bind_eq_hit.1 h
    rw [← parseAt_eq] at hp
    obtain ⟨r⟩ := ih hp
    cases hf : f.apply env left right with
    | error e => rw [hf] at h; cases h
    | ok w =>
      rw [hf] at h
      cases h
      exact ⟨.fold r hf⟩
  | map m =>
    intro left c v d h
    rw [parseAt_eq] at h
    have h : Step.still (.ofExcept (m.apply env left)) c = (.hit v, d) := h
    cases hm : m.apply env left with
    | error e => rw [hm] at h; cases h
    | ok w =>
      rw [hm] at h
      cases h
      exact ⟨.map hm⟩
  | seq b x y ihx ihy =>
    intro left c v d h
    rw [parseAt_eq] at h
    obtain ⟨mid, d', hx, hy⟩ := Step.sequence_eq_hit.1 h
    rw [← parseAt_eq] at hx hy
    obtain ⟨rx⟩ := ihx hx
    obtain ⟨ry⟩ := ihy hy
    exact ⟨.seq rx ry⟩
  | before b q x ih =>
    intro left c v d h
    rw [parseAt_eq] at h
    obtain ⟨_, d', hq, hx⟩ := Step.sequence_eq_hit.1 h
    rw [← parseAt_eq] at hx
    obtain ⟨rq⟩ := Recognizer.run_of_recognize hq
    obtain ⟨rx⟩ := ih hx
    exact ⟨.before rq rx⟩
  | after b x q ih =>
    intro left c v d h
    rw [parseAt_eq] at h
    obtain ⟨w, d', hx, h⟩ := Step.sequence_eq_hit.1 h
    obtain ⟨_, hq, rfl⟩ := Step.map_eq_hit.1 h
    rw [← parseAt_eq] at hx
    obtain ⟨rx⟩ := ih hx
    obtain ⟨rq⟩ := Recognizer.run_of_recognize hq
    exact ⟨.after rx rq⟩
  | choice x y ihx ihy =>
    intro left c v d h
    rw [parseAt_eq] at h
    rcases Step.orElse_eq_hit.1 h with hx | ⟨d', hx, hy⟩
    · rw [← parseAt_eq] at hx
      obtain ⟨r⟩ := ihx hx
      exact ⟨.first r⟩
    · rw [← parseAt_eq] at hx hy
      obtain ⟨r⟩ := ihy hy
      exact ⟨.second hx r⟩
  | rep x ih =>
    intro left c v d h
    rw [parseAt_eq, parseWith, ← parseAt_eq] at h
    obtain ⟨r⟩ := Run.of_repeatFor ih (c.fuel + 1) h
    exact ⟨.rep r⟩
  | opt x ih =>
    intro left c v d h
    rw [parseAt_eq] at h
    rcases Step.orElse_eq_hit.1 h with hx | ⟨d', hx, hy⟩
    · rw [← parseAt_eq] at hx
      obtain ⟨r⟩ := ih hx
      exact ⟨.optOne r⟩
    · rw [← parseAt_eq] at hx
      cases hy
      exact ⟨.optNone hx⟩
  | atLeast min x ih =>
    intro left c v e h
    rw [parseAt_eq, parseWith, ← parseAt_eq] at h
    obtain ⟨mid, d, hx, h⟩ := Step.atLeast_eq_hit.1 h
    obtain ⟨r⟩ := Run.of_times ih min hx
    obtain ⟨more⟩ := Run.of_repeatFor ih (d.fuel + 1) h
    exact ⟨.atLeast r more⟩
  | join nonEmpty q x ih =>
    intro left c v e h
    rw [parseAt_eq, parseWith, ← parseAt_eq] at h
    rcases Step.joined_eq_hit.1 h with ⟨hx, rfl, rfl⟩ | ⟨mid, d, hx, hmore⟩
    · exact ⟨.joinNone hx⟩
    · obtain ⟨r⟩ := ih hx
      obtain ⟨more⟩ := Run.of_joinFor ih (d.fuel + 1) hmore
      exact ⟨.join r more⟩
  | annotate k x ih =>
    intro left c v d h
    rw [parseAt_eq, parseWith, ← parseAt_eq] at h
    obtain ⟨r⟩ := ih h
    exact ⟨.annotate r⟩

/-- **Where a node matches there is a run of it.** -/
theorem Node.run_of_parse : ∀ (n : Nat) {a : Option Shape} {t : Shape} (x : Node E a t) {left : Start a} {c : Cursor}
    {v : t.Carrier} {d : Cursor}, x.parseAt ds i env n left c = (.hit v, d) →
    Nonempty (Run ds i env n (.node x) left c v d)
  | 0, _, _, x, _, _, _, _, h => by
    refine x.run_of_parseWith (fun {t name c d v} hr => ?_) h
    obtain ⟨p, run, e, -, hdeeper, -⟩ := Definitions.follow_eq_hit.1 hr
    cases hdeeper
  | n + 1, _, _, x, _, _, _, _, h => by
    refine x.run_of_parseWith (fun {t name c d v} hr => ?_) h
    obtain ⟨p, run, e, htarget, hdeeper, hp, rfl⟩ := Definitions.follow_eq_hit.1 hr
    cases hdeeper
    obtain ⟨r⟩ := p.run_of_parse n hp
    exact ⟨.ref htarget r⟩

end Exists
end Ambigram
