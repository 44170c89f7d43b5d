import Ambigram.Proofs.Compounds
import Ambigram.Proofs.Taking
/-!
# What a run costs

Where it is known which lexemes come next, it is known how many attempts at tokens a run makes.  With so much fuel or
more it comes to its outcome, and spends just that; with less it runs out.
-/
namespace Ambigram

variable {E α β : Type} {i : Input}

/-! ## Steps -/

/-- Before these lexemes and the rest, the step comes to the outcome and before the rest for so much fuel, and runs out
of it with less. -/
def Step.Costs (i : Input) (cost : Nat) (x : Step α) (ls : List Lexeme) (o : Outcome α) (rest : List Lexeme) : Prop :=
  ∀ ⦃c⦄, c.Before i (ls ++ rest) →
    (cost ≤ c.fuel ∧ ∃ d, x c = (o, d) ∧ d.Before i rest ∧ d.fuel + cost = c.fuel) ∨
    (c.fuel < cost ∧ ∃ d, x c = (.fail .fuelExhausted, d))

namespace Step.Costs

variable {m n : Nat} {x y : Step α} {f : α → Step β} {ls ls' rest : List Lexeme} {a : α} {o : Outcome α} {p : Outcome β}
  {e : Error}

theorem still (o : Outcome α) : Costs i 0 (Step.still o) [] o rest :=
  fun c hc => .inl ⟨Nat.zero_le _, c, rfl, hc, rfl⟩

/-! ### One step after another

A step that does nothing itself costs what it is made of.  What is left of the fuel behind the first part decides on the
second one. -/

/-- The step comes to its outcome where another one comes to its own, and runs out where that one does. -/
theorem of_part (hx : Costs i m x ls o rest) {y : Step β} (hy : ∀ {c d}, x c = (o, d) → y c = (p, d))
    (hspent : ∀ {c d}, x c = (.fail .fuelExhausted, d) → y c = (.fail .fuelExhausted, d)) : Costs i m y ls p rest := by
  intro c hc
  obtain ⟨hfuel, d, hd, hrest, hcost⟩ | ⟨hfuel, d, hd⟩ := hx hc
  · exact .inl ⟨hfuel, d, hy hd, hrest, hcost⟩
  · exact .inr ⟨hfuel, d, hspent hd⟩

/-- The same for a step that is made of two. -/
theorem of_parts (hx : Costs i m x ls o (ls' ++ rest)) {y z : Step β} (hy : Costs i n y ls' p rest)
    (hspent : ∀ {c d}, x c = (.fail .fuelExhausted, d) → z c = (.fail .fuelExhausted, d))
    (hz : ∀ {c d e q}, q = p ∨ q = .fail .fuelExhausted → x c = (o, d) → y d = (q, e) → z c = (q, e)) :
    Costs i (m + n) z (ls ++ ls') p rest := by
  intro c hc
  rw [List.append_assoc] at hc
  obtain ⟨hfuel, d, hd, hrest, hcost⟩ | ⟨hfuel, d, hd⟩ := hx hc
  · obtain ⟨hfuel', e, he, hrest', hcost'⟩ | ⟨hfuel', e, he⟩ := hy hrest
    · exact .inl ⟨by omega, e, hz (.inl rfl) hd he, hrest', by omega⟩
    · exact .inr ⟨by omega, e, hz (.inr rfl) hd he⟩
  · exact .inr ⟨by omega, d, hspent hd⟩

theorem bind_still (hx : Costs i m x ls (.hit a) rest) (hf : f a = Step.still p) : Costs i m (x.bind f) ls p rest := by
  refine hx.of_part (fun h => ?_) fun h => by simp only [Step.bind, h]
  simp only [Step.bind, h, hf, Step.still]

theorem bind_miss (hx : Costs i m x [] .miss rest) : Costs i m (x.bind f) [] .miss rest :=
  hx.of_part (fun h => by simp only [Step.bind, h]) fun h => by simp only [Step.bind, h]

section Sequence

variable {back : Bool} {expected : Unit → String}

theorem sequence (hx : Costs i m x ls (.hit a) (ls' ++ rest)) (hf : Costs i n (f a) ls' p rest) (hp : p ≠ .miss) :
    Costs i (m + n) (Step.sequence i back expected x f) (ls ++ ls') p rest := by
  refine hx.of_parts hf (fun h => by simp only [Step.sequence, h]) fun {c d e q} hq hd he => ?_
  have hmiss : q ≠ .miss := by
    obtain rfl | rfl := hq
    · exact hp
    · simp
  simp only [Step.sequence, hd, he]
  cases q with
  | miss => exact absurd rfl hmiss
  | hit _ | fail _ => rfl

theorem sequence_miss (hx : Costs i m x [] .miss rest) : Costs i m (Step.sequence i back expected x f) [] .miss rest :=
  hx.of_part (fun h => by simp only [Step.sequence, h]) fun h => by simp only [Step.sequence, h]

theorem sequence_fail (hx : Costs i m x ls (.fail e) rest) :
    Costs i m (Step.sequence i back expected x f) ls (.fail e) rest :=
  hx.of_part (fun h => by simp only [Step.sequence, h]) fun h => by simp only [Step.sequence, h]

end Sequence

theorem orElse_left (hx : Costs i m x ls o rest) (ho : o ≠ .miss) : Costs i m (x.orElse y) ls o rest := by
  refine hx.of_part (fun h => ?_) fun h => by simp only [Step.orElse, h]
  simp only [Step.orElse, h]
  cases o with
  | miss => exact absurd rfl ho
  | hit _ | fail _ => rfl

theorem orElse_right (hx : Costs i m x [] .miss (ls ++ rest)) (hy : Costs i n y ls o rest) :
    Costs i (m + n) (x.orElse y) ls o rest :=
  hx.of_parts hy (fun h => by simp only [Step.orElse, h]) fun _ hd he => by simp only [Step.orElse, hd, he]

theorem nested (hx : Costs i m x ls o rest) : Costs i m x.nested ls o rest := by
  intro c hc
  have hdeeper : ({ c with depth := c.depth + 1 } : Cursor).Before i (ls ++ rest) := hc.of_offset rfl
  unfold Step.nested
  obtain ⟨hfuel, d, hd, hrest, hcost⟩ | ⟨hfuel, d, hd⟩ := hx hdeeper
  · rw [hd]
    exact .inl ⟨hfuel, d.leave, rfl, hrest.of_offset rfl, hcost⟩
  · rw [hd]
    exact .inr ⟨hfuel, d.leave, rfl⟩

/-! ### Joins

A loop has a bound of turns that is taken from the fuel; what it costs does not depend on it. -/

section Joins

variable {separator : Step Unit} {u : α → Step α} {b v : α} {k : Nat} {ls'' : List Lexeme}

/-- The turns of a join behind an element, under any bound that the fuel is below. -/
def Tail (i : Input) (cost : Nat) (separator : Step Unit) (u : α → Step α) (a : α) (ls : List Lexeme) (o : Outcome α)
    (rest : List Lexeme) : Prop :=
  ∀ bound, ∀ ⦃c⦄, c.fuel < bound → c.Before i (ls ++ rest) →
    (cost ≤ c.fuel ∧ ∃ d, Step.joinFor separator u bound a c = (o, d) ∧ d.Before i rest ∧ d.fuel + cost = c.fuel) ∨
    (c.fuel < cost ∧ ∃ d, Step.joinFor separator u bound a c = (.fail .fuelExhausted, d))

theorem tail_stop (hseparator : Costs i m separator [] .miss rest) : Tail i m separator u a [] (.hit a) rest := by
  intro bound c hbound hc
  obtain ⟨bound, rfl⟩ : ∃ n, bound = n + 1 := ⟨bound - 1, by omega⟩
  unfold Step.joinFor
  obtain ⟨hfuel, d, hd, hrest, hcost⟩ | ⟨hfuel, d, hd⟩ := hseparator hc
  · rw [hd]
    exact .inl ⟨hfuel, d, rfl, hrest, hcost⟩
  · rw [hd]
    exact .inr ⟨hfuel, d, rfl⟩

theorem tail_more (hseparator : Costs i m separator ls (.hit ()) (ls' ++ (ls'' ++ rest)))
    (hu : Costs i n (u a) ls' (.hit b) (ls'' ++ rest)) (hpaid : 0 < m) (htail : Tail i k separator u b ls'' o rest) :
    Tail i (m + n + k) separator u a (ls ++ (ls' ++ ls'')) o rest := by
  intro bound c hbound hc
  rw [List.append_assoc, List.append_assoc] at hc
  obtain ⟨bound, rfl⟩ : ∃ n, bound = n + 1 := ⟨bound - 1, by omega⟩
  unfold Step.joinFor
  obtain ⟨hfuel, d, hd, hrest, hcost⟩ | ⟨hfuel, d, hd⟩ := hseparator hc
  · rw [hd]
    dsimp only
    obtain ⟨hfuel', d', hd', hrest', hcost'⟩ | ⟨hfuel', d', hd'⟩ := hu hrest
    · rw [hd']
      dsimp only
      obtain ⟨hfuel'', e, he, hend, hcost''⟩ | ⟨hfuel'', e, he⟩ := htail bound (by omega) hrest'
      · exact .inl ⟨by omega, e, he, hend, by omega⟩
      · exact .inr ⟨by omega, e, he⟩
    · rw [hd']
      exact .inr ⟨by omega, d', rfl⟩
  · rw [hd]
    exact .inr ⟨by omega, d, rfl⟩

theorem joined {nonEmpty : Bool} (hu : Costs i m (u a) ls (.hit b) (ls' ++ rest))
    (htail : Tail i n separator u b ls' o rest) :
    Costs i (m + n) (Step.joined nonEmpty separator u a) (ls ++ ls') o rest := by
  have hturns : Costs i n (fun d => Step.joinFor separator u (d.fuel + 1) b d) ls' o rest :=
    fun c hc => htail _ (Nat.lt_succ_self c.fuel) hc
  refine hu.of_parts hturns (fun h => by simp only [Step.joined, h]) fun _ hd he => ?_
  simp only [Step.joined, hd]
  exact he

theorem joined_none (hu : Costs i m (u a) [] .miss rest) : Costs i m (Step.joined false separator u a) [] (.hit a) rest :=
  hu.of_part (fun h => by simp only [Step.joined, h, Bool.false_eq_true, if_false]) fun h => by simp only [Step.joined, h]

end Joins

/-! ### Tokens -/

section Tokens

variable (hi : i.WellFormed) {k : Nat} {l : Lexeme}
include hi

theorem accept_bind {g : Token → Step β} (hk : k ∈ l.tokens)
    (hg : ∀ token : Token, i.source.slice token.start token.stop = l.text → Costs i m (g token) ls p rest) :
    Costs i (m + 1) ((Cursor.accept i (.pattern k) false).bind g) (l :: ls) p rest := by
  intro c hc
  unfold Step.bind
  cases hfuel : c.fuel with
  | zero =>
    rw [Cursor.accept_spent hfuel]
    exact .inr ⟨Nat.succ_pos m, c, rfl⟩
  | succ fuel =>
    obtain ⟨token, d, hd, htext, hrest, hleft⟩ := hc.accept_eq_hit hi hk hfuel
    rw [hd]
    obtain ⟨hfuel', d', hd', hrest', hcost'⟩ | ⟨hfuel', d', hd'⟩ := hg token htext hrest
    · exact .inl ⟨by omega, d', hd', hrest', by omega⟩
    · exact .inr ⟨by omega, d', hd'⟩

theorem accept_miss (hk : NotNext k rest) : Costs i 1 (Cursor.accept i (.pattern k) false) [] .miss rest := by
  intro c hc
  cases hfuel : c.fuel with
  | zero =>
    rw [Cursor.accept_spent hfuel]
    exact .inr ⟨Nat.one_pos, c, rfl⟩
  | succ fuel =>
    rw [hc.accept_eq_miss hi hk hfuel]
    exact .inl ⟨Nat.succ_le_succ (Nat.zero_le fuel), _, rfl, hc.of_offset rfl, rfl⟩

end Tokens
end Step.Costs

/-! ## Nodes -/

variable {ds : Definitions E} {env : E} {a : Option Shape} {s t : Shape}

/-- What matching the recognizer costs. -/
def Recognizer.Costs (i : Input) (cost : Nat) (x : Recognizer) (ls : List Lexeme) (o : Outcome Unit)
    (rest : List Lexeme) : Prop :=
  Step.Costs i cost (x.recognize i) ls o rest

/-- What parsing the node costs with so many more levels of references. -/
def Node.Costs (ds : Definitions E) (i : Input) (env : E) (level cost : Nat) (x : Node E a t) (left : Start a)
    (ls : List Lexeme) (o : Outcome t.Carrier) (rest : List Lexeme) : Prop :=
  Step.Costs i cost (x.parseAt ds i env level left) ls o rest

namespace Recognizer.Costs

variable {k : Nat} {l : Lexeme} {rest : List Lexeme} {text : String}

theorem token (hi : i.WellFormed) (hk : k ∈ l.tokens) : Costs i 1 (.token (.pattern k) false text) [l] (.hit ()) rest :=
  Step.Costs.accept_bind hi hk fun _ _ => .still _

theorem token_miss (hi : i.WellFormed) (hk : NotNext k rest) : Costs i 1 (.token (.pattern k) false text) [] .miss rest :=
  (Step.Costs.accept_miss hi hk).bind_miss

end Recognizer.Costs

namespace Node.Costs

variable {level m n : Nat} {left : Start a} {ls ls' rest : List Lexeme}
variable {o : Outcome t.Carrier} {v : t.Carrier} {e : Error}

theorem congr {x : Node E a t} (h : x.Costs ds i env level m left ls o rest) (hm : m = n) (hls : ls = ls') :
    x.Costs ds i env level n left ls' o rest := hm ▸ hls ▸ h

theorem initial : (Node.initial v).Costs ds i env level 0 () [] (.hit v) rest := by
  unfold Costs
  rw [parseAt_eq]
  exact .still _

theorem map {f : Mapping E s.Carrier t.Carrier} {left : s.Carrier} (made : f.apply env left = .ok v) :
    (Node.map f).Costs ds i env level 0 left [] (.hit v) rest := by
  unfold Costs
  rw [parseAt_eq]
  show Step.Costs i 0 (Step.still (.ofExcept (f.apply env left))) [] (.hit v) rest
  rw [made]
  exact .still _

theorem emptyList : Node.emptyList.Costs ds i env level 0 () [] (.hit []) rest := by
  unfold Costs
  rw [parseAt_eq]
  exact .still _

section Scans

variable {k : Nat} {l : Lexeme} {label : Option String} {f : Mapping E String t.Carrier}

theorem scan (hi : i.WellFormed) (hk : k ∈ l.tokens) (made : f.apply env l.text = .ok v) :
    (Node.scan (.pattern k) false label f).Costs ds i env level 1 () [l] (.hit v) rest := by
  unfold Costs
  rw [parseAt_eq]
  refine Step.Costs.accept_bind hi hk fun token htext => ?_
  rw [htext, made]
  exact .still _

theorem scan_miss (hi : i.WellFormed) (hk : NotNext k rest) :
    (Node.scan (.pattern k) false label f).Costs ds i env level 1 () [] .miss rest := by
  unfold Costs
  rw [parseAt_eq]
  exact (Step.Costs.accept_miss hi hk).bind_miss

end Scans

section Folds

variable {u : Shape} {p : Parser E u} {f : Fold E s.Carrier u.Carrier t.Carrier} {left : s.Carrier} {right : u.Carrier}

theorem fold (h : p.Costs ds i env level m () ls (.hit right) rest) (made : f.apply env left right = .ok v) :
    (Node.fold p f).Costs ds i env level m left ls (.hit v) rest := by
  unfold Costs at *
  rw [parseAt_eq] at *
  exact h.bind_still (by rw [made]; rfl)

theorem fold_miss (h : p.Costs ds i env level m () [] .miss rest) :
    (Node.fold p f).Costs ds i env level m left [] .miss rest := by
  unfold Costs at *
  rw [parseAt_eq] at *
  exact h.bind_miss

end Folds

section References

variable {name : String} {p : Parser E t}

theorem ref (target : ds.target t name = some p) (h : p.Costs ds i env level m () ls o rest) :
    (Node.ref name).Costs ds i env (level + 1) m () ls o rest := by
  have hstep : (Node.ref name).parseAt ds i env (level + 1) () = (p.parseAt ds i env level ()).nested := by
    show ds.follow t name _ = _
    simp only [Definitions.follow, target]
  unfold Costs
  rw [hstep]
  exact h.nested

/-- Without a level that is left, a reference is refused for nothing. -/
theorem ref_refused (target : ds.target t name = some p) :
    (Node.ref name : Parser E t).Costs ds i env 0 0 () [] (.fail .recursionLimit) rest := by
  have hstep : (Node.ref name : Parser E t).parseAt ds i env 0 () = Step.still (.fail .recursionLimit) := by
    show ds.follow t name none = _
    simp only [Definitions.follow, target]
    rfl
  unfold Costs
  rw [hstep]
  exact .still _

end References

section Sequences

variable {b : Bool}

theorem seq {x : Node E a s} {y : Node E (some s) t} {mid : s.Carrier}
    (hx : x.Costs ds i env level m left ls (.hit mid) (ls' ++ rest)) (hy : y.Costs ds i env level n mid ls' o rest)
    (ho : o ≠ .miss) : (Node.seq b x y).Costs ds i env level (m + n) left (ls ++ ls') o rest := by
  unfold Costs at *
  rw [parseAt_eq] at *
  exact hx.sequence hy ho

theorem seq_miss {x : Node E a s} {y : Node E (some s) t} (hx : x.Costs ds i env level m left [] .miss rest) :
    (Node.seq b x y).Costs ds i env level m left [] .miss rest := by
  unfold Costs at *
  rw [parseAt_eq] at *
  exact hx.sequence_miss

theorem seq_fail {x : Node E a s} {y : Node E (some s) t} (hx : x.Costs ds i env level m left ls (.fail e) rest) :
    (Node.seq b x y).Costs ds i env level m left ls (.fail e) rest := by
  unfold Costs at *
  rw [parseAt_eq] at *
  exact hx.sequence_fail

variable {q : Recognizer} {x : Node E a t}

theorem before (hq : q.Costs i m ls (.hit ()) (ls' ++ rest)) (hx : x.Costs ds i env level n left ls' o rest)
    (ho : o ≠ .miss) : (Node.before b q x).Costs ds i env level (m + n) left (ls ++ ls') o rest := by
  unfold Costs at *
  rw [parseAt_eq] at *
  exact hq.sequence hx ho

theorem before_miss (hq : q.Costs i m [] .miss rest) :
    (Node.before b q x).Costs ds i env level m left [] .miss rest := by
  unfold Costs
  rw [parseAt_eq]
  exact Step.Costs.sequence_miss hq

theorem after (hx : x.Costs ds i env level m left ls (.hit v) (ls' ++ rest)) (hq : q.Costs i n ls' (.hit ()) rest) :
    (Node.after b x q).Costs ds i env level (m + n) left (ls ++ ls') (.hit v) rest := by
  unfold Costs at *
  rw [parseAt_eq] at *
  exact hx.sequence (Step.Costs.bind_still hq rfl) (by simp)

theorem after_miss (hx : x.Costs ds i env level m left [] .miss rest) :
    (Node.after b x q).Costs ds i env level m left [] .miss rest := by
  unfold Costs at *
  rw [parseAt_eq] at *
  exact hx.sequence_miss

theorem after_fail (hx : x.Costs ds i env level m left ls (.fail e) rest) :
    (Node.after b x q).Costs ds i env level m left ls (.fail e) rest := by
  unfold Costs at *
  rw [parseAt_eq] at *
  exact hx.sequence_fail

end Sequences

section Choices

variable {x y : Node E a t}

theorem first (hx : x.Costs ds i env level m left ls o rest) (ho : o ≠ .miss) :
    (Node.choice x y).Costs ds i env level m left ls o rest := by
  unfold Costs at *
  rw [parseAt_eq] at *
  exact hx.orElse_left ho

theorem second (hx : x.Costs ds i env level m left [] .miss (ls ++ rest))
    (hy : y.Costs ds i env level n left ls o rest) :
    (Node.choice x y).Costs ds i env level (m + n) left ls o rest := by
  unfold Costs at *
  rw [parseAt_eq] at *
  exact hx.orElse_right hy

end Choices

section Joins

variable {nonEmpty : Bool} {q : Recognizer} {x : Reducer E s s} {left v : s.Carrier} {o : Outcome s.Carrier}

theorem join (hx : x.Costs ds i env level m left ls (.hit v) (ls' ++ rest))
    (htail : Step.Costs.Tail i n (q.recognize i) (x.parseAt ds i env level) v ls' o rest) :
    (Node.join nonEmpty q x).Costs ds i env level (m + n) left (ls ++ ls') o rest := by
  unfold Costs at *
  rw [parseAt_eq] at *
  exact hx.joined htail

theorem join_none (hx : x.Costs ds i env level m left [] .miss rest) :
    (Node.join false q x).Costs ds i env level m left [] (.hit left) rest := by
  unfold Costs at *
  rw [parseAt_eq] at *
  exact hx.joined_none

end Joins
end Node.Costs

/-! ## Whole sources -/

section Sources

variable (hi : i.WellFormed) {p : Parser E t} {limits : Limits} {cost : Nat} {ls rest : List Lexeme}
include hi

theorem Node.Costs.parseRest_eq_ok {v : t.Carrier}
    (h : p.Costs ds i env limits.depth cost () ls (.hit v) []) (hlexing : i.lexing = ⟨ls, true⟩) :
    (cost ≤ limits.fuel ∧ ∃ d, p.parseRest ⟨ds, env, i, limits.depth⟩ (.start limits) = (.ok v, d) ∧
      d.fuel + cost = limits.fuel) ∨
    (limits.fuel < cost ∧ ∃ d, p.parseRest ⟨ds, env, i, limits.depth⟩ (.start limits) = (.error .fuelExhausted, d)) := by
  have hstart : (Cursor.start limits).Before i (ls ++ []) := ⟨Nat.zero_le _, (List.append_nil ls).symm ▸ hlexing⟩
  have hparse : p.parse ⟨ds, env, i, limits.depth⟩ () (.start limits) =
      p.parseAt ds i env limits.depth () (.start limits) := rfl
  unfold Node.parseRest
  rw [hparse]
  obtain ⟨hfuel, d, hd, hrest, hcost⟩ | ⟨hfuel, d, hd⟩ := h hstart
  · rw [hd]
    exact .inl ⟨hfuel, d, if_pos (decide_eq_true (hrest.atEnd hi).2), hcost⟩
  · rw [hd]
    exact .inr ⟨hfuel, d, rfl⟩

omit hi in
theorem Node.Costs.parseRest_eq_error {e : Error}
    (h : p.Costs ds i env limits.depth cost () ls (.fail e) rest) (hlexing : i.lexing = ⟨ls ++ rest, true⟩)
    (hfuel : cost ≤ limits.fuel) :
    ∃ d, p.parseRest ⟨ds, env, i, limits.depth⟩ (.start limits) = (.error e, d) ∧ d.fuel + cost = limits.fuel := by
  have hparse : p.parse ⟨ds, env, i, limits.depth⟩ () (.start limits) =
      p.parseAt ds i env limits.depth () (.start limits) := rfl
  unfold Node.parseRest
  rw [hparse]
  obtain ⟨-, d, hd, -, hcost⟩ | ⟨hless, -⟩ := h (c := .start limits) ⟨Nat.zero_le _, hlexing⟩
  · rw [hd]
    exact ⟨d, rfl, hcost⟩
  · exact absurd hfuel (Nat.not_le_of_lt hless)

/-- However a source is parsed, the depth is the one from before. -/
theorem Node.parseRest_depth {s : Setting E} (hs : s.input = i) (c : Cursor) : (p.parseRest s c).2.depth = c.depth := by
  subst hs
  have hdepth := ((p.parse_tame hi ()).follows c).depth
  unfold parseRest
  rcases hp : p.parse s () c with ⟨o, d⟩
  rw [hp] at hdepth
  cases o with
  | hit v =>
    dsimp only
    split <;> exact hdepth
  | miss | fail _ => exact hdepth

end Sources
end Ambigram
