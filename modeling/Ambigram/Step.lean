import Ambigram.Cursor
/-!
# Steps

The ways in which steps are put together.  A step that misses is expected to leave the offset where it
was; `backtrack` and the sequences see to that for the steps they are made of.  Loops carry a bound that
is taken from the fuel: every turn but the last consumes a token, which costs fuel.
-/
namespace Ambigram
namespace Step

variable {α β : Type}

def hit (a : α) : Step α := fun c => (.hit a, c)

def miss : Step α := fun c => (.miss, c)

def fail (e : Error) : Step α := fun c => (.fail e, c)

/-- An outcome that does not move. -/
def still (o : Outcome α) : Step α := fun c => (o, c)

/-- Goes on from a match. -/
def bind (x : Step α) (f : α → Step β) : Step β := fun c =>
  match x c with
  | (.hit a, c) => f a c
  | (.miss, c) => (.miss, c)
  | (.fail e, c) => (.fail e, c)

def map (f : α → β) (x : Step α) : Step β := x.bind fun a => hit (f a)

/-- Keeps nothing of a match but that it happened. -/
def void (x : Step α) : Step Unit := x.map fun _ => ()

/-- After a non-match, goes back to the offset where the step began. -/
def backtrack (x : Step α) : Step α := fun c =>
  match x c with
  | (.miss, d) => (.miss, d.goTo c.offset)
  | r => r

/-- One step and then another.  If the second does not match after the first did, the whole goes back
and does not match, or, without `backtracks`, it is an error at the next token. -/
def sequence (i : Input) (backtracks : Bool) (expected : Unit → String) (x : Step α) (f : α → Step β) :
    Step β := fun c =>
  match x c with
  | (.hit a, d) =>
    match f a d with
    | (.miss, d) =>
      if backtracks then (.miss, d.goTo c.offset)
      else (.fail (.unexpectedInput (d.next i) (expected ())), d)
    | r => r
  | (.miss, d) => (.miss, d)
  | (.fail e, d) => (.fail e, d)

/-- The second step is tried after a non-match of the first only; an error ends the choice. -/
def orElse (x y : Step α) : Step α := fun c =>
  match x c with
  | (.miss, d) => y d
  | r => r

/-- At most one match; without one, the value stays as it was. -/
def optional (x : α → Step α) (a : α) : Step α := (x a).orElse (hit a)

/-- Matches as often as it can, and stops behind a match that did not move. -/
def repeatFor (x : α → Step α) : Nat → α → Step α
  | 0, _ => fail .fuelExhausted
  | n + 1, a => fun c =>
    match x a c with
    | (.hit b, d) => if d.offset = c.offset then (.hit b, d) else repeatFor x n b d
    | (.miss, d) => (.hit a, d)
    | (.fail e, d) => (.fail e, d)

def repeated (x : α → Step α) (a : α) : Step α := fun c => repeatFor x (c.fuel + 1) a c

/-- So many matches one after another. -/
def times (x : α → Step α) : Nat → α → Step α
  | 0, a => hit a
  | n + 1, a => (x a).bind (times x n)

/-- So many matches at least; fewer are none. -/
def atLeast (n : Nat) (x : α → Step α) (a : α) : Step α := ((times x n a).bind (repeated x)).backtrack

/-- Further matches with a separator in front of each.  A separator with no match behind it is given
back. -/
def joinFor (separator : Step Unit) (x : α → Step α) : Nat → α → Step α
  | 0, _ => fail .fuelExhausted
  | n + 1, a => fun c =>
    match separator c with
    | (.hit (), d) =>
      match x a d with
      | (.hit b, d) => joinFor separator x n b d
      | (.miss, d) => (.hit a, d.goTo c.offset)
      | (.fail e, d) => (.fail e, d)
    | (.miss, d) => (.hit a, d)
    | (.fail e, d) => (.fail e, d)

/-- Matches with separators between them; `nonEmpty` asks for one at least. -/
def joined (nonEmpty : Bool) (separator : Step Unit) (x : α → Step α) (a : α) : Step α := fun c =>
  match x a c with
  | (.hit b, d) => joinFor separator x (d.fuel + 1) b d
  | (.miss, d) => (if nonEmpty then .miss else .hit a, d)
  | (.fail e, d) => (.fail e, d)

/-- Runs a step one reference deeper. -/
def nested (x : Step α) : Step α := fun c =>
  let (o, d) := x { c with depth := c.depth + 1 }
  (o, d.leave)

/-! ## Laws -/

theorem hit_bind (a : α) (f : α → Step β) : (hit a).bind f = f a := rfl

theorem bind_hit (x : Step α) : x.bind hit = x := by
  funext c
  unfold bind
  rcases x c with ⟨o, d⟩
  cases o <;> rfl

theorem bind_assoc {γ : Type} (x : Step α) (f : α → Step β) (g : β → Step γ) :
    (x.bind f).bind g = x.bind fun a => (f a).bind g := by
  funext c
  unfold bind
  rcases x c with ⟨o, d⟩
  cases o <;> rfl

/-- The last of so many matches behind the others, instead of the first in front of them. -/
theorem times_succ (x : α → Step α) : ∀ (n : Nat) (a : α), times x (n + 1) a = (times x n a).bind x
  | 0, a => bind_hit (x a)
  | n + 1, a => by
    show (x a).bind (times x (n + 1)) = ((x a).bind (times x n)).bind x
    rw [bind_assoc]
    exact congrArg (x a).bind (funext (times_succ x n))

/-- Going back once more makes no difference. -/
theorem backtrack_bind (x : Step α) (f : α → Step β) : (x.backtrack.bind f).backtrack = (x.bind f).backtrack := by
  funext c
  rcases hx : x c with ⟨o, d⟩
  cases o with
  | hit _ | fail _ => simp only [backtrack, bind, hx]
  | miss =>
    simp only [backtrack, bind, hx]
    rfl

/-! ## What a match says -/

variable {x y : Step α} {f : α → Step β} {c d : Cursor} {a : α} {b : β}

theorem bind_eq_hit : x.bind f c = (.hit b, d) ↔ ∃ a c', x c = (.hit a, c') ∧ f a c' = (.hit b, d) := by
  unfold bind
  rcases x c with ⟨o, c'⟩
  cases o with
  | hit a =>
    constructor
    · intro h
      exact ⟨a, c', rfl, h⟩
    · rintro ⟨_, _, hx, h⟩
      cases hx
      exact h
  | miss => simp
  | fail e => simp

theorem map_eq_hit {g : α → β} : x.map g c = (.hit b, d) ↔ ∃ a, x c = (.hit a, d) ∧ g a = b := by
  unfold map
  rw [bind_eq_hit]
  constructor
  · rintro ⟨a, c', hx, h⟩
    cases h
    exact ⟨a, hx, rfl⟩
  · rintro ⟨a, hx, rfl⟩
    exact ⟨a, d, hx, rfl⟩

theorem backtrack_eq_hit : x.backtrack c = (.hit a, d) ↔ x c = (.hit a, d) := by
  unfold backtrack
  rcases x c with ⟨o, c'⟩
  cases o <;> simp

/-- Going back after a non-match makes no difference to a match. -/
theorem sequence_eq_hit {i : Input} {backtracks : Bool} {expected : Unit → String} :
    sequence i backtracks expected x f c = (.hit b, d) ↔ ∃ a c', x c = (.hit a, c') ∧ f a c' = (.hit b, d) := by
  have h : sequence i backtracks expected x f c = (.hit b, d) ↔ x.bind f c = (.hit b, d) := by
    unfold sequence bind
    rcases x c with ⟨o, c'⟩
    cases o with
    | hit a =>
      dsimp only
      rcases f a c' with ⟨p, c''⟩
      cases p with
      | miss => cases backtracks <;> simp
      | hit _ => exact Iff.rfl
      | fail _ => exact Iff.rfl
    | miss => exact Iff.rfl
    | fail e => exact Iff.rfl
  rw [h, bind_eq_hit]

theorem orElse_eq_hit :
    x.orElse y c = (.hit a, d) ↔ x c = (.hit a, d) ∨ ∃ c', x c = (.miss, c') ∧ y c' = (.hit a, d) := by
  unfold orElse
  rcases x c with ⟨o, c'⟩
  cases o <;> simp

variable {u : α → Step α} {q : Step Unit} {v : α} {n : Nat}

theorem repeatFor_eq_hit : repeatFor u (n + 1) a c = (.hit v, d) ↔
    u a c = (.miss, d) ∧ v = a ∨ u a c = (.hit v, d) ∧ d.offset = c.offset ∨
      ∃ b e, u a c = (.hit b, e) ∧ e.offset ≠ c.offset ∧ repeatFor u n b e = (.hit v, d) := by
  simp only [repeatFor]
  rcases u a c with ⟨o, e⟩
  cases o with
  | hit b =>
    dsimp only
    by_cases he : e.offset = c.offset
    · rw [if_pos he]
      constructor
      · intro h
        cases h
        exact .inr (.inl ⟨rfl, he⟩)
      · rintro (⟨h, -⟩ | ⟨h, -⟩ | ⟨b', e', h, hne, -⟩)
        · cases h
        · exact h
        · cases h
          exact absurd he hne
    · rw [if_neg he]
      constructor
      · intro h
        exact .inr (.inr ⟨b, e, rfl, he, h⟩)
      · rintro (⟨h, -⟩ | ⟨h, heq⟩ | ⟨b', e', h, -, hrest⟩)
        · cases h
        · cases h
          exact absurd heq he
        · cases h
          exact hrest
  | miss => simp [and_comm, eq_comm]
  | fail e => simp

theorem atLeast_eq_hit : atLeast n u a c = (.hit v, d) ↔
    ∃ b e, times u n a c = (.hit b, e) ∧ repeated u b e = (.hit v, d) :=
  backtrack_eq_hit.trans bind_eq_hit

/-- A separator with no match behind it is given back. -/
theorem joinFor_eq_hit : joinFor q u (n + 1) a c = (.hit v, d) ↔
    q c = (.miss, d) ∧ v = a ∨
      ∃ e, q c = (.hit (), e) ∧
        ((∃ e', u a e = (.miss, e') ∧ v = a ∧ d = e'.goTo c.offset) ∨
          ∃ b e', u a e = (.hit b, e') ∧ joinFor q u n b e' = (.hit v, d)) := by
  simp only [joinFor]
  rcases q c with ⟨o, e⟩
  cases o with
  | hit w =>
    dsimp only
    rcases hu : u a e with ⟨o', e'⟩
    cases o' with
    | hit b => simp [hu, and_assoc]
    | miss => simp [hu, eq_comm]
    | fail e'' => simp [hu]
  | miss => simp [and_comm, eq_comm]
  | fail e' => simp

theorem joined_eq_hit {nonEmpty : Bool} : joined nonEmpty q u a c = (.hit v, d) ↔
    u a c = (.miss, d) ∧ nonEmpty = false ∧ v = a ∨
      ∃ b e, u a c = (.hit b, e) ∧ joinFor q u (e.fuel + 1) b e = (.hit v, d) := by
  simp only [joined]
  rcases u a c with ⟨o, e⟩
  cases o with
  | hit b => simp [and_assoc]
  | miss => cases nonEmpty <;> simp [and_comm, eq_comm]
  | fail e' => simp

end Step
end Ambigram
