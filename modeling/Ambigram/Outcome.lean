import Ambigram.Error
/-!
# Outcomes

What a step of a grammar comes to: a match with its value, an ordinary non-match, or an error.  Only
a non-match lets another alternative be tried.
-/
namespace Ambigram

inductive Outcome (α : Type)
  | hit (a : α)
  | miss
  | fail (e : Error)
  deriving DecidableEq

namespace Outcome

variable {α β : Type}

def map (f : α → β) : Outcome α → Outcome β
  | .hit a => .hit (f a)
  | .miss => .miss
  | .fail e => .fail e

/-- Goes on from a match; a non-match and an error end here. -/
def andThen (o : Outcome α) (f : α → Outcome β) : Outcome β :=
  match o with
  | .hit a => f a
  | .miss => .miss
  | .fail e => .fail e

/-- Tries something else after a non-match only. -/
def orElse (o next : Outcome α) : Outcome α :=
  match o with
  | .miss => next
  | o => o

def ofOption : Option α → Outcome α
  | some a => .hit a
  | none => .miss

/-- A computation that must succeed: it matches or fails, and never misses. -/
def ofExcept : Except Error α → Outcome α
  | .ok a => .hit a
  | .error e => .fail e

/-- A computation that may find nothing. -/
def ofExceptOption : Except Error (Option α) → Outcome α
  | .ok a? => ofOption a?
  | .error e => .fail e

/-! ## What an outcome says -/

theorem map_eq_hit {f : α → β} {o : Outcome α} {b : β} : o.map f = .hit b ↔ ∃ a, o = .hit a ∧ f a = b := by
  cases o <;> simp [map]

theorem map_eq_fail {f : α → β} {o : Outcome α} {e : Error} : o.map f = .fail e ↔ o = .fail e := by
  cases o <;> simp [map]

theorem andThen_eq_hit {o : Outcome α} {f : α → Outcome β} {b : β} :
    o.andThen f = .hit b ↔ ∃ a, o = .hit a ∧ f a = .hit b := by
  cases o <;> simp [andThen]

theorem orElse_eq_hit {o next : Outcome α} {a : α} :
    o.orElse next = .hit a ↔ o = .hit a ∨ o = .miss ∧ next = .hit a := by
  cases o <;> simp [orElse]

theorem ofExcept_eq_hit {r : Except Error α} {a : α} : ofExcept r = .hit a ↔ r = .ok a := by
  cases r <;> simp [ofExcept]

theorem ofExceptOption_eq_hit {r : Except Error (Option α)} {a : α} : ofExceptOption r = .hit a ↔ r = .ok (some a) := by
  rcases r with _ | _ | _ <;> simp [ofExceptOption, ofOption]

end Outcome
end Ambigram
