import Ambigram.Outcome
/-!
# Outcomes that are alike

Two runs that differ in something that does not matter come to outcomes that differ in just that.  `Outcome.Alike`
holds two outcomes against each other, the values by one relation and the errors by another; a match is never alike to
a non-match or to an error.  It is kept by every way of putting outcomes together.
-/
namespace Ambigram

variable {α β γ δ : Type}

/-- Both match, or neither does, or both end in an error. -/
inductive Outcome.Alike (V : α → β → Prop) (P : Error → Error → Prop) : Outcome α → Outcome β → Prop
  | hit {a : α} {b : β} (h : V a b) : Alike V P (.hit a) (.hit b)
  | miss : Alike V P .miss .miss
  | fail {e e' : Error} (h : P e e') : Alike V P (.fail e) (.fail e')

namespace Outcome.Alike

variable {V : α → β → Prop} {W : γ → δ → Prop} {P : Error → Error → Prop} {o : Outcome α} {o' : Outcome β}

theorem refl {U : α → α → Prop} (hU : ∀ a, U a a) (hP : ∀ e, P e e) : ∀ o : Outcome α, Alike U P o o
  | .hit a => .hit (hU a)
  | .miss => .miss
  | .fail e => .fail (hP e)

theorem mono {V' : α → β → Prop} (h : Alike V P o o') (hV : ∀ a b, V a b → V' a b) : Alike V' P o o' := by
  cases h with
  | hit h => exact .hit (hV _ _ h)
  | miss => exact .miss
  | fail h => exact .fail h

theorem map {f : α → γ} {g : β → δ} (h : Alike V P o o') (hf : ∀ a b, V a b → W (f a) (g b)) :
    Alike W P (o.map f) (o'.map g) := by
  cases h with
  | hit h => exact .hit (hf _ _ h)
  | miss => exact .miss
  | fail h => exact .fail h

theorem mapLeft {f : α → γ} {U : γ → β → Prop} (h : Alike V P o o') (hf : ∀ a b, V a b → U (f a) b) :
    Alike U P (o.map f) o' := by
  cases h with
  | hit h => exact .hit (hf _ _ h)
  | miss => exact .miss
  | fail h => exact .fail h

theorem andThen {f : α → Outcome γ} {g : β → Outcome δ} (h : Alike V P o o')
    (hf : ∀ a b, V a b → Alike W P (f a) (g b)) : Alike W P (o.andThen f) (o'.andThen g) := by
  cases h with
  | hit h => exact hf _ _ h
  | miss => exact .miss
  | fail h => exact .fail h

theorem orElse {next : Outcome α} {next' : Outcome β} (h : Alike V P o o') (hnext : Alike V P next next') :
    Alike V P (o.orElse next) (o'.orElse next') := by
  cases h with
  | hit h => exact .hit h
  | miss => exact hnext
  | fail h => exact .fail h

end Outcome.Alike
end Ambigram
