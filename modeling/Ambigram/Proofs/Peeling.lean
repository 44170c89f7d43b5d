import Ambigram.Grammar.Print
import Ambigram.Tree.Texts
/-!
# Peeling

Printing a repetition takes its elements off from the right, while their trees stand from left to right.
`Peeled` keeps the elements that were taken off with every accumulator in between; both ways of taking
elements off are described by it.
-/
namespace Ambigram
namespace Print

variable {α : Type} {element : α → Outcome (α × Tree)}

/-- From `left`, elements with these trees lead to a value, and each can be taken off again. -/
inductive Peeled (element : α → Outcome (α × Tree)) : α → List Tree → α → Prop
  | nil (v : α) : Peeled element v [] v
  | cons {left mid v : α} {t : Tree} {ts : List Tree} (head : element mid = .hit (left, t))
    (tail : Peeled element mid ts v) : Peeled element left (t :: ts) v

namespace Peeled

theorem append {left mid v : α} {ts us : List Tree} (h : Peeled element left ts mid) (k : Peeled element mid us v) :
    Peeled element left (ts ++ us) v := by
  induction h with
  | nil => exact k
  | cons head _ ih => exact .cons head (ih k)

theorem snoc {left mid v : α} {t : Tree} {ts : List Tree} (h : Peeled element left ts mid)
    (last : element v = .hit (mid, t)) : Peeled element left (ts ++ [t]) v :=
  h.append (.cons last (.nil v))

end Peeled

/-! ## Taking off -/

/-- Peeling ends where no element can be taken off. -/
theorem peel_eq_hit : ∀ {n : Nat} {v left : α} {acc trees : List Tree}, peel element n v acc = .hit (left, trees) →
    ∃ ts, trees = ts ++ acc ∧ Peeled element left ts v ∧ element left = .miss
  | 0, _, _, _, _, h => by cases h
  | n + 1, v, left, acc, trees, h => by
    unfold peel at h
    split at h
    · rename_i mid t hv
      obtain ⟨ts, rfl, hts, hleft⟩ := peel_eq_hit h
      exact ⟨ts ++ [t], by simp, hts.snoc hv, hleft⟩
    · rename_i hv
      cases h
      exact ⟨[], rfl, .nil v, hv⟩
    · cases h

theorem takeOff_eq_hit : ∀ {n : Nat} {v left : α} {tree : Tree}, takeOff element n v = .hit (left, tree) →
    ∃ ts : List Tree, ts.length = n ∧ tree.texts = ts.flatMap Tree.texts ∧ Peeled element left ts v
  | 0, v, _, _, h => by
    cases h
    exact ⟨[], rfl, rfl, .nil v⟩
  | n + 1, v, left, tree, h => by
    unfold takeOff at h
    obtain ⟨⟨mid, t⟩, hv, h⟩ := Outcome.andThen_eq_hit.1 h
    obtain ⟨⟨left', front⟩, hmid, h⟩ := Outcome.map_eq_hit.1 h
    cases h
    obtain ⟨ts, hlen, htexts, hts⟩ := takeOff_eq_hit hmid
    exact ⟨ts ++ [t], by simp [hlen], by simp [htexts], hts.snoc hv⟩

/-! ## Taking all of them off again

What was put on in order comes off from the other end, and the trees end up in the order of the elements. -/

namespace Peeled

variable {left v : α} {ts us : List Tree}

theorem peel_eq (h : Peeled element left ts v) : ∀ (n : Nat) (acc : List Tree),
    peel element (n + ts.length) v acc = peel element n left (ts ++ acc) := by
  induction h with
  | nil v => exact fun n acc => rfl
  | @cons left mid v t ts head _ ih =>
    intro n acc
    have hlen : n + (t :: ts).length = (n + 1) + ts.length := by
      rw [List.length_cons]
      omega
    rw [hlen, ih, peel, head]
    rfl

/-- All elements are taken off if there is a turn for each and one more, in which there is nothing left. -/
theorem peel_eq_hit (h : Peeled element left ts v) (hleft : element left = .miss) {n : Nat} (hn : ts.length < n) :
    peel element n v [] = .hit (left, ts) := by
  obtain ⟨k, rfl⟩ : ∃ k, n = (k + 1) + ts.length := ⟨n - ts.length - 1, by omega⟩
  rw [h.peel_eq, List.append_nil, peel, hleft]

/-- Behind the elements that were put on, taking off goes on with what they were put on. -/
theorem takeOff_add (h : Peeled element left ts v) : ∀ n : Nat,
    takeOff element (n + ts.length) v =
      (takeOff element n left).map fun (l, front) => (l, ts.foldl Tree.append front) := by
  induction h with
  | nil v =>
    intro n
    show takeOff element n v = _
    cases takeOff element n v <;> rfl
  | @cons left mid v t ts head _ ih =>
    intro n
    have hlen : n + (t :: ts).length = (n + 1) + ts.length := by
      rw [List.length_cons]
      omega
    have hmid : takeOff element (n + 1) mid = (takeOff element n left).map fun (l, front) => (l, front.append t) := by
      rw [takeOff, head]
      rfl
    rw [hlen, ih, hmid]
    cases takeOff element n left <;> rfl

theorem takeOff_eq_hit (h : Peeled element left ts v) :
    takeOff element ts.length v = .hit (left, ts.foldl Tree.append .empty) := by
  have hall := h.takeOff_add 0
  rwa [Nat.zero_add] at hall

/-- There are no more elements than were put on what has none. -/
theorem takeOff_eq_miss (h : Peeled element left ts v) (hleft : element left = .miss) {n : Nat} (hn : ts.length < n) :
    takeOff element n v = .miss := by
  obtain ⟨k, rfl⟩ : ∃ k, n = (k + 1) + ts.length := ⟨n - ts.length - 1, by omega⟩
  rw [h.takeOff_add, takeOff, hleft]
  rfl

theorem split : ∀ {ts : List Tree} {left : α}, Peeled element left (ts ++ us) v →
    ∃ mid, Peeled element left ts mid ∧ Peeled element mid us v
  | [], left, h => ⟨left, .nil left, h⟩
  | t :: ts, _, .cons head tail => by
    obtain ⟨mid, hts, hus⟩ := split tail
    exact ⟨mid, .cons head hts, hus⟩

end Peeled

end Print
end Ambigram
