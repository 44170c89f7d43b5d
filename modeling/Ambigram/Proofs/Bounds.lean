import Ambigram.Proofs.Following
import Ambigram.Regex.Meaning
/-!
# Bounds of repetitions

No repetition in a pattern that is read has its upper end below the lower one, which is all that a track asks of an
expression.  Bounds are written in braces and compared there; what the reader keeps open around a place only holds parts
that it has read before.
-/
namespace Ambigram

namespace Regex

/-! ## Parts -/

mutual
/-- No repetition in the part has its upper end below the lower one. -/
def Ast.Ordered : Ast → Prop
  | .times min max x => (∀ m ∈ max, min ≤ m) ∧ x.Ordered
  | .group _ x => x.Ordered
  | .alternation xs | .concat xs => Ast.AllOrdered xs
  | _ => True

def Ast.AllOrdered : List Ast → Prop
  | [] => True
  | x :: xs => x.Ordered ∧ Ast.AllOrdered xs
end

theorem Ast.allOrdered_iff : ∀ {xs : List Ast}, AllOrdered xs ↔ ∀ x ∈ xs, x.Ordered
  | [] => by simp [AllOrdered]
  | x :: xs => by rw [AllOrdered, allOrdered_iff, List.forall_mem_cons]

theorem Ast.ordered_ofParts : ∀ {xs : List Ast}, (∀ x ∈ xs, x.Ordered) → (ofParts xs).Ordered
  | [], _ => trivial
  | [x], h => h x (List.mem_singleton_self x)
  | _ :: _ :: _, h => allOrdered_iff.2 h

theorem ordered_mkTimes {min : Nat} {max : Option Nat} {r : Regex} (hmax : ∀ m ∈ max, min ≤ m) (hr : r.Ordered) :
    (mkTimes min max r).Ordered := by
  unfold mkTimes
  split
  · trivial
  · exact ⟨hmax, hr⟩

mutual
theorem Ast.ordered_of_meaning : ∀ (x : Ast) {flags flags' : Flags} {r : Regex}, x.Ordered →
    x.meaning flags = .ok (r, flags') → r.Ordered
  | .empty, _, _, _, _, h | .flags _, _, _, _, _, h | .assertion _, _, _, _, _, h => by
    cases h
    trivial
  | .literal c, _, _, _, _, h => by
    obtain ⟨r, hr, h⟩ := bind_eq_ok.1 h
    cases h
    unfold literalMeaning at hr
    split at hr
    · cases hr
      trivial
    split at hr
    · cases hr
    · cases hr
      trivial
  | .dot, _, _, _, _, h => by
    obtain ⟨r, hr, h⟩ := bind_eq_ok.1 h
    cases h
    unfold dotMeaning at hr
    split at hr
    · cases hr
    split at hr
    · cases hr
      trivial
    split at hr <;> cases hr <;> trivial
  | .property _ _, _, _, _, _, h | .letter _ _, _, _, _, _, h => by
    obtain ⟨s, -, h⟩ := bind_eq_ok.1 h
    cases h
    trivial
  | .bracketed _ _, _, _, _, _, h => by
    obtain ⟨_, -, h⟩ := bind_eq_ok.1 h
    obtain ⟨s, -, h⟩ := bind_eq_ok.1 h
    cases h
    trivial
  | .times min max x, _, _, _, hx, h => by
    obtain ⟨⟨r, flags⟩, hr, h⟩ := bind_eq_ok.1 h
    cases h
    exact ordered_mkTimes hx.1 (Ast.ordered_of_meaning x hx.2 hr)
  | .group _ x, _, _, _, hx, h => by
    obtain ⟨⟨r, flags⟩, hr, h⟩ := bind_eq_ok.1 h
    cases h
    exact Ast.ordered_of_meaning x hx hr
  | .alternation xs, _, _, _, hxs, h => Ast.ordered_of_alternatives xs hxs h
  | .concat xs, _, _, _, hxs, h => Ast.ordered_of_sequence xs hxs h

theorem Ast.ordered_of_alternatives : ∀ (xs : List Ast) {flags flags' : Flags} {r : Regex}, AllOrdered xs →
    alternatives flags xs = .ok (r, flags') → r.Ordered
  | [], _, _, _, _, h => by
    cases h
    trivial
  | [x], _, _, _, hxs, h => Ast.ordered_of_meaning x hxs.1 h
  | x :: y :: xs, _, _, _, hxs, h => by
    obtain ⟨⟨a, flags⟩, ha, h⟩ := bind_eq_ok.1 h
    obtain ⟨⟨b, flags'⟩, hb, h⟩ := bind_eq_ok.1 h
    cases h
    exact ⟨Ast.ordered_of_meaning x hxs.1 ha, Ast.ordered_of_alternatives (y :: xs) hxs.2 hb⟩

theorem Ast.ordered_of_sequence : ∀ (xs : List Ast) {flags flags' : Flags} {r : Regex}, AllOrdered xs →
    sequence flags xs = .ok (r, flags') → r.Ordered
  | [], _, _, _, _, h => by
    cases h
    trivial
  | x :: xs, _, _, _, hxs, h => by
    obtain ⟨⟨a, flags⟩, ha, h⟩ := bind_eq_ok.1 h
    obtain ⟨⟨b, flags'⟩, hb, h⟩ := bind_eq_ok.1 h
    cases h
    exact ⟨Ast.ordered_of_meaning x hxs.1 ha, Ast.ordered_of_sequence xs hxs.2 hb⟩
end

/-! ## Reading them -/

namespace Reader

/-- What is open around a place only holds parts with ordered bounds. -/
def Frame.Ordered : Frame → Prop
  | .group before _ _ => ∀ x ∈ before, x.Ordered
  | .branches done => ∀ x ∈ done, x.Ordered

structure State.Ordered (s : State) : Prop where
  stack : ∀ f ∈ s.stack, f.Ordered
  parts : ∀ x ∈ s.parts, x.Ordered

variable {free : Bool} {cs rest : List Char} {s s' : State}

/-- A class is no repetition. -/
theorem exists_of_readClassFrom :
    ∀ (n : Nat) {stack : List ClassFrame} {items : List SetAst} {cs rest : List Char} {x : Ast},
    readClassFrom free n stack items cs = .ok (x, rest) → ∃ negated inner, x = .bracketed negated inner
  | 0, _, _, _, _, _, h => by cases h
  | n + 1, stack, items, cs, rest, x, h => by
    unfold readClassFrom at h
    split at h
    · cases h
    · split at h
      · exact exists_of_readClassFrom n h
      · obtain ⟨⟨⟨negated, inner⟩, rest⟩, -, h⟩ := bind_eq_ok.1 h
        exact exists_of_readClassFrom n h
    · split at h
      · cases h
        exact ⟨_, _, rfl⟩
      · exact exists_of_readClassFrom n h
      · cases h
    · exact exists_of_readClassFrom n h
    · exact exists_of_readClassFrom n h
    · exact exists_of_readClassFrom n h
    · obtain ⟨⟨item, rest⟩, -, h⟩ := bind_eq_ok.1 h
      exact exists_of_readClassFrom n h

theorem ordered_of_readClass {x : Ast} (h : readClass free cs = .ok (x, rest)) : x.Ordered := by
  obtain ⟨⟨⟨negated, items⟩, rest⟩, -, h⟩ := bind_eq_ok.1 h
  obtain ⟨negated, inner, rfl⟩ := exists_of_readClassFrom _ h
  trivial

/-- However the upper end is written, the two are compared before the brace is closed. -/
theorem le_of_closed {least min : Nat} {most max : Option Nat} {cs : List Char} (h : (match cs with
      | '}' :: rest =>
        if most.any (· < least) then throw .repetitionCount else pure ((least, most), dropLazy (skip free rest))
      | _ => throw .repetitionCount) = (.ok ((min, max), rest) : Except Flaw _)) : ∀ m ∈ max, min ≤ m := by
  split at h
  · split at h
    · cases h
    · rename_i hany
      cases h
      rintro m rfl
      simpa using hany
  · cases h

/-- Bounds that are out of order are refused. -/
theorem le_of_readBounds {min : Nat} {max : Option Nat} (h : readBounds free cs = .ok ((min, max), rest)) :
    ∀ m ∈ max, min ≤ m := by
  obtain ⟨⟨least, cs⟩, -, h⟩ := bind_eq_ok.1 h
  dsimp only at h
  split at h
  · split at h
    · obtain ⟨most, -, h⟩ := bind_eq_ok.1 h
      exact le_of_closed h
    · obtain ⟨_, -, h⟩ := bind_eq_ok.1 h
      obtain ⟨most, -, h⟩ := bind_eq_ok.1 h
      exact le_of_closed h
  · obtain ⟨most, -, h⟩ := bind_eq_ok.1 h
    exact le_of_closed h

theorem ordered_of_repeatLast {parts parts' : List Ast} {min : Nat} {max : Option Nat} (hmax : ∀ m ∈ max, min ≤ m)
    (hparts : ∀ x ∈ parts, x.Ordered) (h : repeatLast parts min max = .ok parts') : ∀ x ∈ parts', x.Ordered := by
  unfold repeatLast at h
  split at h
  · cases h
  · cases h
  · cases h
  · cases h
    obtain ⟨hlast, hparts⟩ := List.forall_mem_cons.1 hparts
    exact List.forall_mem_cons.2 ⟨⟨hmax, hlast⟩, hparts⟩

theorem ordered_closeBranches {stack : List Frame} {parts : List Ast} (hstack : ∀ f ∈ stack, f.Ordered)
    (hparts : ∀ x ∈ parts, x.Ordered) :
    (∀ f ∈ (closeBranches stack parts).1, f.Ordered) ∧ (closeBranches stack parts).2.Ordered := by
  have hlast : (Ast.ofParts parts.reverse).Ordered := Ast.ordered_ofParts fun x hx => hparts x (List.mem_reverse.1 hx)
  unfold closeBranches
  split
  · rename_i done stack
    obtain ⟨hdone, hstack⟩ := List.forall_mem_cons.1 hstack
    refine ⟨hstack, Ast.allOrdered_iff.2 fun x hx => ?_⟩
    exact List.forall_mem_cons.2 ⟨hlast, hdone⟩ x (List.mem_reverse.1 hx)
  · exact ⟨hstack, hlast⟩

namespace State.Ordered

variable (hs : s.Ordered)
include hs

theorem push {x : Ast} (hx : x.Ordered) : { s with parts := x :: s.parts }.Ordered :=
  ⟨hs.stack, List.forall_mem_cons.2 ⟨hx, hs.parts⟩⟩

theorem closeGroup (h : closeGroup s = .ok s') : s'.Ordered := by
  obtain ⟨hstack, hinner⟩ := ordered_closeBranches hs.stack hs.parts
  unfold Reader.closeGroup at h
  split at h
  · rename_i hclose
    cases h
    rw [hclose] at hstack hinner
    obtain ⟨hbefore, hstack⟩ := List.forall_mem_cons.1 hstack
    exact ⟨hstack, List.forall_mem_cons.2 ⟨hinner, hbefore⟩⟩
  · cases h

theorem openGroup {opening : Opening} (h : openGroup s opening = .ok s') : s'.Ordered := by
  unfold Reader.openGroup at h
  split at h
  · cases h
    exact ⟨hs.stack, List.forall_mem_cons.2 ⟨trivial, hs.parts⟩⟩
  · dsimp only at h
    split at h
    · cases h
    · cases h
      exact ⟨List.forall_mem_cons.2 ⟨hs.parts, hs.stack⟩, nofun⟩

theorem nextBranch : (nextBranch s).Ordered := by
  have hlast : (Ast.ofParts s.parts.reverse).Ordered :=
    Ast.ordered_ofParts fun x hx => hs.parts x (List.mem_reverse.1 hx)
  have hstack := hs.stack
  unfold Reader.nextBranch
  dsimp only
  split
  · rename_i done stack heq
    rw [heq] at hstack
    obtain ⟨hdone, hstack⟩ := List.forall_mem_cons.1 hstack
    exact ⟨List.forall_mem_cons.2 ⟨List.forall_mem_cons.2 ⟨hlast, hdone⟩, hstack⟩, nofun⟩
  · exact ⟨List.forall_mem_cons.2 ⟨List.forall_mem_cons.2 ⟨hlast, nofun⟩, hstack⟩, nofun⟩

theorem repeatLast {min : Nat} {max : Option Nat} {parts : List Ast} (hmax : ∀ m ∈ max, min ≤ m)
    (h : repeatLast s.parts min max = .ok parts) : { s with parts }.Ordered :=
  ⟨hs.stack, ordered_of_repeatLast hmax hs.parts h⟩

/-- **Each part that is read leaves the bounds ordered.** -/
theorem readPart {c : Char} (h : readPart s c cs = .ok (s', rest)) : s'.Ordered := by
  unfold Reader.readPart at h
  dsimp only at h
  split at h
  · obtain ⟨⟨opening, rest⟩, -, h⟩ := bind_eq_ok.1 h
    obtain ⟨s', hopen, h⟩ := bind_eq_ok.1 h
    cases h
    exact hs.openGroup hopen
  · obtain ⟨s', hclose, h⟩ := bind_eq_ok.1 h
    cases h
    exact hs.closeGroup hclose
  · cases h
    exact hs.nextBranch
  · obtain ⟨⟨cls, rest⟩, hcls, h⟩ := bind_eq_ok.1 h
    cases h
    exact hs.push (ordered_of_readClass hcls)
  · obtain ⟨parts, hparts, h⟩ := bind_eq_ok.1 h
    cases h
    exact hs.repeatLast (by simp) hparts
  · obtain ⟨parts, hparts, h⟩ := bind_eq_ok.1 h
    cases h
    exact hs.repeatLast (by simp) hparts
  · obtain ⟨parts, hparts, h⟩ := bind_eq_ok.1 h
    cases h
    exact hs.repeatLast (by simp) hparts
  · obtain ⟨_, -, h⟩ := bind_eq_ok.1 h
    obtain ⟨⟨⟨min, max⟩, rest⟩, hbounds, h⟩ := bind_eq_ok.1 h
    obtain ⟨parts, hparts, h⟩ := bind_eq_ok.1 h
    cases h
    exact hs.repeatLast (le_of_readBounds hbounds) hparts
  · obtain ⟨⟨atom, rest⟩, -, h⟩ := bind_eq_ok.1 h
    cases h
    exact hs.push (by cases atom <;> trivial)
  all_goals
    cases h
    exact hs.push trivial

omit hs

theorem readAll : ∀ (n : Nat) {s s' : State} {cs : List Char}, s.Ordered → readAll n s cs = .ok s' → s'.Ordered
  | 0, _, _, _, hs, h => by
    cases h
    exact hs
  | n + 1, s, s', cs, hs, h => by
    unfold Reader.readAll at h
    split at h
    · cases h
      exact hs
    · obtain ⟨⟨s, rest⟩, hpart, h⟩ := bind_eq_ok.1 h
      exact readAll n (hs.readPart hpart) h

end State.Ordered
end Reader

theorem Ast.ordered_of_read {pattern : String} {x : Ast} (h : Ast.read pattern = .ok x) : x.Ordered := by
  obtain ⟨s, hs, h⟩ := bind_eq_ok.1 h
  have hordered : s.Ordered := Reader.State.Ordered.readAll _ ⟨List.forall_mem_nil _, List.forall_mem_nil _⟩ hs
  have hclose := Reader.ordered_closeBranches hordered.stack hordered.parts
  split at h
  · rename_i heq
    rw [heq] at hclose
    split at h
    · cases h
    · cases h
      exact hclose.2
  · cases h

/-- **Every expression that is read has its bounds in order.** -/
theorem ordered_of_read {pattern : String} {r : Regex} (h : read pattern = .ok r) : r.Ordered := by
  obtain ⟨x, hx, h⟩ := bind_eq_ok.1 h
  obtain ⟨⟨r, flags⟩, hr, h⟩ := bind_eq_ok.1 h
  cases h
  exact x.ordered_of_meaning (Ast.ordered_of_read hx) hr

end Regex
end Ambigram
