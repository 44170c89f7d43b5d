import Ambigram.Proofs.Discipline
import Ambigram.Proofs.Run
import Ambigram.Tree.Texts
/-!
# What a run consumed

The tokens of a run are the tokens that its own steps took; a step that was given up is not in the run, so it
has none to add.  They cover the stretch from where the run began to where it ended: behind one another, with
nothing but trivia in front of each.
-/
namespace Ambigram

variable {E : Type}

/-! ## Stretches of an input -/

namespace Source

theorem slice_append (s : Source) {a b c : Nat} (hab : a ≤ b) (hbc : b ≤ c) :
    s.slice a b ++ s.slice b c = s.slice a c := by
  unfold slice
  rw [← String.ofList_append, ← List.filterMap_append, ← Array.toList_append, Array.extract_append_extract,
    Nat.min_eq_left hab, Nat.max_eq_right hbc]

theorem slice_self (s : Source) (a : Nat) : s.slice a a = "" := by
  unfold slice
  rw [Array.extract_eq_empty_of_le (by omega)]
  rfl

theorem slice_ne_empty {s : Source} {a b : Nat} (h : s.Stretch a b) (hab : a < b) : s.slice a b ≠ "" := by
  obtain ⟨c, hc⟩ := h.exists_at? hab
  have hfirst : some c ∈ s.cells.extract a b := by
    have hcell : s.cells[a]? = some (some c) := Option.join_eq_some_iff.1 hc
    refine Array.mem_of_getElem? (i := 0) ?_
    rw [Array.getElem?_extract, if_pos (by have := lt_of_at? hc; unfold size at this; omega), Nat.add_zero, hcell]
  intro hempty
  have hnil : (s.cells.extract a b).toList.filterMap id = [] := by
    have := congrArg String.toList hempty
    simpa [slice] using this
  exact absurd (List.filterMap_eq_nil_iff.1 hnil (some c) hfirst.val) (by simp)

end Source

namespace Input

variable (i : Input)

/-- Any number of trivia matches one after another. -/
inductive Trivia : Nat → Nat → Prop
  | nil (a : Nat) : Trivia a a
  | cons {a b : Nat} {m : LongestMatch} (found : i.matchAt a = some m) (trivia : i.lexer.isTrivia m = true)
    (rest : Trivia m.stop b) : Trivia a b

/-- The token is accepted where it stands. -/
def Took (k : Token) : Prop := ∃ exclusive, Cursor.stop? i k.id exclusive k.start = .ok (some k.stop)

/-- From one offset to another there are these tokens, with trivia in front of each, and nothing else. -/
inductive Covers : Nat → List Token → Nat → Prop
  | nil (a : Nat) : Covers a [] a
  | cons {a b : Nat} {k : Token} {ks : List Token} (trivia : i.Trivia a k.start) (took : i.Took k)
    (rest : Covers k.stop ks b) : Covers a (k :: ks) b

/-- Trivia and tokens in turns. -/
def pieces : Nat → List Token → List String
  | _, [] => []
  | a, k :: ks => i.source.slice a k.start :: i.source.slice k.start k.stop :: pieces k.stop ks

/-- The texts of tokens; the end of the input has none. -/
def texts (ks : List Token) : List String :=
  (ks.filter (·.id ≠ .endOfInput)).map fun k => i.source.slice k.start k.stop

@[simp] theorem texts_nil : i.texts [] = [] := rfl

@[simp] theorem texts_append (ks ls : List Token) : i.texts (ks ++ ls) = i.texts ks ++ i.texts ls := by
  simp [texts]

variable {i}

theorem trivia_skipTrivia_go : ∀ n a, i.Trivia a (skipTrivia.go i n a)
  | 0, a => .nil a
  | n + 1, a => by
    unfold skipTrivia.go
    split
    · rename_i m hm
      split
      · rename_i ht
        exact .cons hm ht (trivia_skipTrivia_go n m.stop)
      · exact .nil a
    · exact .nil a

/-- The text of an accepted token is empty only at the end of the input. -/
theorem texts_singleton (hi : i.WellFormed) {k : Token} {exclusive : Bool}
    (h : Cursor.stop? i k.id exclusive k.start = .ok (some k.stop)) :
    i.texts [k] = textsOf (i.source.slice k.start k.stop) := by
  obtain ⟨hstretch, hend, hpattern⟩ := hi.stretch_stop h
  by_cases hid : k.id = .endOfInput
  · rw [hend hid, Source.slice_self, textsOf_empty]
    simp [texts, hid]
  · have hne : i.source.slice k.start k.stop ≠ "" := Source.slice_ne_empty hstretch (hpattern hid)
    rw [textsOf, if_neg hne]
    simp [texts, hid]

theorem Trivia.stretch (hi : i.WellFormed) {a b : Nat} (h : i.Trivia a b) : i.source.Stretch a b := by
  induction h with
  | nil a => exact .nil
  | cons found _ _ ih => exact (hi.stretch found).trans ih

namespace Covers

variable {a b c : Nat} {ks ls : List Token}

theorem append (h : i.Covers a ks b) (k : i.Covers b ls c) : i.Covers a (ks ++ ls) c := by
  induction h with
  | nil => exact k
  | cons trivia took _ ih => exact .cons trivia took (ih k)

theorem stretch (hi : i.WellFormed) (h : i.Covers a ks b) : i.source.Stretch a b := by
  induction h with
  | nil a => exact .nil
  | cons trivia took _ ih =>
    obtain ⟨_, took⟩ := took
    exact (trivia.stretch hi).trans ((hi.stretch_stop took).1.trans ih)

/-- **The covered stretch of the source** is trivia and tokens, and nothing else. -/
theorem slice_eq (hi : i.WellFormed) (h : i.Covers a ks b) : i.source.slice a b = String.join (i.pieces a ks) := by
  induction h with
  | nil a => exact i.source.slice_self a
  | @cons a b k ks trivia took rest ih =>
    obtain ⟨_, took⟩ := took
    have hstart : a ≤ k.start := (trivia.stretch hi).le
    have hstop : k.start ≤ k.stop := (hi.stretch_stop took).1.le
    have hrest : k.stop ≤ b := (rest.stretch hi).le
    rw [pieces, String.join_cons, String.join_cons, ← ih, i.source.slice_append hstop hrest,
      i.source.slice_append hstart (Nat.le_trans hstop hrest)]

end Covers
end Input

/-! ## Tokens of a run -/

variable {i : Input}

theorem Cursor.accept_eq_hit_iff {id : TokenId} {exclusive : Bool} {c d : Cursor} {token : Token} :
    Cursor.accept i id exclusive c = (.hit token, d) ↔
      ∃ fuel, c.fuel = fuel + 1 ∧ Cursor.stop? i id exclusive (c.next i) = .ok (some token.stop) ∧
        token = ⟨id, c.next i, token.stop⟩ ∧ d = Cursor.commit { c with fuel } token.stop := by
  unfold Cursor.accept
  cases hfuel : c.fuel with
  | zero => simp
  | succ fuel =>
    have hnext : Cursor.next i { c with fuel } = c.next i := rfl
    dsimp only
    rw [hnext]
    rcases Cursor.stop? i id exclusive (c.next i) with e | _ | stop
    · simp
    · simp
    · constructor
      · intro h
        cases h
        exact ⟨fuel, rfl, rfl, rfl, rfl⟩
      · rintro ⟨_, ⟨⟩, ⟨⟩, htoken, rfl⟩
        rw [htoken]

theorem Cursor.accept_eq_hit {id : TokenId} {exclusive : Bool} {c d : Cursor} {token : Token}
    (h : Cursor.accept i id exclusive c = (.hit token, d)) : token.id = id ∧ token.start = c.next i ∧
      Cursor.stop? i id exclusive token.start = .ok (some token.stop) ∧ d.offset = token.stop := by
  obtain ⟨fuel, -, hstop, htoken, rfl⟩ := Cursor.accept_eq_hit_iff.1 h
  have hstart : token.start = c.next i := congrArg Token.start htoken
  exact ⟨congrArg Token.id htoken, hstart, hstart ▸ hstop, rfl⟩

theorem Cursor.covers_accept {id : TokenId} {exclusive : Bool} {c d : Cursor} {token : Token}
    (h : Cursor.accept i id exclusive c = (.hit token, d)) : i.Covers c.offset [token] d.offset := by
  obtain ⟨rfl, hstart, hstop, hd⟩ := Cursor.accept_eq_hit h
  rw [hd]
  refine .cons ?_ ⟨exclusive, hstop⟩ (.nil _)
  rw [hstart]
  exact Input.trivia_skipTrivia_go _ _

def Recognizer.Run.tokens {x : Recognizer} {c d : Cursor} : x.Run i c d → List Token
  | .token k _ => [k]
  | .seq rx ry => rx.tokens ++ ry.tokens
  | .first r | .second _ r | .repStill r _ | .optOne r | .annotate r => r.tokens
  | .repStop _ | .optNone _ => []
  | .repMore r _ more => r.tokens ++ more.tokens

theorem Recognizer.Run.covers (hi : i.WellFormed) {x : Recognizer} {c d : Cursor} (r : x.Run i c d) :
    i.Covers c.offset r.tokens d.offset := by
  induction r with
  | token token h => exact Cursor.covers_accept h
  | seq _ _ ihx ihy => exact ihx.append ihy
  | first _ ih => exact ih
  | second h _ ih => rwa [(recognize_tame hi _).still_of_eq h] at ih
  | repStop h =>
    rw [(recognize_tame hi _).still_of_eq h]
    exact .nil _
  | repStill _ _ ih => exact ih
  | repMore _ _ _ ih ihmore => exact ih.append ihmore
  | optNone h =>
    rw [(recognize_tame hi _).still_of_eq h]
    exact .nil _
  | optOne _ ih => exact ih
  | annotate _ ih => exact ih

variable {ds : Definitions E} {env : E} {n : Nat} {a : Option Shape} {t : Shape}

def Run.tokens {n : Nat} {a : Option Shape} {t : Shape} {task : Task E a t} {left : Start a} {c : Cursor}
    {v : t.Carrier} {d : Cursor} : Run ds i env n task left c v d → List Token
  | .scan k _ _ => [k]
  | .initial | .emptyList | .map _ | .optNone _ | .joinNone _ | .loopStop _ | .timesDone | .tailStop _
  | .tailGivenBack _ _ => []
  | .ref _ r | .fold r _ | .first r | .second _ r | .rep r | .optOne r | .annotate r | .loopStill r _ => r.tokens
  | .seq rx ry => rx.tokens ++ ry.tokens
  | .before rq rx => rq.tokens ++ rx.tokens
  | .after rx rq => rx.tokens ++ rq.tokens
  | .atLeast r more | .join r more | .loopMore r _ more | .timesMore r more => r.tokens ++ more.tokens
  | .tailMore rq r more => rq.tokens ++ (r.tokens ++ more.tokens)

/-- **The tokens of a run cover what it consumed.** -/
theorem Run.covers (hi : i.WellFormed) {task : Task E a t} {left : Start a} {c : Cursor} {v : t.Carrier} {d : Cursor}
    (r : Run ds i env n task left c v d) : i.Covers c.offset r.tokens d.offset := by
  have still : ∀ {n : Nat} {a : Option Shape} {t : Shape} {x : Node E a t} {left : Start a} {c d : Cursor},
      x.parseAt ds i env n left c = (.miss, d) → d.offset = c.offset :=
    fun h => (Node.parseAt_tame hi _ _ _).still_of_eq h
  induction r with
  | scan token h _ => exact Cursor.covers_accept h
  | initial => exact .nil _
  | emptyList => exact .nil _
  | ref _ _ ih => exact ih
  | fold _ _ ih => exact ih
  | map _ => exact .nil _
  | seq _ _ ihx ihy => exact ihx.append ihy
  | before rq _ ih => exact (rq.covers hi).append ih
  | after _ rq ih => exact ih.append (rq.covers hi)
  | first _ ih => exact ih
  | second h _ ih => rwa [still h] at ih
  | rep _ ih => exact ih
  | optNone h =>
    rw [still h]
    exact .nil _
  | optOne _ ih => exact ih
  | atLeast _ _ ih ihmore => exact ih.append ihmore
  | joinNone h =>
    rw [still h]
    exact .nil _
  | join _ _ ih ihmore => exact ih.append ihmore
  | annotate _ ih => exact ih
  | loopStop h =>
    rw [still h]
    exact .nil _
  | loopStill _ _ ih => exact ih
  | loopMore _ _ _ ih ihmore => exact ih.append ihmore
  | timesDone => exact .nil _
  | timesMore _ _ ih ihmore => exact ih.append ihmore
  | tailStop h =>
    rw [(Recognizer.recognize_tame hi _).still_of_eq h]
    exact .nil _
  | tailGivenBack _ _ => exact .nil _
  | tailMore rq _ _ ih ihmore => exact (rq.covers hi).append (ih.append ihmore)

end Ambigram
