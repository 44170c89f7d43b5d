import Ambigram.Proofs.Lexemes
import Ambigram.Proofs.Replay
/-!
# What grammars make of lexemes

A run told by the lexemes that come next: which of them a node takes, what it comes to, and which are left.  There is no
offset in that.  There is no limit in it either; it is enough that some fuel and some levels of references will do, and
what is needed for one part after another adds up.
-/
namespace Ambigram

variable {E α β : Type} {i : Input}

/-- These lexemes come next, and the source ends behind them. -/
structure Cursor.Before (i : Input) (c : Cursor) (ls : List Lexeme) : Prop where
  within : c.offset ≤ i.source.size
  lexing : i.lexingFrom c.offset = ⟨ls, true⟩

namespace Cursor.Before

variable {c d : Cursor} {l : Lexeme} {ls ls' : List Lexeme}

theorem of_offset (h : c.Before i ls) (hd : d.offset = c.offset) : d.Before i ls :=
  ⟨hd.symm ▸ h.within, hd.symm ▸ h.lexing⟩

theorem eq_of_offset (h : c.Before i ls) (h' : d.Before i ls') (hd : d.offset = c.offset) : ls' = ls :=
  congrArg Lexing.lexemes (h'.lexing.symm.trans (hd ▸ h.lexing))

variable (hi : i.WellFormed)
include hi

/-- The lexeme that comes next is the longest match behind the trivia. -/
theorem matchAt (h : c.Before i (l :: ls)) : ∃ m, i.matchAt (c.next i) = some m ∧
    m.lexeme i.source (c.next i) = l ∧ m.stop ≤ i.source.size ∧ i.lexingFrom m.stop = ⟨ls, true⟩ := by
  have hlexing := h.lexing
  unfold Cursor.next
  cases hm : i.matchAt (i.skipTrivia c.offset) with
  | none =>
    rw [Input.WellFormed.lexingFrom_of_none hm] at hlexing
    cases congrArg Lexing.lexemes hlexing
  | some m =>
    rw [hi.lexingFrom_of_some h.within hm, Lexing.cons, Lexing.mk.injEq, List.cons.injEq] at hlexing
    obtain ⟨⟨hlexeme, hrest⟩, hended⟩ := hlexing
    refine ⟨m, rfl, hlexeme, hi.stop_le h.within hm, ?_⟩
    rw [← hrest, ← hended]

theorem atEnd (h : c.Before i []) : i.matchAt (c.next i) = none ∧ c.next i = i.source.size := by
  have hlexing := h.lexing
  unfold Cursor.next
  cases hm : i.matchAt (i.skipTrivia c.offset) with
  | none =>
    rw [Input.WellFormed.lexingFrom_of_none hm] at hlexing
    exact ⟨rfl, of_decide_eq_true (congrArg Lexing.ended hlexing)⟩
  | some m =>
    rw [hi.lexingFrom_of_some h.within hm] at hlexing
    cases congrArg Lexing.lexemes hlexing

end Cursor.Before

/-- An attempt at a token that is paid for finds it among the tokens of the longest match, or not. -/
theorem Cursor.accept_pattern {c : Cursor} {k fuel : Nat} (paid : c.fuel = fuel + 1) :
    accept i (.pattern k) false c =
      match (i.matchAt (c.next i)).filter (·.contains (.pattern k)) with
      | some m => (.hit ⟨.pattern k, c.next i, m.stop⟩, Cursor.commit { c with fuel } m.stop)
      | none => (.miss, { c with fuel }) := by
  unfold accept
  rw [paid]
  dsimp only
  rw [stop?, if_neg (by simp), if_neg (by simp)]
  show _ = match (i.matchAt (Cursor.next i { c with fuel })).filter (·.contains (.pattern k)) with
    | some m => _
    | none => _
  cases (i.matchAt (Cursor.next i { c with fuel })).filter (·.contains (.pattern k)) <;> rfl

/-- The lexeme that comes next, if there is one, is none of the token. -/
def NotNext (k : Nat) (ls : List Lexeme) : Prop := ∀ l ∈ ls.head?, k ∉ l.tokens

namespace Cursor.Before

variable (hi : i.WellFormed) {c : Cursor} {k fuel : Nat} {l : Lexeme} {ls : List Lexeme}
include hi

/-- The text of the lexeme is the text of the token that is handed on. -/
theorem accept_eq_hit (h : c.Before i (l :: ls)) (hk : k ∈ l.tokens) (paid : c.fuel = fuel + 1) :
    ∃ token d, Cursor.accept i (.pattern k) false c = (.hit token, d) ∧ i.source.slice token.start token.stop = l.text ∧
      d.Before i ls ∧ d.fuel = fuel := by
  obtain ⟨found, hm, rfl, hle, hrest⟩ := h.matchAt hi
  have hcontains : found.contains (.pattern k) = true := by
    rw [found.contains_pattern]
    exact decide_eq_true hk
  refine ⟨⟨.pattern k, c.next i, found.stop⟩, Cursor.commit { c with fuel } found.stop, ?_, rfl, ⟨hle, hrest⟩, rfl⟩
  rw [Cursor.accept_pattern paid, hm, Option.filter_some, hcontains]
  rfl

theorem accept_eq_miss (h : c.Before i ls) (hk : NotNext k ls) (paid : c.fuel = fuel + 1) :
    Cursor.accept i (.pattern k) false c = (.miss, { c with fuel }) := by
  have hnone : (i.matchAt (c.next i)).filter (·.contains (.pattern k)) = none := by
    cases ls with
    | nil => rw [(h.atEnd hi).1, Option.filter_none]
    | cons l ls =>
      obtain ⟨found, hm, hlexeme, -, -⟩ := h.matchAt hi
      have hcontains : found.contains (.pattern k) = false := by
        rw [found.contains_pattern, hlexeme]
        exact decide_eq_false (hk l rfl)
      rw [hm, Option.filter_some, hcontains]
      rfl
  rw [Cursor.accept_pattern paid, hnone]

end Cursor.Before

theorem Cursor.accept_spent {c : Cursor} {token : TokenId} {exclusive : Bool} (spent : c.fuel = 0) :
    Cursor.accept i token exclusive c = (.fail .fuelExhausted, c) := by
  unfold accept
  rw [spent]

/-! ## Steps -/

/-- Before these lexemes and the rest, the step comes to the outcome and before the rest; so much fuel is enough. -/
def Step.ComesTo (i : Input) (cost : Nat) (x : Step α) (ls : List Lexeme) (o : Outcome α) (rest : List Lexeme) : Prop :=
  ∀ ⦃c⦄, c.Before i (ls ++ rest) → cost ≤ c.fuel → ∃ d, x c = (o, d) ∧ d.Before i rest ∧ c.fuel ≤ d.fuel + cost

namespace Step.ComesTo

variable {m n : Nat} {x y : Step α} {f : α → Step β} {ls ls' rest : List Lexeme} {a b : α} {o : Outcome α} {p : Outcome β}

theorem mono (h : ComesTo i m x ls o rest) (hmn : m ≤ n) : ComesTo i n x ls o rest := by
  intro c hc hfuel
  obtain ⟨d, hx, hd, hspent⟩ := h hc (Nat.le_trans hmn hfuel)
  exact ⟨d, hx, hd, by omega⟩

theorem still (o : Outcome α) : ComesTo i 0 (Step.still o) [] o rest :=
  fun c hc _ => ⟨c, rfl, hc, Nat.le_refl _⟩

/-- What is made of a match takes nothing. -/
theorem bind_still (hx : ComesTo i m x ls (.hit a) rest) (hf : f a = Step.still p) :
    ComesTo i m (x.bind f) ls p rest := by
  intro c hc hfuel
  obtain ⟨d, hx, hd, hspent⟩ := hx hc hfuel
  exact ⟨d, by rw [Step.bind, hx]; exact congrFun hf d, hd, hspent⟩

theorem bind_miss (hx : ComesTo i m x [] .miss rest) : ComesTo i m (x.bind f) [] .miss rest := by
  intro c hc hfuel
  obtain ⟨d, hx, hd, hspent⟩ := hx hc hfuel
  exact ⟨d, by rw [Step.bind, hx], hd, hspent⟩

theorem sequence {back : Bool} {expected : Unit → String} {v : β} (hx : ComesTo i m x ls (.hit a) (ls' ++ rest))
    (hf : ComesTo i n (f a) ls' (.hit v) rest) :
    ComesTo i (m + n) (Step.sequence i back expected x f) (ls ++ ls') (.hit v) rest := by
  intro c hc hfuel
  rw [List.append_assoc] at hc
  obtain ⟨d, hx, hd, hspent⟩ := hx hc (by omega)
  obtain ⟨e, hf, he, hspent'⟩ := hf hd (by omega)
  exact ⟨e, sequence_eq_hit.2 ⟨a, d, hx, hf⟩, he, by omega⟩

theorem sequence_miss {back : Bool} {expected : Unit → String} (hx : ComesTo i m x [] .miss rest) :
    ComesTo i m (Step.sequence i back expected x f) [] .miss rest := by
  intro c hc hfuel
  obtain ⟨d, hx, hd, hspent⟩ := hx hc hfuel
  exact ⟨d, by rw [Step.sequence, hx], hd, hspent⟩

theorem orElse_left {v : α} (hx : ComesTo i m x ls (.hit v) rest) : ComesTo i m (x.orElse y) ls (.hit v) rest := by
  intro c hc hfuel
  obtain ⟨d, hx, hd, hspent⟩ := hx hc hfuel
  exact ⟨d, by rw [Step.orElse, hx], hd, hspent⟩

theorem orElse_right (hx : ComesTo i m x [] .miss (ls ++ rest)) (hy : ComesTo i n y ls o rest) :
    ComesTo i (m + n) (x.orElse y) ls o rest := by
  intro c hc hfuel
  obtain ⟨d, hx, hd, hspent⟩ := hx hc (by omega)
  obtain ⟨e, hy, he, hspent'⟩ := hy hd (by omega)
  exact ⟨e, by rw [Step.orElse, hx]; exact hy, he, by omega⟩

theorem nested (hx : ComesTo i m x ls o rest) : ComesTo i m x.nested ls o rest := by
  intro c hc hfuel
  have hdeeper : ({ c with depth := c.depth + 1 } : Cursor).Before i (ls ++ rest) := hc.of_offset rfl
  obtain ⟨d, hx, hd, hspent⟩ := hx hdeeper hfuel
  exact ⟨d.leave, by rw [Step.nested, hx], hd.of_offset rfl, hspent⟩

variable {u : α → Step α}

theorem repeated_stop (hu : ComesTo i m (u a) [] .miss rest) : ComesTo i m (Step.repeated u a) [] (.hit a) rest := by
  intro c hc hfuel
  obtain ⟨d, hu, hd, hspent⟩ := hu hc hfuel
  exact ⟨d, repeatFor_eq_hit.2 (.inl ⟨hu, rfl⟩), hd, hspent⟩

/-- A turn that takes something has moved. -/
theorem repeated_more {v : α} (hext : ∀ a, Extends 0 (u a) (u a)) (htame : ∀ a, Tame i (u a)) (hls : ls ≠ [])
    (hu : ComesTo i m (u a) ls (.hit b) (ls' ++ rest)) (hmore : ComesTo i n (Step.repeated u b) ls' (.hit v) rest) :
    ComesTo i (m + n) (Step.repeated u a) (ls ++ ls') (.hit v) rest := by
  intro c hc hfuel
  rw [List.append_assoc] at hc
  obtain ⟨d, hu, hd, hspent⟩ := hu hc (by omega)
  obtain ⟨e, hmore, he, hspent'⟩ := hmore hd (by omega)
  have hmoved : d.offset ≠ c.offset := fun h => hls (List.self_eq_append_left.1 (hc.eq_of_offset hd h))
  exact ⟨e, repeated_of_move hext htame hu hmoved hmore, he, by omega⟩

section Tokens

variable (hi : i.WellFormed) {k : Nat} {l : Lexeme}
include hi

theorem accept_bind {g : Token → Step β} (hk : k ∈ l.tokens)
    (hg : ∀ token : Token, i.source.slice token.start token.stop = l.text → ComesTo i m (g token) ls p rest) :
    ComesTo i (m + 1) ((Cursor.accept i (.pattern k) false).bind g) (l :: ls) p rest := by
  intro c hc hfuel
  obtain ⟨fuel, hpaid⟩ : ∃ fuel, c.fuel = fuel + 1 := ⟨c.fuel - 1, by omega⟩
  obtain ⟨token, d, hd, htext, hrest, hleft⟩ := hc.accept_eq_hit hi hk hpaid
  obtain ⟨d', hd', hrest', hspent⟩ := hg token htext hrest (by omega)
  exact ⟨d', by rw [Step.bind, hd]; exact hd', hrest', by omega⟩

theorem accept_miss (hk : NotNext k rest) : ComesTo i 1 (Cursor.accept i (.pattern k) false) [] .miss rest := by
  intro c hc hfuel
  obtain ⟨fuel, hpaid⟩ : ∃ fuel, c.fuel = fuel + 1 := ⟨c.fuel - 1, by omega⟩
  exact ⟨{ c with fuel }, hc.accept_eq_miss hi hk hpaid, hc.of_offset rfl, Nat.le_of_eq hpaid⟩

end Tokens
end Step.ComesTo

/-! ## Nodes -/

variable {ds : Definitions E} {env : E} {a : Option Shape} {s t : Shape}

/-- Before these lexemes and the rest, the recognizer matches or not and comes before the rest, under all limits that are
large enough. -/
def Recognizer.ComesTo (i : Input) (x : Recognizer) (ls : List Lexeme) (o : Outcome Unit) (rest : List Lexeme) : Prop :=
  ∃ cost, Step.ComesTo i cost (x.recognize i) ls o rest

/-- Before these lexemes and the rest, the node comes to the outcome and before the rest, under all limits that are large
enough. -/
def Node.ComesTo (ds : Definitions E) (i : Input) (env : E) (x : Node E a t) (left : Start a) (ls : List Lexeme)
    (o : Outcome t.Carrier) (rest : List Lexeme) : Prop :=
  ∃ cost, ∀ n, cost ≤ n → Step.ComesTo i cost (x.parseAt ds i env n left) ls o rest

namespace Recognizer.ComesTo

variable {x : Recognizer} {l : Lexeme} {ls rest : List Lexeme} {o : Outcome Unit} {k : Nat} {text : String}

theorem token (hi : i.WellFormed) (hk : k ∈ l.tokens) :
    (Recognizer.token (.pattern k) false text).ComesTo i [l] (.hit ()) rest :=
  ⟨1, Step.ComesTo.accept_bind hi hk fun _ _ => .still _⟩

theorem token_miss (hi : i.WellFormed) (hk : NotNext k rest) :
    (Recognizer.token (.pattern k) false text).ComesTo i [] .miss rest :=
  ⟨1, (Step.ComesTo.accept_miss hi hk).bind_miss⟩

theorem annotate {category : Category} (h : x.ComesTo i ls o rest) : (x.annotate category).ComesTo i ls o rest := h

end Recognizer.ComesTo

/-- It is enough to look at what the node does with its references at each level. -/
theorem Node.comesTo_iff {x : Node E a t} {left : Start a} {ls rest : List Lexeme} {o : Outcome t.Carrier} :
    x.ComesTo ds i env left ls o rest ↔
      ∃ cost, ∀ n, cost ≤ n → Step.ComesTo i cost (x.parseWith (ds.parseRef i env n) i env left) ls o rest := by
  simp only [ComesTo, parseAt_eq]

namespace Node.ComesTo

variable {left : Start a} {l : Lexeme} {ls ls' rest : List Lexeme} {o : Outcome t.Carrier} {v : t.Carrier} {k : Nat}

theorem scan (hi : i.WellFormed) {label : Option String} {m : Mapping E String t.Carrier} (hk : k ∈ l.tokens)
    (hm : m.apply env l.text = .ok v) :
    (Node.scan (.pattern k) false label m).ComesTo ds i env () [l] (.hit v) rest := by
  refine comesTo_iff.2 ⟨1, fun n _ => Step.ComesTo.accept_bind hi hk fun token htext => ?_⟩
  rw [htext, hm]
  exact .still _

theorem scan_miss (hi : i.WellFormed) {label : Option String} {m : Mapping E String t.Carrier} (hk : NotNext k rest) :
    (Node.scan (.pattern k) false label m).ComesTo ds i env () [] .miss rest :=
  comesTo_iff.2 ⟨1, fun _ _ => (Step.ComesTo.accept_miss hi hk).bind_miss⟩

/-- A reference needs one level more than what it stands for. -/
theorem ref {name : String} {p : Parser E t} (target : ds.target t name = some p)
    (h : p.ComesTo ds i env () ls o rest) : (Node.ref name).ComesTo ds i env () ls o rest := by
  obtain ⟨cost, h⟩ := h
  refine comesTo_iff.2 ⟨cost + 1, fun n hn => ?_⟩
  obtain ⟨n, rfl⟩ : ∃ k, n = k + 1 := ⟨n - 1, by omega⟩
  have hstep : ds.parseRef i env (n + 1) t name = (p.parseAt ds i env n ()).nested := by
    simp only [Definitions.parseRef, Definitions.follow, target]
  show Step.ComesTo i (cost + 1) (ds.parseRef i env (n + 1) t name) ls o rest
  rw [hstep]
  exact (h n (by omega)).nested.mono (Nat.le_succ cost)

theorem fold {u : Shape} {p : Parser E u} {f : Fold E s.Carrier u.Carrier t.Carrier} {left : s.Carrier}
    {right : u.Carrier} (h : p.ComesTo ds i env () ls (.hit right) rest) (made : f.apply env left right = .ok v) :
    (Node.fold p f).ComesTo ds i env left ls (.hit v) rest := by
  rw [comesTo_iff] at h ⊢
  obtain ⟨m, h⟩ := h
  exact ⟨m, fun n hn => (h n hn).bind_still (by rw [made]; rfl)⟩

theorem map {m : Mapping E s.Carrier t.Carrier} {left : s.Carrier} (made : m.apply env left = .ok v) :
    (Node.map m).ComesTo ds i env left [] (.hit v) rest := by
  refine comesTo_iff.2 ⟨0, fun n _ => ?_⟩
  show Step.ComesTo i 0 (Step.still (.ofExcept (m.apply env left))) [] (.hit v) rest
  rw [made]
  exact .still _

theorem seq {b : Bool} {x : Node E a s} {y : Node E (some s) t} {mid : s.Carrier}
    (hx : x.ComesTo ds i env left ls (.hit mid) (ls' ++ rest)) (hy : y.ComesTo ds i env mid ls' (.hit v) rest) :
    (Node.seq b x y).ComesTo ds i env left (ls ++ ls') (.hit v) rest := by
  rw [comesTo_iff] at hx hy ⊢
  obtain ⟨m, hx⟩ := hx
  obtain ⟨m', hy⟩ := hy
  exact ⟨m + m', fun n hn => (hx n (by omega)).sequence (hy n (by omega))⟩

theorem seq_miss {b : Bool} {x : Node E a s} {y : Node E (some s) t} (hx : x.ComesTo ds i env left [] .miss rest) :
    (Node.seq b x y).ComesTo ds i env left [] .miss rest := by
  rw [comesTo_iff] at hx ⊢
  obtain ⟨m, hx⟩ := hx
  exact ⟨m, fun n hn => (hx n hn).sequence_miss⟩

theorem before {b : Bool} {q : Recognizer} {x : Node E a t} (hq : q.ComesTo i ls (.hit ()) (ls' ++ rest))
    (hx : x.ComesTo ds i env left ls' (.hit v) rest) :
    (Node.before b q x).ComesTo ds i env left (ls ++ ls') (.hit v) rest := by
  rw [comesTo_iff] at hx ⊢
  obtain ⟨m, hq⟩ := hq
  obtain ⟨m', hx⟩ := hx
  exact ⟨m + m', fun n hn => hq.sequence (hx n (by omega))⟩

theorem before_miss {b : Bool} {q : Recognizer} {x : Node E a t} (hq : q.ComesTo i [] .miss rest) :
    (Node.before b q x).ComesTo ds i env left [] .miss rest := by
  obtain ⟨m, hq⟩ := hq
  exact comesTo_iff.2 ⟨m, fun _ _ => hq.sequence_miss⟩

theorem after {b : Bool} {q : Recognizer} {x : Node E a t} (hx : x.ComesTo ds i env left ls (.hit v) (ls' ++ rest))
    (hq : q.ComesTo i ls' (.hit ()) rest) :
    (Node.after b x q).ComesTo ds i env left (ls ++ ls') (.hit v) rest := by
  rw [comesTo_iff] at hx ⊢
  obtain ⟨m, hx⟩ := hx
  obtain ⟨m', hq⟩ := hq
  exact ⟨m + m', fun n hn => (hx n (by omega)).sequence (hq.bind_still rfl)⟩

theorem first {x y : Node E a t} (hx : x.ComesTo ds i env left ls (.hit v) rest) :
    (Node.choice x y).ComesTo ds i env left ls (.hit v) rest := by
  rw [comesTo_iff] at hx ⊢
  obtain ⟨m, hx⟩ := hx
  exact ⟨m, fun n hn => (hx n hn).orElse_left⟩

theorem second {x y : Node E a t} (hx : x.ComesTo ds i env left [] .miss (ls ++ rest))
    (hy : y.ComesTo ds i env left ls o rest) : (Node.choice x y).ComesTo ds i env left ls o rest := by
  rw [comesTo_iff] at hx hy ⊢
  obtain ⟨m, hx⟩ := hx
  obtain ⟨m', hy⟩ := hy
  exact ⟨m + m', fun n hn => (hx n (by omega)).orElse_right (hy n (by omega))⟩

end Node.ComesTo

/-! ## Repetitions -/

/-- The steps of a repetition, one after another, each of which takes something. -/
inductive Node.Row (ds : Definitions E) (i : Input) (env : E) (x : Reducer E s s) (rest : List Lexeme) :
    s.Carrier → List Lexeme → s.Carrier → Prop
  | nil (v : s.Carrier) : Row ds i env x rest v [] v
  | cons {left mid v : s.Carrier} {ls ls' : List Lexeme} (hls : ls ≠ [])
    (head : x.ComesTo ds i env left ls (.hit mid) (ls' ++ rest)) (tail : Row ds i env x rest mid ls' v) :
    Row ds i env x rest left (ls ++ ls') v

theorem Node.parseAt_rep (x : Reducer E s s) (n : Nat) :
    (Node.rep x).parseAt ds i env n = Step.repeated (x.parseAt ds i env n) := by
  rw [parseAt_eq, parseAt_eq]
  rfl

/-- **A repetition takes as many steps as there are.** -/
theorem Node.Row.comesTo (hi : i.WellFormed) {x : Reducer E s s} {left v : s.Carrier} {ls rest : List Lexeme}
    (h : x.Row ds i env rest left ls v) (hstop : x.ComesTo ds i env v [] .miss rest) :
    (Node.rep x).ComesTo ds i env left ls (.hit v) rest := by
  induction h with
  | nil v =>
    obtain ⟨m, hstop⟩ := hstop
    refine ⟨m, fun n hn => ?_⟩
    rw [parseAt_rep]
    exact (hstop n hn).repeated_stop
  | cons hls head _ ih =>
    obtain ⟨m, head⟩ := head
    obtain ⟨m', ih⟩ := ih hstop
    refine ⟨m + m', fun n hn => ?_⟩
    have hmore := ih n (by omega)
    rw [parseAt_rep] at hmore ⊢
    exact Step.ComesTo.repeated_more (fun l => x.parseAt_extends n n l (Nat.le_refl n)) (fun l => x.parseAt_tame hi n l)
      hls (head n (by omega)) hmore

theorem Node.Row.single {x : Reducer E s s} {left v : s.Carrier} {ls rest : List Lexeme} (hls : ls ≠ [])
    (h : x.ComesTo ds i env left ls (.hit v) rest) : x.Row ds i env rest left ls v :=
  List.append_nil ls ▸ .cons hls h (.nil v)

theorem Node.Row.append {x : Reducer E s s} {left mid v : s.Carrier} {ls ls' rest : List Lexeme}
    (h : x.Row ds i env (ls' ++ rest) left ls mid) (k : x.Row ds i env rest mid ls' v) :
    x.Row ds i env rest left (ls ++ ls') v := by
  induction h with
  | nil => exact k
  | @cons left mid _ ls ls₁ hls head _ ih =>
    rw [List.append_assoc]
    exact .cons hls (by rwa [List.append_assoc]) (ih k)

/-! ## Whole sources -/

theorem Node.parseSource_eq (p : Parser E t) (limits : Limits) : p.parseSource ds env limits i =
    match p.parseAt ds i env limits.depth () (.start limits) with
    | (.hit v, d) => if d.isAtEnd i then .ok v else .error (.trailingInput (d.next i))
    | (.miss, d) => .error (.noMatch d.furthest p.describe)
    | (.fail e, _) => .error e := by
  rcases h : p.parseAt ds i env limits.depth () (.start limits) with ⟨o, d⟩
  have hparse : p.parse ⟨ds, env, i, limits.depth⟩ () (.start limits) = (o, d) := h
  unfold parseSource parseRest
  rw [hparse]
  cases o with
  | hit v =>
    dsimp only
    split <;> rfl
  | miss => rfl
  | fail e => rfl

theorem Cursor.Before.parseSource_eq_ok (hi : i.WellFormed) {p : Parser E t} {limits : Limits} {v : t.Carrier}
    {d : Cursor} (hd : d.Before i []) (h : p.parseAt ds i env limits.depth () (.start limits) = (.hit v, d)) :
    p.parseSource ds env limits i = .ok v := by
  rw [Node.parseSource_eq, h]
  exact if_pos (decide_eq_true (hd.atEnd hi).2)

/-- **What a grammar comes to on all of a source.**  Limits that are large enough make no difference, and any others
either make none or are reported as spent. -/
theorem Node.ComesTo.parseSource (hi : i.WellFormed) {p : Parser E t} {v : t.Carrier} {ls : List Lexeme}
    (h : p.ComesTo ds i env () ls (.hit v) []) (hlexing : i.lexing = ⟨ls, true⟩) :
    (∃ enough, ∀ limits : Limits, enough ≤ limits.fuel → enough ≤ limits.depth → p.parseSource ds env limits i = .ok v) ∧
    ∀ limits : Limits, p.parseSource ds env limits i = .ok v ∨ p.parseSource ds env limits i = .error .fuelExhausted ∨
      p.parseSource ds env limits i = .error .recursionLimit := by
  obtain ⟨enough, h⟩ := h
  have hrun : ∀ limits : Limits, enough ≤ limits.fuel → enough ≤ limits.depth →
      ∃ d, p.parseAt ds i env limits.depth () (.start limits) = (.hit v, d) ∧ d.Before i [] := by
    intro limits hfuel hdepth
    have hstart : (Cursor.start limits).Before i (ls ++ []) := ⟨Nat.zero_le _, (List.append_nil ls).symm ▸ hlexing⟩
    obtain ⟨d, hd, hend, -⟩ := h limits.depth hdepth hstart hfuel
    exact ⟨d, hd, hend⟩
  refine ⟨⟨enough, fun limits hfuel hdepth => ?_⟩, fun limits => ?_⟩
  · obtain ⟨d, hd, hend⟩ := hrun limits hfuel hdepth
    exact hend.parseSource_eq_ok hi hd
  · rcases hsmall : p.parseAt ds i env limits.depth () (.start limits) with ⟨o, e⟩
    by_cases hcut : o.CutOff
    · rw [parseSource_eq, hsmall]
      obtain rfl | rfl := hcut
      · exact .inr (.inl rfl)
      · exact .inr (.inr rfl)
    · -- with more to spend the run is the same, and it is the one that is known
      let more : Limits := ⟨limits.fuel + enough, limits.depth + enough⟩
      obtain ⟨d, hd, hend⟩ := hrun more (Nat.le_add_left _ _) (Nat.le_add_left _ _)
      have hextends : Step.Extends enough (p.parseAt ds i env limits.depth ()) (p.parseAt ds i env more.depth ()) :=
        p.parseAt_extends _ _ () (Nat.le_add_right _ _)
      have hsame : p.parseAt ds i env more.depth () (.start more) = (o, e.refuel enough) := hextends.of_eq hsmall hcut
      cases hsame.symm.trans hd
      have he : e.Before i [] := hend.of_offset rfl
      exact .inl (he.parseSource_eq_ok hi hsmall)

end Ambigram
