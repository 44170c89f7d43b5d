import Ambigram.Proofs.Accepted
import Ambigram.Proofs.Erasure
import Ambigram.Proofs.Literal
import Ambigram.Snippet
/-!
# Places in a source

Where a run can be and what it can point at.  A run that begins where a character does only comes to such places,
whatever it goes back over, because every token that it accepts is made of whole characters.  So the offset of a syntax
error, whether it is the furthest one, the next one, or the one behind a first half, is the beginning of a character or
the end of the source, and there is a character to be marked or nothing left.
-/
namespace Ambigram

variable {E α β : Type} {i : Input} {P : Error → Prop}

/-! ## Boundaries -/

/-- The token begins and ends where characters do. -/
structure Token.Spans (s : Source) (k : Token) : Prop where
  le : k.start ≤ k.stop
  start : s.IsBoundary k.start
  stop : s.IsBoundary k.stop

/-- If the error points into a source at all, then to a boundary. -/
def Error.Points (s : Source) (e : Error) : Prop := ∀ o, e.offset? = some o → s.IsBoundary o

/-- The furthest that some tokens reach, from a place on. -/
def Token.reach (start : Nat) (ks : List Token) : Nat := ks.foldl (fun m k => max m k.stop) start

theorem Token.reach_isBoundary {s : Source} {ks : List Token} (h : ∀ k ∈ ks, k.Spans s) :
    ∀ {start : Nat}, s.IsBoundary start → s.IsBoundary (Token.reach start ks) := by
  induction ks with
  | nil => exact fun hstart => hstart
  | cons k ks ih =>
    intro start hstart
    refine ih (fun k' hk' => h k' (List.mem_cons_of_mem k hk')) ?_
    dsimp only
    obtain hle | hle := Nat.le_total start k.stop
    · rw [Nat.max_eq_right hle]
      exact (h k List.mem_cons_self).stop
    · rw [Nat.max_eq_left hle]
      exact hstart

/-- A run went from one boundary to another, and what it reached furthest is what its tokens reach. -/
structure Cursor.Went (i : Input) (c d : Cursor) (ks : List Token) : Prop where
  offset : i.source.IsBoundary d.offset
  furthest : d.furthest = Token.reach c.furthest ks
  spans : ∀ k ∈ ks, k.Spans i.source

namespace Cursor.Went

variable {c d e : Cursor} {ks ls : List Token}

theorem refl (hc : i.source.IsBoundary c.offset) : Went i c c [] := ⟨hc, rfl, fun _ h => (List.not_mem_nil h).elim⟩

theorem trans (h : Went i c d ks) (h' : Went i d e ls) : Went i c e (ks ++ ls) where
  offset := h'.offset
  furthest := by rw [h'.furthest, h.furthest, Token.reach, Token.reach, Token.reach, List.foldl_append]
  spans k hk := (List.mem_append.1 hk).elim (h.spans k) (h'.spans k)

theorem goTo (h : Went i c d ks) (hc : i.source.IsBoundary c.offset) : Went i c (d.goTo c.offset) ks :=
  ⟨hc, h.furthest, h.spans⟩

end Cursor.Went

/-! ## Steps -/

namespace Step

open Cursor (Went)

/-- A run from `c` that came to `r` and accepted `ks`; an error of its own points to a boundary. -/
structure Ends (i : Input) (P : Error → Prop) (c : Cursor) (r : Outcome α × Cursor) (ks : List Token) : Prop where
  went : Went i c r.2 ks
  points : ∀ e, r.1 = .fail e → P e ∨ e.Points i.source

namespace Ends

variable {c d : Cursor} {ks ls : List Token} {a : α} {r : Outcome α × Cursor}

theorem hit (h : Went i c d ks) : Ends i P c (.hit a, d) ks := ⟨h, nofun⟩

theorem miss (h : Went i c d ks) : Ends i P c ((.miss, d) : Outcome α × Cursor) ks := ⟨h, nofun⟩

theorem fail {e : Error} (h : Went i c d ks) (he : P e ∨ e.Points i.source) :
    Ends i P c ((.fail e, d) : Outcome α × Cursor) ks :=
  ⟨h, fun _ heq => Outcome.fail.inj heq ▸ he⟩

theorem andThen (h : Went i c d ks) (h' : Ends i P d r ls) : Ends i P c r (ks ++ ls) := ⟨h.trans h'.went, h'.points⟩

/-! A run that ends where it came to accepts nothing behind that. -/

theorem matched (h : Went i c d ks) (a : α) : Ends i P c (.hit a, d) (ks ++ []) := .andThen h (.hit (.refl h.offset))

theorem missed (h : Went i c d ks) : Ends i P c ((.miss, d) : Outcome α × Cursor) (ks ++ []) :=
  .andThen h (.miss (.refl h.offset))

theorem failed {e : Error} (h : Ends i P c ((.fail e, d) : Outcome α × Cursor) ks) :
    Ends i P c ((.fail e, d) : Outcome β × Cursor) (ks ++ []) :=
  .andThen h.went (.fail (.refl h.went.offset) (h.points e rfl))

end Ends

/-- From a boundary the step comes to a boundary and accepts what the log says. -/
def Places (i : Input) (P : Error → Prop) (x : Step α) (X : Log) : Prop :=
  ∀ c, i.source.IsBoundary c.offset → Ends i P c (x c) (X c)

namespace Places

variable {x y : Step α} {X Y : Log} {f : α → Step β} {F : α → Log}

theorem still {o : Outcome α} (h : ∀ e, o = .fail e → P e ∨ e.Points i.source) : Places i P (Step.still o) .nothing :=
  fun _ hc => ⟨.refl hc, h⟩

theorem hit (a : α) : Places i P (Step.hit a) .nothing := fun _ hc => .hit (.refl hc)

/-- What a fold or a mapping raises is let off. -/
theorem ofExcept {r : Except Error α} (h : ∀ e, r = .error e → P e) :
    Places i P (Step.still (.ofExcept r)) .nothing := by
  refine still fun e he => .inl (h e ?_)
  cases r with
  | ok a => cases he
  | error e' =>
    cases he
    rfl

theorem fail {e : Error} (h : P e ∨ e.Points i.source) : Places i P (Step.fail e : Step α) .nothing :=
  fun _ hc => .fail (.refl hc) h

/-! ### One step after another -/

theorem bind (hx : Places i P x X) (hf : ∀ a, Places i P (f a) (F a)) : Places i P (x.bind f) (.andThen x X F) := by
  intro c hc
  have h := hx c hc
  unfold Step.bind Log.andThen
  rcases hd : x c with ⟨o, d⟩
  rw [hd] at h
  cases o with
  | hit a => exact .andThen h.went (hf a d h.went.offset)
  | miss => exact .missed h.went
  | fail e => exact .failed h

/-- What is made of a match accepts nothing more. -/
theorem made (hx : Places i P x X) (hf : ∀ a, Places i P (f a) .nothing) : Places i P (x.bind f) X :=
  Log.andThen_nothing x X ▸ hx.bind hf

theorem map (hx : Places i P x X) (g : α → β) : Places i P (x.map g) X := hx.made fun a => .hit (g a)

theorem sequence (hi : i.WellFormed) {b : Bool} {expected : Unit → String} (hx : Places i P x X)
    (hf : ∀ a, Places i P (f a) (F a)) : Places i P (Step.sequence i b expected x f) (.andThen x X F) := by
  intro c hc
  have h := hx c hc
  unfold Step.sequence Log.andThen
  rcases hd : x c with ⟨o, d⟩
  rw [hd] at h
  cases o with
  | hit a =>
    have h' := hf a d h.went.offset
    dsimp only
    rcases hd' : f a d with ⟨o, d'⟩
    rw [hd'] at h'
    cases o with
    | hit v => exact .andThen h.went h'
    | miss =>
      cases b with
      | true => exact .miss ((h.went.trans h'.went).goTo hc)
      | false =>
        -- the next offset is behind trivia, which are whole characters as well
        refine .fail (h.went.trans h'.went) (.inr fun o ho => ?_)
        cases ho
        exact (hi.stretch_skipTrivia d'.offset).isBoundary hi.source h'.went.offset
    | fail e => exact .andThen h.went h'
  | miss => exact .missed h.went
  | fail e => exact .failed h

theorem orElse (hx : Places i P x X) (hy : Places i P y Y) : Places i P (x.orElse y) (.orElse x X Y) := by
  intro c hc
  have h := hx c hc
  unfold Step.orElse Log.orElse
  rcases hd : x c with ⟨o, d⟩
  rw [hd] at h
  cases o with
  | hit a => exact .matched h.went a
  | miss => exact .andThen h.went (hy d h.went.offset)
  | fail e => exact .failed h

theorem backtrack (hx : Places i P x X) : Places i P x.backtrack X := by
  intro c hc
  have h := hx c hc
  unfold Step.backtrack
  rcases hd : x c with ⟨o, d⟩
  rw [hd] at h
  cases o with
  | hit a => exact h
  | miss => exact .miss (h.went.goTo hc)
  | fail e => exact h

/-- One reference deeper. -/
theorem nested (hx : Places i P x X) : Places i P x.nested fun c => X { c with depth := c.depth + 1 } := by
  intro c hc
  have h := hx { c with depth := c.depth + 1 } hc
  exact ⟨⟨h.went.offset, h.went.furthest, h.went.spans⟩, h.points⟩

/-! ### Loops -/

section Loops

variable {u : α → Step α} {U : α → Log} (hu : ∀ a, Places i P (u a) (U a))
include hu

theorem optional (a : α) : Places i P (Step.optional u a) (U a) :=
  Log.orElse_nothing (u a) (U a) ▸ (hu a).orElse (hit a)

theorem repeatFor : ∀ (n : Nat) (a : α), Places i P (Step.repeatFor u n a) (.repeatFor u U n a)
  | 0, _ => fail (.inr nofun)
  | n + 1, a => by
    intro c hc
    have h := hu a c hc
    unfold Step.repeatFor Log.repeatFor
    rcases hd : u a c with ⟨o, d⟩
    rw [hd] at h
    cases o with
    | hit b =>
      dsimp only
      split
      · exact .matched h.went b
      · exact .andThen h.went (repeatFor n b d h.went.offset)
    | miss => exact .matched h.went a
    | fail e => exact .failed h

theorem repeated (a : α) : Places i P (Step.repeated u a) (.repeated u U a) :=
  fun c hc => repeatFor hu (c.fuel + 1) a c hc

theorem times : ∀ (n : Nat) (a : α), Places i P (Step.times u n a) (.times u U n a)
  | 0, a => hit a
  | n + 1, a => (hu a).bind (times n)

theorem atLeast (n : Nat) (a : α) : Places i P (Step.atLeast n u a) (.atLeast n u U a) :=
  ((times hu n a).bind (repeated hu)).backtrack

variable {q : Step Unit} {Q : Log} (hq : Places i P q Q)
include hq

theorem joinFor : ∀ (n : Nat) (a : α), Places i P (Step.joinFor q u n a) (.joinFor q Q u U n a)
  | 0, _ => fail (.inr nofun)
  | n + 1, a => by
    intro c hc
    have h := hq c hc
    unfold Step.joinFor Log.joinFor Log.andThen
    dsimp only
    rcases hd : q c with ⟨o, d⟩
    rw [hd] at h
    cases o with
    | hit _ =>
      have h' := hu a d h.went.offset
      dsimp only
      rcases hd' : u a d with ⟨o, d'⟩
      rw [hd'] at h'
      cases o with
      | hit b => exact .andThen h.went (.andThen h'.went (joinFor n b d' h'.went.offset))
      | miss =>
        -- the separator is given back, but was accepted
        dsimp only
        rw [List.append_nil]
        exact .hit ((h.went.trans h'.went).goTo hc)
      | fail e =>
        dsimp only
        rw [List.append_nil]
        exact .andThen h.went h'
    | miss => exact .matched h.went a
    | fail e => exact .failed h

theorem joined (nonEmpty : Bool) (a : α) : Places i P (Step.joined nonEmpty q u a) (.joined q Q u U a) := by
  intro c hc
  have h := hu a c hc
  unfold Step.joined Log.joined Log.andThen
  dsimp only
  rcases hd : u a c with ⟨o, d⟩
  rw [hd] at h
  cases o with
  | hit b => exact .andThen h.went (joinFor hu hq (d.fuel + 1) b d h.went.offset)
  | miss =>
    cases nonEmpty with
    | true => exact .missed h.went
    | false => exact .matched h.went a
  | fail e => exact .failed h

end Loops

end Places
end Step

/-! ## Tokens -/

theorem Lexer.points_of_matchOn {src s : Source} {tracks : List Regex.Track} {offset : Nat} {only : Option TokenId}
    {e : Error} (h : matchOn src tracks offset only = .error e) : e.Points s := by
  unfold matchOn at h
  split at h
  · split at h
    · cases h
      exact nofun
    · split at h
      · cases h
        exact nofun
      · cases h
  · cases h
    exact nofun
  · split at h
    · cases h
      exact nofun
    · cases h

theorem Cursor.points_of_stop? {s : Source} {id : TokenId} {exclusive : Bool} {offset : Nat} {e : Error}
    (h : stop? i id exclusive offset = .error e) : e.Points s := by
  unfold stop? at h
  split at h
  · cases h
  · split at h
    · cases hm : i.matchOnly offset id with
      | error e' =>
        rw [hm] at h
        cases h
        exact Lexer.points_of_matchOn hm
      | ok m =>
        rw [hm] at h
        cases h
    · cases h

theorem Input.WellFormed.accept_places (hi : i.WellFormed) (id : TokenId) (exclusive : Bool) :
    Step.Places i P (Cursor.accept i id exclusive) (.accept i id exclusive) := by
  intro c hc
  unfold Log.accept Cursor.accept
  cases hfuel : c.fuel with
  | zero => exact .fail (.refl hc) (.inr nofun)
  | succ fuel =>
    have hstay : Cursor.Went i c { c with fuel } [] := ⟨hc, rfl, fun _ h => (List.not_mem_nil h).elim⟩
    dsimp only
    cases hstop : Cursor.stop? i id exclusive (Cursor.next i { c with fuel }) with
    | error e => exact .fail hstay (.inr (Cursor.points_of_stop? hstop))
    | ok stop =>
      cases stop with
      | none => exact .miss hstay
      | some stop =>
        have hstart := (hi.stretch_skipTrivia c.offset).isBoundary hi.source hc
        have hstretch := (hi.stretch_stop hstop).1
        have hend := hstretch.isBoundary hi.source hstart
        refine .hit ⟨hend, rfl, fun k hk => ?_⟩
        cases List.mem_singleton.1 hk
        exact ⟨hstretch.le, hstart, hend⟩

/-! ## Grammars -/

open Step

theorem Definitions.follow_places {ds : Definitions E} {t : Shape} {name : String}
    (deeper : Option ((Parser E t → Step α) × (Parser E t → Log)))
    (h : ∀ d ∈ deeper, ∀ p, ds.target t name = some p → Places i P (d.1 p) (d.2 p)) :
    Places i P (ds.follow t name (deeper.map Prod.fst)) (ds.followLog t name (deeper.map Prod.snd)) := by
  unfold follow followLog
  cases hp : ds.target t name with
  | none => exact Places.fail (.inr nofun)
  | some p =>
    cases deeper with
    | none => exact Places.fail (.inr nofun)
    | some d => exact (h d rfl p hp).nested

theorem Recognizer.recognize_places (hi : i.WellFormed) : ∀ r : Recognizer, Places i P (r.recognize i) (r.log i)
  | .token id exclusive _ => (hi.accept_places id exclusive).map _
  | .seq _ x y => (x.recognize_places hi).sequence hi fun _ => y.recognize_places hi
  | .choice x y => (x.recognize_places hi).orElse (y.recognize_places hi)
  | .rep x => Places.repeated (fun _ => x.recognize_places hi) ()
  | .opt _ x => Places.optional (fun _ => x.recognize_places hi) ()
  | .annotate _ x => x.recognize_places hi

section Nodes

variable {ds : Definitions E} {env : E} {a : Option Shape} {t : Shape} (hi : i.WellFormed)
include hi

theorem Node.parseWith_places {onRef : (t : Shape) → String → Step t.Carrier} {refLog : Shape → String → Log}
    (href : ∀ t name, (∀ e, (Node.ref name : Parser E t).Raises ds env e → P e) →
      Places i P (onRef t name) (refLog t name)) (x : Node E a t) (left : Start a)
    (hx : ∀ e, x.Raises ds env e → P e) :
    Places i P (x.parseWith onRef i env left) (x.logWith onRef refLog i env left) := by
  induction x with
  | scan id exclusive label m =>
    exact (hi.accept_places id exclusive).made fun _ => Places.ofExcept fun e he => hx e (.scan he)
  | initial value => exact Places.hit value
  | emptyList => exact Places.hit []
  | ref name => exact href _ name hx
  | fold p f ih =>
    exact (ih () fun e he => hx e (.folded he)).made fun _ => Places.ofExcept fun e he => hx e (.fold he)
  | map m => exact Places.ofExcept fun e he => hx e (.map he)
  | seq b x y ihx ihy =>
    exact (ihx left fun e he => hx e (.seqFirst he)).sequence hi fun mid => ihy mid fun e he => hx e (.seqSecond he)
  | before b r x ih => exact (r.recognize_places hi).sequence hi fun _ => ih left fun e he => hx e (.before he)
  | after b x r ih =>
    exact (ih left fun e he => hx e (.after he)).sequence hi fun v => (r.recognize_places hi).map fun _ => v
  | choice x y ihx ihy =>
    exact (ihx left fun e he => hx e (.choiceFirst he)).orElse (ihy left fun e he => hx e (.choiceSecond he))
  | rep x ih => exact Places.repeated (fun l => ih l fun e he => hx e (.rep he)) left
  | opt x ih => exact Places.optional (fun l => ih l fun e he => hx e (.opt he)) left
  | atLeast n x ih => exact Places.atLeast (fun l => ih l fun e he => hx e (.atLeast he)) n left
  | join nonEmpty q x ih =>
    exact Places.joined (fun l => ih l fun e he => hx e (.join he)) (q.recognize_places hi) nonEmpty left
  | annotate k x ih => exact ih left fun e he => hx e (.annotate he)

theorem Definitions.parseRef_places : ∀ (n : Nat) (t : Shape) (name : String),
    (∀ e, (Node.ref name : Parser E t).Raises ds env e → P e) →
      Places i P (ds.parseRef i env n t name) (ds.refLog i env n t name)
  | 0, _, _, _ => follow_places none nofun
  | n + 1, _, name, hx => by
    refine follow_places (some (_, _)) fun d hd p hp => ?_
    cases hd
    dsimp only
    rw [Node.parseAt_eq]
    exact p.parseWith_places hi (parseRef_places n) () fun e he => hx e (.ref hp he)

theorem Node.parseAt_places (n : Nat) (x : Node E a t) (left : Start a) (hx : ∀ e, x.Raises ds env e → P e) :
    Places i P (x.parseAt ds i env n left) (x.logAt ds i env n left) := by
  rw [parseAt_eq]
  exact x.parseWith_places hi (Definitions.parseRef_places hi n) left hx

theorem Node.parseRest_points {limit : Nat} (p : Parser E t) {c : Cursor} (hc : i.source.IsBoundary c.offset)
    (hfurthest : i.source.IsBoundary c.furthest) {e : Error}
    (h : (p.parseRest ⟨ds, env, i, limit⟩ c).1 = .error e) : p.Raises ds env e ∨ e.Points i.source := by
  have hplaces : Places i (p.Raises ds env) (p.parseAt ds i env (limit - c.depth) ())
    (p.logAt ds i env (limit - c.depth) ()) := p.parseAt_places hi _ () fun _ he => he
  have hends := hplaces c hc
  have hrun : p.parse ⟨ds, env, i, limit⟩ () c = p.parseAt ds i env (limit - c.depth) () c := rfl
  unfold parseRest at h
  rw [hrun] at h
  rcases hd : p.parseAt ds i env (limit - c.depth) () c with ⟨o, d⟩
  rw [hd] at h hends
  cases o with
  | hit v =>
    dsimp only at h
    split at h
    · cases h
    · cases h
      refine .inr fun o ho => ?_
      cases ho
      exact (hi.stretch_skipTrivia d.offset).isBoundary hi.source hends.went.offset
  | miss =>
    cases h
    refine .inr fun o ho => ?_
    cases ho
    show i.source.IsBoundary d.furthest
    rw [hends.went.furthest]
    exact Token.reach_isBoundary hends.went.spans hfurthest
  | fail e' =>
    cases h
    exact hends.points e rfl

end Nodes

/-! ## Texts -/

namespace Source

variable {text : String} {o : Nat}

/-- A boundary is where the text falls into two. -/
theorem isBoundary_iff :
    (ofString text).IsBoundary o ↔ ∃ front rest, text = front ++ rest ∧ front.utf8ByteSize = o := by
  constructor
  · rintro (rfl | h)
    · exact ⟨text, "", (String.append_empty).symm, (size_ofString text).symm⟩
    · obtain ⟨c, hc⟩ := Option.isSome_iff_exists.1 h
      exact exists_append_of_at? hc
  · rintro ⟨front, rest, rfl, rfl⟩
    have h := reads_append front rest
    unfold IsBoundary
    rw [h.at?_eq, h.size_eq]
    cases rest.toList with
    | nil => exact .inl rfl
    | cons c cs => exact .inr rfl

theorem isBoundary_zero (text : String) : (ofString text).IsBoundary 0 :=
  isBoundary_iff.2 ⟨"", text, String.empty_append.symm, rfl⟩

/-- What stands between two boundaries can be cut out. -/
theorem exists_slice {k : Nat} (hok : o ≤ k) (ho : (ofString text).IsBoundary o) (hk : (ofString text).IsBoundary k) :
    ∃ front inside rest, text = front ++ inside ++ rest ∧ front.utf8ByteSize = o ∧
      (front ++ inside).utf8ByteSize = k ∧ (ofString text).slice o k = inside := by
  obtain ⟨front, tail, rfl, rfl⟩ := isBoundary_iff.1 ho
  obtain ⟨front', rest, htext, rfl⟩ := isBoundary_iff.1 hk
  obtain ⟨inside, rfl, rfl⟩ : ∃ inside, front' = front ++ inside ∧ tail = inside ++ rest := by
    have hlists := congrArg String.toList htext
    rw [String.toList_append, String.toList_append] at hlists
    obtain ⟨w, hfront', htail⟩ | ⟨w, hfront, hrest⟩ := List.append_eq_append_iff.1 hlists
    · exact ⟨.ofList w, String.toList_inj.1 (by simpa using hfront'), String.toList_inj.1 (by simpa using htail)⟩
    · -- the second front is no shorter, so nothing is left between them
      have hwidth := congrArg width hfront
      rw [width_append, width_toList, width_toList] at hwidth
      have hw : w = [] := by
        cases w with
        | nil => rfl
        | cons c w =>
          have := c.utf8Size_pos
          rw [width_cons] at hwidth
          omega
      subst hw
      rw [List.append_nil, String.toList_inj] at hfront
      rw [List.nil_append, String.toList_inj] at hrest
      exact ⟨"", by rw [hfront, String.append_empty], by rw [hrest, String.empty_append]⟩
  refine ⟨front, inside, rest, String.append_assoc.symm, rfl, rfl, ?_⟩
  have h := reads_append front (inside ++ rest)
  rw [String.toList_append] at h
  rw [String.utf8ByteSize_append, ← width_toList inside, h.slice_eq, String.ofList_toList]

/-- The mark of an error on a boundary covers the character there, or nothing at the end. -/
theorem span_of_isBoundary (ho : (ofString text).IsBoundary o) : ∃ stop, Snippet.span (ofString text) o = (o, stop) ∧
    stop ≤ text.utf8ByteSize ∧ (stop = o ↔ o = text.utf8ByteSize) ∧
    (o < text.utf8ByteSize → ∃ front c rest, text = front ++ String.singleton c ++ rest ∧ front.utf8ByteSize = o ∧
      stop = o + c.utf8Size) := by
  obtain ⟨front, tail, rfl, rfl⟩ := isBoundary_iff.1 ho
  refine ⟨_, rfl, ?_⟩
  rw [(reads_append front tail).at?_eq, String.utf8ByteSize_append, ← width_toList tail]
  cases hchars : tail.toList with
  | nil => simp
  | cons c cs =>
    have hpos := c.utf8Size_pos
    have htail : tail = String.singleton c ++ String.ofList cs := String.toList_inj.1 (by simpa using hchars)
    rw [List.head?_cons, Option.map_some, Option.getD_some, width_cons]
    refine ⟨by omega, by omega, fun _ => ⟨front, c, .ofList cs, ?_, rfl, rfl⟩⟩
    rw [htail, String.append_assoc]

end Source

theorem Snippet.isSome_render {text : String} {e : Error} (h : e.Points (.ofString text)) (colored : Bool)
    (path : Option String) : (render colored path (some text) e).isSome := by
  unfold render
  cases ho : e.offset? with
  | none => rfl
  | some o =>
    have hplace : isPlace (.ofString text) o = true := by
      unfold isPlace
      obtain heq | hat := h o ho
      · simp [heq]
      · simp [hat]
    dsimp only
    rw [if_pos hplace]
    rfl

/-! ## Parsing all of a text -/

theorem Error.IsValue.offset?_eq_none {e : Error} (h : e.IsValue) : e.offset? = none := by
  cases e <;> first | rfl | exact h.elim

/-- **What is reported can be shown.**  Every token that was accepted while a text was parsed, also where it was given
up again, can be cut out of the text, and the furthest place that was reached is the furthest end of those.  A syntax
error points into the text or to its end, unless a fold or a mapping raised it: another one would have come out if they
raised others, and those at hand raise none that points anywhere.  Its mark begins there and covers one whole character,
or nothing at the end.  That there is a picture of it says so of the pictures that `Snippet` draws; whoever draws others
is given such a mark. -/
theorem places_shown (ds : Definitions E) (env : E) (limits : Limits) (lexer : Lexer) (text : String) {t : Shape}
    (p : Parser E t) :
    let input : Input := .of lexer (.ofString text)
    let accepted := p.accepted ds env limits input
    ((∀ k ∈ accepted, ∃ front inside rest, text = front ++ inside ++ rest ∧ front.utf8ByteSize = k.start ∧
        (front ++ inside).utf8ByteSize = k.stop ∧ input.source.slice k.start k.stop = inside) ∧
      (p.parse ⟨ds, env, input, limits.depth⟩ () (.start limits)).2.furthest = Token.reach 0 accepted) ∧
    (∀ e o, p.parseSource ds env limits input = .error e → e.offset? = some o →
      ¬ p.Raises ds env e ∨ (∀ g, (p.mapErrors g).parseSource (ds.mapErrors g) env limits input = .error e) →
      o ≤ text.utf8ByteSize ∧ (∃ front rest, text = front ++ rest ∧ front.utf8ByteSize = o) ∧
      (∃ stop, Snippet.span input.source o = (o, stop) ∧ stop ≤ text.utf8ByteSize ∧
        (stop = o ↔ o = text.utf8ByteSize) ∧
        (o < text.utf8ByteSize → ∃ front c rest, text = front ++ String.singleton c ++ rest ∧ front.utf8ByteSize = o ∧
          stop = o + c.utf8Size)) ∧
      ∀ colored path, (Snippet.render colored path (some text) e).isSome) ∧
    (∀ (f : FoldSketch) (scale : Int64) (l : f.build.left.Carrier) (r : f.build.right.Carrier),
      ErrorsIn (·.offset? = none) (f.build.fold.apply scale l r)) ∧
    (∀ (m : MappingSketch) (b : AnyMapping), m.build = .ok b → ∀ (scale : Int64) (v : b.source.Carrier),
      ErrorsIn (·.offset? = none) (b.mapping.apply scale v)) ∧
    ∀ (m : TextSketch) (scale : Int64) (text : String), ErrorsIn (·.offset? = none) (m.build.apply scale text) := by
  intro input accepted
  have hi : input.WellFormed := Input.wellFormed_of lexer text
  have hzero : input.source.IsBoundary 0 := Source.isBoundary_zero text
  have hplaces : Places input (p.Raises ds env) (p.parseAt ds input env limits.depth ())
    (p.logAt ds input env limits.depth ()) := p.parseAt_places hi _ () fun _ he => he
  have hends := hplaces (.start limits) hzero
  refine ⟨⟨fun k hk => ?_, hends.went.furthest⟩, fun e o h ho hown => ?_,
    fun f scale l r e he => (f.errorsIn_apply scale l r e he).offset?_eq_none,
    fun m b hb scale v e he => (m.errorsIn_apply hb scale v e he).offset?_eq_none,
    fun m scale text e he => (m.errorsIn_apply scale text e he).offset?_eq_none⟩
  · have hspans := hends.went.spans k hk
    exact Source.exists_slice hspans.le hspans.start hspans.stop
  · have hpoints : e.Points input.source := by
      obtain hown | hown := hown
      · exact (p.parseRest_points hi hzero hzero h).resolve_left hown
      · -- with an error that points nowhere in all folds and mappings, this one is none of theirs
        obtain hraises | hpoints := (p.mapErrors fun _ => .fuelExhausted).parseRest_points hi hzero hzero
          (hown fun _ => .fuelExhausted)
        · obtain ⟨_, rfl⟩ := hraises.exists_of_mapErrors p rfl
          cases ho
        · exact hpoints
    have hboundary := hpoints o ho
    obtain ⟨stop, hspan, hstop, hempty, hone⟩ := Source.span_of_isBoundary hboundary
    exact ⟨Source.size_ofString text ▸ hboundary.le, Source.isBoundary_iff.1 hboundary,
      ⟨stop, hspan, hstop, hempty, hone⟩, fun colored path => Snippet.isSome_render hpoints colored path⟩

/-- A separator that is given back was accepted all the same, and a character of two bytes is marked as a whole. -/
theorem places_shown_nested :
    let limits : Limits := ⟨20, 1⟩
    let input (text : String) : Input := .of Nested.lexer (.ofString text)
    let closed : Parser Unit .value := .after false Nested.word (.token (.pattern 1) false "]")
    let e : Error := .unexpectedInput 2 "']'"
    let comma : Token := ⟨.pattern 2, 2, 3⟩
    (comma ∈ Nested.nested.accepted Nested.definitions () limits (input "[a, ]") ∧
      ∃ front inside rest, "[a, ]" = front ++ inside ++ rest ∧ front.utf8ByteSize = 2 ∧
        (front ++ inside).utf8ByteSize = 3 ∧ (input "[a, ]").source.slice 2 3 = inside) ∧
    (closed.parseSource Nested.definitions () limits (input "a é]") = .error e ∧
      ¬ closed.Raises Nested.definitions () e) ∧
    (∃ stop, Snippet.span (input "a é]").source 2 = (2, stop) ∧
      ∃ front c rest, "a é]" = front ++ String.singleton c ++ rest ∧ front.utf8ByteSize = 2 ∧ stop = 2 + c.utf8Size) ∧
    (Snippet.render false none (some "a é]") e).isSome := by
  intro limits input closed e comma
  have haccepted : comma ∈ Nested.nested.accepted Nested.definitions () limits (input "[a, ]") := by decide +kernel
  have hparse : closed.parse ⟨Nested.definitions, (), input "a é]", 1⟩ () (.start limits) =
      (.fail e, ⟨1, 1, 18, 0⟩) := by decide +kernel
  have herror : closed.parseSource Nested.definitions () limits (input "a é]") = .error e := by
    unfold Node.parseSource Node.parseRest
    rw [hparse]
  have hraises : ¬ closed.Raises Nested.definitions () e := by
    show ¬ Node.Raises _ _ _ (Node.after _ _ _)
    intro h
    cases h with
    | after h =>
      cases h with
      | scan h => cases h
  have hcomma := (places_shown Nested.definitions () limits Nested.lexer "[a, ]" Nested.nested).1.1 comma haccepted
  obtain ⟨-, -, ⟨stop, hspan, -, -, hone⟩, hrender⟩ := (places_shown Nested.definitions () limits Nested.lexer "a é]"
    closed).2.1 e 2 herror rfl (.inl hraises)
  exact ⟨⟨haccepted, hcomma⟩, ⟨herror, hraises⟩, ⟨stop, hspan, hone (by decide)⟩, hrender false none⟩

end Ambigram
