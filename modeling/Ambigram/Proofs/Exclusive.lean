import Ambigram.Proofs.Computation
import Ambigram.Proofs.Exact
import Ambigram.Proofs.Remembering
/-!
# Exclusive tokens

A token is tried in two ways: among the tokens of the longest match, or by its own pattern alone.  The patterns together
and the one alone are looked up apart, but the longest match of all ends where the longest of its tokens does.  So what
matches together with the others matches alone, over the same stretch; and what matches alone also matches together
unless another pattern reaches further.

Trivia are looked for in the same way for both, and an attempt that fails leaves everything but the fuel.
-/
namespace Ambigram

/-! ## One pattern and all of them -/

namespace Lexer

variable {src : Source} {rs : List Regex} {offset n : Nat} {m : LongestMatch}

/-- The tokens of the longest match are those that match as far alone. -/
theorem mem_tokens_iff (hm : furthest offset (endsAt src (rs.map (·.track src)) offset) = some m) : n ∈ m.tokens ↔
    ∃ r, rs[n]? = some r ∧
      ∃ m', furthest offset [(n, (r.track src).run src.size (1 <<< offset))] = some m' ∧ m'.stop = m.stop := by
  have hsorted : ((endsAt src (rs.map (·.track src)) offset).map Prod.fst).Pairwise (· < ·) := by
    rw [map_fst_endsAt]
    exact List.pairwise_lt_range' 1
  have hall := furthest_found hsorted offset
  rw [hm] at hall
  have hone : ∀ r : Regex, LongestMatch.Found
      (fun k j => ∃ e ∈ [(n, (r.track src).run src.size (1 <<< offset))], e.1 = k ∧ e.2.testBit j = true) offset
      (furthest offset [(n, (r.track src).run src.size (1 <<< offset))]) :=
    fun _ => furthest_found (List.pairwise_singleton _ _) offset
  rw [hall.mem_tokens]
  constructor
  · rintro ⟨e, he, rfl, hstop⟩
    obtain ⟨r, hr, hends⟩ := mem_endsAt.1 he
    have he' : e = (e.1, (r.track src).run src.size (1 <<< offset)) := Prod.ext rfl hends
    have hone := hone r
    refine ⟨r, hr, ?_⟩
    rw [← he'] at hone ⊢
    cases hfound : furthest offset [e] with
    | none =>
      rw [hfound] at hone
      exact absurd hall.ahead (Nat.not_lt.2 (hone _ _ ⟨e, List.mem_singleton_self e, rfl, hstop⟩))
    | some m' =>
      rw [hfound] at hone
      obtain ⟨-, e', he', -, hstop'⟩ := hone.reached
      cases List.mem_singleton.1 he'
      exact ⟨m', rfl, Nat.le_antisymm (hall.furthest _ _ ⟨e, he, rfl, hstop'⟩)
        (hone.furthest _ _ ⟨e, List.mem_singleton_self e, rfl, hstop⟩)⟩
  · rintro ⟨r, hr, m', hm', hstop⟩
    have hone := hone r
    rw [hm'] at hone
    obtain ⟨-, e, he, -, hreached⟩ := hone.reached
    cases List.mem_singleton.1 he
    exact ⟨_, mem_endsAt.2 ⟨r, hr, rfl⟩, rfl, hstop ▸ hreached⟩

theorem isTrivia_eq_false_iff {l : Lexer} : l.isTrivia m = false ↔ ∀ k ∈ m.tokens, l.isSkipped (.pattern k) = false := by
  simp [isTrivia]

end Lexer

namespace Input

variable {lexer : Lexer} {src : Source} {offset n : Nat} {m : LongestMatch}

theorem matchOnly_eq_ok_some (ho : offset ≤ src.size) : (fresh lexer src).matchOnly offset (.pattern n) = .ok (some m) ↔
    ∃ r, lexer.regexes[n]? = some r ∧
      Lexer.furthest offset [(n, (r.track src).run src.size (1 <<< offset))] = some m := by
  show Lexer.matchOn src (lexer.tracks src) offset (some (.pattern n)) = _ ↔ _
  unfold Lexer.matchOn Lexer.tracks
  dsimp only
  rw [List.getElem?_map]
  cases hr : lexer.regexes[n]? with
  | none => exact ⟨nofun, nofun⟩
  | some r =>
    show (if src.size < offset then _
      else Except.ok (Lexer.furthest offset [(n, (r.track src).run src.size (1 <<< offset))])) = _ ↔ _
    rw [if_neg (Nat.not_lt.2 ho)]
    simp only [Except.ok.injEq, Option.some.injEq, exists_eq_left']

theorem mem_tokens_iff (ho : offset ≤ src.size) (hm : (fresh lexer src).matchAt offset = some m) : n ∈ m.tokens ↔
    ∃ m', (fresh lexer src).matchOnly offset (.pattern n) = .ok (some m') ∧ m'.stop = m.stop := by
  have hall : Lexer.furthest offset (Lexer.endsAt src (lexer.regexes.map (·.track src)) offset) = some m := hm
  rw [Lexer.mem_tokens_iff hall]
  simp only [matchOnly_eq_ok_some ho]
  constructor
  · rintro ⟨r, hr, m', hm', hstop⟩
    exact ⟨m', ⟨r, hr, hm'⟩, hstop⟩
  · rintro ⟨m', ⟨r, hr, hm'⟩, hstop⟩
    exact ⟨r, hr, m', hm', hstop⟩

/-- Behind the trivia there are no other ones. -/
theorem Settles.isTrivia_eq_false {i : Input} {offset next : Nat} {m : LongestMatch} (h : i.Settles offset next)
    (hm : i.matchAt next = some m) : i.lexer.isTrivia m = false := by
  induction h with
  | nothing h => cases h.symm.trans hm
  | other h htrivia =>
    cases h.symm.trans hm
    exact htrivia
  | trivia _ _ _ ih => exact ih hm

end Input

/-! ## Attempts -/

namespace Cursor

variable {i : Input} {id : TokenId} {exclusive : Bool} {n offset stop : Nat} {c d : Cursor} {token : Token}

theorem stop?_together : stop? i (.pattern n) false offset = .ok (some stop) ↔
    ∃ m, i.matchAt offset = some m ∧ n ∈ m.tokens ∧ m.stop = stop := by
  unfold stop?
  rw [if_neg (by nofun), if_neg (by nofun)]
  simp [Option.filter_eq_some_iff, LongestMatch.contains, and_assoc]

theorem stop?_alone : stop? i (.pattern n) true offset = .ok (some stop) ↔
    ∃ m, i.matchOnly offset (.pattern n) = .ok (some m) ∧ m.stop = stop := by
  unfold stop?
  rw [if_neg (by nofun), if_pos rfl]
  cases i.matchOnly offset (.pattern n) with
  | error e => exact ⟨nofun, nofun⟩
  | ok m => cases m <;> simp [pure, Except.pure, bind, Except.bind]

/-- An attempt that fails costs fuel, and no more than that. -/
theorem accept_ne_hit {o : Outcome Token} (h : accept i id exclusive c = (o, d)) (ho : ∀ token, o ≠ .hit token) :
    d.offset = c.offset ∧ d.furthest = c.furthest ∧ d.depth = c.depth := by
  unfold accept at h
  split at h
  · cases h
    exact ⟨rfl, rfl, rfl⟩
  · dsimp only at h
    split at h
    · cases h
      exact absurd rfl (ho _)
    · cases h
      exact ⟨rfl, rfl, rfl⟩
    · cases h
      exact ⟨rfl, rfl, rfl⟩

/-- A token among the others is one of the longest match. -/
theorem exists_matchAt_of_accept (h : accept i (.pattern n) false c = (.hit token, d)) :
    ∃ m, i.matchAt (c.next i) = some m ∧ n ∈ m.tokens ∧ m.stop = token.stop := by
  obtain ⟨-, -, hstop, -⟩ := accept_eq_hit_iff.1 h
  exact stop?_together.1 hstop

section Fresh

variable {lexer : Lexer} {src : Source} (ho : c.next (.fresh lexer src) ≤ src.size)
include ho

theorem accept_alone_of_together (h : accept (.fresh lexer src) (.pattern n) false c = (.hit token, d)) :
    accept (.fresh lexer src) (.pattern n) true c = (.hit token, d) := by
  obtain ⟨fuel, hfuel, -, htoken, hd⟩ := accept_eq_hit_iff.1 h
  obtain ⟨m, hm, hmem, hmstop⟩ := exists_matchAt_of_accept h
  obtain ⟨m', hm', hstop'⟩ := (Input.mem_tokens_iff ho hm).1 hmem
  exact accept_eq_hit_iff.2 ⟨fuel, hfuel, stop?_alone.2 ⟨m', hm', hstop'.trans hmstop⟩, htoken, hd⟩

theorem accept_together_iff (h : accept (.fresh lexer src) (.pattern n) true c = (.hit token, d)) :
    (∃ token' d', accept (.fresh lexer src) (.pattern n) false c = (.hit token', d')) ↔
      ∃ m, (Input.fresh lexer src).matchAt (c.next (.fresh lexer src)) = some m ∧ m.stop = token.stop := by
  obtain ⟨fuel, hfuel, hstop, htoken, hd⟩ := accept_eq_hit_iff.1 h
  obtain ⟨m', hm', hmstop⟩ := stop?_alone.1 hstop
  constructor
  · rintro ⟨token', d', h'⟩
    cases (accept_alone_of_together ho h').symm.trans h
    obtain ⟨m, hm, -, hstop'⟩ := exists_matchAt_of_accept h'
    exact ⟨m, hm, hstop'⟩
  · rintro ⟨m, hm, hstop'⟩
    have hmem := (Input.mem_tokens_iff (n := n) ho hm).2 ⟨m', hm', hmstop.trans hstop'.symm⟩
    exact ⟨token, d, accept_eq_hit_iff.2 ⟨fuel, hfuel, stop?_together.2 ⟨m, hm, hmem, hstop'⟩, htoken, hd⟩⟩

end Fresh

end Cursor

/-! ## Streams -/

namespace Stream

section Attempts

variable {i : Input} {limits : Limits} {s s' : Stream} {c d : Cursor}
variable {id : TokenId} {exclusive : Bool} {o : Outcome Token}
variable (hi : i.WellFormed) (hkept : i.kept = #[]) (hs : At i limits s c)
include hi hkept hs

/-- What the stream answers is what its cursor does. -/
theorem At.accept_cursor (h : s.accept id exclusive = (o, s')) : Cursor.accept i id exclusive c = (o, s'.cursor) := by
  obtain ⟨s'', heq, hs''⟩ := hs.accept hi hkept id exclusive
  cases heq.symm.trans h
  exact Prod.ext rfl hs''.cursor.symm

theorem At.exists_accept_eq (h : Cursor.accept i id exclusive c = (o, d)) :
    ∃ s', s.accept id exclusive = (o, s') ∧ s'.cursor = d := by
  obtain ⟨s', heq, hs'⟩ := hs.accept hi hkept id exclusive
  rw [h] at heq hs'
  exact ⟨s', heq, hs'.cursor⟩

end Attempts

/-- **Exclusive matching extends the other one.**  Wherever a stream has come to, its trivia end at one place.  A token
that is accepted among the others begins there, is not empty and no trivia, and is accepted alone with the same span and
leaves the stream at the same place.  One that is accepted alone begins there too, and is accepted among the others just
if the longest match of all ends where it does and is no trivia.  And an attempt at any token that is not accepted leaves
the offset, the furthest offset and the depth. -/
theorem accept_exclusive (lexer : Lexer) (text : String) (limits : Limits) (ops : List Op) :
    let source := Source.ofString text
    let s := after ops (start lexer source limits)
    ∃ offset, (∀ next, (Input.fresh lexer source).Settles s.cursor.offset next ↔ next = offset) ∧
      (∀ n token s', s.accept (.pattern n) false = (.hit token, s') →
        token.start = offset ∧ offset < token.stop ∧ lexer.isSkipped (.pattern n) = false ∧
          ∃ s'', s.accept (.pattern n) true = (.hit token, s'') ∧ s''.cursor = s'.cursor) ∧
      (∀ n token s', s.accept (.pattern n) true = (.hit token, s') →
        token.start = offset ∧
          ((∃ token' s'', s.accept (.pattern n) false = (.hit token', s'')) ↔
            ∃ m, lexer.longestMatch source offset none = .ok (some m) ∧ m.stop = token.stop ∧
              ∀ k ∈ m.tokens, lexer.isSkipped (.pattern k) = false)) ∧
      ∀ id exclusive o s', s.accept id exclusive = (o, s') → (∀ token, o ≠ .hit token) →
        s'.cursor.offset = s.cursor.offset ∧ s'.cursor.furthest = s.cursor.furthest ∧
        s'.cursor.depth = s.cursor.depth := by
  intro source s
  have hi := Input.wellFormed_fresh lexer text
  have hstart : At (.fresh lexer source) limits (start lexer source limits) (.start limits) :=
    { input := rfl, limits := rfl, cursor := rfl, within := Nat.zero_le _, last := nofun }
  obtain ⟨c, hs⟩ : ∃ c, At (.fresh lexer source) limits s c := hstart.after hi rfl ops
  have hcursor : s.cursor = c := hs.cursor
  have hnext : c.next (.fresh lexer source) ≤ source.size := (hi.stretch_skipTrivia c.offset).within hi.source hs.within
  have hsettles : ∀ next, (Input.fresh lexer source).Settles c.offset next ↔ next = c.next (.fresh lexer source) :=
    fun next => (hi.settles_iff hs.within).trans eq_comm
  have hlongest : lexer.longestMatch source (c.next (.fresh lexer source)) none =
      .ok ((Input.fresh lexer source).matchAt (c.next (.fresh lexer source))) := if_neg (Nat.not_lt.2 hnext)
  have hother : ∀ {m}, (Input.fresh lexer source).matchAt (c.next (.fresh lexer source)) = some m →
      ∀ k ∈ m.tokens, lexer.isSkipped (.pattern k) = false :=
    fun hm => Lexer.isTrivia_eq_false_iff.1 (((hsettles _).2 rfl).isTrivia_eq_false hm)
  refine ⟨c.next (.fresh lexer source), hcursor ▸ hsettles, fun n token s' h => ?_, fun n token s' h => ?_,
    fun id exclusive o s' h ho => hcursor ▸ Cursor.accept_ne_hit (hs.accept_cursor hi rfl h) ho⟩
  · have h := hs.accept_cursor hi rfl h
    obtain ⟨-, hstart, -⟩ := Cursor.accept_eq_hit h
    obtain ⟨m, hm, hmem, hmstop⟩ := Cursor.exists_matchAt_of_accept h
    exact ⟨hstart, hmstop ▸ hi.ahead hm, hother hm n hmem,
      hs.exists_accept_eq hi rfl (Cursor.accept_alone_of_together hnext h)⟩
  · have h := hs.accept_cursor hi rfl h
    obtain ⟨-, hstart, -⟩ := Cursor.accept_eq_hit h
    have htogether := Cursor.accept_together_iff hnext h
    refine ⟨hstart, ?_⟩
    rw [hlongest]
    constructor
    · rintro ⟨token', s'', h'⟩
      obtain ⟨m, hm, hmstop⟩ := htogether.1 ⟨token', _, hs.accept_cursor hi rfl h'⟩
      exact ⟨m, congrArg _ hm, hmstop, hother hm⟩
    · rintro ⟨m, hm, hmstop, -⟩
      obtain ⟨token', d, h'⟩ := htogether.2 ⟨m, Except.ok.inj hm, hmstop⟩
      obtain ⟨s'', h'', -⟩ := hs.exists_accept_eq hi rfl h'
      exact ⟨token', s'', h''⟩

/-! ### A keyword

A word, the letters of which make longer words, with blanks between. -/

namespace Keyword

def lexer : Lexer where
  patterns := [.regex " +", .text "let", .regex "[a-z]+"]
  regexes := [.times 1 none (.chars (.single ' ')), .literal ['l', 'e', 't'],
    .times 1 none (.chars (.ranges [(97, 122)]))]
  skipped := [true, false, false]

end Keyword

/-- The word stands alone first, and then only in front of other letters. -/
theorem accept_exclusive_keyword :
    let source := Source.ofString "  let letter"
    let s := start Keyword.lexer source ⟨9, 1⟩
    let s' := after [.accept (.pattern 1) false] s
    ((s.accept (.pattern 1) false).1 = .hit ⟨.pattern 1, 2, 5⟩ ∧
      ∃ s'', s.accept (.pattern 1) true = (.hit ⟨.pattern 1, 2, 5⟩, s'')) ∧
    ((s'.accept (.pattern 1) true).1 = .hit ⟨.pattern 1, 6, 9⟩ ∧
      Keyword.lexer.longestMatch source 6 none = .ok (some ⟨12, [2]⟩) ∧
      ¬ ∃ token s'', s'.accept (.pattern 1) false = (.hit token, s'')) ∧
    (s'.accept (.pattern 1) false).1 = .miss ∧ (s'.accept (.pattern 1) false).2.cursor.offset = 5 := by
  intro source s s'
  have hfirst : (s.accept (.pattern 1) false).1 = .hit ⟨.pattern 1, 2, 5⟩ := by decide +kernel
  have hsecond : (s'.accept (.pattern 1) true).1 = .hit ⟨.pattern 1, 6, 9⟩ := by decide +kernel
  have hlongest : Keyword.lexer.longestMatch source 6 none = .ok (some ⟨12, [2]⟩) := by decide +kernel
  have hmiss : (s'.accept (.pattern 1) false).1 = .miss := by decide +kernel
  have hstays : s'.accept (.pattern 1) false = (.miss, (s'.accept (.pattern 1) false).2) := Prod.ext hmiss rfl
  have hbefore : s'.cursor.offset = 5 := by decide +kernel
  obtain ⟨_, -, htogether, -⟩ := accept_exclusive Keyword.lexer "  let letter" ⟨9, 1⟩ []
  obtain ⟨offset, -, -, halone, hfails⟩ :=
    accept_exclusive Keyword.lexer "  let letter" ⟨9, 1⟩ [.accept (.pattern 1) false]
  obtain ⟨-, -, -, s'', hs'', -⟩ := htogether 1 _ _ (Prod.ext hfirst rfl)
  have hs' : after [.accept (.pattern 1) false] (start Keyword.lexer (.ofString "  let letter") ⟨9, 1⟩) = s' := rfl
  rw [hs'] at hfails
  obtain ⟨hoffset, hiff⟩ := halone 1 _ _ (Prod.ext hsecond rfl)
  cases hoffset
  refine ⟨⟨hfirst, s'', hs''⟩, ⟨hsecond, hlongest, fun h => ?_⟩, hmiss,
    (hfails _ _ _ _ hstays nofun).1.trans hbefore⟩
  obtain ⟨m, hm, hstop, -⟩ := hiff.1 h
  cases hlongest.symm.trans hm
  cases hstop

end Stream
end Ambigram
