import Ambigram.Lexer
import Ambigram.Proofs.Exact
import Ambigram.Value.Entries
/-!
# Calls to a tokenizer

What a tokenizer answers, over every sequence of calls to register a pattern and to mark a token as trivia.  A token is
the place at which its pattern was first registered, and stays it, so that the lexer that is built in the end has the
tokens that were handed out before.
-/
namespace Ambigram

namespace Tokenizer

/-! ## Single calls -/

/-- A registration finds the pattern, or makes a token for it, or fails and changes nothing. -/
theorem register_cases (t : Tokenizer) (p : Pattern) :
    (∃ k, t.patterns[k]? = some p ∧ t.register p = (.ok (.pattern k), t)) ∨
    (p ∉ t.patterns ∧ (∃ r, p.check = .ok r) ∧
      t.register p = (.ok (.pattern t.size), { t with patterns := t.patterns ++ [p] })) ∨
    ∃ e, p.check = .error e ∧ t.register p = (.error e, t) := by
  unfold register
  cases hp : t.patterns.idxOf? p with
  | some k =>
    obtain ⟨hlt, hat, -⟩ := List.idxOf?_eq_some_iff.1 hp
    exact .inl ⟨k, List.getElem?_eq_some_iff.2 ⟨hlt, hat⟩, rfl⟩
  | none =>
    cases hcheck : p.check with
    | ok r => exact .inr (.inl ⟨List.idxOf?_eq_none_iff.1 hp, ⟨r, rfl⟩, rfl⟩)
    | error e => exact .inr (.inr ⟨e, rfl, rfl⟩)

/-- A token that is there is marked, and for any other one the call fails and changes nothing. -/
theorem mark_cases (t : Tokenizer) (id : TokenId) :
    (∃ k < t.size, id = .pattern k ∧
      t.mark id = (.ok (), if k ∈ t.skipped then t else { t with skipped := t.skipped ++ [k] })) ∨
    (∀ k < t.size, id ≠ .pattern k) ∧ t.mark id = (.error (.unknownToken id), t) := by
  cases id with
  | endOfInput => exact .inr ⟨nofun, rfl⟩
  | pattern k =>
    by_cases h : k < t.size
    · exact .inl ⟨k, h, rfl, if_pos h⟩
    · refine .inr ⟨?_, if_neg h⟩
      rintro j hj ⟨⟩
      exact h hj

/-! ## Sequences of calls -/

inductive Call
  | add (p : Pattern)
  | skip (id : TokenId)
  deriving DecidableEq

/-- What a call answers, and the tokenizer that it leaves behind.  A call to mark a token answers the token. -/
def perform (t : Tokenizer) : Call → Except Error TokenId × Tokenizer
  | .add p => t.register p
  | .skip id => ((t.mark id).1.map fun _ => id, (t.mark id).2)

def after (t : Tokenizer) (calls : List Call) : Tokenizer := calls.foldl (fun t c => (t.perform c).2) t

/-- The call with its answer, unless it failed. -/
def entry (t : Tokenizer) (c : Call) : List (Call × TokenId) :=
  match (t.perform c).1 with
  | .ok id => [(c, id)]
  | .error _ => []

/-- The calls that did not fail, in turn. -/
def log (t : Tokenizer) : List Call → List (Call × TokenId)
  | [] => []
  | c :: cs => t.entry c ++ (t.perform c).2.log cs

/-- A call fails and changes nothing, or is entered in the log. -/
theorem perform_cases (t : Tokenizer) (c : Call) :
    (∃ e, t.perform c = (.error e, t)) ∨
    (∃ p k, c = .add p ∧ t.patterns[k]? = some p ∧ t.perform c = (.ok (.pattern k), t)) ∨
    (∃ p, c = .add p ∧ p ∉ t.patterns ∧ (∃ r, p.check = .ok r) ∧
      t.perform c = (.ok (.pattern t.size), { t with patterns := t.patterns ++ [p] })) ∨
    ∃ k < t.size, c = .skip (.pattern k) ∧
      t.perform c = (.ok (.pattern k), if k ∈ t.skipped then t else { t with skipped := t.skipped ++ [k] }) := by
  cases c with
  | add p =>
    obtain ⟨k, hk, h⟩ | ⟨hp, hcheck, h⟩ | ⟨e, -, h⟩ := t.register_cases p
    · exact .inr (.inl ⟨p, k, rfl, hk, h⟩)
    · exact .inr (.inr (.inl ⟨p, rfl, hp, hcheck, h⟩))
    · exact .inl ⟨e, h⟩
  | skip id =>
    unfold perform
    dsimp only
    obtain ⟨k, hk, rfl, h⟩ | ⟨-, h⟩ := t.mark_cases id
    · exact .inr (.inr (.inr ⟨k, hk, rfl, by rw [h]; rfl⟩))
    · exact .inl ⟨_, by rw [h]; rfl⟩

theorem entry_of_error {t t' : Tokenizer} {c : Call} {e : Error} (h : t.perform c = (.error e, t')) :
    t.entry c = [] := by
  rw [entry, h]

theorem entry_of_ok {t t' : Tokenizer} {c : Call} {id : TokenId} (h : t.perform c = (.ok id, t')) :
    t.entry c = [(c, id)] := by
  rw [entry, h]

/-! ## What is kept -/

/-- The registrations in a log, in turn. -/
def registrations (log : List (Call × TokenId)) : List (Pattern × TokenId) :=
  log.filterMap fun
    | (.add p, id) => some (p, id)
    | (.skip _, _) => none

/-- What was answered and what the tokenizer holds are the same. -/
structure Keeps (t : Tokenizer) (log : List (Call × TokenId)) : Prop where
  nodup : t.patterns.Nodup
  checked : ∀ p ∈ t.patterns, ∃ r, p.check = .ok r
  patterns : ((registrations log).map Prod.fst).eraseDups = t.patterns
  ids : ((registrations log).map Prod.snd).eraseDups = (List.range t.size).map .pattern
  holds : ∀ p id, (.add p, id) ∈ log → t.pattern? id = some p
  marked : ∀ id, (.skip id, id) ∈ log ↔ ∃ k ∈ t.skipped, id = .pattern k
  within : ∀ k ∈ t.skipped, k < t.size

theorem keeps_empty : empty.Keeps [] where
  nodup := .nil
  checked _ h := by cases h
  patterns := rfl
  ids := rfl
  holds _ _ h := by cases h
  marked id := by simp [empty]
  within _ h := by cases h

section

variable {t : Tokenizer} {log : List (Call × TokenId)} {p : Pattern} {id : TokenId}

theorem Keeps.mem_patterns (h : t.Keeps log) : p ∈ (registrations log).map Prod.fst ↔ p ∈ t.patterns := by
  rw [← h.patterns, List.mem_eraseDups]

theorem Keeps.mem_ids (h : t.Keeps log) : id ∈ (registrations log).map Prod.snd ↔ ∃ k < t.size, id = .pattern k := by
  rw [← List.mem_eraseDups, h.ids]
  simp [eq_comm]

/-- What is read off the registrations, each once, with one more registration. -/
theorem eraseDups_registrations_add {α : Type} [DecidableEq α] (f : Pattern × TokenId → α) :
    ((registrations (log ++ [(.add p, id)])).map f).eraseDups =
      if f (p, id) ∈ (registrations log).map f then ((registrations log).map f).eraseDups
      else ((registrations log).map f).eraseDups ++ [f (p, id)] := by
  have hlast : registrations (log ++ [(.add p, id)]) = registrations log ++ [(p, id)] := by simp [registrations]
  rw [hlast, List.map_append, List.map_singleton, Entries.eraseDups_concat]

theorem registrations_skip {a : TokenId} : registrations (log ++ [(.skip a, id)]) = registrations log := by
  simp [registrations]

/-- A pattern that is registered again gets the token that it has. -/
theorem Keeps.again (h : t.Keeps log) {k : Nat} (hk : t.patterns[k]? = some p) :
    t.Keeps (log ++ [(.add p, .pattern k)]) where
  nodup := h.nodup
  checked := h.checked
  patterns := by
    rw [eraseDups_registrations_add, if_pos (h.mem_patterns.2 (List.mem_of_getElem? hk)), h.patterns]
  ids := by
    rw [eraseDups_registrations_add, if_pos (h.mem_ids.2 ⟨k, (List.getElem?_eq_some_iff.1 hk).1, rfl⟩), h.ids]
  holds q id hq := by
    obtain hq | hq := List.mem_append.1 hq
    · exact h.holds q id hq
    · cases List.mem_singleton.1 hq
      exact hk
  marked id := by simp [h.marked]
  within := h.within

/-- A new pattern gets the next token. -/
theorem Keeps.next (h : t.Keeps log) (hp : p ∉ t.patterns) (hcheck : ∃ r, p.check = .ok r) :
    Keeps { t with patterns := t.patterns ++ [p] } (log ++ [(.add p, .pattern t.size)]) where
  nodup := by
    rw [← List.concat_eq_append]
    exact h.nodup.concat hp
  checked q hq := by
    obtain hq | hq := List.mem_append.1 hq
    · exact h.checked q hq
    · exact List.mem_singleton.1 hq ▸ hcheck
  patterns := by
    rw [eraseDups_registrations_add, if_neg (fun hmem => hp (h.mem_patterns.1 hmem)), h.patterns]
  ids := by
    have hnew : TokenId.pattern t.size ∉ (registrations log).map Prod.snd := by
      rw [h.mem_ids]
      rintro ⟨k, hk, heq⟩
      cases heq
      exact Nat.lt_irrefl _ hk
    rw [eraseDups_registrations_add, if_neg hnew, h.ids]
    simp [size, List.range_succ]
  holds q id hq := by
    obtain hq | hq := List.mem_append.1 hq
    · have hold := h.holds q id hq
      cases id with
      | endOfInput => cases hold
      | pattern k =>
        obtain ⟨hlt, -⟩ := List.getElem?_eq_some_iff.1 hold
        exact (List.getElem?_append_left hlt).trans hold
    · cases List.mem_singleton.1 hq
      simp [pattern?, size]
  marked id := by simp [h.marked]
  within k hk := by
    have := h.within k hk
    simp only [size, List.length_append] at this ⊢
    omega

/-- Marking a token changes no pattern. -/
theorem Keeps.mark (h : t.Keeps log) {k : Nat} (hk : k < t.size) {skipped : List Nat}
    (hskipped : ∀ j, j ∈ skipped ↔ j ∈ t.skipped ∨ j = k) :
    Keeps { t with skipped } (log ++ [(.skip (.pattern k), .pattern k)]) where
  nodup := h.nodup
  checked := h.checked
  patterns := by rw [registrations_skip, h.patterns]
  ids := by rw [registrations_skip, h.ids]; rfl
  holds p id hp := h.holds p id (by simpa using hp)
  marked id := by simp [h.marked, hskipped, or_and_right, exists_or]
  within j hj := by
    obtain hj | rfl := (hskipped j).1 hj
    · exact h.within j hj
    · exact hk

/-- **Every call keeps the log and the tokenizer together.** -/
theorem Keeps.perform (h : t.Keeps log) (c : Call) : (t.perform c).2.Keeps (log ++ t.entry c) := by
  obtain ⟨e, hfail⟩ | ⟨p, k, rfl, hk, hok⟩ | ⟨p, rfl, hp, hcheck, hok⟩ | ⟨k, hk, rfl, hok⟩ := t.perform_cases c
  · rw [entry_of_error hfail, hfail, List.append_nil]
    exact h
  · rw [entry_of_ok hok, hok]
    exact h.again hk
  · rw [entry_of_ok hok, hok]
    exact h.next hp hcheck
  · rw [entry_of_ok hok, hok]
    dsimp only
    split
    · rename_i hold
      exact h.mark hk fun j => (or_iff_left_of_imp fun hj => hj ▸ hold).symm
    · exact h.mark hk fun j => by simp

theorem Keeps.after (h : t.Keeps log) (calls : List Call) : (t.after calls).Keeps (log ++ t.log calls) := by
  induction calls generalizing t log with
  | nil => simpa [Tokenizer.after, Tokenizer.log] using h
  | cons c cs ih =>
    rw [Tokenizer.log, ← List.append_assoc]
    exact ih (h.perform c)

/-- Each pattern has one token, and each token one pattern. -/
theorem Keeps.token_iff (h : t.Keeps log) {q : Pattern} {id' : TokenId} (hp : (.add p, id) ∈ log)
    (hq : (.add q, id') ∈ log) : id = id' ↔ p = q := by
  have hp := h.holds p id hp
  have hq := h.holds q id' hq
  constructor
  · rintro rfl
    exact Option.some.inj (hp.symm.trans hq)
  · rintro rfl
    cases id with
    | endOfInput => cases hp
    | pattern k =>
      cases id' with
      | endOfInput => cases hq
      | pattern j =>
        have hlt := (List.getElem?_eq_some_iff.1 hp).1
        rw [(List.getElem?_inj hlt h.nodup).1 (hp.trans hq.symm)]

/-- A token that was handed out is the place of its pattern. -/
theorem Keeps.exists_place (h : t.Keeps log) (hp : (.add p, id) ∈ log) : ∃ k < t.size, id = .pattern k := by
  have hpattern := h.holds p id hp
  cases id with
  | endOfInput => cases hpattern
  | pattern k => exact ⟨k, (List.getElem?_eq_some_iff.1 hpattern).1, rfl⟩

/-- As long as there is room, the numbers tell the tokens apart. -/
theorem Keeps.number_iff (h : t.Keeps log) (hroom : t.size ≤ TokenId.endOfInput.number) {q : Pattern} {id' : TokenId}
    (hp : (.add p, id) ∈ log) (hq : (.add q, id') ∈ log) :
    id.number < TokenId.endOfInput.number ∧ (id.number = id'.number ↔ p = q) := by
  rw [← h.token_iff hp hq]
  obtain ⟨k, hk, rfl⟩ := h.exists_place hp
  obtain ⟨j, -, rfl⟩ := h.exists_place hq
  exact ⟨Nat.lt_of_lt_of_le hk hroom, by simp [TokenId.number]⟩

/-! ## Which calls fail -/

theorem eq_of_perform_eq_error {t : Tokenizer} {c : Call} {e : Error} (h : (t.perform c).1 = .error e) :
    (t.perform c).2 = t := by
  obtain ⟨_, hfail⟩ | ⟨_, _, -, -, hok⟩ | ⟨_, -, -, -, hok⟩ | ⟨_, -, -, hok⟩ := t.perform_cases c
  · rw [hfail]
  all_goals
    rw [hok] at h
    cases h

/-- A pattern is refused for what it is, whatever was registered before. -/
theorem Keeps.add_eq_error (h : t.Keeps log) {e : Error} : (t.perform (.add p)).1 = .error e ↔ p.check = .error e := by
  unfold Tokenizer.perform
  obtain ⟨k, hk, hok⟩ | ⟨-, ⟨r, hr⟩, hok⟩ | ⟨e', he', hfail⟩ := t.register_cases p
  · obtain ⟨r, hr⟩ := h.checked p (List.mem_of_getElem? hk)
    simp [hok, hr]
  · simp [hok, hr]
  · simp [hfail, he']

theorem skip_eq_error {e : Error} :
    (t.perform (.skip id)).1 = .error e ↔ e = .unknownToken id ∧ ∀ k < t.size, id ≠ .pattern k := by
  unfold Tokenizer.perform
  dsimp only
  obtain ⟨k, hk, rfl, hok⟩ | ⟨hnone, hfail⟩ := t.mark_cases id
  · rw [hok]
    exact ⟨nofun, fun h => absurd rfl (h.2 k hk)⟩
  · rw [hfail]
    exact ⟨fun h => ⟨(Except.error.inj h).symm, hnone⟩, fun h => congrArg Except.error h.1.symm⟩

end

/-! ## The flags of a lexer -/

/-- Sets the flag of a token, if it has one. -/
def flag (flags : List Bool) (k : Nat) : Option (List Bool) :=
  if k < flags.length then some (flags.set k true) else none

/-- One flag for each token, set for the marked ones in turn. -/
def flags? (t : Tokenizer) : Option (List Bool) := t.skipped.foldlM flag (List.replicate t.size false)

theorem foldlM_flag : ∀ (ks : List Nat) (flags : List Bool), (∀ k ∈ ks, k < flags.length) →
    ∃ flags', ks.foldlM flag flags = some flags' ∧ flags'.length = flags.length ∧
      ∀ i, flags'[i]? = flags[i]?.map (· || ks.contains i)
  | [], flags, _ => ⟨flags, rfl, rfl, fun i => by simp⟩
  | k :: ks, flags, h => by
    have hk : k < flags.length := h k List.mem_cons_self
    obtain ⟨flags', hfold, hlength, hget⟩ := foldlM_flag ks (flags.set k true) fun j hj => by
      rw [List.length_set]
      exact h j (List.mem_cons_of_mem k hj)
    refine ⟨flags', ?_, hlength.trans List.length_set, fun i => ?_⟩
    · rw [List.foldlM_cons, flag, if_pos hk]
      exact hfold
    · rw [hget, List.getElem?_set]
      split
      · rename_i heq
        subst heq
        simp [hk]
      · rename_i hne
        simp [Ne.symm hne]

/-- Every marked token has a flag, and the flags come to those of the built lexer. -/
theorem Keeps.flags {t : Tokenizer} {log : List (Call × TokenId)} (h : t.Keeps log) :
    t.flags? = some ((List.range t.size).map t.skipped.contains) := by
  obtain ⟨flags, hfold, hlength, hget⟩ := foldlM_flag t.skipped (List.replicate t.size false) fun k hk => by
    simpa using h.within k hk
  unfold flags?
  rw [hfold]
  refine congrArg some (List.ext_getElem? fun i => ?_)
  rw [hget]
  by_cases hi : i < t.size
  · simp [hi]
  · simp [hi]

theorem Keeps.build {t : Tokenizer} {log : List (Call × TokenId)} (h : t.Keeps log) {l : Lexer}
    (hbuild : t.build = .ok l) : l.size = t.size ∧ (∀ id, l.pattern? id = t.pattern? id) ∧ t.flags? = some l.skipped ∧
      ∀ id, l.isSkipped id = true ↔ (.skip id, id) ∈ log := by
  obtain ⟨hpatterns, -⟩ := built_of_build hbuild
  have hskipped : l.skipped = (List.range t.size).map t.skipped.contains := by
    obtain ⟨regexes, -, hrest⟩ := bind_eq_ok.1 hbuild
    dsimp only at hrest
    split at hrest
    · cases hrest
    · cases hrest
      rfl
  refine ⟨congrArg List.length hpatterns, fun id => ?_, hskipped ▸ h.flags, fun id => ?_⟩
  · cases id with
    | endOfInput => rfl
    | pattern k => exact congrArg (·[k]?) hpatterns
  · rw [h.marked]
    cases id with
    | endOfInput => simp [Lexer.isSkipped]
    | pattern k =>
      have hwithin := h.within k
      by_cases hk : k < t.size
      · simp [Lexer.isSkipped, hskipped, hk]
      · have hnot : k ∉ t.skipped := fun hmem => hk (hwithin hmem)
        simp [Lexer.isSkipped, hskipped, hk, hnot]

end Tokenizer

/-! ## Over every sequence of calls -/

/-- **Tokens are stable.**  Whatever was called before, two registrations have the same token exactly if their patterns
are the same, and so it is with their numbers as long as there is room below the number of the end of the input.  The
tokens are those from zero on in the order in which patterns were first registered, and a token leads to its pattern
after any further calls.  A call that fails leaves the tokenizer as it was: a pattern that is not well
formed is refused, and a token that was not registered cannot be marked.  Each marked token has a flag to be set, and
the lexer that is built has the tokens, the patterns and the flags of the tokenizer; it takes for trivia what was
marked, and nothing else. -/
theorem tokens_stable (calls : List Tokenizer.Call) :
    let t := Tokenizer.empty.after calls
    let log := Tokenizer.empty.log calls
    let given := Tokenizer.registrations log
    (∀ p q i j, (.add p, i) ∈ log → (.add q, j) ∈ log → (i = j ↔ p = q)) ∧
    (t.size ≤ TokenId.endOfInput.number → ∀ p q i j, (.add p, i) ∈ log → (.add q, j) ∈ log →
      i.number < TokenId.endOfInput.number ∧ (i.number = j.number ↔ p = q)) ∧
    ((given.map Prod.fst).eraseDups = t.patterns ∧
      (given.map Prod.snd).eraseDups = (List.range t.size).map .pattern) ∧
    (∀ p i, (.add p, i) ∈ log → ∀ later, (t.after later).pattern? i = some p) ∧
    ((∀ c e, (t.perform c).1 = .error e → (t.perform c).2 = t) ∧
      (∀ p e, (t.perform (.add p)).1 = .error e ↔ p.check = .error e) ∧
      ∀ id e, (t.perform (.skip id)).1 = .error e ↔ e = .unknownToken id ∧ ∀ k < t.size, id ≠ .pattern k) ∧
    (∃ flags, t.flags? = some flags ∧ ∀ l, t.build = .ok l → l.size = t.size ∧
      (∀ id, l.pattern? id = t.pattern? id) ∧ l.skipped = flags ∧
      ∀ id, l.isSkipped id = true ↔ (.skip id, id) ∈ log) := by
  intro t log given
  have h : t.Keeps log := Tokenizer.keeps_empty.after calls
  refine ⟨fun p q i j hp hq => h.token_iff hp hq, fun hroom p q i j hp hq => h.number_iff hroom hp hq,
    ⟨h.patterns, h.ids⟩, fun p i hp later => (h.after later).holds p i (List.mem_append_left _ hp),
    ⟨fun c e => Tokenizer.eq_of_perform_eq_error, fun p e => h.add_eq_error, fun id e => Tokenizer.skip_eq_error⟩,
    _, h.flags, fun l hl => ?_⟩
  obtain ⟨hsize, hpattern, hflags, hskipped⟩ := h.build hl
  exact ⟨hsize, hpattern, Option.some.inj (hflags.symm.trans h.flags), hskipped⟩

/-- A pattern registered twice, one that is refused in between, and two tokens that are not there to be marked. -/
theorem tokens_stable_mixed :
    let a : Pattern := .text "a"
    let broken : Pattern := .regex "("
    let space : Pattern := .regex " +"
    let calls : List Tokenizer.Call := [.add a, .add broken, .add space, .add a, .skip (.pattern 1), .skip (.pattern 7),
      .skip .endOfInput]
    let t := Tokenizer.empty.after calls
    let log := Tokenizer.empty.log calls
    log = [(.add a, .pattern 0), (.add space, .pattern 1), (.add a, .pattern 0), (.skip (.pattern 1), .pattern 1)] ∧
    (TokenId.pattern 0 = .pattern 1 ↔ a = space) ∧
    ((TokenId.pattern 0).number = (TokenId.pattern 1).number ↔ a = space) ∧
    (t.after [.add broken, .add (.text "b")]).pattern? (.pattern 1) = some space ∧
    (t.perform (.skip (.pattern 2))).2 = t ∧
    ∃ l, t.build = .ok l ∧ l.size = t.size ∧ l.isSkipped (.pattern 1) = true := by
  intro a broken space calls t log
  have ha : (.add a, .pattern 0) ∈ log := by decide +kernel
  have hspace : (.add space, .pattern 1) ∈ log := by decide +kernel
  have hmark : (.skip (.pattern 1), .pattern 1) ∈ log := by decide +kernel
  have hmissing : (t.perform (.skip (.pattern 2))).1 = .error (.unknownToken (.pattern 2)) := by decide +kernel
  have hok : t.build.isOk = true := by decide +kernel
  obtain ⟨l, hl⟩ : ∃ l, t.build = .ok l := by
    cases h : t.build with
    | error e => simp [h, Except.isOk, Except.toBool] at hok
    | ok l => exact ⟨l, rfl⟩
  obtain ⟨htoken, hnumber, -, hstays, ⟨hfail, -⟩, flags, -, hbuilt⟩ := tokens_stable calls
  obtain ⟨hsize, -, -, htrivia⟩ := hbuilt l hl
  exact ⟨by decide +kernel, htoken a space _ _ ha hspace, (hnumber (by decide +kernel) a space _ _ ha hspace).2,
    hstays space _ hspace _, hfail _ _ hmissing, l, hl, hsize, (htrivia _).2 hmark⟩

end Ambigram
