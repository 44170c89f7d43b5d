import Ambigram.Proofs.Extent
/-!
# Tracks find the matches

A track takes all offsets where a match may begin at once, and a repetition follows only what is new.  It ends up at
every offset where a match ends, and at no other.

For a repetition without an upper end there are turns for as many steps as the source has offsets.  More could only be
needed by a chain of steps in which one does not move, and that one can be left out.
-/
namespace Ambigram
namespace Regex

/-! ## Chains of steps -/

section Chains

variable {T : Nat → Nat → Prop} {a b k m n : Nat}

/-- So many steps, one after another. -/
def Chain (T : Nat → Nat → Prop) : Nat → Nat → Nat → Prop
  | 0, a, k => a = k
  | n + 1, a, k => ∃ b, T a b ∧ Chain T n b k

theorem chain_add : ∀ {m a : Nat}, Chain T (m + n) a k ↔ ∃ b, Chain T m a b ∧ Chain T n b k
  | 0, a => by simp [Chain]
  | m + 1, a => by
    rw [Nat.succ_add]
    simp only [Chain, chain_add]
    constructor
    · rintro ⟨b, hb, c, hc, hk⟩
      exact ⟨c, ⟨b, hb, hc⟩, hk⟩
    · rintro ⟨c, ⟨b, hb, hc⟩, hk⟩
      exact ⟨b, hb, c, hc, hk⟩

/-- Steps that do not move can be left out of a chain. -/
theorem exists_chain_le (hT : ∀ {a k}, T a k → a ≤ k) : ∀ {n a : Nat}, Chain T n a k →
    ∃ m, m ≤ k - a ∧ a ≤ k ∧ Chain T m a k
  | 0, a, h => ⟨0, Nat.zero_le _, Nat.le_of_eq h, h⟩
  | n + 1, a, ⟨b, hb, h⟩ => by
    obtain ⟨m, hm, hbk, hchain⟩ := exists_chain_le hT h
    rcases Nat.lt_or_eq_of_le (hT hb) with hlt | rfl
    · exact ⟨m + 1, by omega, by omega, b, hb, hchain⟩
    · exact ⟨m, hm, hbk, hchain⟩

end Chains

/-! ## What an expression matches -/

section Matches

variable {src : Source} {r : Regex} {a k : Nat}

theorem Matches.stretch (h : r.Matches src a k) : src.Stretch a k := by
  induction h with
  | empty | look | timesDone => exact .nil
  | chars h _ => exact .snoc .nil h
  | seq _ _ iha ihb => exact iha.trans ihb
  | altLeft _ ih | altRight _ ih => exact ih
  | timesMore _ _ _ ihx ih => exact ihx.trans ih

/-- A repetition matches a chain of matches, of a length that is allowed. -/
theorem matches_times {min : Nat} {max : Option Nat} {x : Regex} :
    (Regex.times min max x).Matches src a k ↔ ∃ n, min ≤ n ∧ (∀ m ∈ max, n ≤ m) ∧ Chain (x.Matches src) n a k := by
  constructor
  · intro h
    generalize hr : Regex.times min max x = r at h
    induction h generalizing min max with
    | timesDone i =>
      cases hr
      exact ⟨0, Nat.le_refl _, fun _ _ => Nat.zero_le _, rfl⟩
    | timesMore room head _ _ ih =>
      cases hr
      obtain ⟨n, hmin, hmax, hchain⟩ := ih rfl
      refine ⟨n + 1, by omega, fun m hm => ?_, _, head, hchain⟩
      cases hm
      have hn := hmax (m - 1) rfl
      have hm : m ≠ 0 := fun h0 => room (h0 ▸ rfl)
      omega
    | _ => cases hr
  · rintro ⟨n, hmin, hmax, hchain⟩
    induction n generalizing a min max with
    | zero =>
      cases Nat.le_zero.1 hmin
      cases hchain
      exact .timesDone _
    | succ n ih =>
      obtain ⟨b, hb, hchain⟩ := hchain
      refine .timesMore (fun h0 => ?_) hb (ih (by omega) (fun m hm => ?_) hchain)
      · exact absurd (hmax 0 h0) (Nat.not_succ_le_zero n)
      · obtain ⟨m', hm', rfl⟩ := Option.map_eq_some_iff.1 hm
        exact Nat.le_sub_one_of_lt (hmax m' hm')

end Matches

/-! ## Sets of offsets -/

variable {src : Source}

/-- From a set of offsets in the source, the step goes where the relation leads from one of them. -/
def Leads (src : Source) (step : Nat → Nat) (T : Nat → Nat → Prop) : Prop :=
  ∀ set, Members (· ≤ src.size) set → ∀ k, (step set).testBit k = true ↔ ∃ a, set.testBit a = true ∧ T a k

/-- The relation only leads forward, and not out of the source. -/
def Forward (src : Source) (T : Nat → Nat → Prop) : Prop := ∀ {a k}, T a k → a ≤ k ∧ (a ≤ src.size → k ≤ src.size)

theorem Forward.chain {T : Nat → Nat → Prop} (hT : Forward src T) : ∀ {n : Nat}, Forward src (Chain T n)
  | 0, _, _, h => by
    cases h
    exact ⟨Nat.le_refl _, id⟩
  | _ + 1, _, _, ⟨_, hab, hbk⟩ =>
    ⟨Nat.le_trans (hT hab).1 (hT.chain hbk).1, fun ha => (hT.chain hbk).2 ((hT hab).2 ha)⟩

section Steps

variable {step : Nat → Nat} {T : Nat → Nat → Prop} (hstep : Leads src step T) (hT : Forward src T)
include hstep hT

theorem Leads.members {set : Nat} (h : Members (· ≤ src.size) set) : Members (· ≤ src.size) (step set) := by
  intro k hk
  obtain ⟨a, ha, hak⟩ := (hstep set h k).1 hk
  exact (hT hak).2 (h a ha)

theorem Leads.exactly : ∀ n, Leads src (Track.exactly step n) (Chain T n)
  | 0, set, _, k => by simp [Track.exactly, Chain]
  | n + 1, set, hset, k => by
    unfold Track.exactly
    split
    · rename_i h0
      simp [h0]
    · rw [Leads.exactly n _ (hstep.members hT hset)]
      simp only [Chain, hstep set hset]
      constructor
      · rintro ⟨b, ⟨a, ha, hab⟩, hbk⟩
        exact ⟨a, ha, b, hab, hbk⟩
      · rintro ⟨a, ha, b, hab, hbk⟩
        exact ⟨b, ⟨a, ha, hab⟩, hbk⟩

/-- What was seen and is no longer at the front has been followed already. -/
theorem Leads.testBit_spread : ∀ (n frontier seen : Nat), Members (· ≤ src.size) seen →
    (∀ a, frontier.testBit a = true → seen.testBit a = true) →
    (∀ a k, seen.testBit a = true → T a k → seen.testBit k = true ∨ frontier.testBit a = true) →
    ∀ k, (Track.spread step n frontier seen).testBit k = true ↔
      ∃ a, seen.testBit a = true ∧ ∃ m ≤ n, Chain T m a k
  | 0, frontier, seen, _, _, _, k => by
    constructor
    · exact fun hk => ⟨k, hk, 0, Nat.le_refl _, rfl⟩
    · rintro ⟨a, ha, m, hm, h⟩
      cases Nat.le_zero.1 hm
      cases h
      exact ha
  | n + 1, frontier, seen, hseen, hfront, hdone, k => by
    have hfrontier : Members (· ≤ src.size) frontier := fun a ha => hseen a (hfront a ha)
    have hfresh : ∀ b, (Track.without (step frontier) seen).testBit b = true ↔
        (∃ a, frontier.testBit a = true ∧ T a b) ∧ ¬ seen.testBit b = true := fun b => by
      rw [testBit_without, hstep frontier hfrontier]
    have hnext : ∀ {a b}, seen.testBit a = true → T a b →
        (seen ||| Track.without (step frontier) seen).testBit b = true := by
      intro a b ha hab
      rw [Nat.testBit_or, Bool.or_eq_true, hfresh]
      by_cases hb : seen.testBit b = true
      · exact .inl hb
      · exact .inr ⟨⟨a, (hdone a b ha hab).resolve_left hb, hab⟩, hb⟩
    unfold Track.spread
    dsimp only
    split
    · -- nothing is new, so a chain that begins in what was seen never leaves it
      rename_i h0
      rw [h0, Nat.or_zero] at hnext
      constructor
      · exact fun hk => ⟨k, hk, 0, Nat.zero_le _, rfl⟩
      · rintro ⟨a, ha, m, -, hchain⟩
        induction m generalizing a with
        | zero => exact hchain ▸ ha
        | succ m ih =>
          obtain ⟨b, hab, hchain⟩ := hchain
          exact ih b (hnext ha hab) hchain
    · have hseen' : Members (· ≤ src.size) (seen ||| Track.without (step frontier) seen) :=
        hseen.or (hstep.members hT hfrontier).without
      rw [Leads.testBit_spread n _ _ hseen']
      · constructor
        · rintro ⟨a, ha, m, hm, hchain⟩
          rw [Nat.testBit_or, Bool.or_eq_true, hfresh] at ha
          obtain ha | ⟨⟨b, hb, hba⟩, -⟩ := ha
          · exact ⟨a, ha, m, Nat.le_succ_of_le hm, hchain⟩
          · exact ⟨b, hfront b hb, m + 1, Nat.succ_le_succ hm, a, hba, hchain⟩
        · rintro ⟨a, ha, m, hm, hchain⟩
          cases m with
          | zero => exact ⟨a, by rw [Nat.testBit_or, ha, Bool.true_or], 0, Nat.zero_le _, hchain⟩
          | succ m =>
            obtain ⟨b, hab, hchain⟩ := hchain
            exact ⟨b, hnext ha hab, m, Nat.le_of_succ_le_succ hm, hchain⟩
      · intro a ha
        rw [Nat.testBit_or, ha, Bool.or_true]
      · intro a b ha hab
        rw [Nat.testBit_or, Bool.or_eq_true] at ha
        obtain ha | ha := ha
        · exact .inl (hnext ha hab)
        · exact .inr ha

/-- So many steps exactly, and then some more. -/
theorem Leads.times (min more : Nat) :
    Leads src (fun set => Track.spread step more (Track.exactly step min set) (Track.exactly step min set))
      fun a k => ∃ m ≤ more, Chain T (min + m) a k := by
  intro set hset k
  have hexactly := hstep.exactly hT min
  have hstart := hexactly.members hT.chain hset
  refine (hstep.testBit_spread hT more _ _ hstart (fun _ h => h) (fun _ _ h _ => .inr h) k).trans ?_
  simp only [hexactly set hset, chain_add]
  constructor
  · rintro ⟨b, ⟨a, ha, hab⟩, m, hm, hbk⟩
    exact ⟨a, ha, m, hm, b, hab, hbk⟩
  · rintro ⟨a, ha, m, hm, b, hab, hbk⟩
    exact ⟨b, ⟨a, ha, hab⟩, m, hm, hbk⟩

end Steps

/-! ## Whole expressions -/

/-- No repetition has its upper end below the lower one. -/
def Ordered : Regex → Prop
  | .empty | .chars _ | .look _ => True
  | .seq a b | .alt a b => a.Ordered ∧ b.Ordered
  | .times min max x => (∀ m ∈ max, min ≤ m) ∧ x.Ordered

theorem testBit_foldl_move {set k : Nat} : ∀ (moves : List (Nat × Nat)) (reached : Nat),
    (moves.foldl (fun reached (m : Nat × Nat) => reached ||| ((set &&& m.2) <<< m.1)) reached).testBit k = true ↔
      reached.testBit k = true ∨
        ∃ m ∈ moves, m.1 ≤ k ∧ set.testBit (k - m.1) = true ∧ m.2.testBit (k - m.1) = true
  | [], reached => by simp
  | m :: moves, reached => by
    rw [List.foldl_cons, testBit_foldl_move moves, Nat.testBit_or, Bool.or_eq_true, Nat.testBit_shiftLeft,
      Bool.and_eq_true, decide_eq_true_eq, Nat.testBit_and, Bool.and_eq_true]
    simp only [List.mem_cons, exists_eq_or_imp, ge_iff_le, or_assoc]

theorem leads_move (s : CharSet) :
    Leads src (Track.move ([1, 2, 3, 4].map fun w => (w, advances src s w))) ((Regex.chars s).Matches src) := by
  intro set _ k
  have hmark : ∀ {w j}, (advances src s w).testBit j = true ↔
      ∃ c, src.at? j = some c ∧ c.utf8Size = w ∧ s.contains c = true := by
    intro w j
    unfold advances
    rw [testBit_marks]
    cases hc : src.at? j with
    | none => simp
    | some c => simpa using fun _ _ => Source.lt_of_at? hc
  refine (testBit_foldl_move ([1, 2, 3, 4].map fun w => (w, advances src s w)) 0).trans ?_
  rw [Nat.zero_testBit]
  constructor
  · rintro (h | ⟨_, hm, hk, hset, hbit⟩)
    · cases h
    obtain ⟨w, -, rfl⟩ := List.mem_map.1 hm
    obtain ⟨c, hc, hw, hs⟩ := hmark.1 hbit
    refine ⟨k - w, hset, ?_⟩
    have hmatch := Matches.chars hc hs
    rwa [hw, Nat.sub_add_cancel hk] at hmatch
  · rintro ⟨a, ha, hmatch⟩
    cases hmatch with
    | @chars _ _ c hc hs =>
      have hpos := c.utf8Size_pos
      have hle := c.utf8Size_le_four
      refine .inr ⟨(c.utf8Size, advances src s c.utf8Size), List.mem_map.2 ⟨_, ?_, rfl⟩, Nat.le_add_left _ _, ?_, ?_⟩
      · simp only [List.mem_cons, List.not_mem_nil, or_false]
        omega
      · rwa [Nat.add_sub_cancel]
      · rw [Nat.add_sub_cancel]
        exact hmark.2 ⟨c, hc, rfl, hs⟩

theorem forward_matches (hs : src.WellFormed) (r : Regex) : Forward src (r.Matches src) :=
  fun h => ⟨h.stretch.le, h.stretch.within hs⟩

/-- **A track finds the matches of its expression.** -/
theorem leads_run_track (hs : src.WellFormed) : ∀ r : Regex, r.Ordered →
    Leads src ((r.track src).run src.size) (r.Matches src)
  | .empty, _, set, _, k => by
    constructor
    · exact fun hk => ⟨k, hk, .empty k⟩
    · rintro ⟨a, ha, h⟩
      cases h
      exact ha
  | .chars s, _, set, hset, k => leads_move s set hset k
  | .look l, _, set, hset, k => by
    rw [track, Track.run, Nat.testBit_and, Bool.and_eq_true, testBit_marks]
    constructor
    · rintro ⟨hk, -, hl⟩
      exact ⟨k, hk, .look hl⟩
    · rintro ⟨a, ha, h⟩
      cases h with
      | look hl => exact ⟨ha, Nat.lt_succ_of_le (hset _ ha), hl⟩
  | .seq x y, hr, set, hset, k => by
    have hx := leads_run_track hs x hr.1
    have hmid := hx.members (forward_matches hs x) hset
    have hy := leads_run_track hs y hr.2 _ hmid k
    have hseq : ((Regex.seq x y).track src).run src.size set = if (x.track src).run src.size set = 0 then 0
        else (y.track src).run src.size ((x.track src).run src.size set) := rfl
    have hrun : (((Regex.seq x y).track src).run src.size set).testBit k = true ↔
        ∃ b, ((x.track src).run src.size set).testBit b = true ∧ y.Matches src b k := by
      rw [hseq]
      split
      · rename_i h0
        simp [h0]
      · exact hy
    rw [hrun]
    constructor
    · rintro ⟨b, hb, hbk⟩
      obtain ⟨a, ha, hab⟩ := (hx set hset b).1 hb
      exact ⟨a, ha, .seq hab hbk⟩
    · rintro ⟨a, ha, h⟩
      cases h with
      | seq hab hbk => exact ⟨_, (hx set hset _).2 ⟨a, ha, hab⟩, hbk⟩
  | .alt x y, hr, set, hset, k => by
    rw [track, Track.run, Nat.testBit_or, Bool.or_eq_true, leads_run_track hs x hr.1 set hset k,
      leads_run_track hs y hr.2 set hset k]
    constructor
    · rintro (⟨a, ha, h⟩ | ⟨a, ha, h⟩)
      · exact ⟨a, ha, .altLeft h⟩
      · exact ⟨a, ha, .altRight h⟩
    · rintro ⟨a, ha, h⟩
      cases h with
      | altLeft h => exact .inl ⟨a, ha, h⟩
      | altRight h => exact .inr ⟨a, ha, h⟩
  | .times min max x, hr, set, hset, k => by
    have hx := leads_run_track hs x hr.2
    have hT : Forward src (x.Matches src) := forward_matches hs x
    simp only [matches_times]
    cases max with
    | some M =>
      refine (hx.times hT min (M - min) set hset k).trans (exists_congr fun a => and_congr_right fun _ => ?_)
      have hM : min ≤ M := hr.1 M rfl
      constructor
      · rintro ⟨m, hm, hchain⟩
        refine ⟨min + m, Nat.le_add_right _ _, fun _ h => ?_, hchain⟩
        cases h
        omega
      · rintro ⟨n, hmin, hmax, hchain⟩
        obtain ⟨m, rfl⟩ := Nat.exists_eq_add_of_le hmin
        exact ⟨m, Nat.le_sub_of_add_le' (hmax M rfl), hchain⟩
    | none =>
      refine (hx.times hT min (src.size + 1) set hset k).trans (exists_congr fun a => and_congr_right fun ha => ?_)
      constructor
      · rintro ⟨m, -, hchain⟩
        exact ⟨min + m, Nat.le_add_right _ _, by simp, hchain⟩
      · rintro ⟨n, hmin, -, hchain⟩
        obtain ⟨m, rfl⟩ := Nat.exists_eq_add_of_le hmin
        obtain ⟨b, hab, hbk⟩ := chain_add.1 hchain
        obtain ⟨m', hm', -, hbk'⟩ := exists_chain_le (fun h => (hT h).1) hbk
        have hk : k ≤ src.size := (hT.chain hchain).2 (hset a ha)
        exact ⟨m', by omega, chain_add.2 ⟨b, hab, hbk'⟩⟩

/-- From one offset a track gets to the ends of the matches that begin there. -/
theorem testBit_run_track (hs : src.WellFormed) {r : Regex} (hr : r.Ordered) {offset : Nat} (ho : offset ≤ src.size)
    {k : Nat} : ((r.track src).run src.size (1 <<< offset)).testBit k = true ↔ r.Matches src offset k := by
  rw [leads_run_track hs r hr _ (.singleton ho)]
  simp [Nat.one_shiftLeft, Nat.testBit_two_pow]

end Regex
end Ambigram
