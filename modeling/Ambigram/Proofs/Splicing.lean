import Ambigram.Tree.Tagged
/-!
# Built trees

What trees look like that were built, in any order, by joining and by grouping under categories, and how they are
printed.  Joining splices, so that a plain sequence never stands inside another one and no category is taken apart.
-/
namespace Ambigram

/-! ## Shapes of trees -/

namespace Tree

variable {t u : Tree} {ps qs : List Tree} {c : Category} {s : String}

inductive Built : Tree → Prop
  | empty : Built .empty
  | text (t : String) : Built (.text t)
  | append {t u : Tree} (ht : Built t) (hu : Built u) : Built (t.append u)
  | concat {ts : List Tree} (h : ∀ t ∈ ts, Built t) : Built (.concat ts)
  | annotate {t : Tree} (h : Built t) (c : Category) : Built (t.annotate c)

/-- Sequences hold fragments and categories only, and no fragment stands outside a sequence. -/
inductive Proper : Tree → Prop
  | empty : Proper (.sequence [])
  | fragment {s : String} {ps : List Tree} (h : Proper (.sequence ps)) : Proper (.sequence (.fragment s :: ps))
  | grouped {c : Category} {t : Tree} {ps : List Tree} (ht : Proper t) (h : Proper (.sequence ps)) :
    Proper (.sequence (.category c t :: ps))
  | category {c : Category} {t : Tree} (ht : Proper t) : Proper (.category c t)

theorem Proper.join (hq : Proper (.sequence qs)) : ∀ {ps : List Tree}, Proper (.sequence ps) →
    Proper (.sequence (ps ++ qs))
  | [], _ => hq
  | _ :: _, .fragment h => .fragment (hq.join h)
  | _ :: _, .grouped ht h => .grouped ht (hq.join h)

theorem Proper.parts (h : t.Proper) : Proper (.sequence t.parts) := by
  cases h with
  | empty => exact .empty
  | fragment h => exact .fragment h
  | grouped ht h => exact .grouped ht h
  | category ht => exact .grouped ht .empty

theorem proper_concat : ∀ {ts : List Tree}, (∀ t ∈ ts, t.Proper) → (concat ts).Proper
  | [], _ => .empty
  | t :: ts, h => by
    have hrest : (concat ts).Proper := proper_concat fun u hu => h u (List.mem_cons_of_mem t hu)
    unfold concat at hrest ⊢
    rw [List.flatMap_cons]
    exact hrest.join (h t List.mem_cons_self).parts

theorem Built.proper (h : t.Built) : t.Proper := by
  induction h with
  | empty => exact .empty
  | text t => exact .fragment .empty
  | @append t u _ _ iht ihu =>
    unfold Tree.append
    split
    · exact ihu
    split
    · exact iht
    · refine proper_concat fun v hv => ?_
      obtain rfl | hv := List.mem_cons.1 hv
      · exact iht
      · exact List.mem_singleton.1 hv ▸ ihu
  | concat _ ih => exact proper_concat ih
  | annotate _ c ih => exact .category ih

theorem built_concat_pair (ht : t.Built) (hu : u.Built) : (concat [t, u]).Built := by
  refine .concat fun v hv => ?_
  obtain rfl | hv := List.mem_cons.1 hv
  · exact ht
  · exact List.mem_singleton.1 hv ▸ hu

/-- **The built trees are the proper ones.** -/
theorem built_iff : t.Built ↔ t.Proper := by
  refine ⟨Built.proper, fun h => ?_⟩
  induction h with
  | empty => exact .empty
  | @fragment s ps _ ih =>
    have hjoined : sequence (.fragment s :: ps) = concat [text s, .sequence ps] := by simp [concat, text, Tree.parts]
    exact hjoined ▸ built_concat_pair (.text s) ih
  | @grouped c t ps _ _ iht ih =>
    have hjoined : sequence (.category c t :: ps) = concat [.category c t, .sequence ps] := by simp [concat, Tree.parts]
    exact hjoined ▸ built_concat_pair (.annotate iht c) ih
  | category _ ih => exact .annotate ih _

end Tree

/-! ## Shapes of nodes -/

namespace Tagged

/-- One node somewhere in another, or that node itself. -/
inductive Within (n : Tagged) : Tagged → Prop
  | self : Within n n
  | child {k : UInt16} {ns : List Tagged} {m : Tagged} (hm : m ∈ ns) (h : Within n m) : Within n (.inner k ns)

/-- No sequence in a sequence, and exactly one node in a category. -/
structure Sound (n : Tagged) : Prop where
  flat : n.kind = sequenceKind → ∀ m ∈ n.children, m.kind ≠ sequenceKind
  wraps : ∀ c, n.category? = some c → ∃ k ns, n.children = [.inner k ns] ∧ n.content? = some (.inner k ns)

end Tagged

namespace Tree

variable {t : Tree} {ps : List Tree} {c : Category}

theorem Proper.exists_inner (h : t.Proper) : ∃ k ns, t.tagged = .inner k ns := by
  cases h <;> exact ⟨_, _, rfl⟩

theorem Proper.content?_annotate (h : t.Proper) (c : Category) : (t.annotate c).tagged.content? = some t.tagged := by
  obtain ⟨k, ns, heq⟩ := h.exists_inner
  rw [annotate, tagged, heq]
  rfl

theorem sound_fragment (s : String) : (fragment s).tagged.Sound := ⟨nofun, nofun⟩

theorem sound_category (h : t.Proper) (c : Category) : (category c t).tagged.Sound where
  flat hk := absurd hk c.kind_ne_sequenceKind
  wraps c' hc' := by
    obtain ⟨k, ns, heq⟩ := h.exists_inner
    refine ⟨k, ns, ?_, heq ▸ h.content?_annotate c⟩
    rw [tagged, heq]
    rfl

/-- Each part of a sound sequence adds itself, if it is not a sequence. -/
theorem sound_cons {p : Tree} (hp : p.tagged.kind ≠ Tagged.sequenceKind) (h : (sequence ps).tagged.Sound) :
    (sequence (p :: ps)).tagged.Sound where
  flat _ m hm := by
    obtain rfl | hm := List.mem_cons.1 hm
    · exact hp
    · exact h.flat rfl m hm
  wraps _ := nofun

/-- A node of a sequence is the sequence itself, in its first part, or in the sequence of the others. -/
theorem within_cons {n : Tagged} {p : Tree} (h : n.Within (sequence (p :: ps)).tagged) :
    n = (sequence (p :: ps)).tagged ∨ n.Within p.tagged ∨ n.Within (sequence ps).tagged := by
  cases h with
  | self => exact .inl rfl
  | child hm h =>
    obtain rfl | hm := List.mem_cons.1 hm
    · exact .inr (.inl h)
    · exact .inr (.inr (.child hm h))

theorem within_category {n : Tagged} (h : n.Within (category c t).tagged) :
    n = (category c t).tagged ∨ n.Within t.tagged := by
  cases h with
  | self => exact .inl rfl
  | child hm h => exact .inr (List.mem_singleton.1 hm ▸ h)

/-- **Every node of a proper tree is sound.** -/
theorem Proper.sound (h : t.Proper) : ∀ n : Tagged, n.Within t.tagged → n.Sound := by
  induction h with
  | empty =>
    intro n hn
    cases hn with
    | self => exact ⟨fun _ m hm => (List.not_mem_nil hm).elim, nofun⟩
    | child hm _ => cases hm
  | @fragment s ps _ ih =>
    intro n hn
    obtain rfl | hn | hn := within_cons hn
    · exact sound_cons (p := .fragment s) nofun (ih _ .self)
    · cases hn
      exact sound_fragment s
    · exact ih n hn
  | @grouped c t ps ht _ iht ih =>
    intro n hn
    obtain rfl | hn | hn := within_cons hn
    · exact sound_cons (p := .category c t) c.kind_ne_sequenceKind (ih _ .self)
    · obtain rfl | hn := within_category hn
      · exact sound_category ht c
      · exact iht n hn
    · exact ih n hn
  | @category c t ht iht =>
    intro n hn
    obtain rfl | hn := within_category hn
    · exact sound_category ht c
    · exact iht n hn

/-! ## Printing -/

variable {σ : Type}

/-- What a category holds is handed on in one piece, and nothing is printed besides. -/
theorem Proper.print_annotate (h : t.Proper) (p : Tagged.Printer σ) (c : Category) (out : σ) :
    (t.annotate c).tagged.print p out = p.annotated c t.tagged out := by
  have hcontent := h.content?_annotate c
  rw [annotate, tagged] at hcontent ⊢
  rw [Tagged.print, Category.ofKind?_kind]
  dsimp only
  rw [hcontent, Option.bind_some]

theorem print_category (layout : Layout σ) (h : t.Proper) (c : Category) (out : σ) :
    (category c t).tagged.print (.ofLayout layout) out = some ((category c t).render layout out) := by
  refine (h.print_annotate (.ofLayout layout) c out).trans ?_
  show some (layout.annotated c (t.tagged.tree.render layout) out) = _
  rw [tree_tagged]
  rfl

/-- A layout prints trees as it renders them. -/
theorem Proper.print_ofLayout (layout : Layout σ) (h : t.Proper) :
    ∀ out, t.tagged.print (.ofLayout layout) out = some (t.render layout out) := by
  induction h with
  | empty => exact fun _ => rfl
  | @fragment s ps _ ih =>
    intro out
    have hrest := ih (layout.text s out)
    rw [print_sequence] at hrest ⊢
    exact hrest
  | @grouped c t ps ht _ _ ih =>
    intro out
    have hrest := ih ((Tree.category c t).render layout out)
    rw [print_sequence] at hrest ⊢
    rw [List.map_cons, Tagged.printAll, print_category layout ht, Option.bind_some]
    exact hrest
  | @category c t ht _ => exact print_category layout ht c

end Tree

/-! ## The laws of building -/

open Ambigram.Tree in
/-- **Trees are built and printed part by part.**  A category is told from its kind, which is none of the reserved
ones, and trees are stored by the operations on nodes, no two alike.  In a tree that was built in any way, no sequence
has a sequence in it, and a category has exactly one node in it, which is its content.  Joining is associative and has
the empty tree on both sides.  Whatever is done with texts and categories, joined trees are printed one after another,
and an annotated tree is handed on as it is, together with its category; this is how layouts render. -/
theorem trees_compose :
    (∀ c : Category, Category.ofKind? c.kind = some c ∧ c.kind ≠ Tagged.textKind ∧ c.kind ≠ Tagged.sequenceKind) ∧
    ((empty.tagged = .empty ∧ ∀ s, (text s).tagged = .text s) ∧
      (∀ a b : Tree, (a.append b).tagged = a.tagged.append b.tagged) ∧
      (∀ ts, (concat ts).tagged = .concat (ts.map tagged)) ∧
      (∀ (a : Tree) c, (a.annotate c).tagged = a.tagged.annotate c) ∧ Function.Injective tagged) ∧
    (∀ t : Tree, t.Built → ∀ n, Tagged.Within n t.tagged →
      (n.kind = Tagged.sequenceKind → ∀ m ∈ n.children, m.kind ≠ Tagged.sequenceKind) ∧
      ∀ c, n.category? = some c → ∃ k ns, n.children = [.inner k ns] ∧ n.content? = some (.inner k ns)) ∧
    ((∀ a b c : Tree, (a.append b).append c = a.append (b.append c)) ∧
      ∀ a : Tree, empty.append a = a ∧ a.append empty = a) ∧
    (∀ (σ : Type) (p : Tagged.Printer σ) (out : σ),
      (∀ a b : Tree, (a.append b).tagged.print p out = (a.tagged.print p out).bind (b.tagged.print p)) ∧
      (∀ ts, (concat ts).tagged.print p out = ts.foldlM (fun out t => t.tagged.print p out) out) ∧
      ∀ (a : Tree) c, a.Built → (a.annotate c).tagged.category? = some c ∧
        (a.annotate c).tagged.print p out = p.annotated c a.tagged out) ∧
    ∀ (σ : Type) (layout : Layout σ) (t : Tree) (out : σ), t.Built →
      t.tagged.print (.ofLayout layout) out = some (t.render layout out) := by
  refine ⟨fun c => ⟨c.ofKind?_kind, c.kind_ne_textKind, c.kind_ne_sequenceKind⟩,
    ⟨⟨tagged_empty, tagged_text⟩, tagged_append, tagged_concat, tagged_annotate, tagged_injective⟩,
    fun t ht n hn => ?_, ⟨append_assoc, fun a => ⟨empty_append a, append_empty a⟩⟩,
    fun σ p out => ⟨fun a b => print_append p a b out, fun ts => ?_, fun a c ha =>
      ⟨?_, ha.proper.print_annotate p c out⟩⟩,
    fun σ layout t out ht => ht.proper.print_ofLayout layout out⟩
  · have hsound := ht.proper.sound n hn
    exact ⟨hsound.flat, hsound.wraps⟩
  · rw [print_concat, printAll_map_tagged]
  · exact category?_tagged _

/-- An operator under a category between two operands: the category stays one of three parts. -/
theorem trees_compose_operator :
    let plus : Category := ⟨0, by decide⟩
    let op := (Tree.text "+").annotate plus
    let t := ((Tree.text "1").append op).append (.text "2")
    (t.Built ∧ op.tagged.Within t.tagged) ∧
    t.tagged.children = [.leaf Tagged.textKind "1", op.tagged, .leaf Tagged.textKind "2"] ∧
    (∀ m ∈ t.tagged.children, m.kind ≠ Tagged.sequenceKind) ∧
    (∃ k ns, op.tagged.children = [.inner k ns] ∧ op.tagged.content? = some (.inner k ns)) ∧
    (∀ (σ : Type) (p : Tagged.Printer σ) (out : σ),
      op.tagged.print p out = p.annotated plus (Tree.text "+").tagged out) ∧
    t.tagged.print (.ofLayout .bracket) "" = some "1<0>+</0>2" := by
  intro plus op t
  have hop : op.Built := .annotate (.text "+") plus
  have ht : t.Built := .append (.append (.text "1") hop) (.text "2")
  have hwithin : op.tagged.Within t.tagged := .child (.tail _ (.head _)) .self
  have htext : t.render .bracket "" = "1<0>+</0>2" := by decide +kernel
  obtain ⟨-, -, hsound, -, hprint, hlayout⟩ := trees_compose
  exact ⟨⟨ht, hwithin⟩, rfl, (hsound t ht _ .self).1 rfl, (hsound t ht _ hwithin).2 plus rfl,
    fun σ p out => ((hprint σ p out).2.2 (.text "+") plus (.text "+")).2,
    (hlayout _ .bracket t "" ht).trans (congrArg some htext)⟩

end Ambigram
