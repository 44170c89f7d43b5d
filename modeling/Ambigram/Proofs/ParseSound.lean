import Ambigram.Proofs.Coverage
import Ambigram.Proofs.Derivation
/-!
# Parsing is sound

What a node matches derives the value it makes, from the accumulator it began with and over the texts of the
tokens of the run.  These tokens are all there is in the stretch that was consumed, but for trivia.
-/
namespace Ambigram

variable {E : Type} {i : Input} {ds : Definitions E} {env : E}

/-- The texts that the input has for a token. -/
def Input.accepted (i : Input) : Accepts := fun id exclusive t =>
  ∃ start stop, Cursor.stop? i id exclusive start = .ok (some stop) ∧ i.source.slice start stop = t

/-! ## Recognizers -/

theorem Recognizer.derives_token {id : TokenId} {exclusive : Bool} {text : String} {c d : Cursor} {k : Token}
    (hi : i.WellFormed) (h : Cursor.accept i id exclusive c = (.hit k, d)) :
    (Recognizer.token id exclusive text).Derives i.accepted (i.texts [k]) := by
  obtain ⟨rfl, -, hstop, -⟩ := Cursor.accept_eq_hit h
  rw [Input.texts_singleton hi hstop]
  by_cases hid : k.id = .endOfInput
  · rw [(hi.stretch_stop hstop).2.1 hid, Source.slice_self, hid]
    exact .endOfInput
  · exact .token hid ⟨k.start, k.stop, hstop, rfl⟩

theorem Recognizer.Run.derives (hi : i.WellFormed) {x : Recognizer} {c d : Cursor} (r : x.Run i c d) :
    x.Derives i.accepted (i.texts r.tokens) := by
  induction r with
  | token k h => exact derives_token hi h
  | seq _ _ ihx ihy =>
    show Recognizer.Derives _ _ (i.texts (_ ++ _))
    rw [Input.texts_append]
    exact .seq ihx ihy
  | first _ ih => exact .first ih
  | second _ _ ih => exact .second ih
  | repStop _ => exact .repNone
  | repStill _ _ ih =>
    rw [← List.append_nil (i.texts _)]
    exact .repMore ih .repNone
  | repMore _ _ _ ih ihmore =>
    show Recognizer.Derives _ _ (i.texts (_ ++ _))
    rw [Input.texts_append]
    exact .repMore ih ihmore
  | optNone _ => exact .optNone
  | optOne _ ih => exact .optOne ih
  | annotate _ ih => exact .annotate ih

/-! ## Nodes

What a loop does is part of what a node does.  The steps that are counted lead to a derivation once the others
are there, and the joined ones behind the first once that is there. -/

def Task.Derives (accepts : Accepts) (ds : Definitions E) (env : E) {a : Option Shape} {t : Shape} :
    Task E a t → Start a → List String → t.Carrier → Prop
  | .node x, left, ts, v => x.Derives accepts ds env left ts v
  | .loop x, left, ts, v => (Node.rep x).Derives accepts ds env left ts v
  | .times n x, left, ts, v => ∀ us w, (Node.rep x).Derives accepts ds env v us w →
      (Node.atLeast n x).Derives accepts ds env left (ts ++ us) w
  | .tail q x, left, ts, v => ∀ nonEmpty first us, x.Derives accepts ds env first us left →
      (Node.join nonEmpty q x).Derives accepts ds env first (us ++ ts) v

theorem Run.derives (hi : i.WellFormed) {n : Nat} {a : Option Shape} {t : Shape} {task : Task E a t} {left : Start a}
    {c : Cursor} {v : t.Carrier} {d : Cursor} (r : Run ds i env n task left c v d) :
    task.Derives i.accepted ds env left (i.texts r.tokens) v := by
  induction r with
  | scan k h made =>
    obtain ⟨rfl, -, hstop, -⟩ := Cursor.accept_eq_hit h
    show Node.Derives _ _ _ _ _ (i.texts [k]) _
    rw [Input.texts_singleton hi hstop]
    exact .scan made
  | initial => exact .initial _
  | emptyList => exact .emptyList
  | ref target _ ih => exact .ref target ih
  | fold _ made ih => exact .fold ih made
  | map made => exact .map made
  | seq _ _ ihx ihy =>
    show Node.Derives _ _ _ _ _ (i.texts (_ ++ _)) _
    rw [Input.texts_append]
    exact .seq ihx ihy
  | before rq _ ih =>
    show Node.Derives _ _ _ _ _ (i.texts (_ ++ _)) _
    rw [Input.texts_append]
    exact .before (rq.derives hi) ih
  | after _ rq ih =>
    show Node.Derives _ _ _ _ _ (i.texts (_ ++ _)) _
    rw [Input.texts_append]
    exact .after ih (rq.derives hi)
  | first _ ih => exact .first ih
  | second _ _ ih => exact .second ih
  | rep _ ih => exact ih
  | optNone _ => exact .optNone
  | optOne _ ih => exact .optOne ih
  | atLeast _ _ ih ihmore =>
    show Node.Derives _ _ _ _ _ (i.texts (_ ++ _)) _
    rw [Input.texts_append]
    exact ih _ _ ihmore
  | joinNone _ => exact .joinNone
  | join _ _ ih ihmore =>
    show Node.Derives _ _ _ _ _ (i.texts (_ ++ _)) _
    rw [Input.texts_append]
    exact ihmore _ _ _ ih
  | annotate _ ih => exact .annotate ih
  | loopStop _ => exact .repNone
  | loopStill _ _ ih =>
    rw [← List.append_nil (i.texts _)]
    exact .repMore ih .repNone
  | loopMore _ _ _ ih ihmore =>
    show Node.Derives _ _ _ _ _ (i.texts (_ ++ _)) _
    rw [Input.texts_append]
    exact .repMore ih ihmore
  | timesDone => exact fun us w h => .atLeastZero h
  | timesMore _ _ ih ihmore =>
    intro us w h
    show Node.Derives _ _ _ _ _ (i.texts (_ ++ _) ++ us) w
    rw [Input.texts_append, List.append_assoc]
    exact .atLeastMore ih (ihmore us w h)
  | tailStop _ =>
    intro nonEmpty first us h
    show Node.Derives _ _ _ _ _ (us ++ i.texts []) _
    rw [Input.texts_nil, List.append_nil]
    exact .joinOne h
  | tailGivenBack _ _ =>
    intro nonEmpty first us h
    show Node.Derives _ _ _ _ _ (us ++ i.texts []) _
    rw [Input.texts_nil, List.append_nil]
    exact .joinOne h
  | tailMore rq _ _ ih ihmore =>
    intro nonEmpty first us h
    show Node.Derives _ _ _ _ _ (us ++ i.texts (_ ++ (_ ++ _))) _
    rw [Input.texts_append, Input.texts_append, ← List.append_assoc]
    exact .joinMore h (rq.derives hi) (ihmore true _ _ ih)

/-- **Parsing is sound.**  A match has a run.  The stretch of the source that the run consumed is the tokens of the
run with trivia in front of each, and the texts of these tokens derive the value that was made.  So where a value
is printed and its texts derive no other value, reading the same texts again gives this value or none. -/
theorem parse_derives (ds : Definitions E) (env : E) (lexer : Lexer) (text : String) (depth : Nat) :
    let i := Input.of lexer (.ofString text)
    (∀ (x : Recognizer) (c d : Cursor), x.recognize i c = (.hit (), d) →
      Nonempty (x.Run i c d) ∧ ∀ r : x.Run i c d,
        i.Covers c.offset r.tokens d.offset ∧
        i.source.slice c.offset d.offset = String.join (i.pieces c.offset r.tokens) ∧
        x.Derives i.accepted (i.texts r.tokens)) ∧
    ∀ {a : Option Shape} {t : Shape} (x : Node E a t) (left : Start a) (c : Cursor) (v : t.Carrier) (d : Cursor),
      x.parse ⟨ds, env, i, depth⟩ left c = (.hit v, d) →
      Nonempty (Run ds i env (depth - c.depth) (.node x) left c v d) ∧
      ∀ r : Run ds i env (depth - c.depth) (.node x) left c v d,
        i.Covers c.offset r.tokens d.offset ∧
        i.source.slice c.offset d.offset = String.join (i.pieces c.offset r.tokens) ∧
        x.Derives i.accepted ds env left (i.texts r.tokens) v ∧
        ∀ budget w tree, x.print ds env budget w = .hit (left, tree) →
          x.Derives i.accepted ds env left tree.texts w →
          (∀ u, x.Derives i.accepted ds env left tree.texts u → u = w) → i.texts r.tokens = tree.texts → v = w := by
  intro i
  have hi : i.WellFormed := Input.wellFormed_of lexer text
  refine ⟨fun x c d h => ⟨Recognizer.run_of_recognize h, fun r => ?_⟩, ?_⟩
  · exact ⟨r.covers hi, (r.covers hi).slice_eq hi, r.derives hi⟩
  intro a t x left c v d h
  refine ⟨x.run_of_parse _ h, fun r => ⟨r.covers hi, (r.covers hi).slice_eq hi, r.derives hi, ?_⟩⟩
  intro budget w tree _ _ honly htexts
  have hv : x.Derives i.accepted ds env left (i.texts r.tokens) v := r.derives hi
  rw [htexts] at hv
  exact honly v hv

/-- A list within a list, through the reference. -/
theorem parse_derives_nested :
    let i := Input.of Nested.lexer (.ofString "[a, [a]]")
    let v : Value := .list [.string "a", .list [.string "a"]]
    Nested.nested.parse ⟨Nested.definitions, (), i, 1⟩ () ⟨0, 0, 20, 0⟩ = (.hit v, ⟨8, 8, 10, 0⟩) ∧
    ∃ ks, i.Covers 0 ks 8 ∧ String.join (i.pieces 0 ks) = "[a, [a]]" ∧
      Nested.nested.Derives i.accepted Nested.definitions () () (i.texts ks) v := by
  intro i v
  have h : Nested.nested.parse ⟨Nested.definitions, (), i, 1⟩ () ⟨0, 0, 20, 0⟩ = (.hit v, ⟨8, 8, 10, 0⟩) := by
    decide +kernel
  obtain ⟨⟨r⟩, hr⟩ := (parse_derives Nested.definitions () Nested.lexer "[a, [a]]" 1).2 Nested.nested () _ v _ h
  obtain ⟨hcovers, hslice, hderives, -⟩ := hr r
  have htext : i.source.slice 0 8 = "[a, [a]]" := by decide +kernel
  exact ⟨h, r.tokens, hcovers, hslice.symm.trans htext, hderives⟩

end Ambigram
