import Ambigram.Grammar.Print
import Ambigram.Lexer
import Ambigram.Tree.Texts
/-!
# Derivations

What a grammar means, apart from reading and printing: which texts, one after another, lead from an
accumulator to a value.  Reading finds such a derivation in its source and printing makes one up, so both are
held against this one relation.

Which texts a token stands for is left open as `accepts`.
-/
namespace Ambigram

variable {E : Type}

/-- The texts a token stands for, on its own or among all tokens. -/
abbrev Accepts := TokenId → Bool → String → Prop

inductive Recognizer.Derives (accepts : Accepts) : Recognizer → List String → Prop
  | token {id : TokenId} {exclusive : Bool} {canonical t : String} (hid : id ≠ .endOfInput)
    (h : accepts id exclusive t) : Derives accepts (.token id exclusive canonical) (textsOf t)
  | endOfInput {exclusive : Bool} {canonical : String} : Derives accepts (.token .endOfInput exclusive canonical) []
  /-- A token that is written as the empty text may be left out. -/
  | blank {id : TokenId} {exclusive : Bool} : Derives accepts (.token id exclusive "") []
  | seq {b : Bool} {x y : Recognizer} {ts us : List String} (hx : Derives accepts x ts) (hy : Derives accepts y us) :
    Derives accepts (.seq b x y) (ts ++ us)
  | first {x y : Recognizer} {ts : List String} (h : Derives accepts x ts) : Derives accepts (.choice x y) ts
  | second {x y : Recognizer} {ts : List String} (h : Derives accepts y ts) : Derives accepts (.choice x y) ts
  | repNone {x : Recognizer} : Derives accepts (.rep x) []
  | repMore {x : Recognizer} {ts us : List String} (head : Derives accepts x ts) (tail : Derives accepts (.rep x) us) :
    Derives accepts (.rep x) (ts ++ us)
  | optNone {always : Bool} {x : Recognizer} : Derives accepts (.opt always x) []
  | optOne {always : Bool} {x : Recognizer} {ts : List String} (h : Derives accepts x ts) :
    Derives accepts (.opt always x) ts
  | annotate {c : Category} {x : Recognizer} {ts : List String} (h : Derives accepts x ts) :
    Derives accepts (.annotate c x) ts

/-- From what the node starts from, over some texts, to its value. -/
inductive Node.Derives (accepts : Accepts) (ds : Definitions E) (env : E) :
    {a : Option Shape} → {t : Shape} → Node E a t → Start a → List String → t.Carrier → Prop
  | scan {t : Shape} {id : TokenId} {exclusive : Bool} {label : Option String} {m : Mapping E String t.Carrier}
    {text : String} {v : t.Carrier} (h : m.apply env text = .ok v) :
    Derives accepts ds env (.scan id exclusive label m) () (textsOf text) v
  | initial {t : Shape} (v : t.Carrier) : Derives accepts ds env (.initial v) () [] v
  | emptyList : Derives accepts ds env .emptyList () [] []
  | ref {t : Shape} {name : String} {p : Parser E t} {ts : List String} {v : t.Carrier}
    (target : ds.target t name = some p) (h : Derives accepts ds env p () ts v) :
    Derives accepts ds env (.ref name) () ts v
  | fold {s v t : Shape} {p : Parser E v} {f : Fold E s.Carrier v.Carrier t.Carrier} {left : s.Carrier}
    {right : v.Carrier} {w : t.Carrier} {ts : List String} (h : Derives accepts ds env p () ts right)
    (folded : f.apply env left right = .ok w) : Derives accepts ds env (.fold p f) left ts w
  | map {s t : Shape} {m : Mapping E s.Carrier t.Carrier} {left : s.Carrier} {w : t.Carrier}
    (h : m.apply env left = .ok w) : Derives accepts ds env (.map m) left [] w
  | seq {a : Option Shape} {s t : Shape} {b : Bool} {x : Node E a s} {y : Node E (some s) t} {left : Start a}
    {mid : s.Carrier} {w : t.Carrier} {ts us : List String} (hx : Derives accepts ds env x left ts mid)
    (hy : Derives accepts ds env y mid us w) : Derives accepts ds env (.seq b x y) left (ts ++ us) w
  | before {a : Option Shape} {t : Shape} {b : Bool} {r : Recognizer} {x : Node E a t} {left : Start a}
    {w : t.Carrier} {ts us : List String} (hr : r.Derives accepts ts) (hx : Derives accepts ds env x left us w) :
    Derives accepts ds env (.before b r x) left (ts ++ us) w
  | after {a : Option Shape} {t : Shape} {b : Bool} {r : Recognizer} {x : Node E a t} {left : Start a}
    {w : t.Carrier} {ts us : List String} (hx : Derives accepts ds env x left ts w) (hr : r.Derives accepts us) :
    Derives accepts ds env (.after b x r) left (ts ++ us) w
  | first {a : Option Shape} {t : Shape} {x y : Node E a t} {left : Start a} {w : t.Carrier} {ts : List String}
    (h : Derives accepts ds env x left ts w) : Derives accepts ds env (.choice x y) left ts w
  | second {a : Option Shape} {t : Shape} {x y : Node E a t} {left : Start a} {w : t.Carrier} {ts : List String}
    (h : Derives accepts ds env y left ts w) : Derives accepts ds env (.choice x y) left ts w
  | repNone {s : Shape} {x : Reducer E s s} {left : s.Carrier} : Derives accepts ds env (.rep x) left [] left
  | repMore {s : Shape} {x : Reducer E s s} {left mid w : s.Carrier} {ts us : List String}
    (head : Derives accepts ds env x left ts mid) (tail : Derives accepts ds env (.rep x) mid us w) :
    Derives accepts ds env (.rep x) left (ts ++ us) w
  | optNone {s : Shape} {x : Reducer E s s} {left : s.Carrier} : Derives accepts ds env (.opt x) left [] left
  | optOne {s : Shape} {x : Reducer E s s} {left w : s.Carrier} {ts : List String}
    (h : Derives accepts ds env x left ts w) : Derives accepts ds env (.opt x) left ts w
  /-- Behind the steps that have to be there any number may follow. -/
  | atLeastZero {s : Shape} {x : Reducer E s s} {left w : s.Carrier} {ts : List String}
    (h : Derives accepts ds env (.rep x) left ts w) : Derives accepts ds env (.atLeast 0 x) left ts w
  | atLeastMore {s : Shape} {n : Nat} {x : Reducer E s s} {left mid w : s.Carrier} {ts us : List String}
    (head : Derives accepts ds env x left ts mid) (tail : Derives accepts ds env (.atLeast n x) mid us w) :
    Derives accepts ds env (.atLeast (n + 1) x) left (ts ++ us) w
  | joinNone {s : Shape} {sep : Recognizer} {x : Reducer E s s} {left : s.Carrier} :
    Derives accepts ds env (.join false sep x) left [] left
  | joinOne {s : Shape} {nonEmpty : Bool} {sep : Recognizer} {x : Reducer E s s} {left w : s.Carrier}
    {ts : List String} (h : Derives accepts ds env x left ts w) :
    Derives accepts ds env (.join nonEmpty sep x) left ts w
  /-- Behind a separator there is one element at least. -/
  | joinMore {s : Shape} {nonEmpty : Bool} {sep : Recognizer} {x : Reducer E s s} {left mid w : s.Carrier}
    {ts us vs : List String} (head : Derives accepts ds env x left ts mid) (between : sep.Derives accepts us)
    (tail : Derives accepts ds env (.join true sep x) mid vs w) :
    Derives accepts ds env (.join nonEmpty sep x) left (ts ++ us ++ vs) w
  | annotate {a : Option Shape} {t : Shape} {c : Category} {x : Node E a t} {left : Start a} {w : t.Carrier}
    {ts : List String} (h : Derives accepts ds env x left ts w) : Derives accepts ds env (.annotate c x) left ts w

/-! ## Nested lists

A small language that uses most of this: words, and lists of words and lists, in brackets and with commas. -/

namespace Nested

def word : Parser Unit .value := .scan (.pattern 3) false none TextMapping.string

def items : Reducer Unit .list .list :=
  .join false (.token (.pattern 2) false ",") (.fold (.choice word (.ref "nested")) (.append 0))

def nested : Parser Unit .value :=
  .before false (.token (.pattern 0) false "[")
    (.after false (.seq true (.seq true .emptyList items) (.map .wrap)) (.token (.pattern 1) false "]"))

def definitions : Definitions Unit where
  target
    | .value, name => if name = "nested" then some nested else none
    | .list, _ => none

/-- Each bracket and the comma have one text. -/
def accepts : Accepts := fun id _ t => (id, t) ∈ [(.pattern 0, "["), (.pattern 1, "]"), (.pattern 2, ",")]

/-- A lexer for the brackets, the comma and one word, with blanks between them. -/
def lexer : Lexer where
  patterns := [.text "[", .text "]", .text ",", .text "a", .text " "]
  regexes := [.literal ['['], .literal [']'], .literal [','], .literal ['a'], .literal [' ']]
  skipped := [false, false, false, false, true]

end Nested
end Ambigram
