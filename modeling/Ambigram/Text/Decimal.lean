/-!
# Decimal numerals

Writing a number in base ten and reading one back.  `nat?_digits` and `int?_ofInt` are the laws: what is written
reads back as itself.  A numeral is one or more ASCII digits; an integer may carry one sign in front.
-/
namespace Ambigram
namespace Decimal

/-- The digits of `n`, without leading zeros. -/
def digits (n : Nat) : List Char := Nat.toDigits 10 n

def ofNat (n : Nat) : String := String.ofList (digits n)

/-- A negative number has a minus sign in front of its magnitude. -/
def ofInt : Int → String
  | .ofNat n => ofNat n
  | .negSucc n => String.ofList ('-' :: digits (n + 1))

/-- Reads a numeral: at least one digit and nothing else. -/
def nat? (cs : List Char) : Option Nat :=
  if cs ≠ [] ∧ cs.all Char.isDigit then some (Nat.ofDigitChars 10 cs 0) else none

/-- Reads a numeral with at most one sign in front. -/
def int? : List Char → Option Int
  | '+' :: cs => (nat? cs).map Int.ofNat
  | '-' :: cs => (nat? cs).map (fun n => -Int.ofNat n)
  | cs => (nat? cs).map Int.ofNat

theorem isDigit_of_mem_digits {n : Nat} {c : Char} (h : c ∈ digits n) : c.isDigit :=
  Nat.isDigit_of_mem_toDigits (b := 10) (by decide) (by decide) h

theorem nat?_digits (n : Nat) : nat? (digits n) = some n := by
  have h : (digits n).all Char.isDigit = true := List.all_eq_true.2 fun _ => isDigit_of_mem_digits
  simp only [nat?, h, and_true]
  simp [digits, Nat.ofDigitChars_toDigits]

theorem int?_digits (n : Nat) : int? (digits n) = some n := by
  have hdigit : ∀ c ∈ digits n, c.isDigit = true := fun _ => isDigit_of_mem_digits
  unfold int?
  split
  · rename_i cs h
    exact absurd (hdigit '+' (by rw [h]; exact List.mem_cons_self)) (by decide)
  · rename_i cs h
    exact absurd (hdigit '-' (by rw [h]; exact List.mem_cons_self)) (by decide)
  · rw [nat?_digits]
    rfl

theorem int?_ofInt : ∀ n : Int, int? (ofInt n).toList = some n
  | .ofNat n => (congrArg int? String.toList_ofList).trans (int?_digits n)
  | .negSucc n => by
    rw [ofInt, String.toList_ofList, int?, nat?_digits]
    rfl

theorem ofInt_toInt {n : Int64} (h : 0 ≤ n.toInt) : ofInt n.toInt = ofNat n.toInt.toNat := by
  obtain ⟨m, hm⟩ := Int.eq_ofNat_of_zero_le h
  rw [hm]
  rfl

end Decimal
end Ambigram
