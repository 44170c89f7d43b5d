import Ambigram.Unicode.Property
/-!
# Quoted text

A text between quotes, with everything that would not show on paper written as an escape.  A backslash
and a quote are escaped by a backslash; a character that only extends the one before it is written as
its code point, since it has no form of its own.

An escape is told from what follows it, and a quoted text ends where its last quote stands, whatever comes behind.  So
no two texts are quoted alike.
-/
namespace Ambigram

/-- Where a list of one kind of things ends is seen from the next thing, which is of another kind. -/
theorem takeWhile_append_cons {α : Type} {p : α → Bool} {as : List α} {a : α} (rest : List α)
    (has : ∀ b ∈ as, p b = true) (ha : p a = false) :
    (as ++ a :: rest).takeWhile p = as ∧ (as ++ a :: rest).dropWhile p = a :: rest := by
  rw [List.takeWhile_append_of_pos has, List.dropWhile_append_of_pos has, List.takeWhile_cons, List.dropWhile_cons, ha]
  exact ⟨List.append_nil as, rfl⟩

namespace Quoted

/-- The code point in hexadecimal digits between braces. -/
def codePoint (c : Char) : List Char :=
  '\\' :: 'u' :: '\x7b' :: Nat.toDigits 16 c.toNat ++ ['\x7d']

def escape (c : Char) : List Char :=
  match c with
  | '\x00' => ['\\', '0']
  | '\t' => ['\\', 't']
  | '\r' => ['\\', 'r']
  | '\n' => ['\\', 'n']
  | '"' => ['\\', '"']
  | '\\' => ['\\', '\\']
  | c =>
    if Unicode.Property.isGraphemeExtend c || !Unicode.Property.isVisible c then codePoint c else [c]

def quote (cs : List Char) : List Char := '"' :: cs.flatMap escape ++ ['"']

/-! ## Hexadecimal digits -/

def hexDigit (c : Char) : Nat := if c.isDigit then c.toNat - '0'.toNat else c.toNat - 'a'.toNat + 10

def hexValue (cs : List Char) : Nat := cs.foldl (fun n c => 16 * n + hexDigit c) 0

theorem hexDigit_digitChar {n : Nat} (h : n < 16) : hexDigit (Nat.digitChar n) = n := by
  have hall : ∀ m : Fin 16, hexDigit (Nat.digitChar m) = m := by decide
  exact hall ⟨n, h⟩

theorem digitChar_ne_brace {n : Nat} (h : n < 16) : Nat.digitChar n ≠ '\x7d' := by
  have hall : ∀ m : Fin 16, Nat.digitChar m ≠ '\x7d' := by decide
  exact hall ⟨n, h⟩

theorem hexValue_toDigits (n : Nat) : hexValue (Nat.toDigits 16 n) = n := by
  induction n using Nat.strongRecOn with
  | ind n ih =>
    rw [Nat.toDigits_eq_if (by decide)]
    split
    · rename_i h
      exact (congrArg (16 * 0 + ·) (hexDigit_digitChar h)).trans (Nat.zero_add n)
    · rename_i h
      have hfront := ih (n / 16) (by omega)
      unfold hexValue at hfront ⊢
      rw [List.foldl_append, hfront, List.foldl_cons, List.foldl_nil, hexDigit_digitChar (Nat.mod_lt n (by decide))]
      omega

theorem ne_brace_of_mem_toDigits {n : Nat} : ∀ c ∈ Nat.toDigits 16 n, c ≠ '\x7d' := by
  induction n using Nat.strongRecOn with
  | ind n ih =>
    rw [Nat.toDigits_eq_if (by decide)]
    split
    · rename_i h
      intro c hc
      exact List.mem_singleton.1 hc ▸ digitChar_ne_brace h
    · intro c hc
      obtain hc | hc := List.mem_append.1 hc
      · exact ih (n / 16) (by omega) c hc
      · exact List.mem_singleton.1 hc ▸ digitChar_ne_brace (Nat.mod_lt n (by decide))

/-! ## Characters -/

/-- The character that a letter behind a backslash stands for. -/
def lettered? : Char → Option Char
  | '0' => some '\x00'
  | 't' => some '\t'
  | 'r' => some '\r'
  | 'n' => some '\n'
  | '"' => some '"'
  | '\\' => some '\\'
  | _ => none

/-- Reads one character, escaped or not, and leaves the rest. -/
def unescape : List Char → Option (Char × List Char)
  | '\\' :: 'u' :: '\x7b' :: cs =>
    some (.ofNat (hexValue (cs.takeWhile (· ≠ '\x7d'))), (cs.dropWhile (· ≠ '\x7d')).tail)
  | '\\' :: e :: cs => (lettered? e).map (·, cs)
  | c :: cs => some (c, cs)
  | [] => none

/-- A character is escaped by a letter or by its code point, or it stands for itself. -/
theorem escape_cases (c : Char) : (∃ e, escape c = ['\\', e] ∧ lettered? e = some c) ∨ escape c = codePoint c ∨
    escape c = [c] ∧ c ≠ '"' ∧ c ≠ '\\' := by
  unfold escape
  split
  · exact .inl ⟨_, rfl, rfl⟩
  · exact .inl ⟨_, rfl, rfl⟩
  · exact .inl ⟨_, rfl, rfl⟩
  · exact .inl ⟨_, rfl, rfl⟩
  · exact .inl ⟨_, rfl, rfl⟩
  · exact .inl ⟨_, rfl, rfl⟩
  · rename_i hquote hbackslash
    split
    · exact .inr (.inl rfl)
    · exact .inr (.inr ⟨rfl, hquote, hbackslash⟩)

theorem unescape_lettered {c e : Char} (h : lettered? e = some c) (cs : List Char) :
    unescape ('\\' :: e :: cs) = some (c, cs) := by
  unfold unescape
  split
  · rename_i heq
    cases heq
    cases h
  · rename_i heq
    cases heq
    rw [h]
    rfl
  · rename_i hletter heq
    cases heq
    exact (hletter _ _ rfl rfl).elim
  · rename_i heq
    cases heq

theorem unescape_codePoint (c : Char) (cs : List Char) : unescape (codePoint c ++ cs) = some (c, cs) := by
  have hdigits : ∀ d ∈ Nat.toDigits 16 c.toNat, decide (d ≠ '\x7d') = true := fun d hd =>
    decide_eq_true (ne_brace_of_mem_toDigits d hd)
  obtain ⟨htake, hdrop⟩ := takeWhile_append_cons (a := '\x7d') cs hdigits (by decide)
  have hread : codePoint c ++ cs = '\\' :: 'u' :: '\x7b' :: (Nat.toDigits 16 c.toNat ++ '\x7d' :: cs) := by
    simp [codePoint]
  rw [hread, unescape, htake, hdrop, hexValue_toDigits, Char.ofNat_toNat]
  rfl

theorem unescape_self {c : Char} (h : c ≠ '\\') (cs : List Char) : unescape (c :: cs) = some (c, cs) := by
  unfold unescape
  split
  · rename_i heq
    cases heq
    exact absurd rfl h
  · rename_i heq
    cases heq
    exact absurd rfl h
  · rename_i heq
    cases heq
    rfl
  · rename_i heq
    cases heq

/-- What was escaped is read back in front of anything. -/
theorem unescape_escape (c : Char) (cs : List Char) : unescape (escape c ++ cs) = some (c, cs) := by
  obtain ⟨e, he, hletter⟩ | he | ⟨he, -, hbackslash⟩ := escape_cases c
  · rw [he]
    exact unescape_lettered hletter cs
  · rw [he]
    exact unescape_codePoint c cs
  · rw [he]
    exact unescape_self hbackslash cs

/-- No escape starts like the end of a quoted text. -/
theorem exists_escape_cons (c : Char) : ∃ d ds, escape c = d :: ds ∧ d ≠ '"' := by
  obtain ⟨e, he, -⟩ | he | ⟨he, hquote, -⟩ := escape_cases c
  · exact ⟨_, _, he, by decide⟩
  · exact ⟨_, _, he, by decide⟩
  · exact ⟨_, _, he, hquote⟩

/-! ## Texts -/

theorem flatMap_escape_inj : ∀ {s t x y : List Char}, s.flatMap escape ++ '"' :: x = t.flatMap escape ++ '"' :: y →
    s = t ∧ x = y
  | [], [], _, _, h => ⟨rfl, (List.cons.inj h).2⟩
  | [], d :: t, _, _, h => by
    obtain ⟨e, es, he, hquote⟩ := exists_escape_cons d
    rw [List.flatMap_cons, he] at h
    exact absurd (List.cons.inj h).1.symm hquote
  | c :: s, [], _, _, h => by
    obtain ⟨e, es, he, hquote⟩ := exists_escape_cons c
    rw [List.flatMap_cons, he] at h
    exact absurd (List.cons.inj h).1 hquote
  | c :: s, d :: t, x, y, h => by
    rw [List.flatMap_cons, List.flatMap_cons, List.append_assoc, List.append_assoc] at h
    have hread := congrArg unescape h
    rw [unescape_escape, unescape_escape] at hread
    obtain ⟨rfl, hrest⟩ := Prod.mk.inj (Option.some.inj hread)
    obtain ⟨rfl, hxy⟩ := flatMap_escape_inj hrest
    exact ⟨rfl, hxy⟩

/-- **A quoted text is told from everything behind it.** -/
theorem quote_append_inj {s t x y : List Char} (h : quote s ++ x = quote t ++ y) : s = t ∧ x = y := by
  refine flatMap_escape_inj ?_
  simpa [quote] using h

end Quoted
end Ambigram
