import Pronet.Library.Numerals

/-! The conversions of `sscanf` and `sprintf` that the library uses, as glibc has them where
`unsigned long` has 64 bits. -/
namespace Pronet.Util

open Library Numerals

def isSpace (b : UInt8) : Bool := b.toNat == 32 || (9 ≤ b.toNat && b.toNat ≤ 13)

/-- The value of the number at the head of the text, none if there is no digit. A minus sign
negates it; what is too large becomes the largest number. -/
def strtoul (base : Nat) (text : List UInt8) : Option Nat :=
  let text := text.dropWhile isSpace
  let negative := text.head? = some 45
  let text := if negative ∨ text.head? = some 43 then text.tail else text
  let digits := text.takeWhile (isDigit base)
  if digits = [] then none
  else if 2 ^ 64 ≤ value base digits then some (2 ^ 64 - 1)
  else if negative then some ((2 ^ 64 - value base digits) % 2 ^ 64)
  else some (value base digits)

/-- `%u` keeps the low 32 bits. -/
def sscanfU (text : List UInt8) : Option Nat := (strtoul 10 text).map (· % 2 ^ 32)

def sscanfLlu (text : List UInt8) : Option Nat := strtoul 10 text

/-- `%u` and `%llu`. -/
def sprintfU (n : Nat) : List UInt8 := numeral 10 n

theorem not_sign_of_isDigit {base : Nat} (hbase : base ≤ 16) {b : UInt8}
    (h : isDigit base b = true) : isSpace b = false ∧ b ≠ 45 ∧ b ≠ 43 := by
  have hvalue : digitValue b < base := by simpa [isDigit] using h
  unfold digitValue at hvalue
  refine ⟨?_, ?_, ?_⟩
  · unfold isSpace
    simp only [Bool.or_eq_false_iff, beq_eq_false_iff_ne, Bool.and_eq_false_iff,
      decide_eq_false_iff_not]
    split_ifs at hvalue <;> omega
  · rintro rfl
    simp at hvalue
    omega
  · rintro rfl
    simp at hvalue
    omega

/-- Text of digits alone. -/
theorem strtoul_digits {base : Nat} (hbase : base ≤ 16) {text : List UInt8}
    (hdigits : ∀ b ∈ text, isDigit base b = true) (hne : text ≠ []) :
    strtoul base text = some (min (value base text) (2 ^ 64 - 1)) := by
  cases text with
  | nil => exact absurd rfl hne
  | cons b rest =>
    obtain ⟨hspace, hminus, hplus⟩ := not_sign_of_isDigit hbase (hdigits b List.mem_cons_self)
    have hall : (b :: rest).takeWhile (isDigit base) = b :: rest :=
      List.takeWhile_eq_self_iff.mpr hdigits
    unfold strtoul
    dsimp only
    rw [List.dropWhile_cons_of_neg (by simp [hspace])]
    simp only [List.head?_cons, Option.some.injEq, hminus, hplus, or_self, if_false, hall, hne]
    split
    · rename_i hlarge
      congr 1
      omega
    · rename_i hsmall
      congr 1
      omega

theorem sscanfU_digits {text : List UInt8} (hdigits : ∀ b ∈ text, isDigit 10 b = true)
    (hne : text ≠ []) : sscanfU text = some (min (value 10 text) (2 ^ 64 - 1) % 2 ^ 32) := by
  unfold sscanfU
  rw [strtoul_digits (by decide) hdigits hne]
  rfl

theorem sscanfLlu_digits {text : List UInt8} (hdigits : ∀ b ∈ text, isDigit 10 b = true)
    (hne : text ≠ []) : sscanfLlu text = some (min (value 10 text) (2 ^ 64 - 1)) :=
  strtoul_digits (by decide) hdigits hne

/-! What is printed is read back. -/

theorem sprintfU_ne_nil (n : Nat) : sprintfU n ≠ [] := numeral_ne_nil 10 n

theorem isDigit_of_mem_sprintfU {n : Nat} {b : UInt8} (h : b ∈ sprintfU n) : isDigit 10 b = true :=
  isDigit_of_mem_numeral (by decide) (by decide) h

theorem value_sprintfU (n : Nat) : value 10 (sprintfU n) = n :=
  value_numeral (by decide) (by decide) n

theorem length_sprintfU_le {n k : Nat} (hk : 0 < k) (hn : n < 10 ^ k) : (sprintfU n).length ≤ k :=
  length_numeral_le (by decide) hk hn

end Pronet.Util
