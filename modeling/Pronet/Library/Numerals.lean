import Mathlib

/-! Numbers as ASCII text in a base up to sixteen, with the letters in lower case. -/
namespace Pronet.Library.Numerals

def digit (d : Nat) : UInt8 := if d < 10 then UInt8.ofNat (48 + d) else UInt8.ofNat (87 + d)

/-- Sixteen stands for a byte that is no digit. -/
def digitValue (b : UInt8) : Nat :=
  if 48 ≤ b.toNat ∧ b.toNat ≤ 57 then b.toNat - 48
  else if 97 ≤ b.toNat ∧ b.toNat ≤ 102 then b.toNat - 87
  else if 65 ≤ b.toNat ∧ b.toNat ≤ 70 then b.toNat - 55
  else 16

def isDigit (base : Nat) (b : UInt8) : Bool := digitValue b < base

def numeral (base n : Nat) : List UInt8 :=
  if n = 0 then [digit 0] else (Nat.digits base n).reverse.map digit

def value (base : Nat) (text : List UInt8) : Nat :=
  text.foldl (fun acc b => base * acc + digitValue b) 0

variable {base : Nat}

theorem digitValue_digit {d : Nat} (h : d < 16) : digitValue (digit d) = d := by
  unfold digitValue digit
  split
  · have hnat : (UInt8.ofNat (48 + d)).toNat = 48 + d := by
      rw [UInt8.toNat_ofNat']
      omega
    rw [hnat, if_pos (by omega)]
    omega
  · have hnat : (UInt8.ofNat (87 + d)).toNat = 87 + d := by
      rw [UInt8.toNat_ofNat']
      omega
    rw [hnat, if_neg (by omega), if_pos (by omega)]
    omega

theorem numeral_ne_nil (base n : Nat) : numeral base n ≠ [] := by
  unfold numeral
  split
  · exact List.cons_ne_nil _ _
  · rename_i hn
    simpa [Nat.digits_eq_nil_iff_eq_zero] using hn

theorem length_numeral_le (hbase : 1 < base) {n k : Nat} (hk : 0 < k) (hn : n < base ^ k) :
    (numeral base n).length ≤ k := by
  unfold numeral
  split
  · exact hk
  · rw [List.length_map, List.length_reverse]
    exact (Nat.digits_length_le_iff hbase n).mpr hn

theorem isDigit_of_mem_numeral (hbase : 1 < base) (hmax : base ≤ 16) {n : Nat} {b : UInt8}
    (h : b ∈ numeral base n) : isDigit base b = true := by
  unfold numeral at h
  split at h
  · rw [List.mem_singleton.mp h]
    unfold isDigit
    rw [digitValue_digit (by decide)]
    simp
    omega
  · obtain ⟨d, hd, rfl⟩ := List.mem_map.mp h
    have hlt := Nat.digits_lt_base hbase (List.mem_reverse.mp hd)
    unfold isDigit
    rw [digitValue_digit (by omega)]
    simpa using hlt

theorem value_digits {digits : List Nat} (h : ∀ d ∈ digits, d < 16) :
    value base (digits.reverse.map digit) = Nat.ofDigits base digits := by
  induction digits with
  | nil => rfl
  | cons d digits ih =>
    have hrest := ih fun e he => h e (List.mem_cons_of_mem _ he)
    unfold value at hrest ⊢
    rw [List.reverse_cons, List.map_append, List.foldl_append, hrest, Nat.ofDigits_cons]
    simp only [List.map_cons, List.map_nil, List.foldl_cons, List.foldl_nil,
      digitValue_digit (h d List.mem_cons_self)]
    omega

/-- What is written is read back. -/
theorem value_numeral (hbase : 1 < base) (hmax : base ≤ 16) (n : Nat) :
    value base (numeral base n) = n := by
  unfold numeral
  split
  · rename_i hn
    rw [hn]
    unfold value
    simp [digitValue_digit]
  · rw [value_digits, Nat.ofDigits_digits]
    intro d hd
    exact (Nat.digits_lt_base hbase hd).trans_le hmax

end Pronet.Library.Numerals
