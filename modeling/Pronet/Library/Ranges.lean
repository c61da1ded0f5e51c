import Mathlib

/-! Ranges of addresses, and how often a list of ranges covers an address. Giving
memory from one list to another moves coverage, so that a list which covers no
address twice stays so. -/
namespace Pronet.Library.Ranges

structure Range where
  start : Nat
  size : Nat
  deriving DecidableEq, Repr

namespace Range

instance : Membership Nat Range where
  mem r x := r.start ≤ x ∧ x < r.start + r.size

theorem mem_def {r : Range} {x : Nat} : x ∈ r ↔ r.start ≤ x ∧ x < r.start + r.size := Iff.rfl

instance (r : Range) (x : Nat) : Decidable (x ∈ r) :=
  inferInstanceAs (Decidable (r.start ≤ x ∧ x < r.start + r.size))

def Disjoint (r r' : Range) : Prop :=
  r.size = 0 ∨ r'.size = 0 ∨ r.start + r.size ≤ r'.start ∨ r'.start + r'.size ≤ r.start

instance (r r' : Range) : Decidable (r.Disjoint r') :=
  inferInstanceAs (Decidable (_ ∨ _ ∨ _ ∨ _))

theorem disjoint_iff {r r' : Range} : r.Disjoint r' ↔ ∀ x ∈ r, x ∉ r' := by
  unfold Disjoint
  constructor
  · intro h x hx hx'
    rw [mem_def] at hx hx'
    omega
  · intro h
    by_contra hnot
    apply h (max r.start r'.start) <;> rw [mem_def] <;> omega

/-- One if the range has the address and zero otherwise. -/
def count (r : Range) (x : Nat) : Nat := if x ∈ r then 1 else 0

theorem count_le_one (r : Range) (x : Nat) : r.count x ≤ 1 := by
  unfold count
  split <;> omega

theorem count_pos {r : Range} {x : Nat} : 0 < r.count x ↔ x ∈ r := by
  unfold count
  split <;> simp_all

theorem count_eq_zero {r : Range} {x : Nat} : r.count x = 0 ↔ x ∉ r := by
  unfold count
  split <;> simp_all

/-- Cutting a range in two. -/
theorem count_split (start left right x : Nat) :
    (⟨start, left + right⟩ : Range).count x =
      (⟨start, left⟩ : Range).count x + (⟨start + left, right⟩ : Range).count x := by
  simp only [count, mem_def]
  split <;> split <;> split <;> omega

@[simp] theorem count_empty (start x : Nat) : (⟨start, 0⟩ : Range).count x = 0 := by
  simp only [count, mem_def]
  split <;> omega

end Range

/-- How many of the ranges have the address. -/
def cover (ranges : List Range) (x : Nat) : Nat := (ranges.map fun r => r.count x).sum

@[simp] theorem cover_nil (x : Nat) : cover [] x = 0 := rfl

@[simp] theorem cover_cons (r : Range) (ranges : List Range) (x : Nat) :
    cover (r :: ranges) x = r.count x + cover ranges x := by
  simp [cover]

@[simp] theorem cover_append (left right : List Range) (x : Nat) :
    cover (left ++ right) x = cover left x + cover right x := by
  simp [cover]

theorem cover_perm {left right : List Range} (h : left.Perm right) (x : Nat) :
    cover left x = cover right x :=
  (h.map _).sum_eq

theorem count_le_cover {r : Range} {ranges : List Range} (h : r ∈ ranges) (x : Nat) :
    r.count x ≤ cover ranges x := by
  rw [cover_perm (List.perm_cons_erase h), cover_cons]
  omega

theorem cover_pos {ranges : List Range} {x : Nat} :
    0 < cover ranges x ↔ ∃ r ∈ ranges, x ∈ r := by
  constructor
  · intro h
    induction ranges with
    | nil => simp at h
    | cons r ranges ih =>
      by_cases hr : x ∈ r
      · exact ⟨r, List.mem_cons_self, hr⟩
      · rw [cover_cons, Range.count_eq_zero.mpr hr, Nat.zero_add] at h
        obtain ⟨r', hmem, hx⟩ := ih h
        exact ⟨r', List.mem_cons_of_mem r hmem, hx⟩
  · rintro ⟨r, hmem, hx⟩
    have hle := count_le_cover hmem x
    have hpos := Range.count_pos.mpr hx
    omega

/-- Ranges that cover no address twice are pairwise disjoint. -/
theorem pairwise_disjoint_of_cover_le_one {ranges : List Range}
    (h : ∀ x, cover ranges x ≤ 1) : ranges.Pairwise Range.Disjoint := by
  induction ranges with
  | nil => exact List.Pairwise.nil
  | cons r ranges ih =>
    simp only [cover_cons] at h
    rw [List.pairwise_cons]
    constructor
    · intro r' hmem
      rw [Range.disjoint_iff]
      intro x hx hx'
      have hfirst := Range.count_pos.mpr hx
      have hsecond := cover_pos.mpr ⟨r', hmem, hx'⟩
      have hboth := h x
      omega
    · apply ih
      intro x
      have hboth := h x
      omega

/-- A range that is disjoint from every other adds coverage only where there was none. -/
theorem cover_eq_zero_of_disjoint {r : Range} {ranges : List Range}
    (h : ∀ r' ∈ ranges, r.Disjoint r') {x : Nat} (hx : x ∈ r) : cover ranges x = 0 := by
  by_contra hne
  obtain ⟨r', hmem, hx'⟩ := cover_pos.mp (Nat.pos_of_ne_zero hne)
  exact Range.disjoint_iff.mp (h r' hmem) x hx hx'

end Pronet.Library.Ranges
