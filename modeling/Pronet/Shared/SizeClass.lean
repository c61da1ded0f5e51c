import Mathlib

/-! The size classes of the SGI pool allocator. A request is served from the
smallest class that holds it, found by bisection; sizes above the last class are
rounded to the last class. -/
namespace Pronet.Shared.SizeClass

/-- `_MAX_BYTES`, `_NFREELISTS` and `_CHUNK_SIZE`. -/
def maxBytes : Nat := 1024 * 128
def nFreeLists : Nat := 60
def chunkSize : Nat := 1024 * 1024 * 2

/-- `_S_obj_size`. -/
def objSizes : List Nat :=
  [8,
    16, 32, 48, 64, 80, 96, 112, 128,
    160, 192, 224, 256,
    320, 384, 448, 512,
    640, 768, 896, 1024,
    1280, 1536, 1792, 2048,
    2560, 3072, 3584] ++ (List.range 32).map fun k => 4096 * (k + 1)

def objSize (i : Nat) : Nat := objSizes.getD i 0

/-- The bisection loop of `_S_freelist_index`. The interval shrinks in each turn,
so `r - l` turns are enough. -/
def bisect (bytes : Nat) : Nat → Nat → Nat → Nat
  | 0, l, _ => l
  | fuel + 1, l, r =>
      if l < r then
        let m := (l + r) / 2
        if bytes = objSize m then m
        else if bytes > objSize m then bisect bytes fuel (m + 1) r
        else bisect bytes fuel l m
      else l

/-- `_S_freelist_index`. -/
def freelistIndex (bytes : Nat) : Nat :=
  if bytes ≤ objSize 0 then 0
  else if bytes ≥ objSize (nFreeLists - 1) then nFreeLists - 1
  else bisect bytes (nFreeLists - 1) 0 (nFreeLists - 1)

/-- `_S_round_up`. -/
def roundUp (bytes : Nat) : Nat := objSize (freelistIndex bytes)

theorem objSize_lt_succ : ∀ i < nFreeLists - 1, objSize i < objSize (i + 1) := by decide

theorem objSize_pos : ∀ i < nFreeLists, 8 ≤ objSize i := by decide

theorem objSize_last : objSize (nFreeLists - 1) = maxBytes := by decide

theorem objSize_mono {i j : Nat} (hj : j < nFreeLists) (h : i ≤ j) : objSize i ≤ objSize j := by
  induction j with
  | zero =>
    rw [Nat.le_zero.mp h]
  | succ j ih =>
    rcases Nat.lt_or_ge i (j + 1) with hlt | hge
    · have hstep := objSize_lt_succ j (by omega)
      have hprev := ih (by omega) (by omega)
      omega
    · rw [Nat.le_antisymm h hge]

theorem objSize_strictMono {i j : Nat} (hj : j < nFreeLists) (h : i < j) :
    objSize i < objSize j := by
  have hstep := objSize_lt_succ i (by omega)
  have hmono : objSize (i + 1) ≤ objSize j := objSize_mono hj h
  omega

theorem objSize_le_maxBytes {i : Nat} (h : i < nFreeLists) : objSize i ≤ maxBytes := by
  rw [← objSize_last]
  apply objSize_mono
  · decide
  · omega

/-- The bisection ends at the first class that is large enough: every class
below `l` is too small and the class `r` is large enough. -/
theorem bisect_spec {bytes : Nat} : ∀ (fuel l r : Nat), r - l ≤ fuel → l ≤ r → r < nFreeLists →
    (∀ i < l, objSize i < bytes) → bytes ≤ objSize r →
    bisect bytes fuel l r < nFreeLists ∧ bytes ≤ objSize (bisect bytes fuel l r) ∧
      ∀ i < bisect bytes fuel l r, objSize i < bytes := by
  intro fuel
  induction fuel with
  | zero =>
    intro l r hfuel hle hr hbelow habove
    have heq : l = r := by omega
    subst heq
    exact ⟨hr, habove, hbelow⟩
  | succ fuel ih =>
    intro l r hfuel hle hr hbelow habove
    unfold bisect
    split
    · rename_i hlt
      have hm : (l + r) / 2 < r := by omega
      dsimp only
      split
      · rename_i heq
        refine ⟨by omega, by omega, fun i hi => ?_⟩
        have hmono := objSize_strictMono (by omega) hi
        omega
      · split
        · rename_i hne hgt
          apply ih _ _ (by omega) (by omega) hr _ habove
          intro i hi
          have hmono : objSize i ≤ objSize ((l + r) / 2) := objSize_mono (by omega) (by omega)
          omega
        · rename_i hne hgt
          apply ih _ _ (by omega) (by omega) (by omega) hbelow (by omega)
    · rename_i hge
      have heq : l = r := by omega
      subst heq
      exact ⟨hr, habove, hbelow⟩

theorem freelistIndex_lt (bytes : Nat) : freelistIndex bytes < nFreeLists := by
  unfold freelistIndex
  split
  · decide
  · split
    · decide
    · rename_i hzero hlast
      apply (bisect_spec _ _ _ (by omega) (by omega) (by decide) (by omega) (by omega)).1

/-- Up to the limit the class found holds the request. -/
theorem le_roundUp {bytes : Nat} (h : bytes ≤ maxBytes) : bytes ≤ roundUp bytes := by
  unfold roundUp freelistIndex
  split
  · assumption
  · split
    · rw [objSize_last]
      exact h
    · rename_i hzero hlast
      exact (bisect_spec _ _ _ (by omega) (by omega) (by decide) (by omega) (by omega)).2.1

theorem objSize_lt_of_lt_freelistIndex {bytes i : Nat} (h : i < freelistIndex bytes) :
    objSize i < bytes := by
  unfold freelistIndex at h
  split at h
  · omega
  · split at h
    · rename_i hlast
      have hmono : objSize i < objSize (nFreeLists - 1) := objSize_strictMono (by decide) h
      omega
    · exact (bisect_spec _ _ _ (by omega) (by omega) (by decide) (by omega) (by omega)).2.2 i h

/-- A class size is served from its own class. -/
theorem freelistIndex_objSize {i : Nat} (h : i < nFreeLists) : freelistIndex (objSize i) = i := by
  have hle : objSize i ≤ objSize (freelistIndex (objSize i)) := le_roundUp (objSize_le_maxBytes h)
  rcases Nat.lt_trichotomy (freelistIndex (objSize i)) i with hlt | heq | hgt
  · have hmono := objSize_strictMono h hlt
    omega
  · exact heq
  · have hbelow := objSize_lt_of_lt_freelistIndex hgt
    omega

theorem freelistIndex_roundUp (bytes : Nat) : freelistIndex (roundUp bytes) = freelistIndex bytes :=
  freelistIndex_objSize (freelistIndex_lt bytes)

theorem roundUp_pos (bytes : Nat) : 8 ≤ roundUp bytes :=
  objSize_pos _ (freelistIndex_lt bytes)

theorem roundUp_le (bytes : Nat) : roundUp bytes ≤ maxBytes :=
  objSize_le_maxBytes (freelistIndex_lt bytes)

/-- Above the limit the size saturates at the last class. -/
theorem roundUp_of_lt {bytes : Nat} (h : maxBytes < bytes) : roundUp bytes = maxBytes := by
  have hlast := objSize_last
  unfold roundUp freelistIndex
  rw [if_neg, if_pos]
  · exact hlast
  · omega
  · have hfirst : objSize 0 ≤ maxBytes := by decide
    omega

end Pronet.Shared.SizeClass
