import Mathlib

/-! Beats of a period through an anchor, and the first one after a moment. -/
namespace Pronet.Library.Beats

/-- The first beat after `now`. -/
def next (period anchor now : Int) : Int := now + period - (now - anchor) % period

variable {period anchor now : Int}

theorem now_lt_next (h : 0 < period) : now < next period anchor now := by
  have hlt := Int.emod_lt_of_pos (now - anchor) h
  unfold next
  omega

theorem next_le (h : 0 < period) : next period anchor now ≤ now + period := by
  have hnonneg := Int.emod_nonneg (now - anchor) (Int.ne_of_gt h)
  unfold next
  omega

/-- The next beat keeps the phase of the anchor. -/
theorem next_modEq : next period anchor now ≡ anchor [ZMOD period] := by
  have hmod : (now - anchor) % period ≡ now - anchor [ZMOD period] := Int.mod_modEq _ _
  have hperiod : now + period ≡ now [ZMOD period] := Int.add_modEq_right
  have h := hperiod.sub hmod
  unfold next
  rw [Int.sub_sub_self] at h
  exact h

theorem isLeast_next (h : 0 < period) :
    IsLeast {beat | now < beat ∧ beat ≡ anchor [ZMOD period]} (next period anchor now) := by
  refine ⟨⟨now_lt_next h, next_modEq⟩, ?_⟩
  intro beat hbeat
  obtain ⟨hlater, hphase⟩ := hbeat
  -- Two beats that are less than a period apart are one beat.
  by_contra hbefore
  have hdvd : period ∣ next period anchor now - beat := (hphase.trans next_modEq.symm).dvd
  have hpos : 0 < next period anchor now - beat := by omega
  have hle := Int.le_of_dvd hpos hdvd
  have hclose : next period anchor now ≤ now + period := next_le h
  omega

theorem isLeast_iff (h : 0 < period) (beat : Int) :
    IsLeast {beat | now < beat ∧ beat ≡ anchor [ZMOD period]} beat ↔
      beat = next period anchor now :=
  ⟨fun hleast => hleast.unique (isLeast_next h), fun heq => heq ▸ isLeast_next h⟩

/-- From an anchor less than a period ago it is the next one. -/
theorem next_of_late (hpast : anchor ≤ now) (hlate : now < anchor + period) :
    next period anchor now = anchor + period := by
  unfold next
  rw [Int.emod_eq_of_lt (by omega) (by omega)]
  omega

/-- Where the next beat is, by the phases of the moment and of the anchor. -/
theorem next_eq (h : 0 < period) :
    next period anchor now = period * (now / period) + anchor % period +
      if anchor % period ≤ now % period then period else 0 := by
  have hnow := Int.mul_ediv_add_emod now period
  have hphase : (now - anchor) % period = (now % period - anchor % period) % period :=
    Int.sub_emod now anchor period
  have hnonneg := Int.emod_nonneg now (Int.ne_of_gt h)
  have hnonneg' := Int.emod_nonneg anchor (Int.ne_of_gt h)
  have hlt := Int.emod_lt_of_pos now h
  have hlt' := Int.emod_lt_of_pos anchor h
  unfold next
  split
  · rw [hphase, Int.emod_eq_of_lt (by omega) (by omega)]
    omega
  · rw [hphase, ← Int.add_emod_right, Int.emod_eq_of_lt (by omega) (by omega)]
    omega

end Pronet.Library.Beats
