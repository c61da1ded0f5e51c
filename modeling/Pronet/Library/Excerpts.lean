import Mathlib

/-! Items read off stretches of a log, in the order of the log. Between two stretches
there may be a gap. What an item has to do with its stretch, with the gap before it and
with the item before it is a parameter. -/
namespace Pronet.Library.Excerpts

variable {α β γ : Type*}

inductive Excerpt (fits : Option α → List β → α → List β → Prop) : List α → List β → Prop
  | nil : Excerpt fits [] []
  | snoc {items : List α} {log : List β} (gap : List β) (item : α) (run : List β) :
      Excerpt fits items log → fits items.getLast? gap item run →
      Excerpt fits (items ++ [item]) (log ++ gap ++ run)

variable {fits : Option α → List β → α → List β → Prop}
  {fits' : Option γ → List β → γ → List β → Prop}

/-- How the last item was read. -/
theorem Excerpt.last {items : List α} {item : α} {log : List β}
    (h : Excerpt fits (items ++ [item]) log) :
    ∃ before gap run, log = before ++ gap ++ run ∧ Excerpt fits items before ∧
      fits items.getLast? gap item run := by
  generalize hall : items ++ [item] = all at h
  cases h with
  | nil => exact absurd hall (by simp)
  | snoc gap other run h hfits =>
    obtain ⟨rfl, hitem⟩ := List.append_inj' hall rfl
    cases hitem
    exact ⟨_, gap, run, rfl, h, hfits⟩

/-- The first items are read off the beginning of the log. -/
theorem Excerpt.take {all items : List α} {log : List β} (h : Excerpt fits all log)
    (hitems : items <+: all) : ∃ read, read <+: log ∧ Excerpt fits items read := by
  induction h with
  | nil =>
    rw [List.prefix_nil.mp hitems]
    exact ⟨[], List.prefix_refl _, .nil⟩
  | snoc gap item run h hfits ih =>
    rcases List.prefix_concat_iff.mp hitems with hall | hfewer
    · rw [hall]
      exact ⟨_, List.prefix_refl _, .snoc gap item run h hfits⟩
    · obtain ⟨read, hread, hexcerpt⟩ := ih hfewer
      refine ⟨read, hread.trans ?_, hexcerpt⟩
      rw [List.append_assoc]
      exact List.prefix_append _ _

theorem Excerpt.map (f : α → γ) {items : List α} {log : List β} (h : Excerpt fits items log)
    (hfits : ∀ previous gap item run, fits previous gap item run →
      fits' (previous.map f) gap (f item) run) : Excerpt fits' (items.map f) log := by
  induction h with
  | nil => exact .nil
  | snoc gap item run h hlast ih =>
    have hnext := hfits _ _ _ _ hlast
    rw [← List.getLast?_map] at hnext
    rw [List.map_append]
    exact .snoc gap (f item) run ih hnext

theorem Excerpt.mono {weaker : Option α → List β → α → List β → Prop} {items : List α}
    {log : List β} (h : Excerpt fits items log)
    (hfits : ∀ previous gap item run, fits previous gap item run →
      weaker previous gap item run) : Excerpt weaker items log := by
  induction h with
  | nil => exact .nil
  | snoc gap item run h hlast ih => exact .snoc gap item run ih (hfits _ _ _ _ hlast)

end Pronet.Library.Excerpts
