import Mathlib

/-! Two values that take turns in a list. A switch that one of them turns on and the
other off follows the list as long as it does not repeat itself. -/
namespace Pronet.Library.Alternation

variable {α : Type*}

/-- The list is `a, b, a, ...` as far as it goes. -/
def Alternates (a b : α) : List α → Prop
  | [] => True
  | x :: xs => x = a ∧ Alternates b a xs

variable [DecidableEq α]

/-- Where the switch stands behind the list, unless it was told what it already is. -/
def follow (a b : α) : Bool → List α → Option Bool
  | on, [] => some on
  | false, x :: xs => if x = a then follow a b true xs else none
  | true, x :: xs => if x = b then follow a b false xs else none

theorem follow_append (a b : α) (on : Bool) (xs ys : List α) :
    follow a b on (xs ++ ys) = (follow a b on xs).bind fun on => follow a b on ys := by
  induction xs generalizing on with
  | nil => simp [follow]
  | cons x xs ih =>
    cases on with
    | false =>
      simp only [List.cons_append, follow]
      split
      · exact ih true
      · rfl
    | true =>
      simp only [List.cons_append, follow]
      split
      · exact ih false
      · rfl

/-- The list alternates from where the switch stood, and its last entry is the one
that left the switch where it stands. -/
theorem alternates_of_follow_from {a b : α} (hne : a ≠ b) {start on : Bool} {xs : List α}
    (h : follow a b start xs = some on) :
    Alternates (if start then b else a) (if start then a else b) xs ∧
      (on = true ↔ xs.getLast? = some a ∨ xs = [] ∧ start = true) := by
  induction xs generalizing start with
  | nil =>
    have heq : start = on := Option.some.inj h
    subst heq
    simp [Alternates]
  | cons x xs ih =>
    cases start with
    | false =>
      simp only [follow] at h
      split at h
      · rename_i hx
        obtain ⟨halt, hlast⟩ := ih h
        refine ⟨⟨hx, halt⟩, ?_⟩
        rw [hlast, List.getLast?_cons]
        cases xs <;> simp [hx, List.getLast?_cons]
      · cases h
    | true =>
      simp only [follow] at h
      split at h
      · rename_i hx
        obtain ⟨halt, hlast⟩ := ih h
        refine ⟨⟨hx, halt⟩, ?_⟩
        rw [hlast, List.getLast?_cons]
        cases xs <;> simp [hx, hne.symm, List.getLast?_cons]
      · cases h

theorem alternates_of_follow {a b : α} (hne : a ≠ b) {on : Bool} {xs : List α}
    (h : follow a b false xs = some on) :
    Alternates a b xs ∧ (on = true ↔ xs.getLast? = some a) := by
  obtain ⟨halt, hlast⟩ := alternates_of_follow_from hne h
  exact ⟨halt, by simpa using hlast⟩

end Pronet.Library.Alternation
