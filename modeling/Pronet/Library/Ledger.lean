import Mathlib

/-! Books of a container of counted references. An operation leaves effects behind:
references taken and given back, subtractions from unsigned counters, and accesses to
the front of a list. `Settles` says that the effects explain the change of what is held. -/
namespace Pronet.Library.Ledger

variable {α σ ε : Type*}

inductive Effect (α : Type*)
  | addRef (item : α)
  | release (item : α)
  | subtract (counter amount : Nat)
  | front (items : List α)
  deriving DecidableEq, Repr

/-- A subtraction does not underflow, and the front of an empty list is not read. -/
def Effect.Sound : Effect α → Prop
  | .addRef _ | .release _ => True
  | .subtract counter amount => amount ≤ counter
  | .front items => items ≠ []

def addRefs : List (Effect α) → Multiset α
  | [] => 0
  | .addRef item :: effects => item ::ₘ addRefs effects
  | _ :: effects => addRefs effects

def releases : List (Effect α) → Multiset α
  | [] => 0
  | .release item :: effects => item ::ₘ releases effects
  | _ :: effects => releases effects

theorem addRefs_append (first second : List (Effect α)) :
    addRefs (first ++ second) = addRefs first + addRefs second := by
  induction first with
  | nil => simp [addRefs]
  | cons effect first ih => cases effect <;> simp [addRefs, ih]

theorem releases_append (first second : List (Effect α)) :
    releases (first ++ second) = releases first + releases second := by
  induction first with
  | nil => simp [releases]
  | cons effect first ih => cases effect <;> simp [releases, ih]

/-- The effects are sound, and lead from the references `before` to those `after`. -/
structure Settles (effects : List (Effect α)) (before after : Multiset α) : Prop where
  sound : ∀ effect ∈ effects, effect.Sound
  refs : releases effects + after = addRefs effects + before

theorem Settles.nil (held : Multiset α) : Settles [] held held :=
  ⟨fun _ h => absurd h List.not_mem_nil, rfl⟩

theorem Settles.append {first second : List (Effect α)} {a b c : Multiset α}
    (hfirst : Settles first a b) (hsecond : Settles second b c) :
    Settles (first ++ second) a c := by
  constructor
  · intro effect heffect
    rcases List.mem_append.mp heffect with h | h
    · exact hfirst.sound effect h
    · exact hsecond.sound effect h
  · rw [releases_append, addRefs_append]
    calc releases first + releases second + c
        = releases first + (releases second + c) := add_assoc _ _ _
      _ = releases first + (addRefs second + b) := by rw [hsecond.refs]
      _ = addRefs second + (releases first + b) := add_left_comm _ _ _
      _ = addRefs second + (addRefs first + a) := by rw [hfirst.refs]
      _ = addRefs first + addRefs second + a := by rw [add_left_comm, add_assoc]

/-- What the effects do not touch stays. -/
theorem Settles.frame {effects : List (Effect α)} {before after : Multiset α}
    (h : Settles effects before after) (rest : Multiset α) :
    Settles effects (before + rest) (after + rest) :=
  ⟨h.sound, by rw [← add_assoc, h.refs, add_assoc]⟩

theorem Settles.addRef (item : α) (held : Multiset α) :
    Settles [.addRef item] held (item ::ₘ held) :=
  ⟨by simp [Effect.Sound], by simp [releases, addRefs]⟩

theorem Settles.release (item : α) (held : Multiset α) :
    Settles [.release item] (item ::ₘ held) held :=
  ⟨by simp [Effect.Sound], by simp [releases, addRefs]⟩

theorem Settles.subtract {counter amount : Nat} (h : amount ≤ counter) (held : Multiset α) :
    Settles [.subtract counter amount] held held :=
  ⟨by simpa [Effect.Sound] using h, by simp [releases, addRefs]⟩

theorem Settles.front {items : List α} (h : items ≠ []) (held : Multiset α) :
    Settles [.front items] held held :=
  ⟨by simpa [Effect.Sound] using h, by simp [releases, addRefs]⟩

/-- Giving back all of `items`, one after the other. -/
theorem Settles.releaseAll (items : List α) (held : Multiset α) :
    Settles (items.map .release) (items + held) held := by
  induction items with
  | nil => simpa using Settles.nil held
  | cons item items ih =>
    rw [List.map_cons, ← Multiset.cons_coe, Multiset.cons_add]
    exact (Settles.release item _).append ih

/-- A run from `s`, with all the effects of its steps. -/
def play (step : σ → ε → σ × List (Effect α)) (s : σ) (events : List ε) :
    σ × List (Effect α) :=
  events.foldl (fun state event =>
    ((step state.1 event).1, state.2 ++ (step state.1 event).2)) (s, [])

variable {step : σ → ε → σ × List (Effect α)} {held : σ → Multiset α} {Inv : σ → Prop}
  {guard : σ → ε → Prop}

theorem play_snoc (s : σ) (events : List ε) (event : ε) :
    play step s (events ++ [event]) =
      ((step (play step s events).1 event).1,
        (play step s events).2 ++ (step (play step s events).1 event).2) := by
  simp [play]

/-- If every guarded step settles and keeps `Inv`, so does every guarded run. -/
theorem play_settles
    (hstep : ∀ s event, Inv s → guard s event →
      Inv (step s event).1 ∧ Settles (step s event).2 (held s) (held (step s event).1))
    {s : σ} (hinv : Inv s) (events : List ε)
    (hguard : ∀ earlier event, earlier ++ [event] <+: events →
      guard (play step s earlier).1 event) :
    Inv (play step s events).1 ∧ Settles (play step s events).2 (held s)
      (held (play step s events).1) := by
  induction events using List.reverseRecOn with
  | nil => exact ⟨hinv, Settles.nil _⟩
  | append_singleton events event ih =>
    have hbefore := ih fun earlier other h => hguard earlier other (h.trans (List.prefix_append _ _))
    have hnext := hstep _ event hbefore.1 (hguard events event (List.prefix_refl _))
    rw [play_snoc]
    exact ⟨hnext.1, hbefore.2.append hnext.2⟩

theorem play_settles_all
    (hstep : ∀ s event, Inv s →
      Inv (step s event).1 ∧ Settles (step s event).2 (held s) (held (step s event).1))
    {s : σ} (hinv : Inv s) (events : List ε) :
    Inv (play step s events).1 ∧ Settles (play step s events).2 (held s)
      (held (play step s events).1) :=
  play_settles (fun s event h (_ : True) => hstep s event h) hinv events fun _ _ _ => trivial

/-- If a step outside the guard is seen at once, a run is good all along exactly if every
step of it is guarded. -/
theorem good_iff_guarded {Good : σ → List (Effect α) → Prop} {s : σ}
    (hstep : ∀ s event, Inv s → guard s event →
      Inv (step s event).1 ∧ Settles (step s event).2 (held s) (held (step s event).1))
    (hgood : ∀ next effects, Inv next → Settles effects (held s) (held next) → Good next effects)
    (hbad : ∀ s event effects, Inv s → ¬ guard s event → ¬ Good (step s event).1 effects)
    (hinv : Inv s) (events : List ε) :
    (∀ earlier, earlier <+: events → Good (play step s earlier).1 (play step s earlier).2) ↔
      ∀ earlier event, earlier ++ [event] <+: events → guard (play step s earlier).1 event := by
  constructor
  · intro hall
    induction events using List.reverseRecOn with
    | nil => exact fun earlier event h => absurd (List.prefix_nil.mp h) (by simp)
    | append_singleton events event ih =>
      have hguarded := ih fun earlier h => hall earlier (h.trans (List.prefix_append _ _))
      intro earlier other hother
      by_cases hlast : earlier ++ [other] = events ++ [event]
      · obtain ⟨rfl, hevent⟩ := List.append_inj' hlast rfl
        cases hevent
        by_contra hunguarded
        have hinvs := (play_settles hstep hinv earlier hguarded).1
        have hseen := hall (earlier ++ [event]) (List.prefix_refl _)
        rw [play_snoc] at hseen
        exact hbad _ event _ hinvs hunguarded hseen
      · have hlength : (earlier ++ [other]).length ≤ events.length := by
          have hle := hother.length_le
          have hne : (earlier ++ [other]).length ≠ (events ++ [event]).length :=
            fun heq => hlast (hother.eq_of_length heq)
          simp only [List.length_append, List.length_singleton] at hle hne ⊢
          omega
        exact hguarded earlier other
          (List.prefix_of_prefix_length_le hother (List.prefix_append _ _) hlength)
  · intro hguard earlier hearlier
    have hrun := play_settles hstep hinv earlier fun first event h =>
      hguard first event (h.trans hearlier)
    exact hgood _ _ hrun.1 hrun.2

end Pronet.Library.Ledger
