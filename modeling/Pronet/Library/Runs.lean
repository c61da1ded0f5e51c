import Mathlib

/-! Machines driven by a list of events. A step is partial: `none` marks an
event that is not enabled. Safety of every run follows from what one step
preserves, with an optional guard on the events that are taken. -/
namespace Pronet.Library.Runs

variable {σ ε : Type*}

def run (step : σ → ε → Option σ) : σ → List ε → Option σ
  | s, [] => some s
  | s, e :: es => (step s e).bind fun next => run step next es

/-- Every event of the list meets `guard` in the state it is taken from. -/
def Guarded (step : σ → ε → Option σ) (guard : σ → ε → Prop) : σ → List ε → Prop
  | _, [] => True
  | s, e :: es => guard s e ∧
      match step s e with
      | none => True
      | some next => Guarded step guard next es

instance decidableGuarded (step : σ → ε → Option σ) (guard : σ → ε → Prop)
    [∀ s e, Decidable (guard s e)] : ∀ s es, Decidable (Guarded step guard s es)
  | _, [] => isTrue trivial
  | s, e :: es =>
      match h : step s e with
      | none => decidable_of_iff (guard s e) (by simp [Guarded, h])
      | some next =>
          have := decidableGuarded step guard next es
          decidable_of_iff (guard s e ∧ Guarded step guard next es) (by simp [Guarded, h])

variable {step : σ → ε → Option σ} {guard : σ → ε → Prop} {Inv : σ → Prop}

theorem Guarded.cons {s next : σ} {e : ε} {es : List ε} (h : Guarded step guard s (e :: es))
    (hstep : step s e = some next) : guard s e ∧ Guarded step guard next es := by
  simpa [Guarded, hstep] using h

theorem run_cons_eq_some {s final : σ} {e : ε} {es : List ε}
    (h : run step s (e :: es) = some final) :
    ∃ next, step s e = some next ∧ run step next es = some final :=
  Option.bind_eq_some_iff.mp h

theorem run_append (s : σ) (es fs : List ε) :
    run step s (es ++ fs) = (run step s es).bind fun mid => run step mid fs := by
  induction es generalizing s with
  | nil => rfl
  | cons e es ih =>
    simp only [List.cons_append, run, Option.bind_assoc]
    congr 1
    funext next
    exact ih next

theorem Guarded.of_append {s mid : σ} {es fs : List ε} (h : Guarded step guard s (es ++ fs))
    (hrun : run step s es = some mid) : Guarded step guard s es ∧ Guarded step guard mid fs := by
  induction es generalizing s with
  | nil => exact ⟨trivial, Option.some.inj hrun ▸ h⟩
  | cons e es ih =>
    obtain ⟨next, hnext, hrest⟩ := run_cons_eq_some hrun
    obtain ⟨hg, hgs⟩ := Guarded.cons h hnext
    obtain ⟨hes, hfs⟩ := ih hgs hrest
    exact ⟨by simp [Guarded, hnext, hg, hes], hfs⟩

theorem guarded_of_forall {es : List ε} (h : ∀ e ∈ es, ∀ s, guard s e) (s : σ) :
    Guarded step guard s es := by
  induction es generalizing s with
  | nil => trivial
  | cons e es ih =>
    refine ⟨h e List.mem_cons_self s, ?_⟩
    split
    · trivial
    · exact ih (fun e he => h e (List.mem_cons_of_mem _ he)) _

theorem guarded_true (s : σ) (es : List ε) : Guarded step (fun _ _ => True) s es :=
  guarded_of_forall (fun _ _ _ => trivial) s

/-- What every guarded step preserves holds at the end of every guarded run. -/
theorem run_preserves
    (hstep : ∀ s e next, Inv s → guard s e → step s e = some next → Inv next)
    {s final : σ} {es : List ε} (hinv : Inv s) (hguard : Guarded step guard s es)
    (hrun : run step s es = some final) : Inv final := by
  induction es generalizing s with
  | nil => exact Option.some.inj hrun ▸ hinv
  | cons e es ih =>
    obtain ⟨next, hnext, hrest⟩ := run_cons_eq_some hrun
    obtain ⟨hg, hgs⟩ := hguard.cons hnext
    exact ih (hstep s e next hinv hg hnext) hgs hrest

/-- Some guarded run ends in a state with `P`. -/
def CanReach (step : σ → ε → Option σ) (guard : σ → ε → Prop) (s : σ) (P : σ → Prop) : Prop :=
  ∃ es final, Guarded step guard s es ∧ run step s es = some final ∧ P final

theorem CanReach.here {s : σ} {P : σ → Prop} (h : P s) : CanReach step guard s P :=
  ⟨[], s, trivial, rfl, h⟩

theorem CanReach.after {s next : σ} {e : ε} {P : σ → Prop} (hstep : step s e = some next)
    (hguard : guard s e) (h : CanReach step guard next P) : CanReach step guard s P := by
  obtain ⟨es, final, hes, hrun, hfinal⟩ := h
  exact ⟨e :: es, final, by simp [Guarded, hstep, hguard, hes], by simp [run, hstep, hrun], hfinal⟩

/-- A machine whose steps return what they emit, together with all it has emitted. -/
def logged {κ : Type*} (perform : σ → ε → Option (σ × List κ)) (s : σ × List κ) (e : ε) :
    Option (σ × List κ) :=
  (perform s.1 e).map fun r => (r.1, s.2 ++ r.2)

/-- What the events of a run are to a simpler machine, by the states they are taken from. -/
def trace {δ : Type*} (step : σ → ε → Option σ) (view : σ → ε → List δ) : σ → List ε → List δ
  | _, [] => []
  | s, e :: es => view s e ++
      match step s e with
      | none => []
      | some next => trace step view next es

/-- A machine whose every step is what `view` says to a simpler one runs as that one does. -/
theorem run_trace {τ δ : Type*} {step' : τ → δ → Option τ} {abs : σ → τ} {view : σ → ε → List δ}
    (hstep : ∀ s e next, Inv s → step s e = some next →
      Inv next ∧ run step' (abs s) (view s e) = some (abs next))
    {s final : σ} {es : List ε} (hinv : Inv s) (hrun : run step s es = some final) :
    run step' (abs s) (trace step view s es) = some (abs final) := by
  induction es generalizing s with
  | nil =>
    cases hrun
    rfl
  | cons e es ih =>
    obtain ⟨next, hnext, hrest⟩ := run_cons_eq_some hrun
    obtain ⟨hinvNext, hview⟩ := hstep s e next hinv hnext
    unfold trace
    rw [hnext, run_append, hview]
    exact ih hinvNext hrest

/-- If every guarded step from an invariant state is enabled and preserves the
invariant, no guarded run gets stuck. -/
theorem run_progress
    (hstep : ∀ s e, Inv s → guard s e → ∃ next, step s e = some next ∧ Inv next)
    {s : σ} {es : List ε} (hinv : Inv s) (hguard : Guarded step guard s es) :
    ∃ final, run step s es = some final ∧ Inv final := by
  induction es generalizing s with
  | nil => exact ⟨s, rfl, hinv⟩
  | cons e es ih =>
    obtain ⟨next, hnext, hinvNext⟩ := hstep s e hinv hguard.1
    obtain ⟨final, hfinal, hinvFinal⟩ := ih hinvNext (hguard.cons hnext).2
    exact ⟨final, by simp [run, hnext, hfinal], hinvFinal⟩

/-- A run of steps each of which makes `cost` less is as short as that. -/
theorem length_le_of_decreases {cost : σ → Nat} {own : ε → Prop}
    (hstep : ∀ s e next, own e → step s e = some next → cost next < cost s) {s final : σ} {es : List ε}
    (hown : ∀ e ∈ es, own e) (hrun : run step s es = some final) : es.length + cost final ≤ cost s := by
  induction es generalizing s with
  | nil =>
    cases hrun
    simp
  | cons e es ih =>
    obtain ⟨mid, hmid, hrest⟩ := run_cons_eq_some hrun
    have hless := hstep s e mid (hown e List.mem_cons_self) hmid
    have hle := ih (fun e he => hown e (List.mem_cons_of_mem _ he)) hrest
    rw [List.length_cons]
    omega

end Pronet.Library.Runs
