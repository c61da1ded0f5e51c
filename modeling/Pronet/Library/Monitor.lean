import Pronet.Library.Runs

/-! Threads that sleep until a predicate of the shared data holds. The event that wakes
them resets itself: one thread at most leaves its sleep for each time the flag goes up. -/
namespace Pronet.Library

open Runs

/-- A flag that one waiting thread takes down when it goes on. -/
structure AutoResetEvent (τ : Type*) where
  flag : Bool
  waiting : Multiset τ
  returned : List τ

inductive AutoResetEvent.Action (τ : Type*)
  | wait (t : τ)
  | signal
  | take (t : τ)
  deriving DecidableEq, Repr

namespace AutoResetEvent

variable {τ : Type*} [DecidableEq τ]

def step (e : AutoResetEvent τ) : Action τ → Option (AutoResetEvent τ)
  | .wait t => some { e with waiting := t ::ₘ e.waiting }
  | .signal => some { e with flag := true }
  | .take t =>
      if e.flag = true ∧ t ∈ e.waiting then some ⟨false, e.waiting.erase t, e.returned ++ [t]⟩ else none

/-- The event makes some step. -/
def Step (e e' : AutoResetEvent τ) : Prop := ∃ action, e.step action = some e'

theorem step_take (waiting : Multiset τ) (returned : List τ) (t : τ) :
    (⟨true, t ::ₘ waiting, returned⟩ : AutoResetEvent τ).step (.take t) =
      some ⟨false, waiting, returned ++ [t]⟩ := by
  simp [step]

/-- A flag that is down is not taken before it is raised. -/
theorem signal_of_take {actions rest : List (Action τ)} {e final : AutoResetEvent τ} {t : τ}
    (hdown : e.flag = false) (hrun : run step e (actions ++ .take t :: rest) = some final) :
    Action.signal ∈ actions := by
  induction actions generalizing e with
  | nil =>
    obtain ⟨next, hnext, -⟩ := run_cons_eq_some hrun
    simp [step, hdown] at hnext
  | cons action actions ih =>
    obtain ⟨next, hnext, hrest⟩ := run_cons_eq_some hrun
    cases action with
    | signal => exact List.mem_cons_self
    | wait u =>
      have hstill : next.flag = false := by
        cases hnext
        exact hdown
      exact List.mem_cons_of_mem _ (ih hstill hrest)
    | take u => simp [step, hdown] at hnext

/-- Every flag is taken by one thread: before another one takes it, it is raised again. -/
theorem signal_between {before between rest : List (Action τ)} {e final : AutoResetEvent τ} {t u : τ}
    (hrun : run step e (before ++ .take t :: (between ++ .take u :: rest)) = some final) :
    Action.signal ∈ between := by
  rw [run_append] at hrun
  obtain ⟨mid, -, hrun⟩ := Option.bind_eq_some_iff.mp hrun
  obtain ⟨taken, htaken, hrest⟩ := run_cons_eq_some hrun
  have hdown : taken.flag = false := by
    simp only [step] at htaken
    split at htaken
    · cases htaken
      rfl
    · cases htaken
  exact signal_of_take hdown hrest

end AutoResetEvent

/-- `signalling` has the threads that have decided to raise the flag and have not yet
done so; `woken` has the threads that took the flag and have not yet looked again. -/
structure Monitor (σ τ : Type*) where
  shared : σ
  flag : Bool
  asleep : List τ
  woken : List τ
  signalling : List τ
  deriving DecidableEq, Repr

namespace Monitor

variable {σ τ : Type*}

def init (shared : σ) : Monitor σ τ := ⟨shared, false, [], [], []⟩

/-- A critical section of a thread that does not wait. -/
def update (m : Monitor σ τ) (shared : σ) (signals : Bool) : Monitor σ τ :=
  { m with shared := shared, flag := m.flag || signals }

/-- A section that raises the flag only behind its end. -/
def defer (m : Monitor σ τ) (shared : σ) (t : τ) : Monitor σ τ :=
  { m with shared := shared, signalling := m.signalling ++ [t] }

/-- A section that ends in sleep. -/
def sleep (m : Monitor σ τ) (shared : σ) (t : τ) : Monitor σ τ :=
  { m with shared := shared, asleep := m.asleep ++ [t] }

/-- While somebody sleeps although the predicate holds, a wake-up is on its way. -/
def Alert (p : σ → Prop) (m : Monitor σ τ) : Prop :=
  m.asleep ≠ [] → p m.shared → m.flag = true ∨ m.woken ≠ [] ∨ m.signalling ≠ []

variable {p : σ → Prop} {m : Monitor σ τ} {shared : σ} {t : τ}

theorem alert_init (shared : σ) : Alert p (init shared : Monitor σ τ) :=
  fun h => absurd rfl h

theorem alert_of_awake (hawake : m.asleep = []) : m.Alert p := fun h => absurd hawake h

/-- A section must raise the flag when it makes the predicate true. -/
theorem Alert.update (h : m.Alert p) {signals : Bool}
    (hnew : m.asleep ≠ [] → p shared → ¬p m.shared → signals = true) :
    (m.update shared signals).Alert p := by
  intro hasleep hp
  by_cases hold : p m.shared
  · obtain hflag | hwoken := h hasleep hold
    · exact .inl (by simp [Monitor.update, hflag])
    · exact .inr hwoken
  · exact .inl (by simp [Monitor.update, hnew hasleep hp hold])

theorem alert_defer (p : σ → Prop) (m : Monitor σ τ) (shared : σ) (t : τ) :
    (m.defer shared t).Alert p := fun _ _ => .inr (.inr (by simp [defer]))

theorem alert_sleep (hp : ¬p shared) : (m.sleep shared t).Alert p := fun _ h => absurd h hp

theorem coe_append_singleton (threads : List τ) (t : τ) :
    ((threads ++ [t] : List τ) : Multiset τ) = t ::ₘ (threads : Multiset τ) :=
  Multiset.coe_eq_coe.mpr (List.perm_append_singleton t threads)

variable [DecidableEq τ]

/-- The event of a monitor. -/
def event (m : Monitor σ τ) (returned : List τ) : AutoResetEvent τ := ⟨m.flag, m.asleep, returned⟩

/-- What a monitor has asked of its event is a step of the event, or nothing. -/
def Asks (m m' : Monitor σ τ) : Prop :=
  ∀ returned, ∃ returned',
    Relation.ReflGen AutoResetEvent.Step (m.event returned) (m'.event returned')

theorem asks_of_eq {m' : Monitor σ τ} (hflag : m'.flag = m.flag) (hasleep : m'.asleep = m.asleep) :
    m.Asks m' := by
  refine fun returned => ⟨returned, ?_⟩
  unfold event
  rw [hflag, hasleep]

theorem asks_update (m : Monitor σ τ) (shared : σ) (signals : Bool) :
    m.Asks (m.update shared signals) := by
  cases signals with
  | false => exact asks_of_eq (Bool.or_false m.flag) rfl
  | true =>
    refine fun returned => ⟨returned, .single ?_⟩
    unfold event update
    rw [Bool.or_true]
    exact ⟨.signal, rfl⟩

theorem asks_sleep (m : Monitor σ τ) (shared : σ) (t : τ) : m.Asks (m.sleep shared t) := by
  refine fun returned => ⟨returned, .single ?_⟩
  unfold event sleep
  rw [coe_append_singleton]
  exact ⟨.wait t, rfl⟩

def signal (m : Monitor σ τ) (t : τ) : Monitor σ τ :=
  { m with flag := true, signalling := m.signalling.erase t }

/-- A sleeper takes the flag. -/
def take (m : Monitor σ τ) (t : τ) : Monitor σ τ :=
  { m with flag := false, asleep := m.asleep.erase t, woken := m.woken ++ [t] }

/-- The section in which a woken thread looks again and finds what it waits for. -/
def leave (m : Monitor σ τ) (shared : σ) (t : τ) : Monitor σ τ :=
  { m with shared := shared, woken := m.woken.erase t }

/-- The section in which a woken thread looks again and falls back to sleep. -/
def relapse (m : Monitor σ τ) (shared : σ) (t : τ) : Monitor σ τ :=
  { m with shared := shared, woken := m.woken.erase t, asleep := m.asleep ++ [t] }

theorem alert_signal (p : σ → Prop) (m : Monitor σ τ) (t : τ) : (m.signal t).Alert p :=
  fun _ _ => .inl rfl

theorem alert_take (p : σ → Prop) (m : Monitor σ τ) (t : τ) : (m.take t).Alert p :=
  fun _ _ => .inr (.inl (by simp [take]))

/-- The thread that has found the predicate true makes it false before it goes on. -/
theorem alert_leave (hp : ¬p shared) : (m.leave shared t).Alert p := fun _ h => absurd h hp

theorem alert_relapse (hp : ¬p shared) : (m.relapse shared t).Alert p := fun _ h => absurd h hp

theorem asks_signal (m : Monitor σ τ) (t : τ) : m.Asks (m.signal t) :=
  fun returned => ⟨returned, .single ⟨.signal, rfl⟩⟩

theorem asks_take (ht : t ∈ m.asleep) (hflag : m.flag = true) : m.Asks (m.take t) := by
  refine fun returned => ⟨returned ++ [t], .single ?_⟩
  have hasleep : (m.asleep : Multiset τ) = t ::ₘ (m.asleep.erase t : List τ) := by
    rw [← Multiset.coe_erase]
    exact (Multiset.cons_erase (Multiset.mem_coe.mpr ht)).symm
  unfold event take
  rw [hflag, hasleep]
  exact ⟨.take t, AutoResetEvent.step_take _ returned t⟩

theorem asks_relapse (m : Monitor σ τ) (shared : σ) (t : τ) : m.Asks (m.relapse shared t) := by
  refine fun returned => ⟨returned, .single ?_⟩
  unfold event relapse
  rw [coe_append_singleton]
  exact ⟨.wait t, rfl⟩

end Monitor

end Pronet.Library
