import Pronet.Library.Monitor
import Pronet.Library.Runs

/-! `CProThreadMutexCondition` over `pthread_cond_t`, and the event that its users may
take it for: a flag which `Signal` raises and which one `Wait` takes down again. -/
namespace Pronet.Util

open Library Runs

/-- `entering` has the threads that have given the caller's mutex back and want the
inner one; `sleeping` those in `pthread_cond_wait`; `notified` those that leave it. -/
structure ThreadCondition where
  signal : Bool
  waiters : Nat
  entering : List Nat
  sleeping : List Nat
  notified : List Nat
  returned : List Nat
  deriving DecidableEq, Repr

/-- `pthread_cond_signal` wakes a sleeper, and a sleeper may also wake by itself. -/
inductive ConditionEvent
  | wait (t : Nat)
  | enter (t : Nat)
  | signal (sleeper : Option Nat)
  | wake (t : Nat)
  | resume (t : Nat)
  deriving DecidableEq, Repr

namespace ThreadCondition

def init : ThreadCondition := ⟨false, 0, [], [], [], []⟩

/-- The threads whose `Wait` has not returned. -/
def waiting (c : ThreadCondition) : Multiset Nat := ↑(c.entering ++ c.sleeping ++ c.notified)

def notify (c : ThreadCondition) (t : Nat) : ThreadCondition :=
  { c with sleeping := c.sleeping.erase t, notified := c.notified ++ [t] }

/-- The head of the loop in `Wait`: the flag is taken, or the thread goes to sleep. -/
def test (c : ThreadCondition) (t : Nat) : ThreadCondition :=
  if !c.signal then { c with waiters := c.waiters + 1, sleeping := c.sleeping ++ [t] }
  else { c with signal := false, returned := c.returned ++ [t] }

def step (c : ThreadCondition) : ConditionEvent → Option ThreadCondition
  | .wait t => if t ∈ c.waiting then none else some { c with entering := c.entering ++ [t] }
  | .enter t => if t ∈ c.entering then some ({ c with entering := c.entering.erase t }.test t) else none
  | .signal sleeper =>
      let raised := { c with signal := true }
      -- With nobody in `pthread_cond_wait` the call has no effect.
      if c.waiters > 0 ∧ c.sleeping ≠ [] then
        match sleeper with
        | none => none
        | some t => if t ∈ c.sleeping then some (raised.notify t) else none
      else if sleeper = none then some raised else none
  | .wake t => if t ∈ c.sleeping then some (c.notify t) else none
  | .resume t =>
      if t ∈ c.notified then
        some ({ c with notified := c.notified.erase t, waiters := c.waiters - 1 }.test t)
      else none

end ThreadCondition

namespace ThreadCondition

/-- A condition as the event that it stands for. -/
def abstract (c : ThreadCondition) : AutoResetEvent Nat := ⟨c.signal, c.waiting, c.returned⟩

/-- What the users of the condition see of an event of it: a thread in the loop of `Wait`
takes the flag if it is up, and nobody sees it go to sleep or wake. -/
def actions (c : ThreadCondition) : ConditionEvent → List (AutoResetEvent.Action Nat)
  | .wait t => [.wait t]
  | .enter t => if c.signal then [.take t] else []
  | .signal _ => [.signal]
  | .wake _ => []
  | .resume t => if c.signal then [.take t] else []

/-- `m_waiters` counts the threads that have to be woken, and a raised flag has woken one. -/
structure Inv (c : ThreadCondition) : Prop where
  waiters : c.waiters = c.sleeping.length + c.notified.length
  awake : c.signal = true → c.sleeping ≠ [] → c.notified ≠ []

theorem inv_init : init.Inv := ⟨rfl, fun h => absurd h Bool.false_ne_true⟩

variable {c : ThreadCondition} {t : Nat}

theorem mem_waiting : t ∈ c.waiting ↔ t ∈ c.entering ∨ t ∈ c.sleeping ∨ t ∈ c.notified := by
  simp [waiting]

theorem waiting_notify (ht : t ∈ c.sleeping) : (c.notify t).waiting = c.waiting := by
  refine Multiset.coe_eq_coe.mpr ?_
  simp only [notify, List.append_assoc]
  refine List.Perm.append_left _ ?_
  -- Both lists have the thread once more than what is left of the sleepers.
  have hback : (c.sleeping.erase t ++ (c.notified ++ [t])).Perm (t :: (c.sleeping.erase t ++ c.notified)) := by
    rw [← List.append_assoc]
    exact List.perm_append_singleton t _
  exact hback.trans ((List.perm_cons_erase ht).symm.append_right c.notified)

/-- The loop's test takes the flag if it is up. -/
theorem abstract_test (c : ThreadCondition) (t : Nat) :
    run AutoResetEvent.step ⟨c.signal, t ::ₘ c.waiting, c.returned⟩
      (if c.signal then [.take t] else []) = some (c.test t).abstract := by
  unfold test
  cases hsignal : c.signal with
  | false =>
    have hsame : t ::ₘ c.waiting = ↑(c.entering ++ (c.sleeping ++ [t]) ++ c.notified) := by
      refine Multiset.coe_eq_coe.mpr ?_
      have hmiddle : (t :: (c.entering ++ c.sleeping ++ c.notified)).Perm
          (c.entering ++ c.sleeping ++ t :: c.notified) := List.perm_middle.symm
      simpa [List.append_assoc] using hmiddle
    rw [hsame]
    simp [run, ThreadCondition.abstract, waiting]
  | true =>
    have htake := AutoResetEvent.step_take c.waiting c.returned t
    simp only [if_true, run, htake]
    rfl

/-- Whatever the flag was, it is down behind the test. -/
theorem inv_test (hwaiters : c.waiters = c.sleeping.length + c.notified.length) : (c.test t).Inv := by
  unfold test
  split
  · rename_i hdown
    have hsignal : c.signal = false := by simpa using hdown
    refine ⟨?_, fun hup => absurd (hsignal.symm.trans hup) Bool.false_ne_true⟩
    simp only [List.length_append, List.length_singleton]
    omega
  · exact ⟨hwaiters, fun h => absurd h Bool.false_ne_true⟩

/-- One sleeper wakes, by a signal or by itself. -/
theorem Inv.notify (h : c.Inv) (ht : t ∈ c.sleeping) : (c.notify t).Inv := by
  refine ⟨?_, fun _ _ => by simp [ThreadCondition.notify]⟩
  have hlength := List.length_erase_add_one ht
  have := h.waiters
  simp only [ThreadCondition.notify, List.length_append, List.length_singleton]
  omega

theorem abstract_wait (c : ThreadCondition) (t : Nat) :
    c.abstract.step (.wait t) =
      some ({ c with entering := c.entering ++ [t] } : ThreadCondition).abstract := by
  have hwaiting : t ::ₘ c.waiting =
      ({ c with entering := c.entering ++ [t] } : ThreadCondition).waiting := by
    refine Multiset.coe_eq_coe.mpr ?_
    simp only [List.append_assoc, List.singleton_append]
    exact List.perm_middle.symm
  unfold AutoResetEvent.step ThreadCondition.abstract
  dsimp only
  rw [hwaiting]

theorem waiting_enter (ht : t ∈ c.entering) :
    c.waiting = t ::ₘ ({ c with entering := c.entering.erase t } : ThreadCondition).waiting := by
  refine Multiset.coe_eq_coe.mpr ?_
  simp only [List.append_assoc]
  exact (List.perm_cons_erase ht).append_right _

theorem waiting_resume (ht : t ∈ c.notified) :
    c.waiting = t ::ₘ ({ c with
      notified := c.notified.erase t, waiters := c.waiters - 1 } : ThreadCondition).waiting := by
  refine Multiset.coe_eq_coe.mpr ?_
  have hlast := (List.perm_cons_erase ht).append_left (c.entering ++ c.sleeping)
  exact hlast.trans List.perm_middle

/-- A step is to the event what its users see of it. -/
theorem Inv.step (h : c.Inv) (e : ConditionEvent) {next : ThreadCondition}
    (hstep : c.step e = some next) :
    next.Inv ∧ run AutoResetEvent.step c.abstract (c.actions e) = some next.abstract := by
  cases e with
  | wait t =>
    simp only [ThreadCondition.step] at hstep
    split at hstep
    · cases hstep
    · cases hstep
      refine ⟨⟨h.waiters, h.awake⟩, ?_⟩
      simp only [actions, run, abstract_wait]
      rfl
  | enter t =>
    simp only [ThreadCondition.step] at hstep
    split at hstep
    · rename_i ht
      cases hstep
      refine ⟨inv_test h.waiters, ?_⟩
      unfold ThreadCondition.abstract
      rw [waiting_enter ht]
      exact abstract_test { c with entering := c.entering.erase t } t
    · cases hstep
  | signal sleeper =>
    have hraised : ∀ raised : ThreadCondition, raised.signal = true → raised.waiting = c.waiting →
        raised.returned = c.returned →
        run AutoResetEvent.step c.abstract (c.actions (.signal sleeper)) = some raised.abstract := by
      intro raised hsignal hwaiting hreturned
      unfold ThreadCondition.abstract
      rw [hsignal, hwaiting, hreturned]
      rfl
    simp only [ThreadCondition.step] at hstep
    split at hstep
    · cases sleeper with
      | none => cases hstep
      | some t =>
        simp only at hstep
        split at hstep
        · rename_i ht
          cases hstep
          refine ⟨⟨(h.notify ht).waiters, fun _ _ => by simp [ThreadCondition.notify]⟩, ?_⟩
          exact hraised _ rfl (waiting_notify ht) rfl
        · cases hstep
    · rename_i hquiet
      split at hstep
      · cases hstep
        refine ⟨⟨h.waiters, fun _ hsleeping => absurd ⟨?_, hsleeping⟩ hquiet⟩, hraised _ rfl rfl rfl⟩
        have hpos : 0 < c.sleeping.length := List.length_pos_iff.mpr hsleeping
        have := h.waiters
        omega
      · cases hstep
  | wake t =>
    simp only [ThreadCondition.step] at hstep
    split at hstep
    · rename_i ht
      cases hstep
      refine ⟨h.notify ht, ?_⟩
      unfold ThreadCondition.abstract
      rw [waiting_notify ht]
      rfl
    · cases hstep
  | resume t =>
    simp only [ThreadCondition.step] at hstep
    split at hstep
    · rename_i ht
      cases hstep
      refine ⟨inv_test ?_, ?_⟩
      · have hlength := List.length_erase_add_one ht
        have := h.waiters
        simp only
        omega
      · unfold ThreadCondition.abstract
        rw [waiting_resume ht]
        exact abstract_test { c with notified := c.notified.erase t, waiters := c.waiters - 1 } t
    · cases hstep

/-- The events of a thread that is not asleep. -/
def Awake (c : ThreadCondition) : ConditionEvent → Prop
  | .enter t => t ∈ c.entering
  | .resume t => t ∈ c.notified
  | _ => False

/-- A run of the condition seen from outside: it is, event by event, a run of the event,
every flag that goes up is taken by one `Wait`, the sleepers are counted, and whenever the
flag is up and somebody waits, a thread that needs no wake-up takes it. -/
structure RefinesEvent (es : List ConditionEvent) (c : ThreadCondition) : Prop where
  traced : run AutoResetEvent.step init.abstract (trace step actions init es) = some c.abstract
  once : ∀ before between rest t u, trace step actions init es =
    before ++ .take t :: (between ++ .take u :: rest) → .signal ∈ between
  counted : c.waiters = c.sleeping.length + c.notified.length
  taken : c.signal = true → c.waiting ≠ 0 → ∃ e t next, c.Awake e ∧ c.step e = some next ∧
    next.signal = false ∧ next.returned = c.returned ++ [t]

theorem test_of_signal (hup : c.signal = true) (t : Nat) :
    (c.test t).signal = false ∧ (c.test t).returned = c.returned ++ [t] := by
  unfold test
  rw [if_neg (by simp [hup])]
  exact ⟨rfl, rfl⟩

theorem Inv.taken (h : c.Inv) (hup : c.signal = true) (hwaiting : c.waiting ≠ 0) :
    ∃ e t next, c.Awake e ∧ c.step e = some next ∧ next.signal = false ∧
      next.returned = c.returned ++ [t] := by
  obtain ⟨t, ht⟩ := Multiset.exists_mem_of_ne_zero hwaiting
  by_cases hentering : c.entering = []
  · -- A sleeper is not alone: the signal has woken another thread.
    have hnotified : c.notified ≠ [] := by
      rw [mem_waiting, hentering] at ht
      obtain ht | ht | ht := ht
      · cases ht
      · exact h.awake hup (List.ne_nil_of_mem ht)
      · exact List.ne_nil_of_mem ht
    obtain ⟨u, hu⟩ := List.exists_mem_of_ne_nil _ hnotified
    have htest := test_of_signal (c := { c with notified := c.notified.erase u, waiters := c.waiters - 1 }) hup u
    exact ⟨.resume u, u, _, hu, if_pos hu, htest⟩
  · obtain ⟨u, hu⟩ := List.exists_mem_of_ne_nil _ hentering
    have htest := test_of_signal (c := { c with entering := c.entering.erase u }) hup u
    exact ⟨.enter u, u, _, hu, if_pos hu, htest⟩

/-- In every run, with any choice of the sleepers that are woken and any that wake by themselves. -/
theorem refinesEvent_of_condition_run {es : List ConditionEvent} (hrun : run step init es = some c) :
    RefinesEvent es c := by
  have hinv : c.Inv := run_preserves (fun c e next h _ hstep => (h.step e hstep).1) inv_init
    (guarded_true init es) hrun
  have htraced := run_trace (fun c e next (h : c.Inv) hstep => h.step e hstep) inv_init hrun
  refine ⟨htraced, ?_, hinv.waiters, hinv.taken⟩
  intro before between rest t u hsplit
  rw [hsplit] at htraced
  exact AutoResetEvent.signal_between htraced

/-- Two threads wait; the one that the signal wakes finds that another has been faster. -/
def overtaken : List ConditionEvent :=
  [.wait 1, .enter 1, .wait 2, .signal (some 1), .enter 2, .resume 1]

theorem refinesEvent_of_condition_run_overtaken :
    trace step actions init overtaken = [.wait 1, .wait 2, .signal, .take 2] ∧
      RefinesEvent overtaken ⟨false, 1, [], [1], [], [2]⟩ := by
  have hrun : run step init overtaken = some ⟨false, 1, [], [1], [], [2]⟩ := by decide
  exact ⟨by decide, refinesEvent_of_condition_run hrun⟩

end ThreadCondition

end Pronet.Util
