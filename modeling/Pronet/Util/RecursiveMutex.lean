import Pronet.Library.Monitor
import Pronet.Library.Runs

/-! `CProRecursiveThreadMutex`: a lock that its owner may take again. `m_mutex` guards the
owner, the nesting level and the number of waiters; those who wait sleep on `m_cond`. -/
namespace Pronet.Util

open Library Runs

structure RecursiveLock where
  ownerThreadId : Nat
  ownerNestingLevel : Nat
  waiters : Nat
  deriving DecidableEq, Repr

/-- A call of `Lock` or `Unlock` that has returned. -/
inductive LockCall
  | locked (t : Nat)
  | unlocked (t : Nat)
  deriving DecidableEq, Repr

/-- How often a thread has the lock after some calls; to give back what one has not got
is no call. -/
def held (calls : List LockCall) (t : Nat) : Nat :=
  calls.foldl (fun count call =>
    match call with
    | .locked u => if u = t then count + 1 else count
    | .unlocked u => if u = t then count - 1 else count) 0

/-- The sections of `Lock`, `Unlock` and of `Wait` in between. -/
inductive LockEvent
  | lock (t : Nat)
  | take (t : Nat)
  | retry (t : Nat)
  | unlock (t : Nat)
  deriving DecidableEq, Repr

structure RecursiveMutex where
  cond : Monitor RecursiveLock Nat
  calls : List LockCall
  deriving DecidableEq, Repr

namespace RecursiveMutex

def init : RecursiveMutex := ⟨.init ⟨0, 0, 0⟩, []⟩

/-- The loop of `Lock`; nothing stands for a thread that has to wait. -/
def tryLock (l : RecursiveLock) (t : Nat) : Option RecursiveLock :=
  if l.ownerNestingLevel > 0 ∧ l.ownerThreadId ≠ t then none
  else some { l with ownerThreadId := t, ownerNestingLevel := l.ownerNestingLevel + 1 }

/-- `Unlock`, and whether it signals. -/
def tryUnlock (l : RecursiveLock) (t : Nat) : RecursiveLock × Bool :=
  if l.ownerNestingLevel > 0 ∧ l.ownerThreadId = t then
    let level := l.ownerNestingLevel - 1
    if level = 0 then
      ({ l with ownerThreadId := 0, ownerNestingLevel := 0 }, decide (l.waiters > 0))
    else ({ l with ownerNestingLevel := level }, false)
  else (l, false)

/-- The threads inside `Lock` that have found the lock taken. -/
def inLock (m : RecursiveMutex) : List Nat := m.cond.asleep ++ m.cond.woken

def step (m : RecursiveMutex) : LockEvent → Option RecursiveMutex
  | .lock t =>
      if t ∈ m.inLock then none
      else
        match tryLock m.cond.shared t with
        | none =>
            let l := { m.cond.shared with waiters := m.cond.shared.waiters + 1 }
            some { m with cond := m.cond.sleep l t }
        | some l => some ⟨m.cond.update l false, m.calls ++ [.locked t]⟩
  | .take t =>
      if t ∈ m.cond.asleep ∧ m.cond.flag = true then some { m with cond := m.cond.take t } else none
  | .retry t =>
      if t ∈ m.cond.woken then
        let back := { m.cond.shared with waiters := m.cond.shared.waiters - 1 }
        match tryLock back t with
        | none => some { m with cond := m.cond.relapse { back with waiters := back.waiters + 1 } t }
        | some l => some ⟨m.cond.leave l t, m.calls ++ [.locked t]⟩
      else none
  | .unlock t =>
      if t ∈ m.inLock then none
      else
        let r := tryUnlock m.cond.shared t
        some ⟨m.cond.update r.1 r.2, m.calls ++ [.unlocked t]⟩

theorem held_locked (calls : List LockCall) (t u : Nat) :
    held (calls ++ [.locked u]) t = if u = t then held calls t + 1 else held calls t := by
  simp [held, List.foldl_append]

theorem held_unlocked (calls : List LockCall) (t u : Nat) :
    held (calls ++ [.unlocked u]) t = if u = t then held calls t - 1 else held calls t := by
  simp [held, List.foldl_append]

/-- What the owner and the nesting level say a thread holds. -/
def levelOf (l : RecursiveLock) (t : Nat) : Nat :=
  if l.ownerThreadId = t then l.ownerNestingLevel else 0

def Free (l : RecursiveLock) : Prop := l.ownerNestingLevel = 0

structure Inv (m : RecursiveMutex) : Prop where
  levels : ∀ t, held m.calls t = levelOf m.cond.shared t
  waiters : m.cond.shared.waiters = m.cond.asleep.length + m.cond.woken.length
  direct : m.cond.signalling = []
  alert : m.cond.Alert Free

variable {m : RecursiveMutex} {l : RecursiveLock} {t : Nat}

theorem inv_init : init.Inv where
  levels _ := (ite_self 0).symm
  waiters := rfl
  direct := rfl
  alert := Monitor.alert_init _

theorem tryLock_none (h : tryLock l t = none) : ¬Free l := by
  unfold tryLock at h
  split at h
  · rename_i hbusy
    exact Nat.pos_iff_ne_zero.mp hbusy.1
  · cases h

theorem tryLock_some {next : RecursiveLock} (h : tryLock l t = some next) :
    (∀ u, levelOf next u = if t = u then levelOf l u + 1 else levelOf l u) ∧
      next.waiters = l.waiters ∧ ¬Free next := by
  unfold tryLock at h
  split at h
  · cases h
  rename_i hfree
  cases h
  refine ⟨fun u => ?_, rfl, Nat.succ_ne_zero _⟩
  simp only [levelOf]
  by_cases htu : t = u
  · rw [if_pos htu, if_pos htu]
    split
    · rfl
    · rename_i hother
      have : l.ownerNestingLevel = 0 := by
        by_contra hlevel
        exact hfree ⟨Nat.pos_of_ne_zero hlevel, fun heq => hother (heq.trans htu)⟩
      omega
  · rw [if_neg htu, if_neg htu]
    split
    · -- Another thread is named as the owner of a free lock.
      rename_i howner
      by_contra hlevel
      exact hfree ⟨Nat.pos_of_ne_zero fun h => hlevel h.symm, fun heq => htu (heq.symm.trans howner)⟩
    · rfl

theorem tryUnlock_spec (l : RecursiveLock) (t : Nat) :
    (∀ u, levelOf (tryUnlock l t).1 u = if t = u then levelOf l u - 1 else levelOf l u) ∧
      (tryUnlock l t).1.waiters = l.waiters ∧
      (Free (tryUnlock l t).1 → ¬Free l → l.waiters > 0 → (tryUnlock l t).2 = true) := by
  unfold tryUnlock
  split
  · rename_i howned
    obtain ⟨hlevel, howner⟩ := howned
    dsimp only
    split
    · refine ⟨fun u => ?_, rfl, fun _ _ hwaiters => by simpa using hwaiters⟩
      simp only [levelOf]
      split_ifs <;> omega
    · rename_i hlast
      refine ⟨fun u => ?_, rfl, fun hfree => absurd hfree hlast⟩
      simp only [levelOf]
      split_ifs <;> omega
  · rename_i hforeign
    refine ⟨fun u => ?_, rfl, fun hfree hbusy => absurd hfree hbusy⟩
    simp only [levelOf]
    split_ifs <;> omega

theorem Inv.step (h : m.Inv) (e : LockEvent) {next : RecursiveMutex}
    (hstep : m.step e = some next) : next.Inv := by
  cases e with
  | lock t =>
    simp only [RecursiveMutex.step] at hstep
    split at hstep
    · cases hstep
    split at hstep
    · rename_i hbusy
      cases hstep
      refine ⟨h.levels, ?_, h.direct, Monitor.alert_sleep fun hfree => tryLock_none hbusy hfree⟩
      have := h.waiters
      simp only [Monitor.sleep, List.length_append, List.length_singleton]
      omega
    · rename_i hfree
      obtain ⟨hlevel, hwaiters, htaken⟩ := tryLock_some hfree
      cases hstep
      refine ⟨fun u => ?_, hwaiters.trans h.waiters, h.direct,
        h.alert.update fun _ hnew => absurd hnew htaken⟩
      rw [held_locked, h.levels u]
      exact (hlevel u).symm
  | take t =>
    simp only [RecursiveMutex.step] at hstep
    split at hstep
    · rename_i htake
      cases hstep
      refine ⟨h.levels, ?_, h.direct, Monitor.alert_take _ _ _⟩
      have hlength := List.length_erase_add_one htake.1
      have := h.waiters
      simp only [Monitor.take, List.length_append, List.length_singleton]
      omega
    · cases hstep
  | retry t =>
    simp only [RecursiveMutex.step] at hstep
    split at hstep
    · rename_i hwoken
      have hlength := List.length_erase_add_one hwoken
      have hold := h.waiters
      split at hstep
      · rename_i hbusy
        cases hstep
        refine ⟨h.levels, ?_, h.direct, Monitor.alert_relapse fun hfree => tryLock_none hbusy hfree⟩
        simp only [Monitor.relapse, List.length_append, List.length_singleton]
        omega
      · rename_i hfree
        obtain ⟨hlevel, hwaiters, htaken⟩ := tryLock_some hfree
        cases hstep
        refine ⟨fun u => ?_, ?_, h.direct, Monitor.alert_leave htaken⟩
        · rw [held_locked, h.levels u]
          exact (hlevel u).symm
        · simp only [Monitor.leave, hwaiters]
          omega
    · cases hstep
  | unlock t =>
    simp only [RecursiveMutex.step] at hstep
    split at hstep
    · cases hstep
    obtain ⟨hlevel, hwaiters, hsignals⟩ := tryUnlock_spec m.cond.shared t
    cases hstep
    refine ⟨fun u => ?_, hwaiters.trans h.waiters, h.direct, h.alert.update fun hasleep hfree hbusy => ?_⟩
    · rw [held_unlocked, h.levels u]
      exact (hlevel u).symm
    · have hpos := List.length_pos_iff.mpr hasleep
      have := h.waiters
      exact hsignals hfree hbusy (by omega)

/-- The events of the threads that wait. -/
def Waits : LockEvent → Prop
  | .take _ => True
  | .retry _ => True
  | _ => False

theorem asks_of_step {e : LockEvent} {next : RecursiveMutex} (hstep : m.step e = some next) :
    m.cond.Asks next.cond := by
  cases e with
  | lock t =>
    simp only [RecursiveMutex.step] at hstep
    split at hstep
    · cases hstep
    split at hstep
    · cases hstep
      exact Monitor.asks_sleep _ _ _
    · cases hstep
      exact Monitor.asks_update _ _ _
  | take t =>
    simp only [RecursiveMutex.step] at hstep
    split at hstep
    · rename_i htake
      cases hstep
      exact Monitor.asks_take htake.1 htake.2
    · cases hstep
  | retry t =>
    simp only [RecursiveMutex.step] at hstep
    split at hstep
    · split at hstep
      · cases hstep
        exact Monitor.asks_relapse _ _ _
      · cases hstep
        exact Monitor.asks_of_eq rfl rfl
    · cases hstep
  | unlock t =>
    simp only [RecursiveMutex.step] at hstep
    split at hstep
    · cases hstep
    · cases hstep
      exact Monitor.asks_update _ _ _

/-- Nobody has the lock beside its owner, who gets it again at once; and when nobody has
it, those who wait need no help to take it. Of `m_cond` this asks what an event does. -/
structure Excludes (m : RecursiveMutex) : Prop where
  alone : ∀ t u, 0 < held m.calls t → 0 < held m.calls u → t = u
  again : ∀ t next, 0 < held m.calls t → m.step (.lock t) = some next →
    held next.calls t = held m.calls t + 1
  passed : (∀ t, held m.calls t = 0) → m.inLock ≠ [] → ∃ es next t, (∀ e ∈ es, Waits e) ∧
    run step m es = some next ∧ t ∈ m.inLock ∧ held next.calls t = 1
  asks : ∀ e next, m.step e = some next → m.cond.Asks next.cond

theorem Inv.alone (h : m.Inv) {t u : Nat} (ht : 0 < held m.calls t) (hu : 0 < held m.calls u) :
    t = u := by
  rw [h.levels, levelOf] at ht hu
  split_ifs at ht hu with howner hother
  · exact howner.symm.trans hother
  all_goals omega

theorem Inv.again (h : m.Inv) {t : Nat} (ht : 0 < held m.calls t) {next : RecursiveMutex}
    (hstep : m.step (.lock t) = some next) : held next.calls t = held m.calls t + 1 := by
  simp only [RecursiveMutex.step] at hstep
  split at hstep
  · cases hstep
  rw [h.levels, levelOf] at ht
  split_ifs at ht with howner
  · have hlock : tryLock m.cond.shared t = some { m.cond.shared with
        ownerThreadId := t, ownerNestingLevel := m.cond.shared.ownerNestingLevel + 1 } :=
      if_neg fun hforeign => hforeign.2 howner
    rw [hlock] at hstep
    cases hstep
    rw [held_locked, if_pos rfl]
  · omega

/-- A woken thread finds a free lock. -/
theorem Inv.retry_free (h : m.Inv) (hfree : ∀ t, held m.calls t = 0) (ht : t ∈ m.cond.woken) :
    ∃ next, m.step (.retry t) = some next ∧ held next.calls t = 1 := by
  have hlevel : m.cond.shared.ownerNestingLevel = 0 := by
    have howner := h.levels m.cond.shared.ownerThreadId
    rw [hfree, levelOf, if_pos rfl] at howner
    exact howner.symm
  have hlock : tryLock { m.cond.shared with waiters := m.cond.shared.waiters - 1 } t =
      some ⟨t, m.cond.shared.ownerNestingLevel + 1, m.cond.shared.waiters - 1⟩ :=
    if_neg fun hbusy => absurd hbusy.1 (by simp [hlevel])
  refine ⟨⟨m.cond.leave ⟨t, m.cond.shared.ownerNestingLevel + 1, m.cond.shared.waiters - 1⟩ t,
    m.calls ++ [.locked t]⟩, ?_, ?_⟩
  · simp only [RecursiveMutex.step, if_pos ht, hlock]
  · rw [held_locked, if_pos rfl, hfree]

theorem Inv.passed (h : m.Inv) (hfree : ∀ t, held m.calls t = 0) (hwaits : m.inLock ≠ []) :
    ∃ es next t, (∀ e ∈ es, Waits e) ∧ run RecursiveMutex.step m es = some next ∧
      t ∈ m.inLock ∧ held next.calls t = 1 := by
  by_cases hwoken : m.cond.woken = []
  · -- All of them sleep, so the flag is up.
    have hasleep : m.cond.asleep ≠ [] := by simpa [inLock, hwoken] using hwaits
    have hlevel : Free m.cond.shared := by
      have howner := h.levels m.cond.shared.ownerThreadId
      rw [hfree, levelOf, if_pos rfl] at howner
      exact howner.symm
    have hflag : m.cond.flag = true := by simpa [hwoken, h.direct] using h.alert hasleep hlevel
    obtain ⟨t, ht⟩ := List.exists_mem_of_ne_nil _ hasleep
    have htake : m.step (.take t) = some { m with cond := m.cond.take t } := if_pos ⟨ht, hflag⟩
    obtain ⟨next, hnext, hheld⟩ := (h.step _ htake).retry_free (t := t) hfree
      (by simp [Monitor.take])
    refine ⟨[.take t, .retry t], next, t, by simp [Waits], ?_, by simp [inLock, ht], hheld⟩
    simp [run, htake, hnext]
  · obtain ⟨t, ht⟩ := List.exists_mem_of_ne_nil _ hwoken
    obtain ⟨next, hnext, hheld⟩ := h.retry_free hfree ht
    exact ⟨[.retry t], next, t, by simp [Waits], by simp [run, hnext], by simp [inLock, ht], hheld⟩

/-- In every run, with any number of threads. -/
theorem excludes_of_recursive_run {es : List LockEvent} (hrun : run step init es = some m) : m.Excludes := by
  have hinv : m.Inv := run_preserves (fun m e next h _ hstep => h.step e hstep) inv_init
    (guarded_true init es) hrun
  exact ⟨fun _ _ => hinv.alone, fun _ _ ht => hinv.again ht, hinv.passed,
    fun _ _ => asks_of_step⟩

/-- Thread 1 has the lock twice, thread 2 sleeps, and thread 3 is faster than the wake-up. -/
def bargedIn : List LockEvent :=
  [.lock 1, .lock 1, .lock 2, .unlock 1, .unlock 1, .lock 3, .take 2, .retry 2]

theorem excludes_of_recursive_run_bargedIn : (⟨⟨⟨3, 1, 1⟩, false, [2], [], []⟩,
    [.locked 1, .locked 1, .unlocked 1, .unlocked 1, .locked 3]⟩ : RecursiveMutex).Excludes := by
  have hrun : run step init bargedIn = some ⟨⟨⟨3, 1, 1⟩, false, [2], [], []⟩,
      [.locked 1, .locked 1, .unlocked 1, .unlocked 1, .locked 3]⟩ := by decide
  exact excludes_of_recursive_run hrun

end RecursiveMutex

end Pronet.Util
