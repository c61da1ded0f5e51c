import Pronet.Library.Monitor
import Pronet.Library.Runs

/-! `CProRwThreadMutex`. A writer keeps `m_mutex` for the whole of its section and waits
on `m_cond` for the readers; a reader has it only while it is counted. -/
namespace Pronet.Util

open Library Runs

/-- Where the thread that has `m_mutex` stands. -/
inductive RwPhase
  | writerEnters
  | writerWaits
  | writing
  | readerEnters
  | readerLeaves
  deriving DecidableEq, Repr

/-- `cond.shared` is `m_readers`, under `m_lock`; `reading` has the threads whose `Lock_r`
has returned, once for each call. -/
structure RwMutex where
  mutex : Option (Nat × RwPhase)
  cond : Monitor Nat Nat
  reading : List Nat
  deriving DecidableEq, Repr

inductive RwEvent
  | lock (t : Nat)
  | test (t : Nat)
  | take (t : Nat)
  | retry (t : Nat)
  | unlock (t : Nat)
  | lockR (t : Nat)
  | count (t : Nat)
  | lockedR (t : Nat)
  | unlockR (t : Nat)
  | signal (t : Nat)
  deriving DecidableEq, Repr

namespace RwMutex

def init : RwMutex := ⟨none, .init 0, []⟩

/-- A thread inside one of the four calls. -/
def busy (m : RwMutex) (t : Nat) : Bool :=
  m.cond.signalling.contains t ||
    match m.mutex with
    | none => false
    | some (u, phase) => u == t && phase != .writing

def step (m : RwMutex) : RwEvent → Option RwMutex
  | .lock t =>
      if m.mutex = none ∧ m.busy t = false then some { m with mutex := some (t, .writerEnters) } else none
  | .test t =>
      if m.mutex = some (t, .writerEnters) then
        if m.cond.shared > 0 then
          some { m with mutex := some (t, .writerWaits), cond := m.cond.sleep m.cond.shared t }
        else some { m with mutex := some (t, .writing) }
      else none
  | .take t =>
      if t ∈ m.cond.asleep ∧ m.cond.flag = true then some { m with cond := m.cond.take t } else none
  | .retry t =>
      if t ∈ m.cond.woken then
        if m.cond.shared > 0 then some { m with cond := m.cond.relapse m.cond.shared t }
        else some { m with mutex := some (t, .writing), cond := m.cond.leave m.cond.shared t }
      else none
  | .unlock t => if m.mutex = some (t, .writing) then some { m with mutex := none } else none
  | .lockR t =>
      if m.mutex = none ∧ m.busy t = false then some { m with mutex := some (t, .readerEnters) } else none
  | .count t =>
      if m.mutex = some (t, .readerEnters) then
        some { m with
          mutex := some (t, .readerLeaves), cond := m.cond.update (m.cond.shared + 1) false }
      else none
  | .lockedR t =>
      if m.mutex = some (t, .readerLeaves) then
        some { m with mutex := none, reading := m.reading ++ [t] }
      else none
  | .unlockR t =>
      if t ∈ m.reading ∧ m.busy t = false then
        let readers := m.cond.shared - 1
        -- The last reader signals behind the section.
        let cond := if readers = 0 then m.cond.defer readers t else m.cond.update readers false
        some { m with cond := cond, reading := m.reading.erase t }
      else none
  | .signal t => if t ∈ m.cond.signalling then some { m with cond := m.cond.signal t } else none

/-- A reader that is counted and still has `m_mutex`. -/
def leaving : Option (Nat × RwPhase) → Nat
  | some (_, .readerLeaves) => 1
  | _ => 0

/-- The writer that waits. -/
def waiter : Option (Nat × RwPhase) → List Nat
  | some (t, .writerWaits) => [t]
  | _ => []

structure Inv (m : RwMutex) : Prop where
  readers : m.cond.shared = m.reading.length + leaving m.mutex
  writing : ∀ t, m.mutex = some (t, .writing) → m.cond.shared = 0
  waits : m.cond.asleep ++ m.cond.woken = waiter m.mutex
  alert : m.cond.Alert fun readers => readers = 0

theorem inv_init : init.Inv where
  readers := rfl
  writing t h := by cases h
  waits := rfl
  alert := Monitor.alert_init _

variable {m : RwMutex} {t : Nat}

/-- Only the thread in `writerWaits` sleeps or has been woken. -/
theorem Inv.awake (h : m.Inv) (hphase : waiter m.mutex = []) : m.cond.asleep = [] ∧ m.cond.woken = [] := by
  have hnone := h.waits.trans hphase
  exact List.append_eq_nil_iff.mp hnone

theorem Inv.asleep (h : m.Inv) (ht : t ∈ m.cond.asleep) :
    m.mutex = some (t, .writerWaits) ∧ m.cond.asleep = [t] ∧ m.cond.woken = [] := by
  have hmem : t ∈ waiter m.mutex := h.waits ▸ List.mem_append_left _ ht
  unfold waiter at hmem
  split at hmem
  · rename_i u hmutex
    cases List.mem_singleton.mp hmem
    have hone := h.waits
    rw [hmutex] at hone
    obtain ⟨rest, hrest⟩ : ∃ rest, m.cond.asleep = t :: rest := by
      obtain ⟨a, rest, hcons⟩ := List.exists_cons_of_ne_nil (List.ne_nil_of_mem ht)
      have ha : a = t := by
        have := congrArg List.head? hone
        simpa [hcons, waiter] using this
      exact ⟨rest, ha ▸ hcons⟩
    have htail : rest = [] ∧ m.cond.woken = [] := by simpa [hrest, waiter] using hone
    exact ⟨hmutex, by rw [hrest, htail.1], htail.2⟩
  · cases hmem

theorem Inv.woken (h : m.Inv) (ht : t ∈ m.cond.woken) :
    m.mutex = some (t, .writerWaits) ∧ m.cond.asleep = [] ∧ m.cond.woken = [t] := by
  have hmem : t ∈ waiter m.mutex := h.waits ▸ List.mem_append_right _ ht
  unfold waiter at hmem
  split at hmem
  · rename_i u hmutex
    cases List.mem_singleton.mp hmem
    have hone := h.waits
    rw [hmutex] at hone
    have hawake : m.cond.asleep = [] := by
      by_contra hsome
      obtain ⟨a, ha⟩ := List.exists_mem_of_ne_nil _ hsome
      rw [(h.asleep ha).2.2] at ht
      cases ht
    exact ⟨hmutex, hawake, by simpa [hawake, waiter] using hone⟩
  · cases hmem

theorem Inv.step (h : m.Inv) (e : RwEvent) {next : RwMutex} (hstep : m.step e = some next) :
    next.Inv := by
  cases e with
  | lock t =>
    simp only [RwMutex.step] at hstep
    split at hstep
    · rename_i hfree
      cases hstep
      have hawake := h.awake (by rw [hfree.1]; rfl)
      exact ⟨by simpa [hfree.1, leaving] using h.readers, by simp, by simp [hawake, waiter], h.alert⟩
    · cases hstep
  | test t =>
    simp only [RwMutex.step] at hstep
    split at hstep
    · rename_i hmutex
      have hawake := h.awake (by rw [hmutex]; rfl)
      have hreaders := h.readers
      rw [hmutex] at hreaders
      split at hstep
      · rename_i hsome
        cases hstep
        exact ⟨hreaders, by simp, by simp [Monitor.sleep, hawake, waiter],
          Monitor.alert_sleep hsome.ne'⟩
      · rename_i hnone
        cases hstep
        exact ⟨hreaders, fun _ _ => Nat.eq_zero_of_not_pos hnone, by simp [hawake, waiter], h.alert⟩
    · cases hstep
  | take t =>
    simp only [RwMutex.step] at hstep
    split at hstep
    · rename_i htake
      cases hstep
      obtain ⟨hmutex, hasleep, hwoken⟩ := h.asleep htake.1
      exact ⟨h.readers, h.writing, by simp [Monitor.take, hasleep, hwoken, hmutex, waiter],
        Monitor.alert_take _ _ _⟩
    · cases hstep
  | retry t =>
    simp only [RwMutex.step] at hstep
    split at hstep
    · rename_i ht
      obtain ⟨hmutex, hasleep, hwoken⟩ := h.woken ht
      split at hstep
      · rename_i hsome
        cases hstep
        exact ⟨h.readers, h.writing, by simp [Monitor.relapse, hasleep, hwoken, hmutex, waiter],
          Monitor.alert_relapse hsome.ne'⟩
      · rename_i hnone
        cases hstep
        have hreaders := h.readers
        rw [hmutex] at hreaders
        exact ⟨hreaders, fun _ _ => Nat.eq_zero_of_not_pos hnone,
          by simp [Monitor.leave, hasleep, hwoken, waiter], Monitor.alert_of_awake hasleep⟩
    · cases hstep
  | unlock t =>
    simp only [RwMutex.step] at hstep
    split at hstep
    · rename_i hmutex
      cases hstep
      have hawake := h.awake (by rw [hmutex]; rfl)
      have hreaders := h.readers
      rw [hmutex] at hreaders
      exact ⟨hreaders, by simp, by simp [hawake, waiter], h.alert⟩
    · cases hstep
  | lockR t =>
    simp only [RwMutex.step] at hstep
    split at hstep
    · rename_i hfree
      cases hstep
      have hawake := h.awake (by rw [hfree.1]; rfl)
      exact ⟨by simpa [hfree.1, leaving] using h.readers, by simp, by simp [hawake, waiter], h.alert⟩
    · cases hstep
  | count t =>
    simp only [RwMutex.step] at hstep
    split at hstep
    · rename_i hmutex
      cases hstep
      have hawake := h.awake (by rw [hmutex]; rfl)
      have hreaders := h.readers
      rw [hmutex] at hreaders
      exact ⟨by simpa [Monitor.update, leaving] using hreaders, by simp,
        by simp [Monitor.update, hawake, waiter], Monitor.alert_of_awake hawake.1⟩
    · cases hstep
  | lockedR t =>
    simp only [RwMutex.step] at hstep
    split at hstep
    · rename_i hmutex
      cases hstep
      have hawake := h.awake (by rw [hmutex]; rfl)
      have hreaders := h.readers
      rw [hmutex] at hreaders
      exact ⟨by simpa [leaving] using hreaders, by simp, by simp [hawake, waiter], h.alert⟩
    · cases hstep
  | unlockR t =>
    simp only [RwMutex.step] at hstep
    split at hstep
    · rename_i hreading
      have hlength := List.length_erase_add_one hreading.1
      have hreaders := h.readers
      have hbusy : ∀ u, m.mutex = some (u, .writing) → m.cond.shared - 1 = 0 := fun u hu => by
        rw [h.writing u hu]
      split at hstep
      · rename_i hlast
        cases hstep
        exact ⟨by simp only [Monitor.defer]; omega, hbusy, h.waits, Monitor.alert_defer _ _ _ _⟩
      · rename_i hmore
        cases hstep
        exact ⟨by simp only [Monitor.update]; omega, hbusy, h.waits,
          h.alert.update fun _ hnone => absurd hnone hmore⟩
    · cases hstep
  | signal t =>
    simp only [RwMutex.step] at hstep
    split at hstep
    · cases hstep
      exact ⟨h.readers, h.writing, h.waits, Monitor.alert_signal _ _ _⟩
    · cases hstep

/-- The events by which a writer gets past the readers that have left. -/
def Proceeds (t : Nat) : RwEvent → Prop
  | .test u => u = t
  | .take u => u = t
  | .retry u => u = t
  | .signal _ => True
  | _ => False

theorem asks_of_step {e : RwEvent} {next : RwMutex} (hstep : m.step e = some next) :
    m.cond.Asks next.cond := by
  cases e with
  | test t =>
    simp only [RwMutex.step] at hstep
    split at hstep
    · split at hstep
      · cases hstep
        exact Monitor.asks_sleep _ _ _
      · cases hstep
        exact Monitor.asks_of_eq rfl rfl
    · cases hstep
  | take t =>
    simp only [RwMutex.step] at hstep
    split at hstep
    · rename_i htake
      cases hstep
      exact Monitor.asks_take htake.1 htake.2
    · cases hstep
  | retry t =>
    simp only [RwMutex.step] at hstep
    split at hstep
    · split at hstep
      · cases hstep
        exact Monitor.asks_relapse _ _ _
      · cases hstep
        exact Monitor.asks_of_eq rfl rfl
    · cases hstep
  | unlockR t =>
    simp only [RwMutex.step] at hstep
    split at hstep
    · split at hstep
      · cases hstep
        exact Monitor.asks_of_eq rfl rfl
      · cases hstep
        exact Monitor.asks_update _ _ _
    · cases hstep
  | count t =>
    simp only [RwMutex.step] at hstep
    split at hstep
    · cases hstep
      exact Monitor.asks_update _ _ _
    · cases hstep
  | signal t =>
    simp only [RwMutex.step] at hstep
    split at hstep
    · cases hstep
      exact Monitor.asks_signal _ _
    · cases hstep
  | lock t | unlock t | lockR t | lockedR t =>
    -- `m_mutex` alone changes hands.
    simp only [RwMutex.step] at hstep
    split at hstep
    · cases hstep
      exact Monitor.asks_of_eq rfl rfl
    · cases hstep

/-- A writer is alone; once it has `m_mutex` no reader comes in before it is done; and
when the readers have left it needs no other call to get on. Of `m_cond` this asks what an
event does. -/
structure Excludes (m : RwMutex) : Prop where
  alone : ∀ t, m.mutex = some (t, .writing) → m.reading = []
  kept : ∀ t phase es next, m.mutex = some (t, phase) →
    (phase = .writerEnters ∨ phase = .writerWaits ∨ phase = .writing) →
    run step m es = some next → .unlock t ∉ es → next.reading.Sublist m.reading
  proceeds : ∀ t phase, m.mutex = some (t, phase) →
    (phase = .writerEnters ∨ phase = .writerWaits) → m.reading = [] →
    ∃ es next, (∀ e ∈ es, Proceeds t e) ∧ run step m es = some next ∧
      next.mutex = some (t, .writing)
  asks : ∀ e next, m.step e = some next → m.cond.Asks next.cond

theorem Inv.alone (h : m.Inv) (hmutex : m.mutex = some (t, .writing)) : m.reading = [] := by
  have hreaders := h.readers
  rw [h.writing t hmutex] at hreaders
  exact List.length_eq_zero_iff.mp (by omega)

/-- The phases of a writer between `Lock` and `Unlock`. -/
def Writer (phase : RwPhase) : Prop := phase = .writerEnters ∨ phase = .writerWaits ∨ phase = .writing

theorem Inv.step_writer (h : m.Inv) {phase : RwPhase} (hmutex : m.mutex = some (t, phase))
    (hwriter : Writer phase) {e : RwEvent} (hkept : e ≠ .unlock t) {next : RwMutex}
    (hstep : m.step e = some next) :
    next.reading.Sublist m.reading ∧ ∃ phase, next.mutex = some (t, phase) ∧ Writer phase := by
  cases e with
  | lock u => simp [RwMutex.step, hmutex] at hstep
  | lockR u => simp [RwMutex.step, hmutex] at hstep
  | unlock u =>
    simp only [RwMutex.step, hmutex] at hstep
    split at hstep
    · rename_i hsame
      cases hsame
      exact absurd rfl hkept
    · cases hstep
  | test u =>
    simp only [RwMutex.step, hmutex] at hstep
    split at hstep
    · rename_i hsame
      cases hsame
      split at hstep
      · cases hstep
        exact ⟨.refl _, _, rfl, .inr (.inl rfl)⟩
      · cases hstep
        exact ⟨.refl _, _, rfl, .inr (.inr rfl)⟩
    · cases hstep
  | take u =>
    simp only [RwMutex.step] at hstep
    split at hstep
    · cases hstep
      exact ⟨.refl _, phase, hmutex, hwriter⟩
    · cases hstep
  | retry u =>
    simp only [RwMutex.step] at hstep
    split at hstep
    · rename_i hwoken
      split at hstep
      · cases hstep
        exact ⟨.refl _, phase, hmutex, hwriter⟩
      · cases hstep
        have hsame : u = t := by
          have := (h.woken hwoken).1.symm.trans hmutex
          simp only [Option.some.injEq, Prod.mk.injEq] at this
          exact this.1
        exact ⟨.refl _, .writing, by simp [hsame], .inr (.inr rfl)⟩
    · cases hstep
  | count u =>
    simp only [RwMutex.step, hmutex] at hstep
    split at hstep
    · rename_i hsame
      cases hsame
      simp [Writer] at hwriter
    · cases hstep
  | lockedR u =>
    simp only [RwMutex.step, hmutex] at hstep
    split at hstep
    · rename_i hsame
      cases hsame
      simp [Writer] at hwriter
    · cases hstep
  | unlockR u =>
    simp only [RwMutex.step] at hstep
    split at hstep
    · cases hstep
      exact ⟨List.erase_sublist, phase, hmutex, hwriter⟩
    · cases hstep
  | signal u =>
    simp only [RwMutex.step] at hstep
    split at hstep
    · cases hstep
      exact ⟨.refl _, phase, hmutex, hwriter⟩
    · cases hstep

theorem Inv.kept (h : m.Inv) {phase : RwPhase} (hmutex : m.mutex = some (t, phase))
    (hwriter : Writer phase) {es : List RwEvent} {next : RwMutex}
    (hrun : run RwMutex.step m es = some next) (hkept : .unlock t ∉ es) :
    next.reading.Sublist m.reading := by
  induction es generalizing m phase with
  | nil =>
    cases hrun
    exact .refl _
  | cons e es ih =>
    obtain ⟨mid, hmid, hrest⟩ := run_cons_eq_some hrun
    have hne : e ≠ .unlock t := fun heq => hkept (heq ▸ List.mem_cons_self)
    obtain ⟨hsub, phase', hmutex', hwriter'⟩ := h.step_writer hmutex hwriter hne hmid
    exact (ih (h.step e hmid) hmutex' hwriter' hrest fun h => hkept (List.mem_cons_of_mem _ h)).trans hsub

theorem Inv.retry_alone (h : m.Inv) (ht : t ∈ m.cond.woken) (hreading : m.reading = []) :
    ∃ next, m.step (.retry t) = some next ∧ next.mutex = some (t, .writing) := by
  have hzero : ¬m.cond.shared > 0 := by simp [h.readers, (h.woken ht).1, hreading, leaving]
  exact ⟨_, by simp only [RwMutex.step, if_pos ht, if_neg hzero]; rfl, rfl⟩

theorem Inv.take_alone (h : m.Inv) (ht : t ∈ m.cond.asleep) (hflag : m.cond.flag = true)
    (hreading : m.reading = []) :
    ∃ next, run RwMutex.step m [.take t, .retry t] = some next ∧ next.mutex = some (t, .writing) := by
  have htake : m.step (.take t) = some { m with cond := m.cond.take t } := if_pos ⟨ht, hflag⟩
  obtain ⟨next, hnext, hwriting⟩ := (h.step _ htake).retry_alone (t := t)
    (by simp [Monitor.take]) hreading
  exact ⟨next, by simp [run, htake, hnext], hwriting⟩

theorem Inv.proceeds (h : m.Inv) {phase : RwPhase} (hmutex : m.mutex = some (t, phase))
    (hphase : phase = .writerEnters ∨ phase = .writerWaits) (hreading : m.reading = []) :
    ∃ es next, (∀ e ∈ es, Proceeds t e) ∧ run RwMutex.step m es = some next ∧
      next.mutex = some (t, .writing) := by
  obtain rfl | rfl := hphase
  · have hzero : ¬m.cond.shared > 0 := by simp [h.readers, hmutex, hreading, leaving]
    refine ⟨[.test t], { m with mutex := some (t, .writing) }, by simp [Proceeds], ?_, rfl⟩
    simp [run, RwMutex.step, hmutex, hzero]
  · have hmem : t ∈ m.cond.asleep ++ m.cond.woken := by simp [h.waits, hmutex, waiter]
    obtain hasleep | hwoken := List.mem_append.mp hmem
    · have hzero : m.cond.shared = 0 := by simp [h.readers, hmutex, hreading, leaving]
      obtain hflag | hwoken | hsignal := h.alert (List.ne_nil_of_mem hasleep) hzero
      · obtain ⟨next, hnext, hwriting⟩ := h.take_alone hasleep hflag hreading
        exact ⟨_, next, by simp [Proceeds], hnext, hwriting⟩
      · exact absurd (h.asleep hasleep).2.2 hwoken
      · -- The last reader has left the section and is about to signal.
        obtain ⟨u, hu⟩ := List.exists_mem_of_ne_nil _ hsignal
        have hstep : m.step (.signal u) = some { m with cond := m.cond.signal u } := if_pos hu
        obtain ⟨next, hnext, hwriting⟩ := (h.step _ hstep).take_alone (t := t) hasleep rfl hreading
        refine ⟨[.signal u, .take t, .retry t], next, by simp [Proceeds], ?_, hwriting⟩
        simpa [run, hstep] using hnext
    · obtain ⟨next, hnext, hwriting⟩ := h.retry_alone hwoken hreading
      exact ⟨[.retry t], next, by simp [Proceeds], by simp [run, hnext], hwriting⟩

/-- In every run, with any number of threads. -/
theorem excludes_of_rw_run {es : List RwEvent} (hrun : run step init es = some m) : m.Excludes := by
  have hinv : m.Inv := run_preserves (fun m e next h _ hstep => h.step e hstep) inv_init
    (guarded_true init es) hrun
  exact ⟨fun _ => hinv.alone, fun _ _ _ _ hmutex hwriter hmore => hinv.kept hmutex hwriter hmore,
    fun _ _ hmutex hphase => hinv.proceeds hmutex hphase, fun _ _ => asks_of_step⟩

/-- The last reader is between its section and its signal when the writer falls asleep. -/
def lateSignal : List RwEvent :=
  [.lockR 1, .count 1, .lockedR 1, .lockR 2, .count 2, .lockedR 2, .unlockR 1, .lock 3, .test 3,
    .unlockR 2]

theorem excludes_of_rw_run_lateSignal :
    (⟨some (3, .writerWaits), ⟨0, false, [3], [], [2]⟩, []⟩ : RwMutex).Excludes := by
  have hrun : run step init lateSignal =
      some ⟨some (3, .writerWaits), ⟨0, false, [3], [], [2]⟩, []⟩ := by decide
  exact excludes_of_rw_run hrun

end RwMutex

end Pronet.Util
