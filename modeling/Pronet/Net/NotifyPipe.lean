import Pronet.Library.Runs
import Pronet.Net.ReactorsAgree

/-! `CProNotifyPipe` and the worker of `CProSelectReactor`. Whoever changes the table holds
`m_lock` until `Notify` returns; the worker drains the pipe and enables it without the lock. -/
namespace Pronet.Net

open Std Library Runs

abbrev FdSets : Type := ExtTreeSet Int × ExtTreeSet Int × ExtTreeSet Int

namespace SelectReactor

def fds (r : SelectReactor) : FdSets := (r.fdsWr, r.fdsRd, r.fdsEx)

/-- `AddHandler` gets to its end, where it calls `Notify`. -/
def addNotifies (r : SelectReactor) (sockId : Int) (handler : Option Nat) (mask : UInt64) : Bool :=
  (r.addHandler sockId handler mask).2 &&
    widenMask (knownMask mask) &&& ~~~oldMask (r.handlerMgr.findHandler sockId) ≠ 0

def removeNotifies (r : SelectReactor) (sockId : Int) (mask : UInt64) : Bool :=
  sockId ≠ -1 && knownMask mask ≠ 0 &&
    widenMask (knownMask mask) &&& oldMask (r.handlerMgr.findHandler sockId) ≠ 0

theorem addHandler_quiet {r : SelectReactor} {sockId : Int} {handler : Option Nat} {mask : UInt64}
    (hquiet : r.addNotifies sockId handler mask = false) : (r.addHandler sockId handler mask).1 = r := by
  unfold addNotifies at hquiet
  rw [Bool.and_eq_false_iff, decide_eq_false_iff_not, not_not] at hquiet
  rcases hquiet with hrefused | hheld
  · exact r.addHandler_refused sockId handler mask hrefused
  · unfold addHandler
    dsimp only
    rw [if_pos hheld]
    split
    · rfl
    · split
      · rfl
      · split <;> rfl

theorem removeHandler_quiet {r : SelectReactor} {sockId : Int} {mask : UInt64}
    (hquiet : r.removeNotifies sockId mask = false) : r.removeHandler sockId mask = r := by
  unfold removeNotifies at hquiet
  unfold removeHandler
  dsimp only
  split
  · rfl
  · rename_i hguard
    simp only [Bool.or_eq_true, decide_eq_true_eq, not_or] at hguard
    simp only [hguard.1, hguard.2, ne_eq, not_false_iff, decide_true, Bool.and_true, Bool.true_and,
      decide_eq_false_iff_not, not_not] at hquiet
    split
    · rfl
    · rename_i info hinfo
      rw [hinfo, oldMask, Option.elim_some] at hquiet
      rw [if_pos hquiet]

end SelectReactor

/-- Where a thread is in `Notify`. It has the tick that it has read, or 0. -/
inductive NotifyPhase
  | entered
  | disabled
  | ticked (tick : Nat)
  | sending (tick : Nat)
  | sent (tick : Nat)
  | cleared (tick : Nat)
  deriving DecidableEq, Repr

/-- The thread that holds `m_lock`, and whether it is the worker. -/
structure LockHolder where
  self : Bool
  phase : NotifyPhase
  deriving DecidableEq, Repr

/-- Where the worker is. It is `blocked` from its copy of the sets on; it has `received`
from the pipe and then has `enabled` it. -/
inductive WorkerPhase
  | starting
  | looping
  | blocked (fds : FdSets)
  | woken (pipe : Bool)
  | dispatching (pipe : Bool)
  | received
  | enabled
  | exited

structure WakeState where
  reactor : SelectReactor
  enableNotify : Bool
  notifyTick : Nat
  clock : Nat
  pipe : Nat
  holder : Option LockHolder
  worker : WorkerPhase

/-- `self` says that the worker calls, from a handler. -/
inductive WakeEvent
  | clock
  | addHandler (self : Bool) (sockId : Int) (handler : Option Nat) (mask : UInt64)
  | removeHandler (self : Bool) (sockId : Int) (mask : UInt64)
  | fini (self : Bool)
  | notify
  | start
  | snapshot
  | selectReturns (pipe : Bool)
  | selectFails
  | gather
  | recv (size : Nat)
  | enable
  | resetTick
  | dispatched
  deriving DecidableEq, Repr

namespace WakeState

/-- The reactor after `Init`, before its worker runs. -/
def init (pipe : Int) (self : Nat) (clock : Nat) : WakeState :=
  ⟨.init pipe self, true, 0, clock, 0, none, .starting⟩

/-- The lock is free, and the worker calls only from a handler. -/
def mayCall (s : WakeState) (self : Bool) : Bool :=
  s.holder.isNone && (!self || match s.worker with
    | .dispatching _ => true
    | _ => false)

/-- The next step of `Notify`. The pipe takes `capacity` bytes. -/
def notify (capacity : Nat) (s : WakeState) (h : LockHolder) : WakeState :=
  match h.phase with
  | .entered =>
      { s with holder := some { h with phase := if s.enableNotify then .sending 0 else .disabled } }
  | .disabled => { s with holder := some { h with phase := .ticked s.clock } }
  | .ticked tick =>
      if tick ≤ s.notifyTick then { s with holder := none }
      else { s with holder := some { h with phase := .sending tick } }
  | .sending tick =>
      if s.pipe < capacity then
        { s with
          pipe := s.pipe + 1
          holder := some { h with phase := .sent tick } }
      else { s with holder := none }
  | .sent tick =>
      { s with
        enableNotify := false
        holder := some { h with phase := .cleared tick } }
  | .cleared tick =>
      { s with
        notifyTick := if tick > 0 then tick else s.clock
        holder := none }

def step (capacity : Nat) (s : WakeState) : WakeEvent → Option WakeState
  | .clock => some { s with clock := s.clock + 1 }
  | .addHandler self sockId handler mask =>
      if s.mayCall self then
        some { s with
          reactor := (s.reactor.addHandler sockId handler mask).1
          holder :=
            if s.reactor.addNotifies sockId handler mask && !self then some ⟨self, .entered⟩ else none }
      else none
  | .removeHandler self sockId mask =>
      if s.mayCall self then
        some { s with
          reactor := s.reactor.removeHandler sockId mask
          holder := if s.reactor.removeNotifies sockId mask && !self then some ⟨self, .entered⟩ else none }
      else none
  | .fini self =>
      if s.mayCall self then
        some { s with
          reactor := { s.reactor with wantExit := true }
          holder := some ⟨self, .entered⟩ }
      else none
  | .notify => s.holder.map (s.notify capacity)
  | event =>
      -- The worker takes no other step while it is in a call of its own.
      if s.holder.any LockHolder.self then none
      else
        match event, s.worker with
        | .start, .starting => if s.holder.isNone then some { s with worker := .looping } else none
        | .snapshot, .looping =>
            if s.holder.isNone then
              some { s with worker := if s.reactor.wantExit then .exited else .blocked s.reactor.fds }
            else none
        | .selectReturns pipe, .blocked _ =>
            if pipe && s.pipe = 0 then none else some { s with worker := .woken pipe }
        | .selectFails, .blocked _ => some { s with worker := .looping }
        | .gather, .woken pipe =>
            if s.holder.isNone then
              some { s with worker := if s.reactor.wantExit then .exited else .dispatching pipe }
            else none
        | .recv size, .dispatching true =>
            if size ≤ min 1024 s.pipe && (size = 0 → s.pipe = 0) then
              some { s with
                pipe := s.pipe - size
                worker := .received }
            else none
        | .enable, .received =>
            some { s with
              enableNotify := true
              worker := .enabled }
        | .resetTick, .enabled =>
            some { s with
              notifyTick := 0
              worker := .dispatching false }
        | .dispatched, .dispatching false => some { s with worker := .looping }
        | _, _ => none

/-- A thread that has changed the table, and will send. -/
def willSend (s : WakeState) : Bool :=
  match s.holder with
  | some ⟨_, .entered⟩ => s.enableNotify
  | some ⟨_, .sending _⟩ => true
  | _ => false

/-- A worker that waits for what is no longer so will be woken. -/
def Awake (s : WakeState) : Prop :=
  ∀ fds, s.worker = .blocked fds → (fds ≠ s.reactor.fds ∨ s.reactor.wantExit = true) →
    0 < s.pipe ∨ s.willSend = true

/-- A thread has sent, and has not yet cleared the flag. -/
def clearing (s : WakeState) : Bool :=
  match s.holder with
  | some ⟨_, .sent _⟩ => true
  | _ => false

/-- The worker does not enable an empty pipe while somebody is about to disable it. -/
def Orderly (s : WakeState) (event : WakeEvent) : Prop :=
  event = .enable → s.clearing = true → 0 < s.pipe

instance (s : WakeState) (event : WakeEvent) : Decidable (s.Orderly event) :=
  inferInstanceAs (Decidable (_ → _))

/-- A pipe that is disabled, or about to be, holds a byte, or the worker is about to enable it. -/
structure Inv (s : WakeState) : Prop where
  disabled : s.enableNotify = false → 0 < s.pipe ∨ s.worker = .received
  clearing : s.clearing = true → 0 < s.pipe ∨ s.worker = .received
  awake : s.Awake

variable {s s' : WakeState} {capacity : Nat}

theorem inv_init (pipe : Int) (self clock : Nat) : (init pipe self clock).Inv := by
  refine ⟨?_, ?_, ?_⟩
  · intro hdisabled
    cases hdisabled
  · intro hclearing
    cases hclearing
  · intro fds hblocked
    cases hblocked

theorem not_blocked_of_mayCall (hcall : s.mayCall true = true) (fds : FdSets) : s.worker ≠ .blocked fds := by
  intro hblocked
  rw [mayCall, hblocked] at hcall
  simp at hcall

/-- The table changes, and whoever has changed it goes on to `Notify`, unless it is a handler. -/
theorem Inv.enter (h : s.Inv) {self : Bool} (hcall : s.mayCall self = true) (reactor : SelectReactor)
    (notifies : Bool)
    (hsame : notifies = false →
      self = true ∨ (reactor.fds = s.reactor.fds ∧ reactor.wantExit = s.reactor.wantExit)) :
    WakeState.Inv { s with
      reactor := reactor
      holder := if notifies then some ⟨self, .entered⟩ else none } := by
  have hfree : s.holder = none := by
    rw [mayCall, Bool.and_eq_true, Option.isNone_iff_eq_none] at hcall
    exact hcall.1
  refine ⟨h.disabled, ?_, ?_⟩
  · intro hclearing
    cases notifies <;> cases hclearing
  · intro fds hblocked hstale
    cases notifies with
    | false =>
      rcases hsame rfl with rfl | ⟨hfds, hexit⟩
      · exact absurd hblocked (not_blocked_of_mayCall hcall fds)
      · dsimp only at hblocked hstale ⊢
        rw [hfds, hexit] at hstale
        have hawake := h.awake fds hblocked hstale
        unfold willSend at hawake
        rw [hfree] at hawake
        exact hawake
    | true =>
      -- The flag is false only while there is a byte, as the worker is not receiving.
      cases henable : s.enableNotify with
      | true => exact .inr rfl
      | false =>
        refine .inl ((h.disabled henable).resolve_right ?_)
        intro hreceived
        rw [hblocked] at hreceived
        cases hreceived

/-- A thread that will send does so, unless the pipe is full. -/
theorem Inv.notify (h : s.Inv) (hcapacity : 0 < capacity) {holder : LockHolder}
    (hholder : s.holder = some holder) : (s.notify capacity holder).Inv := by
  obtain ⟨self, phase⟩ := holder
  have hbyte : s.willSend = false → ∀ fds, s.worker = .blocked fds →
      (fds ≠ s.reactor.fds ∨ s.reactor.wantExit = true) → 0 < s.pipe := by
    intro hquiet fds hblocked hstale
    refine (h.awake fds hblocked hstale).resolve_right ?_
    rw [hquiet]
    exact Bool.false_ne_true
  unfold willSend at hbyte
  rw [hholder] at hbyte
  have hdrained : s.worker ≠ .received → s.enableNotify = false → 0 < s.pipe :=
    fun hworker henable => (h.disabled henable).resolve_right hworker
  cases phase with
  | entered =>
    refine ⟨h.disabled, ?_, ?_⟩
    · intro hclearing
      unfold WakeState.notify at hclearing
      cases henable : s.enableNotify <;> (rw [henable] at hclearing; cases hclearing)
    · intro fds hblocked hstale
      cases henable : s.enableNotify with
      | true => exact .inr (by simp [willSend, WakeState.notify, henable])
      | false =>
        refine .inl (hdrained ?_ henable)
        intro hreceived
        rw [show s.worker = .blocked fds from hblocked] at hreceived
        cases hreceived
  | disabled =>
    exact ⟨h.disabled, fun hclearing => (by cases hclearing),
      fun fds hblocked hstale => .inl (hbyte rfl fds hblocked hstale)⟩
  | ticked tick =>
    unfold WakeState.notify
    dsimp only
    split
    · exact ⟨h.disabled, fun hclearing => (by cases hclearing),
        fun fds hblocked hstale => .inl (hbyte rfl fds hblocked hstale)⟩
    · exact ⟨h.disabled, fun hclearing => (by cases hclearing),
        fun fds hblocked hstale => .inl (hbyte rfl fds hblocked hstale)⟩
  | sending tick =>
    unfold WakeState.notify
    dsimp only
    split
    · exact ⟨fun _ => .inl (Nat.succ_pos _), fun _ => .inl (Nat.succ_pos _),
        fun _ _ _ => .inl (Nat.succ_pos _)⟩
    · rename_i hfull
      exact ⟨h.disabled, fun hclearing => (by cases hclearing),
        fun _ _ _ => .inl (Nat.lt_of_lt_of_le hcapacity (Nat.not_lt.mp hfull))⟩
  | sent tick =>
    have hclearing : s.clearing = true := by
      unfold WakeState.clearing
      rw [hholder]
    exact ⟨fun _ => h.clearing hclearing, fun hclearing => (by cases hclearing),
      fun fds hblocked hstale => .inl (hbyte rfl fds hblocked hstale)⟩
  | cleared tick =>
    exact ⟨h.disabled, fun hclearing => (by cases hclearing),
      fun fds hblocked hstale => .inl (hbyte rfl fds hblocked hstale)⟩

/-- The worker goes on, and takes nothing from the pipe. -/
theorem Inv.work (h : s.Inv) {worker : WorkerPhase} (hbefore : s.worker ≠ .received)
    (hblocked : ∀ fds, worker = .blocked fds → fds = s.reactor.fds ∧ s.reactor.wantExit = false) :
    WakeState.Inv { s with worker := worker } := by
  refine ⟨fun henable => .inl ((h.disabled henable).resolve_right hbefore),
    fun hclearing => .inl ((h.clearing hclearing).resolve_right hbefore), ?_⟩
  intro fds hworker hstale
  obtain ⟨hfds, hexit⟩ := hblocked fds hworker
  rcases hstale with hne | hwant
  · exact absurd hfds hne
  · rw [show s.reactor.wantExit = false from hexit] at hwant
    cases hwant

theorem Inv.step (h : s.Inv) (hcapacity : 0 < capacity) {event : WakeEvent} (horderly : s.Orderly event)
    (hstep : s.step capacity event = some s') : s'.Inv := by
  have hworks : ∀ {before after : WorkerPhase}, s.worker = before → before ≠ .received →
      (∀ fds, after ≠ .blocked fds) → WakeState.Inv { s with worker := after } :=
    fun hworker hbefore hafter =>
      h.work (hworker ▸ hbefore) fun fds hblocked => absurd hblocked (hafter fds)
  unfold WakeState.step at hstep
  cases event with
  | clock =>
    cases hstep
    exact ⟨h.disabled, h.clearing, h.awake⟩
  | addHandler self sockId handler mask =>
    dsimp only at hstep
    rw [Option.ite_none_right_eq_some, Option.some.injEq] at hstep
    obtain ⟨hcall, rfl⟩ := hstep
    refine h.enter hcall _ (s.reactor.addNotifies sockId handler mask && !self) ?_
    intro hquiet
    rw [Bool.and_eq_false_iff, Bool.not_eq_false'] at hquiet
    rcases hquiet with hquiet | hself
    · rw [SelectReactor.addHandler_quiet hquiet]
      exact .inr ⟨rfl, rfl⟩
    · exact .inl hself
  | removeHandler self sockId mask =>
    dsimp only at hstep
    rw [Option.ite_none_right_eq_some, Option.some.injEq] at hstep
    obtain ⟨hcall, rfl⟩ := hstep
    refine h.enter hcall _ (s.reactor.removeNotifies sockId mask && !self) ?_
    intro hquiet
    rw [Bool.and_eq_false_iff, Bool.not_eq_false'] at hquiet
    rcases hquiet with hquiet | hself
    · rw [SelectReactor.removeHandler_quiet hquiet]
      exact .inr ⟨rfl, rfl⟩
    · exact .inl hself
  | fini self =>
    dsimp only at hstep
    rw [Option.ite_none_right_eq_some, Option.some.injEq] at hstep
    obtain ⟨hcall, rfl⟩ := hstep
    exact h.enter hcall { s.reactor with wantExit := true } true (fun hquiet => by cases hquiet)
  | notify =>
    obtain ⟨holder, hholder, rfl⟩ := Option.map_eq_some_iff.mp hstep
    exact h.notify hcapacity hholder
  | start =>
    cases hworker : s.worker <;> simp only [hworker, Option.ite_none_right_eq_some,
      Option.ite_none_left_eq_some, Option.some.injEq, reduceCtorEq, and_false] at hstep
    obtain ⟨-, -, rfl⟩ := hstep
    exact hworks hworker nofun nofun
  | snapshot =>
    cases hworker : s.worker <;> simp only [hworker, Option.ite_none_right_eq_some,
      Option.ite_none_left_eq_some, Option.some.injEq, reduceCtorEq, and_false] at hstep
    obtain ⟨-, -, rfl⟩ := hstep
    refine h.work (by rw [hworker]; nofun) ?_
    intro fds hblocked
    split at hblocked
    · cases hblocked
    · rename_i hstays
      cases hblocked
      exact ⟨rfl, Bool.eq_false_iff.mpr hstays⟩
  | selectReturns pipe =>
    cases hworker : s.worker <;> simp only [hworker, Option.ite_none_right_eq_some,
      Option.ite_none_left_eq_some, Option.some.injEq, reduceCtorEq, and_false] at hstep
    obtain ⟨-, -, rfl⟩ := hstep
    exact hworks hworker nofun nofun
  | selectFails =>
    cases hworker : s.worker <;> simp only [hworker, Option.ite_none_right_eq_some,
      Option.ite_none_left_eq_some, Option.some.injEq, reduceCtorEq, and_false] at hstep
    obtain ⟨-, rfl⟩ := hstep
    exact hworks hworker nofun nofun
  | gather =>
    cases hworker : s.worker <;> simp only [hworker, Option.ite_none_right_eq_some,
      Option.ite_none_left_eq_some, Option.some.injEq, reduceCtorEq, and_false] at hstep
    obtain ⟨-, -, rfl⟩ := hstep
    refine hworks hworker nofun ?_
    intro fds hblocked
    split at hblocked <;> cases hblocked
  | recv size =>
    cases hworker : s.worker with
    | dispatching pipe =>
      cases pipe <;> simp only [hworker, Option.ite_none_right_eq_some,
        Option.ite_none_left_eq_some, Option.some.injEq, reduceCtorEq, and_false] at hstep
      obtain ⟨-, -, rfl⟩ := hstep
      exact ⟨fun _ => .inr rfl, fun _ => .inr rfl, fun fds hblocked => by cases hblocked⟩
    | _ => simp [hworker] at hstep
  | enable =>
    cases hworker : s.worker <;> simp only [hworker, Option.ite_none_right_eq_some,
      Option.ite_none_left_eq_some, Option.some.injEq, reduceCtorEq, and_false] at hstep
    obtain ⟨-, rfl⟩ := hstep
    exact ⟨fun henable => (by cases henable), fun hclearing => .inl (horderly rfl hclearing),
      fun fds hblocked => by cases hblocked⟩
  | resetTick =>
    cases hworker : s.worker <;> simp only [hworker, Option.ite_none_right_eq_some,
      Option.ite_none_left_eq_some, Option.some.injEq, reduceCtorEq, and_false] at hstep
    obtain ⟨-, rfl⟩ := hstep
    have hrest : WakeState.Inv { s with worker := .dispatching false } := hworks hworker nofun nofun
    exact ⟨hrest.disabled, hrest.clearing, fun fds hblocked => by cases hblocked⟩
  | dispatched =>
    cases hworker : s.worker with
    | dispatching pipe =>
      cases pipe <;> simp only [hworker, Option.ite_none_right_eq_some,
        Option.ite_none_left_eq_some, Option.some.injEq, reduceCtorEq, and_false] at hstep
      obtain ⟨-, rfl⟩ := hstep
      exact hworks hworker nofun nofun
    | _ => simp [hworker] at hstep

/-- In an orderly run no wake-up is lost. -/
theorem awake_of_run (capacity : Nat) (hcapacity : 0 < capacity) (pipe : Int) (self clock : Nat)
    (events : List WakeEvent) (final : WakeState)
    (horderly : Guarded (WakeState.step capacity) Orderly (init pipe self clock) events)
    (hrun : Runs.run (WakeState.step capacity) (init pipe self clock) events = some final) :
    final.Awake := by
  have hinv : final.Inv := run_preserves
    (fun s event next hs hguard hnext => Inv.step hs hcapacity hguard hnext)
    (inv_init pipe self clock) horderly hrun
  exact hinv.awake

/-- The worker waits, and a second handler comes while the byte of the first is unread. -/
def throttledRun : List WakeEvent :=
  [.start, .snapshot, .addHandler false 7 (some 1) maskRead, .notify, .notify, .notify, .notify,
    .addHandler false 8 (some 2) maskRead, .notify, .notify, .notify]

theorem awake_of_run_throttled :
    ∃ final, Runs.run (WakeState.step 64) (init 3 100 5) throttledRun = some final ∧ final.Awake := by
  have hends : (Runs.run (WakeState.step 64) (init 3 100 5) throttledRun).isSome = true := by
    decide +kernel
  obtain ⟨final, hfinal⟩ := Option.isSome_iff_exists.mp hends
  exact ⟨final, hfinal,
    awake_of_run 64 (by decide) 3 100 5 throttledRun final (by decide +kernel) hfinal⟩

/-- The worker drains the byte of the second thread before that thread clears the flag, and
a third one is throttled in the same millisecond. -/
def racingRun : List WakeEvent :=
  [.start, .snapshot, .addHandler false 7 (some 1) maskRead, .notify, .notify, .notify, .notify,
    .selectReturns true, .gather, .clock,
    .addHandler false 8 (some 2) maskRead, .notify, .notify, .notify, .notify,
    .recv 2, .enable, .resetTick, .notify, .notify, .dispatched, .snapshot,
    .addHandler false 9 (some 3) maskRead, .notify, .notify, .notify]

/-- The worker is blocked without the descriptor, and nobody will wake it. -/
def asleep (s : WakeState) (sockId : Int) : Bool :=
  match s.worker with
  | .blocked fds => sockId ∈ s.reactor.fdsRd && sockId ∉ fds.2.1 && s.pipe = 0 && !s.willSend
  | _ => false

theorem not_awake_of_asleep {s : WakeState} {sockId : Int} (hasleep : s.asleep sockId = true) :
    ¬s.Awake := by
  intro hawake
  unfold asleep at hasleep
  split at hasleep
  · rename_i fds hblocked
    simp only [Bool.and_eq_true, decide_eq_true_eq, Bool.not_eq_true'] at hasleep
    obtain ⟨⟨⟨hmem, hstale⟩, hempty⟩, hsilent⟩ := hasleep
    have hdiffers : fds ≠ s.reactor.fds := by
      rintro rfl
      exact hstale hmem
    rcases hawake fds hblocked (.inl hdiffers) with hbyte | hwill
    · omega
    · rw [hsilent] at hwill
      cases hwill
  · cases hasleep

theorem wakeup_lost : ¬∀ events final,
    Runs.run (WakeState.step 64) (init 3 100 5) events = some final → final.Awake := by
  intro hclaim
  have hends : (Runs.run (WakeState.step 64) (init 3 100 5) racingRun).any (asleep · 9) = true := by
    decide +kernel
  obtain ⟨final, hfinal, hasleep⟩ := (Option.any_eq_true _ _).mp hends
  exact not_awake_of_asleep hasleep (hclaim racingRun final hfinal)

end WakeState

end Pronet.Net
