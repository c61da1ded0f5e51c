import Pronet.Library.Runs
import Pronet.Library.Tables
import Pronet.Net.ReactorsAgree

/-! `CProTpReactorTask` over epoll reactors: one thread for the reactor that accepts, and one for
each of those that do the rest. A handler is told which reactor it is in, and what for. -/
namespace Pronet.Net

open Std Library Runs

/-- A reactor and the reader of its pipe. -/
structure TaskReactor where
  pipe : Int
  reactor : EpollReactor

namespace TaskReactor

def getHandlerCount (r : TaskReactor) : Nat := r.reactor.handlerMgr.sockId2HandlerInfo.size

/-- `Fini`, which wakes the worker. -/
def fini (r : TaskReactor) : TaskReactor := { r with reactor := { r.reactor with wantExit := true } }

end TaskReactor

/-- `m_reactor`, as a place among the I/O reactors, and `m_mask` of a handler. `sockId` is the
descriptor that it has been added with. -/
structure TaskHandler where
  reactor : Option Nat
  mask : UInt64
  sockId : Int
  deriving DecidableEq, Repr

/-- Where the thread with `m_lockAtom` stands. In the loop of `Start` it sleeps or looks. -/
inductive TaskCaller
  | nobody
  | starting
  | looking
  | failed
  | stopping
  deriving DecidableEq, Repr

/-- `initFlag` is that of `m_initCond`. `threads` are those that have been spawned, `begun` has the
reactors of those that have begun, none for the one that accepts, and `ended` counts those that
have come back. -/
structure TpReactorTask where
  acceptReactor : Option TaskReactor
  ioReactors : List TaskReactor
  acceptThreadCount : Nat
  ioThreadCount : Nat
  curThreadCount : Nat
  wantExit : Bool
  initFlag : Bool
  caller : TaskCaller
  threads : Nat
  begun : List (Option Nat)
  ended : Nat
  handlers : ExtTreeMap Nat TaskHandler

/-- `pipes` are the pipes and the names of the reactors whose `Init` succeeds, in the order of
their creation; `spawned` threads can be spawned, and `timers` says that both factories start. -/
inductive TaskCall
  | start (ioThreadCount : Nat) (pipes : List (Int × Nat)) (spawned : Nat) (timers : Bool)
  | svc
  | startTakes
  | startLooks
  | stopMe
  | stop
  | svcEnds
  | stopEnds
  | addHandler (sockId : Int) (handler : Nat) (mask : UInt64) (able able' : Bool)
  | removeHandler (sockId : Int) (handler : Nat) (mask : UInt64)
  deriving DecidableEq, Repr

/-- The loop of `AddHandler`: the first reactor of those with the fewest handlers. -/
def leastLoaded (counts : List Nat) : Nat :=
  (List.range counts.length).foldl (fun best i => if counts.getD i 0 < counts.getD best 0 then i else best) 0

/-- The bits of the I/O reactors. -/
def ioMask (mask : UInt64) : UInt64 := mask &&& ~~~maskAccept

namespace TpReactorTask

def init : TpReactorTask :=
  ⟨none, [], 0, 0, 0, false, false, .nobody, 0, [], 0, ∅⟩

def total (w : TpReactorTask) : Nat := w.acceptThreadCount + w.ioThreadCount

/-- A handler is made with no reactor and no mask. -/
def handlerOf (w : TpReactorTask) (handler : Nat) : TaskHandler := (w.handlers[handler]?).getD ⟨none, 0, -1⟩

def setHandler (w : TpReactorTask) (handler : Nat) (state : TaskHandler) : TpReactorTask :=
  { w with handlers := w.handlers.insert handler state }

/-- `Start` up to its wait, which leaves `m_lock` to the threads. -/
def start (w : TpReactorTask) (ioThreadCount : Nat) (pipes : List (Int × Nat)) (spawned : Nat) (timers : Bool) :
    TpReactorTask :=
  if ioThreadCount = 0 then w
  else if w.total ≠ 0 then w
  else
    let reactors := (pipes.take (1 + ioThreadCount)).map fun (pipe, self) =>
      (⟨pipe, .init pipe self⟩ : TaskReactor)
    let w := { w with
      acceptThreadCount := 1
      ioThreadCount := ioThreadCount
      acceptReactor := reactors.head?
      ioReactors := reactors.tail }
    if reactors.length ≠ 1 + ioThreadCount then { w with caller := .failed }
    else
      let spawned := min spawned (1 + ioThreadCount)
      { w with
        threads := spawned
        caller := if spawned = 1 + ioThreadCount && timers then .starting else .failed }

/-- `Svc` up to its reactor. -/
def svc (w : TpReactorTask) : TpReactorTask :=
  let threadCount := w.curThreadCount + 1
  { w with
    curThreadCount := threadCount
    initFlag := true
    begun := w.begun ++ [if threadCount ≤ w.acceptThreadCount then none else some (threadCount - 2)] }

/-- `StopMe` up to `Wait`. -/
def stopMe (w : TpReactorTask) : TpReactorTask :=
  if w.total = 0 then { w with caller := .nobody }
  else
    { w with
      wantExit := true
      acceptReactor := w.acceptReactor.map TaskReactor.fini
      ioReactors := w.ioReactors.map TaskReactor.fini
      caller := .stopping }

def stopEnds (w : TpReactorTask) : TpReactorTask :=
  { init with initFlag := w.initFlag, handlers := w.handlers }

def addHandler (w : TpReactorTask) (sockId : Int) (handler : Nat) (mask : UInt64) (able able' : Bool) :
    TpReactorTask × Bool :=
  let mask := knownMask mask
  if sockId = -1 || mask = 0 then (w, false)
  else if bitEnabled mask maskAccept && bitEnabled mask (ioMask mask) then (w, false)
  else if w.total = 0 || w.curThreadCount ≠ w.total || w.wantExit then (w, false)
  else
    let state := w.handlerOf handler
    let index := state.reactor.getD (leastLoaded (w.ioReactors.map TaskReactor.getHandlerCount))
    if bitEnabled mask maskAccept then
      match w.acceptReactor with
      | none => (w, false)
      | some r =>
          let (reactor, done) := r.reactor.addHandler sockId (some handler) maskAccept able able'
          let w := { w with acceptReactor := some { r with reactor := reactor } }
          if done then (w.setHandler handler { state with mask := state.mask ||| mask }, true) else (w, false)
    else
      match w.ioReactors[index]? with
      | none => (w, false)
      | some r =>
          let (reactor, done) := r.reactor.addHandler sockId (some handler) mask able able'
          let w := { w with ioReactors := w.ioReactors.set index { r with reactor := reactor } }
          if done then (w.setHandler handler ⟨some index, state.mask ||| mask, sockId⟩, true) else (w, false)

/-- `RemoveHandler` of one I/O reactor. -/
def removeFrom (w : TpReactorTask) (index : Nat) (sockId : Int) (mask : UInt64) : TpReactorTask :=
  match w.ioReactors[index]? with
  | none => w
  | some r =>
      { w with
        ioReactors := w.ioReactors.set index { r with reactor := r.reactor.removeHandler sockId mask true } }

/-- `RemoveHandler` of the I/O reactor of a handler, if it is in one. -/
def removeIo (w : TpReactorTask) (sockId : Int) (handler : Nat) (mask : UInt64) : TpReactorTask :=
  if bitEnabled mask (ioMask mask) then
    match (w.handlerOf handler).reactor with
    | none => w
    | some index => w.removeFrom index sockId (ioMask mask)
  else w

def removeHandler (w : TpReactorTask) (sockId : Int) (handler : Nat) (mask : UInt64) : TpReactorTask :=
  let mask := knownMask mask
  if sockId = -1 || mask = 0 then w
  else if w.total = 0 || w.curThreadCount ≠ w.total then w
  else
    let state := w.handlerOf handler
    let w := if bitEnabled mask maskAccept then
        { w with acceptReactor := w.acceptReactor.map fun r =>
            { r with reactor := r.reactor.removeHandler sockId maskAccept true } }
      else w
    let w := w.removeIo sockId handler mask
    let newMask := state.mask &&& ~~~mask
    let reactor := if bitEnabled newMask (ioMask newMask) then state.reactor else none
    w.setHandler handler { state with reactor := reactor, mask := newMask }

def step (w : TpReactorTask) : TaskCall → Option TpReactorTask
  | .start ioThreadCount pipes spawned timers =>
      if w.caller = .nobody then some (w.start ioThreadCount pipes spawned timers) else none
  | .svc => if w.begun.length < w.threads then some w.svc else none
  | .startTakes =>
      if w.caller = .starting ∧ w.initFlag = true then some { w with initFlag := false, caller := .looking }
      else none
  | .startLooks =>
      if w.caller = .looking then
        some { w with caller := if w.curThreadCount < w.total then .starting else .nobody }
      else none
  | .stopMe => if w.caller = .failed then some w.stopMe else none
  | .stop => if w.caller = .nobody then some w.stopMe else none
  -- A worker may come back once it is to exit, but it may also sleep on.
  | .svcEnds => if w.wantExit ∧ w.ended < w.begun.length then some { w with ended := w.ended + 1 } else none
  | .stopEnds => if w.caller = .stopping ∧ w.ended = w.threads then some w.stopEnds else none
  | .addHandler sockId handler mask able able' => some (w.addHandler sockId handler mask able able').1
  | .removeHandler sockId handler mask => some (w.removeHandler sockId handler mask)

end TpReactorTask

namespace EpollReactor

variable {r : EpollReactor} {t : Registry}

/-- The mask is told to the kernel or not; the table is what the kernel has been told. -/
theorem Inv.addHandler_able (h : r.Inv t) {sockId : Int} (hfd : asFd sockId = sockId) (handler : Option Nat)
    (mask : UInt64) (able able' : Bool) :
    (r.addHandler sockId handler mask able able').2 = false ∧
        (r.addHandler sockId handler mask able able').1.Inv t ∨
      (r.addHandler sockId handler mask able able').2 = true ∧
        (t.add sockId handler (interests mask)).2 = true ∧
        (r.addHandler sockId handler mask able able').1.Inv (t.add sockId handler (interests mask)).1 := by
  cases able with
  | true =>
    obtain ⟨hresult, hinv⟩ := h.addHandler hfd handler mask able'
    cases hadd : (t.add sockId handler (interests mask)).2 with
    | true => exact .inr ⟨hresult.trans hadd, rfl, hinv⟩
    | false =>
      refine .inl ⟨hresult.trans hadd, ?_⟩
      have hsame : (t.add sockId handler (interests mask)).1 = t := by
        cases h.tracks.adds sockId handler mask with
        | invalid _ hspec => rw [hspec]
        | taken _ _ hspec => rw [hspec]
        | held _ _ _ hspec =>
          rw [hspec] at hadd
          cases hadd
        | more _ _ _ _ _ _ _ _ _ _ _ hspec =>
          rw [hspec] at hadd
          cases hadd
      rw [hsame] at hinv
      exact hinv
  | false =>
    unfold EpollReactor.addHandler
    dsimp only
    cases h.tracks.adds sockId handler mask with
    | invalid hguard hspec =>
      rw [if_pos hguard]
      exact .inl ⟨rfl, h⟩
    | taken hguard htaken hspec =>
      rw [if_neg (by rw [hguard]; decide), if_neg (by simp [h.open_]), if_pos htaken]
      exact .inl ⟨rfl, h⟩
    | held hguard hfree hheld hspec =>
      rw [if_neg (by rw [hguard]; decide), if_neg (by simp [h.open_]), if_neg (by rw [hfree]; decide),
        if_pos hheld, hspec]
      exact .inr ⟨rfl, rfl, h⟩
    | more hhandler hguard hfree hold hnew hmore hmasks hentry hadd htable htracks hspec =>
      rename_i handler' m' old new
      have hzero := (mask_eq_zero hmasks.1).2
      have hpresent := h.present sockId
      rw [hentry] at hpresent
      rw [if_neg (by rw [hguard]; decide), if_neg (by simp [h.open_]), if_neg (by rw [hfree]; decide),
        hold, hnew, if_neg hmore, hfd]
      refine .inl ⟨rfl, h.open_, h.tracks, h.interest, ?_⟩
      intro ctl hctl
      rcases List.mem_append.mp hctl with hctl | hctl
      · exact h.ctls ctl hctl
      · cases List.mem_singleton.mp hctl
        by_cases hfirst : old = 0
        · have habsent : sockId ∉ r.interest := fun hmem => hpresent.mp hmem hfirst
          simp [hzero.mpr hfirst, habsent]
        · have hmem : sockId ∈ r.interest := hpresent.mpr hfirst
          have hevents : addEvents 0 old ≠ 0 := fun hnone => hfirst (hzero.mp hnone)
          simp [hevents, hmem]

theorem epollCtl_flag (r : EpollReactor) (op : EpollOp) (fd : Int) (events : UInt16) (able flag : Bool) :
    (({ r with wantExit := flag } : EpollReactor).epollCtl op fd events able).1 =
      { (r.epollCtl op fd events able).1 with wantExit := flag } := by
  unfold epollCtl
  dsimp only
  generalize decide (fd ∈ r.interest) = present
  cases able <;> cases op <;> cases present <;> rfl

/-- A reactor that is about to exit still removes handlers. -/
theorem removeHandler_flag (r : EpollReactor) (sockId : Int) (mask : UInt64) (able flag : Bool) :
    ({ r with wantExit := flag } : EpollReactor).removeHandler sockId mask able =
      { r.removeHandler sockId mask able with wantExit := flag } := by
  unfold removeHandler
  dsimp only
  split
  · rfl
  · split
    · rfl
    · split
      · rfl
      · rename_i oldInfo _
        split
        · rfl
        · rw [epollCtl_flag]

end EpollReactor

namespace TaskReactor

variable {r : TaskReactor}

def entries (r : TaskReactor) : Registry := fun fd =>
  (r.reactor.handlerMgr.sockId2HandlerInfo[fd]?).map fun info => (info.handler, interests info.mask)

/-- The reactor works, or would if it were not about to exit. -/
def Live (r : TaskReactor) : Prop := EpollReactor.Inv { r.reactor with wantExit := false } r.entries

theorem entries_of_inv {reactor : EpollReactor} {t : Registry} (h : reactor.Inv t) (pipe : Int) :
    entries ⟨pipe, reactor⟩ = t := funext h.tracks.same

theorem live_init {pipe : Int} (self : Nat) (hpipe : pipe ≠ -1) (hfd : asFd pipe = pipe) :
    Live ⟨pipe, .init pipe self⟩ ∧
      entries ⟨pipe, .init pipe self⟩ = Function.update Registry.empty pipe (some (self, {.read})) := by
  have hinit := EpollReactor.init_inv self hpipe hfd
  have hentries := entries_of_inv hinit pipe
  refine ⟨?_, hentries⟩
  unfold Live
  rw [hentries]
  exact hinit

theorem Live.fini (h : r.Live) : r.fini.Live := h

theorem Live.addHandler (h : r.Live) (hopen : r.reactor.wantExit = false) {sockId : Int}
    (hfd : asFd sockId = sockId) (handler : Nat) (mask : UInt64) (able able' : Bool) {reactor : EpollReactor}
    {done : Bool} (hadd : r.reactor.addHandler sockId (some handler) mask able able' = (reactor, done)) :
    Live ⟨r.pipe, reactor⟩ ∧ reactor.wantExit = false ∧
      (done = false ∧ entries ⟨r.pipe, reactor⟩ = r.entries ∨
        done = true ∧ (r.entries.add sockId (some handler) (interests mask)).2 = true ∧
          entries ⟨r.pipe, reactor⟩ = (r.entries.add sockId (some handler) (interests mask)).1) := by
  have hinv : r.reactor.Inv r.entries := by
    have hsame : ({ r.reactor with wantExit := false } : EpollReactor) = r.reactor := by
      rw [← hopen]
    unfold Live at h
    rw [hsame] at h
    exact h
  have hlive : ∀ {t : Registry}, reactor.Inv t → Live ⟨r.pipe, reactor⟩ ∧ reactor.wantExit = false ∧
      entries ⟨r.pipe, reactor⟩ = t := by
    intro t ht
    have hentries := entries_of_inv ht r.pipe
    refine ⟨?_, ht.open_.2, hentries⟩
    have hsame : ({ reactor with wantExit := false } : EpollReactor) = reactor := by
      rw [← ht.open_.2]
    unfold Live
    rw [hentries, hsame]
    exact ht
  rcases hinv.addHandler_able hfd (some handler) mask able able' with ⟨hdone, hnext⟩ | ⟨hdone, hspec, hnext⟩
  · rw [hadd] at hdone hnext
    obtain ⟨hnew, hflag, hentries⟩ := hlive hnext
    exact ⟨hnew, hflag, .inl ⟨hdone, hentries⟩⟩
  · rw [hadd] at hdone hnext
    obtain ⟨hnew, hflag, hentries⟩ := hlive hnext
    exact ⟨hnew, hflag, .inr ⟨hdone, hspec, hentries⟩⟩

theorem Live.removeHandler (h : r.Live) {sockId : Int} (hfd : asFd sockId = sockId) (mask : UInt64) :
    Live ⟨r.pipe, r.reactor.removeHandler sockId mask true⟩ ∧
      (r.reactor.removeHandler sockId mask true).wantExit = r.reactor.wantExit ∧
      entries ⟨r.pipe, r.reactor.removeHandler sockId mask true⟩ = r.entries.remove sockId (interests mask) := by
  have hnext := EpollReactor.Inv.removeHandler h hfd mask
  rw [EpollReactor.removeHandler_flag] at hnext
  have hentries : entries ⟨r.pipe, r.reactor.removeHandler sockId mask true⟩ =
      r.entries.remove sockId (interests mask) := funext hnext.tracks.same
  refine ⟨?_, ?_, hentries⟩
  · unfold Live
    rw [hentries]
    exact hnext
  · have hflag : r.reactor.removeHandler sockId mask true =
        { r.reactor.removeHandler sockId mask true with wantExit := r.reactor.wantExit } :=
      EpollReactor.removeHandler_flag r.reactor sockId mask true r.reactor.wantExit
    exact (congrArg EpollReactor.wantExit hflag).trans rfl

end TaskReactor

/-- The masks of connectors, and of all the other handlers. -/
def kindMasks (isConnector : Bool) : List UInt64 :=
  if isConnector then [0, 1, 2, 3] else [0, 1, 4, 5, 8, 9, 12, 13, 16, 17, 20, 21, 24, 25, 28, 29]

/-- What a mask says of the I/O reactors. -/
def ioInterests (mask : UInt64) : Finset Interest := interests (ioMask mask)

theorem kindMasks_closed {isConnector : Bool} {a b : UInt64} (ha : a ∈ kindMasks isConnector)
    (hb : b ∈ kindMasks isConnector) : a ||| b ∈ kindMasks isConnector ∧ a &&& ~~~b ∈ kindMasks isConnector := by
  cases isConnector
  · refine forall_mem_of_all₂
      (p := fun a b => a ||| b ∈ kindMasks false ∧ a &&& ~~~b ∈ kindMasks false) ?_ ha hb
    decide +kernel
  · refine forall_mem_of_all₂
      (p := fun a b => a ||| b ∈ kindMasks true ∧ a &&& ~~~b ∈ kindMasks true) ?_ ha hb
    decide +kernel

theorem ioInterests_ops {isConnector : Bool} {a b : UInt64} (ha : a ∈ kindMasks isConnector)
    (hb : b ∈ kindMasks isConnector) : ioInterests (a ||| b) = ioInterests a ∪ ioInterests b ∧
      ioInterests (a &&& ~~~b) = ioInterests a \ ioInterests b := by
  cases isConnector
  · refine forall_mem_of_all₂ (p := fun a b =>
      ioInterests (a ||| b) = ioInterests a ∪ ioInterests b ∧
        ioInterests (a &&& ~~~b) = ioInterests a \ ioInterests b) ?_ ha hb
    decide +kernel
  · refine forall_mem_of_all₂ (p := fun a b =>
      ioInterests (a ||| b) = ioInterests a ∪ ioInterests b ∧
        ioInterests (a &&& ~~~b) = ioInterests a \ ioInterests b) ?_ ha hb
    decide +kernel

/-- How the code looks at a mask. -/
theorem mask_facts {isConnector : Bool} {a : UInt64} (ha : a ∈ kindMasks isConnector) :
    (bitEnabled a (ioMask a) = true ↔ ioInterests a ≠ ∅) ∧
      (bitEnabled a maskAccept = false → ioMask a = a ∧ (a ≠ 0 → ioInterests a ≠ ∅)) ∧
      knownMask (ioMask a) = ioMask a := by
  cases isConnector
  · refine forall_mem_of_all (p := fun a => (bitEnabled a (ioMask a) = true ↔ ioInterests a ≠ ∅) ∧
      (bitEnabled a maskAccept = false → ioMask a = a ∧ (a ≠ 0 → ioInterests a ≠ ∅)) ∧
      knownMask (ioMask a) = ioMask a) ?_ ha
    decide +kernel
  · refine forall_mem_of_all (p := fun a => (bitEnabled a (ioMask a) = true ↔ ioInterests a ≠ ∅) ∧
      (bitEnabled a maskAccept = false → ioMask a = a ∧ (a ≠ 0 → ioInterests a ≠ ∅)) ∧
      knownMask (ioMask a) = ioMask a) ?_ ha
    decide +kernel

namespace TpReactorTask

/-- A call with a descriptor of the handler. A connector asks for nothing but connecting, and a
handler that is in an I/O reactor stays with its descriptor. -/
structure Uses (isConnector : Nat → Bool) (w : TpReactorTask) (sockId : Int) (handler : Nat) (mask : UInt64) :
    Prop where
  int : asFd sockId = sockId
  pipes : ∀ r ∈ w.ioReactors, sockId ≠ r.pipe
  kind : knownMask mask ∈ kindMasks (isConnector handler)
  own : (w.handlerOf handler).reactor ≠ none → ioInterests (knownMask mask) ≠ ∅ →
    sockId = (w.handlerOf handler).sockId

instance (isConnector : Nat → Bool) (w : TpReactorTask) (sockId : Int) (handler : Nat) (mask : UInt64) :
    Decidable (Uses isConnector w sockId handler mask) :=
  decidable_of_iff (asFd sockId = sockId ∧ (∀ r ∈ w.ioReactors, sockId ≠ r.pipe) ∧
      knownMask mask ∈ kindMasks (isConnector handler) ∧ ((w.handlerOf handler).reactor ≠ none →
        ioInterests (knownMask mask) ≠ ∅ → sockId = (w.handlerOf handler).sockId))
    ⟨fun h => ⟨h.1, h.2.1, h.2.2.1, h.2.2.2⟩, fun h => ⟨h.int, h.pipes, h.kind, h.own⟩⟩

/-- What callers keep to. Pipes are descriptors, and a task is started again only when its handlers
are gone. -/
def Owned (isConnector : Nat → Bool) (w : TpReactorTask) : TaskCall → Prop
  | .start _ pipes _ _ => (∀ pipe ∈ pipes, pipe.1 ≠ -1 ∧ asFd pipe.1 = pipe.1) ∧
      ∀ entry ∈ w.handlers.toList, entry.2.reactor = none
  | .addHandler sockId handler mask _ _ => Uses isConnector w sockId handler mask
  | .removeHandler sockId handler mask => Uses isConnector w sockId handler mask
  | _ => True

instance (isConnector : Nat → Bool) (w : TpReactorTask) (call : TaskCall) : Decidable (Owned isConnector w call) := by
  cases call <;> unfold Owned <;> infer_instance

/-- The reactors of the threads in the order in which these begin. -/
def slots (count : Nat) : List (Option Nat) :=
  (List.range count).map fun k => if k = 0 then none else some (k - 1)

/-- How far the task has come. -/
structure Life (w : TpReactorTask) : Prop where
  stopped : w.total = 0 → w.threads = 0 ∧ w.caller = .nobody ∧ w.wantExit = false ∧ w.ioReactors = []
  started : w.total ≠ 0 → w.acceptThreadCount = 1 ∧ 0 < w.ioThreadCount
  begun : w.begun = slots w.curThreadCount
  cur : w.curThreadCount ≤ w.threads ∧ w.threads ≤ w.total
  reactors : 0 < w.threads → w.ioReactors.length = w.ioThreadCount
  starting : w.caller = .starting ∨ w.caller = .looking → w.threads = w.total
  alert : w.caller = .starting → w.initFlag = true ∨ w.curThreadCount < w.total
  running : w.caller = .nobody → w.curThreadCount = w.total
  exiting : w.wantExit = true ↔ w.caller = .stopping
  ended : w.ended ≤ w.curThreadCount

structure Inv (isConnector : Nat → Bool) (w : TpReactorTask) : Prop where
  life : w.Life
  live : ∀ r ∈ w.ioReactors, r.Live ∧ r.reactor.wantExit = w.wantExit
  accept : ∀ r ∈ w.acceptReactor, r.Live ∧ r.reactor.wantExit = w.wantExit
  entry : ∀ i r, w.ioReactors[i]? = some r → ∀ fd handler held, r.entries fd = some (handler, held) →
    fd ≠ r.pipe → (w.handlerOf handler).reactor = some i ∧ (w.handlerOf handler).sockId = fd
  held : w.total ≠ 0 → ∀ handler i, (w.handlerOf handler).reactor = some i → ∃ r, w.ioReactors[i]? = some r ∧
    (w.handlerOf handler).sockId ≠ r.pipe ∧
    r.entries (w.handlerOf handler).sockId = some (handler, ioInterests (w.handlerOf handler).mask)
  reactor : ∀ handler, (w.handlerOf handler).reactor = none ↔ ioInterests (w.handlerOf handler).mask = ∅
  masks : ∀ handler, (w.handlerOf handler).mask ∈ kindMasks (isConnector handler)

variable {isConnector : Nat → Bool} {w : TpReactorTask}

theorem inv_init (isConnector : Nat → Bool) : init.Inv isConnector where
  life := by
    refine ⟨fun _ => ⟨rfl, rfl, rfl, rfl⟩, fun h => absurd rfl h, rfl, ⟨Nat.le_refl _, Nat.le_refl _⟩,
      fun h => absurd h (Nat.lt_irrefl 0), fun h => ?_, fun h => ?_, fun _ => rfl,
      ⟨fun h => ?_, fun h => ?_⟩, Nat.le_refl _⟩
    · rcases h with h | h <;> cases h
    · cases h
    · cases h
    · cases h
  live r hr := absurd hr List.not_mem_nil
  accept r hr := by cases hr
  entry i r hr := by cases hr
  held h := absurd rfl h
  reactor handler := by
    refine ⟨fun _ => ?_, fun _ => rfl⟩
    show ioInterests 0 = ∅
    decide
  masks handler := by
    show (0 : UInt64) ∈ kindMasks (isConnector handler)
    cases isConnector handler <;> decide

theorem handlerOf_setHandler (w : TpReactorTask) (handler other : Nat) (state : TaskHandler) :
    (w.setHandler handler state).handlerOf other = if other = handler then state else w.handlerOf other := by
  unfold setHandler handlerOf
  dsimp only
  rw [Tables.getElem?_insert_if]
  split <;> rfl

/-- What calls about handlers leave alone. -/
theorem Life.congr (h : w.Life) {reactors : List TaskReactor} (hlength : reactors.length = w.ioReactors.length)
    (accept : Option TaskReactor) (handlers : ExtTreeMap Nat TaskHandler) :
    Life { w with ioReactors := reactors, acceptReactor := accept, handlers := handlers } := by
  refine ⟨fun htotal => ?_, h.started, h.begun, h.cur, fun hthreads => hlength.trans (h.reactors hthreads),
    h.starting, h.alert, h.running, h.exiting, h.ended⟩
  obtain ⟨hthreads, hcaller, hexit, hreactors⟩ := h.stopped htotal
  refine ⟨hthreads, hcaller, hexit, ?_⟩
  rw [hreactors, List.length_nil] at hlength
  exact List.length_eq_zero_iff.mp hlength

theorem Inv.withAccept (h : w.Inv isConnector) {accept : Option TaskReactor}
    (haccept : ∀ r ∈ accept, r.Live ∧ r.reactor.wantExit = w.wantExit) :
    Inv isConnector { w with acceptReactor := accept } :=
  ⟨h.life.congr rfl accept _, h.live, haccept, h.entry, h.held, h.reactor, h.masks⟩

/-- A handler changes in what its mask does not say of I/O. -/
theorem Inv.remask (h : w.Inv isConnector) {handler : Nat} {mask : UInt64}
    (hmask : mask ∈ kindMasks (isConnector handler))
    (hsame : ioInterests mask = ioInterests (w.handlerOf handler).mask) :
    Inv isConnector (w.setHandler handler { w.handlerOf handler with mask := mask }) := by
  have hother : ∀ other, (w.setHandler handler { w.handlerOf handler with mask := mask }).handlerOf other =
      { w.handlerOf other with mask := if other = handler then mask else (w.handlerOf other).mask } := by
    intro other
    rw [handlerOf_setHandler]
    split
    · rename_i heq
      rw [heq]
    · rfl
  have hio : ∀ other, ioInterests (if other = handler then mask else (w.handlerOf other).mask) =
      ioInterests (w.handlerOf other).mask := by
    intro other
    split
    · rename_i heq
      rw [heq]
      exact hsame
    · rfl
  refine ⟨h.life.congr rfl _ _, h.live, h.accept, ?_, ?_, ?_, ?_⟩
  · intro i r hr fd other held hentry hfd
    rw [hother]
    exact h.entry i r hr fd other held hentry hfd
  · intro htotal other i hreactor
    rw [hother] at hreactor ⊢
    dsimp only at hreactor ⊢
    rw [hio]
    exact h.held htotal other i hreactor
  · intro other
    rw [hother]
    dsimp only
    rw [hio]
    exact h.reactor other
  · intro other
    rw [hother]
    dsimp only
    split
    · rename_i heq
      rw [heq]
      exact hmask
    · exact h.masks other

theorem getElem?_set_cases {reactors : List TaskReactor} {i j : Nat} {r s : TaskReactor}
    (hs : (reactors.set i r)[j]? = some s) : i = j ∧ s = r ∨ i ≠ j ∧ reactors[j]? = some s := by
  rw [List.getElem?_set] at hs
  split at hs
  · rename_i heq
    split at hs
    · exact .inl ⟨heq, (Option.some.inj hs).symm⟩
    · cases hs
  · rename_i hne
    exact .inr ⟨hne, hs⟩

/-- A reactor whose entries stay. -/
theorem Inv.renew (h : w.Inv isConnector) {i : Nat} {r r' : TaskReactor} (hr : w.ioReactors[i]? = some r)
    (hpipe : r'.pipe = r.pipe) (hlive : r'.Live ∧ r'.reactor.wantExit = w.wantExit)
    (hentries : r'.entries = r.entries) : Inv isConnector { w with ioReactors := w.ioReactors.set i r' } := by
  have hlt := (List.getElem?_eq_some_iff.mp hr).1
  refine ⟨h.life.congr List.length_set _ _, ?_, h.accept, ?_, ?_, h.reactor, h.masks⟩
  · intro s hs
    rcases List.mem_or_eq_of_mem_set hs with hs | rfl
    · exact h.live s hs
    · exact hlive
  · intro j s hs fd handler held hentry hfd
    rcases getElem?_set_cases hs with ⟨rfl, rfl⟩ | ⟨-, hs⟩
    · exact h.entry i r hr fd handler held (hentries ▸ hentry) (hpipe ▸ hfd)
    · exact h.entry j s hs fd handler held hentry hfd
  · intro htotal handler j hin
    obtain ⟨s, hs, hapart, hentry⟩ := h.held htotal handler j hin
    by_cases hij : i = j
    · subst hij
      cases hr.symm.trans hs
      refine ⟨r', List.getElem?_set_self hlt, ?_, ?_⟩
      · rw [hpipe]
        exact hapart
      · rw [hentries]
        exact hentry
    · exact ⟨s, (List.getElem?_set_ne hij).trans hs, hapart, hentry⟩

/-- The entry of a handler in an I/O reactor. -/
def entryOf (handler : Nat) (mask : UInt64) : Option (Nat × Finset Interest) :=
  if ioInterests mask = ∅ then none else some (handler, ioInterests mask)

/-- A handler and its entry in one reactor change together. -/
theorem Inv.update (h : w.Inv isConnector) {i : Nat} {r r' : TaskReactor} (hr : w.ioReactors[i]? = some r)
    (hpipe : r'.pipe = r.pipe) (hlive : r'.Live ∧ r'.reactor.wantExit = w.wantExit) {fd : Int}
    (hfd : fd ≠ r.pipe) {handler : Nat} {state : TaskHandler}
    (hentries : r'.entries = Function.update r.entries fd (entryOf handler state.mask))
    (hnobody : r.entries fd = none ∨ ∃ held, r.entries fd = some (handler, held))
    (hbefore : (w.handlerOf handler).reactor = none ∨
      (w.handlerOf handler).reactor = some i ∧ (w.handlerOf handler).sockId = fd)
    (hreactor : state.reactor = if ioInterests state.mask = ∅ then none else some i)
    (hsock : ioInterests state.mask ≠ ∅ → state.sockId = fd)
    (hmask : state.mask ∈ kindMasks (isConnector handler)) :
    Inv isConnector (({ w with ioReactors := w.ioReactors.set i r' } : TpReactorTask).setHandler handler state) := by
  have hlt := (List.getElem?_eq_some_iff.mp hr).1
  refine ⟨h.life.congr List.length_set _ _, ?_, h.accept, ?_, ?_, ?_, ?_⟩
  · intro s hs
    rcases List.mem_or_eq_of_mem_set hs with hs | rfl
    · exact h.live s hs
    · exact hlive
  · intro j s hs fd' other held hentry hfd'
    rw [handlerOf_setHandler]
    rcases getElem?_set_cases hs with ⟨rfl, rfl⟩ | ⟨hne, hs⟩
    · rw [hentries] at hentry
      by_cases hsame : fd' = fd
      · subst hsame
        rw [Function.update_self] at hentry
        unfold entryOf at hentry
        split at hentry
        · cases hentry
        · rename_i hsome
          cases hentry
          rw [if_pos rfl, hreactor, if_neg hsome]
          exact ⟨rfl, hsock hsome⟩
      · rw [Function.update_of_ne hsame] at hentry
        obtain ⟨hin, hsock'⟩ := h.entry i r hr fd' other held hentry (hpipe ▸ hfd')
        have hother : other ≠ handler := by
          rintro rfl
          rcases hbefore with hnone | ⟨-, hown⟩
          · rw [hnone] at hin
            cases hin
          · exact hsame (hsock'.symm.trans hown)
        rw [if_neg hother]
        exact ⟨hin, hsock'⟩
    · obtain ⟨hin, hsock'⟩ := h.entry j s hs fd' other held hentry hfd'
      have hother : other ≠ handler := by
        rintro rfl
        rcases hbefore with hnone | ⟨hown, -⟩
        · rw [hnone] at hin
          cases hin
        · exact hne (Option.some.inj (hown.symm.trans hin))
      rw [if_neg hother]
      exact ⟨hin, hsock'⟩
  · intro htotal other j hin
    rw [handlerOf_setHandler] at hin ⊢
    by_cases hother : other = handler
    · subst hother
      rw [if_pos rfl] at hin ⊢
      rw [hreactor] at hin
      split at hin
      · cases hin
      · rename_i hsome
        cases hin
        refine ⟨r', List.getElem?_set_self hlt, ?_, ?_⟩
        · rw [hsock hsome, hpipe]
          exact hfd
        · rw [hsock hsome, hentries, Function.update_self]
          exact if_neg hsome
    · rw [if_neg hother] at hin ⊢
      obtain ⟨s, hs, hpipe', hentry⟩ := h.held htotal other j hin
      by_cases hij : i = j
      · subst hij
        cases hr.symm.trans hs
        have hapart : (w.handlerOf other).sockId ≠ fd := by
          intro heq
          rw [heq] at hentry
          rcases hnobody with hnone | ⟨held, hown⟩
          · rw [hnone] at hentry
            cases hentry
          · rw [hown] at hentry
            cases hentry
            exact hother rfl
        refine ⟨r', List.getElem?_set_self hlt, by rw [hpipe]; exact hpipe', ?_⟩
        rw [hentries]
        exact (Function.update_of_ne hapart _ _).trans hentry
      · exact ⟨s, (List.getElem?_set_ne hij).trans hs, hpipe', hentry⟩
  · intro other
    rw [handlerOf_setHandler]
    split
    · rw [hreactor]
      split
      · rename_i hnone
        exact ⟨fun _ => hnone, fun _ => rfl⟩
      · rename_i hsome
        exact ⟨fun hnone => absurd hnone (Option.some_ne_none _), fun hnone => absurd hnone hsome⟩
    · exact h.reactor other
  · intro other
    rw [handlerOf_setHandler]
    split
    · rename_i heq
      rw [heq]
      exact hmask
    · exact h.masks other

theorem add_entryOf {t : Registry} {sockId : Int} {handler : Nat} {old more new : UInt64} (hsock : sockId ≠ -1)
    (hentry : t sockId = entryOf handler old) (hops : ioInterests new = ioInterests old ∪ ioInterests more)
    (hmore : ioInterests more ≠ ∅) (hnew : ioInterests new ≠ ∅) :
    (t.add sockId (some handler) (ioInterests more)).1 = Function.update t sockId (entryOf handler new) := by
  unfold Registry.add
  dsimp only
  rw [if_neg (not_or.mpr ⟨hsock, hmore⟩), hentry]
  unfold entryOf Registry.addEntry
  rw [if_neg hnew, hops]
  split
  · rename_i hnone
    split at hnone
    · rename_i hold
      rw [hold, Finset.empty_union]
    · cases hnone
  · rename_i hsome
    split at hsome
    · cases hsome
    · cases hsome
      rw [if_pos rfl]

theorem remove_entryOf {t : Registry} {sockId : Int} {handler : Nat} {old less new : UInt64}
    (hsock : sockId ≠ -1) (hentry : t sockId = entryOf handler old)
    (hops : ioInterests new = ioInterests old \ ioInterests less) :
    t.remove sockId (ioInterests less) = Function.update t sockId (entryOf handler new) := by
  unfold Registry.remove
  rw [if_neg hsock, hentry]
  unfold entryOf Registry.removeEntry
  rw [hops]
  split
  · rename_i hold
    rw [hold, Finset.empty_sdiff, if_pos rfl]
    rfl
  · rfl

variable {sockId : Int} {handler : Nat} {mask : UInt64} {i : Nat} {r : TaskReactor}

/-- The entry of a handler that stays in its reactor is what its mask says. -/
theorem Inv.entry_own (h : w.Inv isConnector) (htotal : w.total ≠ 0) (hr : w.ioReactors[i]? = some r)
    (hin : (w.handlerOf handler).reactor = some i) :
    r.entries (w.handlerOf handler).sockId = entryOf handler (w.handlerOf handler).mask ∧
      (w.handlerOf handler).sockId ≠ r.pipe := by
  obtain ⟨r', hr', hapart, hentry⟩ := h.held htotal handler i hin
  cases hr.symm.trans hr'
  have hsome : ioInterests (w.handlerOf handler).mask ≠ ∅ := by
    intro hnone
    rw [(h.reactor handler).mpr hnone] at hin
    cases hin
  refine ⟨?_, hapart⟩
  rw [hentry]
  exact (if_neg hsome).symm

/-- A descriptor that a reactor takes from a handler has the entry that the mask of this says. -/
theorem Inv.entry_added (h : w.Inv isConnector) (htotal : w.total ≠ 0) (hr : w.ioReactors[i]? = some r)
    (huses : w.Uses isConnector sockId handler mask) (hmore : ioInterests (knownMask mask) ≠ ∅)
    (hplace : (w.handlerOf handler).reactor = none ∨ (w.handlerOf handler).reactor = some i)
    (hfree : r.entries sockId = none ∨ ∃ held, r.entries sockId = some (handler, held)) :
    r.entries sockId = entryOf handler (w.handlerOf handler).mask ∧
      ((w.handlerOf handler).reactor = none ∨
        (w.handlerOf handler).reactor = some i ∧ (w.handlerOf handler).sockId = sockId) := by
  rcases hplace with hnone | hin
  · refine ⟨?_, .inl hnone⟩
    unfold entryOf
    rw [if_pos ((h.reactor handler).mp hnone)]
    rcases hfree with hfree | ⟨held, hown⟩
    · exact hfree
    · have hpipe : sockId ≠ r.pipe := huses.pipes r (List.mem_of_getElem? hr)
      rw [(h.entry i r hr sockId handler held hown hpipe).1] at hnone
      cases hnone
  · have hsock : sockId = (w.handlerOf handler).sockId :=
      huses.own (by rw [hin]; exact Option.some_ne_none i) hmore
    refine ⟨?_, .inr ⟨hin, hsock.symm⟩⟩
    rw [hsock]
    exact (h.entry_own htotal hr hin).1

/-- `AddHandler` of one I/O reactor. -/
theorem Inv.addInto (h : w.Inv isConnector) (htotal : w.total ≠ 0) (hrunning : w.wantExit = false)
    (hr : w.ioReactors[i]? = some r) (huses : w.Uses isConnector sockId handler mask) (hsock : sockId ≠ -1)
    (hplain : ioMask (knownMask mask) = knownMask mask) (hmore : ioInterests (knownMask mask) ≠ ∅)
    (hplace : (w.handlerOf handler).reactor = none ∨ (w.handlerOf handler).reactor = some i)
    {able able' : Bool} {reactor : EpollReactor} {done : Bool}
    (hadd : r.reactor.addHandler sockId (some handler) (knownMask mask) able able' = (reactor, done)) :
    Inv isConnector (if done then
      ({ w with ioReactors := w.ioReactors.set i ⟨r.pipe, reactor⟩ } : TpReactorTask).setHandler handler
        ⟨some i, (w.handlerOf handler).mask ||| knownMask mask, sockId⟩
      else { w with ioReactors := w.ioReactors.set i ⟨r.pipe, reactor⟩ }) := by
  have hmem : r ∈ w.ioReactors := List.mem_of_getElem? hr
  obtain ⟨hlive, hflag⟩ := h.live r hmem
  have hsame : interests (knownMask mask) = ioInterests (knownMask mask) := by
    unfold ioInterests
    rw [hplain]
  obtain ⟨hnext, hopen, hentries⟩ := hlive.addHandler (hflag.trans hrunning) huses.int handler _ able able' hadd
  rw [hsame] at hentries
  have hstays : TaskReactor.Live ⟨r.pipe, reactor⟩ ∧ reactor.wantExit = w.wantExit := ⟨hnext, hopen.trans hrunning.symm⟩
  rcases hentries with ⟨rfl, hentries⟩ | ⟨rfl, hdone, hentries⟩
  · exact h.renew hr rfl hstays hentries
  · have hkind := kindMasks_closed (h.masks handler) huses.kind
    have hops := ioInterests_ops (h.masks handler) huses.kind
    have hfree : r.entries sockId = none ∨ ∃ held, r.entries sockId = some (handler, held) := by
      cases hold : r.entries sockId with
      | none => exact .inl rfl
      | some entry =>
        obtain ⟨owner, held⟩ := entry
        unfold Registry.add at hdone
        dsimp only at hdone
        rw [if_neg (not_or.mpr ⟨hsock, hmore⟩), hold] at hdone
        unfold Registry.addEntry at hdone
        dsimp only at hdone
        split at hdone
        · rename_i howner
          exact .inr ⟨held, by rw [howner]⟩
        · cases hdone
    obtain ⟨hentry, hbefore⟩ := h.entry_added htotal hr huses hmore hplace hfree
    have hnew : ioInterests ((w.handlerOf handler).mask ||| knownMask mask) ≠ ∅ := by
      rw [hops.1]
      exact fun hnone => hmore (Finset.union_eq_empty.mp hnone).2
    refine @Inv.update _ _ h _ _ ⟨r.pipe, reactor⟩ hr rfl hstays _ (huses.pipes r hmem) _ _ ?_ hfree hbefore
      (if_neg hnew).symm (fun _ => rfl) hkind.1
    rw [hentries]
    exact add_entryOf hsock hentry hops.1 hmore hnew

theorem Inv.addHandler (h : w.Inv isConnector) (huses : w.Uses isConnector sockId handler mask)
    (able able' : Bool) : Inv isConnector (w.addHandler sockId handler mask able able').1 := by
  obtain ⟨-, hplain, -⟩ := mask_facts huses.kind
  unfold TpReactorTask.addHandler
  dsimp only
  split
  · exact h
  · rename_i hvalid
    simp only [Bool.or_eq_true, decide_eq_true_eq, not_or] at hvalid
    split
    · exact h
    · rename_i hapart
      split
      · exact h
      · rename_i hready
        simp only [Bool.or_eq_true, decide_eq_true_eq, not_or, Decidable.not_not, Bool.not_eq_true] at hready
        obtain ⟨⟨htotal, hthreads⟩, hrunning⟩ := hready
        split
        · rename_i haccept
          split
          · exact h
          · rename_i r hr
            obtain ⟨hlive, hflag⟩ := h.accept r hr
            generalize hadd : r.reactor.addHandler sockId (some handler) maskAccept able able' = answer
            obtain ⟨reactor, done⟩ := answer
            obtain ⟨hnext, hopen, -⟩ :=
              hlive.addHandler (hflag.trans hrunning) huses.int handler _ able able' hadd
            have hkept : Inv isConnector { w with acceptReactor := some ⟨r.pipe, reactor⟩ } :=
              h.withAccept fun r' hr' => Option.some.inj hr' ▸ ⟨hnext, hopen.trans hrunning.symm⟩
            cases done with
            | false => exact hkept
            | true =>
              refine hkept.remask (kindMasks_closed (h.masks handler) huses.kind).1 ?_
              have hnone : ioInterests (knownMask mask) = ∅ := by
                by_contra hsome
                rw [haccept, (mask_facts huses.kind).1.mpr hsome] at hapart
                exact hapart rfl
              rw [(ioInterests_ops (h.masks handler) huses.kind).1, hnone, Finset.union_empty]
              rfl
        · rename_i haccept
          obtain ⟨hplain, hmore⟩ := hplain (by simpa using haccept)
          split
          · exact h
          · rename_i r hr
            have hplace : ∀ i, (w.handlerOf handler).reactor.getD
                (leastLoaded (w.ioReactors.map TaskReactor.getHandlerCount)) = i →
                  (w.handlerOf handler).reactor = none ∨ (w.handlerOf handler).reactor = some i := by
              intro i hi
              cases hin : (w.handlerOf handler).reactor with
              | none => exact .inl rfl
              | some j =>
                rw [hin] at hi
                exact .inr (congrArg some hi)
            generalize hadd : r.reactor.addHandler sockId (some handler) (knownMask mask) able able' = answer
            obtain ⟨reactor, done⟩ := answer
            have hnext := h.addInto htotal hrunning hr huses hvalid.1 hplain (hmore hvalid.2) (hplace _ rfl) hadd
            cases done with
            | false => exact hnext
            | true => exact hnext

theorem Inv.removeIo (h : w.Inv isConnector) (htotal : w.total ≠ 0) (hsock : sockId ≠ -1)
    (huses : w.Uses isConnector sockId handler mask) : Inv isConnector
      ((w.removeIo sockId handler (knownMask mask)).setHandler handler { w.handlerOf handler with
        reactor := if bitEnabled ((w.handlerOf handler).mask &&& ~~~knownMask mask)
          (ioMask ((w.handlerOf handler).mask &&& ~~~knownMask mask)) then (w.handlerOf handler).reactor else none
        mask := (w.handlerOf handler).mask &&& ~~~knownMask mask }) := by
  have hkind := (kindMasks_closed (h.masks handler) huses.kind).2
  have hops := (ioInterests_ops (h.masks handler) huses.kind).2
  have hnew := (mask_facts hkind).1
  generalize (w.handlerOf handler).mask &&& ~~~knownMask mask = newMask at hkind hops hnew ⊢
  have hsame : ioInterests newMask = ioInterests (w.handlerOf handler).mask → Inv isConnector
      (w.setHandler handler { w.handlerOf handler with
        reactor := if bitEnabled newMask (ioMask newMask) then (w.handlerOf handler).reactor else none
        mask := newMask }) := by
    intro hsame
    have hreactor : (if bitEnabled newMask (ioMask newMask) then (w.handlerOf handler).reactor else none) =
        (w.handlerOf handler).reactor := by
      split
      · rfl
      · rename_i hnone
        rw [hnew, hsame, not_not] at hnone
        exact ((h.reactor handler).mpr hnone).symm
    rw [hreactor]
    exact h.remask hkind hsame
  unfold TpReactorTask.removeIo
  split
  · rename_i hless
    rw [(mask_facts huses.kind).1] at hless
    cases hin : (w.handlerOf handler).reactor with
    | none =>
      rw [hin] at hsame
      dsimp only
      refine hsame ?_
      rw [hops, (h.reactor handler).mp hin, Finset.empty_sdiff]
    | some i =>
      obtain ⟨r, hr, hapart, -⟩ := h.held htotal handler i hin
      have hown : sockId = (w.handlerOf handler).sockId :=
        huses.own (by rw [hin]; exact Option.some_ne_none i) hless
      obtain ⟨hlive, hflag⟩ := h.live r (List.mem_of_getElem? hr)
      obtain ⟨hnext, hopen, hentries⟩ := hlive.removeHandler huses.int (ioMask (knownMask mask))
      have hentry := (h.entry_own htotal hr hin).1
      rw [← hown] at hentry hapart
      dsimp only
      unfold removeFrom
      rw [hr]
      dsimp only
      refine @Inv.update _ _ h _ _ ⟨r.pipe, r.reactor.removeHandler sockId (ioMask (knownMask mask)) true⟩ hr rfl
        ⟨hnext, hopen.trans hflag⟩ _ hapart _ _ ?_ ?_ (.inr ⟨hin, hown.symm⟩) ?_ (fun _ => hown.symm) hkind
      · rw [hentries]
        exact remove_entryOf hsock hentry hops
      · rw [hentry]
        unfold entryOf
        split
        · exact .inl rfl
        · exact .inr ⟨_, rfl⟩
      · dsimp only
        split
        · rename_i hleft
          rw [if_neg (hnew.mp hleft)]
        · rename_i hleft
          rw [hnew, not_not] at hleft
          rw [if_pos hleft]
  · rename_i hless
    rw [(mask_facts huses.kind).1, not_not] at hless
    refine hsame ?_
    rw [hops, hless, Finset.sdiff_empty]

theorem Inv.removeHandler (h : w.Inv isConnector) (huses : w.Uses isConnector sockId handler mask) :
    Inv isConnector (w.removeHandler sockId handler mask) := by
  unfold TpReactorTask.removeHandler
  dsimp only
  split
  · exact h
  · rename_i hvalid
    simp only [Bool.or_eq_true, decide_eq_true_eq, not_or] at hvalid
    split
    · exact h
    · rename_i hready
      simp only [Bool.or_eq_true, decide_eq_true_eq, not_or] at hready
      split
      · refine Inv.removeIo (h.withAccept ?_) hready.1 hvalid.1 ⟨huses.int, huses.pipes, huses.kind, huses.own⟩
        intro r' hr'
        obtain ⟨r, hr, rfl⟩ := Option.mem_map.mp hr'
        obtain ⟨hlive, hflag⟩ := h.accept r hr
        obtain ⟨hnext, hopen, -⟩ := hlive.removeHandler huses.int maskAccept
        exact ⟨hnext, hopen.trans hflag⟩
      · exact h.removeIo hready.1 hvalid.1 huses

end TpReactorTask

end Pronet.Net
