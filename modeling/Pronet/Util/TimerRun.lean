import Pronet.Util.TimerInvariant

/-! A timer factory at work: its calls, the collection passes of the worker, and the
callbacks one by one. The references that the factory takes and gives back are recorded,
each in the step that does so. -/
namespace Pronet.Util

open Std Library Runs

namespace TimerFactory

/-- The node of an id. -/
def nodeOf (f : TimerFactory) (timerId : Nat) : Option TimerData :=
  (f.timerId2ExpireTick[timerId]?).bind fun expireTick =>
    f.timers[(⟨expireTick, timerId⟩ : TimerKey)]?

/-- The nodes that have expired at a tick. -/
def expired (f : TimerFactory) (tick : Int) : List (TimerKey × TimerData) :=
  f.timers.toList.takeWhile fun entry => entry.1.expireTick ≤ tick

end TimerFactory

/-- A node in the batch of the worker, with the pass that has collected it and its tick. -/
structure TimerEntry where
  pass : Nat
  tick : Int
  key : TimerKey
  data : TimerData
  deriving DecidableEq, Repr

def TimerData.repeats (data : TimerData) : Bool := data.recurring || data.heartbeat

/-- A call of `CancelTimer`, and how often the timer had been collected and had fired. -/
structure TimerCancel where
  timerId : Nat
  collected : Nat
  fired : Nat
  deriving DecidableEq, Repr

/-- `issued` has the ids with their kind; `releasing` has the references that
`CancelTimer` gives back behind its section. -/
structure TimerRun where
  factory : TimerFactory
  passes : Nat
  batch : List TimerEntry
  calling : Option TimerEntry
  issued : List (Nat × Bool)
  collected : List TimerEntry
  fired : List TimerEntry
  cancelled : List TimerCancel
  releasing : List Nat
  addRefs : List Nat
  releases : List Nat

inductive TimerEvent
  | scheduleTimer (onTimer : Option Nat) (timeSpan : UInt64) (recurring : Bool) (userData : Int)
      (tick : Int) (timerId : Nat)
  | scheduleHeartbeatTimer (onTimer : Option Nat) (userData : Int) (tick jitter : Int) (timerId : Nat)
  | cancelTimer (timerId : Nat)
  | release (onTimer : Nat)
  | collect (tick : Int)
  | call
  | returned
  deriving DecidableEq, Repr

namespace TimerRun

def start (mmTimer : Bool) : TimerRun :=
  ⟨.start mmTimer, 0, [], none, [], [], [], [], [], [], []⟩

def issuedId (w : TimerRun) (timerId : Nat) : Bool := (w.issued.map Prod.fst).contains timerId

/-- How often a timer is in a list of entries. -/
def timesOf (entries : List TimerEntry) (timerId : Nat) : Nat :=
  entries.countP fun entry => entry.key.timerId = timerId

/-- A function that schedules a timer has returned its id, or 0. -/
def scheduled (w : TimerRun) (r : TimerFactory × Nat) (onTimer : Option Nat) (repeats : Bool) :
    TimerRun :=
  if r.2 = 0 then { w with factory := r.1 }
  else
    { w with
      factory := r.1
      issued := w.issued ++ [(r.2, repeats)]
      addRefs := w.addRefs ++ onTimer.toList }

/-- The node that `CancelTimer` takes out. -/
def cancelledNode (f : TimerFactory) (timerId : Nat) : Option TimerData :=
  if timerId = 0 then none else f.nodeOf timerId

def step (w : TimerRun) : TimerEvent → Option TimerRun
  | .scheduleTimer onTimer timeSpan recurring userData tick timerId =>
      if timerId = 0 || w.issuedId timerId then none
      else some (w.scheduled (w.factory.scheduleTimer onTimer timeSpan recurring userData tick timerId)
        onTimer recurring)
  | .scheduleHeartbeatTimer onTimer userData tick jitter timerId =>
      if timerId = 0 || w.issuedId timerId then none
      else some (w.scheduled (w.factory.scheduleHeartbeatTimer onTimer userData tick jitter timerId)
        onTimer true)
  | .cancelTimer timerId =>
      some { w with
        factory := w.factory.cancelTimer timerId
        releasing := w.releasing ++ ((cancelledNode w.factory timerId).map TimerData.onTimer).toList
        cancelled := w.cancelled ++ if w.issuedId timerId then
          [⟨timerId, timesOf w.collected timerId, timesOf w.fired timerId⟩] else [] }
  | .release onTimer =>
      if w.releasing.contains onTimer then
        some { w with
          releasing := w.releasing.erase onTimer, releases := w.releases ++ [onTimer] }
      else none
  | .collect tick =>
      -- The worker has made all callbacks of its last pass.
      if !w.batch.isEmpty || w.calling.isSome then none
      else
        let batch := (w.factory.expired tick).map fun (key, data) => ⟨w.passes, tick, key, data⟩
        some { w with
          factory := w.factory.collect tick
          passes := w.passes + 1
          batch := batch
          collected := w.collected ++ batch
          addRefs := w.addRefs ++
            ((w.factory.expired tick).filter fun entry => entry.2.repeats).map fun entry => entry.2.onTimer }
  | .call =>
      match w.calling, w.batch with
      | none, entry :: batch =>
          some { w with batch := batch, calling := some entry, fired := w.fired ++ [entry] }
      | _, _ => none
  | .returned =>
      w.calling.map fun entry =>
        { w with calling := none, releases := w.releases ++ [entry.data.onTimer] }

end TimerRun

namespace TimerFactory

/-- The nodes that hold a reference to an observer. -/
def nodesOf (f : TimerFactory) (onTimer : Nat) : Nat :=
  f.timers.toList.countP fun entry => entry.2.onTimer = onTimer

variable {f : TimerFactory}

theorem Linked.nodeOf (h : f.Linked) {key : TimerKey} {data : TimerData}
    (hkey : f.timers[key]? = some data) : f.nodeOf key.timerId = some data := by
  have hmem : key ∈ f.timers := by
    rw [ExtTreeMap.mem_iff_isSome_getElem?, hkey]
    rfl
  rw [TimerFactory.nodeOf, (h key).mp hmem]
  exact hkey

theorem exists_of_nodeOf {timerId : Nat} {data : TimerData} (hnode : f.nodeOf timerId = some data) :
    ∃ key : TimerKey, key.timerId = timerId ∧ f.timers[key]? = some data := by
  obtain ⟨expireTick, -, hkey⟩ := Option.bind_eq_some_iff.mp hnode
  exact ⟨⟨expireTick, timerId⟩, rfl, hkey⟩

theorem Linked.nodeOf_eq_none (h : f.Linked) {timerId : Nat} :
    f.nodeOf timerId = none ↔ f.timerId2ExpireTick[timerId]? = none := by
  constructor
  · intro hnone
    by_contra hsome
    obtain ⟨expireTick, htick⟩ := Option.ne_none_iff_exists'.mp hsome
    have hmem := (h ⟨expireTick, timerId⟩).mpr htick
    rw [ExtTreeMap.mem_iff_isSome_getElem?] at hmem
    obtain ⟨data, hdata⟩ := Option.isSome_iff_exists.mp hmem
    cases (h.nodeOf hdata).symm.trans hnone
  · intro hnone
    rw [TimerFactory.nodeOf, hnone]
    rfl

theorem Linked.nodeOf_insert (h : f.Linked) (key : TimerKey) (data : TimerData)
    (hnew : f.timerId2ExpireTick[key.timerId]? = none) (timerId : Nat) :
    (f.insert key data).nodeOf timerId = if key.timerId = timerId then some data else f.nodeOf timerId := by
  unfold TimerFactory.nodeOf TimerFactory.insert
  dsimp only
  rw [ExtTreeMap.getElem?_insert]
  simp only [Nat.compare_eq_eq]
  split
  · rename_i hid
    subst hid
    rw [Option.bind_some, ExtTreeMap.getElem?_insertIfNew, if_pos]
    exact ⟨LawfulEqCmp.compare_eq_iff_eq.mpr rfl, h.not_mem hnew⟩
  · rename_i hid
    cases htick : f.timerId2ExpireTick[timerId]? with
    | none => rfl
    | some expireTick =>
      rw [Option.bind_some, Option.bind_some, ExtTreeMap.getElem?_insertIfNew, if_neg]
      rintro ⟨heq, -⟩
      exact hid (congrArg TimerKey.timerId (LawfulEqCmp.compare_eq_iff_eq.mp heq))

theorem nodeOf_erase {key : TimerKey} (timerId : Nat) :
    nodeOf { f with
      timers := f.timers.erase key
      timerId2ExpireTick := f.timerId2ExpireTick.erase key.timerId } timerId =
      if key.timerId = timerId then none else f.nodeOf timerId := by
  unfold TimerFactory.nodeOf
  dsimp only
  rw [ExtTreeMap.getElem?_erase]
  simp only [Nat.compare_eq_eq]
  split
  · rfl
  · rename_i hid
    cases htick : f.timerId2ExpireTick[timerId]? with
    | none => rfl
    | some expireTick =>
      rw [Option.bind_some, Option.bind_some, ExtTreeMap.getElem?_erase, if_neg]
      intro heq
      exact hid (congrArg TimerKey.timerId (LawfulEqCmp.compare_eq_iff_eq.mp heq))

theorem nodesOf_insert {key : TimerKey} (hnew : key ∉ f.timers) (data : TimerData) (onTimer : Nat) :
    (f.insert key data).nodesOf onTimer = f.nodesOf onTimer + if data.onTimer = onTimer then 1 else 0 := by
  have hperm := Tables.toList_insertIfNew_perm data hnew
  have hcount : (f.insert key data).nodesOf onTimer = _ := hperm.countP_eq _
  rw [hcount, List.countP_cons]
  simp only [decide_eq_true_eq]
  rfl

theorem nodesOf_erase {key : TimerKey} {data : TimerData} (hkey : f.timers[key]? = some data)
    (ids : ExtTreeMap Nat Int) (onTimer : Nat) :
    f.nodesOf onTimer = (if data.onTimer = onTimer then 1 else 0) +
      nodesOf { f with timers := f.timers.erase key, timerId2ExpireTick := ids } onTimer := by
  have hperm := Tables.toList_perm_erase hkey
  have hcount : f.nodesOf onTimer = _ := hperm.countP_eq _
  rw [hcount, List.countP_cons, Nat.add_comm]
  simp only [decide_eq_true_eq]
  rfl

end TimerFactory

end Pronet.Util
