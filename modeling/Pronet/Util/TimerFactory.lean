import Mathlib

/-! `CProTimerFactory` between `Start` and `Stop`. A tick read from the clock, a
fresh timer id and the random jitter are arguments of the operation that reads
them. A failed `assert` is remembered, and the program goes on. -/
namespace Pronet.Util

open Std

/-- The fields of `PRO_TIMER_NODE` that `operator<` compares. -/
structure TimerKey where
  expireTick : Int
  timerId : Nat
  deriving DecidableEq, Repr

namespace TimerKey

instance : Ord TimerKey where
  compare := compareLex (compareOn expireTick) (compareOn timerId)

instance : TransOrd TimerKey := inferInstanceAs (TransCmp (compareLex _ _))

instance : LawfulEqOrd TimerKey where
  eq_of_compare {left right} h := by
    have h : compareLex (compareOn expireTick) (compareOn timerId) left right = .eq := h
    simp only [compareLex, compareOn, Ordering.then_eq_eq, Std.compare_eq_iff_eq] at h
    cases left
    cases right
    simp_all

end TimerKey

/-- The other fields of a node. -/
structure TimerData where
  onTimer : Nat
  timeSpan : Int
  recurring : Bool
  heartbeat : Bool
  htbtIndex : Nat
  userData : Int
  deriving DecidableEq, Repr

/-- `m_timers` is a set ordered by the keys, and `asserts` says that every assert
so far has held. -/
structure TimerFactory where
  mmTimer : Bool
  timers : ExtTreeMap TimerKey TimerData
  timerId2ExpireTick : ExtTreeMap Nat Int
  htbtTimeSpan : Int
  htbtCounts : List Nat
  asserts : Bool

/-- A `PRO_INT64`. -/
def int64 (value : Int) : Int := value.bmod (2 ^ 64)

/-- `unsigned long`, one less. -/
def decrement (count : Nat) : Nat := if count = 0 then 2 ^ 64 - 1 else count - 1

namespace TimerFactory

/-- A factory after `Start`. -/
def start (mmTimer : Bool) : TimerFactory :=
  ⟨mmTimer, ∅, ∅, 25 * 1000, List.replicate 1000 0, true⟩

def assert (f : TimerFactory) (condition : Bool) : TimerFactory :=
  { f with asserts := f.asserts && condition }

def assertSizes (f : TimerFactory) : TimerFactory :=
  f.assert (f.timers.size == f.timerId2ExpireTick.size)

/-- Insert a node into both tables. -/
def insert (f : TimerFactory) (key : TimerKey) (data : TimerData) : TimerFactory :=
  { f with
    timers := f.timers.insertIfNew key data
    timerId2ExpireTick := f.timerId2ExpireTick.insert key.timerId key.expireTick }

def scheduleTimer (f : TimerFactory) (onTimer : Option Nat) (timeSpan : UInt64) (recurring : Bool)
    (userData : Int) (tick : Int) (timerId : Nat) : TimerFactory × Nat :=
  let f := (f.assert onTimer.isSome).assert (0 < timeSpan || !recurring)
  match onTimer with
  | none => (f, 0)
  | some onTimer =>
      if timeSpan = 0 && recurring then (f, 0)
      else
        let key := ⟨int64 (tick + timeSpan.toNat), timerId⟩
        let data := ⟨onTimer, int64 timeSpan.toNat, recurring, false, 0, userData⟩
        ((f.insert key data).assertSizes, timerId)

/-- The first of the least counts, and the count. -/
def leastIndex (counts : List Nat) : Nat × Nat :=
  ((counts.drop 1).zipIdx 1).foldl
    (fun best entry => if entry.1 < best.2 then (entry.2, entry.1) else best)
    (0, counts.getD 0 0)

/-- The next multiple of the heartbeat interval, the step of the index, and the jitter. -/
def heartbeatTick (f : TimerFactory) (tick : Int) (index : Nat) (jitter : Int) : Int :=
  let step := f.htbtTimeSpan.tdiv f.htbtCounts.length
  int64 ((int64 (tick + f.htbtTimeSpan - 1)).tdiv f.htbtTimeSpan * f.htbtTimeSpan + step * index +
    jitter)

def scheduleHeartbeatTimer (f : TimerFactory) (onTimer : Option Nat) (userData : Int)
    (tick jitter : Int) (timerId : Nat) : TimerFactory × Nat :=
  let f := f.assert onTimer.isSome
  match onTimer with
  | none => (f, 0)
  | some onTimer =>
      let f := f.assert !f.mmTimer
      if f.mmTimer then (f, 0)
      else
        let index := (leastIndex f.htbtCounts).1
        let f := { f with htbtCounts := f.htbtCounts.modify index (· + 1) }
        let key := ⟨f.heartbeatTick tick index jitter, timerId⟩
        let data := ⟨onTimer, f.htbtTimeSpan, true, true, index, userData⟩
        ((f.insert key data).assertSizes, timerId)

def cancelTimer (f : TimerFactory) (timerId : Nat) : TimerFactory :=
  if timerId = 0 then f
  else
    match f.timerId2ExpireTick[timerId]? with
    | none => f
    | some expireTick =>
        let key : TimerKey := ⟨expireTick, timerId⟩
        match f.timers[key]? with
        | none => f
        | some data =>
            let f := { f with
              timers := f.timers.erase key
              timerId2ExpireTick := f.timerId2ExpireTick.erase timerId }.assertSizes
            if data.heartbeat then
              { f with htbtCounts := f.htbtCounts.modify data.htbtIndex decrement }
            else f

/-- One turn of the second loop of `UpdateHeartbeatTimers`. -/
def reindex (tick : Int) (jitter : Nat → Int) (f : TimerFactory)
    (entry : Nat × TimerKey × TimerData) : TimerFactory :=
  let (index, key, data) := entry
  let steps := f.htbtCounts.length
  let f := { f with
    htbtCounts := if index < steps then f.htbtCounts.set index 1
      else f.htbtCounts.modify (index % steps) (· + 1) }
  let key := ⟨f.heartbeatTick tick index (jitter index), key.timerId⟩
  let data := { data with timeSpan := f.htbtTimeSpan, htbtIndex := index }
  (f.insert key data).assertSizes

/-- The heartbeat nodes, in the order of the set. -/
def heartbeats (f : TimerFactory) : List (TimerKey × TimerData) :=
  f.timers.toList.filter fun entry => entry.2.heartbeat

def updateHeartbeatTimers (f : TimerFactory) (htbtIntervalInSeconds : UInt64) (tick : Int)
    (jitter : Nat → Int) : TimerFactory × Bool :=
  let f := f.assert (0 < htbtIntervalInSeconds)
  if htbtIntervalInSeconds = 0 then (f, false)
  else
    let timeSpan := int64 (htbtIntervalInSeconds.toNat * 1000)
    if timeSpan = f.htbtTimeSpan then (f, true)
    else
      let beats := f.heartbeats
      let f := { f with
        htbtTimeSpan := timeSpan
        timers := beats.foldl (fun timers entry => timers.erase entry.1) f.timers }
      ((beats.zipIdx.map fun (entry, index) => (index, entry)).foldl (reindex tick jitter) f, true)

/-- When a node that has expired is due again. -/
def nextTick (tick : Int) (key : TimerKey) (data : TimerData) : Int :=
  if data.heartbeat then
    let offset := key.expireTick.tmod data.timeSpan
    let next :=
      int64 ((int64 (tick + data.timeSpan - 1)).tdiv data.timeSpan * data.timeSpan + offset)
    if next = tick then int64 (next + data.timeSpan) else next
  else int64 (tick + data.timeSpan)

/-- One turn of the loop of `WorkerRun` over the expired nodes. -/
def rearm (tick : Int) (f : TimerFactory) (entry : TimerKey × TimerData) : TimerFactory :=
  let (key, data) := entry
  if data.recurring || data.heartbeat then
    ({ f with timers := f.timers.erase key }.insert
      ⟨nextTick tick key data, key.timerId⟩ data).assertSizes
  else
    { f with
      timers := f.timers.erase key
      timerId2ExpireTick := f.timerId2ExpireTick.erase key.timerId }.assertSizes

/-- The collection pass of `WorkerRun` at a tick. -/
def collect (f : TimerFactory) (tick : Int) : TimerFactory :=
  (f.timers.toList.takeWhile fun entry => entry.1.expireTick ≤ tick).foldl (rearm tick) f

end TimerFactory

end Pronet.Util
