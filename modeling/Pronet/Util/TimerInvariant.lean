import Pronet.Library.Runs
import Pronet.Library.Tables
import Pronet.Util.TimerFactory

/-! The representation invariant of the timer factory: the set of nodes, the map
from ids to ticks and the counts of heartbeats stay in step over every run that
changes the heartbeat interval only while the counts can be rebuilt. -/
namespace Pronet.Util

open Std Library Runs

namespace TimerFactory

/-- The number of heartbeat nodes with an index. -/
def beatCount (f : TimerFactory) (i : Nat) : Nat :=
  f.timers.toList.countP fun entry => entry.2.heartbeat && entry.2.htbtIndex == i

/-- The nodes and the map hold the same pairs. -/
def Linked (f : TimerFactory) : Prop :=
  ∀ key : TimerKey, key ∈ f.timers ↔ f.timerId2ExpireTick[key.timerId]? = some key.expireTick

/-- The counts are those of the heartbeat nodes. -/
structure Counted (f : TimerFactory) : Prop where
  steps : 0 < f.htbtCounts.length
  index : ∀ (key : TimerKey) (data : TimerData), f.timers[key]? = some data →
    data.heartbeat = true → data.htbtIndex < f.htbtCounts.length
  counts : ∀ i < f.htbtCounts.length, f.htbtCounts.getD i 0 = f.beatCount i

structure RepInv (f : TimerFactory) : Prop where
  linked : f.Linked
  counted : f.Counted
  asserts : f.asserts = true
  nonzero : f.timerId2ExpireTick[0]? = none

theorem Linked.sizes {f : TimerFactory} (h : f.Linked) :
    f.timers.size = f.timerId2ExpireTick.size := by
  have hnodup : (f.timers.keys.map TimerKey.timerId).Nodup := by
    apply List.Nodup.map_on _ ExtTreeMap.nodup_keys
    intro key hkey key' hkey' hid
    rw [ExtTreeMap.mem_keys] at hkey hkey'
    have htick := (h key).mp hkey
    rw [hid, (h key').mp hkey', Option.some.injEq] at htick
    cases key
    cases key'
    simp_all
  have hperm : (f.timers.keys.map TimerKey.timerId).Perm f.timerId2ExpireTick.keys := by
    rw [List.perm_ext_iff_of_nodup hnodup ExtTreeMap.nodup_keys]
    intro id
    rw [List.mem_map, ExtTreeMap.mem_keys]
    constructor
    · rintro ⟨key, hkey, rfl⟩
      rw [ExtTreeMap.mem_keys, h key] at hkey
      rw [ExtTreeMap.mem_iff_isSome_getElem?, hkey]
      rfl
    · intro hid
      rw [ExtTreeMap.mem_iff_isSome_getElem?] at hid
      obtain ⟨tick, htick⟩ := Option.isSome_iff_exists.mp hid
      refine ⟨⟨tick, id⟩, ?_, rfl⟩
      rw [ExtTreeMap.mem_keys, h]
      exact htick
  rw [← ExtTreeMap.length_keys, ← ExtTreeMap.length_keys, ← hperm.length_eq, List.length_map]

/-- With the tables in step the assert on their sizes holds. -/
theorem Linked.assertSizes {f : TimerFactory} (h : f.Linked) : f.assertSizes = f := by
  unfold TimerFactory.assertSizes assert
  rw [h.sizes]
  simp

/-- A node under an id that is not scheduled. -/
theorem Linked.insert {f : TimerFactory} (h : f.Linked) (key : TimerKey)
    (hnew : f.timerId2ExpireTick[key.timerId]? = none) (data : TimerData) :
    (f.insert key data).Linked := by
  have hnot : ∀ k : TimerKey, k ∈ f.timers → k.timerId ≠ key.timerId := by
    intro k hk hid
    rw [h k, hid, hnew] at hk
    cases hk
  intro k
  unfold TimerFactory.insert
  dsimp only
  rw [ExtTreeMap.mem_insertIfNew, ExtTreeMap.getElem?_insert, LawfulEqCmp.compare_eq_iff_eq, h k]
  simp only [Nat.compare_eq_eq]
  by_cases hid : key.timerId = k.timerId
  · rw [if_pos hid, Option.some.injEq, ← hid, hnew]
    constructor
    · rintro (hkey | hnone)
      · rw [hkey]
      · cases hnone
    · intro htick
      left
      cases key
      cases k
      simp_all
  · rw [if_neg hid]
    constructor
    · rintro (hkey | hsome)
      · exact absurd (congrArg TimerKey.timerId hkey) hid
      · exact hsome
    · exact Or.inr

/-- The node of an id leaves both tables. -/
theorem Linked.erase {f : TimerFactory} (h : f.Linked) {key : TimerKey} (hkey : key ∈ f.timers) :
    Linked { f with
      timers := f.timers.erase key
      timerId2ExpireTick := f.timerId2ExpireTick.erase key.timerId } := by
  intro k
  dsimp only
  rw [ExtTreeMap.mem_erase, ExtTreeMap.getElem?_erase, h k]
  simp only [Nat.compare_eq_eq]
  have htick := (h key).mp hkey
  by_cases hid : key.timerId = k.timerId
  · rw [if_pos hid, ← hid, htick]
    simp only [reduceCtorEq, iff_false, not_and]
    intro hne heq
    apply hne
    rw [LawfulEqCmp.compare_eq_iff_eq]
    cases key
    cases k
    simp_all
  · rw [if_neg hid]
    constructor
    · intro hboth
      exact hboth.2
    · intro hsome
      refine ⟨?_, hsome⟩
      intro heq
      exact hid (congrArg TimerKey.timerId (LawfulEqCmp.compare_eq_iff_eq.mp heq))

/-- What a node adds to the count of an index. -/
def beats (data : TimerData) (i : Nat) : Nat :=
  if data.heartbeat && data.htbtIndex == i then 1 else 0

theorem beatCount_insert {f : TimerFactory} {key : TimerKey} (hnew : key ∉ f.timers)
    (data : TimerData) (i : Nat) : (f.insert key data).beatCount i = beats data i + f.beatCount i := by
  have hperm := Tables.toList_insertIfNew_perm data hnew
  have hcount : (f.insert key data).beatCount i = _ := hperm.countP_eq _
  rw [hcount, List.countP_cons, Nat.add_comm]
  rfl

theorem beatCount_erase {f : TimerFactory} {key : TimerKey} {data : TimerData}
    (hkey : f.timers[key]? = some data) (ids : ExtTreeMap Nat Int) (i : Nat) :
    f.beatCount i = beats data i +
      beatCount { f with timers := f.timers.erase key, timerId2ExpireTick := ids } i := by
  have hperm := Tables.toList_perm_erase hkey
  have hcount : f.beatCount i = _ := hperm.countP_eq _
  rw [hcount, List.countP_cons, Nat.add_comm]
  rfl

theorem getElem?_insert_timers {f : TimerFactory} {key k : TimerKey} {data d : TimerData}
    (h : (f.insert key data).timers[k]? = some d) : f.timers[k]? = some d ∨ d = data := by
  unfold TimerFactory.insert at h
  dsimp only at h
  rw [ExtTreeMap.getElem?_insertIfNew] at h
  split at h
  · exact Or.inr (Option.some.inj h).symm
  · exact Or.inl h

theorem getElem?_erase_timers {f : TimerFactory} {key k : TimerKey} {d : TimerData}
    (h : (f.timers.erase key)[k]? = some d) : f.timers[k]? = some d := by
  rw [ExtTreeMap.getElem?_erase] at h
  split at h
  · cases h
  · exact h

theorem getD_modify (counts : List Nat) (index i : Nat) (g : Nat → Nat) (hi : i < counts.length) :
    (counts.modify index g).getD i 0 = if index = i then g (counts.getD i 0) else counts.getD i 0 := by
  rw [List.getD_eq_getElem?_getD, List.getD_eq_getElem?_getD, List.getElem?_modify,
    List.getElem?_eq_getElem hi]
  split <;> rfl

theorem Counted.insert {f : TimerFactory} (h : f.Counted) {key : TimerKey} (hnew : key ∉ f.timers)
    {data : TimerData} (hdata : data.heartbeat = false) : (f.insert key data).Counted := by
  refine ⟨h.steps, ?_, ?_⟩
  · intro k d hd hbeat
    cases getElem?_insert_timers hd with
    | inl hold => exact h.index k d hold hbeat
    | inr heq =>
      rw [heq, hdata] at hbeat
      cases hbeat
  · intro i hi
    rw [beatCount_insert hnew, ← h.counts i hi]
    simp [beats, hdata, TimerFactory.insert]

/-- A new heartbeat is counted under its index. -/
theorem Counted.insert_beat {f : TimerFactory} (h : f.Counted) {key : TimerKey}
    (hnew : key ∉ f.timers) {data : TimerData} (hdata : data.heartbeat = true)
    (hindex : data.htbtIndex < f.htbtCounts.length) :
    Counted (TimerFactory.insert
      { f with htbtCounts := f.htbtCounts.modify data.htbtIndex (· + 1) } key data) := by
  refine ⟨?_, ?_, ?_⟩
  · simpa [TimerFactory.insert] using h.steps
  · intro k d hd hbeat
    simp only [TimerFactory.insert, List.length_modify]
    cases getElem?_insert_timers hd with
    | inl hold => exact h.index k d hold hbeat
    | inr heq => rwa [heq]
  · intro i hi
    simp only [TimerFactory.insert, List.length_modify] at hi
    have hcount := beatCount_insert (f := f) hnew data i
    change (f.htbtCounts.modify data.htbtIndex (· + 1)).getD i 0 = (f.insert key data).beatCount i
    rw [hcount, getD_modify _ _ _ _ hi, ← h.counts i hi]
    unfold beats
    rw [hdata]
    by_cases heq : data.htbtIndex = i
    · simp [heq, Nat.add_comm]
    · simp [heq]

/-- A node leaves the set, and a heartbeat leaves its count. -/
theorem Counted.erase {f : TimerFactory} (h : f.Counted) {key : TimerKey} {data : TimerData}
    (hkey : f.timers[key]? = some data) (ids : ExtTreeMap Nat Int) :
    Counted { f with
      timers := f.timers.erase key
      timerId2ExpireTick := ids
      htbtCounts := if data.heartbeat then f.htbtCounts.modify data.htbtIndex decrement
        else f.htbtCounts } := by
  refine ⟨?_, ?_, ?_⟩
  · dsimp only
    split
    · simpa using h.steps
    · exact h.steps
  · intro k d hd hbeat
    have hold := h.index k d (getElem?_erase_timers hd) hbeat
    dsimp only
    split
    · simpa using hold
    · exact hold
  · intro i hi
    have hcount := beatCount_erase hkey ids i
    have hlength : i < f.htbtCounts.length := by
      dsimp only at hi
      split at hi
      · simpa using hi
      · exact hi
    have hold := h.counts i hlength
    change List.getD (if data.heartbeat then f.htbtCounts.modify data.htbtIndex decrement
      else f.htbtCounts) i 0 = beatCount { f with
        timers := f.timers.erase key, timerId2ExpireTick := ids } i
    unfold beats at hcount
    split
    · rename_i hbeat
      rw [getD_modify _ _ _ _ hlength]
      rw [hbeat] at hcount
      by_cases heq : data.htbtIndex = i
      · simp only [heq, beq_self_eq_true, Bool.and_self, if_true] at hcount ⊢
        unfold decrement
        rw [if_neg (by omega)]
        omega
      · simp only [Bool.true_and, beq_iff_eq, heq, if_false] at hcount ⊢
        omega
    · rename_i hbeat
      simp only [hbeat, Bool.false_and, Bool.false_eq_true, if_false] at hcount
      omega

/-- A node moves to another tick under the same index. -/
theorem Counted.move {f : TimerFactory} (h : f.Counted) {key key' : TimerKey}
    {data data' : TimerData} (hkey : f.timers[key]? = some data)
    (ids : ExtTreeMap Nat Int) (hnew : key' ∉ f.timers.erase key)
    (hbeat : data'.heartbeat = data.heartbeat) (hindex : data'.htbtIndex = data.htbtIndex) :
    Counted (TimerFactory.insert
      { f with timers := f.timers.erase key, timerId2ExpireTick := ids } key' data') := by
  refine ⟨h.steps, ?_, ?_⟩
  · intro k d hd hb
    cases getElem?_insert_timers hd with
    | inl hold => exact h.index k d (getElem?_erase_timers hold) hb
    | inr heq =>
      rw [heq, hindex]
      exact h.index key data hkey (by rw [← hbeat, ← heq, hb])
  · intro i hi
    have hinsert := beatCount_insert
      (f := { f with timers := f.timers.erase key, timerId2ExpireTick := ids }) hnew data' i
    have hsame : beats data' i = beats data i := by
      unfold beats
      rw [hbeat, hindex]
    rw [hinsert, hsame, ← beatCount_erase hkey ids i]
    exact h.counts i hi

theorem assert_of {f : TimerFactory} {condition : Bool} (h : condition = true) :
    f.assert condition = f := by
  unfold assert
  rw [h, Bool.and_true]

theorem Linked.not_mem {f : TimerFactory} (h : f.Linked) {key : TimerKey}
    (hnew : f.timerId2ExpireTick[key.timerId]? = none) : key ∉ f.timers := by
  rw [h key, hnew]
  simp

theorem RepInv.scheduleTimer {f : TimerFactory} (h : f.RepInv) {onTimer : Option Nat}
    {timeSpan : UInt64} {recurring : Bool} (userData tick : Int) {timerId : Nat}
    (honTimer : onTimer.isSome = true) (hspan : (0 < timeSpan || !recurring) = true)
    (hzero : timerId ≠ 0) (hnew : f.timerId2ExpireTick[timerId]? = none) :
    (f.scheduleTimer onTimer timeSpan recurring userData tick timerId).1.RepInv := by
  obtain ⟨object, rfl⟩ := Option.isSome_iff_exists.mp honTimer
  unfold TimerFactory.scheduleTimer
  rw [assert_of honTimer, assert_of hspan]
  dsimp only
  split
  · exact h
  · have hlinked := h.linked.insert ⟨int64 (tick + timeSpan.toNat), timerId⟩ hnew
      ⟨object, int64 timeSpan.toNat, recurring, false, 0, userData⟩
    dsimp only
    rw [hlinked.assertSizes]
    refine ⟨hlinked, h.counted.insert (h.linked.not_mem hnew) rfl, h.asserts, ?_⟩
    simp only [TimerFactory.insert]
    rw [ExtTreeMap.getElem?_insert, if_neg]
    · exact h.nonzero
    · simpa [Nat.compare_eq_eq] using hzero

/-- The loop that looks for the least count stays inside the vector. -/
theorem leastIndex_lt {counts : List Nat} (h : 0 < counts.length) :
    (leastIndex counts).1 < counts.length := by
  have hfold : ∀ (entries : List (Nat × Nat)) (best : Nat × Nat),
      (∀ entry ∈ entries, entry.2 < counts.length) → best.1 < counts.length →
      (entries.foldl (fun best entry => if entry.1 < best.2 then (entry.2, entry.1) else best)
        best).1 < counts.length := by
    intro entries
    induction entries with
    | nil =>
      intro best _ hbest
      exact hbest
    | cons entry entries ih =>
      intro best hentries hbest
      rw [List.foldl_cons]
      apply ih
      · intro other hother
        exact hentries other (List.mem_cons_of_mem entry hother)
      · split
        · exact hentries entry List.mem_cons_self
        · exact hbest
  apply hfold
  · intro entry hentry
    have hlt := List.snd_lt_of_mem_zipIdx hentry
    rw [List.length_drop] at hlt
    omega
  · exact h

theorem RepInv.scheduleHeartbeatTimer {f : TimerFactory} (h : f.RepInv) {onTimer : Option Nat}
    (userData tick jitter : Int) {timerId : Nat} (honTimer : onTimer.isSome = true)
    (hmm : f.mmTimer = false) (hzero : timerId ≠ 0)
    (hnew : f.timerId2ExpireTick[timerId]? = none) :
    (f.scheduleHeartbeatTimer onTimer userData tick jitter timerId).1.RepInv := by
  obtain ⟨object, rfl⟩ := Option.isSome_iff_exists.mp honTimer
  unfold TimerFactory.scheduleHeartbeatTimer
  rw [assert_of honTimer]
  dsimp only
  rw [assert_of (by rw [hmm]; rfl), if_neg (by simp [hmm])]
  have hindex := leastIndex_lt h.counted.steps
  have hlinked : Linked { f with
      htbtCounts := f.htbtCounts.modify (leastIndex f.htbtCounts).1 (· + 1) } := h.linked
  have hinserted := hlinked.insert
    (⟨heartbeatTick { f with
      htbtCounts := f.htbtCounts.modify (leastIndex f.htbtCounts).1 (· + 1) } tick
        (leastIndex f.htbtCounts).1 jitter, timerId⟩) hnew
    ⟨object, f.htbtTimeSpan, true, true, (leastIndex f.htbtCounts).1, userData⟩
  rw [hinserted.assertSizes]
  refine ⟨hinserted, ?_, h.asserts, ?_⟩
  · exact h.counted.insert_beat (h.linked.not_mem hnew) rfl hindex
  · simp only [TimerFactory.insert]
    rw [ExtTreeMap.getElem?_insert, if_neg]
    · exact h.nonzero
    · simpa [Nat.compare_eq_eq] using hzero

/-- `CancelTimer` finds the node of every scheduled id and removes it. -/
theorem RepInv.cancelTimer_eq {f : TimerFactory} (h : f.RepInv) {timerId : Nat} {expireTick : Int}
    (hid : f.timerId2ExpireTick[timerId]? = some expireTick) :
    ∃ data, f.timers[(⟨expireTick, timerId⟩ : TimerKey)]? = some data ∧
      f.cancelTimer timerId = { f with
        timers := f.timers.erase ⟨expireTick, timerId⟩
        timerId2ExpireTick := f.timerId2ExpireTick.erase timerId
        htbtCounts := if data.heartbeat then f.htbtCounts.modify data.htbtIndex decrement
          else f.htbtCounts } := by
  have hmem := (h.linked ⟨expireTick, timerId⟩).mpr hid
  have hlinked := h.linked.erase hmem
  rw [ExtTreeMap.mem_iff_isSome_getElem?] at hmem
  obtain ⟨data, hdata⟩ := Option.isSome_iff_exists.mp hmem
  refine ⟨data, hdata, ?_⟩
  have hzero : timerId ≠ 0 := by
    intro hzero
    rw [hzero, h.nonzero] at hid
    cases hid
  unfold TimerFactory.cancelTimer
  rw [if_neg hzero, hid]
  dsimp only
  rw [hdata]
  dsimp only
  rw [hlinked.assertSizes]
  split <;> rfl

theorem RepInv.cancelTimer {f : TimerFactory} (h : f.RepInv) (timerId : Nat) :
    (f.cancelTimer timerId).RepInv := by
  cases hid : f.timerId2ExpireTick[timerId]? with
  | none =>
    have hsame : f.cancelTimer timerId = f := by
      unfold TimerFactory.cancelTimer
      rw [hid]
      split <;> rfl
    rw [hsame]
    exact h
  | some expireTick =>
    obtain ⟨data, hdata, heq⟩ := h.cancelTimer_eq hid
    have hmem := (h.linked ⟨expireTick, timerId⟩).mpr hid
    rw [heq]
    refine ⟨h.linked.erase hmem, h.counted.erase hdata _, h.asserts, ?_⟩
    dsimp only
    rw [ExtTreeMap.getElem?_erase, h.nonzero]
    split <;> rfl

/-- A node that is inserted again under its id might as well leave both tables first. -/
theorem insert_moved (f : TimerFactory) (key : TimerKey) (tick : Int) (data : TimerData) :
    TimerFactory.insert { f with timers := f.timers.erase key } ⟨tick, key.timerId⟩ data =
      TimerFactory.insert { f with
        timers := f.timers.erase key
        timerId2ExpireTick := f.timerId2ExpireTick.erase key.timerId } ⟨tick, key.timerId⟩ data := by
  have hids : f.timerId2ExpireTick.insert key.timerId tick =
      (f.timerId2ExpireTick.erase key.timerId).insert key.timerId tick := by
    apply ExtTreeMap.ext_getElem?
    intro id
    rw [ExtTreeMap.getElem?_insert, ExtTreeMap.getElem?_insert, ExtTreeMap.getElem?_erase]
    split <;> rfl
  unfold TimerFactory.insert
  dsimp only
  rw [hids]

/-- The node of an id moves to another tick in both tables. -/
theorem Linked.move {f : TimerFactory} (h : f.Linked) {key : TimerKey} (hkey : key ∈ f.timers)
    (tick : Int) (data : TimerData) :
    (TimerFactory.insert { f with timers := f.timers.erase key } ⟨tick, key.timerId⟩ data).Linked := by
  rw [insert_moved]
  exact (h.erase hkey).insert ⟨tick, key.timerId⟩ ExtTreeMap.getElem?_erase_self data

theorem RepInv.move {f : TimerFactory} (h : f.RepInv) {key : TimerKey} {data data' : TimerData}
    (hkey : f.timers[key]? = some data) (tick : Int) (hbeat : data'.heartbeat = data.heartbeat)
    (hindex : data'.htbtIndex = data.htbtIndex) :
    (TimerFactory.insert { f with timers := f.timers.erase key } ⟨tick, key.timerId⟩ data').RepInv := by
  have hmem : key ∈ f.timers := by
    rw [ExtTreeMap.mem_iff_isSome_getElem?, hkey]
    rfl
  have hnone : (f.timerId2ExpireTick.erase key.timerId)[key.timerId]? = none :=
    ExtTreeMap.getElem?_erase_self
  have hlinked := h.linked.move hmem tick data'
  rw [insert_moved] at hlinked ⊢
  refine ⟨hlinked, h.counted.move hkey _ ((h.linked.erase hmem).not_mem hnone) hbeat hindex,
    h.asserts, ?_⟩
  have hzero : key.timerId ≠ 0 := by
    intro hzero
    have htick := (h.linked key).mp hmem
    rw [hzero, h.nonzero] at htick
    cases htick
  simp only [TimerFactory.insert]
  rw [ExtTreeMap.getElem?_insert, if_neg (by simpa [Nat.compare_eq_eq] using hzero),
    ExtTreeMap.getElem?_erase, h.nonzero]
  split <;> rfl

theorem Linked.rearm {f : TimerFactory} (h : f.Linked) {key : TimerKey} {data : TimerData}
    (hkey : f.timers[key]? = some data) (tick : Int) : (f.rearm tick (key, data)).Linked := by
  have hmem : key ∈ f.timers := by
    rw [ExtTreeMap.mem_iff_isSome_getElem?, hkey]
    rfl
  unfold TimerFactory.rearm
  dsimp only
  split
  · exact (h.move hmem _ data).assertSizes.symm ▸ h.move hmem _ data
  · exact (h.erase hmem).assertSizes.symm ▸ h.erase hmem

theorem RepInv.rearm {f : TimerFactory} (h : f.RepInv) {key : TimerKey} {data : TimerData}
    (hkey : f.timers[key]? = some data) (tick : Int) : (f.rearm tick (key, data)).RepInv := by
  unfold TimerFactory.rearm
  dsimp only
  split
  · have hmoved := h.move hkey (nextTick tick key data) rfl rfl
    rw [hmoved.linked.assertSizes]
    exact hmoved
  · rename_i honce
    have hmem : key ∈ f.timers := by
      rw [ExtTreeMap.mem_iff_isSome_getElem?, hkey]
      rfl
    have hlinked := h.linked.erase hmem
    have hbeat : data.heartbeat = false := by
      simp only [Bool.or_eq_true, not_or, Bool.not_eq_true] at honce
      exact honce.2
    have hcounted := h.counted.erase hkey (f.timerId2ExpireTick.erase key.timerId)
    rw [hbeat] at hcounted
    rw [hlinked.assertSizes]
    refine ⟨hlinked, hcounted, h.asserts, ?_⟩
    dsimp only
    rw [ExtTreeMap.getElem?_erase, h.nonzero]
    split <;> rfl

/-- A turn of the pass leaves the other nodes alone. -/
theorem Linked.rearm_other {f : TimerFactory} (h : f.Linked) {key k : TimerKey}
    {data d : TimerData} (hkey : f.timers[key]? = some data) (tick : Int)
    (hk : f.timers[k]? = some d) (hne : k ≠ key) :
    (f.rearm tick (key, data)).timers[k]? = some d := by
  have herase : (f.timers.erase key)[k]? = some d := by
    rw [ExtTreeMap.getElem?_erase, if_neg (fun heq => hne (LawfulEqCmp.compare_eq_iff_eq.mp heq).symm)]
    exact hk
  have hid : k.timerId ≠ key.timerId := by
    intro hid
    apply hne
    have hmemKey : key ∈ f.timers := by
      rw [ExtTreeMap.mem_iff_isSome_getElem?, hkey]
      rfl
    have hmemK : k ∈ f.timers := by
      rw [ExtTreeMap.mem_iff_isSome_getElem?, hk]
      rfl
    have htick := (h key).mp hmemKey
    rw [← hid, (h k).mp hmemK, Option.some.injEq] at htick
    cases key
    cases k
    simp_all
  unfold TimerFactory.rearm
  dsimp only
  split
  · unfold TimerFactory.assertSizes assert TimerFactory.insert
    dsimp only
    rw [ExtTreeMap.getElem?_insertIfNew, if_neg]
    · exact herase
    · intro hboth
      exact hid (congrArg TimerKey.timerId (LawfulEqCmp.compare_eq_iff_eq.mp hboth.1)).symm
  · exact herase

theorem RepInv.collect {f : TimerFactory} (h : f.RepInv) (tick : Int) : (f.collect tick).RepInv := by
  have hfold : ∀ (entries : List (TimerKey × TimerData)) (f : TimerFactory), f.RepInv →
      (entries.map Prod.fst).Nodup → (∀ entry ∈ entries, f.timers[entry.1]? = some entry.2) →
      (entries.foldl (TimerFactory.rearm tick) f).RepInv := by
    intro entries
    induction entries with
    | nil =>
      intro f h _ _
      exact h
    | cons entry entries ih =>
      intro f h hnodup hmem
      obtain ⟨key, data⟩ := entry
      rw [List.map_cons, List.nodup_cons] at hnodup
      have hkey := hmem (key, data) List.mem_cons_self
      rw [List.foldl_cons]
      apply ih _ (h.rearm hkey tick) hnodup.2
      intro other hother
      apply h.linked.rearm_other hkey tick (hmem other (List.mem_cons_of_mem _ hother))
      intro heq
      exact hnodup.1 (heq ▸ List.mem_map_of_mem hother)
  unfold TimerFactory.collect
  apply hfold _ f h
  · have hkeys : (f.timers.toList.map Prod.fst).Nodup := by
      rw [ExtTreeMap.map_fst_toList_eq_keys]
      exact ExtTreeMap.nodup_keys
    exact hkeys.sublist ((List.takeWhile_sublist _).map Prod.fst)
  · intro entry hentry
    have hmem := (List.takeWhile_sublist _).subset hentry
    exact ExtTreeMap.mem_toList_iff_getElem?_eq_some.mp hmem

/-- A single heartbeat with index 0 is all that the first count counts. -/
theorem Counted.set_single {f : TimerFactory} (h : f.Counted) {key : TimerKey} {data : TimerData}
    (hbeats : f.heartbeats = [(key, data)]) (hindex : data.htbtIndex = 0) :
    f.htbtCounts.set 0 1 = f.htbtCounts := by
  have hcount : f.beatCount 0 = 1 := by
    have hfilter : f.beatCount 0 = f.heartbeats.countP (fun entry => entry.2.htbtIndex == 0) := by
      unfold beatCount heartbeats
      rw [List.countP_filter]
      congr 1
      funext entry
      rw [Bool.and_comm]
    rw [hfilter, hbeats]
    simp [hindex]
  have hfirst := h.counts 0 h.steps
  rw [hcount] at hfirst
  cases hcounts : f.htbtCounts with
  | nil => rfl
  | cons first rest =>
    rw [hcounts] at hfirst
    simp only [List.getD_cons_zero] at hfirst
    rw [hfirst]
    rfl

/-- The interval changes, and no other node is a heartbeat, or only the one counted first. -/
def CanRebuild (f : TimerFactory) : Prop :=
  f.heartbeats = [] ∨ ∃ entry, f.heartbeats = [entry] ∧ entry.2.htbtIndex = 0

theorem RepInv.withSpan {f : TimerFactory} (h : f.RepInv) (timeSpan : Int) :
    RepInv { f with htbtTimeSpan := timeSpan } :=
  ⟨h.linked, ⟨h.counted.steps, h.counted.index, h.counted.counts⟩, h.asserts, h.nonzero⟩

theorem RepInv.updateHeartbeatTimers {f : TimerFactory} (h : f.RepInv)
    {htbtIntervalInSeconds : UInt64} (tick : Int) (jitter : Nat → Int)
    (hpos : 0 < htbtIntervalInSeconds)
    (hcan : int64 (htbtIntervalInSeconds.toNat * 1000) = f.htbtTimeSpan ∨ f.CanRebuild) :
    (f.updateHeartbeatTimers htbtIntervalInSeconds tick jitter).1.RepInv := by
  unfold TimerFactory.updateHeartbeatTimers
  rw [assert_of (decide_eq_true hpos)]
  dsimp only
  split
  · exact h
  · split
    · exact h
    · rename_i hchange
      have hspan := h.withSpan (int64 (htbtIntervalInSeconds.toNat * 1000))
      have hbeats := hcan.resolve_left hchange
      cases hbeats with
      | inl hnone =>
        rw [hnone]
        exact hspan
      | inr hone =>
        obtain ⟨⟨key, data⟩, hone, hindex⟩ := hone
        have hmem : (key, data) ∈ f.heartbeats := by
          rw [hone]
          exact List.mem_singleton_self _
        have hkey : f.timers[key]? = some data :=
          ExtTreeMap.mem_toList_iff_getElem?_eq_some.mp (List.mem_filter.mp hmem).1
        rw [hone]
        simp only [List.foldl_cons, List.foldl_nil, List.zipIdx_cons, List.zipIdx_nil, List.map_cons,
          List.map_nil]
        unfold reindex
        dsimp only
        rw [if_pos h.counted.steps, h.counted.set_single hone hindex]
        have hmoved := hspan.move hkey
          (heartbeatTick { f with
            htbtTimeSpan := int64 (htbtIntervalInSeconds.toNat * 1000)
            timers := f.timers.erase key } tick 0 (jitter 0))
          (rfl : { data with
            timeSpan := int64 (htbtIntervalInSeconds.toNat * 1000)
            htbtIndex := 0 : TimerData }.heartbeat = data.heartbeat) hindex.symm
        rw [hmoved.linked.assertSizes]
        exact hmoved

theorem repInv_start (mmTimer : Bool) : (start mmTimer).RepInv := by
  have hlength : (start mmTimer).htbtCounts.length = 1000 := List.length_replicate
  have hempty : (start mmTimer).timers = ∅ := rfl
  refine ⟨?_, ⟨by omega, ?_, ?_⟩, rfl, rfl⟩
  · intro key
    rw [hempty]
    change key ∈ (∅ : ExtTreeMap TimerKey TimerData) ↔
      (∅ : ExtTreeMap Nat Int)[key.timerId]? = some key.expireTick
    simp
  · intro key data hdata
    rw [hempty] at hdata
    simp at hdata
  · intro i hi
    have hcount : (start mmTimer).beatCount i = 0 := rfl
    rw [hlength] at hi
    rw [hcount, List.getD_eq_getElem?_getD]
    change ((List.replicate 1000 0)[i]?).getD 0 = 0
    rw [List.getElem?_replicate, if_pos hi]
    rfl

end TimerFactory

/-- The operations of a started factory, with the clock, the fresh id and the
jitter that each of them reads. -/
inductive TimerOp
  | scheduleTimer (onTimer : Option Nat) (timeSpan : UInt64) (recurring : Bool) (userData : Int)
      (tick : Int) (timerId : Nat)
  | scheduleHeartbeatTimer (onTimer : Option Nat) (userData : Int) (tick jitter : Int) (timerId : Nat)
  | cancelTimer (timerId : Nat)
  | updateHeartbeatTimers (htbtIntervalInSeconds : UInt64) (tick : Int) (jitter : Nat → Int)
  | collect (tick : Int)

namespace TimerFactory

def step (f : TimerFactory) : TimerOp → Option TimerFactory
  | .scheduleTimer onTimer timeSpan recurring userData tick timerId =>
      some (f.scheduleTimer onTimer timeSpan recurring userData tick timerId).1
  | .scheduleHeartbeatTimer onTimer userData tick jitter timerId =>
      some (f.scheduleHeartbeatTimer onTimer userData tick jitter timerId).1
  | .cancelTimer timerId => some (f.cancelTimer timerId)
  | .updateHeartbeatTimers seconds tick jitter => some (f.updateHeartbeatTimers seconds tick jitter).1
  | .collect tick => some (f.collect tick)

/-- Ids are fresh, and callers pass what the functions assert of their arguments. -/
def Called (f : TimerFactory) : TimerOp → Prop
  | .scheduleTimer onTimer timeSpan recurring _ _ timerId =>
      onTimer.isSome = true ∧ (0 < timeSpan || !recurring) = true ∧ timerId ≠ 0 ∧
        f.timerId2ExpireTick[timerId]? = none
  | .scheduleHeartbeatTimer onTimer _ _ _ timerId =>
      onTimer.isSome = true ∧ f.mmTimer = false ∧ timerId ≠ 0 ∧
        f.timerId2ExpireTick[timerId]? = none
  | .cancelTimer _ => True
  | .updateHeartbeatTimers seconds _ _ => 0 < seconds
  | .collect _ => True

/-- The interval changes only while the counts can be rebuilt. -/
def Rebuildable (f : TimerFactory) : TimerOp → Prop
  | .updateHeartbeatTimers seconds _ _ =>
      int64 (seconds.toNat * 1000) = f.htbtTimeSpan ∨ f.CanRebuild
  | _ => True

theorem RepInv.step {f : TimerFactory} (h : f.RepInv) (op : TimerOp)
    (hguard : f.Called op ∧ f.Rebuildable op) : ∃ next, f.step op = some next ∧ next.RepInv := by
  cases op with
  | scheduleTimer onTimer timeSpan recurring userData tick timerId =>
    obtain ⟨honTimer, hspan, hzero, hnew⟩ := hguard.1
    exact ⟨_, rfl, h.scheduleTimer userData tick honTimer hspan hzero hnew⟩
  | scheduleHeartbeatTimer onTimer userData tick jitter timerId =>
    obtain ⟨honTimer, hmm, hzero, hnew⟩ := hguard.1
    exact ⟨_, rfl, h.scheduleHeartbeatTimer userData tick jitter honTimer hmm hzero hnew⟩
  | cancelTimer timerId => exact ⟨_, rfl, h.cancelTimer timerId⟩
  | updateHeartbeatTimers seconds tick jitter =>
    exact ⟨_, rfl, h.updateHeartbeatTimers tick jitter hguard.1 hguard.2⟩
  | collect tick => exact ⟨_, rfl, h.collect tick⟩

/-- The three tables are in step, `CancelTimer` removes what is scheduled, and every
assert has held. -/
structure Sound (f : TimerFactory) : Prop where
  pairs : ∀ timerId expireTick, f.timerId2ExpireTick[timerId]? = some expireTick ↔
    (⟨expireTick, timerId⟩ : TimerKey) ∈ f.timers
  cancel : ∀ timerId expireTick, f.timerId2ExpireTick[timerId]? = some expireTick →
    (f.cancelTimer timerId).timers = f.timers.erase ⟨expireTick, timerId⟩ ∧
      (f.cancelTimer timerId).timerId2ExpireTick = f.timerId2ExpireTick.erase timerId
  index : ∀ (key : TimerKey) (data : TimerData), f.timers[key]? = some data →
    data.heartbeat = true → data.htbtIndex < f.htbtCounts.length
  counts : ∀ i < f.htbtCounts.length, f.htbtCounts.getD i 0 = f.beatCount i
  asserts : f.asserts = true

theorem RepInv.sound {f : TimerFactory} (h : f.RepInv) : f.Sound := by
  refine ⟨?_, ?_, h.counted.index, h.counted.counts, h.asserts⟩
  · intro timerId expireTick
    exact (h.linked ⟨expireTick, timerId⟩).symm
  · intro timerId expireTick hid
    obtain ⟨data, _, heq⟩ := h.cancelTimer_eq hid
    rw [heq]
    exact ⟨rfl, rfl⟩

/-- On every run of calls with valid arguments that changes the interval only
while the counts can be rebuilt, the factory is sound in every state. -/
theorem sound_of_rebuildable_run (mmTimer : Bool) (ops : List TimerOp)
    (hguard : Guarded step (fun f op => f.Called op ∧ f.Rebuildable op) (start mmTimer) ops) :
    ∃ f, run step (start mmTimer) ops = some f ∧ f.Sound := by
  obtain ⟨f, hrun, hinv⟩ := run_progress (fun f op h hguard => h.step op hguard)
    (repInv_start mmTimer) hguard
  exact ⟨f, hrun, hinv.sound⟩

instance (f : TimerFactory) (op : TimerOp) : Decidable (f.Called op) := by
  cases op <;> unfold Called <;> infer_instance

def canRebuild (f : TimerFactory) : Bool :=
  match f.heartbeats with
  | [] => true
  | [entry] => entry.2.htbtIndex == 0
  | _ => false

theorem canRebuild_iff (f : TimerFactory) : f.canRebuild = true ↔ f.CanRebuild := by
  unfold canRebuild CanRebuild
  split
  · rename_i hnone
    simp [hnone]
  · rename_i entry hone
    simp [hone]
  · rename_i hnone hone
    simp only [Bool.false_eq_true, false_iff, not_or, not_exists, not_and]
    exact ⟨hnone, fun entry heq => absurd heq (hone entry)⟩

instance (f : TimerFactory) : Decidable f.CanRebuild := decidable_of_iff _ f.canRebuild_iff

instance (f : TimerFactory) (op : TimerOp) : Decidable (f.Rebuildable op) := by
  cases op <;> unfold Rebuildable <;> infer_instance

/-- A timer and a heartbeat, an interval change, a second heartbeat, and a pass. -/
def rebuiltHeartbeat : List TimerOp :=
  [.scheduleTimer (some 1) 5 false 0 100 2, .scheduleHeartbeatTimer (some 2) 0 100 3 4,
    .updateHeartbeatTimers 10 200 fun _ => 1, .scheduleHeartbeatTimer (some 3) 0 300 2 6,
    .collect 20000, .cancelTimer 4]

theorem sound_of_rebuildable_run_rebuiltHeartbeat :
    ∃ f, run step (start false) rebuiltHeartbeat = some f ∧ f.Sound :=
  sound_of_rebuildable_run false rebuiltHeartbeat (by decide +kernel)

/-- Two heartbeats, of which the first is cancelled before the interval changes. -/
def staleCount : List TimerOp :=
  [.scheduleHeartbeatTimer (some 1) 0 100 0 2, .scheduleHeartbeatTimer (some 2) 0 100 0 4,
    .cancelTimer 2, .updateHeartbeatTimers 10 200 fun _ => 0]

/-- Two heartbeats while the interval changes. -/
def shortSet : List TimerOp :=
  [.scheduleHeartbeatTimer (some 1) 0 100 0 2, .scheduleHeartbeatTimer (some 2) 0 100 0 4,
    .updateHeartbeatTimers 10 200 fun _ => 0]

theorem run_staleCount : ∃ f, run step (start false) staleCount = some f ∧
    f.htbtCounts.getD 1 0 = 1 ∧ f.beatCount 1 = 0 := by
  have hany : ((run step (start false) staleCount).any fun f =>
      decide (f.htbtCounts.getD 1 0 = 1 ∧ f.beatCount 1 = 0)) = true := by decide +kernel
  have hsome := (Option.any_eq_true _ _).mp hany
  exact hsome.imp fun f hf => ⟨hf.1, of_decide_eq_true hf.2⟩

theorem run_shortSet : ∃ f, run step (start false) shortSet = some f ∧ f.asserts = false := by
  have hany : ((run step (start false) shortSet).any fun f => decide (f.asserts = false)) = true := by
    decide +kernel
  have hsome := (Option.any_eq_true _ _).mp hany
  exact hsome.imp fun f hf => ⟨hf.1, of_decide_eq_true hf.2⟩

theorem called_staleCount : Guarded step Called (start false) staleCount := by decide +kernel

theorem called_shortSet : Guarded step Called (start false) shortSet := by decide +kernel

/-- The count of the cancelled timer's successor stays behind, and with two
heartbeats the assert on the sizes fails. -/
theorem not_sound_updated_heartbeats :
    Guarded step Called (start false) staleCount ∧
    Guarded step Called (start false) shortSet ∧
    (∃ f, run step (start false) staleCount = some f ∧ ¬ f.Sound) ∧
    ∃ f, run step (start false) shortSet = some f ∧ ¬ f.Sound := by
  refine ⟨called_staleCount, called_shortSet, ?_, ?_⟩
  · apply run_staleCount.imp
    intro f hf
    refine ⟨hf.1, fun hsound => ?_⟩
    have hlength : 1 < f.htbtCounts.length := by
      by_contra hshort
      have hzero : f.htbtCounts.getD 1 0 = 0 := List.getD_eq_default _ _ (by omega)
      omega
    have hcount := hsound.counts 1 hlength
    omega
  · apply run_shortSet.imp
    intro f hf
    refine ⟨hf.1, fun hsound => ?_⟩
    rw [hsound.asserts] at hf
    cases hf.2

end TimerFactory

end Pronet.Util
