import Pronet.Library.Beats
import Pronet.Util.TimerFiring

/-! Where a collected heartbeat is due again. Rounding the tick up and adding the
phase is the next beat unless the tick lies inside its period before the phase. -/
namespace Pronet.Util

open Std Library Runs

theorem int64_of_fits {value : Int} (hlow : -2 ^ 63 ≤ value) (hhigh : value < 2 ^ 63) :
    int64 value = value := by
  unfold int64
  rw [Int.bmod_def]
  split <;> omega

theorem int64_of_over {value : Int} (hlow : 2 ^ 63 ≤ value) (hhigh : value < 3 * 2 ^ 63) :
    int64 value = value - 2 ^ 64 := by
  unfold int64
  rw [Int.bmod_def]
  split <;> omega

namespace TimerFactory

/-- The sum that is rounded and the next beat are `PRO_INT64`. -/
def Fits (period anchor tick : Int) : Prop :=
  tick + period ≤ 2 ^ 63 ∧ Beats.next period anchor tick < 2 ^ 63

/-- The tick lies behind the start of its period, and before the phase. -/
def BeforePhase (period anchor tick : Int) : Prop :=
  0 < tick % period ∧ tick % period < anchor % period

/-- Rounded towards zero, a negative sum does not reach above zero. -/
theorem tdiv_mul_of_neg {value period : Int} (hneg : value < 0) (hperiod : 0 < period) :
    value ≤ value.tdiv period * period ∧ value.tdiv period * period ≤ 0 := by
  have heq : value.tdiv period = -((-value) / period) := by
    rw [← Int.neg_neg value, Int.neg_tdiv, Int.neg_neg, Int.tdiv_eq_ediv_of_nonneg (by omega)]
  have hle := Int.ediv_mul_le (-value) (Int.ne_of_gt hperiod)
  have hnonneg : 0 ≤ -value / period * period :=
    Int.mul_nonneg (Int.ediv_nonneg (by omega) (by omega)) (by omega)
  rw [heq, Int.neg_mul]
  omega

/-- The tick rounded up. -/
theorem tdiv_mul_of_nonneg {tick period : Int} (htick : 0 ≤ tick) (hperiod : 0 < period) :
    (tick + period - 1).tdiv period * period =
      period * (tick / period) + if 0 < tick % period then period else 0 := by
  have hsplit := Int.mul_ediv_add_emod tick period
  have hnonneg := Int.emod_nonneg tick (Int.ne_of_gt hperiod)
  have hlt := Int.emod_lt_of_pos tick hperiod
  rw [Int.tdiv_eq_ediv_of_nonneg (by omega), Int.mul_comm]
  split
  · have heq : tick + period - 1 = tick % period - 1 + period * (tick / period + 1) := by
      rw [Int.mul_add]
      omega
    rw [heq, Int.add_mul_ediv_left _ _ (Int.ne_of_gt hperiod), Int.ediv_eq_zero_of_lt (by omega) (by omega),
      Int.zero_add, Int.mul_add]
    omega
  · have heq : tick + period - 1 = period - 1 + period * (tick / period) := by omega
    rw [heq, Int.add_mul_ediv_left _ _ (Int.ne_of_gt hperiod), Int.ediv_eq_zero_of_lt (by omega) (by omega),
      Int.zero_add]
    omega

/-- A heartbeat whose sum overflows is due in the past. -/
theorem nextTick_le_of_over {tick : Int} {key : TimerKey} {data : TimerData}
    (hbeat : data.heartbeat = true) (hspan : 0 < data.timeSpan ∧ data.timeSpan < 2 ^ 63)
    (hexpired : 0 ≤ key.expireTick ∧ key.expireTick ≤ tick) (htick : tick < 2 ^ 63)
    (hover : 2 ^ 63 < tick + data.timeSpan) : nextTick tick key data ≤ tick := by
  obtain ⟨hpos, hsmall⟩ := hspan
  have hphase := Int.emod_nonneg key.expireTick (Int.ne_of_gt hpos)
  have hphaseLt := Int.emod_lt_of_pos key.expireTick hpos
  have hphaseLe : key.expireTick % data.timeSpan ≤ key.expireTick := by
    have hquotient := Int.mul_nonneg (Int.le_of_lt hpos)
      (Int.ediv_nonneg hexpired.1 (Int.le_of_lt hpos))
    have hexpire := Int.mul_ediv_add_emod key.expireTick data.timeSpan
    omega
  have hsum : int64 (tick + data.timeSpan - 1) = tick + data.timeSpan - 1 - 2 ^ 64 :=
    int64_of_over (by omega) (by omega)
  obtain ⟨hlow, hhigh⟩ := tdiv_mul_of_neg
    (show tick + data.timeSpan - 1 - 2 ^ 64 < 0 by omega) hpos
  unfold nextTick
  simp only [hbeat, if_true, hsum, Int.tmod_eq_emod_of_nonneg hexpired.1]
  rw [int64_of_fits (by omega) (by omega)]
  split
  · rename_i hequal
    rw [hequal, int64_of_over (by omega) (by omega)]
    omega
  · omega

/-- A heartbeat whose sum fits is due at the tick rounded up, plus the phase. -/
theorem nextTick_of_sum_fits {tick : Int} {key : TimerKey} {data : TimerData}
    (hbeat : data.heartbeat = true) (hpos : 0 < data.timeSpan)
    (hexpired : 0 ≤ key.expireTick ∧ key.expireTick ≤ tick) (hfits : tick + data.timeSpan ≤ 2 ^ 63) :
    nextTick tick key data =
      let next := int64 (data.timeSpan * (tick / data.timeSpan) +
        (if 0 < tick % data.timeSpan then data.timeSpan else 0) + key.expireTick % data.timeSpan)
      if next = tick then int64 (next + data.timeSpan) else next := by
  have hsum : int64 (tick + data.timeSpan - 1) = tick + data.timeSpan - 1 :=
    int64_of_fits (by omega) (by omega)
  unfold nextTick
  simp only [hbeat, if_true, hsum, Int.tmod_eq_emod_of_nonneg hexpired.1,
    tdiv_mul_of_nonneg (Int.le_trans hexpired.1 hexpired.2) hpos]

theorem nextTick_eq_next_iff {tick : Int} {key : TimerKey} {data : TimerData}
    (hbeat : data.heartbeat = true) (hspan : 0 < data.timeSpan ∧ data.timeSpan < 2 ^ 63)
    (hexpired : 0 ≤ key.expireTick ∧ key.expireTick ≤ tick) (htick : tick < 2 ^ 63) :
    nextTick tick key data = Beats.next data.timeSpan key.expireTick tick ↔
      ¬BeforePhase data.timeSpan key.expireTick tick ∧
        Fits data.timeSpan key.expireTick tick := by
  have hlater : tick < Beats.next data.timeSpan key.expireTick tick := Beats.now_lt_next hspan.1
  unfold BeforePhase Fits
  by_cases hfits : tick + data.timeSpan ≤ 2 ^ 63
  · rw [nextTick_of_sum_fits hbeat hspan.1 hexpired hfits, Beats.next_eq hspan.1]
    have hsplit := Int.mul_ediv_add_emod tick data.timeSpan
    have hnonneg := Int.emod_nonneg tick (Int.ne_of_gt hspan.1)
    have hlt := Int.emod_lt_of_pos tick hspan.1
    have hphase := Int.emod_nonneg key.expireTick (Int.ne_of_gt hspan.1)
    have hphaseLt := Int.emod_lt_of_pos key.expireTick hspan.1
    generalize data.timeSpan * (tick / data.timeSpan) = start at *
    generalize tick % data.timeSpan = since at *
    generalize key.expireTick % data.timeSpan = phase at *
    generalize data.timeSpan = period at *
    generalize hvalue : start + (if 0 < since then period else 0) + phase = value
    by_cases hsmall : value < 2 ^ 63
    · simp only [int64_of_fits (show -2 ^ 63 ≤ value by split at hvalue <;> omega) hsmall]
      split
      · -- The tick is a multiple of the period and the phase is zero.
        rename_i hequal
        by_cases hlast : value + period < 2 ^ 63
        · rw [int64_of_fits (by omega) hlast]
          split_ifs at * <;> omega
        · rw [int64_of_over (by omega) (by omega)]
          split_ifs at * <;> omega
      · split_ifs at * <;> omega
    · simp only [int64_of_over (show 2 ^ 63 ≤ value by omega)
        (show value < 3 * 2 ^ 63 by split at hvalue <;> omega)]
      split_ifs at * <;> omega
  · have hpast := nextTick_le_of_over hbeat hspan hexpired htick (by omega)
    constructor
    · intro heq
      omega
    · intro hgood
      exact absurd hgood.2.1 hfits

/-- The new tick of a collected heartbeat is the next beat of its phase. -/
structure NextBeat (period anchor tick new : Int) : Prop where
  least : IsLeast {beat | tick < beat ∧ beat ≡ anchor [ZMOD period]} new
  later : tick < new
  within : new ≤ tick + period
  noSkip : tick < anchor + period → new = anchor + period

theorem nextBeat_iff {period anchor tick : Int} (hperiod : 0 < period) (hpast : anchor ≤ tick)
    (new : Int) : NextBeat period anchor tick new ↔ new = Beats.next period anchor tick := by
  constructor
  · intro h
    exact (Beats.isLeast_iff hperiod new).mp h.least
  · intro heq
    subst heq
    exact ⟨Beats.isLeast_next hperiod, Beats.now_lt_next hperiod, Beats.next_le hperiod,
      Beats.next_of_late hpast⟩

/-- What a turn of the pass writes into the map from ids to ticks. -/
theorem expireTick_rearm (f : TimerFactory) (tick : Int) (key : TimerKey) (data : TimerData)
    (timerId : Nat) :
    (f.rearm tick (key, data)).timerId2ExpireTick[timerId]? =
      if key.timerId = timerId then (if data.repeats then some (nextTick tick key data) else none)
      else f.timerId2ExpireTick[timerId]? := by
  unfold rearm TimerData.repeats
  dsimp only
  split
  · change (f.timerId2ExpireTick.insert key.timerId (nextTick tick key data))[timerId]? = _
    rw [ExtTreeMap.getElem?_insert]
    simp only [Nat.compare_eq_eq]
  · change (f.timerId2ExpireTick.erase key.timerId)[timerId]? = _
    rw [ExtTreeMap.getElem?_erase]
    simp only [Nat.compare_eq_eq]

/-- What a pass over entries of distinct ids writes. -/
theorem expireTick_rearmed (tick : Int) (entries : List (TimerKey × TimerData)) (f : TimerFactory)
    (hnodup : (entries.map fun entry => entry.1.timerId).Nodup) :
    (∀ entry ∈ entries,
        (entries.foldl (rearm tick) f).timerId2ExpireTick[entry.1.timerId]? =
          if entry.2.repeats then some (nextTick tick entry.1 entry.2) else none) ∧
      ∀ timerId, (∀ entry ∈ entries, entry.1.timerId ≠ timerId) →
        (entries.foldl (rearm tick) f).timerId2ExpireTick[timerId]? =
          f.timerId2ExpireTick[timerId]? := by
  induction entries generalizing f with
  | nil =>
    refine ⟨?_, fun _ _ => rfl⟩
    intro entry hentry
    cases hentry
  | cons first entries ih =>
    obtain ⟨key, data⟩ := first
    rw [List.map_cons, List.nodup_cons] at hnodup
    obtain ⟨hentries, hothers⟩ := ih (f.rearm tick (key, data)) hnodup.2
    constructor
    · intro entry hentry
      rcases List.mem_cons.mp hentry with rfl | hmem
      · rw [List.foldl_cons, hothers, expireTick_rearm, if_pos rfl]
        intro other hother heq
        apply hnodup.1
        rw [← heq]
        exact List.mem_map_of_mem (f := fun entry => entry.1.timerId) hother
      · exact hentries entry hmem
    · intro timerId hne
      rw [List.foldl_cons, hothers timerId (fun other hother => hne other (List.mem_cons_of_mem _ hother)),
        expireTick_rearm, if_neg (hne (key, data) List.mem_cons_self)]

theorem mem_takeWhile_of_sorted {α : Type*} {R : α → α → Prop} {p : α → Bool}
    (hdown : ∀ a b, R a b → p b = true → p a = true) {l : List α} (hsorted : l.Pairwise R) {x : α}
    (hx : x ∈ l) (hp : p x = true) : x ∈ l.takeWhile p := by
  induction l with
  | nil => cases hx
  | cons a l ih =>
    rw [List.pairwise_cons] at hsorted
    rcases List.mem_cons.mp hx with rfl | hmem
    · rw [List.takeWhile_cons_of_pos hp]
      exact List.mem_cons_self
    · rw [List.takeWhile_cons_of_pos (hdown a x (hsorted.1 x hmem) hp)]
      exact List.mem_cons_of_mem _ (ih hsorted.2 hmem)

theorem expireTick_le_of_lt {key key' : TimerKey} (h : compare key key' = .lt) :
    key.expireTick ≤ key'.expireTick := by
  have h : compareLex (compareOn TimerKey.expireTick) (compareOn TimerKey.timerId) key key' = .lt := h
  simp only [compareLex, compareOn, Ordering.then_eq_lt] at h
  rcases h with hlt | ⟨heq, -⟩
  · exact Int.le_of_lt (Int.compare_eq_lt.mp hlt)
  · exact Int.le_of_eq (Std.compare_eq_iff_eq.mp heq)

/-- The pass takes every node that has expired, as the set is ordered by ticks. -/
theorem expired_of {f : TimerFactory} {key : TimerKey} {data : TimerData}
    (hkey : f.timers[key]? = some data) {tick : Int} (hpast : key.expireTick ≤ tick) :
    (key, data) ∈ f.expired tick := by
  apply mem_takeWhile_of_sorted _ ExtTreeMap.ordered_keys_toList
    (ExtTreeMap.mem_toList_iff_getElem?_eq_some.mpr hkey) (decide_eq_true hpast)
  intro entry entry' hlt hpast'
  have hle := expireTick_le_of_lt hlt
  have hpast' := of_decide_eq_true hpast'
  exact decide_eq_true (by omega)

/-- A recurring node that has expired stands in the set under its new tick. -/
theorem Linked.collect_expired {f : TimerFactory} (h : f.Linked) {key : TimerKey} {data : TimerData}
    (hkey : f.timers[key]? = some data) (hrepeats : data.repeats = true) {tick : Int}
    (hpast : key.expireTick ≤ tick) :
    (f.collect tick).timerId2ExpireTick[key.timerId]? = some (nextTick tick key data) ∧
      (f.collect tick).timers[(⟨nextTick tick key data, key.timerId⟩ : TimerKey)]? = some data := by
  have hmem := expired_of hkey hpast
  have htick := (expireTick_rearmed tick (f.expired tick) f (TimerRun.nodup_expired_ids h tick)).1 _ hmem
  have hnode := (h.rearmed_expired tick).nodes _ hmem
  rw [hrepeats, if_pos rfl] at htick hnode
  refine ⟨htick, ?_⟩
  have hfind : (f.collect tick).nodeOf key.timerId =
      (f.collect tick).timers[(⟨nextTick tick key data, key.timerId⟩ : TimerKey)]? := by
    unfold TimerFactory.nodeOf
    have htick : (f.collect tick).timerId2ExpireTick[key.timerId]? =
        some (nextTick tick key data) := htick
    rw [htick]
    rfl
  exact hfind ▸ hnode

theorem Linked.schedules {f : TimerFactory} (h : f.Linked) {onTimer : Option Nat} {repeats : Bool}
    {timerId : Nat} {r : TimerFactory × Nat} (hr : Schedules f onTimer repeats timerId r)
    (hnew : f.timerId2ExpireTick[timerId]? = none) : r.1.Linked := by
  cases hr with
  | refused hsame => exact hsame.linked h
  | inserted hid hobserver hrepeats hsame =>
    subst hid
    exact hsame.linked (h.insert _ hnew _)

theorem Linked.cancels {f g : TimerFactory} (h : f.Linked) {timerId : Nat} {taken : Option TimerData}
    (hcancel : Cancels f timerId g taken) : g.Linked := by
  cases hcancel with
  | nothing hnone => exact h
  | takes hid hkey hsame =>
    apply hsame.linked
    apply h.erase
    rw [ExtTreeMap.mem_iff_isSome_getElem?, hkey]
    rfl

/-- The tables while the interval changes: the ids of the nodes that still wait to be
put back are in the map alone. -/
def LinkedBut (waiting : List Nat) (f : TimerFactory) : Prop :=
  ∀ key : TimerKey, key ∈ f.timers ↔
    f.timerId2ExpireTick[key.timerId]? = some key.expireTick ∧ key.timerId ∉ waiting

theorem LinkedBut.insert {f : TimerFactory} {timerId : Nat} {waiting : List Nat}
    (h : LinkedBut (timerId :: waiting) f) (hnot : timerId ∉ waiting) (tick : Int) (data : TimerData) :
    LinkedBut waiting (f.insert ⟨tick, timerId⟩ data) := by
  intro key
  unfold TimerFactory.insert
  dsimp only
  rw [ExtTreeMap.mem_insertIfNew, ExtTreeMap.getElem?_insert, LawfulEqCmp.compare_eq_iff_eq, h key]
  simp only [Nat.compare_eq_eq, List.mem_cons, not_or]
  by_cases hid : timerId = key.timerId
  · rw [if_pos hid]
    constructor
    · rintro (heq | ⟨-, hne, -⟩)
      · rw [← heq]
        exact ⟨rfl, hnot⟩
      · exact absurd hid.symm hne
    · rintro ⟨htick, -⟩
      left
      cases key
      simp_all
  · rw [if_neg hid]
    constructor
    · rintro (heq | ⟨htick, -, hwaiting⟩)
      · exact absurd (congrArg TimerKey.timerId heq) hid
      · exact ⟨htick, hwaiting⟩
    · rintro ⟨htick, hwaiting⟩
      exact Or.inr ⟨htick, Ne.symm hid, hwaiting⟩

theorem LinkedBut.reindexed (tick : Int) (jitter : Nat → Int)
    (entries : List (Nat × TimerKey × TimerData)) {f : TimerFactory}
    (h : LinkedBut (entries.map fun entry => entry.2.1.timerId) f)
    (hnodup : (entries.map fun entry => entry.2.1.timerId).Nodup) :
    (entries.foldl (reindex tick jitter) f).Linked := by
  induction entries generalizing f with
  | nil =>
    intro key
    have hkey := h key
    simp only [List.map_nil, List.not_mem_nil, not_false_eq_true, and_true] at hkey
    exact hkey
  | cons entry entries ih =>
    obtain ⟨index, key, data⟩ := entry
    rw [List.map_cons, List.nodup_cons] at hnodup
    apply ih _ hnodup.2
    exact LinkedBut.insert (f := { f with
      htbtCounts := if index < f.htbtCounts.length then f.htbtCounts.set index 1
        else f.htbtCounts.modify (index % f.htbtCounts.length) (· + 1) }) h hnodup.1 _ _

/-- Taking nodes out of the set alone leaves their ids in the map. -/
theorem Linked.taken {f : TimerFactory} (h : f.Linked) (entries : List (TimerKey × TimerData))
    (hmem : ∀ entry ∈ entries, entry.1 ∈ f.timers) (timeSpan : Int) :
    LinkedBut (entries.map fun entry => entry.1.timerId) { f with
      htbtTimeSpan := timeSpan
      timers := entries.foldl (fun timers entry => timers.erase entry.1) f.timers } := by
  have herase : ∀ (entries : List (TimerKey × TimerData)) (timers : ExtTreeMap TimerKey TimerData)
      (key : TimerKey), key ∈ entries.foldl (fun timers entry => timers.erase entry.1) timers ↔
        key ∈ timers ∧ ∀ entry ∈ entries, entry.1 ≠ key := by
    intro entries
    induction entries with
    | nil => simp
    | cons entry entries ih =>
      intro timers key
      rw [List.foldl_cons, ih, ExtTreeMap.mem_erase]
      simp only [ne_eq, LawfulEqCmp.compare_eq_iff_eq, List.mem_cons, forall_eq_or_imp]
      tauto
  intro key
  dsimp only
  rw [herase, h key, List.mem_map]
  constructor
  · rintro ⟨htick, hnot⟩
    refine ⟨htick, ?_⟩
    rintro ⟨entry, hentry, hid⟩
    have hentryTick := (h entry.1).mp (hmem entry hentry)
    rw [hid, htick, Option.some.injEq] at hentryTick
    apply hnot entry hentry
    cases hkey : entry.1
    cases key
    simp_all
  · rintro ⟨htick, hnot⟩
    refine ⟨htick, ?_⟩
    intro entry hentry heq
    exact hnot ⟨entry, hentry, congrArg TimerKey.timerId heq⟩

theorem Linked.updateHeartbeatTimers {f : TimerFactory} (h : f.Linked)
    (htbtIntervalInSeconds : UInt64) (tick : Int) (jitter : Nat → Int) :
    (f.updateHeartbeatTimers htbtIntervalInSeconds tick jitter).1.Linked := by
  have h : (f.assert (0 < htbtIntervalInSeconds)).Linked := h
  unfold TimerFactory.updateHeartbeatTimers
  generalize f.assert (0 < htbtIntervalInSeconds) = f at h
  dsimp only
  split
  · exact h
  · split
    · exact h
    · have hsub : f.heartbeats.Sublist f.timers.toList := List.filter_sublist
      have hids : ((f.heartbeats.zipIdx.map fun entry => (entry.2, entry.1)).map
          fun entry => entry.2.1.timerId) = f.heartbeats.map fun entry => entry.1.timerId := by
        have hfst : f.heartbeats.map (fun entry => entry.1.timerId) =
            (f.heartbeats.zipIdx.map Prod.fst).map fun entry => entry.1.timerId := by
          rw [List.zipIdx_map_fst]
        rw [hfst, List.map_map, List.map_map]
        rfl
      have hmem : ∀ entry ∈ f.heartbeats, entry.1 ∈ f.timers := by
        intro entry hentry
        have hget := ExtTreeMap.mem_toList_iff_getElem?_eq_some.mp (hsub.subset hentry)
        rw [ExtTreeMap.mem_iff_isSome_getElem?, hget]
        rfl
      apply LinkedBut.reindexed
      · rw [hids]
        exact h.taken f.heartbeats hmem _
      · rw [hids]
        exact TimerRun.nodup_ids h hsub

theorem Linked.step {f next : TimerFactory} (h : f.Linked) {op : TimerOp} (hcalled : f.Called op)
    (hstep : f.step op = some next) : next.Linked := by
  cases op with
  | scheduleTimer onTimer timeSpan recurring userData tick timerId =>
    cases hstep
    exact h.schedules (schedules_timer f onTimer timeSpan recurring userData tick timerId) hcalled.2.2.2
  | scheduleHeartbeatTimer onTimer userData tick jitter timerId =>
    cases hstep
    exact h.schedules (schedules_heartbeatTimer f onTimer userData tick jitter timerId) hcalled.2.2.2
  | cancelTimer timerId =>
    cases hstep
    exact h.cancels (cancels_timer f timerId)
  | updateHeartbeatTimers seconds tick jitter =>
    cases hstep
    exact h.updateHeartbeatTimers seconds tick jitter
  | collect tick =>
    cases hstep
    exact (h.rearmed_expired tick).linked

/-- The calls that leave the slot of a timer alone. -/
def Keeps (timerId : Nat) : TimerOp → Prop
  | .scheduleTimer _ _ _ _ _ id => id ≠ timerId
  | .scheduleHeartbeatTimer _ _ _ _ id => id ≠ timerId
  | .updateHeartbeatTimers _ _ _ => False
  | _ => True

/-- A pass does not collect the timer inside its period before its phase, or out of range. -/
def OnBeat (timerId : Nat) (f : TimerFactory) : TimerOp → Prop
  | .collect tick => tick < 2 ^ 63 ∧ ∀ entry ∈ f.expired tick, entry.1.timerId = timerId →
      ¬BeforePhase entry.2.timeSpan entry.1.expireTick tick ∧
        Fits entry.2.timeSpan entry.1.expireTick tick
  | _ => True

/-- While a timer is scheduled it has its node and its phase. -/
structure InPhase (timerId : Nat) (data : TimerData) (phase : Int) (f : TimerFactory) : Prop where
  linked : f.Linked
  node : ∀ expireTick, f.timerId2ExpireTick[timerId]? = some expireTick →
    0 ≤ expireTick ∧ expireTick % data.timeSpan = phase ∧ f.nodeOf timerId = some data

theorem InPhase.schedules {f : TimerFactory} {timerId id : Nat} {data : TimerData} {phase : Int}
    (h : InPhase timerId data phase f) {onTimer : Option Nat} {repeats : Bool}
    {r : TimerFactory × Nat} (hr : Schedules f onTimer repeats id r)
    (hnew : f.timerId2ExpireTick[id]? = none) (hne : id ≠ timerId) :
    InPhase timerId data phase r.1 := by
  refine ⟨h.linked.schedules hr hnew, ?_⟩
  cases hr with
  | refused hsame =>
    intro expireTick htick
    rw [hsame.ids] at htick
    rw [hsame.nodeOf]
    exact h.node expireTick htick
  | inserted hid hobserver hrepeats hsame =>
    intro expireTick htick
    subst hid
    rw [hsame.ids] at htick
    unfold TimerFactory.insert at htick
    dsimp only at htick
    rw [ExtTreeMap.getElem?_insert] at htick
    simp only [Nat.compare_eq_eq, if_neg hne] at htick
    rw [hsame.nodeOf, h.linked.nodeOf_insert _ _ hnew, if_neg hne]
    exact h.node expireTick htick

theorem InPhase.cancels {f g : TimerFactory} {timerId id : Nat} {data : TimerData} {phase : Int}
    (h : InPhase timerId data phase f) {taken : Option TimerData} (hcancel : Cancels f id g taken) :
    InPhase timerId data phase g := by
  refine ⟨h.linked.cancels hcancel, ?_⟩
  cases hcancel with
  | nothing hnone => exact h.node
  | takes hid hkey hsame =>
    intro expireTick htick
    rw [hsame.ids, ExtTreeMap.getElem?_erase] at htick
    simp only [Nat.compare_eq_eq] at htick
    split at htick
    · cases htick
    · rename_i hne
      rw [hsame.nodeOf, nodeOf_erase, if_neg hne]
      exact h.node expireTick htick

theorem InPhase.collect {f : TimerFactory} {timerId : Nat} {data : TimerData} {phase : Int}
    (h : InPhase timerId data phase f) (hbeat : data.heartbeat = true)
    (hspan : 0 < data.timeSpan ∧ data.timeSpan < 2 ^ 63) {tick : Int}
    (hguard : f.OnBeat timerId (.collect tick)) : InPhase timerId data phase (f.collect tick) := by
  refine ⟨(h.linked.rearmed_expired tick).linked, ?_⟩
  intro expireTick htick
  by_cases hexpired : ∃ entry ∈ f.expired tick, entry.1.timerId = timerId
  · obtain ⟨⟨key, data'⟩, hmem, rfl⟩ := hexpired
    obtain ⟨hkey, hpast⟩ := TimerRun.mem_expired hmem
    have hold := (h.linked key).mp (by
      rw [ExtTreeMap.mem_iff_isSome_getElem?, hkey]
      rfl)
    obtain ⟨hnonneg, hphase, hnode⟩ := h.node _ hold
    have hdata : data' = data := by
      have hsome := h.linked.nodeOf hkey
      rw [hnode] at hsome
      exact (Option.some.inj hsome).symm
    subst hdata
    have hrepeats : data'.repeats = true := by
      unfold TimerData.repeats
      rw [hbeat, Bool.or_true]
    obtain ⟨hnew, hnewNode⟩ := h.linked.collect_expired hkey hrepeats hpast
    have hnewNode : (f.collect tick).timers[(⟨nextTick tick key data', key.timerId⟩ : TimerKey)]? =
        some data' := hnewNode
    have hfound := (h.linked.rearmed_expired tick).linked.nodeOf hnewNode
    have hnext := (nextTick_eq_next_iff hbeat hspan ⟨hnonneg, hpast⟩ hguard.1).mpr
      (hguard.2 _ hmem rfl)
    have hlater : tick < Beats.next data'.timeSpan key.expireTick tick := Beats.now_lt_next hspan.1
    rw [hnew, Option.some.injEq] at htick
    rw [← htick]
    refine ⟨?_, ?_, hfound⟩
    · simp only at hpast hnonneg ⊢
      omega
    · rw [← hphase]
      exact hnext ▸ Beats.next_modEq
  · have hne : ∀ entry ∈ f.expired tick, entry.1.timerId ≠ timerId :=
      fun entry hentry heq => hexpired ⟨entry, hentry, heq⟩
    have hsame : (f.collect tick).timerId2ExpireTick[timerId]? = f.timerId2ExpireTick[timerId]? :=
      (expireTick_rearmed tick _ f (TimerRun.nodup_expired_ids h.linked tick)).2 timerId hne
    rw [hsame] at htick
    rw [(h.linked.rearmed_expired tick).others timerId hne]
    exact h.node expireTick htick

theorem InPhase.step {f next : TimerFactory} {timerId : Nat} {data : TimerData} {phase : Int}
    (h : InPhase timerId data phase f) (hbeat : data.heartbeat = true)
    (hspan : 0 < data.timeSpan ∧ data.timeSpan < 2 ^ 63) {op : TimerOp}
    (hguard : f.Called op ∧ Keeps timerId op ∧ f.OnBeat timerId op) (hstep : f.step op = some next) :
    InPhase timerId data phase next := by
  obtain ⟨hcalled, hkeeps, hon⟩ := hguard
  cases op with
  | scheduleTimer onTimer timeSpan recurring userData tick id =>
    cases hstep
    exact h.schedules (schedules_timer f onTimer timeSpan recurring userData tick id) hcalled.2.2.2 hkeeps
  | scheduleHeartbeatTimer onTimer userData tick jitter id =>
    cases hstep
    exact h.schedules (schedules_heartbeatTimer f onTimer userData tick jitter id) hcalled.2.2.2 hkeeps
  | cancelTimer id =>
    cases hstep
    exact h.cancels (cancels_timer f id)
  | updateHeartbeatTimers seconds tick jitter => exact hkeeps.elim
  | collect tick =>
    cases hstep
    exact h.collect hbeat hspan hon

/-- A collected heartbeat moves to the next beat of its phase exactly when the tick does
not lie inside its period before the phase, and over every run of such ticks it keeps
the phase it was scheduled with. -/
theorem heartbeat_next_beat_iff {mmTimer : Bool} {ops : List TimerOp} {f : TimerFactory}
    (hcalled : Guarded step Called (start mmTimer) ops) (hrun : run step (start mmTimer) ops = some f)
    {key : TimerKey} {data : TimerData} (hkey : f.timers[key]? = some data)
    (hbeat : data.heartbeat = true) (hspan : 0 < data.timeSpan ∧ data.timeSpan < 2 ^ 63)
    (hnonneg : 0 ≤ key.expireTick) :
    (∀ tick, key.expireTick ≤ tick → tick < 2 ^ 63 →
      ∃ new, (f.collect tick).timers[(⟨new, key.timerId⟩ : TimerKey)]? = some data ∧
        (f.collect tick).timerId2ExpireTick[key.timerId]? = some new ∧
        (NextBeat data.timeSpan key.expireTick tick new ↔
          ¬BeforePhase data.timeSpan key.expireTick tick ∧
            Fits data.timeSpan key.expireTick tick)) ∧
      ∀ later g, Guarded step (fun g op => g.Called op ∧ Keeps key.timerId op ∧
          g.OnBeat key.timerId op) f later →
        run step f later = some g →
        ∀ (key' : TimerKey) (data' : TimerData), g.timers[key']? = some data' →
          key'.timerId = key.timerId →
          data' = data ∧ key'.expireTick % data.timeSpan = key.expireTick % data.timeSpan := by
  have hlinked : f.Linked :=
    run_preserves (fun _ _ _ hinv hguard hstep => hinv.step hguard hstep)
      (repInv_start mmTimer).linked hcalled hrun
  have hrepeats : data.repeats = true := by
    unfold TimerData.repeats
    rw [hbeat, Bool.or_true]
  constructor
  · intro tick hpast htick
    obtain ⟨hid, hnode⟩ := hlinked.collect_expired hkey hrepeats hpast
    refine ⟨nextTick tick key data, hnode, hid, ?_⟩
    rw [nextBeat_iff hspan.1 hpast]
    exact nextTick_eq_next_iff hbeat hspan ⟨hnonneg, hpast⟩ htick
  · intro later g hguard hlater key' data' hkey' hid
    have hstart : InPhase key.timerId data (key.expireTick % data.timeSpan) f := by
      refine ⟨hlinked, ?_⟩
      intro expireTick htick
      have hold := (hlinked key).mp (by
        rw [ExtTreeMap.mem_iff_isSome_getElem?, hkey]
        rfl)
      rw [hold, Option.some.injEq] at htick
      exact ⟨htick ▸ hnonneg, htick ▸ rfl, hlinked.nodeOf hkey⟩
    have hfinal : InPhase key.timerId data (key.expireTick % data.timeSpan) g :=
      run_preserves (fun _ _ _ hinv hguard hstep => hinv.step hbeat hspan hguard hstep) hstart hguard hlater
    have hnow := (hfinal.linked key').mp (by
      rw [ExtTreeMap.mem_iff_isSome_getElem?, hkey']
      rfl)
    rw [hid] at hnow
    obtain ⟨-, hphase, hnode⟩ := hfinal.node _ hnow
    have hsome := hfinal.linked.nodeOf hkey'
    rw [hid, hnode] at hsome
    exact ⟨(Option.some.inj hsome).symm, hphase⟩

/-- Two heartbeats of 25 seconds. The second one has the slot at 25. -/
def twoHeartbeats : List TimerOp :=
  [.scheduleHeartbeatTimer (some 1) 0 100 3 2, .scheduleHeartbeatTimer (some 2) 0 100 3 4]

theorem heartbeat_next_beat_iff_twoHeartbeats :
    ∃ f, run step (start false) twoHeartbeats = some f ∧
      ∃ new, (f.collect 26000).timers[(⟨new, 4⟩ : TimerKey)]? = some ⟨2, 25000, true, true, 1, 0⟩ ∧
        NextBeat 25000 25028 26000 new := by
  have hcalled : Guarded step Called (start false) twoHeartbeats := by decide +kernel
  have hrun : run step (start false) twoHeartbeats = some _ := rfl
  have hkey : ((run step (start false) twoHeartbeats).bind fun f =>
      f.timers[(⟨25028, 4⟩ : TimerKey)]?) = some ⟨2, 25000, true, true, 1, 0⟩ := by decide +kernel
  have hbeats := (heartbeat_next_beat_iff hcalled hrun hkey rfl (by decide) (by decide)).1 26000
    (by decide) (by decide)
  obtain ⟨new, hnode, -, hiff⟩ := hbeats
  exact ⟨_, hrun, new, hnode, hiff.mpr (by unfold BeforePhase Fits Beats.next; decide)⟩

/-- Collected less than one interval late, the second heartbeat skips a beat. -/
theorem heartbeat_skips_beat :
    ¬ ∀ (mmTimer : Bool) (ops : List TimerOp) (f : TimerFactory),
      Guarded step Called (start mmTimer) ops → run step (start mmTimer) ops = some f →
      ∀ (key : TimerKey) (data : TimerData), f.timers[key]? = some data → data.heartbeat = true →
        0 < data.timeSpan ∧ data.timeSpan < 2 ^ 63 → 0 ≤ key.expireTick →
        ∀ tick, key.expireTick ≤ tick → tick < 2 ^ 63 →
          ∃ new, (f.collect tick).timerId2ExpireTick[key.timerId]? = some new ∧
            NextBeat data.timeSpan key.expireTick tick new := by
  intro hclaim
  have hcalled : Guarded step Called (start false) twoHeartbeats := by decide +kernel
  have hkey : ((run step (start false) twoHeartbeats).bind fun f =>
      f.timers[(⟨25028, 4⟩ : TimerKey)]?) = some ⟨2, 25000, true, true, 1, 0⟩ := by decide +kernel
  have hskipped : ((run step (start false) twoHeartbeats).bind fun f =>
      (f.collect 50010).timerId2ExpireTick[4]?) = some 75028 := by decide +kernel
  obtain ⟨new, hnew, hbeat⟩ := hclaim false twoHeartbeats _ hcalled rfl _ _ hkey rfl (by decide)
    (by decide) 50010 (by decide) (by decide)
  have hsame : new = 75028 := Option.some.inj (hnew.symm.trans hskipped)
  have hnext := hbeat.noSkip (by decide)
  rw [hsame] at hnext
  revert hnext
  decide

end TimerFactory

end Pronet.Util
