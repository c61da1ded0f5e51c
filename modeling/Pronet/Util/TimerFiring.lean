import Pronet.Util.TimerRun

/-! When timers fire, and who holds references to their observers. Every id has one node
at most, which a pass either takes out or puts back at another tick. -/
namespace Pronet.Util

open Std Library Runs

namespace TimerFactory

/-- Two factories with the same nodes. -/
structure SameTables (f g : TimerFactory) : Prop where
  timers : g.timers = f.timers
  ids : g.timerId2ExpireTick = f.timerId2ExpireTick

variable {f g : TimerFactory}

theorem SameTables.linked (h : SameTables f g) (hlinked : f.Linked) : g.Linked := by
  unfold Linked
  rw [h.timers, h.ids]
  exact hlinked

theorem SameTables.nodeOf (h : SameTables f g) (timerId : Nat) : g.nodeOf timerId = f.nodeOf timerId := by
  unfold TimerFactory.nodeOf
  rw [h.timers, h.ids]

theorem SameTables.nodesOf (h : SameTables f g) (onTimer : Nat) : g.nodesOf onTimer = f.nodesOf onTimer := by
  unfold TimerFactory.nodesOf
  rw [h.timers]

@[simp] theorem nodeOf_assertSizes (f : TimerFactory) (timerId : Nat) :
    f.assertSizes.nodeOf timerId = f.nodeOf timerId := rfl

@[simp] theorem nodesOf_assertSizes (f : TimerFactory) (onTimer : Nat) :
    f.assertSizes.nodesOf onTimer = f.nodesOf onTimer := rfl

/-- What a function that schedules a timer does. -/
inductive Schedules (f : TimerFactory) (onTimer : Option Nat) (repeats : Bool) (timerId : Nat) :
    TimerFactory × Nat → Prop
  | refused {g : TimerFactory} (hsame : SameTables f g) : Schedules f onTimer repeats timerId (g, 0)
  | inserted {g : TimerFactory} {key : TimerKey} {data : TimerData} (hid : key.timerId = timerId)
      (hobserver : onTimer = some data.onTimer) (hrepeats : data.repeats = repeats)
      (hsame : SameTables (f.insert key data) g) : Schedules f onTimer repeats timerId (g, timerId)

theorem schedules_timer (f : TimerFactory) (onTimer : Option Nat) (timeSpan : UInt64)
    (recurring : Bool) (userData tick : Int) (timerId : Nat) :
    Schedules f onTimer recurring timerId
      (f.scheduleTimer onTimer timeSpan recurring userData tick timerId) := by
  unfold scheduleTimer
  dsimp only
  split
  · exact .refused ⟨rfl, rfl⟩
  · split
    · exact .refused ⟨rfl, rfl⟩
    · refine .inserted rfl rfl ?_ ⟨rfl, rfl⟩
      exact Bool.or_false recurring

theorem schedules_heartbeatTimer (f : TimerFactory) (onTimer : Option Nat) (userData tick jitter : Int)
    (timerId : Nat) :
    Schedules f onTimer true timerId
      (f.scheduleHeartbeatTimer onTimer userData tick jitter timerId) := by
  unfold scheduleHeartbeatTimer
  dsimp only
  split
  · exact .refused ⟨rfl, rfl⟩
  · split
    · exact .refused ⟨rfl, rfl⟩
    · exact .inserted rfl rfl rfl ⟨rfl, rfl⟩

/-- What `CancelTimer` does. -/
inductive Cancels (f : TimerFactory) (timerId : Nat) : TimerFactory → Option TimerData → Prop
  | nothing (hnone : timerId ≠ 0 → f.nodeOf timerId = none) : Cancels f timerId f none
  | takes {g : TimerFactory} {key : TimerKey} {data : TimerData} (hid : key.timerId = timerId)
      (hkey : f.timers[key]? = some data)
      (hsame : SameTables { f with
        timers := f.timers.erase key
        timerId2ExpireTick := f.timerId2ExpireTick.erase key.timerId } g) :
      Cancels f timerId g (some data)

theorem cancels_timer (f : TimerFactory) (timerId : Nat) :
    Cancels f timerId (f.cancelTimer timerId) (TimerRun.cancelledNode f timerId) := by
  unfold cancelTimer TimerRun.cancelledNode TimerFactory.nodeOf
  split
  · rename_i hzero
    exact .nothing (fun hne => absurd hzero hne)
  · cases htick : f.timerId2ExpireTick[timerId]? with
    | none => exact .nothing (fun _ => by rw [TimerFactory.nodeOf, htick]; rfl)
    | some expireTick =>
      rw [Option.bind_some]
      dsimp only
      cases hkey : f.timers[(⟨expireTick, timerId⟩ : TimerKey)]? with
      | none => exact .nothing (fun _ => by rw [TimerFactory.nodeOf, htick]; exact hkey)
      | some data =>
        refine .takes ?_ hkey ?_
        · rfl
        · dsimp only
          split <;> exact ⟨rfl, rfl⟩

/-- A turn of the pass puts the node of a recurring timer back, and takes the others out. -/
theorem Linked.nodeOf_rearm (h : f.Linked) {key : TimerKey} {data : TimerData}
    (hkey : f.timers[key]? = some data) (tick : Int) (timerId : Nat) :
    (f.rearm tick (key, data)).nodeOf timerId =
      if key.timerId = timerId then (if data.repeats then some data else none)
      else f.nodeOf timerId := by
  have hmem : key ∈ f.timers := by
    rw [ExtTreeMap.mem_iff_isSome_getElem?, hkey]
    rfl
  unfold TimerFactory.rearm TimerData.repeats
  dsimp only
  split
  · have herased := (h.erase hmem).nodeOf_insert ⟨nextTick tick key data, key.timerId⟩ data
      ExtTreeMap.getElem?_erase_self timerId
    rw [← insert_moved, nodeOf_erase] at herased
    rw [nodeOf_assertSizes, herased]
    dsimp only
    split <;> rfl
  · exact nodeOf_erase timerId

theorem Linked.nodesOf_rearm (h : f.Linked) {key : TimerKey} {data : TimerData}
    (hkey : f.timers[key]? = some data) (tick : Int) (onTimer : Nat) :
    f.nodesOf onTimer = (f.rearm tick (key, data)).nodesOf onTimer +
      if data.repeats = false ∧ data.onTimer = onTimer then 1 else 0 := by
  have hmem : key ∈ f.timers := by
    rw [ExtTreeMap.mem_iff_isSome_getElem?, hkey]
    rfl
  have hbefore := nodesOf_erase hkey (f.timerId2ExpireTick.erase key.timerId) onTimer
  unfold TimerFactory.rearm
  dsimp only
  split
  · rename_i hrepeats
    have hnew : (⟨nextTick tick key data, key.timerId⟩ : TimerKey) ∉ f.timers.erase key :=
      (h.erase hmem).not_mem ExtTreeMap.getElem?_erase_self
    have hafter := nodesOf_insert (f := { f with
      timers := f.timers.erase key
      timerId2ExpireTick := f.timerId2ExpireTick.erase key.timerId }) hnew data onTimer
    rw [← insert_moved] at hafter
    have hrepeats : data.repeats = true := hrepeats
    rw [if_neg (by simp [hrepeats]), nodesOf_assertSizes, hafter]
    omega
  · rename_i honce
    have honce : data.repeats = false := Bool.not_eq_true _ ▸ honce
    rw [nodesOf_assertSizes, hbefore]
    simp only [honce, true_and]
    omega

/-- What a pass over some entries leaves. -/
structure Rearmed (f : TimerFactory) (entries : List (TimerKey × TimerData)) (g : TimerFactory) :
    Prop where
  linked : g.Linked
  others : ∀ timerId, (∀ entry ∈ entries, entry.1.timerId ≠ timerId) → g.nodeOf timerId = f.nodeOf timerId
  nodes : ∀ entry ∈ entries,
    g.nodeOf entry.1.timerId = if entry.2.repeats then some entry.2 else none
  count : ∀ onTimer, f.nodesOf onTimer = g.nodesOf onTimer +
    entries.countP fun entry => entry.2.repeats = false ∧ entry.2.onTimer = onTimer

theorem Linked.timerId_inj (h : f.Linked) {key key' : TimerKey} {data data' : TimerData}
    (hkey : f.timers[key]? = some data) (hkey' : f.timers[key']? = some data')
    (hid : key.timerId = key'.timerId) : key = key' := by
  have hmem : key ∈ f.timers := by
    rw [ExtTreeMap.mem_iff_isSome_getElem?, hkey]
    rfl
  have hmem' : key' ∈ f.timers := by
    rw [ExtTreeMap.mem_iff_isSome_getElem?, hkey']
    rfl
  have htick := (h key).mp hmem
  rw [hid, (h key').mp hmem', Option.some.injEq] at htick
  cases key
  cases key'
  simp_all

theorem Linked.rearmed (tick : Int) (entries : List (TimerKey × TimerData)) {f : TimerFactory}
    (h : f.Linked) (hnodup : (entries.map Prod.fst).Nodup)
    (hmem : ∀ entry ∈ entries, f.timers[entry.1]? = some entry.2) :
    Rearmed f entries (entries.foldl (TimerFactory.rearm tick) f) := by
  induction entries generalizing f with
  | nil =>
    refine ⟨h, fun _ _ => rfl, ?_, fun _ => rfl⟩
    intro entry hentry
    cases hentry
  | cons entry entries ih =>
    obtain ⟨key, data⟩ := entry
    rw [List.map_cons, List.nodup_cons] at hnodup
    have hkey := hmem (key, data) List.mem_cons_self
    have hrest := ih (h.rearm hkey tick) hnodup.2 (by
      intro other hother
      apply h.rearm_other hkey tick (hmem other (List.mem_cons_of_mem _ hother))
      intro heq
      exact hnodup.1 (heq ▸ List.mem_map_of_mem hother))
    -- The ids of the entries are distinct, as their keys are.
    have hother : ∀ other ∈ entries, other.1.timerId ≠ key.timerId := by
      intro other hother hid
      have heq := h.timerId_inj (hmem other (List.mem_cons_of_mem _ hother)) hkey hid
      exact hnodup.1 (heq ▸ List.mem_map_of_mem hother)
    refine ⟨hrest.linked, ?_, ?_, ?_⟩
    · intro timerId hne
      rw [List.foldl_cons, hrest.others timerId (fun other hmem => hne other (List.mem_cons_of_mem _ hmem)),
        h.nodeOf_rearm hkey, if_neg (hne (key, data) List.mem_cons_self)]
    · intro other hin
      rcases List.mem_cons.mp hin with rfl | hin
      · rw [List.foldl_cons, hrest.others _ hother, h.nodeOf_rearm hkey, if_pos rfl]
      · exact hrest.nodes other hin
    · intro onTimer
      rw [h.nodesOf_rearm hkey tick onTimer, hrest.count onTimer, List.countP_cons, List.foldl_cons]
      simp only [decide_eq_true_eq]
      omega

theorem Linked.rearmed_expired (h : f.Linked) (tick : Int) :
    Rearmed f (f.expired tick) (f.collect tick) := by
  refine h.rearmed tick (f.expired tick) ?_ ?_
  · have hkeys : (f.timers.toList.map Prod.fst).Nodup := by
      rw [ExtTreeMap.map_fst_toList_eq_keys]
      exact ExtTreeMap.nodup_keys
    exact hkeys.sublist ((List.takeWhile_sublist _).map Prod.fst)
  · intro entry hentry
    exact ExtTreeMap.mem_toList_iff_getElem?_eq_some.mp ((List.takeWhile_sublist _).subset hentry)

end TimerFactory

namespace TimerRun

theorem timesOf_append (xs ys : List TimerEntry) (timerId : Nat) :
    timesOf (xs ++ ys) timerId = timesOf xs timerId + timesOf ys timerId := List.countP_append

theorem timesOf_eq_zero {entries : List TimerEntry} {timerId : Nat} :
    timesOf entries timerId = 0 ↔ ∀ entry ∈ entries, entry.key.timerId ≠ timerId := by
  simp [timesOf, List.countP_eq_zero]

/-- The entries that hold a reference to an observer. -/
def entriesOf (entries : List TimerEntry) (onTimer : Nat) : Nat :=
  entries.countP fun entry => entry.data.onTimer = onTimer

/-- The node of an id, as a number. -/
def waiting (f : TimerFactory) (timerId : Nat) : Nat := if (f.nodeOf timerId).isSome then 1 else 0

structure Inv (w : TimerRun) : Prop where
  linked : w.factory.Linked
  issued : (w.issued.map Prod.fst).Nodup
  nonzero : 0 ∉ w.issued.map Prod.fst
  nodes : ∀ timerId data, w.factory.nodeOf timerId = some data → (timerId, data.repeats) ∈ w.issued
  queue : w.collected = w.fired ++ w.batch
  known : ∀ entry ∈ w.collected, (entry.key.timerId, entry.data.repeats) ∈ w.issued ∧
    entry.key.expireTick ≤ entry.tick ∧ entry.pass < w.passes
  current : ∀ entry ∈ w.batch, entry.pass + 1 = w.passes
  onePass : (w.collected.map fun entry => (entry.key.timerId, entry.pass)).Nodup
  oneShot : ∀ timerId, (timerId, false) ∈ w.issued →
    timesOf w.collected timerId + waiting w.factory timerId ≤ 1
  cancelled : ∀ cancel ∈ w.cancelled, cancel.timerId ∈ w.issued.map Prod.fst ∧
    w.factory.nodeOf cancel.timerId = none ∧
    timesOf w.collected cancel.timerId = cancel.collected ∧ cancel.collected ≤ cancel.fired + 1
  references : ∀ onTimer, w.addRefs.count onTimer = w.releases.count onTimer +
    w.factory.nodesOf onTimer + entriesOf w.batch onTimer + entriesOf w.calling.toList onTimer +
    w.releasing.count onTimer

theorem inv_start (mmTimer : Bool) : (start mmTimer).Inv where
  linked := (TimerFactory.repInv_start mmTimer).linked
  issued := List.nodup_nil
  nonzero hmem := by cases hmem
  nodes timerId data hnode := by
    obtain ⟨key, -, hkey⟩ := TimerFactory.exists_of_nodeOf hnode
    rw [show (start mmTimer).factory.timers = ∅ from rfl] at hkey
    simp at hkey
  queue := rfl
  known entry hmem := by cases hmem
  current entry hmem := by cases hmem
  onePass := List.nodup_nil
  oneShot timerId hmem := by cases hmem
  cancelled cancel hmem := by cases hmem
  references onTimer := by
    have hnodes : (start mmTimer).factory.nodesOf onTimer = 0 := rfl
    rw [hnodes]
    rfl

variable {w : TimerRun}

theorem mem_issued_ids {w : TimerRun} {timerId : Nat} {kind : Bool} (h : (timerId, kind) ∈ w.issued) :
    timerId ∈ w.issued.map Prod.fst := List.mem_map.mpr ⟨_, h, rfl⟩

/-- The tables change, but no node. -/
theorem Inv.sameTables (h : w.Inv) {g : TimerFactory} (hsame : TimerFactory.SameTables w.factory g) :
    Inv { w with factory := g } :=
  { h with
    linked := hsame.linked h.linked
    nodes := fun timerId data hnode => h.nodes timerId data ((hsame.nodeOf timerId).symm.trans hnode)
    oneShot := fun timerId hmem => by
      dsimp only [waiting]
      rw [hsame.nodeOf]
      exact h.oneShot timerId hmem
    cancelled := fun cancel hmem => by
      dsimp only
      rw [hsame.nodeOf]
      exact h.cancelled cancel hmem
    references := fun onTimer => by
      dsimp only
      rw [hsame.nodesOf]
      exact h.references onTimer }

/-- A timer under a new id. -/
theorem Inv.insert (h : w.Inv) {key : TimerKey} (data : TimerData) (hzero : key.timerId ≠ 0)
    (hfresh : key.timerId ∉ w.issued.map Prod.fst) :
    Inv { w with
      factory := w.factory.insert key data
      issued := w.issued ++ [(key.timerId, data.repeats)]
      addRefs := w.addRefs ++ [data.onTimer] } := by
  have hnone : w.factory.nodeOf key.timerId = none := by
    by_contra hsome
    obtain ⟨data', hnode⟩ := Option.ne_none_iff_exists'.mp hsome
    exact hfresh (mem_issued_ids (h.nodes _ _ hnode))
  have hfree := h.linked.nodeOf_eq_none.mp hnone
  have hnode := h.linked.nodeOf_insert key data hfree
  -- No entry has the id.
  have hnever : timesOf w.collected key.timerId = 0 := by
    rw [timesOf_eq_zero]
    intro entry hentry hid
    exact hfresh (hid ▸ mem_issued_ids (h.known entry hentry).1)
  have hold : ∀ {timerId : Nat}, timerId ∈ w.issued.map Prod.fst → key.timerId ≠ timerId := by
    rintro timerId hmem rfl
    exact hfresh hmem
  refine ⟨h.linked.insert key hfree data, ?_, ?_, ?_, h.queue, ?_, h.current, h.onePass, ?_, ?_, ?_⟩
  · rw [List.map_append, List.nodup_append]
    refine ⟨h.issued, List.nodup_singleton _, ?_⟩
    intro timerId hmem timerId' hmem' heq
    rw [List.mem_singleton.mp hmem'] at heq
    have hid : timerId = key.timerId := heq
    exact hfresh (hid ▸ hmem)
  · rw [List.map_append, List.mem_append, not_or]
    refine ⟨h.nonzero, ?_⟩
    rw [List.map_singleton, List.mem_singleton]
    exact hzero.symm
  · intro timerId data' hfound
    dsimp only at hfound ⊢
    rw [hnode] at hfound
    split at hfound
    · rename_i hid
      cases hfound
      exact List.mem_append_right _ (hid ▸ List.mem_singleton_self _)
    · exact List.mem_append_left _ (h.nodes timerId data' hfound)
  · intro entry hentry
    exact ⟨List.mem_append_left _ (h.known entry hentry).1, (h.known entry hentry).2⟩
  · intro timerId hmem
    dsimp only [waiting]
    rw [hnode]
    split
    · rename_i hid
      rw [← hid, hnever]
      exact Nat.le_refl 1
    · rename_i hne
      rcases List.mem_append.mp hmem with hmem | hmem
      · exact h.oneShot timerId hmem
      · rw [List.mem_singleton, Prod.mk.injEq] at hmem
        exact absurd hmem.1.symm hne
  · intro cancel hcancel
    obtain ⟨hmem, hgone, hrest⟩ := h.cancelled cancel hcancel
    refine ⟨?_, ?_, hrest⟩
    · rw [List.map_append]
      exact List.mem_append_left _ hmem
    · dsimp only
      rw [hnode, if_neg (hold hmem)]
      exact hgone
  · intro onTimer
    have hbefore := h.references onTimer
    dsimp only
    rw [List.count_append, List.count_singleton,
      TimerFactory.nodesOf_insert (h.linked.not_mem hfree)]
    simp only [beq_iff_eq]
    omega

theorem Inv.scheduled (h : w.Inv) {onTimer : Option Nat} {repeats : Bool} {timerId : Nat}
    {r : TimerFactory × Nat} (hschedules : TimerFactory.Schedules w.factory onTimer repeats timerId r)
    (hzero : timerId ≠ 0) (hfresh : w.issuedId timerId = false) :
    (w.scheduled r onTimer repeats).Inv := by
  unfold TimerRun.scheduled
  cases hschedules with
  | refused hsame =>
    rw [if_pos rfl]
    exact h.sameTables hsame
  | inserted hid hobserver hrepeats hsame =>
    rw [if_neg hzero, hobserver]
    rename_i g key data
    subst hid hrepeats
    have hnew : key.timerId ∉ w.issued.map Prod.fst := by
      intro hmem
      rw [issuedId, List.contains_eq_mem, decide_eq_false_iff_not] at hfresh
      exact hfresh hmem
    exact (h.insert data hzero hnew).sameTables hsame

theorem timesOf_eq_count (entries : List TimerEntry) (timerId : Nat) :
    timesOf entries timerId = (entries.map fun entry => entry.key.timerId).count timerId := by
  rw [timesOf, List.count_eq_countP, List.countP_map]
  congr 1

/-- A batch has a timer once at most. -/
theorem Inv.batch_once (h : w.Inv) (timerId : Nat) : timesOf w.batch timerId ≤ 1 := by
  have hnodup := h.onePass
  rw [h.queue, List.map_append] at hnodup
  have hbatch := hnodup.of_append_right
  have hsame : (w.batch.map fun entry => (entry.key.timerId, entry.pass)) =
      (w.batch.map fun entry => entry.key.timerId).map fun timerId => (timerId, w.passes - 1) := by
    rw [List.map_map]
    apply List.map_congr_left
    intro entry hentry
    have := h.current entry hentry
    simp only [Function.comp_apply, Prod.mk.injEq, true_and]
    omega
  rw [hsame] at hbatch
  rw [timesOf_eq_count]
  exact List.nodup_iff_count_le_one.mp (hbatch.of_map _) timerId

theorem Inv.times (h : w.Inv) (timerId : Nat) :
    timesOf w.collected timerId = timesOf w.fired timerId + timesOf w.batch timerId := by
  rw [h.queue, timesOf_append]

theorem Inv.recorded (h : w.Inv) {timerId : Nat} (hissued : timerId ∈ w.issued.map Prod.fst)
    (hnone : w.factory.nodeOf timerId = none) :
    Inv { w with cancelled := w.cancelled ++
      [⟨timerId, timesOf w.collected timerId, timesOf w.fired timerId⟩] } :=
  { h with
    cancelled := by
      intro cancel hmem
      rcases List.mem_append.mp hmem with hmem | hmem
      · exact h.cancelled cancel hmem
      · cases List.mem_singleton.mp hmem
        refine ⟨hissued, hnone, rfl, ?_⟩
        have := h.times timerId
        have := h.batch_once timerId
        dsimp only
        omega }

/-- A node goes out of the tables, and its reference is to be given back. -/
theorem Inv.takeOut (h : w.Inv) {key : TimerKey} {data : TimerData} {g : TimerFactory}
    (hkey : w.factory.timers[key]? = some data)
    (hsame : TimerFactory.SameTables { w.factory with
      timers := w.factory.timers.erase key
      timerId2ExpireTick := w.factory.timerId2ExpireTick.erase key.timerId } g) :
    Inv { w with factory := g, releasing := w.releasing ++ [data.onTimer] } := by
  have hmem : key ∈ w.factory.timers := by
    rw [ExtTreeMap.mem_iff_isSome_getElem?, hkey]
    rfl
  have hnode : ∀ timerId, g.nodeOf timerId =
      if key.timerId = timerId then none else w.factory.nodeOf timerId := by
    intro timerId
    rw [hsame.nodeOf, TimerFactory.nodeOf_erase]
  exact { h with
    linked := hsame.linked (h.linked.erase hmem)
    nodes := fun timerId data' hfound => by
      dsimp only at hfound ⊢
      rw [hnode] at hfound
      split at hfound
      · cases hfound
      · exact h.nodes timerId data' hfound
    oneShot := fun timerId hmem => by
      have hbefore := h.oneShot timerId hmem
      dsimp only [waiting] at hbefore ⊢
      rw [hnode]
      split
      · simp only [Option.isSome_none, Bool.false_eq_true, if_false]
        omega
      · exact hbefore
    cancelled := fun cancel hmem => by
      obtain ⟨hissued, hgone, hrest⟩ := h.cancelled cancel hmem
      refine ⟨hissued, ?_, hrest⟩
      dsimp only
      rw [hnode, hgone, ite_self]
    references := fun onTimer => by
      have hbefore := h.references onTimer
      have hnodes := TimerFactory.nodesOf_erase hkey
        (w.factory.timerId2ExpireTick.erase key.timerId) onTimer
      dsimp only
      rw [hsame.nodesOf, List.count_append, List.count_singleton]
      simp only [beq_iff_eq]
      omega }

theorem Inv.cancelTimer (h : w.Inv) (timerId : Nat) {next : TimerRun}
    (hstep : w.step (.cancelTimer timerId) = some next) : next.Inv := by
  cases hstep
  have hcancels := TimerFactory.cancels_timer w.factory timerId
  generalize w.factory.cancelTimer timerId = g at hcancels
  generalize cancelledNode w.factory timerId = node at hcancels
  have hnonzero : timerId ∈ w.issued.map Prod.fst → timerId ≠ 0 := by
    rintro hmem rfl
    exact h.nonzero hmem
  cases hcancels with
  | nothing hnone =>
    dsimp only [Option.map_none, Option.toList_none]
    rw [List.append_nil]
    split
    · rename_i hissued
      have hissued : timerId ∈ w.issued.map Prod.fst := List.contains_iff_mem.mp hissued
      exact h.recorded hissued (hnone (hnonzero hissued))
    · rw [List.append_nil]
      exact h
  | takes hid hkey hsame =>
    have htaken := h.takeOut hkey hsame
    dsimp only [Option.map_some, Option.toList_some]
    split
    · rename_i hissued
      refine htaken.recorded (List.contains_iff_mem.mp hissued) ?_
      dsimp only
      rw [hsame.nodeOf, TimerFactory.nodeOf_erase, if_pos hid]
    · rw [List.append_nil]
      exact htaken

theorem Inv.kind_unique (h : w.Inv) {timerId : Nat} {kind kind' : Bool}
    (hkind : (timerId, kind) ∈ w.issued) (hkind' : (timerId, kind') ∈ w.issued) : kind = kind' :=
  congrArg Prod.snd (List.inj_on_of_nodup_map h.issued hkind hkind' rfl)

theorem mem_expired {f : TimerFactory} {tick : Int} {entry : TimerKey × TimerData}
    (hentry : entry ∈ f.expired tick) :
    f.timers[entry.1]? = some entry.2 ∧ entry.1.expireTick ≤ tick := by
  refine ⟨ExtTreeMap.mem_toList_iff_getElem?_eq_some.mp ((List.takeWhile_sublist _).subset hentry), ?_⟩
  have htick := List.mem_takeWhile_imp (p := fun entry : TimerKey × TimerData =>
    decide (entry.1.expireTick ≤ tick)) hentry
  exact of_decide_eq_true htick

/-- The ids are distinct, as the keys are. -/
theorem nodup_ids {f : TimerFactory} (h : f.Linked) {entries : List (TimerKey × TimerData)}
    (hsub : entries.Sublist f.timers.toList) : (entries.map fun entry => entry.1.timerId).Nodup := by
  have hkeys : (entries.map Prod.fst).Nodup := by
    have hall : (f.timers.toList.map Prod.fst).Nodup := by
      rw [ExtTreeMap.map_fst_toList_eq_keys]
      exact ExtTreeMap.nodup_keys
    exact hall.sublist (hsub.map Prod.fst)
  have hcomp : (entries.map fun entry => entry.1.timerId) =
      (entries.map Prod.fst).map TimerKey.timerId := by
    rw [List.map_map]
    rfl
  have hget : ∀ entry ∈ entries, f.timers[entry.1]? = some entry.2 := fun entry hentry =>
    ExtTreeMap.mem_toList_iff_getElem?_eq_some.mp (hsub.subset hentry)
  rw [hcomp]
  apply hkeys.map_on
  intro key hmem key' hmem' hid
  obtain ⟨entry, hentry, rfl⟩ := List.mem_map.mp hmem
  obtain ⟨entry', hentry', rfl⟩ := List.mem_map.mp hmem'
  exact h.timerId_inj (hget entry hentry) (hget entry' hentry') hid

theorem nodup_expired_ids {f : TimerFactory} (h : f.Linked) (tick : Int) :
    ((f.expired tick).map fun entry => entry.1.timerId).Nodup :=
  nodup_ids h (List.takeWhile_sublist _)

/-- The batch of a pass. -/
def batchOf (w : TimerRun) (tick : Int) : List TimerEntry :=
  (w.factory.expired tick).map fun (key, data) => ⟨w.passes, tick, key, data⟩

theorem mem_batchOf {tick : Int} {entry : TimerEntry} (hentry : entry ∈ w.batchOf tick) :
    entry.pass = w.passes ∧ entry.tick = tick ∧ (entry.key, entry.data) ∈ w.factory.expired tick := by
  obtain ⟨⟨key, data⟩, hmem, rfl⟩ := List.mem_map.mp hentry
  exact ⟨rfl, rfl, hmem⟩

theorem timesOf_batchOf (w : TimerRun) (tick : Int) (timerId : Nat) :
    timesOf (w.batchOf tick) timerId =
      ((w.factory.expired tick).map fun entry => entry.1.timerId).count timerId := by
  rw [timesOf_eq_count, batchOf, List.map_map]
  rfl

theorem Inv.timesOf_batchOf_of_none (h : w.Inv) (tick : Int) {timerId : Nat}
    (hnone : w.factory.nodeOf timerId = none) :
    (∀ entry ∈ w.factory.expired tick, entry.1.timerId ≠ timerId) ∧
      timesOf (w.batchOf tick) timerId = 0 := by
  have hother : ∀ entry ∈ w.factory.expired tick, entry.1.timerId ≠ timerId := by
    rintro entry hentry rfl
    cases hnone.symm.trans (h.linked.nodeOf (mem_expired hentry).1)
  refine ⟨hother, timesOf_eq_zero.mpr ?_⟩
  intro entry hentry
  exact hother _ (mem_batchOf hentry).2.2

/-- The timers that recur, and the others. -/
theorem count_observers (entries : List (TimerKey × TimerData)) (onTimer : Nat) :
    (entries.countP fun entry => entry.2.onTimer = onTimer) =
      ((entries.filter fun entry => entry.2.repeats).map fun entry => entry.2.onTimer).count onTimer +
        entries.countP fun entry => entry.2.repeats = false ∧ entry.2.onTimer = onTimer := by
  induction entries with
  | nil => rfl
  | cons entry entries ih =>
    rw [List.countP_cons, List.countP_cons, List.filter_cons, ih]
    cases hrepeats : entry.2.repeats with
    | true =>
      rw [if_pos rfl, List.map_cons, List.count_cons]
      simp only [decide_eq_true_eq, beq_iff_eq, reduceCtorEq, false_and, if_false]
      omega
    | false =>
      simp only [Bool.false_eq_true, if_false, decide_eq_true_eq, true_and]
      omega

theorem Inv.collect (h : w.Inv) (tick : Int) (hbatch : w.batch = []) (hcalling : w.calling = none) :
    Inv { w with
      factory := w.factory.collect tick
      passes := w.passes + 1
      batch := w.batchOf tick
      collected := w.collected ++ w.batchOf tick
      addRefs := w.addRefs ++
        ((w.factory.expired tick).filter fun entry => entry.2.repeats).map fun entry =>
          entry.2.onTimer } := by
  have hrearmed := h.linked.rearmed_expired tick
  have hnode : ∀ entry ∈ w.factory.expired tick,
      w.factory.nodeOf entry.1.timerId = some entry.2 := by
    intro entry hentry
    exact h.linked.nodeOf (mem_expired hentry).1
  have honce : ∀ timerId, timesOf (w.batchOf tick) timerId ≤ 1 := by
    intro timerId
    rw [timesOf_batchOf]
    exact List.nodup_iff_count_le_one.mp (nodup_expired_ids h.linked tick) timerId
  refine ⟨hrearmed.linked, h.issued, h.nonzero, ?_, ?_, ?_, ?_, ?_, ?_, ?_, ?_⟩
  · intro timerId data hfound
    by_cases hin : ∃ entry ∈ w.factory.expired tick, entry.1.timerId = timerId
    · obtain ⟨entry, hentry, rfl⟩ := hin
      dsimp only at hfound
      rw [hrearmed.nodes entry hentry] at hfound
      split at hfound
      · cases hfound
        exact h.nodes _ _ (hnode entry hentry)
      · cases hfound
    · rw [not_exists] at hin
      dsimp only at hfound
      rw [hrearmed.others timerId (fun entry hentry hid => hin entry ⟨hentry, hid⟩)] at hfound
      exact h.nodes timerId data hfound
  · dsimp only
    rw [h.queue, hbatch, List.append_nil]
  · intro entry hentry
    rcases List.mem_append.mp hentry with hentry | hentry
    · obtain ⟨hissued, htick, hpass⟩ := h.known entry hentry
      exact ⟨hissued, htick, Nat.lt_succ_of_lt hpass⟩
    · obtain ⟨hpass, htick, hmem⟩ := mem_batchOf hentry
      refine ⟨h.nodes _ _ (hnode _ hmem), ?_, ?_⟩
      · rw [htick]
        exact (mem_expired hmem).2
      · rw [hpass]
        exact Nat.lt_succ_self _
  · intro entry hentry
    dsimp only
    rw [(mem_batchOf hentry).1]
  · rw [List.map_append, List.nodup_append]
    refine ⟨h.onePass, ?_, ?_⟩
    · apply List.Nodup.of_map Prod.fst
      have hids := nodup_expired_ids h.linked tick
      rw [List.map_map, batchOf, List.map_map]
      exact hids
    · rintro ⟨timerId, pass⟩ hold ⟨timerId', pass'⟩ hnew heq
      obtain ⟨entry, hentry, hpair⟩ := List.mem_map.mp hold
      obtain ⟨entry', hentry', hpair'⟩ := List.mem_map.mp hnew
      rw [Prod.mk.injEq] at hpair hpair' heq
      have hbefore := (h.known entry hentry).2.2
      rw [hpair.2, heq.2, ← hpair'.2, (mem_batchOf hentry').1] at hbefore
      exact absurd hbefore (Nat.lt_irrefl _)
  · intro timerId hkind
    have hbefore := h.oneShot timerId hkind
    dsimp only [waiting] at hbefore ⊢
    rw [timesOf_append]
    by_cases hin : ∃ entry ∈ w.factory.expired tick, entry.1.timerId = timerId
    · obtain ⟨entry, hentry, rfl⟩ := hin
      have hshot := h.kind_unique (h.nodes _ _ (hnode entry hentry)) hkind
      have := honce entry.1.timerId
      rw [hnode entry hentry] at hbefore
      rw [hrearmed.nodes entry hentry, hshot]
      simp only [Option.isSome_some, if_true, Bool.false_eq_true, if_false, Option.isSome_none] at hbefore ⊢
      omega
    · rw [not_exists] at hin
      have hother : ∀ entry ∈ w.factory.expired tick, entry.1.timerId ≠ timerId :=
        fun entry hentry hid => hin entry ⟨hentry, hid⟩
      have hzero : timesOf (w.batchOf tick) timerId = 0 :=
        timesOf_eq_zero.mpr fun entry hentry => hother _ (mem_batchOf hentry).2.2
      rw [hrearmed.others timerId hother, hzero, Nat.add_zero]
      exact hbefore
  · intro cancel hcancel
    obtain ⟨hissued, hgone, htimes, hle⟩ := h.cancelled cancel hcancel
    obtain ⟨hother, hzero⟩ := h.timesOf_batchOf_of_none tick hgone
    refine ⟨hissued, ?_, ?_, hle⟩
    · exact (hrearmed.others _ hother).trans hgone
    · dsimp only
      rw [timesOf_append, hzero, Nat.add_zero]
      exact htimes
  · intro onTimer
    have hbefore := h.references onTimer
    have hnodes := hrearmed.count onTimer
    have hentries : entriesOf (w.batchOf tick) onTimer =
        (((w.factory.expired tick).filter fun entry => entry.2.repeats).map fun entry =>
          entry.2.onTimer).count onTimer +
        (w.factory.expired tick).countP fun entry =>
          entry.2.repeats = false ∧ entry.2.onTimer = onTimer := by
      rw [entriesOf, batchOf, List.countP_map]
      exact count_observers (w.factory.expired tick) onTimer
    rw [hbatch, hcalling] at hbefore
    dsimp only
    rw [List.count_append, hcalling, hentries]
    have hnil : entriesOf [] onTimer = 0 := rfl
    rw [hnil] at hbefore
    omega

theorem Inv.step (h : w.Inv) (e : TimerEvent) {next : TimerRun} (hstep : w.step e = some next) :
    next.Inv := by
  cases e with
  | scheduleTimer onTimer timeSpan recurring userData tick timerId =>
    simp only [TimerRun.step] at hstep
    split at hstep
    · cases hstep
    · rename_i hguard
      simp only [Bool.or_eq_true, decide_eq_true_eq, not_or, Bool.not_eq_true] at hguard
      cases hstep
      exact h.scheduled (w.factory.schedules_timer ..) hguard.1 hguard.2
  | scheduleHeartbeatTimer onTimer userData tick jitter timerId =>
    simp only [TimerRun.step] at hstep
    split at hstep
    · cases hstep
    · rename_i hguard
      simp only [Bool.or_eq_true, decide_eq_true_eq, not_or, Bool.not_eq_true] at hguard
      cases hstep
      exact h.scheduled (w.factory.schedules_heartbeatTimer ..) hguard.1 hguard.2
  | cancelTimer timerId => exact h.cancelTimer timerId hstep
  | release onTimer =>
    simp only [TimerRun.step] at hstep
    split at hstep
    · rename_i hmem
      rw [List.contains_iff_mem] at hmem
      cases hstep
      refine { h with references := fun observer => ?_ }
      have hbefore := h.references observer
      dsimp only
      rw [List.count_append, List.count_singleton, List.count_erase]
      have hpos : 0 < w.releasing.count onTimer := List.count_pos_iff.mpr hmem
      by_cases hsame : onTimer = observer
      · subst hsame
        simp only [beq_self_eq_true, if_true]
        omega
      · simp only [beq_iff_eq, hsame, if_false]
        omega
    · cases hstep
  | collect tick =>
    simp only [TimerRun.step] at hstep
    split at hstep
    · cases hstep
    · rename_i hguard
      simp only [Bool.or_eq_true, Bool.not_eq_true', not_or, Bool.not_eq_false, List.isEmpty_iff,
        Bool.not_eq_true, Option.isSome_eq_false_iff, Option.isNone_iff_eq_none] at hguard
      cases hstep
      exact h.collect tick hguard.1 hguard.2
  | call =>
    simp only [TimerRun.step] at hstep
    split at hstep
    · rename_i entry batch hcalling hbatch
      cases hstep
      refine { h with queue := ?_, current := ?_, references := fun onTimer => ?_ }
      · dsimp only
        rw [h.queue, hbatch, List.append_assoc, List.singleton_append]
      · intro other hother
        exact h.current other (hbatch ▸ List.mem_cons_of_mem entry hother)
      · have hbefore := h.references onTimer
        rw [hbatch, hcalling, entriesOf, entriesOf, List.countP_cons] at hbefore
        dsimp only
        rw [entriesOf, entriesOf, Option.toList_some, List.countP_singleton]
        rw [Option.toList_none, List.countP_nil] at hbefore
        omega
    · cases hstep
  | returned =>
    obtain ⟨entry, hcalling, rfl⟩ := Option.map_eq_some_iff.mp hstep
    refine { h with references := fun onTimer => ?_ }
    have hbefore := h.references onTimer
    rw [hcalling, entriesOf, entriesOf, Option.toList_some, List.countP_singleton] at hbefore
    dsimp only
    rw [List.count_append, List.count_singleton, entriesOf, entriesOf, Option.toList_none, List.countP_nil]
    simp only [beq_iff_eq, decide_eq_true_eq] at hbefore ⊢
    omega

/-- When the timers of a factory fire, and what references it holds. The references of a
callback that is running, and of a call of `CancelTimer`, are given back next. -/
structure Fires (w : TimerRun) : Prop where
  inTime : ∀ entry ∈ w.fired, entry.key.expireTick ≤ entry.tick
  inOrder : w.collected = w.fired ++ w.batch
  oneShot : ∀ timerId, (timerId, false) ∈ w.issued → timesOf w.collected timerId ≤ 1 ∧
    timesOf w.fired timerId + timesOf w.batch timerId = timesOf w.collected timerId
  cancelledBefore : ∀ cancel ∈ w.cancelled, cancel.collected = 0 → timesOf w.fired cancel.timerId = 0
  cancelledDuring : ∀ cancel ∈ w.cancelled, timesOf w.fired cancel.timerId ≤ cancel.fired + 1
  oncePerPass : ∀ timerId pass,
    (w.fired.countP fun entry => entry.key.timerId = timerId ∧ entry.pass = pass) ≤ 1
  references : ∀ onTimer, w.addRefs.count onTimer = w.releases.count onTimer +
    (w.factory.nodesOf onTimer + entriesOf w.batch onTimer) +
    (entriesOf w.calling.toList onTimer + w.releasing.count onTimer)

theorem Inv.fires (h : w.Inv) : w.Fires where
  inTime entry hentry := by
    have hmem : entry ∈ w.collected := by
      rw [h.queue]
      exact List.mem_append_left _ hentry
    exact (h.known entry hmem).2.1
  inOrder := h.queue
  oneShot timerId hkind := by
    have := h.oneShot timerId hkind
    exact ⟨by omega, (h.times timerId).symm⟩
  cancelledBefore cancel hmem hzero := by
    have htimes := (h.cancelled cancel hmem).2.2.1
    have := h.times cancel.timerId
    omega
  cancelledDuring cancel hmem := by
    obtain ⟨-, -, htimes, hle⟩ := h.cancelled cancel hmem
    have := h.times cancel.timerId
    omega
  oncePerPass timerId pass := by
    have hnodup := h.onePass
    rw [h.queue, List.map_append] at hnodup
    have hcount := List.nodup_iff_count_le_one.mp hnodup.of_append_left (timerId, pass)
    rw [List.count_eq_countP, List.countP_map] at hcount
    refine (Nat.le_of_eq ?_).trans hcount
    congr 1
    funext entry
    rw [Bool.eq_iff_iff]
    simp
  references onTimer := by
    have := h.references onTimer
    omega

/-- In any order of calls, passes and callbacks, at any ticks. -/
theorem fires_of_timer_run {mmTimer : Bool} {es : List TimerEvent} {w : TimerRun}
    (hrun : run step (start mmTimer) es = some w) : w.Fires := by
  have hinv : w.Inv :=
    run_preserves (fun v e next hv _ hstep => hv.step e hstep) (inv_start mmTimer)
      (guarded_true (start mmTimer) es) hrun
  exact hinv.fires

/-- Timer 1 recurs and is cancelled while it waits in a batch behind timer 3. -/
def cancelledInBatch : List TimerEvent :=
  [.scheduleTimer (some 8) 5 true 0 100 1, .scheduleTimer (some 9) 4 false 0 100 3, .collect 104,
    .call, .returned, .collect 105, .cancelTimer 1, .release 8, .call, .returned, .collect 200]

theorem fires_of_timer_run_cancelledInBatch :
    ∃ w, run step (start false) cancelledInBatch = some w ∧
      w.fired.map (fun entry => entry.key.timerId) = [3, 1] ∧ w.releases = [9, 8, 8] ∧ w.Fires := by
  have hsome : ((run step (start false) cancelledInBatch).map fun w =>
      (w.fired.map (fun entry => entry.key.timerId), w.releases)) = some ([3, 1], [9, 8, 8]) := by
    decide +kernel
  obtain ⟨w, hw, hlists⟩ := Option.map_eq_some_iff.mp hsome
  rw [Prod.mk.injEq] at hlists
  exact ⟨w, hw, hlists.1, hlists.2, fires_of_timer_run hw⟩

end TimerRun

end Pronet.Util
