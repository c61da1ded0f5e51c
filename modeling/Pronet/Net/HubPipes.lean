import Pronet.Library.Runs
import Pronet.Net.ServiceHub

/-! The two tables of pipes in `CProServiceHub`. A pipe is in `m_allPipes` from its
creation until it closes or expires; whoever takes it out deletes it behind the section. -/
namespace Pronet.Net

open Std Library Runs

/-- What `OnTimer` does under `m_lock`. -/
def ServiceHub.onTimer (h : ServiceHub) (tick : Int) : ServiceHub :=
  (h.expiredPipes tick).foldl erasePipe
    { h with
      expireSocks := (h.expiredSocks tick).foldl (fun socks entry => socks.erase entry.1)
        h.expireSocks }

/-- The hub, the pipes that it has created, the ones that it is about to delete, and the
ones that it has deleted. -/
structure HubPipes where
  hub : ServiceHub
  created : List Nat
  deleting : List Nat
  deleted : List Nat

inductive HubPipeEvent
  | acceptIpc (pipe : Nat) (tick : Int)
  | acceptOther (sockId : Int) (unixSocket : Bool) (serviceId serviceOpt : UInt8) (nonce : UInt64)
      (tick : Int) (conn : Nat)
  | recv (pipe : Nat) (packet : AckPacket) (tick : Int)
  | close (pipe : Nat)
  | timer (tick : Int)
  | delete (pipe : Nat)
  deriving DecidableEq, Repr

namespace HubPipes

def init : HubPipes := ⟨ServiceHub.empty, [], [], []⟩

def step (w : HubPipes) : HubPipeEvent → Option HubPipes
  | .acceptIpc pipe tick =>
      -- A new object has an address that no other object has.
      if pipe = 0 || pipe ∈ w.hub.allPipes || w.deleting.contains pipe then none
      else some { w with hub := w.hub.onAcceptIpc pipe tick, created := w.created ++ [pipe] }
  | .acceptOther sockId unixSocket serviceId serviceOpt nonce tick conn =>
      some { w with
        hub := (w.hub.onAcceptOther sockId unixSocket serviceId serviceOpt nonce tick conn).1 }
  | .recv pipe packet tick => some { w with hub := w.hub.onRecv pipe packet tick }
  | .close pipe =>
      some { w with
        hub := w.hub.erasePipe pipe
        deleting := w.deleting ++ if pipe ∈ w.hub.allPipes then [pipe] else [] }
  | .timer tick =>
      some { w with
        hub := w.hub.onTimer tick
        deleting := w.deleting ++ w.hub.expiredPipes tick }
  | .delete pipe =>
      if w.deleting.contains pipe then
        some { w with deleting := w.deleting.erase pipe, deleted := w.deleted ++ [pipe] }
      else none

end HubPipes

namespace ServiceHub

/-- The two tables tell the same about the pipes that have registered. -/
structure Registry (h : ServiceHub) : Prop where
  self : ∀ (pipe : Nat) (sp : ServicePipe), h.allPipes[pipe]? = some sp → sp.pipe = pipe ∧ pipe ≠ 0
  forward : ∀ (pipe : Nat) (sp : ServicePipe), h.allPipes[pipe]? = some sp → sp.pending = false →
    ∃ sp', h.serviceId2Pipe[sp.serviceId]? = some sp' ∧ sp'.pipe = pipe
  back : ∀ (serviceId : UInt8) (sp : ServicePipe), h.serviceId2Pipe[serviceId]? = some sp →
    sp.serviceId = serviceId ∧ sp.pending = false ∧
      ∃ sp', h.allPipes[sp.pipe]? = some sp' ∧ sp'.pending = false ∧ sp'.serviceId = serviceId ∧
        sp'.processId = sp.processId

variable {h : ServiceHub}

theorem mem_allPipes_iff {pipe : Nat} :
    pipe ∈ h.allPipes ↔ ∃ sp, h.allPipes[pipe]? = some sp := by
  rw [ExtTreeMap.mem_iff_isSome_getElem?, Option.isSome_iff_exists]

theorem registry_empty : empty.Registry := by
  constructor <;> intro key sp hfound <;> simp [empty] at hfound

theorem Registry.onAcceptIpc (hreg : h.Registry) {pipe : Nat} (tick : Int) (hnull : pipe ≠ 0)
    (hnew : pipe ∉ h.allPipes) : (h.onAcceptIpc pipe tick).Registry := by
  have hfound : ∀ key, (h.onAcceptIpc pipe tick).allPipes[key]? =
      if pipe = key then some ⟨pipe, true, tick + pipeTimeout, 0, 0⟩ else h.allPipes[key]? := by
    intro key
    simp only [ServiceHub.onAcceptIpc, ExtTreeMap.getElem?_insertIfNew,
      LawfulEqCmp.compare_eq_iff_eq]
    by_cases hkey : pipe = key
    · rw [if_pos ⟨hkey, hnew⟩, if_pos hkey]
    · rw [if_neg (fun hboth => hkey hboth.1), if_neg hkey]
  refine ⟨?_, ?_, ?_⟩
  · intro key sp hsp
    rw [hfound] at hsp
    split at hsp
    · rename_i hkey
      cases hsp
      exact ⟨hkey, hkey ▸ hnull⟩
    · exact hreg.self key sp hsp
  · intro key sp hsp hpending
    rw [hfound] at hsp
    split at hsp
    · cases hsp
      cases hpending
    · exact hreg.forward key sp hsp hpending
  · intro serviceId sp hsp
    obtain ⟨hid, hpending, sp', hsp', hrest⟩ := hreg.back serviceId sp hsp
    refine ⟨hid, hpending, sp', ?_, hrest⟩
    rw [hfound, if_neg]
    · exact hsp'
    · intro hsame
      rw [hsame] at hnew
      exact hnew (ExtTreeMap.mem_iff_isSome_getElem?.mpr (by rw [hsp']; rfl))

/-- A pipe that was pending registers under an id that is free. -/
theorem Registry.register (hreg : h.Registry) {pipe : Nat} {sp new : ServicePipe}
    (hsp : h.allPipes[pipe]? = some sp) (hpending : sp.pending = true) (hself : new.pipe = pipe)
    (hdone : new.pending = false) (hfree : new.serviceId ∉ h.serviceId2Pipe) :
    Registry { h with
      serviceId2Pipe := h.serviceId2Pipe.insert new.serviceId new
      allPipes := h.allPipes.insert pipe new } := by
  have hunregistered : ∀ (serviceId : UInt8) (sp' : ServicePipe),
      h.serviceId2Pipe[serviceId]? = some sp' → sp'.pipe ≠ pipe := by
    intro serviceId sp' hsp' hsame
    obtain ⟨-, -, sp'', hsp'', hdone, -⟩ := hreg.back serviceId sp' hsp'
    rw [hsame, hsp] at hsp''
    cases hsp''
    cases hpending.symm.trans hdone
  refine ⟨?_, ?_, ?_⟩
  · intro key sp' hsp'
    simp only [ExtTreeMap.getElem?_insert, LawfulEqCmp.compare_eq_iff_eq] at hsp'
    split at hsp'
    · rename_i hkey
      cases hsp'
      exact ⟨hself.trans hkey, hkey ▸ (hreg.self pipe sp hsp).2⟩
    · exact hreg.self key sp' hsp'
  · intro key sp' hsp' hpending'
    simp only [ExtTreeMap.getElem?_insert, LawfulEqCmp.compare_eq_iff_eq] at hsp' ⊢
    split at hsp'
    · rename_i hkey
      cases hsp'
      exact ⟨new, if_pos rfl, hself.trans hkey⟩
    · obtain ⟨sp'', hsp'', hpipe⟩ := hreg.forward key sp' hsp' hpending'
      refine ⟨sp'', ?_, hpipe⟩
      rw [if_neg]
      · exact hsp''
      · intro hid
        rw [hid] at hfree
        exact hfree (ExtTreeMap.mem_iff_isSome_getElem?.mpr (by rw [hsp'']; rfl))
  · intro serviceId sp' hsp'
    simp only [ExtTreeMap.getElem?_insert, LawfulEqCmp.compare_eq_iff_eq] at hsp' ⊢
    split at hsp'
    · rename_i hid
      cases hsp'
      exact ⟨hid, hdone, new, if_pos hself.symm, hdone, hid, rfl⟩
    · obtain ⟨hid, hdone', sp'', hsp'', hrest⟩ := hreg.back serviceId sp' hsp'
      refine ⟨hid, hdone', sp'', ?_, hrest⟩
      rw [if_neg (Ne.symm (hunregistered serviceId sp' hsp'))]
      exact hsp''

/-- Only the time of a pipe changes. -/
theorem Registry.refresh (hreg : h.Registry) {pipe : Nat} {sp : ServicePipe} (expireTick : Int)
    (socks : ExtTreeMap SockKey ExpireSock) (hsp : h.allPipes[pipe]? = some sp) :
    Registry { h with
      allPipes := h.allPipes.insert pipe { sp with expireTick := expireTick }
      expireSocks := socks } := by
  refine ⟨?_, ?_, ?_⟩
  · intro key sp' hsp'
    simp only [ExtTreeMap.getElem?_insert, LawfulEqCmp.compare_eq_iff_eq] at hsp'
    split at hsp'
    · rename_i hkey
      cases hsp'
      exact hkey ▸ hreg.self pipe sp hsp
    · exact hreg.self key sp' hsp'
  · intro key sp' hsp' hdone
    simp only [ExtTreeMap.getElem?_insert, LawfulEqCmp.compare_eq_iff_eq] at hsp'
    split at hsp'
    · rename_i hkey
      cases hsp'
      exact hkey ▸ hreg.forward pipe sp hsp hdone
    · exact hreg.forward key sp' hsp' hdone
  · intro serviceId sp' hsp'
    obtain ⟨hid, hdone, sp'', hsp'', hrest⟩ := hreg.back serviceId sp' hsp'
    simp only [ExtTreeMap.getElem?_insert, LawfulEqCmp.compare_eq_iff_eq]
    by_cases hsame : pipe = sp'.pipe
    · rw [← hsame, hsp] at hsp''
      cases hsp''
      exact ⟨hid, hdone, { sp with expireTick := expireTick }, if_pos hsame, hrest⟩
    · exact ⟨hid, hdone, sp'', (if_neg hsame).trans hsp'', hrest⟩

theorem Registry.onRecv (hreg : h.Registry) (pipe : Nat) (packet : AckPacket) (tick : Int) :
    (h.onRecv pipe packet tick).Registry := by
  unfold ServiceHub.onRecv
  split
  · exact hreg
  rename_i sp hsp
  split
  · rename_i hpending
    split
    · exact hreg
    · rename_i hfree
      exact hreg.register hsp hpending (hreg.self pipe sp hsp).1 rfl hfree
  · split
    · exact hreg
    · exact hreg.refresh _ _ hsp

theorem Registry.onAcceptOther (hreg : h.Registry) (sockId : Int) (unixSocket : Bool)
    (serviceId serviceOpt : UInt8) (nonce : UInt64) (tick : Int) (conn : Nat) :
    (h.onAcceptOther sockId unixSocket serviceId serviceOpt nonce tick conn).1.Registry := by
  unfold ServiceHub.onAcceptOther
  split
  · exact hreg
  · exact ⟨hreg.self, hreg.forward, hreg.back⟩

/-- A pipe goes out of both tables. -/
theorem getElem?_erasePipe (h : ServiceHub) (pipe key : Nat) :
    (h.erasePipe pipe).allPipes[key]? = if pipe = key then none else h.allPipes[key]? := by
  unfold erasePipe
  split
  · rename_i hnone
    split
    · rename_i hkey
      exact hkey ▸ hnone
    · rfl
  · simp only [ExtTreeMap.getElem?_erase, LawfulEqCmp.compare_eq_iff_eq]

theorem mem_erasePipe (h : ServiceHub) (pipe key : Nat) :
    key ∈ (h.erasePipe pipe).allPipes ↔ key ∈ h.allPipes ∧ key ≠ pipe := by
  rw [mem_allPipes_iff, mem_allPipes_iff, getElem?_erasePipe]
  by_cases hkey : pipe = key
  · simp [hkey]
  · simp [hkey, Ne.symm hkey]

theorem Registry.registered_erasePipe (hreg : h.Registry) (pipe : Nat) (serviceId : UInt8) :
    (h.erasePipe pipe).serviceId2Pipe[serviceId]? =
      (h.serviceId2Pipe[serviceId]?).filter fun sp => sp.pipe ≠ pipe := by
  have hkept : (∀ sp, h.serviceId2Pipe[serviceId]? = some sp → sp.pipe ≠ pipe) →
      h.serviceId2Pipe[serviceId]? =
        (h.serviceId2Pipe[serviceId]?).filter fun sp => sp.pipe ≠ pipe := by
    intro hne
    cases hsp : h.serviceId2Pipe[serviceId]? with
    | none => rfl
    | some sp => rw [Option.filter_some, if_pos (decide_eq_true (hne sp hsp))]
  unfold erasePipe
  split
  · rename_i hnone
    refine hkept ?_
    intro sp hsp hsame
    obtain ⟨-, -, sp', hsp', -⟩ := hreg.back serviceId sp hsp
    rw [hsame, hnone] at hsp'
    cases hsp'
  · rename_i sp hsp
    -- An entry of this pipe can stand under its own id only.
    have honly : ∀ sp', h.serviceId2Pipe[serviceId]? = some sp' → sp'.pipe = pipe →
        sp.serviceId = serviceId := by
      intro sp' hsp' hsame
      obtain ⟨-, -, sp'', hsp'', -, hid, -⟩ := hreg.back serviceId sp' hsp'
      rw [hsame, hsp] at hsp''
      cases hsp''
      exact hid
    dsimp only
    split
    · rename_i sp' hsp'
      split
      · rename_i hsame
        rw [ExtTreeMap.getElem?_erase]
        split
        · rename_i hid
          rw [LawfulEqCmp.compare_eq_iff_eq] at hid
          rw [← hid, hsp', Option.filter_some, if_neg (by simp [hsame])]
        · rename_i hid
          rw [LawfulEqCmp.compare_eq_iff_eq] at hid
          exact hkept fun sp'' hsp'' hsame' => hid (honly sp'' hsp'' hsame')
      · rename_i hother
        refine hkept fun sp'' hsp'' hsame' => ?_
        rw [honly sp'' hsp'' hsame', hsp''] at hsp'
        cases hsp'
        exact hother hsame'
    · rename_i hnone
      refine hkept fun sp'' hsp'' hsame' => ?_
      rw [honly sp'' hsp'' hsame', hsp''] at hnone
      cases hnone

theorem Registry.erasePipe (hreg : h.Registry) (pipe : Nat) : (h.erasePipe pipe).Registry := by
  refine ⟨?_, ?_, ?_⟩
  · intro key sp hsp
    rw [getElem?_erasePipe] at hsp
    split at hsp
    · cases hsp
    · exact hreg.self key sp hsp
  · intro key sp hsp hdone
    rw [getElem?_erasePipe] at hsp
    split at hsp
    · cases hsp
    · rename_i hne
      obtain ⟨sp', hsp', hpipe⟩ := hreg.forward key sp hsp hdone
      refine ⟨sp', ?_, hpipe⟩
      rw [hreg.registered_erasePipe, hsp']
      simp [hpipe, Ne.symm hne]
  · intro serviceId sp hsp
    rw [hreg.registered_erasePipe, Option.filter_eq_some_iff, decide_eq_true_eq] at hsp
    obtain ⟨hsp, hne⟩ := hsp
    obtain ⟨hid, hdone, sp', hsp', hrest⟩ := hreg.back serviceId sp hsp
    refine ⟨hid, hdone, sp', ?_, hrest⟩
    rw [getElem?_erasePipe, if_neg (Ne.symm hne)]
    exact hsp'

theorem Registry.erasePipes (hreg : h.Registry) (pipes : List Nat) :
    (pipes.foldl ServiceHub.erasePipe h).Registry := by
  induction pipes generalizing h with
  | nil => exact hreg
  | cons pipe pipes ih => exact ih (hreg.erasePipe pipe)

theorem getElem?_erasePipes (pipes : List Nat) (h : ServiceHub) (key : Nat) :
    (pipes.foldl erasePipe h).allPipes[key]? = if key ∈ pipes then none else h.allPipes[key]? := by
  induction pipes generalizing h with
  | nil => simp
  | cons pipe pipes ih =>
    rw [List.foldl_cons, ih, getElem?_erasePipe]
    by_cases hpipe : key = pipe
    · simp [hpipe]
    · simp [hpipe, Ne.symm hpipe]

theorem mem_onTimer (h : ServiceHub) (tick : Int) (pipe : Nat) :
    pipe ∈ (h.onTimer tick).allPipes ↔ pipe ∈ h.allPipes ∧ pipe ∉ h.expiredPipes tick := by
  unfold onTimer
  rw [mem_allPipes_iff, mem_allPipes_iff, getElem?_erasePipes]
  by_cases hexpired : pipe ∈ h.expiredPipes tick
  · simp [hexpired]
  · simp [hexpired]

theorem Registry.onTimer (hreg : h.Registry) (tick : Int) : (h.onTimer tick).Registry := by
  have hsocks : Registry { h with
      expireSocks := (h.expiredSocks tick).foldl (fun socks entry => socks.erase entry.1)
        h.expireSocks } := ⟨hreg.self, hreg.forward, hreg.back⟩
  exact hsocks.erasePipes _

theorem mem_expiredPipes {tick : Int} {pipe : Nat} :
    pipe ∈ h.expiredPipes tick ↔ ∃ sp, h.allPipes[pipe]? = some sp ∧ sp.expireTick ≤ tick := by
  unfold expiredPipes
  rw [List.mem_map]
  constructor
  · rintro ⟨⟨key, sp⟩, hentry, rfl⟩
    rw [List.mem_filter, ExtTreeMap.mem_toList_iff_getElem?_eq_some, decide_eq_true_eq] at hentry
    exact ⟨sp, hentry⟩
  · rintro ⟨sp, hsp, hexpired⟩
    refine ⟨(pipe, sp), ?_, rfl⟩
    rw [List.mem_filter, ExtTreeMap.mem_toList_iff_getElem?_eq_some, decide_eq_true_eq]
    exact ⟨hsp, hexpired⟩

theorem nodup_expiredPipes (h : ServiceHub) (tick : Int) : (h.expiredPipes tick).Nodup := by
  have hkeys : (h.allPipes.toList.map Prod.fst).Nodup := by
    rw [ExtTreeMap.map_fst_toList_eq_keys]
    exact ExtTreeMap.nodup_keys
  exact hkeys.sublist (List.filter_sublist.map Prod.fst)

theorem getElem?_onTimer (h : ServiceHub) (tick : Int) (pipe : Nat) :
    (h.onTimer tick).allPipes[pipe]? =
      (h.allPipes[pipe]?).filter fun sp => tick < sp.expireTick := by
  unfold onTimer
  rw [getElem?_erasePipes]
  cases hsp : h.allPipes[pipe]? with
  | none =>
    rw [Option.filter_none, if_neg]
    rw [mem_expiredPipes, hsp]
    rintro ⟨sp, hnone, -⟩
    cases hnone
  | some sp =>
    rw [Option.filter_some]
    by_cases hexpired : sp.expireTick ≤ tick
    · rw [if_pos (mem_expiredPipes.mpr ⟨sp, hsp, hexpired⟩), if_neg (by simpa using hexpired)]
    · rw [if_neg, if_pos (by simpa using hexpired)]
      rw [mem_expiredPipes]
      rintro ⟨sp', hsp', hexpired'⟩
      cases hsp.symm.trans hsp'
      exact hexpired hexpired'

/-- The pipe that a service id stands for. -/
def registrant (h : ServiceHub) (serviceId : UInt8) : Nat :=
  (h.serviceId2Pipe[serviceId]?).elim 0 ServicePipe.pipe

/-- The pipes that have registered. -/
def registered (h : ServiceHub) : Set Nat :=
  { pipe | ∃ sp, h.allPipes[pipe]? = some sp ∧ sp.pending = false }

theorem Registry.bijOn (hreg : h.Registry) :
    Set.BijOn h.registrant { serviceId | serviceId ∈ h.serviceId2Pipe } h.registered := by
  have hfound : ∀ serviceId, serviceId ∈ h.serviceId2Pipe →
      ∃ sp, h.serviceId2Pipe[serviceId]? = some sp ∧ h.registrant serviceId = sp.pipe := by
    intro serviceId hmem
    obtain ⟨sp, hsp⟩ := Option.isSome_iff_exists.mp (ExtTreeMap.mem_iff_isSome_getElem?.mp hmem)
    exact ⟨sp, hsp, by rw [registrant, hsp]; rfl⟩
  refine ⟨?_, ?_, ?_⟩
  · intro serviceId hmem
    obtain ⟨sp, hsp, hpipe⟩ := hfound serviceId hmem
    obtain ⟨-, -, sp', hsp', hdone, -⟩ := hreg.back serviceId sp hsp
    rw [hpipe]
    exact ⟨sp', hsp', hdone⟩
  · intro serviceId hmem serviceId' hmem' hsame
    obtain ⟨sp, hsp, hpipe⟩ := hfound serviceId hmem
    obtain ⟨sp', hsp', hpipe'⟩ := hfound serviceId' hmem'
    rw [hpipe, hpipe'] at hsame
    obtain ⟨-, -, found, hfound, -, hid, -⟩ := hreg.back serviceId sp hsp
    obtain ⟨-, -, found', hfound', -, hid', -⟩ := hreg.back serviceId' sp' hsp'
    rw [hsame, hfound'] at hfound
    cases hfound
    exact hid.symm.trans hid'
  · rintro pipe ⟨sp, hsp, hdone⟩
    obtain ⟨sp', hsp', hpipe⟩ := hreg.forward pipe sp hsp hdone
    refine ⟨sp.serviceId, ExtTreeMap.mem_iff_isSome_getElem?.mpr (by rw [hsp']; rfl), ?_⟩
    rw [registrant, hsp']
    exact hpipe

end ServiceHub

namespace HubPipes

/-- The registration table of the hub, and what becomes of its pipes. -/
structure Consistent (w : HubPipes) : Prop where
  bijection : Set.BijOn w.hub.registrant { serviceId | serviceId ∈ w.hub.serviceId2Pipe }
    w.hub.registered
  stored : ∀ (serviceId : UInt8) (sp : ServicePipe), w.hub.serviceId2Pipe[serviceId]? = some sp →
    sp.serviceId = serviceId ∧ ∃ sp', w.hub.allPipes[sp.pipe]? = some sp' ∧ sp'.serviceId = serviceId ∧
      sp'.processId = sp.processId ∧ sp'.pipe = sp.pipe
  deletedOnce : ∀ pipe, w.deleted.count pipe + w.deleting.count pipe +
    (if pipe ∈ w.hub.allPipes then 1 else 0) = w.created.count pipe
  pendingOnce : w.deleting.Nodup
  removed : ∀ pipe ∈ w.deleting, pipe ∉ w.hub.allPipes ∧
    ∀ (serviceId : UInt8) (sp : ServicePipe), w.hub.serviceId2Pipe[serviceId]? = some sp → sp.pipe ≠ pipe
  closes : ∀ pipe next, w.step (.close pipe) = some next →
    pipe ∉ next.hub.allPipes ∧ (pipe ∈ w.hub.allPipes → pipe ∈ next.deleting)
  expires : ∀ tick next, w.step (.timer tick) = some next → ∀ pipe sp,
    w.hub.allPipes[pipe]? = some sp →
      (sp.expireTick ≤ tick → pipe ∉ next.hub.allPipes ∧ pipe ∈ next.deleting) ∧
      (tick < sp.expireTick → next.hub.allPipes[pipe]? = some sp)
  forwards : ∀ sockId unixSocket serviceId serviceOpt nonce tick conn pipe packet,
    (w.hub.onAcceptOther sockId unixSocket serviceId serviceOpt nonce tick conn).2 =
      some (pipe, packet) →
    packet.serviceId = serviceId ∧ packet.conn = conn ∧ ∃ sp,
      w.hub.serviceId2Pipe[serviceId]? = some sp ∧ sp.pipe = pipe ∧ pipe ≠ 0 ∧ sp.pending = false ∧
        sp.serviceId = serviceId ∧ pipe ∈ w.hub.allPipes ∧ pipe ∉ w.deleting

structure Inv (w : HubPipes) : Prop where
  registry : w.hub.Registry
  count : ∀ pipe, w.deleted.count pipe + w.deleting.count pipe +
    (if pipe ∈ w.hub.allPipes then 1 else 0) = w.created.count pipe
  nodup : w.deleting.Nodup
  removed : ∀ pipe ∈ w.deleting, pipe ∉ w.hub.allPipes

theorem inv_init : init.Inv where
  registry := ServiceHub.registry_empty
  count pipe := by simp [init, ServiceHub.empty]
  nodup := List.nodup_nil
  removed pipe hmem := by cases hmem

variable {w : HubPipes}

/-- A section that takes pipes out of the tables, and returns them. -/
theorem Inv.take (h : w.Inv) {hub : ServiceHub} {taken : List Nat} (hreg : hub.Registry)
    (hnodup : taken.Nodup) (htaken : ∀ pipe ∈ taken, pipe ∈ w.hub.allPipes)
    (hleft : ∀ pipe, pipe ∈ hub.allPipes ↔ pipe ∈ w.hub.allPipes ∧ pipe ∉ taken) :
    Inv { w with hub := hub, deleting := w.deleting ++ taken } where
  registry := hreg
  count pipe := by
    have hbefore := h.count pipe
    simp only [List.count_append, hleft]
    by_cases hmem : pipe ∈ taken
    · rw [if_pos (htaken pipe hmem)] at hbefore
      rw [List.count_eq_one_of_mem hnodup hmem, if_neg (fun hboth => hboth.2 hmem)]
      omega
    · rw [List.count_eq_zero.mpr hmem]
      simp only [hmem, not_false_eq_true, and_true]
      omega
  nodup := by
    rw [List.nodup_append]
    refine ⟨h.nodup, hnodup, ?_⟩
    intro pipe hmem pipe' hmem' hsame
    exact h.removed pipe hmem (hsame ▸ htaken pipe' hmem')
  removed pipe hmem := by
    rw [hleft]
    rintro ⟨hstill, hnot⟩
    rcases List.mem_append.mp hmem with hmem | hmem
    · exact h.removed pipe hmem hstill
    · exact hnot hmem

/-- A section that leaves every pipe in the hub. -/
theorem Inv.keep (h : w.Inv) {hub : ServiceHub} (hreg : hub.Registry)
    (hsame : ∀ pipe, pipe ∈ hub.allPipes ↔ pipe ∈ w.hub.allPipes) : Inv { w with hub := hub } where
  registry := hreg
  count pipe := by
    simp only [hsame]
    exact h.count pipe
  nodup := h.nodup
  removed pipe hmem := by
    rw [hsame]
    exact h.removed pipe hmem

theorem mem_onRecv {h : ServiceHub} {pipe : Nat} {packet : AckPacket} {tick : Int} (key : Nat) :
    key ∈ (h.onRecv pipe packet tick).allPipes ↔ key ∈ h.allPipes := by
  unfold ServiceHub.onRecv
  split
  · rfl
  · rename_i sp hsp
    have hmem : pipe ∈ h.allPipes := ServiceHub.mem_allPipes_iff.mpr ⟨sp, hsp⟩
    have hinsert : ∀ new : ServicePipe, key ∈ h.allPipes.insert pipe new ↔ key ∈ h.allPipes := by
      intro new
      rw [ExtTreeMap.mem_insert, LawfulEqCmp.compare_eq_iff_eq]
      constructor
      · rintro (rfl | hkey)
        · exact hmem
        · exact hkey
      · exact Or.inr
    split
    · split
      · rfl
      · exact hinsert _
    · split
      · rfl
      · exact hinsert _

theorem Inv.step (h : w.Inv) (e : HubPipeEvent) {next : HubPipes} (hstep : w.step e = some next) :
    next.Inv := by
  cases e with
  | acceptIpc pipe tick =>
    simp only [HubPipes.step] at hstep
    split at hstep
    · cases hstep
    · rename_i hguard
      simp only [Bool.or_eq_true, decide_eq_true_eq, List.contains_iff_mem, not_or] at hguard
      obtain ⟨⟨hnull, hnew⟩, hidle⟩ := hguard
      cases hstep
      have hmem : ∀ key, key ∈ (w.hub.onAcceptIpc pipe tick).allPipes ↔
          pipe = key ∨ key ∈ w.hub.allPipes := by
        intro key
        rw [ServiceHub.onAcceptIpc, ExtTreeMap.mem_insertIfNew, LawfulEqCmp.compare_eq_iff_eq]
      refine ⟨h.registry.onAcceptIpc tick hnull hnew, ?_, h.nodup, ?_⟩
      · intro key
        have hbefore := h.count key
        simp only [hmem, List.count_append]
        by_cases hkey : pipe = key
        · subst hkey
          rw [if_neg hnew] at hbefore
          rw [if_pos (Or.inl rfl), List.count_singleton_self]
          omega
        · have hother : [pipe].count key = 0 := List.count_eq_zero.mpr (by simpa using Ne.symm hkey)
          simp only [hkey, false_or, hother]
          omega
      · intro key hkey
        rw [hmem]
        rintro (rfl | hstill)
        · exact hidle hkey
        · exact h.removed key hkey hstill
  | acceptOther sockId unixSocket serviceId serviceOpt nonce tick conn =>
    cases hstep
    refine h.keep (h.registry.onAcceptOther ..) ?_
    intro key
    unfold ServiceHub.onAcceptOther
    split <;> rfl
  | recv pipe packet tick =>
    cases hstep
    exact h.keep (h.registry.onRecv pipe packet tick) mem_onRecv
  | close pipe =>
    cases hstep
    refine h.take (h.registry.erasePipe pipe) ?_ ?_ ?_
    · split
      · exact List.nodup_singleton pipe
      · exact List.nodup_nil
    · intro key hkey
      split at hkey
      · rename_i hmem
        cases List.mem_singleton.mp hkey
        exact hmem
      · cases hkey
    · intro key
      rw [ServiceHub.mem_erasePipe]
      by_cases hmem : pipe ∈ w.hub.allPipes
      · rw [if_pos hmem, List.mem_singleton]
      · rw [if_neg hmem]
        simp only [List.not_mem_nil, not_false_eq_true, and_true, and_iff_left_iff_imp]
        rintro hkey rfl
        exact hmem hkey
  | timer tick =>
    cases hstep
    refine h.take (h.registry.onTimer tick) (w.hub.nodup_expiredPipes tick) ?_ ?_
    · intro pipe hmem
      obtain ⟨sp, hsp, -⟩ := ServiceHub.mem_expiredPipes.mp hmem
      exact ServiceHub.mem_allPipes_iff.mpr ⟨sp, hsp⟩
    · exact w.hub.mem_onTimer tick
  | delete pipe =>
    simp only [HubPipes.step] at hstep
    split at hstep
    · rename_i hmem
      rw [List.contains_iff_mem] at hmem
      cases hstep
      refine ⟨h.registry, ?_, h.nodup.erase pipe, ?_⟩
      · intro key
        have hbefore := h.count key
        simp only [List.count_append]
        by_cases hkey : key = pipe
        · subst hkey
          rw [List.count_erase_self, List.count_singleton_self,
            List.count_eq_one_of_mem h.nodup hmem]
          rw [List.count_eq_one_of_mem h.nodup hmem] at hbefore
          omega
        · rw [List.count_erase_of_ne hkey, List.count_singleton,
            if_neg (by simpa using Ne.symm hkey)]
          omega
      · intro key hkey
        exact h.removed key (List.mem_of_mem_erase hkey)
    · cases hstep

/-- The asserts of `OnAcceptOther` hold. -/
theorem Inv.forwards (h : w.Inv) {sockId : Int} {unixSocket : Bool} {serviceId serviceOpt : UInt8}
    {nonce : UInt64} {tick : Int} {conn pipe : Nat} {packet : ServicePacket}
    (hsent : (w.hub.onAcceptOther sockId unixSocket serviceId serviceOpt nonce tick conn).2 =
      some (pipe, packet)) :
    packet.serviceId = serviceId ∧ packet.conn = conn ∧ ∃ sp,
      w.hub.serviceId2Pipe[serviceId]? = some sp ∧ sp.pipe = pipe ∧ pipe ≠ 0 ∧ sp.pending = false ∧
        sp.serviceId = serviceId ∧ pipe ∈ w.hub.allPipes ∧ pipe ∉ w.deleting := by
  unfold ServiceHub.onAcceptOther ServiceHub.servicePacket at hsent
  cases hsp : w.hub.serviceId2Pipe[serviceId]? with
  | none =>
    rw [hsp] at hsent
    cases hsent
  | some sp =>
    rw [hsp] at hsent
    cases hsent
    obtain ⟨hid, hdone, sp', hsp', -⟩ := h.registry.back serviceId sp hsp
    have hmem := ServiceHub.mem_allPipes_iff.mpr ⟨sp', hsp'⟩
    exact ⟨rfl, rfl, sp, rfl, rfl, (h.registry.self sp.pipe sp' hsp').2, hdone, hid, hmem,
      fun hgone => h.removed _ hgone hmem⟩

theorem Inv.consistent (h : w.Inv) : w.Consistent where
  bijection := h.registry.bijOn
  stored serviceId sp hsp := by
    obtain ⟨hid, -, sp', hsp', -, hid', hprocess⟩ := h.registry.back serviceId sp hsp
    exact ⟨hid, sp', hsp', hid', hprocess, (h.registry.self _ sp' hsp').1⟩
  deletedOnce := h.count
  pendingOnce := h.nodup
  removed pipe hmem := by
    have hgone := h.removed pipe hmem
    refine ⟨hgone, ?_⟩
    intro serviceId sp hsp hsame
    obtain ⟨-, -, sp', hsp', -⟩ := h.registry.back serviceId sp hsp
    exact hgone (ServiceHub.mem_allPipes_iff.mpr ⟨sp', hsame ▸ hsp'⟩)
  closes pipe next hstep := by
    cases hstep
    refine ⟨?_, ?_⟩
    · intro hmem
      exact ((w.hub.mem_erasePipe pipe pipe).mp hmem).2 rfl
    · intro hmem
      simp [hmem]
  expires tick next hstep pipe sp hsp := by
    cases hstep
    refine ⟨fun hexpired => ?_, fun hlater => ?_⟩
    · have hmem := ServiceHub.mem_expiredPipes.mpr ⟨sp, hsp, hexpired⟩
      exact ⟨fun hstill => ((w.hub.mem_onTimer tick pipe).mp hstill).2 hmem,
        List.mem_append_right _ hmem⟩
    · rw [w.hub.getElem?_onTimer, hsp, Option.filter_some, if_pos (decide_eq_true hlater)]
  forwards _ _ _ _ _ _ _ _ _ hsent := h.forwards hsent

/-- In any order of accepts, packets, closes and timers, the hub knows its pipes. -/
theorem consistent_of_hub_run {es : List HubPipeEvent} {w : HubPipes}
    (hrun : run step init es = some w) : w.Consistent := by
  have hinv : w.Inv :=
    run_preserves (fun v e next hv _ hstep => hv.step e hstep) inv_init (guarded_true init es) hrun
  exact hinv.consistent

/-- Two pipes want one id; the first closes, and the second gets the id after all. -/
def lateRegistration : List HubPipeEvent :=
  [.acceptIpc 10 0, .acceptIpc 20 0, .recv 10 ⟨7, 1, ⟨0, -1⟩⟩ 5, .recv 20 ⟨7, 2, ⟨0, -1⟩⟩ 6,
    .close 10, .recv 20 ⟨7, 2, ⟨0, -1⟩⟩ 7, .acceptOther 3 true 7 0 99 8 0, .delete 10, .close 10]

theorem consistent_of_hub_run_lateRegistration :
    ∃ w, run step init lateRegistration = some w ∧ w.deleted = [10] ∧ w.Consistent := by
  have hsome : (run step init lateRegistration).map HubPipes.deleted = some [10] := by
    decide +kernel
  obtain ⟨w, hw, hdeleted⟩ := Option.map_eq_some_iff.mp hsome
  exact ⟨w, hw, hdeleted, consistent_of_hub_run hw⟩

end HubPipes

end Pronet.Net
