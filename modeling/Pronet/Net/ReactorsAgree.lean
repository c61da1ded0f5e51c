import Pronet.Library.Runs
import Pronet.Library.Tables
import Pronet.Net.ReactorMasks

/-! Both reactors keep one registry. Whatever the kernel or the three sets are told about
a socket is what its entry in the table says. -/
namespace Pronet.Net

open Std Library Runs

namespace HandlerMgr

/-- The table has the entries of a registry, and a reference for each of them. -/
structure Tracks (m : HandlerMgr) (t : Registry) : Prop where
  valid : ∀ (fd : Int) (info : HandlerInfo), m.sockId2HandlerInfo[fd]? = some info →
    info.mask ∈ tableMasks ∧ info.mask ≠ 0 ∧ fd ≠ -1
  same : ∀ fd : Int, (m.sockId2HandlerInfo[fd]?).map (fun info => (info.handler, interests info.mask)) =
    t fd
  references : ∀ handler, m.addRefs.count handler = m.releases.count handler +
    m.sockId2HandlerInfo.toList.countP fun entry => entry.2.handler = handler

variable {m : HandlerMgr} {t : Registry}

theorem tracks_empty : empty.Tracks Registry.empty := by
  refine ⟨?_, ?_, ?_⟩
  · intro fd info hinfo
    simp [empty] at hinfo
  · intro fd
    simp [empty, Registry.empty]
  · intro handler
    simp [empty]

/-- The table takes whatever the reactors have not refused before. -/
theorem addHandler_free (m : HandlerMgr) {sockId : Int} (hsock : sockId ≠ -1) {handler : Nat}
    {mask : UInt64} (hmask : mask ≠ 0)
    (hfree : (m.findHandler sockId).any (fun info => some handler ≠ some info.handler) = false) :
    (m.addHandler sockId (some handler) mask).2 = true := by
  rw [findHandler, if_neg hsock] at hfree
  unfold addHandler
  dsimp only
  rw [if_neg (by simp [hsock, hmask])]
  cases hinfo : m.sockId2HandlerInfo[sockId]? with
  | none => rfl
  | some info =>
    rw [hinfo, Option.any_some, decide_eq_false_iff_not, not_not, Option.some.injEq] at hfree
    dsimp only
    rw [if_pos hfree]

theorem oldMask_mem (h : m.Tracks t) (sockId : Int) : oldMask (m.findHandler sockId) ∈ tableMasks := by
  unfold findHandler
  split
  · exact List.mem_cons_self
  · cases hinfo : m.sockId2HandlerInfo[sockId]? with
    | none => exact List.mem_cons_self
    | some info => exact (h.valid sockId info hinfo).1

/-- The entry of a socket changes, and the references with it. -/
theorem Tracks.update (h : m.Tracks t) {m' : HandlerMgr} {sockId : Int} (hsock : sockId ≠ -1)
    (entry : Option HandlerInfo)
    (htable : ∀ fd : Int, m'.sockId2HandlerInfo[fd]? =
      if sockId = fd then entry else m.sockId2HandlerInfo[fd]?)
    (hvalid : ∀ info ∈ entry, info.mask ∈ tableMasks ∧ info.mask ≠ 0)
    (hrefs : ∀ handler, m'.addRefs.count handler = m'.releases.count handler +
      m'.sockId2HandlerInfo.toList.countP fun entry => entry.2.handler = handler) :
    m'.Tracks (Function.update t sockId
      (entry.map fun info => (info.handler, interests info.mask))) := by
  refine ⟨?_, ?_, hrefs⟩
  · intro fd info hinfo
    rw [htable] at hinfo
    split at hinfo
    · rename_i hfd
      obtain ⟨hmem, hne⟩ := hvalid info hinfo
      exact ⟨hmem, hne, hfd ▸ hsock⟩
    · exact h.valid fd info hinfo
  · intro fd
    rw [htable]
    by_cases hfd : sockId = fd
    · subst hfd
      rw [if_pos rfl, Function.update_self]
    · rw [if_neg hfd, Function.update_of_ne (Ne.symm hfd)]
      exact h.same fd

theorem countP_insert (table : ExtTreeMap Int HandlerInfo) (sockId : Int) (info : HandlerInfo)
    (handler : Nat) :
    ((table.insert sockId info).toList.countP fun entry => entry.2.handler = handler) =
      ((table.erase sockId).toList.countP fun entry => entry.2.handler = handler) +
        if info.handler = handler then 1 else 0 := by
  rw [(Tables.toList_insert_perm table sockId info).countP_eq, List.countP_cons]
  simp only [decide_eq_true_eq]

theorem countP_erase {table : ExtTreeMap Int HandlerInfo} {sockId : Int} {info : HandlerInfo}
    (hinfo : table[sockId]? = some info) (handler : Nat) :
    (table.toList.countP fun entry => entry.2.handler = handler) =
      ((table.erase sockId).toList.countP fun entry => entry.2.handler = handler) +
        if info.handler = handler then 1 else 0 := by
  rw [(Tables.toList_perm_erase hinfo).countP_eq, List.countP_cons]
  simp only [decide_eq_true_eq]

/-- A handler whose socket is its own, or nobody's, gets some more bits. -/
theorem Tracks.addHandler (h : m.Tracks t) {sockId : Int} (hsock : sockId ≠ -1) {handler : Nat}
    {mask : UInt64} (hmask : mask ≠ 0) (hmem : mask ∈ tableMasks)
    (hown : ∀ info ∈ m.sockId2HandlerInfo[sockId]?, info.handler = handler) :
    ∃ m', m.addHandler sockId (some handler) mask = (m', true) ∧
      (∀ fd : Int, m'.sockId2HandlerInfo[fd]? =
        if sockId = fd then some ⟨handler, oldMask m.sockId2HandlerInfo[sockId]? ||| mask⟩
        else m.sockId2HandlerInfo[fd]?) ∧
      m'.Tracks (Function.update t sockId
        (some (handler, interests (oldMask m.sockId2HandlerInfo[sockId]? ||| mask)))) := by
  unfold HandlerMgr.addHandler
  dsimp only
  rw [if_neg (by simp [hsock, hmask])]
  cases hinfo : m.sockId2HandlerInfo[sockId]? with
  | none =>
    have htable : ∀ fd : Int, (m.sockId2HandlerInfo.insert sockId ⟨handler, mask⟩)[fd]? =
        if sockId = fd then some ⟨handler, oldMask none ||| mask⟩ else m.sockId2HandlerInfo[fd]? := by
      intro fd
      rw [ExtTreeMap.getElem?_insert, oldMask, Option.elim_none, UInt64.zero_or]
      simp only [LawfulEqCmp.compare_eq_iff_eq]
    refine ⟨_, rfl, htable, ?_⟩
    refine h.update hsock (some ⟨handler, oldMask none ||| mask⟩) htable ?_ ?_
    · rintro info hsome
      cases hsome
      rw [oldMask, Option.elim_none, UInt64.zero_or]
      exact ⟨hmem, hmask⟩
    · intro observer
      have hbefore := h.references observer
      have hsame : m.sockId2HandlerInfo.erase sockId = m.sockId2HandlerInfo := by
        apply ExtTreeMap.ext_getElem?
        intro fd
        rw [ExtTreeMap.getElem?_erase]
        split
        · rename_i heq
          rw [← LawfulEqCmp.eq_of_compare heq, hinfo]
        · rfl
      dsimp only
      rw [countP_insert, hsame, List.count_append, List.count_singleton]
      simp only [beq_iff_eq]
      omega
  | some info =>
    have hhandler := hown info (by rw [hinfo]; rfl)
    dsimp only
    rw [if_pos hhandler.symm]
    have htable : ∀ fd : Int,
        (m.sockId2HandlerInfo.insert sockId { info with mask := info.mask ||| mask })[fd]? =
        if sockId = fd then some ⟨handler, oldMask (some info) ||| mask⟩
        else m.sockId2HandlerInfo[fd]? := by
      intro fd
      rw [ExtTreeMap.getElem?_insert, ← hhandler]
      simp only [LawfulEqCmp.compare_eq_iff_eq]
      rfl
    refine ⟨_, rfl, htable, ?_⟩
    refine h.update hsock (some ⟨handler, oldMask (some info) ||| mask⟩) htable ?_ ?_
    · rintro info' hsome
      cases hsome
      obtain ⟨hold, hne, -⟩ := h.valid sockId info hinfo
      refine ⟨(tableMasks_closed hold hmem).1, ?_⟩
      intro hzero
      exact hne (UInt64.or_eq_zero_iff.mp hzero).1
    · intro observer
      have hbefore := h.references observer
      rw [countP_erase hinfo] at hbefore
      dsimp only
      rw [countP_insert]
      exact hbefore

/-- A handler loses some of its bits, and its socket with the last of them. -/
theorem Tracks.removeHandler (h : m.Tracks t) {sockId : Int} {info : HandlerInfo}
    (hinfo : m.sockId2HandlerInfo[sockId]? = some info) {mask : UInt64} (hmask : mask ≠ 0)
    (hmem : mask ∈ tableMasks) :
    (∀ fd : Int, (m.removeHandler sockId mask).sockId2HandlerInfo[fd]? =
      if sockId = fd then
        (if info.mask &&& ~~~mask = 0 then none else some { info with mask := info.mask &&& ~~~mask })
      else m.sockId2HandlerInfo[fd]?) ∧
    (m.removeHandler sockId mask).Tracks (Function.update t sockId
      (if info.mask &&& ~~~mask = 0 then none
        else some (info.handler, interests (info.mask &&& ~~~mask)))) := by
  obtain ⟨hold, -, hsock⟩ := h.valid sockId info hinfo
  have hbefore := h.references
  unfold HandlerMgr.removeHandler
  rw [if_neg (by simp [hsock, hmask]), hinfo]
  dsimp only
  split
  · rename_i hzero
    have htable : ∀ fd : Int, (m.sockId2HandlerInfo.erase sockId)[fd]? =
        if sockId = fd then none else m.sockId2HandlerInfo[fd]? := by
      intro fd
      rw [ExtTreeMap.getElem?_erase]
      simp only [LawfulEqCmp.compare_eq_iff_eq]
    refine ⟨htable, h.update hsock none htable ?_ ?_⟩
    · rintro info' hnone
      cases hnone
    · intro observer
      have hbefore := hbefore observer
      rw [countP_erase hinfo] at hbefore
      dsimp only
      rw [List.count_append, List.count_singleton]
      simp only [beq_iff_eq]
      omega
  · rename_i hne
    have htable : ∀ fd : Int, (m.sockId2HandlerInfo.insert sockId
        { info with mask := info.mask &&& ~~~mask })[fd]? =
        if sockId = fd then some { info with mask := info.mask &&& ~~~mask }
        else m.sockId2HandlerInfo[fd]? := by
      intro fd
      rw [ExtTreeMap.getElem?_insert]
      simp only [LawfulEqCmp.compare_eq_iff_eq]
    refine ⟨htable, h.update hsock (some { info with mask := info.mask &&& ~~~mask }) htable ?_ ?_⟩
    · rintro info' hsome
      cases hsome
      exact ⟨(tableMasks_closed hold hmem).2.2, hne⟩
    · intro observer
      have hbefore := hbefore observer
      rw [countP_erase hinfo] at hbefore
      dsimp only
      rw [countP_insert]
      exact hbefore

theorem Tracks.add_taken (h : m.Tracks t) {sockId : Int} {info : HandlerInfo}
    (hinfo : m.sockId2HandlerInfo[sockId]? = some info) {handler : Nat} (hne : handler ≠ info.handler)
    {more : Finset Interest} (hmore : more ≠ ∅) : t.add sockId (some handler) more = (t, false) := by
  obtain ⟨-, -, hsock⟩ := h.valid sockId info hinfo
  have hentry := h.same sockId
  rw [hinfo, Option.map_some] at hentry
  unfold Registry.add
  dsimp only
  rw [if_neg (by simp [hsock, hmore]), ← hentry, Registry.addEntry, if_neg hne, hentry,
    Function.update_eq_self]

theorem Tracks.add_free (h : m.Tracks t) {sockId : Int} (hsock : sockId ≠ -1) {handler : Nat}
    (hown : ∀ info ∈ m.sockId2HandlerInfo[sockId]?, info.handler = handler)
    {more : Finset Interest} (hmore : more ≠ ∅) :
    t.add sockId (some handler) more =
      (Function.update t sockId
        (some (handler, interests (oldMask m.sockId2HandlerInfo[sockId]?) ∪ more)), true) := by
  have hentry := h.same sockId
  unfold Registry.add
  dsimp only
  rw [if_neg (by simp [hsock, hmore])]
  cases hinfo : m.sockId2HandlerInfo[sockId]? with
  | none =>
    have hnothing : interests (oldMask none) = ∅ := (mask_eq_zero List.mem_cons_self).1.mpr rfl
    rw [hinfo, Option.map_none] at hentry
    rw [← hentry, Registry.addEntry, hnothing, Finset.empty_union]
  | some info =>
    have hhandler := hown info (by rw [hinfo]; rfl)
    rw [hinfo, Option.map_some] at hentry
    rw [← hentry, Registry.addEntry, if_pos hhandler.symm, hhandler]
    rfl

/-- What the two reactors have in common when a handler is added: what they find out, and
what becomes of the table. -/
inductive Adds (m : HandlerMgr) (t : Registry) (sockId : Int) (handler : Option Nat) (mask : UInt64) :
    Prop
  | invalid (hguard : (sockId = -1 || handler.isNone || knownMask mask = 0) = true)
      (hspec : t.add sockId handler (interests mask) = (t, false))
  | taken (hguard : (sockId = -1 || handler.isNone || knownMask mask = 0) = false)
      (htaken : (m.findHandler sockId).any (fun info => handler ≠ some info.handler) = true)
      (hspec : t.add sockId handler (interests mask) = (t, false))
  | held (hguard : (sockId = -1 || handler.isNone || knownMask mask = 0) = false)
      (hfree : (m.findHandler sockId).any (fun info => handler ≠ some info.handler) = false)
      (hheld : widenMask (knownMask mask) &&& ~~~oldMask (m.findHandler sockId) = 0)
      (hspec : t.add sockId handler (interests mask) = (t, true))
  | more {handler' : Nat} {m' : HandlerMgr} {old new : UInt64} (hhandler : handler = some handler')
      (hguard : (sockId = -1 || handler.isNone || knownMask mask = 0) = false)
      (hfree : (m.findHandler sockId).any (fun info => handler ≠ some info.handler) = false)
      (hold : oldMask (m.findHandler sockId) = old)
      (hnew : widenMask (knownMask mask) &&& ~~~old = new) (hmore : new ≠ 0)
      (hmasks : old ∈ tableMasks ∧ new ∈ tableMasks)
      (hentry : oldMask m.sockId2HandlerInfo[sockId]? = old)
      (hadd : m.addHandler sockId handler new = (m', true))
      (htable : ∀ fd : Int, m'.sockId2HandlerInfo[fd]? =
        if sockId = fd then some ⟨handler', old ||| new⟩ else m.sockId2HandlerInfo[fd]?)
      (htracks : m'.Tracks (t.add sockId handler (interests mask)).1)
      (hspec : (t.add sockId handler (interests mask)).2 = true)

theorem Tracks.adds (h : m.Tracks t) (sockId : Int) (handler : Option Nat) (mask : UInt64) :
    Adds m t sockId handler mask := by
  cases hguard : (sockId = -1 || handler.isNone || knownMask mask = 0 : Bool) with
  | true =>
    refine .invalid hguard ?_
    cases handler with
    | none => rfl
    | some handler =>
      simp only [Option.isNone_some, Bool.or_false, Bool.or_eq_true, decide_eq_true_eq] at hguard
      unfold Registry.add
      dsimp only
      rw [if_pos]
      rwa [interests_known_eq_empty]
  | false =>
    have hvalid := hguard
    simp only [Bool.or_eq_false_iff, decide_eq_false_iff_not, Option.isNone_eq_false_iff,
      Option.isSome_iff_exists] at hvalid
    obtain ⟨⟨hsock, handler, rfl⟩, hknown⟩ := hvalid
    have hwant : interests mask ≠ ∅ := by
      rw [ne_eq, interests_known_eq_empty]
      exact hknown
    have hfind : m.findHandler sockId = m.sockId2HandlerInfo[sockId]? := if_neg hsock
    have hwide := widenMask_known_mem mask
    have hold := oldMask_mem h sockId
    by_cases hown : ∀ info ∈ m.sockId2HandlerInfo[sockId]?, info.handler = handler
    · have hfree : (m.findHandler sockId).any (fun info => some handler ≠ some info.handler) = false := by
        rw [Option.any_eq_false, hfind]
        intro info hinfo
        rw [hown info hinfo]
        simp
      have hspec := h.add_free hsock hown hwant
      have hclear := (interests_ops hwide hold).2.2
      have hor := (interests_ops hold (tableMasks_closed hwide hold).2.2).1
      rw [hclear, interests_widen, Finset.union_sdiff_self_eq_union, hfind] at hor
      by_cases hmore : widenMask (knownMask mask) &&& ~~~oldMask (m.findHandler sockId) = 0
      · refine .held hguard hfree hmore ?_
        rw [hfind] at hmore
        rw [hspec, ← hor, hmore, UInt64.or_zero]
        cases hinfo : m.sockId2HandlerInfo[sockId]? with
        | none =>
          -- Somebody who is interested in something new is told so.
          rw [hinfo, oldMask, Option.elim_none, UInt64.not_zero, UInt64.and_neg_one] at hmore
          exact absurd ((mask_eq_zero hwide).1.mpr hmore) (by rwa [interests_widen])
        | some info =>
          have hentry := h.same sockId
          rw [hinfo, Option.map_some, hown info (by rw [hinfo]; rfl)] at hentry
          rw [oldMask, Option.elim_some, hentry, Function.update_eq_self]
      · have hnew := (tableMasks_closed hwide hold).2.2
        rw [hfind] at hold hmore hnew
        obtain ⟨m', hadd, htable, htracks⟩ := h.addHandler hsock hmore hnew hown
        refine .more rfl hguard hfree (congrArg oldMask hfind) rfl hmore ⟨hold, hnew⟩ rfl hadd htable
          ?_ (by rw [hspec])
        rw [hspec, ← hor]
        exact htracks
    · rw [not_forall] at hown
      obtain ⟨info, hown⟩ := hown
      rw [Classical.not_imp] at hown
      obtain ⟨hinfo, hne⟩ := hown
      refine .taken hguard ?_ (h.add_taken (Option.mem_def.mp hinfo) (Ne.symm hne) hwant)
      rw [hfind, Option.mem_def.mp hinfo, Option.any_some]
      simpa using Ne.symm hne

theorem Tracks.held (h : m.Tracks t) {sockId : Int} {info : HandlerInfo}
    (hinfo : m.sockId2HandlerInfo[sockId]? = some info) :
    t sockId = some (info.handler, interests info.mask) ∧ interests info.mask ≠ ∅ := by
  obtain ⟨hmem, hne, -⟩ := h.valid sockId info hinfo
  refine ⟨?_, fun hempty => hne ((mask_eq_zero hmem).1.mp hempty)⟩
  rw [← h.same sockId, hinfo]
  rfl

theorem Tracks.remove_held (h : m.Tracks t) {sockId : Int} {info : HandlerInfo}
    (hinfo : m.sockId2HandlerInfo[sockId]? = some info) (less : Finset Interest) :
    t.remove sockId less = Function.update t sockId
      (if interests info.mask \ less = ∅ then none
        else some (info.handler, interests info.mask \ less)) := by
  obtain ⟨-, -, hsock⟩ := h.valid sockId info hinfo
  unfold Registry.remove
  rw [if_neg hsock, (h.held hinfo).1, Registry.removeEntry, Option.bind_some]

/-- What the two reactors have in common when a handler is removed. -/
inductive Removes (m : HandlerMgr) (t : Registry) (sockId : Int) (mask : UInt64) : Prop
  | invalid (hguard : (sockId = -1 || knownMask mask = 0) = true)
      (hspec : t.remove sockId (interests mask) = t)
  | absent (hguard : (sockId = -1 || knownMask mask = 0) = false)
      (habsent : m.findHandler sockId = none) (hspec : t.remove sockId (interests mask) = t)
  | unheld {info : HandlerInfo} (hguard : (sockId = -1 || knownMask mask = 0) = false)
      (hfind : m.findHandler sockId = some info)
      (hunheld : widenMask (knownMask mask) &&& info.mask = 0)
      (hspec : t.remove sockId (interests mask) = t)
  | less {info : HandlerInfo} {less : UInt64} (hguard : (sockId = -1 || knownMask mask = 0) = false)
      (hfind : m.findHandler sockId = some info)
      (hinfo : m.sockId2HandlerInfo[sockId]? = some info)
      (hboth : widenMask (knownMask mask) &&& info.mask = less) (hless : less ≠ 0)
      (hmasks : info.mask ∈ tableMasks ∧ less ∈ tableMasks)
      (htable : ∀ fd : Int, (m.removeHandler sockId less).sockId2HandlerInfo[fd]? =
        if sockId = fd then
          (if info.mask &&& ~~~less = 0 then none else some { info with mask := info.mask &&& ~~~less })
        else m.sockId2HandlerInfo[fd]?)
      (htracks : (m.removeHandler sockId less).Tracks (t.remove sockId (interests mask)))

theorem Tracks.removes (h : m.Tracks t) (sockId : Int) (mask : UInt64) : Removes m t sockId mask := by
  -- Nothing changes unless the handler is interested in some of it.
  have hkeep : ∀ {info : HandlerInfo}, m.sockId2HandlerInfo[sockId]? = some info →
      interests mask ∩ interests info.mask = ∅ → t.remove sockId (interests mask) = t := by
    intro info hinfo hnone
    obtain ⟨hentry, hheld⟩ := h.held hinfo
    have hsame : interests info.mask \ interests mask = interests info.mask := by
      rw [Finset.sdiff_eq_self_iff_disjoint, Finset.disjoint_iff_inter_eq_empty, Finset.inter_comm]
      exact hnone
    rw [h.remove_held hinfo, hsame, if_neg hheld, ← hentry, Function.update_eq_self]
  have hgone : m.sockId2HandlerInfo[sockId]? = none → t.remove sockId (interests mask) = t := by
    intro hnone
    have hentry := h.same sockId
    rw [hnone, Option.map_none] at hentry
    unfold Registry.remove
    split
    · rfl
    · rw [← hentry, Registry.removeEntry, Option.bind_none, hentry, Function.update_eq_self]
  cases hguard : (sockId = -1 || knownMask mask = 0 : Bool) with
  | true =>
    refine .invalid hguard ?_
    simp only [Bool.or_eq_true, decide_eq_true_eq] at hguard
    rcases hguard with hsock | hknown
    · exact if_pos hsock
    · cases hinfo : m.sockId2HandlerInfo[sockId]? with
      | none => exact hgone hinfo
      | some info =>
        refine hkeep hinfo ?_
        rw [(interests_known_eq_empty mask).mpr hknown, Finset.empty_inter]
  | false =>
    have hvalid := hguard
    simp only [Bool.or_eq_false_iff, decide_eq_false_iff_not] at hvalid
    have hfind : m.findHandler sockId = m.sockId2HandlerInfo[sockId]? := if_neg hvalid.1
    cases hinfo : m.sockId2HandlerInfo[sockId]? with
    | none => exact .absent hguard (hfind.trans hinfo) (hgone hinfo)
    | some info =>
      have hold := (h.valid sockId info hinfo).1
      have hwide := widenMask_known_mem mask
      have hboth := (interests_ops hwide hold).2.1
      rw [interests_widen] at hboth
      have hmem := (tableMasks_closed hwide hold).2.1
      by_cases hless : widenMask (knownMask mask) &&& info.mask = 0
      · refine .unheld hguard (hfind.trans hinfo) hless (hkeep hinfo ?_)
        rw [← hboth, hless]
        exact (mask_eq_zero List.mem_cons_self).1.mpr rfl
      · obtain ⟨htable, htracks⟩ := h.removeHandler hinfo hless hmem
        refine .less hguard (hfind.trans hinfo) hinfo rfl hless ⟨hold, hmem⟩ htable ?_
        have hleft := (interests_ops hold hmem).2.2
        have hzero := (mask_eq_zero (tableMasks_closed hold hmem).2.2).1
        rw [hboth, Finset.inter_comm, Finset.sdiff_inter_self_left] at hleft
        rw [h.remove_held hinfo, ← hleft]
        simpa only [hzero] using htracks

end HandlerMgr

namespace EpollReactor

variable {r : EpollReactor} {t : Registry}

/-- A reactor at work. The interest set of the kernel is what the table says. -/
structure Inv (r : EpollReactor) (t : Registry) : Prop where
  open_ : r.epfd = true ∧ r.wantExit = false
  tracks : r.handlerMgr.Tracks t
  interest : ∀ fd : Int, r.interest[fd]? =
    (r.handlerMgr.sockId2HandlerInfo[fd]?).map fun info => addEvents 0 info.mask
  ctls : ∀ ctl ∈ r.ctls, ctl.present = true ↔ ctl.op ≠ .add

/-- An `epoll_ctl` that sets the events of a descriptor. -/
theorem epollCtl_set (r : EpollReactor) {op : EpollOp} {fd : Int} (events : UInt16)
    (hop : (op = .add ∧ fd ∉ r.interest) ∨ (op = .mod ∧ fd ∈ r.interest)) :
    r.epollCtl op fd events true =
      ({ r with
          interest := r.interest.insert fd events
          ctls := r.ctls ++ [⟨op, fd, decide (fd ∈ r.interest)⟩] }, true) := by
  unfold epollCtl
  rcases hop with ⟨rfl, habsent⟩ | ⟨rfl, hpresent⟩
  · simp [habsent]
  · simp [hpresent]

theorem epollCtl_del (r : EpollReactor) {fd : Int} (events : UInt16) (hpresent : fd ∈ r.interest) :
    r.epollCtl .del fd events true =
      ({ r with
          interest := r.interest.erase fd
          ctls := r.ctls ++ [⟨.del, fd, true⟩] }, true) := by
  unfold epollCtl
  simp [hpresent]

theorem Inv.present (h : r.Inv t) (fd : Int) :
    fd ∈ r.interest ↔ oldMask r.handlerMgr.sockId2HandlerInfo[fd]? ≠ 0 := by
  rw [ExtTreeMap.mem_iff_isSome_getElem?, h.interest]
  cases hinfo : r.handlerMgr.sockId2HandlerInfo[fd]? with
  | none => simp [oldMask]
  | some info => simpa [oldMask] using (h.tracks.valid fd info hinfo).2.1

theorem Inv.addHandler (h : r.Inv t) {sockId : Int} (hfd : asFd sockId = sockId)
    (handler : Option Nat) (mask : UInt64) (able' : Bool) :
    (r.addHandler sockId handler mask true able').2 = (t.add sockId handler (interests mask)).2 ∧
      (r.addHandler sockId handler mask true able').1.Inv (t.add sockId handler (interests mask)).1 := by
  unfold EpollReactor.addHandler
  dsimp only
  cases h.tracks.adds sockId handler mask with
  | invalid hguard hspec =>
    rw [if_pos hguard, hspec]
    exact ⟨rfl, h⟩
  | taken hguard htaken hspec =>
    rw [if_neg (by rw [hguard]; decide), if_neg (by simp [h.open_]), if_pos htaken, hspec]
    exact ⟨rfl, h⟩
  | held hguard hfree hheld hspec =>
    rw [if_neg (by rw [hguard]; decide), if_neg (by simp [h.open_]), if_neg (by rw [hfree]; decide),
      if_pos hheld, hspec]
    exact ⟨rfl, h⟩
  | more hhandler hguard hfree hold hnew hmore hmasks hentry hadd htable htracks hspec =>
    rename_i handler' m' old new
    have hzero := (mask_eq_zero hmasks.1).2
    have hop : ((if addEvents 0 old = 0 then EpollOp.add else .mod) = .add ∧ sockId ∉ r.interest) ∨
        ((if addEvents 0 old = 0 then EpollOp.add else .mod) = .mod ∧ sockId ∈ r.interest) := by
      have hpresent := h.present sockId
      rw [hentry] at hpresent
      by_cases hfirst : old = 0
      · exact .inl ⟨if_pos (hzero.mpr hfirst), fun hmem => hpresent.mp hmem hfirst⟩
      · exact .inr ⟨if_neg (fun hnone => hfirst (hzero.mp hnone)), hpresent.mpr hfirst⟩
    rw [if_neg (by rw [hguard]; decide), if_neg (by simp [h.open_]), if_neg (by rw [hfree]; decide),
      hold, hnew, if_neg hmore, hfd, r.epollCtl_set _ hop, (events_ops hmasks.1 hmasks.2).1]
    dsimp only
    rw [hadd, if_neg (by decide)]
    refine ⟨hspec.symm, h.open_, htracks, ?_, ?_⟩
    · intro fd
      dsimp only
      rw [ExtTreeMap.getElem?_insert, htable, h.interest]
      simp only [LawfulEqCmp.compare_eq_iff_eq]
      split <;> rfl
    · intro ctl hctl
      rcases List.mem_append.mp hctl with hctl | hctl
      · exact h.ctls ctl hctl
      · cases List.mem_singleton.mp hctl
        rcases hop with ⟨hadds, habsent⟩ | ⟨hmods, hpresent⟩
        · simp [hadds, habsent]
        · simp [hmods, hpresent]

theorem Inv.removeHandler (h : r.Inv t) {sockId : Int} (hfd : asFd sockId = sockId) (mask : UInt64) :
    (r.removeHandler sockId mask true).Inv (t.remove sockId (interests mask)) := by
  unfold EpollReactor.removeHandler
  dsimp only
  cases h.tracks.removes sockId mask with
  | invalid hguard hspec =>
    rw [if_pos hguard, hspec]
    exact h
  | absent hguard habsent hspec =>
    rw [if_neg (by rw [hguard]; decide), if_neg (by simp [h.open_]), habsent, hspec]
    exact h
  | unheld hguard hfind hunheld hspec =>
    rw [if_neg (by rw [hguard]; decide), if_neg (by simp [h.open_]), hfind]
    dsimp only
    rw [if_pos hunheld, hspec]
    exact h
  | less hguard hfind hinfo hboth hless hmasks htable htracks =>
    rename_i info less
    have hpresent : sockId ∈ r.interest := by
      rw [h.present, hinfo]
      exact (h.tracks.valid sockId info hinfo).2.1
    have hzero := (mask_eq_zero (tableMasks_closed hmasks.1 hmasks.2).2.2).2
    rw [if_neg (by rw [hguard]; decide), if_neg (by simp [h.open_]), hfind]
    dsimp only
    rw [hboth, if_neg hless, hfd, (events_ops hmasks.1 hmasks.2).2]
    by_cases hlast : info.mask &&& ~~~less = 0
    · rw [if_pos (hzero.mpr hlast), r.epollCtl_del _ hpresent]
      refine ⟨h.open_, htracks, ?_, ?_⟩
      · intro fd
        dsimp only
        rw [ExtTreeMap.getElem?_erase, htable, h.interest, if_pos hlast]
        simp only [LawfulEqCmp.compare_eq_iff_eq]
        split <;> rfl
      · intro ctl hctl
        rcases List.mem_append.mp hctl with hctl | hctl
        · exact h.ctls ctl hctl
        · cases List.mem_singleton.mp hctl
          simp
    · rw [if_neg (fun hnone => hlast (hzero.mp hnone)), r.epollCtl_set _ (.inr ⟨rfl, hpresent⟩)]
      refine ⟨h.open_, htracks, ?_, ?_⟩
      · intro fd
        dsimp only
        rw [ExtTreeMap.getElem?_insert, htable, h.interest, if_neg hlast]
        simp only [LawfulEqCmp.compare_eq_iff_eq]
        split <;> rfl
      · intro ctl hctl
        rcases List.mem_append.mp hctl with hctl | hctl
        · exact h.ctls ctl hctl
        · cases List.mem_singleton.mp hctl
          simp [hpresent]

theorem epollCtl_handlerMgr (r : EpollReactor) (op : EpollOp) (fd : Int) (events : UInt16) (able : Bool) :
    (r.epollCtl op fd events able).1.handlerMgr = r.handlerMgr := by
  unfold epollCtl
  dsimp only
  split
  · rfl
  · split <;> rfl

/-- What `epoll_ctl` refuses it does not do. -/
theorem epollCtl_refused {r : EpollReactor} {op : EpollOp} {fd : Int} {events : UInt16} {able : Bool}
    (hrefused : (r.epollCtl op fd events able).2 = false) :
    (r.epollCtl op fd events able).1.interest = r.interest := by
  unfold epollCtl at hrefused ⊢
  dsimp only at hrefused ⊢
  split at hrefused
  · rename_i hable
    rw [if_pos hable]
  · rename_i hable
    rw [if_neg hable]
    split at hrefused
    · cases hrefused
    · cases hrefused
    · cases hrefused
    · rfl

/-- A handler that is not added leaves no trace. The rollback has nothing to undo, as the
table takes what it is given once `epoll_ctl` has. -/
theorem addHandler_refused (r : EpollReactor) (sockId : Int) (handler : Option Nat) (mask : UInt64)
    (able able' : Bool) (hrefused : (r.addHandler sockId handler mask able able').2 = false) :
    (r.addHandler sockId handler mask able able').1.handlerMgr = r.handlerMgr ∧
      (r.addHandler sockId handler mask able able').1.interest = r.interest := by
  unfold EpollReactor.addHandler at hrefused ⊢
  dsimp only at hrefused ⊢
  by_cases hguard : (sockId = -1 || handler.isNone || knownMask mask = 0) = true
  · rw [if_pos hguard]
    exact ⟨rfl, rfl⟩
  by_cases hshut : (!r.epfd || r.wantExit) = true
  · rw [if_neg hguard, if_pos hshut]
    exact ⟨rfl, rfl⟩
  by_cases htaken : (r.handlerMgr.findHandler sockId).any (fun info => handler ≠ some info.handler) = true
  · rw [if_neg hguard, if_neg hshut, if_pos htaken]
    exact ⟨rfl, rfl⟩
  rw [if_neg hguard, if_neg hshut, if_neg htaken] at hrefused ⊢
  generalize hmore : widenMask (knownMask mask) &&& ~~~oldMask (r.handlerMgr.findHandler sockId) = more
    at hrefused ⊢
  by_cases hheld : more = 0
  · rw [if_pos hheld]
    exact ⟨rfl, rfl⟩
  rw [if_neg hheld] at hrefused ⊢
  generalize hcall : r.epollCtl
    (if addEvents 0 (oldMask (r.handlerMgr.findHandler sockId)) = 0 then .add else .mod) (asFd sockId)
    (addEvents (addEvents 0 (oldMask (r.handlerMgr.findHandler sockId))) more) able = called
    at hrefused ⊢
  obtain ⟨r', done⟩ := called
  have hmgr := epollCtl_handlerMgr r
    (if addEvents 0 (oldMask (r.handlerMgr.findHandler sockId)) = 0 then .add else .mod) (asFd sockId)
    (addEvents (addEvents 0 (oldMask (r.handlerMgr.findHandler sockId))) more) able
  have hcalled := @epollCtl_refused r
    (if addEvents 0 (oldMask (r.handlerMgr.findHandler sockId)) = 0 then .add else .mod) (asFd sockId)
    (addEvents (addEvents 0 (oldMask (r.handlerMgr.findHandler sockId))) more) able
  rw [hcall] at hmgr hcalled
  dsimp only at hmgr hcalled
  cases done with
  | false => exact ⟨hmgr, hcalled rfl⟩
  | true =>
    simp only [Bool.or_eq_true, decide_eq_true_eq, not_or, Bool.not_eq_true, Option.isNone_eq_false_iff,
      Option.isSome_iff_exists] at hguard
    obtain ⟨⟨hsock, handler, rfl⟩, -⟩ := hguard
    have hadded := HandlerMgr.addHandler_free r'.handlerMgr hsock hheld
      (by rw [hmgr]; exact Bool.eq_false_iff.mpr htaken)
    generalize r'.handlerMgr.addHandler sockId (some handler) more = added at hadded hrefused
    obtain ⟨handlerMgr, done⟩ := added
    cases hadded
    simp at hrefused

theorem init_inv {pipe : Int} (self : Nat) (hpipe : pipe ≠ -1) (hfd : asFd pipe = pipe) :
    (init pipe self).Inv (Function.update Registry.empty pipe (some (self, {.read}))) := by
  have hread : maskRead ∈ tableMasks ∧ maskRead ≠ 0 := by decide
  have hnobody : ∀ info ∈ HandlerMgr.empty.sockId2HandlerInfo[pipe]?, info.handler = self := by
    intro info hinfo
    simp [HandlerMgr.empty] at hinfo
  obtain ⟨m, hadd, htable, htracks⟩ :=
    HandlerMgr.tracks_empty.addHandler hpipe hread.2 hread.1 hnobody
  have hold : oldMask HandlerMgr.empty.sockId2HandlerInfo[pipe]? = 0 := by
    simp [HandlerMgr.empty, oldMask]
  have hwant : interests (0 ||| maskRead) = {.read} := by decide
  rw [hold, hwant] at htracks
  simp only [hold] at htable
  unfold init
  dsimp only
  rw [epollCtl_set _ _ (.inl ⟨rfl, by simp⟩)]
  dsimp only
  rw [hadd]
  refine ⟨⟨rfl, rfl⟩, htracks, ?_, ?_⟩
  · intro fd
    dsimp only
    rw [ExtTreeMap.getElem?_insert, htable, hfd]
    simp only [LawfulEqCmp.compare_eq_iff_eq]
    split
    · have hevents : addEvents 0 (0 ||| maskRead) = epollIn := by decide
      rw [Option.map_some, hevents]
    · simp [HandlerMgr.empty]
  · intro ctl hctl
    cases List.mem_singleton.mp hctl
    simp

end EpollReactor

/-- Some bits of a mask are set in one of the three sets, or cleared. -/
theorem mem_fdSet_if {sockId : Int} (hpreset : fdPreset sockId = true) (fds : ExtTreeSet Int) (set : Bool)
    (fd : Int) :
    fd ∈ (if set then fdSet sockId fds else fds) ↔ fd ∈ fds ∨ (sockId = fd ∧ set = true) := by
  unfold fdPreset at hpreset
  cases set with
  | true =>
    rw [if_pos rfl, fdSet, if_pos hpreset, ExtTreeSet.mem_insert, LawfulEqCmp.compare_eq_iff_eq]
    tauto
  | false => simp

theorem mem_fdClr_if {sockId : Int} (hpreset : fdPreset sockId = true) (fds : ExtTreeSet Int) (clr : Bool)
    (fd : Int) :
    fd ∈ (if clr then fdClr sockId fds else fds) ↔ fd ∈ fds ∧ ¬(sockId = fd ∧ clr = true) := by
  unfold fdPreset at hpreset
  cases clr with
  | true =>
    rw [if_pos rfl, fdClr, if_pos hpreset, ExtTreeSet.mem_erase, ne_eq, LawfulEqCmp.compare_eq_iff_eq]
    tauto
  | false => simp

namespace SelectReactor

/-- One of the three sets is what the table says. -/
def Selects (fds : ExtTreeSet Int) (m : HandlerMgr) (i : Interest) : Prop :=
  ∀ fd : Int, fd ∈ fds ↔ i ∈ interests (oldMask m.sockId2HandlerInfo[fd]?)

/-- A reactor at work. -/
structure Inv (r : SelectReactor) (t : Registry) : Prop where
  open_ : r.wantExit = false
  tracks : r.handlerMgr.Tracks t
  write : Selects r.fdsWr r.handlerMgr .write
  read : Selects r.fdsRd r.handlerMgr .read
  exception : Selects r.fdsEx r.handlerMgr .exception

variable {m m' : HandlerMgr} {fds : ExtTreeSet Int} {i : Interest} {sockId : Int}
  (hpreset : fdPreset sockId = true) (hfds : Selects fds m i)
include hpreset hfds

theorem Selects.set {handler : Nat} {old new : UInt64} (hmasks : old ∈ tableMasks ∧ new ∈ tableMasks)
    (hentry : oldMask m.sockId2HandlerInfo[sockId]? = old)
    (htable : ∀ fd : Int, m'.sockId2HandlerInfo[fd]? =
      if sockId = fd then some ⟨handler, old ||| new⟩ else m.sockId2HandlerInfo[fd]?)
    {bit : UInt64} (hbit : bitEnabled new bit = true ↔ i ∈ interests new) :
    Selects (if bitEnabled new bit then fdSet sockId fds else fds) m' i := by
  intro fd
  rw [mem_fdSet_if hpreset, hbit, hfds fd, htable]
  by_cases hfd : sockId = fd
  · subst hfd
    rw [if_pos rfl, hentry, oldMask, Option.elim_some, (interests_ops hmasks.1 hmasks.2).1,
      Finset.mem_union]
    tauto
  · rw [if_neg hfd]
    tauto

theorem Selects.clear {info : HandlerInfo} {less : UInt64}
    (hmasks : info.mask ∈ tableMasks ∧ less ∈ tableMasks)
    (hinfo : m.sockId2HandlerInfo[sockId]? = some info)
    (htable : ∀ fd : Int, m'.sockId2HandlerInfo[fd]? =
      if sockId = fd then
        (if info.mask &&& ~~~less = 0 then none else some { info with mask := info.mask &&& ~~~less })
      else m.sockId2HandlerInfo[fd]?)
    {bit : UInt64} (hbit : bitEnabled less bit = true ↔ i ∈ interests less) :
    Selects (if bitEnabled less bit then fdClr sockId fds else fds) m' i := by
  intro fd
  rw [mem_fdClr_if hpreset, hbit, hfds fd, htable]
  by_cases hfd : sockId = fd
  · subst hfd
    have hleft : oldMask (if info.mask &&& ~~~less = 0 then none
        else some { info with mask := info.mask &&& ~~~less }) = info.mask &&& ~~~less := by
      split
      · rename_i hzero
        exact hzero.symm
      · rfl
    rw [if_pos rfl, hleft, hinfo, oldMask, Option.elim_some, (interests_ops hmasks.1 hmasks.2).2.2,
      Finset.mem_sdiff]
    tauto
  · rw [if_neg hfd]
    tauto

end SelectReactor

namespace SelectReactor

variable {r : SelectReactor} {t : Registry}

theorem Inv.addHandler (h : r.Inv t) {sockId : Int} (hsock : sockId < fdSetSize) (handler : Option Nat)
    (mask : UInt64) :
    (r.addHandler sockId handler mask).2 = (t.add sockId handler (interests mask)).2 ∧
      (r.addHandler sockId handler mask).1.Inv (t.add sockId handler (interests mask)).1 := by
  unfold SelectReactor.addHandler
  dsimp only
  cases h.tracks.adds sockId handler mask with
  | invalid hguard hspec =>
    rw [if_pos hguard, hspec]
    exact ⟨rfl, h⟩
  | taken hguard htaken hspec =>
    rw [if_neg (by rw [hguard]; decide), if_neg (by simp [h.open_]), if_pos htaken, hspec]
    exact ⟨rfl, h⟩
  | held hguard hfree hheld hspec =>
    rw [if_neg (by rw [hguard]; decide), if_neg (by simp [h.open_]), if_neg (by rw [hfree]; decide),
      if_pos hheld, hspec]
    exact ⟨rfl, h⟩
  | more hhandler hguard hfree hold hnew hmore hmasks hentry hadd htable htracks hspec =>
    rename_i handler' m' old new
    have hpreset : fdPreset sockId = true := by
      simp only [Bool.or_eq_false_iff, decide_eq_false_iff_not] at hguard
      simp [fdPreset, hguard.1.1, hsock]
    obtain ⟨hwr, hrd, hex⟩ := bitEnabled_iff hmasks.2
    rw [if_neg (by rw [hguard]; decide), if_neg (by simp [h.open_]), if_neg (by rw [hfree]; decide),
      hold, hnew, if_neg hmore, if_neg (by simp [hpreset]), if_neg (by simp [hpreset]),
      if_neg (by simp [hpreset])]
    rw [hadd]
    exact ⟨hspec.symm, h.open_, htracks, Selects.set hpreset h.write hmasks hentry htable hwr,
      Selects.set hpreset h.read hmasks hentry htable hrd,
      Selects.set hpreset h.exception hmasks hentry htable hex⟩

/-- A handler that is not added leaves no trace. -/
theorem addHandler_refused (r : SelectReactor) (sockId : Int) (handler : Option Nat) (mask : UInt64)
    (hrefused : (r.addHandler sockId handler mask).2 = false) :
    (r.addHandler sockId handler mask).1 = r := by
  unfold SelectReactor.addHandler at hrefused ⊢
  dsimp only at hrefused ⊢
  split at hrefused <;> rename_i hguard
  · rw [if_pos hguard]
  rw [if_neg hguard]
  split at hrefused <;> rename_i hshut
  · rw [if_pos hshut]
  rw [if_neg hshut]
  split at hrefused <;> rename_i htaken
  · rw [if_pos htaken]
  rw [if_neg htaken]
  split at hrefused <;> rename_i hheld
  · cases hrefused
  rw [if_neg hheld]
  split at hrefused <;> rename_i hwr
  · rw [if_pos hwr]
  rw [if_neg hwr]
  split at hrefused <;> rename_i hrd
  · rw [if_pos hrd]
  rw [if_neg hrd]
  split at hrefused <;> rename_i hex
  · rw [if_pos hex]
  rw [if_neg hex]
  split at hrefused
  · rfl
  · cases hrefused

theorem init_inv {pipe : Int} (self : Nat) (hpipe : pipe ≠ -1) (hfd : pipe < fdSetSize) :
    (init pipe self).Inv (Function.update Registry.empty pipe (some (self, {.read}))) := by
  have hread : maskRead ∈ tableMasks ∧ maskRead ≠ 0 := by decide
  have hnobody : ∀ info ∈ HandlerMgr.empty.sockId2HandlerInfo[pipe]?, info.handler = self := by
    intro info hinfo
    simp [HandlerMgr.empty] at hinfo
  obtain ⟨m, hadd, htable, htracks⟩ :=
    HandlerMgr.tracks_empty.addHandler hpipe hread.2 hread.1 hnobody
  have hold : oldMask HandlerMgr.empty.sockId2HandlerInfo[pipe]? = 0 := by
    simp [HandlerMgr.empty, oldMask]
  have hwant : interests (0 ||| maskRead) = {.read} := by decide
  have hpreset : fdPreset pipe = true := by simp [fdPreset, hpipe, hfd]
  have hnone : ∀ i, Selects ∅ HandlerMgr.empty i := by
    intro i fd
    have hzero : interests 0 = ∅ := by decide
    simp [HandlerMgr.empty, oldMask, hzero]
  have hbits := bitEnabled_iff hread.1
  rw [hold, hwant] at htracks
  unfold init
  rw [hadd]
  have hmasks : (0 : UInt64) ∈ tableMasks ∧ maskRead ∈ tableMasks := ⟨List.mem_cons_self, hread.1⟩
  rw [hold] at htable
  exact ⟨rfl, htracks, Selects.set hpreset (hnone .write) hmasks hold htable hbits.1,
    Selects.set hpreset (hnone .read) hmasks hold htable hbits.2.1,
    Selects.set hpreset (hnone .exception) hmasks hold htable hbits.2.2⟩

theorem Inv.removeHandler (h : r.Inv t) {sockId : Int} (hsock : sockId < fdSetSize) (mask : UInt64) :
    (r.removeHandler sockId mask).Inv (t.remove sockId (interests mask)) := by
  unfold SelectReactor.removeHandler
  dsimp only
  cases h.tracks.removes sockId mask with
  | invalid hguard hspec =>
    rw [if_pos hguard, hspec]
    exact h
  | absent hguard habsent hspec =>
    rw [if_neg (by rw [hguard]; decide), habsent, hspec]
    exact h
  | unheld hguard hfind hunheld hspec =>
    rw [if_neg (by rw [hguard]; decide), hfind]
    dsimp only
    rw [if_pos hunheld, hspec]
    exact h
  | less hguard hfind hinfo hboth hless hmasks htable htracks =>
    have hpreset : fdPreset sockId = true := by
      simp only [Bool.or_eq_false_iff, decide_eq_false_iff_not] at hguard
      simp [fdPreset, hguard.1, hsock]
    obtain ⟨hwr, hrd, hex⟩ := bitEnabled_iff hmasks.2
    rw [if_neg (by rw [hguard]; decide), hfind]
    dsimp only
    rw [hboth, if_neg hless]
    exact ⟨h.open_, htracks, Selects.clear hpreset h.write hmasks hinfo htable hwr,
      Selects.clear hpreset h.read hmasks hinfo htable hrd,
      Selects.clear hpreset h.exception hmasks hinfo htable hex⟩

end SelectReactor

end Pronet.Net
