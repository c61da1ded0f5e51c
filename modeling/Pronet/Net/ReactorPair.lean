import Pronet.Net.ReactorsAgree

/-! The same calls on the two reactors. Each has a notify pipe of its own, which no caller
knows; off the pipes the tables are one registry, and so is what the kernel is told. -/
namespace Pronet.Net

open Std

inductive ReactorCall
  | addHandler (sockId : Int) (handler : Option Nat) (mask : UInt64)
  | removeHandler (sockId : Int) (mask : UInt64)
  deriving DecidableEq, Repr

def ReactorCall.sockId : ReactorCall → Int
  | .addHandler sockId _ _ => sockId
  | .removeHandler sockId _ => sockId

/-- The descriptor is one that `select` can hold, and not one of the two pipes. -/
def ReactorCall.Valid (pipes : Int × Int) (call : ReactorCall) : Prop :=
  call.sockId = -1 ∨
    (0 ≤ call.sockId ∧ call.sockId < fdSetSize ∧ call.sockId ≠ pipes.1 ∧ call.sockId ≠ pipes.2)

instance (pipes : Int × Int) (call : ReactorCall) : Decidable (call.Valid pipes) :=
  inferInstanceAs (Decidable (_ ∨ _))

/-- A reactor, and what its `AddHandler` has returned. -/
def EpollReactor.perform (s : EpollReactor × List Bool) : ReactorCall → EpollReactor × List Bool
  | .addHandler sockId handler mask =>
      let result := s.1.addHandler sockId handler mask true true
      (result.1, s.2 ++ [result.2])
  | .removeHandler sockId mask => (s.1.removeHandler sockId mask true, s.2)

def SelectReactor.perform (s : SelectReactor × List Bool) : ReactorCall → SelectReactor × List Bool
  | .addHandler sockId handler mask =>
      let result := s.1.addHandler sockId handler mask
      (result.1, s.2 ++ [result.2])
  | .removeHandler sockId mask => (s.1.removeHandler sockId mask, s.2)

def Registry.perform (s : Registry × List Bool) : ReactorCall → Registry × List Bool
  | .addHandler sockId handler mask =>
      let result := s.1.add sockId handler (interests mask)
      (result.1, s.2 ++ [result.2])
  | .removeHandler sockId mask => (s.1.remove sockId (interests mask), s.2)

/-- The events that `epoll` is to report. -/
def eventsOf (held : Finset Interest) : UInt16 :=
  (if .write ∈ held then epollOut else 0) ||| (if .read ∈ held then epollIn else 0) |||
    (if .exception ∈ held then epollEx else 0)

theorem addEvents_eq {mask : UInt64} (hmem : mask ∈ tableMasks) :
    addEvents 0 mask = eventsOf (interests mask) := by
  refine forall_mem_of_all (p := fun mask => addEvents 0 mask = eventsOf (interests mask)) ?_ hmem
  decide +kernel

namespace Registry

/-- A reactor is registered for its own pipe. -/
def withPipe (t : Registry) (pipe : Int) (self : Nat) : Registry :=
  Function.update t pipe (some (self, {.read}))

variable {t : Registry} {pipe : Int} {self : Nat} {sockId : Int}

theorem withPipe_of_ne (hne : sockId ≠ pipe) : t.withPipe pipe self sockId = t sockId :=
  Function.update_of_ne hne _ _

theorem add_withPipe (hne : sockId ≠ pipe) (handler : Option Nat) (more : Finset Interest) :
    (t.withPipe pipe self).add sockId handler more =
      ((t.add sockId handler more).1.withPipe pipe self, (t.add sockId handler more).2) := by
  unfold add
  cases handler with
  | none => rfl
  | some handler =>
    dsimp only
    split
    · rfl
    · rw [withPipe_of_ne hne, withPipe, withPipe, Function.update_comm hne.symm]

theorem remove_withPipe (hne : sockId ≠ pipe) (less : Finset Interest) :
    (t.withPipe pipe self).remove sockId less = (t.remove sockId less).withPipe pipe self := by
  unfold remove
  split
  · rfl
  · rw [withPipe_of_ne hne, withPipe, withPipe, Function.update_comm hne.symm]

/-- Callers that do not know the pipe do not find an entry for it. -/
theorem perform_pipe {s : Registry × List Bool} {call : ReactorCall} {pipes : Int × Int}
    (hcall : call.Valid pipes) {pipe : Int} (hpipe : pipe = pipes.1 ∨ pipe = pipes.2) (hnot : pipe ≠ -1)
    (hnone : s.1 pipe = none) : (perform s call).1 pipe = none := by
  have hne : pipe ≠ call.sockId := by
    rintro rfl
    rcases hcall with hsock | ⟨-, -, hfirst, hsecond⟩
    · exact hnot hsock
    · exact hpipe.elim hfirst hsecond
  cases call with
  | addHandler sockId handler mask =>
    unfold perform add
    cases handler with
    | none => exact hnone
    | some handler =>
      dsimp only
      split
      · exact hnone
      · exact (Function.update_of_ne hne _ _).trans hnone
  | removeHandler sockId mask =>
    unfold perform remove
    dsimp only
    split
    · exact hnone
    · exact (Function.update_of_ne hne _ _).trans hnone

end Registry

/-- The two reactors after the same calls. -/
structure Agree (pipes : Int × Int) (selves : Nat × Nat) (epoll : EpollReactor × List Bool)
    (select : SelectReactor × List Bool) (spec : Registry × List Bool) : Prop where
  results : epoll.2 = spec.2 ∧ select.2 = spec.2
  tables : epoll.1.handlerMgr.sockId2HandlerInfo.erase pipes.1 =
    select.1.handlerMgr.sockId2HandlerInfo.erase pipes.2
  entries : ∀ fd, fd ≠ pipes.1 →
    (epoll.1.handlerMgr.sockId2HandlerInfo[fd]?).map (fun info => (info.handler, interests info.mask)) =
      spec.1 fd
  interest : ∀ fd, epoll.1.interest[fd]? =
    ((spec.1.withPipe pipes.1 selves.1) fd).map fun entry => eventsOf entry.2
  fdSets : ∀ fd,
    (fd ∈ select.1.fdsWr ↔ ∃ entry ∈ (spec.1.withPipe pipes.2 selves.2) fd, .write ∈ entry.2) ∧
    (fd ∈ select.1.fdsRd ↔ ∃ entry ∈ (spec.1.withPipe pipes.2 selves.2) fd, .read ∈ entry.2) ∧
    (fd ∈ select.1.fdsEx ↔ ∃ entry ∈ (spec.1.withPipe pipes.2 selves.2) fd, .exception ∈ entry.2)
  ctls : ∀ ctl ∈ epoll.1.ctls, ctl.present = true ↔ ctl.op ≠ .add
  references : ∀ m ∈ [epoll.1.handlerMgr, select.1.handlerMgr], ∀ handler,
    m.addRefs.count handler = m.releases.count handler +
      m.sockId2HandlerInfo.toList.countP fun entry => entry.2.handler = handler

theorem asFd_of_lt {sockId : Int} (hlow : -1 ≤ sockId) (hhigh : sockId < 2 ^ 31) :
    asFd sockId = sockId := by
  unfold asFd Int.bmod
  dsimp only
  split <;> omega

theorem ReactorCall.Valid.bounds {pipes : Int × Int} {call : ReactorCall} (hcall : call.Valid pipes)
    (hpipes : pipes.1 ≠ -1 ∧ pipes.2 ≠ -1) :
    asFd call.sockId = call.sockId ∧ call.sockId < fdSetSize ∧ call.sockId ≠ pipes.1 ∧
      call.sockId ≠ pipes.2 := by
  unfold Valid fdSetSize at hcall
  unfold fdSetSize
  rcases hcall with hnone | ⟨hlow, hhigh, hfirst, hsecond⟩
  · rw [hnone]
    exact ⟨by decide, by decide, hpipes.1.symm, hpipes.2.symm⟩
  · exact ⟨asFd_of_lt (by omega) (by omega), hhigh, hfirst, hsecond⟩

/-- Two tables that have the same entry for a socket have the same mask for it. -/
theorem HandlerMgr.Tracks.getElem?_eq {m m' : HandlerMgr} {t t' : Registry} (h : m.Tracks t)
    (h' : m'.Tracks t') {fd : Int} (hsame : t fd = t' fd) :
    m.sockId2HandlerInfo[fd]? = m'.sockId2HandlerInfo[fd]? := by
  have hentry := h.same fd
  have hentry' := h'.same fd
  rw [hsame, ← hentry'] at hentry
  cases hinfo : m.sockId2HandlerInfo[fd]? with
  | none =>
    rw [hinfo, Option.map_none, eq_comm, Option.map_eq_none_iff] at hentry
    exact hentry.symm
  | some info =>
    rw [hinfo, Option.map_some, eq_comm, Option.map_eq_some_iff] at hentry
    obtain ⟨info', hinfo', heq⟩ := hentry
    rw [Prod.mk.injEq] at heq
    have hmask := (interests_inj (h'.valid fd info' hinfo').1 (h.valid fd info hinfo).1).mp heq.2
    obtain ⟨handler, mask⟩ := info
    obtain ⟨handler', mask'⟩ := info'
    obtain ⟨hhandler, -⟩ := heq
    cases hhandler
    cases hmask
    exact hinfo'.symm

/-- What holds between the calls: one registry, and each reactor has it with its own pipe. -/
structure PairInv (pipes : Int × Int) (selves : Nat × Nat) (epoll : EpollReactor × List Bool)
    (select : SelectReactor × List Bool) (spec : Registry × List Bool) : Prop where
  epollInv : epoll.1.Inv (spec.1.withPipe pipes.1 selves.1)
  selectInv : select.1.Inv (spec.1.withPipe pipes.2 selves.2)
  results : epoll.2 = spec.2 ∧ select.2 = spec.2
  hidden : spec.1 pipes.1 = none ∧ spec.1 pipes.2 = none

namespace PairInv

variable {pipes : Int × Int} {selves : Nat × Nat} {epoll : EpollReactor × List Bool}
  {select : SelectReactor × List Bool} {spec : Registry × List Bool}

theorem step (h : PairInv pipes selves epoll select spec) (hpipes : pipes.1 ≠ -1 ∧ pipes.2 ≠ -1)
    {call : ReactorCall} (hcall : call.Valid pipes) :
    PairInv pipes selves (EpollReactor.perform epoll call) (SelectReactor.perform select call)
      (Registry.perform spec call) := by
  have hhidden : (Registry.perform spec call).1 pipes.1 = none ∧
      (Registry.perform spec call).1 pipes.2 = none :=
    ⟨Registry.perform_pipe hcall (.inl rfl) hpipes.1 h.hidden.1,
      Registry.perform_pipe hcall (.inr rfl) hpipes.2 h.hidden.2⟩
  obtain ⟨hfd, hsize, hfirst, hsecond⟩ := hcall.bounds hpipes
  cases call with
  | addHandler sockId handler mask =>
    dsimp only [ReactorCall.sockId] at hfd hsize hfirst hsecond
    obtain ⟨hresult, hinv⟩ := h.epollInv.addHandler hfd handler mask true
    obtain ⟨hresult', hinv'⟩ := h.selectInv.addHandler hsize handler mask
    rw [Registry.add_withPipe hfirst] at hresult hinv
    rw [Registry.add_withPipe hsecond] at hresult' hinv'
    have hresults : epoll.2 ++ [(epoll.1.addHandler sockId handler mask true true).2] =
        spec.2 ++ [(spec.1.add sockId handler (interests mask)).2] := by
      rw [h.results.1, hresult]
    have hresults' : select.2 ++ [(select.1.addHandler sockId handler mask).2] =
        spec.2 ++ [(spec.1.add sockId handler (interests mask)).2] := by
      rw [h.results.2, hresult']
    exact ⟨hinv, hinv', ⟨hresults, hresults'⟩, hhidden⟩
  | removeHandler sockId mask =>
    dsimp only [ReactorCall.sockId] at hfd hsize hfirst hsecond
    have hinv := h.epollInv.removeHandler hfd mask
    have hinv' := h.selectInv.removeHandler hsize mask
    rw [Registry.remove_withPipe hfirst] at hinv
    rw [Registry.remove_withPipe hsecond] at hinv'
    exact ⟨hinv, hinv', h.results, hhidden⟩

theorem run (h : PairInv pipes selves epoll select spec) (hpipes : pipes.1 ≠ -1 ∧ pipes.2 ≠ -1)
    (calls : List ReactorCall) (hcalls : ∀ call ∈ calls, call.Valid pipes) :
    PairInv pipes selves (calls.foldl EpollReactor.perform epoll)
      (calls.foldl SelectReactor.perform select) (calls.foldl Registry.perform spec) := by
  induction calls generalizing epoll select spec with
  | nil => exact h
  | cons call calls ih =>
    obtain ⟨hcall, hrest⟩ := List.forall_mem_cons.mp hcalls
    exact ih (h.step hpipes hcall) hrest

theorem tables (h : PairInv pipes selves epoll select spec) :
    epoll.1.handlerMgr.sockId2HandlerInfo.erase pipes.1 =
      select.1.handlerMgr.sockId2HandlerInfo.erase pipes.2 := by
  have htracks := h.epollInv.tracks
  have htracks' := h.selectInv.tracks
  apply ExtTreeMap.ext_getElem?
  intro fd
  rw [ExtTreeMap.getElem?_erase, ExtTreeMap.getElem?_erase]
  simp only [LawfulEqCmp.compare_eq_iff_eq]
  by_cases hfirst : fd = pipes.1
  · subst hfirst
    rw [if_pos rfl]
    split
    · rfl
    · rename_i hsecond
      have hentry := htracks'.same pipes.1
      rw [Registry.withPipe_of_ne (Ne.symm hsecond), h.hidden.1, Option.map_eq_none_iff] at hentry
      exact hentry.symm
  · rw [if_neg (Ne.symm hfirst)]
    by_cases hsecond : fd = pipes.2
    · subst hsecond
      have hentry := htracks.same pipes.2
      rw [Registry.withPipe_of_ne hfirst, h.hidden.2, Option.map_eq_none_iff] at hentry
      rw [if_pos rfl, hentry]
    · rw [if_neg (Ne.symm hsecond)]
      apply htracks.getElem?_eq htracks'
      rw [Registry.withPipe_of_ne hfirst, Registry.withPipe_of_ne hsecond]

/-- A set of `select` holds the sockets whose entry has the interest. -/
theorem mem_fds {m : HandlerMgr} {t : Registry} (h : m.Tracks t) {fds : ExtTreeSet Int} {i : Interest}
    (hfds : SelectReactor.Selects fds m i) (fd : Int) : fd ∈ fds ↔ ∃ entry ∈ t fd, i ∈ entry.2 := by
  rw [hfds fd, ← h.same fd]
  cases hinfo : m.sockId2HandlerInfo[fd]? with
  | none =>
    have hnothing : interests (oldMask none) = ∅ := (mask_eq_zero List.mem_cons_self).1.mpr rfl
    simp [hnothing]
  | some info => simp [oldMask]

theorem agree (h : PairInv pipes selves epoll select spec) : Agree pipes selves epoll select spec := by
  have htracks := h.epollInv.tracks
  have htracks' := h.selectInv.tracks
  refine ⟨h.results, h.tables, ?_, ?_, ?_, h.epollInv.ctls, ?_⟩
  · intro fd hne
    rw [htracks.same fd, Registry.withPipe_of_ne hne]
  · intro fd
    rw [h.epollInv.interest, ← htracks.same fd, Option.map_map]
    cases hinfo : epoll.1.handlerMgr.sockId2HandlerInfo[fd]? with
    | none => rfl
    | some info =>
      rw [Option.map_some, Option.map_some, addEvents_eq (htracks.valid fd info hinfo).1]
      rfl
  · intro fd
    exact ⟨mem_fds htracks' h.selectInv.write fd, mem_fds htracks' h.selectInv.read fd,
      mem_fds htracks' h.selectInv.exception fd⟩
  · intro m hm
    rcases List.mem_pair.mp hm with rfl | rfl
    · exact htracks.references
    · exact htracks'.references

end PairInv

/-- The reactors agree after every sequence of calls, and a handler that is not added leaves
no trace in either of them, whatever state they are in. -/
theorem reactors_agree (pipes : Int × Int) (selves : Nat × Nat)
    (hfirst : 0 ≤ pipes.1 ∧ pipes.1 < 2 ^ 31) (hsecond : 0 ≤ pipes.2 ∧ pipes.2 < fdSetSize) :
    (∀ calls : List ReactorCall, (∀ call ∈ calls, call.Valid pipes) →
      Agree pipes selves (calls.foldl EpollReactor.perform (.init pipes.1 selves.1, []))
        (calls.foldl SelectReactor.perform (.init pipes.2 selves.2, []))
        (calls.foldl Registry.perform (.empty, []))) ∧
    (∀ (r : EpollReactor) (sockId : Int) (handler : Option Nat) (mask : UInt64) (able able' : Bool),
      (r.addHandler sockId handler mask able able').2 = false →
        (r.addHandler sockId handler mask able able').1.handlerMgr = r.handlerMgr ∧
          (r.addHandler sockId handler mask able able').1.interest = r.interest) ∧
    (∀ (r : SelectReactor) (sockId : Int) (handler : Option Nat) (mask : UInt64),
      (r.addHandler sockId handler mask).2 = false → (r.addHandler sockId handler mask).1 = r) := by
  refine ⟨?_, EpollReactor.addHandler_refused, SelectReactor.addHandler_refused⟩
  intro calls hcalls
  have hpipes : pipes.1 ≠ -1 ∧ pipes.2 ≠ -1 := by omega
  have hstart : PairInv pipes selves (.init pipes.1 selves.1, []) (.init pipes.2 selves.2, [])
      (.empty, []) :=
    ⟨EpollReactor.init_inv selves.1 hpipes.1 (asFd_of_lt (by omega) hfirst.2),
      SelectReactor.init_inv selves.2 hpipes.2 hsecond.2, ⟨rfl, rfl⟩, rfl, rfl⟩
  exact (hstart.run hpipes calls hcalls).agree

def partialMasks : List ReactorCall :=
  [.addHandler 7 (some 1) maskConnect, .removeHandler 7 maskWrite, .addHandler 7 (some 2) maskRead,
    .addHandler 7 (some 1) maskAccept, .removeHandler 7 (maskRead ||| maskException),
    .addHandler 7 (some 2) maskAccept]

theorem reactors_agree_partialMasks :
    (Agree (3, 4) (100, 200) (partialMasks.foldl EpollReactor.perform (.init 3 100, []))
        (partialMasks.foldl SelectReactor.perform (.init 4 200, []))
        (partialMasks.foldl Registry.perform (.empty, []))) ∧
      (partialMasks.foldl EpollReactor.perform (.init 3 100, [])).2 = [true, false, true, true] ∧
      (partialMasks.foldl EpollReactor.perform (.init 3 100, [])).1.interest.toList =
        [(3, epollIn), (7, epollIn)] := by
  refine ⟨?_, by decide +kernel⟩
  exact (reactors_agree (3, 4) (100, 200) (by decide) (by decide)).1 partialMasks (by decide)

end Pronet.Net
