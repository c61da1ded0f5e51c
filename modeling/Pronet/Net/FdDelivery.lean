import Pronet.Net.FdLink

/-! Descriptors reach the peer with their packets. What is given and not yet received is
on its way, in this order: read by the peer, on the wire, in the transport, in the pipe. -/
namespace Pronet.Net

open Library Runs TcpTransport

/-- The packet whose descriptor is still to be passed. -/
def handing (t : TcpTransport (ServicePacket × Nat)) : List ServicePacket :=
  if t.sendingFd.isSome then (t.sendPool.preSend.head?.map Prod.fst).toList else []

/-- The transport has nothing to send, or the whole of one packet. -/
inductive Holding (t : TcpTransport (ServicePacket × Nat)) : Prop
  | nothing (hclear : FdLink.Clear t)
  | packet (packet : ServicePacket) (hpool : t.sendPool = ⟨[packet.bytes], some 0⟩)
      (hfd : t.sendingFd = none ∨ t.sendingFd = some packet.oldSock.sockId)
      (hpending : t.pendingWr = true)

theorem Holding.of_eq {t t' : TcpTransport (ServicePacket × Nat)} (h : Holding t)
    (hpool : t'.sendPool = t.sendPool) (hpending : t'.pendingWr = t.pendingWr)
    (hfd : t'.sendingFd = t.sendingFd) : Holding t' := by
  cases h with
  | nothing hclear =>
    exact .nothing ⟨hpool.trans hclear.1, hfd.trans hclear.2.1, hpending.trans hclear.2.2⟩
  | packet packet hp hf hw =>
    exact .packet packet (hpool.trans hp) (by rw [hfd]; exact hf) (hpending.trans hw)

theorem Holding.clear {t : TcpTransport (ServicePacket × Nat)} (h : Holding t)
    (hpending : t.pendingWr = false) : FdLink.Clear t := by
  cases h with
  | nothing hclear => exact hclear
  | packet packet hpool hfd hbusy =>
    rw [hpending] at hbusy
    cases hbusy

theorem preSend_packet {t : TcpTransport (ServicePacket × Nat)} {packet : ServicePacket}
    (hpool : t.sendPool = ⟨[packet.bytes], some 0⟩) : t.sendPool.preSend = packet.bytes := by
  rw [hpool]
  rfl

theorem handing_of_none {t : TcpTransport (ServicePacket × Nat)} (hfd : t.sendingFd = none) :
    handing t = [] := by
  unfold handing
  rw [hfd]
  rfl

theorem handing_of_some {t : TcpTransport (ServicePacket × Nat)} {packet : ServicePacket} {fd : Int}
    (hpool : t.sendPool = ⟨[packet.bytes], some 0⟩) (hfd : t.sendingFd = some fd) :
    handing t = [packet] := by
  unfold handing
  rw [hfd, preSend_packet hpool]
  rfl

theorem sendPool_fini (t : TcpTransport (ServicePacket × Nat)) : t.fini.sendPool = t.sendPool := by
  unfold fini
  split <;> rfl

theorem sendingFd_fini (t : TcpTransport (ServicePacket × Nat)) :
    t.fini.sendingFd = t.sendingFd := by
  unfold fini
  split <;> rfl

namespace PipeState

/-- The packets whose descriptor has not been passed. -/
def unpassed (p : PipeState) : List ServicePacket := handing p.trans ++ p.fdPackets

theorem unpassed_congr {p : PipeState} {t : TcpTransport (ServicePacket × Nat)}
    (hpool : t.sendPool = p.trans.sendPool) (hfd : t.sendingFd = p.trans.sendingFd) :
    unpassed { p with trans := t } = p.unpassed := by
  unfold unpassed handing
  rw [hpool, hfd]

structure SenderOk (p : PipeState) : Prop where
  holding : Holding p.trans
  registered : p.trans.hasObserver = true → p.trans.registeredWr = p.trans.onWr
  wake : p.trans.hasObserver = true → p.trans.pendingWr = true → p.trans.onWr = true
  request : p.trans.requestOnSend = false
  canUpcall : p.trans.hasObserver = true → p.trans.phase ≠ .leave → p.trans.canUpcall = true
  locals : ∀ locals, p.trans.phase = .upcall locals →
    locals.error = none ∧ locals.requestOnSend = false
  ids : ∀ packet ∈ p.fdPackets, packet.oldSock.sockId ≠ -1

/-- While a packet waits in the pipe, the transport is busy or about to call `OnSend`. -/
structure SenderInv (p : PipeState) : Prop extends SenderOk p where
  waiting : p.trans.hasObserver = true → p.hasTrans = true → p.fdPackets ≠ [] →
    p.trans.pendingWr = true ∨ ∃ locals, p.trans.phase = .upcall locals ∧ locals.onSendBuf = true

theorem senderInv_init : init.SenderInv where
  holding := .nothing ⟨rfl, rfl, rfl⟩
  registered _ := rfl
  wake _ h := by cases h
  request := rfl
  canUpcall _ _ := rfl
  locals _ h := by cases h
  ids _ h := absurd h List.not_mem_nil
  waiting _ _ h := absurd rfl h

theorem sendFd_refused {t : TcpTransport (ServicePacket × Nat)} {packet : ServicePacket}
    (hid : packet.oldSock.sockId ≠ -1)
    (h : (t.sendFd packet.bytes packet.oldSock.sockId).2 = false) :
    t.hasObserver = false ∨ t.pendingWr = true := by
  unfold TcpTransport.sendFd at h
  rw [if_neg hid] at h
  cases hopen : t.hasObserver with
  | false => exact Or.inl rfl
  | true =>
    cases hpending : t.pendingWr with
    | true => exact Or.inr rfl
    | false =>
      rw [hopen, hpending] at h
      cases h

/-- Trying to send passes the first waiting packet to a transport that is free. -/
theorem trySend_cases (p : PipeState) (hids : ∀ packet ∈ p.fdPackets, packet.oldSock.sockId ≠ -1) :
    (p.trySend = p ∧ (p.fdPackets = [] ∨ p.trans.hasObserver = false ∨ p.trans.pendingWr = true)) ∨
    ∃ packet packets, p.fdPackets = packet :: packets ∧ p.trans.pendingWr = false ∧
      p.trySend = { p with
        fdPackets := packets
        trans := { p.trans.addWr with
          sendPool := p.trans.sendPool.fill packet.bytes
          sendingFd := some packet.oldSock.sockId
          pendingWr := true } } := by
  unfold trySend
  cases hpackets : p.fdPackets with
  | nil => exact Or.inl ⟨rfl, Or.inl rfl⟩
  | cons packet packets =>
    have hid := hids packet (by rw [hpackets]; exact List.mem_cons_self)
    obtain hrefused | ⟨hpending, hsent⟩ := p.trans.sendFd_cases packet
    · have hbusy := sendFd_refused hid (congrArg Prod.snd hrefused)
      simp only [hrefused, Bool.false_eq_true, if_false]
      rw [← hpackets]
      exact Or.inl ⟨rfl, Or.inr hbusy⟩
    · simp only [hsent, if_true]
      exact Or.inr ⟨packet, packets, rfl, hpending, rfl⟩

@[simp] theorem addWr_hasObserver (t : TcpTransport (ServicePacket × Nat)) :
    t.addWr.hasObserver = t.hasObserver := by
  unfold addWr
  split <;> rfl

@[simp] theorem addWr_phase (t : TcpTransport (ServicePacket × Nat)) :
    t.addWr.phase = t.phase := by
  unfold addWr
  split <;> rfl

@[simp] theorem addWr_canUpcall (t : TcpTransport (ServicePacket × Nat)) :
    t.addWr.canUpcall = t.canUpcall := by
  unfold addWr
  split <;> rfl

@[simp] theorem addWr_requestOnSend (t : TcpTransport (ServicePacket × Nat)) :
    t.addWr.requestOnSend = t.requestOnSend := by
  unfold addWr
  split <;> rfl

theorem addWr_onWr (t : TcpTransport (ServicePacket × Nat)) : t.addWr.onWr = true := by
  unfold addWr
  split
  · assumption
  · rfl

theorem addWr_registered {t : TcpTransport (ServicePacket × Nat)}
    (h : t.registeredWr = t.onWr) : t.addWr.registeredWr = t.addWr.onWr := by
  unfold addWr
  split
  · exact h
  · rfl

/-- Whatever held back the waiting packets, they are passed on or the transport is busy. -/
theorem SenderOk.trySend {p : PipeState} (h : p.SenderOk) :
    p.trySend.SenderInv ∧ p.trySend.unpassed = p.unpassed := by
  obtain ⟨hsame, hwhy⟩ | ⟨packet, packets, hpackets, hpending, hsent⟩ := p.trySend_cases h.ids
  · rw [hsame]
    refine ⟨⟨h, ?_⟩, rfl⟩
    intro hopen _ hne
    rcases hwhy with hnil | hclosed | hbusy
    · exact absurd hnil hne
    · rw [hopen] at hclosed
      cases hclosed
    · exact Or.inl hbusy
  · have hclear := h.holding.clear hpending
    rw [hsent]
    have hfill : p.trans.sendPool.fill packet.bytes = ⟨[packet.bytes], some 0⟩ := by
      rw [hclear.1]
      rfl
    refine ⟨⟨⟨.packet packet hfill (Or.inr rfl) rfl, ?_, fun _ _ => addWr_onWr _, ?_, ?_, ?_, ?_⟩,
      fun _ _ _ => Or.inl rfl⟩, ?_⟩
    · intro hopen
      exact addWr_registered (h.registered (by simpa using hopen))
    · simpa using h.request
    · intro hopen hphase
      simpa using h.canUpcall (by simpa using hopen) (by simpa using hphase)
    · intro locals hphase
      exact h.locals locals (by simpa using hphase)
    · intro other hother
      exact h.ids other (by rw [hpackets]; exact List.mem_cons_of_mem packet hother)
    · unfold unpassed
      rw [handing_of_some hfill rfl, handing_of_none hclear.2.1, hpackets]
      rfl

theorem SenderInv.sendFd {p : PipeState} (h : p.SenderInv) (packet : ServicePacket) :
    (p.sendFd packet).SenderInv ∧
      (p.sendFd packet).unpassed.Sublist (p.unpassed ++ [packet]) := by
  unfold PipeState.sendFd
  split
  · exact ⟨h, List.sublist_append_left _ _⟩
  · rename_i hid
    split
    · exact ⟨h, List.sublist_append_left _ _⟩
    · have hids : ∀ other ∈ p.fdPackets ++ [packet], other.oldSock.sockId ≠ -1 := by
        intro other hother
        rcases List.mem_append.mp hother with hold | hnew
        · exact h.ids other hold
        · rw [List.mem_singleton.mp hnew]
          exact hid
      have hqueued : SenderOk { p with fdPackets := p.fdPackets ++ [packet] } :=
        ⟨h.holding, h.registered, h.wake, h.request, h.canUpcall, h.locals, hids⟩
      obtain ⟨hsent, hunpassed⟩ := hqueued.trySend
      refine ⟨hsent, ?_⟩
      rw [hunpassed]
      unfold unpassed
      rw [List.append_assoc]

theorem upcallOf_of_ok {t : TcpTransport (ServicePacket × Nat)} {locals : OutputLocals}
    (herror : locals.error = none) (hrequest : locals.requestOnSend = false) :
    t.upcallOf locals =
      if t.canUpcall && locals.onSendBuf then some (.onSend locals.actionId) else none := by
  unfold upcallOf
  rw [herror, hrequest, Bool.or_false]
  cases t.canUpcall <;> cases locals.onSendBuf <;> rfl

theorem SenderInv.upcall {p p' : PipeState} (h : p.SenderInv)
    (hp : HubSystem.upcallPipe p = some p') : p'.SenderInv ∧ p'.unpassed = p.unpassed := by
  unfold HubSystem.upcallPipe at hp
  split at hp
  · rename_i locals hphase
    obtain ⟨herror, hrequest⟩ := h.locals locals hphase
    have hupcall := upcallOf_of_ok (t := p.trans) herror hrequest
    dsimp only at hp
    unfold outputUpcall at hp
    by_cases hsend : (p.trans.canUpcall && locals.onSendBuf) = true
    · rw [if_pos hsend] at hupcall
      simp only [hupcall, Option.some.injEq] at hp
      subst hp
      have hcan : p.trans.canUpcall = true := (Bool.and_eq_true _ _ ▸ hsend).1
      have hnext : SenderOk { p with trans := { p.trans with phase := .deregister } } :=
        ⟨h.holding.of_eq rfl rfl rfl, h.registered, h.wake, h.request, fun _ _ => hcan, nofun, h.ids⟩
      unfold PipeState.onSend
      split
      · rename_i hclosed
        refine ⟨⟨hnext, fun _ htrans => ?_⟩, rfl⟩
        dsimp only at htrans hclosed
        rw [htrans] at hclosed
        cases hclosed
      · exact hnext.trySend
    · rw [if_neg hsend] at hupcall
      simp only [hupcall, Option.some.injEq] at hp
      subst hp
      refine ⟨⟨⟨h.holding.of_eq rfl rfl rfl, h.registered, h.wake, h.request,
        fun _ hphase => absurd rfl hphase, nofun, h.ids⟩, ?_⟩, rfl⟩
      intro hopen htrans hne
      rcases h.waiting hopen htrans hne with hbusy | ⟨other, hother, hbuf⟩
      · exact Or.inl hbusy
      · -- the transport is open, so that `OnSend` would have been called
        rw [hphase, OutputPhase.upcall.injEq] at hother
        have hcan := h.canUpcall hopen (by rw [hphase]; exact nofun)
        rw [hcan, hother, hbuf] at hsend
        exact absurd rfl hsend
  · cases hp

theorem SenderInv.deregister {p : PipeState} (h : p.SenderInv)
    (hphase : p.trans.phase = .deregister) :
    SenderInv { p with trans := p.trans.outputDeregister } := by
  have hwaiting : p.trans.hasObserver = true → p.hasTrans = true → p.fdPackets ≠ [] →
      p.trans.pendingWr = true := by
    intro hopen htrans hne
    rcases h.waiting hopen htrans hne with hbusy | ⟨locals, hupcall, -⟩
    · exact hbusy
    · rw [hphase] at hupcall
      cases hupcall
  unfold outputDeregister
  dsimp only
  split
  · rename_i hidle
    simp only [Bool.and_eq_true, Bool.not_eq_true'] at hidle
    refine ⟨⟨h.holding.of_eq rfl rfl rfl, fun _ => rfl, fun _ hbusy => ?_, h.request,
      fun _ hleave => absurd rfl hleave, nofun, h.ids⟩, fun hopen htrans hne =>
        Or.inl (hwaiting hopen htrans hne)⟩
    exact absurd (hidle.1.2.symm.trans hbusy) Bool.false_ne_true
  · exact ⟨⟨h.holding.of_eq rfl rfl rfl, h.registered, h.wake, h.request,
      fun _ hleave => absurd rfl hleave, nofun, h.ids⟩, fun hopen htrans hne =>
        Or.inl (hwaiting hopen htrans hne)⟩

/-- A transport that is closed for good owes nothing. -/
theorem SenderInv.of_closed {p p' : PipeState} (h : p.SenderInv) (hholding : Holding p'.trans)
    (hclosed : p'.trans.hasObserver = false) (hrequest : p'.trans.requestOnSend = false)
    (hlocals : ∀ locals, p'.trans.phase = .upcall locals →
      locals.error = none ∧ locals.requestOnSend = false)
    (hpackets : p'.fdPackets = p.fdPackets) : p'.SenderInv := by
  have hnot : ¬ p'.trans.hasObserver = true := Bool.eq_false_iff.mp hclosed
  exact ⟨⟨hholding, fun hopen => absurd hopen hnot, fun hopen => absurd hopen hnot, hrequest,
    fun hopen => absurd hopen hnot, hlocals, hpackets ▸ h.ids⟩, fun hopen => absurd hopen hnot⟩

theorem SenderInv.finiTrans {p : PipeState} (h : p.SenderInv) :
    SenderInv { p with trans := p.trans.fini } := by
  unfold fini
  split
  · exact h.of_closed (h.holding.of_eq rfl rfl rfl) rfl h.request h.locals rfl
  · exact h

theorem SenderInv.leave {p : PipeState} (h : p.SenderInv) (hphase : p.trans.phase = .leave) :
    SenderInv { p with trans := p.trans.outputLeave } := by
  unfold outputLeave
  dsimp only
  split
  · unfold fini
    split
    · exact h.of_closed (h.holding.of_eq rfl rfl rfl) rfl h.request nofun rfl
    · rename_i hopen
      exact h.of_closed (h.holding.of_eq rfl rfl rfl) (Bool.eq_false_iff.mpr hopen) h.request nofun
        rfl
  · rename_i hcan
    have hcan : p.trans.canUpcall = true := by simpa using hcan
    refine ⟨⟨h.holding.of_eq rfl rfl rfl, h.registered, h.wake, h.request, fun _ _ => hcan, nofun,
      h.ids⟩, ?_⟩
    intro hopen htrans hne
    rcases h.waiting hopen htrans hne with hbusy | ⟨locals, hupcall, -⟩
    · exact Or.inl hbusy
    · rw [hphase] at hupcall
      cases hupcall

theorem SenderInv.close {p : PipeState} (h : p.SenderInv) (hphase : p.trans.phase = .idle) :
    SenderInv { p with trans := { p.trans with canUpcall := false, phase := .leave } } := by
  refine ⟨⟨h.holding.of_eq rfl rfl rfl, h.registered, h.wake, h.request,
    fun _ hleave => absurd rfl hleave, nofun, h.ids⟩, ?_⟩
  intro hopen htrans hne
  rcases h.waiting hopen htrans hne with hbusy | ⟨locals, hupcall, -⟩
  · exact Or.inl hbusy
  · rw [hphase] at hupcall
    cases hupcall

theorem SenderInv.finiPipe {p : PipeState} (h : p.SenderInv) :
    SenderInv { p with hasTrans := false } :=
  ⟨⟨h.holding, h.registered, h.wake, h.request, h.canUpcall, h.locals, h.ids⟩,
    fun _ htrans => by cases htrans⟩

end PipeState

namespace FdLink

/-- What the first section of `OnOutput` does to a transport that holds at most a packet. -/
inductive Outputs (t : TcpTransport (ServicePacket × Nat)) (blocked : Bool) :
    TcpTransport (ServicePacket × Nat) → List FdMessage → Prop
  | closed (hclosed : t.hasObserver = false) : Outputs t blocked t []
  | nothing (hopen : t.hasObserver = true) (hclear : Clear t) :
      Outputs t blocked (if t.onWr then { t with pendingWr := false }.removeWr
        else { t with pendingWr := false }) []
  | passed (packet : ServicePacket) (hopen : t.hasObserver = true)
      (hpool : t.sendPool = ⟨[packet.bytes], some 0⟩)
      (hfd : t.sendingFd = some packet.oldSock.sockId) (hpending : t.pendingWr = true) :
      Outputs t blocked
        { t with
          sendingFd := none
          requestOnSend := false
          phase := .upcall ⟨none, false, false, 0⟩ }
        [⟨packet.bytes, some packet.oldSock.sockId⟩]
  | blocked (packet : ServicePacket) (hopen : t.hasObserver = true)
      (hpool : t.sendPool = ⟨[packet.bytes], some 0⟩) (hfd : t.sendingFd = none)
      (hpending : t.pendingWr = true) :
      Outputs t blocked
        { t with requestOnSend := false, phase := .upcall ⟨none, false, false, 0⟩ } []
  | sent (packet : ServicePacket) (hopen : t.hasObserver = true)
      (hpool : t.sendPool = ⟨[packet.bytes], some 0⟩) (hfd : t.sendingFd = none) :
      Outputs t blocked
        { t with
          sendPool := SendPool.empty
          sendingFd := none
          pendingWr := false
          requestOnSend := false
          actionId := 0
          phase := .upcall ⟨none, true, false, t.actionId⟩ }
        [⟨packet.bytes, none⟩]

theorem outputData_sent {t : TcpTransport (ServicePacket × Nat)} {packet : ServicePacket}
    (hpool : t.sendPool = ⟨[packet.bytes], some 0⟩) :
    t.outputData (.sent sizeofServicePacket) =
      ({ t with sendPool := SendPool.empty, pendingWr := false }, none, true) := by
  have hlength := packet.length_bytes
  unfold outputData
  rw [preSend_packet hpool, hpool]
  simp [hlength, SendPool.flush, SendPool.onSendBuf, SendPool.postSend, SendPool.empty,
    sizeofServicePacket]

theorem outputs {t : TcpTransport (ServicePacket × Nat)} (h : Holding t)
    (hrequest : t.requestOnSend = false) (blocked : Bool) :
    Outputs t blocked (t.outputLocked (sendResult t blocked)) (writes t blocked) := by
  unfold outputLocked writes
  by_cases hclosed : (!t.hasObserver) = true
  · rw [if_pos hclosed, if_pos hclosed]
    exact .closed (by simpa using hclosed)
  · have hopen : t.hasObserver = true := by simpa using hclosed
    rw [if_neg hclosed, if_neg hclosed]
    cases h with
    | nothing hclear =>
      have hempty : t.sendPool.preSend.isEmpty = true := by
        rw [hclear.1]
        rfl
      have hquiet : (!t.requestOnSend) = true := by rw [hrequest]; rfl
      rw [if_pos hempty, if_pos hempty]
      dsimp only
      rw [if_pos hquiet]
      exact .nothing hopen hclear
    | packet packet hpool hfd hpending =>
      have hpre := preSend_packet hpool
      have hrest : ¬ t.sendPool.preSend.isEmpty = true := by
        rw [hpre, List.isEmpty_iff]
        intro hnil
        have hlength := packet.length_bytes
        rw [hnil] at hlength
        cases hlength
      rw [if_neg hrest, if_neg hrest]
      unfold sendResult
      rw [hpre, packet.length_bytes]
      rcases hfd with hnone | hsome
      · rw [if_pos hnone]
        cases blocked with
        | true =>
          have hblocked : (decide (t.sendingFd = none) && true) = true := by rw [hnone]; rfl
          rw [if_pos hblocked, if_pos hblocked]
          have hout : Outputs t true _ _ := .blocked packet hopen hpool hnone hpending
          simpa [outputData, takeLocals, hrequest] using hout
        | false =>
          have hfree : ¬ (decide (t.sendingFd = none) && false) = true := by simp
          rw [if_neg hfree, if_neg hfree, outputData_sent hpool, hnone]
          have hout : Outputs t false _ _ := .sent packet hopen hpool hnone
          simpa [takeLocals, hrequest] using hout
      · have hsending : ¬ t.sendingFd = none := by rw [hsome]; exact Option.some_ne_none _
        have hfree : ¬ (decide (t.sendingFd = none) && blocked) = true := by simp [hsome]
        rw [if_neg hsending, if_neg hfree, if_neg hfree, hsome]
        have hout : Outputs t blocked _ _ := .passed packet hopen hpool hsome hpending
        simpa [outputFd, takeLocals, hrequest, hpre, packet.length_bytes] using hout

/-- The packet that a message passes on, if a descriptor is attached to it. -/
def passed (message : FdMessage) : Option ServicePacket :=
  if message.fd.isSome then message.packet else none

/-- A message is a packet, with its own descriptor or with none. -/
def Own (message : FdMessage) : Prop :=
  ∃ packet : ServicePacket, message.bytes = packet.bytes ∧
    (message.fd = none ∨ message.fd = some packet.oldSock.sockId)

theorem packet_bytes (packet : ServicePacket) (fd : Option Int) :
    FdMessage.packet ⟨packet.bytes, fd⟩ = some packet := by
  have hpos : 0 < sizeofServicePacket := by decide
  have hhead := packet.head?_drop_bytes hpos
  rw [List.drop_zero] at hhead
  unfold FdMessage.packet
  simp only [hhead, if_true]

theorem output_inv {p : PipeState} (h : p.SenderInv) (hphase : p.trans.phase = .idle)
    {blocked : Bool} {t : TcpTransport (ServicePacket × Nat)} {messages : List FdMessage}
    (hout : Outputs p.trans blocked t messages) :
    PipeState.SenderInv { p with trans := t } ∧ (∀ message ∈ messages, Own message) ∧
      messages.filterMap passed ++ PipeState.unpassed { p with trans := t } = p.unpassed := by
  have hbusy : p.trans.hasObserver = true → p.hasTrans = true → p.fdPackets ≠ [] →
      p.trans.pendingWr = true := by
    intro hopen htrans hne
    rcases h.waiting hopen htrans hne with hbusy | ⟨locals, hupcall, -⟩
    · exact hbusy
    · rw [hphase] at hupcall
      cases hupcall
  have hcan : p.trans.hasObserver = true → p.trans.canUpcall = true := fun hopen =>
    h.canUpcall hopen (by rw [hphase]; exact nofun)
  have hlocals : ∀ locals : OutputLocals, p.trans.phase = .upcall locals →
      locals.error = none ∧ locals.requestOnSend = false := h.locals
  cases hout with
  | closed hclosed => exact ⟨h, nofun, rfl⟩
  | nothing hopen hclear =>
    have hnone : p.hasTrans = true → p.fdPackets = [] := by
      intro htrans
      by_contra hne
      have hpending := hbusy hopen htrans hne
      rw [hclear.2.2] at hpending
      cases hpending
    split
    · exact ⟨⟨⟨.nothing ⟨hclear.1, hclear.2.1, rfl⟩, fun _ => rfl, nofun, h.request,
        fun hopen _ => hcan hopen, hlocals, h.ids⟩,
        fun _ htrans hne => absurd (hnone htrans) hne⟩, nofun, PipeState.unpassed_congr rfl rfl⟩
    · exact ⟨⟨⟨.nothing ⟨hclear.1, hclear.2.1, rfl⟩, h.registered, nofun, h.request,
        fun hopen _ => hcan hopen, hlocals, h.ids⟩,
        fun _ htrans hne => absurd (hnone htrans) hne⟩, nofun, PipeState.unpassed_congr rfl rfl⟩
  | passed packet hopen hpool hfd hpending =>
    refine ⟨⟨⟨.packet packet hpool (Or.inl rfl) hpending, h.registered, h.wake, rfl,
      fun hopen _ => hcan hopen, ?_, h.ids⟩, fun _ _ _ => Or.inl hpending⟩, ?_, ?_⟩
    · rintro locals ⟨⟩
      exact ⟨rfl, rfl⟩
    · intro message hmessage
      rw [List.mem_singleton.mp hmessage]
      exact ⟨packet, rfl, Or.inr rfl⟩
    · unfold PipeState.unpassed
      rw [handing_of_some hpool hfd, handing_of_none rfl]
      simp [passed, packet_bytes]
  | blocked packet hopen hpool hfd hpending =>
    refine ⟨⟨⟨h.holding.of_eq rfl rfl rfl, h.registered, h.wake, rfl, fun hopen _ => hcan hopen, ?_,
      h.ids⟩, fun _ _ _ => Or.inl hpending⟩, nofun, rfl⟩
    rintro locals ⟨⟩
    exact ⟨rfl, rfl⟩
  | sent packet hopen hpool hfd =>
    refine ⟨⟨⟨.nothing ⟨rfl, rfl, rfl⟩, h.registered, nofun, rfl, fun hopen _ => hcan hopen, ?_,
      h.ids⟩, fun _ _ _ => Or.inr ⟨_, rfl, rfl⟩⟩, ?_, ?_⟩
    · rintro locals ⟨⟩
      exact ⟨rfl, rfl⟩
    · intro message hmessage
      rw [List.mem_singleton.mp hmessage]
      exact ⟨packet, rfl, Or.inl rfl⟩
    · unfold PipeState.unpassed
      rw [handing_of_none hfd, handing_of_none rfl]
      rfl

/-- The packet that `OnInputFd` has read and not yet handed on. -/
def arrivedOf : InputFdPhase → List (ServicePacket × Int)
  | .upcall arrived => arrived.toList
  | _ => []

/-- The packets given and not yet received. -/
def onTheWay (w : FdLink) : List ServicePacket :=
  (arrivedOf w.receiver.phase).map Prod.fst ++ w.wire.filterMap passed ++ w.pipe.unpassed

structure Inv (w : FdLink) : Prop where
  sender : w.pipe.SenderInv
  wire : ∀ message ∈ w.wire, Own message
  arrived : ∀ arrived ∈ arrivedOf w.receiver.phase, arrived.2 = arrived.1.oldSock.sockId
  received : ∀ arrived ∈ w.received, arrived.2 = arrived.1.oldSock.sockId
  passedOn : w.passedOn.Sublist w.received
  order : (w.received.map Prod.fst ++ w.onTheWay).Sublist w.given

theorem inv_init : init.Inv :=
  ⟨PipeState.senderInv_init, nofun, nofun, nofun, .slnil, .slnil⟩

/-- A step of the sender that writes nothing and passes nothing. -/
theorem Inv.setPipe {w : FdLink} (h : w.Inv) {pipe : PipeState} (hpipe : pipe.SenderInv)
    (hunpassed : pipe.unpassed = w.pipe.unpassed) : Inv { w with pipe := pipe } := by
  refine ⟨hpipe, h.wire, h.arrived, h.received, h.passedOn, ?_⟩
  unfold onTheWay
  rw [hunpassed]
  exact h.order

theorem Inv.sendFd {w : FdLink} (h : w.Inv) (packet : ServicePacket) :
    Inv { w with pipe := w.pipe.sendFd packet, given := w.given ++ [packet] } := by
  obtain ⟨hsender, hunpassed⟩ := h.sender.sendFd packet
  refine ⟨hsender, h.wire, h.arrived, h.received, h.passedOn, ?_⟩
  have hmore := h.order.append (List.Sublist.refl [packet])
  refine List.Sublist.trans ?_ hmore
  unfold onTheWay
  simp only [List.append_assoc]
  exact (List.Sublist.refl _).append ((List.Sublist.refl _).append ((List.Sublist.refl _).append hunpassed))

theorem Inv.output {w : FdLink} (h : w.Inv) (blocked : Bool)
    (hphase : w.pipe.trans.phase = .idle) :
    Inv { w with
      pipe := { w.pipe with
        trans := w.pipe.trans.outputLocked (sendResult w.pipe.trans blocked) }
      wire := w.wire ++ writes w.pipe.trans blocked } := by
  have hout := outputs h.sender.holding h.sender.request blocked
  obtain ⟨hsender, hown, hunpassed⟩ := output_inv h.sender hphase hout
  refine ⟨hsender, ?_, h.arrived, h.received, h.passedOn, ?_⟩
  · intro message hmessage
    rcases List.mem_append.mp hmessage with hold | hnew
    · exact h.wire message hold
    · exact hown message hnew
  · have horder := h.order
    unfold onTheWay at horder ⊢
    rw [← hunpassed] at horder
    simpa [List.append_assoc] using horder

/-- A packet without a descriptor is read and forgotten. -/
theorem inputFdLocked_plain {r : FdReceiver} {message : FdMessage} (hown : Own message)
    (hfd : message.fd = none) : r.inputFdLocked (some message) = r := by
  obtain ⟨packet, hbytes, -⟩ := hown
  have hpacket : message.packet = some packet := by
    rw [← packet_bytes packet message.fd, ← hbytes]
  unfold FdReceiver.inputFdLocked
  simp only [hpacket, hfd, ite_self]

theorem inputFdLocked_nothing {r : FdReceiver} (hopen : r.hasObserver = true) :
    r.inputFdLocked none = { r with phase := .upcall none } :=
  if_neg (by rw [hopen]; exact Bool.false_ne_true)

theorem inputFdLocked_fd {r : FdReceiver} {message : FdMessage} {packet : ServicePacket} {fd : Int}
    (hopen : r.hasObserver = true) (hpacket : message.packet = some packet)
    (hfd : message.fd = some fd) :
    r.inputFdLocked (some message) = { r with phase := .upcall (some (packet, fd)) } := by
  have hgo : ¬ (!r.hasObserver) = true := by rw [hopen]; exact Bool.false_ne_true
  unfold FdReceiver.inputFdLocked
  rw [if_neg hgo]
  simp only [hpacket, hfd]

theorem Inv.input {w : FdLink} (h : w.Inv) (hphase : w.receiver.phase = .idle) :
    Inv { w with
      receiver := w.receiver.inputFdLocked w.wire.head?
      wire := if w.receiver.hasObserver then w.wire.tail else w.wire } := by
  cases hopen : w.receiver.hasObserver with
  | false =>
    have hsame : w.receiver.inputFdLocked w.wire.head? = w.receiver := by
      unfold FdReceiver.inputFdLocked
      rw [hopen]
      rfl
    rw [hsame, if_neg Bool.false_ne_true]
    exact ⟨h.sender, h.wire, h.arrived, h.received, h.passedOn, h.order⟩
  | true =>
    have horder := h.order
    unfold onTheWay at horder
    rw [hphase] at horder
    rw [if_pos rfl]
    cases hwire : w.wire with
    | nil =>
      rw [hwire] at horder
      rw [List.head?_nil, inputFdLocked_nothing hopen]
      exact ⟨h.sender, nofun, nofun, h.received, h.passedOn, horder⟩
    | cons message messages =>
      rw [hwire] at horder
      have hrest : ∀ other ∈ messages, Own other := fun other hother =>
        h.wire other (by rw [hwire]; exact List.mem_cons_of_mem message hother)
      have hown := h.wire message (by rw [hwire]; exact List.mem_cons_self)
      rw [List.head?_cons, List.tail_cons]
      cases hfd : message.fd with
      | none =>
        have hskipped : passed message = none := by
          unfold passed
          rw [hfd]
          rfl
        rw [List.filterMap_cons_none hskipped] at horder
        rw [inputFdLocked_plain hown hfd]
        refine ⟨h.sender, hrest, h.arrived, h.received, h.passedOn, ?_⟩
        unfold onTheWay
        rw [hphase]
        exact horder
      | some fd =>
        obtain ⟨packet, hbytes, hnone | hsome⟩ := hown
        · rw [hnone] at hfd
          cases hfd
        · have hpacket : message.packet = some packet := by
            rw [← packet_bytes packet message.fd, ← hbytes]
          have hpassed : passed message = some packet := by
            unfold passed
            rw [hfd, hpacket]
            rfl
          rw [hfd, Option.some.injEq] at hsome
          rw [List.filterMap_cons_some hpassed] at horder
          rw [inputFdLocked_fd hopen hpacket hfd]
          refine ⟨h.sender, hrest, ?_, h.received, h.passedOn, ?_⟩
          · intro arrived harrived
            rw [List.mem_singleton.mp harrived]
            exact hsome
          · unfold onTheWay
            simpa [arrivedOf] using horder

theorem Inv.inputUpcall {w : FdLink} (h : w.Inv) {arrived : Option (ServicePacket × Int)}
    (hphase : w.receiver.phase = .upcall arrived) :
    Inv { w with
      receiver := w.receiver.inputFdUpcall arrived
      received := w.received ++ w.receiver.onRecvFd arrived
      passedOn := w.passedOn ++
        if w.receiver.hasTrans then w.receiver.onRecvFd arrived else [] } := by
  have hcalls : (w.receiver.onRecvFd arrived).Sublist (arrivedOf w.receiver.phase) := by
    unfold FdReceiver.onRecvFd
    rw [hphase]
    split
    · exact List.Sublist.refl _
    · exact List.nil_sublist _
  refine ⟨h.sender, h.wire, nofun, ?_, ?_, ?_⟩
  · intro call hcall
    rcases List.mem_append.mp hcall with hold | hnew
    · exact h.received call hold
    · exact h.arrived call (hcalls.subset hnew)
  · refine h.passedOn.append ?_
    split
    · exact List.Sublist.refl _
    · exact List.nil_sublist _
  · refine List.Sublist.trans ?_ h.order
    have hmapped := hcalls.map Prod.fst
    unfold onTheWay
    simp only [List.map_append, List.append_assoc]
    exact (List.Sublist.refl _).append (hmapped.append (List.Sublist.refl _))

theorem Inv.step {w next : FdLink} (h : w.Inv) (e : FdEvent) (hstep : w.step e = some next) :
    next.Inv := by
  cases e with
  | sendFd packet =>
    cases hstep
    exact h.sendFd packet
  | output blocked =>
    simp only [FdLink.step] at hstep
    split at hstep
    · rename_i hphase
      cases hstep
      exact h.output blocked hphase
    · cases hstep
  | upcall =>
    simp only [FdLink.step, Option.map_eq_some_iff] at hstep
    obtain ⟨pipe, hpipe, rfl⟩ := hstep
    obtain ⟨hsender, hunpassed⟩ := h.sender.upcall hpipe
    exact h.setPipe hsender hunpassed
  | deregister =>
    simp only [FdLink.step] at hstep
    split at hstep
    · rename_i hphase
      cases hstep
      refine h.setPipe (h.sender.deregister hphase) (PipeState.unpassed_congr ?_ ?_)
      · unfold outputDeregister
        dsimp only
        split <;> rfl
      · unfold outputDeregister
        dsimp only
        split <;> rfl
    · cases hstep
  | leave =>
    simp only [FdLink.step] at hstep
    split at hstep
    · rename_i hphase
      cases hstep
      refine h.setPipe (h.sender.leave hphase) (PipeState.unpassed_congr ?_ ?_)
      · unfold outputLeave
        dsimp only
        split
        · exact sendPool_fini _
        · rfl
      · unfold outputLeave
        dsimp only
        split
        · exact sendingFd_fini _
        · rfl
    · cases hstep
  | close =>
    simp only [FdLink.step] at hstep
    split at hstep
    · rename_i hphase
      cases hstep
      exact h.setPipe (h.sender.close hphase) rfl
    · cases hstep
  | finiPipe =>
    cases hstep
    exact h.setPipe h.sender.finiPipe rfl
  | finiTrans =>
    cases hstep
    exact h.setPipe h.sender.finiTrans
      (PipeState.unpassed_congr (sendPool_fini _) (sendingFd_fini _))
  | input =>
    simp only [FdLink.step] at hstep
    split at hstep
    · rename_i hphase
      cases hstep
      exact h.input hphase
    · cases hstep
  | inputUpcall =>
    simp only [FdLink.step] at hstep
    split at hstep
    · rename_i arrived hphase
      cases hstep
      exact h.inputUpcall hphase
    · cases hstep
  | inputLeave =>
    simp only [FdLink.step] at hstep
    split at hstep
    · rename_i hphase
      cases hstep
      have horder := h.order
      unfold onTheWay at horder
      rw [hphase] at horder
      exact ⟨h.sender, h.wire, nofun, h.received, h.passedOn, horder⟩
    · cases hstep
  | peerFiniPipe =>
    cases hstep
    exact ⟨h.sender, h.wire, h.arrived, h.received, h.passedOn, h.order⟩
  | peerFiniTrans =>
    cases hstep
    exact ⟨h.sender, h.wire, h.arrived, h.received, h.passedOn, h.order⟩

theorem Inv.delivers {w : FdLink} (h : w.Inv) : w.Delivers where
  received := (List.sublist_append_left _ _).trans h.order
  own := h.received
  passedOn := h.passedOn
  skipped := by
    intro message messages next hwire hfd hstep
    have hown := h.wire message (by rw [hwire]; exact List.mem_cons_self)
    simp only [FdLink.step] at hstep
    split at hstep
    · cases hstep
      rw [hwire, List.head?_cons, inputFdLocked_plain hown hfd]
      rfl
    · cases hstep
  sent := by
    intro blocked next locals hstep hphase hbuf
    simp only [FdLink.step] at hstep
    split at hstep
    · rename_i hidle
      cases hstep
      have hout := outputs h.sender.holding h.sender.request blocked
      dsimp only at hphase ⊢
      generalize w.pipe.trans.outputLocked (sendResult w.pipe.trans blocked) = t at hout hphase ⊢
      generalize writes w.pipe.trans blocked = messages at hout
      cases hout with
      | closed hclosed =>
        rw [hidle] at hphase
        cases hphase
      | nothing hopen hclear =>
        have hstill : (if w.pipe.trans.onWr = true then
            { w.pipe.trans with pendingWr := false }.removeWr
            else { w.pipe.trans with pendingWr := false }).phase = .idle := by
          split <;> exact hidle
        rw [hstill] at hphase
        cases hphase
      | passed packet hopen hpool hfd hpending =>
        cases hphase
        cases hbuf
      | blocked packet hopen hpool hfd hpending =>
        cases hphase
        cases hbuf
      | sent packet hopen hpool hfd => exact ⟨rfl, rfl, rfl⟩
    · cases hstep
  wake := by
    intro hopen htrans hidle hpackets
    have hpending : w.pipe.trans.pendingWr = true := by
      by_contra hfree
      have hclear := h.sender.holding.clear (Bool.eq_false_iff.mpr hfree)
      rcases hpackets with hwaiting | hpool
      · rcases h.sender.waiting hopen htrans hwaiting with hbusy | ⟨locals, hupcall, -⟩
        · exact hfree hbusy
        · rw [hidle] at hupcall
          cases hupcall
      · exact hpool hclear.1
    have honWr := h.sender.wake hopen hpending
    refine ⟨honWr, (h.sender.registered hopen).trans honWr, hpending, ?_⟩
    cases h.sender.holding with
    | nothing hclear =>
      rw [hclear.2.2] at hpending
      cases hpending
    | packet packet hpool hfd hbusy =>
      rw [preSend_packet hpool]
      intro hnil
      have hlength := packet.length_bytes
      rw [hnil] at hlength
      cases hlength

end FdLink

end Pronet.Net
