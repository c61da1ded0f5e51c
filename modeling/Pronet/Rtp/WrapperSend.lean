import Pronet.Rtp.SessionWrapper

/-! The send path of a session neither reorders nor stalls: what the transport gets
is what is popped from the bucket, and a packet that waits in the bucket of an open
session waits for a call of `OnSend` that is still to come. -/
namespace Pronet.Rtp

open Net Library Runs

namespace SendPath

variable {info : OutInfo} {bucket : Bucket (OutPacket info)}

/-- A packet that matches is refused by a session only for want of a transport. -/
theorem sendPacket_of_ok {s : SendPath info bucket} (htrans : s.base.hasTrans = true)
    (hok : s.base.onOkCalled = true) (packet : OutPacket info) :
    ∃ buf, s.sender.sendPacket packet.packet = some buf ∧ buf ≠ [] := by
  have hmatch : ((info.outSrcMmId ≠ 0 && packet.packet.getMmId ≠ info.outSrcMmId) ||
      packet.packet.getMmType ≠ info.mmType) = false := by
    have hid := packet.mmId
    have htype := packet.mmType
    rcases hid with hid | hid <;> simp [hid, htype]
  refine ⟨(packet.packet.bytes.drop (sizeofExt + sizeofHeader - info.kind.otherSize)).take
    (packet.packet.getPayloadSize.toNat + info.kind.otherSize), ?_, ?_⟩
  · unfold TcpSender.sendPacket sender
    simp only [htrans, hok, Bool.not_true, Bool.false_eq_true, if_false, hmatch]
  · have hlength := packet.length_eq
    have hpos := packet.payload_pos
    rw [← List.length_pos_iff, List.length_take, List.length_drop, hlength]
    unfold TcpKind.otherSize sizeofExt sizeofHeader
    split <;> omega

/-- What a section of the wrapper leaves alone. -/
structure SameFlags (s s' : SendPath info bucket) : Prop where
  isOpen : s'.isOpen = s.isOpen
  hasTrans : s'.base.hasTrans = s.base.hasTrans
  baseOk : s'.base.onOkCalled = s.base.onOkCalled
  baseCan : s'.base.canUpcall = s.base.canUpcall
  hasObserver : s'.trans.hasObserver = s.trans.hasObserver
  transCan : s'.trans.canUpcall = s.trans.canUpcall
  phase : s'.trans.phase = s.trans.phase
  onOkCalled : s'.onOkCalled = s.onOkCalled
  okPhase : s'.okPhase = s.okPhase

theorem SameFlags.refl (s : SendPath info bucket) : SameFlags s s :=
  ⟨rfl, rfl, rfl, rfl, rfl, rfl, rfl, rfl, rfl⟩

theorem SameFlags.isOpenOf {s s' : SendPath info bucket} (h : SameFlags s s') (hopen : s'.Open) :
    s.Open := by
  obtain ⟨h₁, h₂, h₃, h₄, h₅⟩ := hopen
  exact ⟨h.isOpen.symm.trans h₁, h.hasTrans.symm.trans h₂, h.baseCan.symm.trans h₃,
    h.hasObserver.symm.trans h₄, h.transCan.symm.trans h₅⟩

/-- A try to send the front of the bucket. -/
structure Tried (s s' : SendPath info bucket) : Prop where
  flags : SameFlags s s'
  dataMode : s.trans.DataMode → s'.trans.DataMode
  handed : s.handed = s.popped → s'.handed = s'.popped
  empty : s.front = none → s'.front = none
  owed : s.Open → s.base.onOkCalled = true → s.trans.DataMode → s.front ≠ none →
    s'.trans.pendingWr = true
  owes : s.trans.Owes → s'.trans.Owes

theorem Tried.owed_after {s s' : SendPath info bucket} (h : Tried s s') (hopen : s.Open)
    (hok : s.base.onOkCalled = true) (hdata : s.trans.DataMode) (hfront : s'.front ≠ none) :
    s'.trans.pendingWr = true :=
  h.owed hopen hok hdata fun hnone => hfront (h.empty hnone)

theorem dataMode_sendData {t : TcpTransport UInt8} (h : t.DataMode) (buf : List UInt8)
    (actionId : UInt64) : (t.sendData buf actionId).1.DataMode := by
  by_cases hbuf : buf = []
  · rw [hbuf]
    exact h
  · cases hopen : t.hasObserver with
    | true => exact (TcpTransport.sendData_spec h hopen hbuf actionId).2.2.1
    | false => simpa [TcpTransport.sendData, hopen] using h

theorem sendData_same (t : TcpTransport UInt8) (buf : List UInt8) (actionId : UInt64) :
    (t.sendData buf actionId).1.hasObserver = t.hasObserver ∧
      (t.sendData buf actionId).1.canUpcall = t.canUpcall ∧
      (t.sendData buf actionId).1.phase = t.phase := by
  have hsame := TcpTransport.sameSlot_addWr t
  unfold TcpTransport.sendData
  split
  · exact ⟨rfl, rfl, rfl⟩
  · split
    · exact ⟨rfl, rfl, rfl⟩
    · split
      · exact ⟨rfl, rfl, rfl⟩
      · exact ⟨hsame.hasObserver, hsame.canUpcall, hsame.phase⟩

/-- A call of `SendData`, accepted or not, leaves no callback forgotten. -/
theorem owes_sendData (t : TcpTransport UInt8) (buf : List UInt8) (actionId : UInt64)
    (howes : t.Owes) : (t.sendData buf actionId).1.Owes := by
  unfold TcpTransport.sendData
  split
  · exact howes
  · split
    · exact howes
    · split
      · exact howes
      · exact Or.inl rfl

theorem baseSendPacket_cases (s : SendPath info bucket) (packet : OutPacket info) :
    (s.baseSendPacket packet = (s, false) ∧
      ¬ (s.base.hasTrans = true ∧ s.base.onOkCalled = true)) ∨
    ∃ buf, buf ≠ [] ∧ s.baseSendPacket packet =
      ({ s with
          trans := (s.trans.sendData buf (s.base.actionId + 1)).1
          base := { s.base with
            actionId := if (s.trans.sendData buf (s.base.actionId + 1)).2 then s.base.actionId + 1
              else s.base.actionId } },
        (s.trans.sendData buf (s.base.actionId + 1)).2) := by
  unfold baseSendPacket
  by_cases hready : s.base.hasTrans = true ∧ s.base.onOkCalled = true
  · obtain ⟨buf, hbuf, hne⟩ := sendPacket_of_ok hready.1 hready.2 packet
    rw [hbuf]
    exact Or.inr ⟨buf, hne, rfl⟩
  · left
    have hnone : s.sender.sendPacket packet.packet = none := by
      unfold TcpSender.sendPacket sender
      cases htrans : s.base.hasTrans with
      | false => rfl
      | true =>
        cases hok : s.base.onOkCalled with
        | false => rfl
        | true => exact absurd ⟨htrans, hok⟩ hready
    rw [hnone]
    exact ⟨rfl, hready⟩

theorem tried_sendPacketUnlock (s : SendPath info bucket) : Tried s s.sendPacketUnlock.1 := by
  unfold sendPacketUnlock
  cases hfront : bucket.getFront s.queue with
  | mk queue packet =>
    have hagain : bucket.getFront queue = (queue, packet) := by
      have := bucket.getFront_again s.queue
      rw [hfront] at this
      exact this
    cases packet with
    | none =>
      refine ⟨⟨rfl, rfl, rfl, rfl, rfl, rfl, rfl, rfl, rfl⟩, id, id, ?_, ?_, id⟩
      · intro _
        exact congrArg Prod.snd hagain
      · intro _ _ _ hne
        exact absurd (congrArg Prod.snd hfront) hne
    | some packet =>
      dsimp only
      have hsome : s.front ≠ none := by
        rw [show s.front = some packet from congrArg Prod.snd hfront]
        simp
      obtain ⟨hrefused, hnot⟩ | ⟨buf, hbuf, hsent⟩ :=
        baseSendPacket_cases { s with queue := queue } packet
      · rw [hrefused]
        refine ⟨⟨rfl, rfl, rfl, rfl, rfl, rfl, rfl, rfl, rfl⟩, id, id,
          fun hnone => absurd hnone hsome, ?_, id⟩
        intro hopen hok _ _
        exact absurd ⟨hopen.2.1, hok⟩ hnot
      · rw [hsent]
        obtain ⟨hobserver, hcan, hphase⟩ := sendData_same s.trans buf (s.base.actionId + 1)
        have hdata : s.trans.DataMode →
            (s.trans.sendData buf (s.base.actionId + 1)).1.DataMode :=
          fun h => dataMode_sendData h buf _
        have hpending : s.Open → s.trans.DataMode →
            (s.trans.sendData buf (s.base.actionId + 1)).1.pendingWr = true :=
          fun hopen hd => (TcpTransport.sendData_spec hd hopen.2.2.2.1 hbuf _).2.1
        have howes := owes_sendData s.trans buf (s.base.actionId + 1)
        cases hret : (s.trans.sendData buf (s.base.actionId + 1)).2 with
        | false =>
          exact ⟨⟨rfl, rfl, rfl, rfl, hobserver, hcan, hphase, rfl, rfl⟩, hdata, id,
            fun hnone => absurd hnone hsome, fun hopen _ hd _ => hpending hopen hd, howes⟩
        | true =>
          -- The packet that was sent is the one that is popped.
          have hpop : (bucket.popFrontRelease queue packet).2 = some packet := by
            have := bucket.pop_getFront s.queue packet (by rw [hfront])
            rw [hfront] at this
            exact this
          refine ⟨⟨rfl, rfl, rfl, rfl, hobserver, hcan, hphase, rfl, rfl⟩, hdata, ?_,
            fun hnone => absurd hnone hsome, fun hopen _ hd _ => hpending hopen hd, howes⟩
          intro hsame
          dsimp only
          rw [hpop, hsame]
          rfl

structure Inv (s : SendPath info bucket) : Prop where
  handed : s.handed = s.popped
  dataMode : s.trans.DataMode
  baseOk : s.okPhase ≠ .before → s.base.onOkCalled = true
  wrapperOk : s.isOpen = true → s.okPhase = .reported ∨ s.okPhase = .done → s.onOkCalled = true
  owed : s.Open → s.okPhase = .done → s.locked = false → s.front ≠ none → s.trans.Owes

theorem inv_init : (init : SendPath info bucket).Inv := by
  refine ⟨rfl, ?_, fun h => absurd rfl h, ?_, ?_⟩
  · unfold init
    dsimp only
    split
    · exact TcpTransport.dataMode_initSsl
    · exact TcpTransport.dataMode_init
  · intro _ h
    rcases h with h | h <;> cases h
  · intro _ h
    cases h

/-- A step of the transport alone. -/
theorem Inv.of_trans {s : SendPath info bucket} (h : s.Inv) {t : TcpTransport UInt8}
    (hdata : t.DataMode) (hobserver : t.hasObserver = true → s.trans.hasObserver = true)
    (hcan : t.canUpcall = true → s.trans.canUpcall = true)
    (howes : s.Open → t.canUpcall = true → s.trans.Owes → t.Owes) :
    Inv { s with trans := t } := by
  refine ⟨h.handed, hdata, h.baseOk, h.wrapperOk, ?_⟩
  intro hopen hok hlocked hfront
  obtain ⟨h₁, h₂, h₃, h₄, h₅⟩ := hopen
  have hbefore : s.Open := ⟨h₁, h₂, h₃, hobserver h₄, hcan h₅⟩
  exact howes hbefore h₅ (h.owed hbefore hok hlocked hfront)

theorem Inv.of_sendData {s : SendPath info bucket} (h : s.Inv) {buf : List UInt8}
    (hbuf : buf ≠ []) : Inv { s with trans := (s.trans.sendData buf 0).1 } := by
  obtain ⟨hobserver, hcan, -⟩ := sendData_same s.trans buf 0
  refine h.of_trans (dataMode_sendData h.dataMode buf 0) ?_ ?_ ?_
  · exact fun hopen => hobserver.symm.trans hopen
  · exact fun hopen => hcan.symm.trans hopen
  · intro hopen _ _
    exact Or.inl (TcpTransport.sendData_spec h.dataMode hopen.2.2.2.1 hbuf 0).2.1

theorem Inv.of_output {s : SendPath info bucket} (h : s.Inv) {t : TcpTransport UInt8}
    (hout : TcpTransport.Output s.trans t) : Inv { s with trans := t } :=
  h.of_trans hout.dataMode (fun hopen => hout.hasObserver.symm.trans hopen)
    (fun hcan => hout.canUpcall.symm.trans hcan) (fun _ _ => hout.owes)

/-- When the session has been given up nothing is owed. -/
theorem Inv.of_closed {s s' : SendPath info bucket} (h : s.Inv) (hnot : ¬ s'.Open)
    (hhanded : s'.handed = s.handed) (hpopped : s'.popped = s.popped)
    (hdata : s'.trans.DataMode) (hok : s'.okPhase = s.okPhase)
    (hbase : s'.base.onOkCalled = s.base.onOkCalled)
    (hwrapper : s'.onOkCalled = s.onOkCalled) (hopen : s'.isOpen = true → s.isOpen = true) :
    s'.Inv := by
  refine ⟨?_, hdata, ?_, ?_, fun hopen' => absurd hopen' hnot⟩
  · rw [hhanded, hpopped, h.handed]
  · rw [hok, hbase]
    exact h.baseOk
  · rw [hok, hwrapper]
    exact fun hisOpen => h.wrapperOk (hopen hisOpen)

theorem Inv.baseRequestOnSend {s : SendPath info bucket} (h : s.Inv) :
    s.baseRequestOnSend.Inv := by
  unfold SendPath.baseRequestOnSend
  split
  · obtain ⟨hobserver, hpending, hpool, hfd, hcan, hphase, hset, hkeep⟩ :=
      TcpTransport.request_spec s.trans
    refine h.of_trans ⟨h.dataMode.slot.of_eq hpending hpool, hfd.trans h.dataMode.sendingFd⟩ ?_ ?_ ?_
    · exact fun hopen => hobserver.symm.trans hopen
    · exact fun hopen => hcan.symm.trans hopen
    · exact fun hopen _ _ => Or.inr (Or.inl (hset hopen.2.2.2.1))
  · exact h

theorem owes_of_request {s : SendPath info bucket} (hopen : s.Open) :
    s.baseRequestOnSend.trans.Owes := by
  unfold SendPath.baseRequestOnSend
  rw [if_pos hopen.2.1]
  exact Or.inr (Or.inl ((TcpTransport.request_spec s.trans).2.2.2.2.2.2.1 hopen.2.2.2.1))

theorem sameFlags_request (s : SendPath info bucket) : SameFlags s s.baseRequestOnSend := by
  obtain ⟨hobserver, -, -, -, hcan, hphase, -⟩ := TcpTransport.request_spec s.trans
  unfold SendPath.baseRequestOnSend
  split
  · exact ⟨rfl, rfl, rfl, rfl, hobserver, hcan, hphase, rfl, rfl⟩
  · exact .refl s

theorem not_open_closed {s : SendPath info bucket} (hclosed : s.base.hasTrans = false) : ¬ s.Open :=
  fun hopen => Bool.eq_false_iff.mp hclosed hopen.2.1

/-- Behind a push the lock is held, so only the transport has to be looked at. -/
theorem Inv.pushPacket {s : SendPath info bucket} (h : s.Inv) (packet : OutPacket info) :
    (s.pushPacket packet).Inv := by
  unfold SendPath.pushPacket
  dsimp only
  have hpushed : ∀ (queue : bucket.State) (erased ret : Bool), Inv { s with
      queue := queue
      packetErased := erased
      pushToBucketRet1 := ret
      locked := true } := fun _ _ _ =>
    ⟨h.handed, h.dataMode, h.baseOk, h.wrapperOk, fun _ _ hlocked => by cases hlocked⟩
  split
  · exact (hpushed _ _ _).baseRequestOnSend
  · exact hpushed _ _ _

/-- Behind a try to send, whatever was true before, and with the lock given back. -/
theorem Inv.of_tried {s s' : SendPath info bucket} (h : s.Inv) (htried : Tried s s')
    {t : TcpTransport UInt8} (hdata : t.DataMode) (hobserver : t.hasObserver = s'.trans.hasObserver)
    (hcan : t.canUpcall = true → s'.trans.canUpcall = true)
    (hpending : t.pendingWr = s'.trans.pendingWr) (locked : Bool) :
    Inv { s' with trans := t, locked := locked } := by
  have hflags := htried.flags
  refine ⟨htried.handed h.handed, hdata, ?_, ?_, ?_⟩
  · dsimp only
    rw [hflags.okPhase, hflags.baseOk]
    exact h.baseOk
  · dsimp only
    rw [hflags.okPhase, hflags.onOkCalled, hflags.isOpen]
    exact h.wrapperOk
  · intro hopen hok _ hfront
    obtain ⟨h₁, h₂, h₃, h₄, h₅⟩ := hopen
    have hbefore : s.Open := hflags.isOpenOf ⟨h₁, h₂, h₃, hobserver.symm.trans h₄, hcan h₅⟩
    have hstarted : s.okPhase ≠ .before := by
      rw [← hflags.okPhase, show s'.okPhase = .done from hok]
      simp
    exact Or.inl (hpending.trans (htried.owed_after hbefore (h.baseOk hstarted) h.dataMode hfront))

/-- `OnSendSession` is a try to send, with the flag for the observer taken. -/
theorem tried_onSendSession {s : SendPath info bucket} (hopen : s.isOpen = true) :
    ∃ erased, s.onSendSession.1 = { s.sendPacketUnlock.1 with packetErased := erased } := by
  unfold onSendSession
  simp only [hopen, Bool.not_true, Bool.false_eq_true, if_false]
  split
  · exact ⟨_, rfl⟩
  · split
    · exact ⟨_, rfl⟩
    · exact ⟨_, rfl⟩

theorem Tried.erased {s s' : SendPath info bucket} (h : Tried s s') (erased : Bool) :
    Tried s { s' with packetErased := erased } :=
  ⟨⟨h.flags.isOpen, h.flags.hasTrans, h.flags.baseOk, h.flags.baseCan, h.flags.hasObserver,
    h.flags.transCan, h.flags.phase, h.flags.onOkCalled, h.flags.okPhase⟩, h.dataMode, h.handed,
    h.empty, h.owed, h.owes⟩

theorem same_outputUpcall (t : TcpTransport UInt8) (locals : OutputLocals) :
    (t.outputUpcall locals).hasObserver = t.hasObserver ∧
      ((t.outputUpcall locals).canUpcall = true → t.canUpcall = true) ∧
      (t.outputUpcall locals).pendingWr = t.pendingWr ∧
      (t.outputUpcall locals).requestOnSend = t.requestOnSend ∧
      (t.outputUpcall locals).sendPool = t.sendPool ∧
      (t.outputUpcall locals).sendingFd = t.sendingFd := by
  unfold TcpTransport.outputUpcall
  split
  · refine ⟨rfl, ?_, rfl, rfl, rfl, rfl⟩
    intro h
    cases h
  · exact ⟨rfl, id, rfl, rfl, rfl, rfl⟩
  · exact ⟨rfl, id, rfl, rfl, rfl, rfl⟩

theorem not_due_of_upcallOf {t : TcpTransport UInt8} {locals : OutputLocals}
    (hphase : t.phase = .upcall locals) (hcan : t.canUpcall = true)
    (hupcall : t.upcallOf locals = none) : ¬ t.OnSendDue := by
  unfold TcpTransport.OnSendDue
  rw [hphase]
  rintro ⟨herror, hdue⟩
  simp only [TcpTransport.upcallOf, hcan, herror, if_true] at hupcall
  rcases hdue with hdue | hdue <;> simp [hdue] at hupcall

/-- The callback is reported only by `OnSend`; without it the flags are left. -/
theorem Inv.upcall {s next : SendPath info bucket} {calls : List Bool} (h : s.Inv)
    {locals : OutputLocals} (hphase : s.trans.phase = .upcall locals)
    (hstep : s.outputUpcall locals = some (next, calls)) : next.Inv := by
  have hkept : ∀ t : TcpTransport UInt8, t.DataMode → (t.outputUpcall locals).DataMode := by
    intro t hdata
    obtain ⟨-, -, hpending, -, hpool, hfd⟩ := same_outputUpcall t locals
    exact ⟨hdata.slot.of_eq hpending hpool, hfd.trans hdata.sendingFd⟩
  unfold SendPath.outputUpcall at hstep
  split at hstep
  · rename_i actionId hupcall
    split at hstep
    · rename_i hpasses
      split at hstep
      · cases hstep
      · simp only [Option.some.injEq, Prod.mk.injEq] at hstep
        obtain ⟨rfl, -⟩ := hstep
        by_cases hisOpen : s.isOpen = true
        · obtain ⟨erased, hsent⟩ := tried_onSendSession hisOpen
          rw [hsent]
          have htried := (tried_sendPacketUnlock s).erased erased
          obtain ⟨hobserver, hcan, hpending, -⟩ :=
            same_outputUpcall s.sendPacketUnlock.1.trans locals
          exact h.of_tried htried (hkept _ (htried.dataMode h.dataMode)) hobserver hcan hpending
            s.sendPacketUnlock.1.locked
        · have hsame : s.onSendSession.1 = s := by simp [onSendSession, hisOpen]
          rw [hsame]
          refine h.of_closed ?_ rfl rfl (hkept _ h.dataMode) rfl rfl rfl id
          exact fun hopen => hisOpen hopen.1
    · rename_i hpasses
      cases hstep
      refine ⟨h.handed, hkept _ h.dataMode, h.baseOk, h.wrapperOk, ?_⟩
      intro hopen hok _ _
      have hstarted : s.okPhase ≠ .before := by
        rw [show s.okPhase = .done from hok]
        simp
      have htrans : s.base.hasTrans = true := hopen.2.1
      have hcan : s.base.canUpcall = true := hopen.2.2.1
      exact absurd (by simp [passesOnSend, htrans, h.baseOk hstarted, hcan]) hpasses
  · cases hstep
    exact h.of_closed (not_open_closed rfl) rfl rfl (hkept _ h.dataMode) rfl rfl rfl id
  · rename_i hupcall
    cases hstep
    obtain ⟨hobserver, hcan, hpending, hrequest, -⟩ := same_outputUpcall s.trans locals
    refine h.of_trans (hkept _ h.dataMode) (fun hopen => hobserver.symm.trans hopen) hcan ?_
    intro hopen _ howes
    have hnotDue := not_due_of_upcallOf hphase hopen.2.2.2.2 hupcall
    rcases howes with howes | howes | howes
    · exact Or.inl (hpending.trans howes)
    · exact Or.inr (Or.inl (hrequest.trans howes))
    · exact absurd howes hnotDue

/-- Outside of the upcall the callback is owed by a flag. -/
theorem owes_of_flags {t t' : TcpTransport UInt8} (hphase : ∀ locals, t.phase ≠ .upcall locals)
    (hpending : t'.pendingWr = t.pendingWr) (hrequest : t'.requestOnSend = t.requestOnSend)
    (howes : t.Owes) : t'.Owes := by
  rcases howes with howes | howes | howes
  · exact Or.inl (hpending.trans howes)
  · exact Or.inr (Or.inl (hrequest.trans howes))
  · unfold TcpTransport.OnSendDue at howes
    split at howes
    · rename_i locals heq
      exact absurd heq (hphase locals)
    · exact howes.elim

/-- The later sections of `OnOutput` leave the flags alone. -/
theorem Inv.of_phase {s : SendPath info bucket} (h : s.Inv) {t : TcpTransport UInt8}
    (hphase : ∀ locals, s.trans.phase ≠ .upcall locals)
    (hobserver : t.hasObserver = true → s.trans.hasObserver = true)
    (hcan : t.canUpcall = true → s.trans.canUpcall = true)
    (hpending : t.pendingWr = s.trans.pendingWr)
    (hrequest : t.requestOnSend = s.trans.requestOnSend)
    (hpool : t.sendPool = s.trans.sendPool) (hfd : t.sendingFd = s.trans.sendingFd) :
    Inv { s with trans := t } := by
  refine h.of_trans ⟨h.dataMode.slot.of_eq hpending hpool, hfd.trans h.dataMode.sendingFd⟩
    hobserver hcan ?_
  exact fun _ _ => owes_of_flags hphase hpending hrequest

theorem same_outputDeregister (t : TcpTransport UInt8) :
    t.outputDeregister.hasObserver = t.hasObserver ∧ t.outputDeregister.canUpcall = t.canUpcall ∧
      t.outputDeregister.pendingWr = t.pendingWr ∧
      t.outputDeregister.requestOnSend = t.requestOnSend ∧
      t.outputDeregister.sendPool = t.sendPool ∧ t.outputDeregister.sendingFd = t.sendingFd := by
  unfold TcpTransport.outputDeregister
  dsimp only
  split <;> exact ⟨rfl, rfl, rfl, rfl, rfl, rfl⟩

theorem same_fini (t : TcpTransport UInt8) :
    (t.fini.hasObserver = true → t.hasObserver = true) ∧ t.fini.canUpcall = t.canUpcall ∧
      t.fini.pendingWr = t.pendingWr ∧ t.fini.requestOnSend = t.requestOnSend ∧
      t.fini.sendPool = t.sendPool ∧ t.fini.sendingFd = t.sendingFd := by
  unfold TcpTransport.fini
  split
  · refine ⟨?_, rfl, rfl, rfl, rfl, rfl⟩
    intro h
    cases h
  · exact ⟨id, rfl, rfl, rfl, rfl, rfl⟩

theorem same_outputLeave (t : TcpTransport UInt8) :
    (t.outputLeave.hasObserver = true → t.hasObserver = true) ∧
      t.outputLeave.canUpcall = t.canUpcall ∧ t.outputLeave.pendingWr = t.pendingWr ∧
      t.outputLeave.requestOnSend = t.requestOnSend ∧ t.outputLeave.sendPool = t.sendPool ∧
      t.outputLeave.sendingFd = t.sendingFd := by
  unfold TcpTransport.outputLeave
  dsimp only
  split
  · exact same_fini _
  · exact ⟨id, rfl, rfl, rfl, rfl, rfl⟩

theorem dataMode_fini {t : TcpTransport UInt8} (h : t.DataMode) : t.fini.DataMode := by
  obtain ⟨-, -, hpending, -, hpool, hfd⟩ := same_fini t
  exact ⟨h.slot.of_eq hpending hpool, hfd.trans h.sendingFd⟩

theorem heartbeat_ne (kind : TcpKind) : heartbeat kind ≠ [] := by
  unfold heartbeat
  split <;> simp [sizeofExt]

/-- What a section does that runs. -/
inductive Performs (s : SendPath info bucket) :
    SendEvent info → SendPath info bucket → List Bool → Prop
  | ignored (e : SendEvent info) : Performs s e s []
  | sendPacket (packet : OutPacket info) (handshaking : Bool) :
      Performs s (.sendPacket packet handshaking) (s.pushPacket packet) []
  | sendFront (hlocked : s.locked = true) :
      Performs s .sendFront { s.sendPacketUnlock.1 with locked := false } []
  | doHandshake (buf : List UInt8) (hbefore : s.okPhase = .before) :
      Performs s (.doHandshake buf) { s with trans := (s.trans.sendData buf 0).1 } []
  | onHeartbeat :
      Performs s .onHeartbeat { s with trans := (s.trans.sendData (heartbeat info.kind) 0).1 } []
  | okBase (hbefore : s.okPhase = .before) :
      Performs s .okBase
        { s with base := { s.base with onOkCalled := true }, okPhase := .started } []
  | okWrapper (hstarted : s.okPhase = .started) (hisOpen : s.isOpen = true) :
      Performs s .okWrapper { s with onOkCalled := true, okPhase := .reported } []
  | okNobody (hstarted : s.okPhase = .started) (hclosed : ¬ s.isOpen = true) :
      Performs s .okWrapper { s with okPhase := .done } []
  | okRequest (hreported : s.okPhase = .reported) (hisOpen : s.isOpen = true) :
      Performs s .okRequest { s.baseRequestOnSend with okPhase := .done } []
  | okUnasked (hreported : s.okPhase = .reported) (hclosed : ¬ s.isOpen = true) :
      Performs s .okRequest { s with okPhase := .done } []
  | requestOnSend : Performs s .requestOnSend s.baseRequestOnSend []
  | onOutput (result : SendResult) (hidle : s.trans.phase = .idle) :
      Performs s (.onOutput result) { s with trans := s.trans.outputLocked result } []
  | doSend (result : SslResult) (hidle : s.trans.phase = .idle) :
      Performs s (.doSend result) { s with trans := s.trans.doSendLocked result } []
  | doRecv (regWr : Bool) :
      Performs s (.doRecv regWr) { s with trans := s.trans.doRecvRegister regWr } []
  | upcall {next : SendPath info bucket} {calls : List Bool} {locals : OutputLocals}
      (hphase : s.trans.phase = .upcall locals)
      (hupcall : s.outputUpcall locals = some (next, calls)) : Performs s .upcall next calls
  | deregister (hphase : s.trans.phase = .deregister) :
      Performs s .deregister { s with trans := s.trans.outputDeregister } []
  | leave (hphase : s.trans.phase = .leave) :
      Performs s .leave { s with trans := s.trans.outputLeave } []
  | setOutputRedline (redlineBytes redlineFrames : Nat) (hlocked : ¬ s.locked = true) :
      Performs s (.setOutputRedline redlineBytes redlineFrames)
        { s with queue := bucket.setRedline s.queue redlineBytes redlineFrames } []
  | enableOutput (enable : Bool) :
      Performs s (.enableOutput enable)
        { s with
          enableOutput := enable
          queue := bucket.reset s.queue
          pushToBucketRet1 := true
          packetErased := false } []
  | closeTrans :
      Performs s .closeTrans
        { s.closeBase with trans := { s.trans with canUpcall := false, phase := .leave } } []
  | closeSession : Performs s .closeSession { s.closeBase with trans := s.trans.fini } []
  | fini : Performs s .fini { s.closeBase with trans := s.trans.fini, isOpen := false } []

theorem performs_of_perform {s next : SendPath info bucket} {calls : List Bool}
    {e : SendEvent info} (hstep : s.perform e = some (next, calls)) : s.Performs e next calls := by
  cases e with
  | sendPacket packet handshaking =>
    simp only [SendPath.perform] at hstep
    split at hstep
    · cases hstep
    · split at hstep
      · cases hstep
        exact .ignored _
      · split at hstep
        · cases hstep
          exact .ignored _
        · simp only [Option.some.injEq, Prod.mk.injEq] at hstep
          obtain ⟨rfl, rfl⟩ := hstep
          exact .sendPacket packet handshaking
  | sendFront =>
    simp only [SendPath.perform] at hstep
    split at hstep
    · rename_i hlocked
      simp only [Option.some.injEq, Prod.mk.injEq] at hstep
      obtain ⟨rfl, rfl⟩ := hstep
      exact .sendFront hlocked
    · cases hstep
  | doHandshake buf =>
    simp only [SendPath.perform] at hstep
    split at hstep
    · rename_i hbefore
      simp only [Bool.and_eq_true, decide_eq_true_eq] at hbefore
      cases hstep
      exact .doHandshake buf hbefore.1
    · cases hstep
  | onHeartbeat =>
    simp only [SendPath.perform] at hstep
    split at hstep
    · cases hstep
      exact .onHeartbeat
    · cases hstep
      exact .ignored _
  | okBase =>
    simp only [SendPath.perform] at hstep
    split at hstep
    · rename_i hbefore
      simp only [Bool.and_eq_true, decide_eq_true_eq] at hbefore
      cases hstep
      exact .okBase hbefore.1
    · cases hstep
  | okWrapper =>
    simp only [SendPath.perform] at hstep
    split at hstep
    · rename_i hstarted
      simp only [Bool.and_eq_true, decide_eq_true_eq] at hstarted
      split at hstep
      · rename_i hisOpen
        cases hstep
        exact .okWrapper hstarted.1 hisOpen
      · rename_i hclosed
        cases hstep
        exact .okNobody hstarted.1 hclosed
    · cases hstep
  | okRequest =>
    simp only [SendPath.perform] at hstep
    split at hstep
    · rename_i hreported
      simp only [Bool.and_eq_true, decide_eq_true_eq] at hreported
      split at hstep
      · rename_i hisOpen
        simp only [Option.some.injEq, Prod.mk.injEq] at hstep
        obtain ⟨rfl, rfl⟩ := hstep
        exact .okRequest hreported.1 hisOpen
      · rename_i hclosed
        cases hstep
        exact .okUnasked hreported.1 hclosed
    · cases hstep
  | requestOnSend =>
    simp only [SendPath.perform] at hstep
    split at hstep
    · cases hstep
    · split at hstep
      · simp only [Option.some.injEq, Prod.mk.injEq] at hstep
        obtain ⟨rfl, rfl⟩ := hstep
        exact .requestOnSend
      · cases hstep
        exact .ignored _
  | onOutput result =>
    simp only [SendPath.perform] at hstep
    split at hstep
    · rename_i hidle
      simp only [Bool.and_eq_true, decide_eq_true_eq] at hidle
      cases hstep
      exact .onOutput result hidle.2
    · cases hstep
  | doSend result =>
    simp only [SendPath.perform] at hstep
    split at hstep
    · rename_i hidle
      simp only [Bool.and_eq_true, decide_eq_true_eq] at hidle
      cases hstep
      exact .doSend result hidle.2
    · cases hstep
  | doRecv regWr =>
    simp only [SendPath.perform] at hstep
    split at hstep
    · cases hstep
      exact .doRecv regWr
    · cases hstep
  | upcall =>
    simp only [SendPath.perform] at hstep
    split at hstep
    · rename_i locals hphase
      exact .upcall hphase hstep
    · cases hstep
  | deregister =>
    simp only [SendPath.perform] at hstep
    split at hstep
    · rename_i hphase
      cases hstep
      exact .deregister hphase
    · cases hstep
  | leave =>
    simp only [SendPath.perform] at hstep
    split at hstep
    · rename_i hphase
      cases hstep
      exact .leave hphase
    · cases hstep
  | setOutputRedline redlineBytes redlineFrames =>
    simp only [SendPath.perform] at hstep
    split at hstep
    · cases hstep
    · rename_i hlocked
      split at hstep
      · cases hstep
        exact .ignored _
      · cases hstep
        exact .setOutputRedline redlineBytes redlineFrames hlocked
  | enableOutput enable =>
    simp only [SendPath.perform] at hstep
    split at hstep
    · cases hstep
    · split at hstep
      · cases hstep
        exact .ignored _
      · cases hstep
        exact .enableOutput enable
  | closeTrans =>
    simp only [SendPath.perform] at hstep
    split at hstep
    · cases hstep
      exact .closeTrans
    · cases hstep
  | closeSession =>
    simp only [SendPath.perform] at hstep
    cases hstep
    exact .closeSession
  | fini =>
    simp only [SendPath.perform] at hstep
    split at hstep
    · cases hstep
    · cases hstep
      exact .fini

theorem Inv.perform {s next : SendPath info bucket} {calls : List Bool} (h : s.Inv)
    (e : SendEvent info) (hstep : s.perform e = some (next, calls)) : next.Inv := by
  cases performs_of_perform hstep with
  | ignored => exact h
  | sendPacket packet handshaking => exact h.pushPacket packet
  | sendFront hlocked =>
    have htried := tried_sendPacketUnlock s
    exact h.of_tried htried (htried.dataMode h.dataMode) rfl id rfl false
  | doHandshake buf hbefore =>
    refine ⟨h.handed, dataMode_sendData h.dataMode buf 0, h.baseOk, h.wrapperOk, ?_⟩
    intro _ hok
    rw [show s.okPhase = .done from hok] at hbefore
    cases hbefore
  | onHeartbeat => exact h.of_sendData (heartbeat_ne info.kind)
  | okBase hbefore =>
    refine ⟨h.handed, h.dataMode, fun _ => rfl, ?_, ?_⟩
    · intro _ hok
      rcases hok with hok | hok <;> cases hok
    · intro _ hok
      cases hok
  | okWrapper hstarted hisOpen =>
    have hbase : s.base.onOkCalled = true := h.baseOk (by rw [hstarted]; simp)
    refine ⟨h.handed, h.dataMode, fun _ => hbase, fun _ _ => rfl, ?_⟩
    intro _ hok
    cases hok
  | okNobody hstarted hclosed =>
    have hbase : s.base.onOkCalled = true := h.baseOk (by rw [hstarted]; simp)
    exact ⟨h.handed, h.dataMode, fun _ => hbase, fun hopen => absurd hopen hclosed,
      fun hopen => absurd hopen.1 hclosed⟩
  | okRequest hreported hisOpen =>
    have hbase : s.base.onOkCalled = true := h.baseOk (by rw [hreported]; simp)
    have hflags := sameFlags_request s
    have hnext := h.baseRequestOnSend
    refine ⟨hnext.handed, hnext.dataMode, fun _ => hflags.baseOk.trans hbase, ?_, ?_⟩
    · exact fun _ _ => hflags.onOkCalled.trans (h.wrapperOk hisOpen (Or.inl hreported))
    · exact fun hopen _ _ _ => owes_of_request (hflags.isOpenOf hopen)
  | okUnasked hreported hclosed =>
    have hbase : s.base.onOkCalled = true := h.baseOk (by rw [hreported]; simp)
    exact ⟨h.handed, h.dataMode, fun _ => hbase, fun hopen => absurd hopen hclosed,
      fun hopen => absurd hopen.1 hclosed⟩
  | requestOnSend => exact h.baseRequestOnSend
  | onOutput result hidle =>
    exact h.of_output (TcpTransport.output_outputLocked h.dataMode hidle result)
  | doSend result hidle =>
    exact h.of_output (TcpTransport.output_doSendLocked h.dataMode hidle result)
  | doRecv regWr =>
    have hsame := TcpTransport.sameSlot_doRecvRegister s.trans regWr
    exact h.of_output ⟨hsame.dataMode h.dataMode, hsame.hasObserver, hsame.canUpcall, hsame.owes⟩
  | upcall hphase hupcall => exact h.upcall hphase hupcall
  | deregister hphase =>
    obtain ⟨h₁, h₂, h₃, h₄, h₅, h₆⟩ := same_outputDeregister s.trans
    exact h.of_phase (by rw [hphase]; simp) (fun hopen => h₁.symm.trans hopen)
      (fun hcan => h₂.symm.trans hcan) h₃ h₄ h₅ h₆
  | leave hphase =>
    obtain ⟨h₁, h₂, h₃, h₄, h₅, h₆⟩ := same_outputLeave s.trans
    exact h.of_phase (by rw [hphase]; simp) h₁ (fun hcan => h₂.symm.trans hcan) h₃ h₄ h₅ h₆
  | setOutputRedline redlineBytes redlineFrames hlocked =>
    refine ⟨h.handed, h.dataMode, h.baseOk, h.wrapperOk, ?_⟩
    intro hopen hok hlocked hfront
    refine h.owed hopen hok hlocked ?_
    unfold front at hfront ⊢
    rw [bucket.getFront_setRedline] at hfront
    exact hfront
  | enableOutput enable =>
    refine ⟨h.handed, h.dataMode, h.baseOk, h.wrapperOk, ?_⟩
    intro _ _ _ hfront
    exact absurd (bucket.getFront_reset s.queue) hfront
  | closeTrans =>
    refine h.of_closed (not_open_closed rfl) rfl rfl ?_ rfl rfl rfl id
    exact ⟨h.dataMode.slot.of_eq rfl rfl, h.dataMode.sendingFd⟩
  | closeSession =>
    exact h.of_closed (not_open_closed rfl) rfl rfl (dataMode_fini h.dataMode) rfl rfl rfl id
  | fini =>
    exact h.of_closed (not_open_closed rfl) rfl rfl (dataMode_fini h.dataMode) rfl rfl rfl
      (fun hopen => absurd hopen Bool.false_ne_true)

theorem owes_baseRequestOnSend {s : SendPath info bucket} (howes : s.trans.Owes) :
    s.baseRequestOnSend.trans.Owes := by
  obtain ⟨-, hpending, -, -, -, hphase, -, hkeep⟩ := TcpTransport.request_spec s.trans
  unfold SendPath.baseRequestOnSend
  split
  · rcases howes with howes | howes | howes
    · exact Or.inl (hpending.trans howes)
    · exact Or.inr (Or.inl (hkeep howes))
    · refine Or.inr (Or.inr ?_)
      unfold TcpTransport.OnSendDue at howes ⊢
      rw [hphase]
      exact howes
  · exact howes

/-- The upcall either leaves a callback to come, or goes on to the observer. -/
theorem Inv.owes_upcall {s next : SendPath info bucket} {calls : List Bool} (h : s.Inv)
    {locals : OutputLocals} (hphase : s.trans.phase = .upcall locals)
    (hstep : s.outputUpcall locals = some (next, calls)) (hok : s.okPhase = .done)
    (hopen : next.Open) (howes : s.trans.Owes) : next.trans.Owes ∨ calls ≠ [] := by
  have hbase : s.base.onOkCalled = true := h.baseOk (by rw [hok]; simp)
  unfold SendPath.outputUpcall at hstep
  split at hstep
  · rename_i actionId hupcall
    split at hstep
    · split at hstep
      · cases hstep
      · simp only [Option.some.injEq, Prod.mk.injEq] at hstep
        obtain ⟨rfl, rfl⟩ := hstep
        by_cases hisOpen : s.isOpen = true
        · have htried := tried_sendPacketUnlock s
          obtain ⟨erased, hsent⟩ := tried_onSendSession hisOpen
          rw [hsent] at hopen ⊢
          obtain ⟨hobserver, hcan, hpending, -⟩ :=
            same_outputUpcall s.sendPacketUnlock.1.trans locals
          obtain ⟨h₁, h₂, h₃, h₄, h₅⟩ := hopen
          have hbefore : s.Open := htried.flags.isOpenOf ⟨h₁, h₂, h₃, hobserver.symm.trans h₄, hcan h₅⟩
          by_cases hfront : s.front = none
          · right
            have hunsent : s.sendPacketUnlock.2 = false := by
              unfold SendPath.sendPacketUnlock
              cases hget : bucket.getFront s.queue with
              | mk queue packet =>
                have hnone : packet = none := by
                  rw [← hfront, front, hget]
                subst hnone
                rfl
            have hreports : s.sendPacketUnlock.1.onOkCalled = true :=
              htried.flags.onOkCalled.trans (h.wrapperOk hisOpen (Or.inr hok))
            simp [onSendSession, hisOpen, hunsent, hreports]
          · exact Or.inl (Or.inl (hpending.trans (htried.owed hbefore hbase h.dataMode hfront)))
        · have hsame : s.onSendSession.1 = s := by simp [onSendSession, hisOpen]
          rw [hsame] at hopen
          exact absurd hopen.1 hisOpen
    · rename_i hpasses
      cases hstep
      have htrans : s.base.hasTrans = true := hopen.2.1
      have hcan : s.base.canUpcall = true := hopen.2.2.1
      exact absurd (by simp [passesOnSend, htrans, hbase, hcan]) hpasses
  · cases hstep
    exact absurd hopen (not_open_closed rfl)
  · rename_i hupcall
    cases hstep
    obtain ⟨hobserver, hcan, hpending, hrequest, -⟩ := same_outputUpcall s.trans locals
    have hup : s.trans.canUpcall = true := hcan hopen.2.2.2.2
    left
    rcases howes with howes | howes | howes
    · exact Or.inl (hpending.trans howes)
    · exact Or.inr (Or.inl (hrequest.trans howes))
    · exact absurd howes (not_due_of_upcallOf hphase hup hupcall)

/-- No step of an open session forgets the callback. -/
theorem Inv.owes_perform {s next : SendPath info bucket} {calls : List Bool} (h : s.Inv)
    (e : SendEvent info) (hstep : s.perform e = some (next, calls)) (hok : s.okPhase = .done)
    (hopen : next.Open) (howes : s.trans.Owes) : next.trans.Owes ∨ calls ≠ [] := by
  cases performs_of_perform hstep with
  | upcall hphase hupcall => exact h.owes_upcall hphase hupcall hok hopen howes
  | ignored | setOutputRedline | enableOutput => exact Or.inl howes
  | sendPacket packet handshaking =>
    left
    unfold SendPath.pushPacket
    dsimp only
    split
    · exact owes_baseRequestOnSend howes
    · exact howes
  | sendFront hlocked => exact Or.inl ((tried_sendPacketUnlock s).owes howes)
  | doHandshake buf hbefore => exact Or.inl (owes_sendData s.trans buf 0 howes)
  | onHeartbeat => exact Or.inl (owes_sendData s.trans (heartbeat info.kind) 0 howes)
  | okBase hphase | okWrapper hphase | okNobody hphase | okRequest hphase | okUnasked hphase =>
    -- `OnOkSession` is reported once.
    rw [hok] at hphase
    cases hphase
  | requestOnSend => exact Or.inl (owes_baseRequestOnSend howes)
  | onOutput result hidle =>
    exact Or.inl ((TcpTransport.output_outputLocked h.dataMode hidle result).owes howes)
  | doSend result hidle =>
    exact Or.inl ((TcpTransport.output_doSendLocked h.dataMode hidle result).owes howes)
  | doRecv regWr => exact Or.inl ((TcpTransport.sameSlot_doRecvRegister s.trans regWr).owes howes)
  | deregister hphase =>
    left
    obtain ⟨-, -, hpending, hrequest, -⟩ := same_outputDeregister s.trans
    exact owes_of_flags (by rw [hphase]; simp) hpending hrequest howes
  | leave hphase =>
    left
    obtain ⟨-, -, hpending, hrequest, -⟩ := same_outputLeave s.trans
    exact owes_of_flags (by rw [hphase]; simp) hpending hrequest howes
  | closeTrans | closeSession | fini => exact absurd hopen (not_open_closed rfl)

theorem kept_baseRequestOnSend (s : SendPath info bucket) :
    s.baseRequestOnSend.enableOutput = s.enableOutput ∧ s.baseRequestOnSend.locked = s.locked ∧
      s.baseRequestOnSend.queue = s.queue := by
  unfold SendPath.baseRequestOnSend
  split <;> exact ⟨rfl, rfl, rfl⟩

theorem kept_sendPacketUnlock (s : SendPath info bucket) :
    s.sendPacketUnlock.1.enableOutput = s.enableOutput ∧ s.sendPacketUnlock.1.locked = s.locked := by
  unfold SendPath.sendPacketUnlock
  cases bucket.getFront s.queue with
  | mk queue packet =>
    cases packet with
    | none => exact ⟨rfl, rfl⟩
    | some packet =>
      dsimp only
      obtain ⟨h, -⟩ | ⟨buf, -, h⟩ := baseSendPacket_cases { s with queue := queue } packet
      · rw [h]
        exact ⟨rfl, rfl⟩
      · rw [h]
        cases hret : (s.trans.sendData buf (s.base.actionId + 1)).2 <;> exact ⟨rfl, rfl⟩

/-- What the events that do not come from above the session leave alone. -/
structure Kept (s next : SendPath info bucket) : Prop where
  enableOutput : next.enableOutput = s.enableOutput
  okPhase : s.okPhase = .done → next.okPhase = .done
  locked : next.locked = s.locked
  queue : s.locked = true → next.queue = s.queue
  isOpenOf : next.Open → s.Open

theorem Kept.of_trans {s : SendPath info bucket} {t : TcpTransport UInt8}
    (hobserver : t.hasObserver = true → s.trans.hasObserver = true)
    (hcan : t.canUpcall = true → s.trans.canUpcall = true) : Kept s { s with trans := t } :=
  ⟨rfl, id, rfl, fun _ => rfl, fun ⟨h₁, h₂, h₃, h₄, h₅⟩ => ⟨h₁, h₂, h₃, hobserver h₄, hcan h₅⟩⟩

theorem Kept.of_closed {s next : SendPath info bucket} (henable : next.enableOutput = s.enableOutput)
    (hok : next.okPhase = s.okPhase) (hlocked : next.locked = s.locked) (hqueue : next.queue = s.queue)
    (hnot : ¬ next.Open) : Kept s next :=
  ⟨henable, fun h => hok.trans h, hlocked, fun _ => hqueue, fun hopen => absurd hopen hnot⟩

theorem kept_upcall {s next : SendPath info bucket} {calls : List Bool} {locals : OutputLocals}
    (hstep : s.outputUpcall locals = some (next, calls)) : Kept s next := by
  unfold SendPath.outputUpcall at hstep
  split at hstep
  · split at hstep
    · split at hstep
      · cases hstep
      · rename_i hlocked
        simp only [Option.some.injEq, Prod.mk.injEq] at hstep
        obtain ⟨rfl, -⟩ := hstep
        by_cases hisOpen : s.isOpen = true
        · obtain ⟨erased, hsent⟩ := tried_onSendSession hisOpen
          obtain ⟨henable, hlock⟩ := kept_sendPacketUnlock s
          have hflags := (tried_sendPacketUnlock s).flags
          obtain ⟨hobserver, hcan, -⟩ := same_outputUpcall s.sendPacketUnlock.1.trans locals
          rw [hsent]
          refine ⟨henable, fun h => hflags.okPhase.trans h, hlock, fun h => absurd h hlocked, ?_⟩
          rintro ⟨h₁, h₂, h₃, h₄, h₅⟩
          exact hflags.isOpenOf ⟨h₁, h₂, h₃, hobserver.symm.trans h₄, hcan h₅⟩
        · have hsame : s.onSendSession.1 = s := by simp [onSendSession, hisOpen]
          rw [hsame]
          exact .of_closed rfl rfl rfl rfl fun hopen => hisOpen hopen.1
    · cases hstep
      obtain ⟨hobserver, hcan, -⟩ := same_outputUpcall s.trans locals
      exact .of_trans (fun h => hobserver.symm.trans h) hcan
  · cases hstep
    exact .of_closed rfl rfl rfl rfl (not_open_closed rfl)
  · cases hstep
    obtain ⟨hobserver, hcan, -⟩ := same_outputUpcall s.trans locals
    exact .of_trans (fun h => hobserver.symm.trans h) hcan

/-- The events that come from the application above the session, or end its lock. -/
def fromAbove : SendEvent info → Bool
  | .sendPacket .. | .sendFront | .setOutputRedline .. | .enableOutput .. => true
  | _ => false

theorem Inv.kept_perform {s next : SendPath info bucket} {calls : List Bool} (h : s.Inv)
    {e : SendEvent info} (habove : fromAbove e = false)
    (hstep : s.perform e = some (next, calls)) : Kept s next := by
  have hrequest : Kept s s.baseRequestOnSend := by
    obtain ⟨henable, hlocked, hqueue⟩ := kept_baseRequestOnSend s
    have hflags := sameFlags_request s
    exact ⟨henable, fun h => hflags.okPhase.trans h, hlocked, fun _ => hqueue, hflags.isOpenOf⟩
  have hsend : ∀ buf, Kept s { s with trans := (s.trans.sendData buf 0).1 } := by
    intro buf
    obtain ⟨hobserver, hcan, -⟩ := sendData_same s.trans buf 0
    exact .of_trans (fun h => hobserver.symm.trans h) (fun h => hcan.symm.trans h)
  have houtput : ∀ t, TcpTransport.Output s.trans t → Kept s { s with trans := t } :=
    fun t hout => .of_trans (fun h => hout.hasObserver.symm.trans h)
      (fun h => hout.canUpcall.symm.trans h)
  cases performs_of_perform hstep with
  | sendPacket | sendFront | setOutputRedline | enableOutput => cases habove
  | ignored => exact .of_trans id id
  | doHandshake buf hbefore => exact hsend buf
  | onHeartbeat => exact hsend _
  | okBase hbefore =>
    exact ⟨rfl, (fun hok => by cases hbefore.symm.trans hok), rfl, fun _ => rfl, id⟩
  | okWrapper hstarted hisOpen =>
    exact ⟨rfl, (fun hok => by cases hstarted.symm.trans hok), rfl, fun _ => rfl, id⟩
  | okNobody hstarted hclosed => exact ⟨rfl, fun _ => rfl, rfl, fun _ => rfl, id⟩
  | okRequest hreported hisOpen =>
    exact ⟨hrequest.enableOutput, fun _ => rfl, hrequest.locked, hrequest.queue, hrequest.isOpenOf⟩
  | okUnasked hreported hclosed => exact ⟨rfl, fun _ => rfl, rfl, fun _ => rfl, id⟩
  | requestOnSend => exact hrequest
  | onOutput result hidle =>
    exact houtput _ (TcpTransport.output_outputLocked h.dataMode hidle result)
  | doSend result hidle =>
    exact houtput _ (TcpTransport.output_doSendLocked h.dataMode hidle result)
  | doRecv regWr =>
    have hslot := TcpTransport.sameSlot_doRecvRegister s.trans regWr
    exact .of_trans (fun h => hslot.hasObserver.symm.trans h)
      (fun h => hslot.canUpcall.symm.trans h)
  | upcall hphase hupcall => exact kept_upcall hupcall
  | deregister hphase =>
    obtain ⟨hobserver, hcan, -⟩ := same_outputDeregister s.trans
    exact .of_trans (fun h => hobserver.symm.trans h) (fun h => hcan.symm.trans h)
  | leave hphase =>
    obtain ⟨hobserver, hcan, -⟩ := same_outputLeave s.trans
    exact .of_trans hobserver (fun h => hcan.symm.trans h)
  | closeTrans | closeSession | fini => exact .of_closed rfl rfl rfl rfl (not_open_closed rfl)

theorem inv_of_run {es : List (SendEvent info)} {s : SendPath info bucket}
    (hrun : run step init es = some s) : s.Inv := by
  refine run_preserves ?_ inv_init (guarded_true _ _) hrun
  intro before e next hinv _ hstep
  obtain ⟨⟨s', calls⟩, hperform, rfl⟩ := Option.map_eq_some_iff.mp hstep
  exact hinv.perform e hperform

/-- The events of a socket that can be written to: writes that take everything, and
the rest of the handler behind them. -/
def Writes (s : SendPath info bucket) : SendEvent info → Prop
  | .onOutput result => result = .sent s.trans.sendPool.preSend.length
  | .doSend result => result = .sent s.trans.sendPool.preSend.length
  | .upcall | .deregister | .leave => True
  | _ => False

/-- An open session that waits for its transport with `packet` in front. -/
structure Waiting (s : SendPath info bucket) (packet : OutPacket info) : Prop where
  inv : s.Inv
  isOpen : s.Open
  okPhase : s.okPhase = .done
  locked : s.locked = false
  front : s.front = some packet

theorem Waiting.baseOk {s : SendPath info bucket} {packet : OutPacket info}
    (h : s.Waiting packet) : s.base.onOkCalled = true :=
  h.inv.baseOk (by rw [h.okPhase]; simp)

/-- What a try does with the front: it is handed over, or the slot was taken. -/
theorem Waiting.sendPacketUnlock {s : SendPath info bucket} {packet : OutPacket info}
    (h : s.Waiting packet) :
    (s.trans.pendingWr = false ∧ s.sendPacketUnlock.1.handed = s.handed ++ [packet]) ∨
    (s.trans.pendingWr = true ∧ s.sendPacketUnlock.1.handed = s.handed ∧
      s.sendPacketUnlock.1.front = some packet ∧ s.sendPacketUnlock.1.locked = s.locked) := by
  unfold SendPath.sendPacketUnlock
  cases hfront : bucket.getFront s.queue with
  | mk queue first =>
    have hfirst : first = some packet := by
      have hsnd : (bucket.getFront s.queue).2 = some packet := h.front
      rw [hfront] at hsnd
      exact hsnd
    subst hfirst
    dsimp only
    obtain ⟨-, hnot⟩ | ⟨buf, hbuf, hsent⟩ := baseSendPacket_cases { s with queue := queue } packet
    · exact absurd ⟨h.isOpen.2.1, h.baseOk⟩ hnot
    · obtain ⟨hret, -⟩ := TcpTransport.sendData_spec h.inv.dataMode h.isOpen.2.2.2.1 hbuf
        (s.base.actionId + 1)
      rw [hsent]
      dsimp only
      cases hpending : s.trans.pendingWr with
      | false =>
        left
        rw [hret, hpending]
        exact ⟨rfl, rfl⟩
      | true =>
        right
        rw [hret, hpending]
        refine ⟨rfl, rfl, ?_, rfl⟩
        have hagain := bucket.getFront_again s.queue
        rw [hfront] at hagain
        exact congrArg Prod.snd hagain

theorem Waiting.upcallOf {s : SendPath info bucket} {packet : OutPacket info}
    (h : s.Waiting packet) {locals : OutputLocals} (hphase : s.trans.phase = .upcall locals)
    (hdue : s.trans.OnSendDue) : s.trans.upcallOf locals = some (.onSend locals.actionId) := by
  unfold TcpTransport.OnSendDue at hdue
  rw [hphase] at hdue
  obtain ⟨herror, hsend⟩ := hdue
  unfold TcpTransport.upcallOf
  simp only [h.isOpen.2.2.2.2, if_true, herror]
  rcases hsend with hsend | hsend <;> simp [hsend]

theorem Waiting.step_upcall {s : SendPath info bucket} {packet : OutPacket info}
    (h : s.Waiting packet) {locals : OutputLocals} (hphase : s.trans.phase = .upcall locals)
    (hdue : s.trans.OnSendDue) :
    ∃ erased, s.step .upcall = some { s.sendPacketUnlock.1 with
      packetErased := erased
      trans := s.sendPacketUnlock.1.trans.outputUpcall locals } := by
  have hpasses : s.passesOnSend = true := by
    simp [passesOnSend, h.isOpen.2.1, h.isOpen.2.2.1, h.baseOk]
  obtain ⟨erased, hsent⟩ := tried_onSendSession h.isOpen.1
  refine ⟨erased, ?_⟩
  simp only [step, SendPath.perform, hphase, SendPath.outputUpcall, h.upcallOf hphase hdue, hpasses,
    if_true, h.locked, Bool.false_eq_true, if_false, Option.map_some, hsent]

/-- The transport ends its handler, and the session still waits. -/
theorem Waiting.of_trans {s : SendPath info bucket} {packet : OutPacket info}
    (h : s.Waiting packet) {next : SendPath info bucket} {e : SendEvent info}
    (hstep : s.step e = some next) {t : TcpTransport UInt8} (hnext : next = { s with trans := t })
    (hobserver : t.hasObserver = true) (hcan : t.canUpcall = true) : next.Waiting packet := by
  obtain ⟨⟨s', calls⟩, hperform, rfl⟩ := Option.map_eq_some_iff.mp hstep
  have hinv := h.inv.perform e hperform
  dsimp only at hnext hinv
  subst hnext
  exact ⟨hinv, ⟨h.isOpen.1, h.isOpen.2.1, h.isOpen.2.2.1, hobserver, hcan⟩, h.okPhase, h.locked,
    h.front⟩

/-- From the start of a handler: the write that ends the buffer in the slot, or finds
the request, is followed by the upcall that hands the packet over. -/
theorem Waiting.hands_of_idle {s : SendPath info bucket} {packet : OutPacket info}
    (h : s.Waiting packet) (hidle : s.trans.phase = .idle) :
    CanReach step Writes s fun final => final.handed = s.handed ++ [packet] := by
  have howes : s.trans.pendingWr = true ∨ s.trans.requestOnSend = true := by
    have hfront : s.front ≠ none := by
      rw [h.front]
      simp
    rcases h.inv.owed h.isOpen h.okPhase h.locked hfront with howes | howes | howes
    · exact Or.inl howes
    · exact Or.inr howes
    · unfold TcpTransport.OnSendDue at howes
      rw [hidle] at howes
      exact howes.elim
  obtain ⟨e, t, hwrites, hstep, hwrote⟩ : ∃ e t, Writes s e ∧ s.step e = some { s with trans := t } ∧
      TcpTransport.Wrote s.trans t := by
    cases hssl : info.ssl with
    | false =>
      refine ⟨.onOutput (.sent s.trans.sendPool.preSend.length), _, rfl, ?_,
        TcpTransport.wrote_outputLocked h.inv.dataMode h.isOpen.2.2.2.1 howes⟩
      simp [step, SendPath.perform, hssl, hidle]
    | true =>
      refine ⟨.doSend (.sent s.trans.sendPool.preSend.length), _, rfl, ?_,
        TcpTransport.wrote_doSendLocked h.inv.dataMode h.isOpen.2.2.2.1 howes⟩
      simp [step, SendPath.perform, hssl, hidle]
  have hwaiting : Waiting { s with trans := t } packet :=
    h.of_trans hstep rfl (hwrote.hasObserver.trans h.isOpen.2.2.2.1)
      (hwrote.canUpcall.trans h.isOpen.2.2.2.2)
  obtain ⟨locals, hphase⟩ : ∃ locals, t.phase = .upcall locals := by
    have hdue := hwrote.due
    unfold TcpTransport.OnSendDue at hdue
    split at hdue
    · rename_i locals hphase
      exact ⟨locals, hphase⟩
    · exact hdue.elim
  obtain ⟨erased, hupcall⟩ := hwaiting.step_upcall hphase hwrote.due
  obtain ⟨-, hhanded⟩ | ⟨htaken, -⟩ := hwaiting.sendPacketUnlock
  · exact .after hstep hwrites (.after hupcall trivial (.here hhanded))
  · exact absurd (hwrote.pendingWr.symm.trans htaken) (by simp)

/-- The handler that runs is ended first. -/
theorem Waiting.hands_of_leave {s : SendPath info bucket} {packet : OutPacket info}
    (h : s.Waiting packet) (hphase : s.trans.phase = .leave) :
    CanReach step Writes s fun final => final.handed = s.handed ++ [packet] := by
  have hstep : s.step .leave = some { s with trans := { s.trans with phase := .idle } } := by
    simp [step, SendPath.perform, hphase, TcpTransport.outputLeave, h.isOpen.2.2.2.2]
  have hnext := h.of_trans hstep rfl h.isOpen.2.2.2.1 h.isOpen.2.2.2.2
  exact .after hstep trivial (hnext.hands_of_idle rfl)

theorem Waiting.hands_of_deregister {s : SendPath info bucket} {packet : OutPacket info}
    (h : s.Waiting packet) (hphase : s.trans.phase = .deregister) :
    CanReach step Writes s fun final => final.handed = s.handed ++ [packet] := by
  obtain ⟨hobserver, hcan, -⟩ := same_outputDeregister s.trans
  have hleave : s.trans.outputDeregister.phase = .leave := by
    unfold TcpTransport.outputDeregister
    dsimp only
    split <;> rfl
  have hstep : s.step .deregister = some { s with trans := s.trans.outputDeregister } := by
    simp [step, SendPath.perform, hphase]
  have hnext := h.of_trans hstep rfl (hobserver.trans h.isOpen.2.2.2.1)
    (hcan.trans h.isOpen.2.2.2.2)
  exact .after hstep trivial (hnext.hands_of_leave hleave)

theorem Waiting.hands_of_upcall {s : SendPath info bucket} {packet : OutPacket info}
    (h : s.Waiting packet) {locals : OutputLocals} (hphase : s.trans.phase = .upcall locals)
    (herror : locals.error = none) :
    CanReach step Writes s fun final => final.handed = s.handed ++ [packet] := by
  by_cases hdue : s.trans.OnSendDue
  · obtain ⟨erased, hupcall⟩ := h.step_upcall hphase hdue
    obtain ⟨-, hhanded⟩ | ⟨-, hhanded, hfront, hlocked⟩ := h.sendPacketUnlock
    · exact .after hupcall trivial (.here hhanded)
    · -- A heartbeat or another packet took the slot, so the callback of that one is next.
      have hflags := (tried_sendPacketUnlock s).flags
      have hleaves : s.sendPacketUnlock.1.trans.outputUpcall locals =
          { s.sendPacketUnlock.1.trans with phase := .deregister } := by
        have hof : s.sendPacketUnlock.1.trans.upcallOf locals = some (.onSend locals.actionId) := by
          rw [TcpTransport.upcallOf, hflags.transCan]
          exact h.upcallOf hphase hdue
        rw [TcpTransport.outputUpcall, hof]
      rw [hleaves] at hupcall
      obtain ⟨⟨next, calls⟩, hperform, hnext⟩ := Option.map_eq_some_iff.mp hupcall
      have hinv := h.inv.perform .upcall hperform
      dsimp only at hnext hinv
      rw [hnext] at hinv
      have hwaiting : Waiting { s.sendPacketUnlock.1 with
          packetErased := erased
          trans := { s.sendPacketUnlock.1.trans with phase := .deregister } } packet := by
        refine ⟨hinv, ⟨?_, ?_, ?_, ?_, ?_⟩, ?_, ?_, hfront⟩
        · exact hflags.isOpen.trans h.isOpen.1
        · exact hflags.hasTrans.trans h.isOpen.2.1
        · exact hflags.baseCan.trans h.isOpen.2.2.1
        · exact hflags.hasObserver.trans h.isOpen.2.2.2.1
        · exact hflags.transCan.trans h.isOpen.2.2.2.2
        · exact hflags.okPhase.trans h.okPhase
        · exact hlocked.trans h.locked
      rw [← hhanded]
      exact .after hupcall trivial (hwaiting.hands_of_deregister rfl)
  · have hnone : s.trans.upcallOf locals = none := by
      unfold TcpTransport.OnSendDue at hdue
      rw [hphase] at hdue
      have hno : ¬ (locals.onSendBuf = true ∨ locals.requestOnSend = true) :=
        fun hsend => hdue ⟨herror, hsend⟩
      simp only [TcpTransport.upcallOf, herror, Bool.or_eq_true, hno, if_false, ite_self]
    have hstep : s.step .upcall = some { s with trans := { s.trans with phase := .leave } } := by
      simp [step, SendPath.perform, hphase, SendPath.outputUpcall, hnone, TcpTransport.outputUpcall]
    have hnext := h.of_trans hstep rfl h.isOpen.2.2.2.1 h.isOpen.2.2.2.2
    exact .after hstep trivial (hnext.hands_of_leave rfl)

/-- `OnOutput` has not met an error on the socket. -/
def NoError (s : SendPath info bucket) : Prop :=
  ∀ locals, s.trans.phase = .upcall locals → locals.error = none

/-- The packet in front is handed over as soon as the socket takes what is written. -/
theorem Waiting.hands {s : SendPath info bucket} {packet : OutPacket info}
    (h : s.Waiting packet) (herror : s.NoError) :
    CanReach step Writes s fun final => final.handed = s.handed ++ [packet] := by
  cases hphase : s.trans.phase with
  | idle => exact h.hands_of_idle hphase
  | upcall locals => exact h.hands_of_upcall hphase (herror locals hphase)
  | deregister => exact h.hands_of_deregister hphase
  | leave => exact h.hands_of_leave hphase

/-- What the send path promises. With the lock of the wrapper free, a packet in the
bucket of an open session after `OnOkSession` has a flag of the transport set, or the
upcall of `OnOutput` that took the flag is still to be made; and writes that succeed
hand it over. -/
structure Sound (s : SendPath info bucket) : Prop where
  handed : s.handed = s.popped
  owed : s.Open → s.okPhase = .done → s.locked = false → s.front ≠ none →
    s.trans.pendingWr = true ∨ s.trans.requestOnSend = true ∨ s.trans.OnSendDue
  hands : s.Open → s.okPhase = .done → s.locked = false → s.NoError →
    ∀ packet, s.front = some packet →
      CanReach step Writes s fun final => final.handed = s.handed ++ [packet]

end SendPath

end Pronet.Rtp
