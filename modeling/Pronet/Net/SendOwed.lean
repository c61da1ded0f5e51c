import Pronet.Net.TransportWrites

/-! The callback a transport owes. `SendData` and `RequestOnSend` leave a flag
behind; `OnOutput` clears it and then reports `OnSend`, so between the two the
callback is due although no flag is set. The TLS transport sends by `DoSend`. -/
namespace Pronet.Net

variable {β : Type*}

/-- What `mbedtls_ssl_write` returns. -/
inductive SslResult
  | sent (size : Nat)
  | wantWrite
  | wantRead
  | failed (sslCode : Int)
  deriving DecidableEq, Repr

namespace TcpTransport

/-- A TLS transport after `Init`: it is registered for writing from the start. -/
def initSsl : TcpTransport β := { TcpTransport.init with onWr := true, registeredWr := true }

def sslOutputData (t : TcpTransport β) : SslResult → TcpTransport β × Option Int × Bool
  | .sent size => t.outputData (.sent size)
  | .wantWrite => (t, none, false)
  | .wantRead => (if t.onWr then t.removeWr else t, none, false)
  | .failed _ => (t, some (-1), false)

/-- The first section of `DoSend`. -/
def doSendLocked (t : TcpTransport β) (result : SslResult) : TcpTransport β :=
  if !t.hasObserver then t
  else if t.sendPool.preSend.isEmpty then
    let t := { t with pendingWr := false }
    if !t.requestOnSend then
      if t.onWr then t.removeWr else t
    else t.takeLocals none false
  else
    let (t, error, onSendBuf) := t.sslOutputData result
    t.takeLocals error onSendBuf

/-- The registration in `DoRecv`; `regWr` says that reading wants to write. -/
def doRecvRegister (t : TcpTransport β) (regWr : Bool) : TcpTransport β :=
  if t.hasObserver && !t.onWr && (regWr || t.pendingWr || t.requestOnSend) then t.addWr else t

/-- The slot for one buffer: free, or taken by a buffer that is not all sent. -/
inductive Slot (t : TcpTransport β) : Prop
  | free (hpending : t.pendingWr = false) (hpool : t.sendPool = SendPool.empty)
  | taken (buf : List β) (pos : Nat) (hpending : t.pendingWr = true)
      (hpool : t.sendPool = ⟨[buf], some pos⟩) (hpos : pos < buf.length)

/-- `OnOutput` has taken a finished buffer or a request and not yet reported it. -/
def OnSendDue (t : TcpTransport β) : Prop :=
  match t.phase with
  | .upcall locals => locals.error = none ∧ (locals.onSendBuf = true ∨ locals.requestOnSend = true)
  | _ => False

instance (t : TcpTransport β) : Decidable t.OnSendDue := by
  unfold OnSendDue
  split <;> infer_instance

/-- A call of `OnSend` is still to come. -/
def Owes (t : TcpTransport β) : Prop :=
  t.pendingWr = true ∨ t.requestOnSend = true ∨ t.OnSendDue

instance (t : TcpTransport β) : Decidable t.Owes := by
  unfold Owes
  infer_instance

/-- What the callback of a transport in data mode rests on. -/
structure DataMode (t : TcpTransport β) : Prop where
  slot : t.Slot
  sendingFd : t.sendingFd = none

theorem Slot.of_eq {t t' : TcpTransport β} (h : t.Slot) (hpending : t'.pendingWr = t.pendingWr)
    (hpool : t'.sendPool = t.sendPool) : t'.Slot := by
  cases h with
  | free h₁ h₂ => exact .free (hpending.trans h₁) (hpool.trans h₂)
  | taken buf pos h₁ h₂ h₃ => exact .taken buf pos (hpending.trans h₁) (hpool.trans h₂) h₃

theorem dataMode_init : (init : TcpTransport β).DataMode := ⟨.free rfl rfl, rfl⟩

theorem dataMode_initSsl : (initSsl : TcpTransport β).DataMode := ⟨.free rfl rfl, rfl⟩

/-- Registration leaves everything else alone. -/
structure SameSlot (t t' : TcpTransport β) : Prop where
  hasObserver : t'.hasObserver = t.hasObserver
  pendingWr : t'.pendingWr = t.pendingWr
  requestOnSend : t'.requestOnSend = t.requestOnSend
  sendPool : t'.sendPool = t.sendPool
  sendingFd : t'.sendingFd = t.sendingFd
  canUpcall : t'.canUpcall = t.canUpcall
  phase : t'.phase = t.phase

theorem sameSlot_addWr (t : TcpTransport β) : SameSlot t t.addWr := by
  unfold addWr
  split <;> exact ⟨rfl, rfl, rfl, rfl, rfl, rfl, rfl⟩

theorem SameSlot.dataMode {t t' : TcpTransport β} (h : SameSlot t t') (hdata : t.DataMode) :
    t'.DataMode :=
  ⟨hdata.slot.of_eq h.pendingWr h.sendPool, h.sendingFd.trans hdata.sendingFd⟩

theorem SameSlot.owes {t t' : TcpTransport β} (h : SameSlot t t') (howes : t.Owes) : t'.Owes := by
  unfold Owes OnSendDue
  rw [h.pendingWr, h.requestOnSend, h.phase]
  exact howes

theorem sameSlot_doRecvRegister (t : TcpTransport β) (regWr : Bool) :
    SameSlot t (t.doRecvRegister regWr) := by
  unfold doRecvRegister
  split
  · exact sameSlot_addWr t
  · exact ⟨rfl, rfl, rfl, rfl, rfl, rfl, rfl⟩

/-- `SendData` of a session: afterwards the slot is taken, whoever took it. -/
theorem sendData_spec {t : TcpTransport β} (hdata : t.DataMode) (hopen : t.hasObserver = true)
    {buf : List β} (hbuf : buf ≠ []) (actionId : UInt64) :
    (t.sendData buf actionId).2 = !t.pendingWr ∧ (t.sendData buf actionId).1.pendingWr = true ∧
      (t.sendData buf actionId).1.DataMode ∧
      (t.sendData buf actionId).1.hasObserver = true ∧
      (t.sendData buf actionId).1.requestOnSend = t.requestOnSend ∧
      (t.sendData buf actionId).1.canUpcall = t.canUpcall ∧
      (t.sendData buf actionId).1.phase = t.phase := by
  have hne : buf.isEmpty = false := by simpa using hbuf
  unfold sendData
  simp only [hne, hopen, Bool.not_true, Bool.false_eq_true, if_false]
  cases hpending : t.pendingWr with
  | true => exact ⟨rfl, hpending, hdata, hopen, rfl, rfl, rfl⟩
  | false =>
    have hsame := sameSlot_addWr t
    simp only [Bool.false_eq_true, if_false]
    refine ⟨rfl, trivial, ⟨?_, hsame.sendingFd.trans hdata.sendingFd⟩, hsame.hasObserver.trans hopen,
      hsame.requestOnSend, hsame.canUpcall, hsame.phase⟩
    cases hdata.slot with
    | free _ hpool =>
      refine .taken buf 0 rfl ?_ (List.length_pos_iff.mpr hbuf)
      show t.addWr.sendPool.fill buf = _
      rw [hsame.sendPool, hpool]
      simp [SendPool.fill, SendPool.empty, hne]
    | taken _ _ htaken =>
      rw [hpending] at htaken
      cases htaken

/-- `RequestOnSend` changes nothing but the flag it sets. -/
theorem request_spec (t : TcpTransport β) :
    t.request.hasObserver = t.hasObserver ∧ t.request.pendingWr = t.pendingWr ∧
      t.request.sendPool = t.sendPool ∧ t.request.sendingFd = t.sendingFd ∧
      t.request.canUpcall = t.canUpcall ∧ t.request.phase = t.phase ∧
      (t.hasObserver = true → t.request.requestOnSend = true) ∧
      (t.requestOnSend = true → t.request.requestOnSend = true) := by
  unfold request
  split
  · rename_i hclosed
    exact ⟨rfl, rfl, rfl, rfl, rfl, rfl, fun h => by simp [h] at hclosed, id⟩
  · split
    · rename_i hrequest
      exact ⟨rfl, rfl, rfl, rfl, rfl, rfl, fun _ => hrequest, id⟩
    · have hsame := sameSlot_addWr t
      exact ⟨hsame.hasObserver, hsame.pendingWr, hsame.sendPool, hsame.sendingFd,
        hsame.canUpcall, hsame.phase, fun _ => rfl, fun _ => rfl⟩

/-- What a first section may do: nothing, or end with locals that still owe the
callback. An error leaves the buffer in its slot. -/
structure Output (t t' : TcpTransport β) : Prop where
  dataMode : t'.DataMode
  hasObserver : t'.hasObserver = t.hasObserver
  canUpcall : t'.canUpcall = t.canUpcall
  owes : t.Owes → t'.Owes

theorem output_takeLocals {t t' : TcpTransport β} (hdata : t'.DataMode) (hidle : t.phase = .idle)
    {error : Option Int} {onSendBuf : Bool}
    (hflags : t'.hasObserver = t.hasObserver ∧ t'.canUpcall = t.canUpcall ∧
      t'.requestOnSend = t.requestOnSend)
    (hsend : t.pendingWr = true → t'.pendingWr = true ∨ onSendBuf = true)
    (herror : error ≠ none → t'.pendingWr = true) :
    Output t (t'.takeLocals error onSendBuf) := by
  obtain ⟨hopen, hcan, hrequest⟩ := hflags
  refine ⟨⟨hdata.slot.of_eq rfl rfl, hdata.sendingFd⟩, hopen, hcan, ?_⟩
  intro howes
  unfold Owes OnSendDue takeLocals
  dsimp only
  by_cases herr : error = none
  · rcases howes with h | h | h
    · rcases hsend h with h | h
      · exact Or.inl h
      · exact Or.inr (Or.inr ⟨herr, Or.inl h⟩)
    · exact Or.inr (Or.inr ⟨herr, Or.inr (hrequest.trans h)⟩)
    · unfold OnSendDue at h
      rw [hidle] at h
      exact h.elim
  · exact Or.inl (herror herr)

/-- The first section with an empty pool. -/
theorem output_empty {t : TcpTransport β} (hdata : t.DataMode) (hidle : t.phase = .idle)
    (hempty : t.sendPool.preSend.isEmpty = true) :
    Output t (if !t.requestOnSend then
        if t.onWr then removeWr { t with pendingWr := false } else { t with pendingWr := false }
      else takeLocals { t with pendingWr := false } none false) := by
  have hpending : t.pendingWr = false := by
    cases hdata.slot with
    | free h _ => exact h
    | taken buf pos _ hpool hpos =>
      rw [hpool] at hempty
      simp only [SendPool.preSend, Option.getD_some, List.isEmpty_iff, List.drop_eq_nil_iff] at hempty
      omega
  have hsame : ({ t with pendingWr := false } : TcpTransport β) = t := by
    cases t
    dsimp only at hpending
    rw [hpending]
  rw [hsame]
  split
  · rename_i hrequest
    have hno : ¬ t.Owes := by
      unfold Owes OnSendDue
      simp only [hpending, hidle]
      simpa using hrequest
    split
    · exact ⟨⟨hdata.slot.of_eq rfl rfl, hdata.sendingFd⟩, rfl, rfl, fun h => absurd h hno⟩
    · exact ⟨hdata, rfl, rfl, fun h => absurd h hno⟩
  · apply output_takeLocals hdata hidle ⟨rfl, rfl, rfl⟩
    · intro h
      exact Or.inl h
    · intro h
      exact absurd rfl h

theorem output_outputData {t : TcpTransport β} (hdata : t.DataMode) (hidle : t.phase = .idle)
    (hempty : ¬ t.sendPool.preSend.isEmpty = true) (result : SendResult) :
    Output t ((t.outputData result).1.takeLocals (t.outputData result).2.1
      (t.outputData result).2.2) := by
  cases hdata.slot with
  | free _ hpool =>
    rw [hpool] at hempty
    exact absurd rfl hempty
  | taken buf pos hpending hpool hpos =>
    obtain ⟨error, h, -⟩ | ⟨size, hsize, h, -⟩ | ⟨h, -⟩ := Wire.outputData_cases hpool result
    · rw [h]
      exact output_takeLocals hdata hidle ⟨rfl, rfl, rfl⟩ (fun _ => Or.inl hpending)
        (fun _ => hpending)
    · rw [h]
      refine output_takeLocals ⟨.taken buf (pos + size) ?_ rfl hsize, ?_⟩ hidle ?_ ?_ ?_
      · exact hpending
      · exact hdata.sendingFd
      · exact ⟨rfl, rfl, rfl⟩
      · exact fun _ => Or.inl hpending
      · exact fun _ => hpending
    · rw [h]
      refine output_takeLocals ⟨.free rfl rfl, ?_⟩ hidle ?_ ?_ ?_
      · exact hdata.sendingFd
      · exact ⟨rfl, rfl, rfl⟩
      · exact fun _ => Or.inr rfl
      · exact fun h => absurd rfl h

theorem output_outputLocked {t : TcpTransport β} (hdata : t.DataMode) (hidle : t.phase = .idle)
    (result : SendResult) : Output t (t.outputLocked result) := by
  unfold outputLocked
  split
  · exact ⟨hdata, rfl, rfl, id⟩
  · split
    · rename_i hempty
      exact output_empty hdata hidle hempty
    · rename_i hempty
      rw [if_pos hdata.sendingFd]
      exact output_outputData hdata hidle hempty result

theorem output_doSendLocked {t : TcpTransport β} (hdata : t.DataMode) (hidle : t.phase = .idle)
    (result : SslResult) : Output t (t.doSendLocked result) := by
  unfold doSendLocked
  split
  · exact ⟨hdata, rfl, rfl, id⟩
  · split
    · rename_i hempty
      exact output_empty hdata hidle hempty
    · rename_i hempty
      have hpending : t.pendingWr = true := by
        cases hdata.slot with
        | free _ hpool =>
          rw [hpool] at hempty
          exact absurd rfl hempty
        | taken _ _ h => exact h
      cases result with
      | sent size => exact output_outputData hdata hidle hempty (.sent size)
      | wantWrite =>
        exact output_takeLocals hdata hidle ⟨rfl, rfl, rfl⟩ (fun _ => Or.inl hpending)
          (fun h => absurd rfl h)
      | failed sslCode =>
        exact output_takeLocals hdata hidle ⟨rfl, rfl, rfl⟩ (fun _ => Or.inl hpending)
          (fun _ => hpending)
      | wantRead =>
        -- The handler is removed until there is something to read.
        simp only [sslOutputData]
        split
        · refine output_takeLocals ?_ hidle ?_ ?_ ?_
          · exact ⟨hdata.slot.of_eq rfl rfl, hdata.sendingFd⟩
          · exact ⟨rfl, rfl, rfl⟩
          · exact fun _ => Or.inl hpending
          · exact fun h => absurd rfl h
        · exact output_takeLocals hdata hidle ⟨rfl, rfl, rfl⟩ (fun _ => Or.inl hpending)
            (fun h => absurd rfl h)

/-- A write that takes all that is left ends the buffer. -/
theorem outputData_all {t : TcpTransport β} {buf : List β} {pos : Nat}
    (hpool : t.sendPool = ⟨[buf], some pos⟩) (hpos : pos < buf.length) :
    t.outputData (.sent t.sendPool.preSend.length) =
      ({ t with sendPool := SendPool.empty, pendingWr := false }, none, true) := by
  have hrest : t.sendPool.preSend = buf.drop pos := by
    rw [hpool]
    rfl
  have hsent : t.sentBytes (.sent t.sendPool.preSend.length) = buf.drop pos := by
    rw [sentBytes, if_pos (Nat.le_refl _), List.take_length, hrest]
  obtain ⟨error, -, h⟩ | ⟨size, hsize, -, h⟩ | ⟨h, -⟩ :=
    Wire.outputData_cases hpool (.sent t.sendPool.preSend.length)
  · rw [hsent] at h
    have := List.drop_eq_nil_iff.mp h
    omega
  · have hlength := congrArg List.length (hsent.symm.trans h)
    rw [List.length_take, List.length_drop] at hlength
    omega
  · exact h

/-- A handler has written all there was, and its callback is due. -/
structure Wrote (t t' : TcpTransport β) : Prop where
  hasObserver : t'.hasObserver = t.hasObserver
  canUpcall : t'.canUpcall = t.canUpcall
  pendingWr : t'.pendingWr = false
  due : t'.OnSendDue

theorem wrote_outputLocked {t : TcpTransport β} (hdata : t.DataMode) (hopen : t.hasObserver = true)
    (howes : t.pendingWr = true ∨ t.requestOnSend = true) :
    Wrote t (t.outputLocked (.sent t.sendPool.preSend.length)) := by
  unfold outputLocked
  simp only [hopen, Bool.not_true, Bool.false_eq_true, if_false]
  cases hdata.slot with
  | free hpending hpool =>
    have hrequest : t.requestOnSend = true := by
      rw [hpending] at howes
      simpa using howes
    rw [if_pos (by rw [hpool]; rfl), if_neg (by simp [hrequest])]
    exact ⟨hopen.symm, rfl, rfl, rfl, Or.inr hrequest⟩
  | taken buf pos hpending hpool hpos =>
    have hne : ¬ t.sendPool.preSend.isEmpty = true := by
      rw [hpool]
      simpa [SendPool.preSend] using hpos
    rw [if_neg hne, if_pos hdata.sendingFd, outputData_all hpool hpos]
    exact ⟨rfl, rfl, rfl, rfl, Or.inl rfl⟩

theorem wrote_doSendLocked {t : TcpTransport β} (hdata : t.DataMode) (hopen : t.hasObserver = true)
    (howes : t.pendingWr = true ∨ t.requestOnSend = true) :
    Wrote t (t.doSendLocked (.sent t.sendPool.preSend.length)) := by
  have hsame : t.doSendLocked (.sent t.sendPool.preSend.length) =
      t.outputLocked (.sent t.sendPool.preSend.length) := by
    unfold doSendLocked outputLocked
    rw [if_pos hdata.sendingFd]
    rfl
  rw [hsame]
  exact wrote_outputLocked hdata hopen howes

end TcpTransport

end Pronet.Net
