import Pronet.Net.SslTransport
import Pronet.Net.TcpHandshaker

/-! `CProSslHandshaker`. Both of its sections go on with the TLS handshake before they move
application data, and either of them may want the other direction. The TLS context holds back
what it has decrypted of a record and the pool has no room for. -/
namespace Pronet.Net

variable {β : Type*}

/-- What `mbedtls_ssl_handshake` returns. -/
inductive HandshakeStep
  | done
  | wantRead
  | wantWrite
  | failed (sslCode : Int)
  deriving DecidableEq, Repr

/-- `handshakeOver` is the state of the context that `Init` is given. -/
structure SslHandshakeData (β : Type*) extends HandshakeData β where
  ctx : Nat
  unixSocket : Bool
  handshakeOver : Bool
  deriving DecidableEq, Repr

inductive SslHandshakeCall (β : Type*)
  | onHandshakeOk (ctx sockId : Nat) (unixSocket : Bool) (buf : List β)
  | onHandshakeError (errorCode sslCode : Int)
  deriving DecidableEq, Repr

/-- `record` is the rest of the record in the TLS context. -/
structure SslHandshaker (β : Type*) where
  hasObserver : Bool
  ctx : Option Nat
  sslOk : Bool
  sockId : Option Nat
  unixSocket : Bool
  onWr : Bool
  recvFirst : Bool
  recvPool : RecvPool β
  sendPool : SendPool β
  timerId : Nat
  registeredRd : Bool
  registeredWr : Bool
  record : List β

/-- `MBEDTLS_ERR_SSL_INTERNAL_ERROR`. -/
def sslInternalError : Int := -0x6C00

/-- How a turn of the reading loop ends. -/
inductive ReadTurn
  | again
  | stop (regWr : Bool)
  | error (errorCode sslCode : Int)
  deriving DecidableEq, Repr

namespace SslHandshaker

def init (data : SslHandshakeData β) (env : HandshakeEnv β) : Option (SslHandshaker β) :=
  let sendPool := if env.sendAlloc then SendPool.empty.fill data.sendData else SendPool.empty
  if 0 < data.recvDataSize && !env.recvAlloc then none
  else if !env.added then none
  else
    some {
      hasObserver := true
      ctx := some data.ctx
      sslOk := data.handshakeOver
      sockId := some data.sockId
      unixSocket := data.unixSocket
      onWr := true
      recvFirst := data.recvFirst
      recvPool := if data.recvDataSize = 0 then .unsized env.memory
        else .resize data.recvDataSize env.memory
      sendPool := sendPool
      timerId := env.timerId
      registeredRd := true
      registeredWr := true
      record := [] }

/-- Every section ends so when it has chosen a callback. -/
def leave (h : SslHandshaker β) : SslHandshaker β :=
  { h with timerId := 0, registeredRd := false, registeredWr := false, hasObserver := false }

/-- What every section looks at first. -/
def deaf (h : SslHandshaker β) : Bool := !h.hasObserver || h.ctx.isNone

def fini (h : SslHandshaker β) : SslHandshaker β := if h.deaf then h else h.leave

/-- `Fini` sends a close notify, whether or not the observer is still there. -/
def notifies (h : SslHandshaker β) : Bool := h.ctx.isSome && h.sockId.isSome && h.sslOk

def removeWr (h : SslHandshaker β) : SslHandshaker β :=
  if h.onWr then { h with registeredWr := false, onWr := false } else h

def addWr (h : SslHandshaker β) : SslHandshaker β := { h with registeredWr := true, onWr := true }

def fail (h : SslHandshaker β) (errorCode sslCode : Int) :
    SslHandshaker β × Option (SslHandshakeCall β) :=
  (h.leave, some (.onHandshakeError errorCode sslCode))

/-- A turn of the loop in `DoRecv`. -/
def readTurn (h : SslHandshaker β) (msgSize : Nat) (found : ReadResult β) : SslHandshaker β × ReadTurn :=
  let idleSize := h.recvPool.continuousIdleSize
  let minSize := if msgSize = 0 || idleSize < msgSize then idleSize else msgSize
  if idleSize = 0 then ({ h with registeredRd := false }, .stop true)
  else
    let (found, record) := sslRead h.record minSize found
    let h := { h with record := record }
    match found with
    | .record bytes =>
        if bytes.isEmpty then (h, .error 0 0)
        else
          let h := { h with recvPool := h.recvPool.receive bytes }
          if 0 < h.recvPool.continuousIdleSize then (h, .again)
          else ({ h with registeredRd := false }, .stop true)
    | .wantRead => (h, .stop false)
    | .wantWrite => (h, .stop true)
    | .closed => (h, .error 0 0)
    | .failed sslCode => (h, .error (-1) sslCode)

/-- `while (msgSize > 0)`; the size is that of the rest of the record. -/
def readLoop : Nat → SslHandshaker β → Nat → ReadResult β → SslHandshaker β × ReadTurn
  | 0, h, _, _ => (h, .again)
  | turns + 1, h, msgSize, found =>
      match h.readTurn msgSize found with
      | (h, .again) => if 0 < h.record.length then readLoop turns h h.record.length found else (h, .again)
      | (h, turn) => (h, turn)

/-- The end of `DoRecv`: `able` is the result of `AddHandler`. -/
def arm (h : SslHandshaker β) (regWr able : Bool) : SslHandshaker β × Option (SslHandshakeCall β) :=
  if !h.onWr && (regWr || !h.sendPool.preSend.isEmpty) then
    if able then (h.addWr, none) else h.fail (-1) 0
  else (h, none)

/-- What `DoRecv` does behind the handshake. Every turn that is not the last fills in a byte. -/
def receive (h : SslHandshaker β) (found : ReadResult β) (able : Bool) :
    SslHandshaker β × Option (SslHandshakeCall β) :=
  let (h, turn) := readLoop (h.recvPool.size + 1) h 0 found
  match turn with
  | .error errorCode sslCode => h.fail errorCode sslCode
  | turn => h.arm (turn = .stop true) able

def doRecv (h : SslHandshaker β) (sockId : Nat) (shake : HandshakeStep) (found : ReadResult β)
    (able : Bool) : SslHandshaker β × Option (SslHandshakeCall β) :=
  if h.deaf || h.sockId ≠ some sockId then (h, none)
  else if h.sslOk then h.receive found able
  else
    match shake with
    | .done => { h with sslOk := true }.receive found able
    | .wantRead => (h, none)
    | .wantWrite =>
        if h.onWr then (h, none) else if able then (h.addWr, none) else h.fail (-1) 0
    | .failed sslCode => h.fail (-1) sslCode

/-- The end of `DoSend`, once everything is sent. -/
def sendDone (h : SslHandshaker β) (sockId : Nat) (alloc : Bool) :
    SslHandshaker β × Option (SslHandshakeCall β) :=
  let idleSize := h.recvPool.continuousIdleSize
  let h := h.removeWr
  if 0 < idleSize then (h, none)
  else
    let size := h.recvPool.peekDataSize
    if 0 < size && !alloc then h.fail (-1) 0
    else
      match h.ctx with
      | none => (h, none)
      | some ctx =>
          ({ h.leave with ctx := none, sockId := none },
            some (.onHandshakeOk ctx sockId h.unixSocket (h.recvPool.peekData size)))

/-- What `DoSend` does behind the handshake. -/
def send (h : SslHandshaker β) (sockId : Nat) (result : SslResult) (alloc : Bool) :
    SslHandshaker β × Option (SslHandshakeCall β) :=
  let theBuf := h.sendPool.preSend
  if h.recvFirst && 0 < h.recvPool.continuousIdleSize then (h.removeWr, none)
  else if theBuf.isEmpty then h.sendDone sockId alloc
  else
    match result with
    | .sent size =>
        if asInt theBuf.length < size then h.fail (-1) sslInternalError
        else if size = 0 then (h, none)
        else
          let sendPool := h.sendPool.flush size
          match sendPool.onSendBuf with
          | none => ({ h with sendPool := sendPool }, none)
          | some _ => { h with sendPool := sendPool.postSend }.sendDone sockId alloc
    | .wantWrite => (h, none)
    | .wantRead => (h.removeWr, none)
    | .failed sslCode => h.fail (-1) sslCode

def doSend (h : SslHandshaker β) (sockId : Nat) (shake : HandshakeStep) (result : SslResult)
    (alloc : Bool) : SslHandshaker β × Option (SslHandshakeCall β) :=
  if h.deaf || h.sockId ≠ some sockId then (h, none)
  else if h.sslOk then h.send sockId result alloc
  else
    match shake with
    | .done => { h with sslOk := true }.send sockId result alloc
    | .wantRead => (h.removeWr, none)
    | .wantWrite => (h, none)
    | .failed sslCode => h.fail (-1) sslCode

def onError (h : SslHandshaker β) (sockId : Nat) (errorCode : Int) :
    SslHandshaker β × Option (SslHandshakeCall β) :=
  if h.deaf || h.sockId ≠ some sockId then (h, none) else h.fail errorCode 0

def onTimer (h : SslHandshaker β) (timerId : Nat) : SslHandshaker β × Option (SslHandshakeCall β) :=
  if timerId = 0 || h.deaf || timerId ≠ h.timerId then (h, none)
  else h.fail TcpHandshaker.etimedout 0

/-- The section gets behind the handshake. -/
def shaken (h : SslHandshaker β) (sockId : Nat) (shake : HandshakeStep) : Bool :=
  !h.deaf && h.sockId = some sockId && (h.sslOk || shake = .done)

/-- The record that `DoRecv` begins to read. -/
def begins (h : SslHandshaker β) (sockId : Nat) (shake : HandshakeStep) : ReadResult β → List β
  | .record bytes =>
      if h.shaken sockId shake && h.recvPool.continuousIdleSize ≠ 0 && h.record.isEmpty then bytes else []
  | _ => []

def taken (h : SslHandshaker β) : SslResult → List β
  | .sent size => h.sendPool.preSend.take size
  | _ => []

/-- The bytes that `mbedtls_ssl_write` accepts in `DoSend`. -/
def accepts (h : SslHandshaker β) (sockId : Nat) (shake : HandshakeStep) (result : SslResult) : List β :=
  if !h.shaken sockId shake || h.recvFirst && 0 < h.recvPool.continuousIdleSize then []
  else h.taken result

/-- A handshaker that has not chosen its callback. `opened` is what the records decrypt to that
have been begun. -/
structure Open (data : SslHandshakeData β) (toSend written opened : List β) (h : SslHandshaker β) :
    Prop where
  hasObserver : h.hasObserver = true
  ctx : h.ctx = some data.ctx
  sockId : h.sockId = some data.sockId
  unixSocket : h.unixSocket = data.unixSocket
  recvFirst : h.recvFirst = data.recvFirst
  sendPool : h.sendPool.Sends toSend written
  wellFormed : h.recvPool.WellFormed
  size : h.recvPool.size = data.recvDataSize
  stream : h.recvPool.bytes ++ h.record = opened
  masks : h.registeredWr = h.onWr
  read : h.recvPool.bytes.length < data.recvDataSize → h.registeredRd = true
  shaking : h.sslOk = false → h.registeredRd = true ∧ written = [] ∧ opened = []
  order : data.recvFirst = true → written ≠ [] → data.recvDataSize ≤ h.recvPool.bytes.length

/-- The pool is filled before anything stays in the TLS context. -/
def Drained (data : SslHandshakeData β) (h : SslHandshaker β) : Prop :=
  h.recvPool.bytes.length < data.recvDataSize → h.record = []

/-- The reactor will call back for what is left to be sent or to be reported. -/
def Armed (data : SslHandshakeData β) (h : SslHandshaker β) : Prop :=
  h.sslOk = true → h.sendPool.preSend ≠ [] ∨ h.recvPool.bytes.length = data.recvDataSize →
    h.registeredWr = true

/-- The reactor has the masks that the handshaker needs; `asked` is what `mbedtls_ssl_handshake`
has returned last to `DoRecv`. -/
structure Settled (data : SslHandshakeData β) (asked : HandshakeStep) (h : SslHandshaker β) : Prop where
  armed : Armed data h
  asked : h.sslOk = false → asked = .wantWrite → h.registeredWr = true

variable {data : SslHandshakeData β} {toSend written opened : List β} {h : SslHandshaker β}

theorem Open.not_deaf (hopen : h.Open data toSend written opened) : h.deaf = false := by
  unfold deaf
  rw [hopen.hasObserver, hopen.ctx]
  rfl

theorem Open.continuousIdleSize (hopen : h.Open data toSend written opened) :
    h.recvPool.continuousIdleSize = 0 ↔ h.recvPool.bytes.length = data.recvDataSize := by
  rw [RecvPool.continuousIdleSize_eq_zero hopen.wellFormed, hopen.size]

theorem Open.length_le (hopen : h.Open data toSend written opened) :
    h.recvPool.bytes.length ≤ data.recvDataSize := by
  have hsum := hopen.wellFormed.sum
  rw [RecvPool.length_bytes hopen.wellFormed, ← hopen.size]
  omega

theorem Open.missing (hopen : h.Open data toSend written opened)
    (hidle : ¬h.recvPool.continuousIdleSize = 0) : h.recvPool.bytes.length < data.recvDataSize :=
  Nat.lt_of_le_of_ne hopen.length_le fun hfull => hidle (hopen.continuousIdleSize.mpr hfull)

/-- The record that a turn of the loop begins. -/
def newly (h : SslHandshaker β) : ReadResult β → List β
  | .record bytes => if h.record.isEmpty then bytes else []
  | _ => []

/-- What is read and what is left are the rest of the record, or the record that is found. -/
theorem sslRead_record {bytes rest : List β} {size : Nat} {found : ReadResult β}
    (hread : sslRead h.record size found = (.record bytes, rest)) :
    bytes ++ rest = h.record ++ h.newly found ∧ bytes.length = min size (bytes ++ rest).length := by
  unfold sslRead at hread
  unfold newly
  split at hread
  · rename_i hempty
    cases found with
    | record found =>
      cases hread
      dsimp only
      rw [if_pos hempty, List.isEmpty_iff.mp hempty, List.take_append_drop, List.length_take]
      exact ⟨rfl, rfl⟩
    | wantRead => cases hread
    | wantWrite => cases hread
    | closed => cases hread
    | failed sslCode => cases hread
  · rename_i hempty
    cases hread
    have hnone : (match found with
        | .record bytes => if h.record.isEmpty = true then bytes else []
        | _ => ([] : List β)) = [] := by
      cases found <;> dsimp only
      exact if_neg hempty
    rw [hnone, List.append_nil, List.take_append_drop, List.length_take]
    exact ⟨rfl, rfl⟩

/-- A record that is not begun leaves nothing behind. -/
theorem sslRead_other {record rest : List β} {size : Nat} {found other : ReadResult β}
    (hread : sslRead record size found = (other, rest)) (hother : ∀ bytes, other ≠ .record bytes) :
    record = [] ∧ rest = [] ∧ found = other := by
  unfold sslRead at hread
  split at hread
  · rename_i hempty
    rw [List.isEmpty_iff] at hempty
    cases found with
    | record bytes =>
      cases hread
      exact absurd rfl (hother _)
    | wantRead =>
      cases hread
      exact ⟨hempty, rfl, rfl⟩
    | wantWrite =>
      cases hread
      exact ⟨hempty, rfl, rfl⟩
    | closed =>
      cases hread
      exact ⟨hempty, rfl, rfl⟩
    | failed sslCode =>
      cases hread
      exact ⟨hempty, rfl, rfl⟩
  · cases hread
    exact absurd rfl (hother _)

/-- How the loop leaves an open handshaker: it touches the pool and the record, and gives up
`PRO_MASK_READ` once the pool is full. -/
structure Loop (data : SslHandshakeData β) (toSend written opened : List β) (h : SslHandshaker β)
    (r : SslHandshaker β × ReadTurn) : Prop where
  isOpen : r.1.Open data toSend written opened
  sslOk : r.1.sslOk = true
  onWr : r.1.onWr = h.onWr
  sendPool : r.1.sendPool = h.sendPool
  full : (∀ errorCode sslCode, r.2 ≠ .error errorCode sslCode) →
    r.1.recvPool.bytes.length = data.recvDataSize → r.2 = .stop true
  again : r.2 = .again → h.recvPool.bytes.length < r.1.recvPool.bytes.length ∧
    ¬r.1.recvPool.continuousIdleSize = 0
  drained : (∀ errorCode sslCode, r.2 ≠ .error errorCode sslCode) → r.2 ≠ .again → Drained data r.1

/-- The loop has read nothing. -/
theorem Open.loop_still (hopen : h.Open data toSend written opened) (hok : h.sslOk = true)
    (hrecord : h.record = []) (hidle : ¬h.recvPool.continuousIdleSize = 0) {turn : ReadTurn}
    (hturn : turn ≠ .again) : Loop data toSend written opened h (h, turn) where
  isOpen := hopen
  sslOk := hok
  onWr := rfl
  sendPool := rfl
  full _ hfull := absurd (hopen.continuousIdleSize.mpr hfull) hidle
  again hagain := absurd hagain hturn
  drained _ _ _ := hrecord

theorem Open.readTurn (hopen : h.Open data toSend written opened) (hok : h.sslOk = true)
    (hidle : ¬h.recvPool.continuousIdleSize = 0) {msgSize : Nat} (found : ReadResult β) :
    Loop data toSend written (opened ++ h.newly found) h (h.readTurn msgSize found) := by
  unfold SslHandshaker.readTurn
  dsimp only
  rw [if_neg hidle]
  generalize hmin : (if (decide (msgSize = 0) || decide (h.recvPool.continuousIdleSize < msgSize)) = true
    then h.recvPool.continuousIdleSize else msgSize) = minSize
  have hpos : 0 < minSize := by
    simp only [Bool.or_eq_true, decide_eq_true_eq] at hmin
    split at hmin <;> omega
  have hle : minSize ≤ h.recvPool.continuousIdleSize := by
    simp only [Bool.or_eq_true, decide_eq_true_eq] at hmin
    split at hmin <;> omega
  cases hread : sslRead h.record minSize found with
  | mk result rest =>
    have hother : (∀ bytes, result ≠ .record bytes) →
        h.newly found = [] ∧ h.record = [] ∧ { h with record := rest } = h := by
      intro hnot
      obtain ⟨hrecord, hrest, hfound⟩ := sslRead_other hread hnot
      refine ⟨?_, hrecord, ?_⟩
      · rw [hfound]
        unfold newly
        cases result with
        | record bytes => exact absurd rfl (hnot bytes)
        | wantRead => rfl
        | wantWrite => rfl
        | closed => rfl
        | failed sslCode => rfl
      · rw [hrest, ← hrecord]
    cases result with
    | wantRead =>
      obtain ⟨hnone, hrecord, hsame⟩ := hother (by simp)
      dsimp only
      rw [hnone, List.append_nil, hsame]
      exact hopen.loop_still hok hrecord hidle (by simp)
    | wantWrite =>
      obtain ⟨hnone, hrecord, hsame⟩ := hother (by simp)
      dsimp only
      rw [hnone, List.append_nil, hsame]
      exact hopen.loop_still hok hrecord hidle (by simp)
    | closed =>
      obtain ⟨hnone, hrecord, hsame⟩ := hother (by simp)
      dsimp only
      rw [hnone, List.append_nil, hsame]
      exact hopen.loop_still hok hrecord hidle (by simp)
    | failed sslCode =>
      obtain ⟨hnone, hrecord, hsame⟩ := hother (by simp)
      dsimp only
      rw [hnone, List.append_nil, hsame]
      exact hopen.loop_still hok hrecord hidle (by simp)
    | record bytes =>
      obtain ⟨hsource, hlength⟩ := sslRead_record hread
      dsimp only
      split
      · rename_i hempty
        rw [List.isEmpty_iff] at hempty
        have hnothing : h.record = [] ∧ h.newly found = [] ∧ rest = [] := by
          rw [hempty, List.nil_append] at hlength
          have hrest : rest = [] := by
            rw [← List.length_eq_zero_iff]
            rw [List.length_nil] at hlength
            omega
          rw [hempty, hrest, List.append_nil] at hsource
          obtain ⟨hrecord, hnone⟩ := List.append_eq_nil_iff.mp hsource.symm
          exact ⟨hrecord, hnone, hrest⟩
        obtain ⟨hrecord, hnone, hrest⟩ := hnothing
        have hsame : { h with record := rest } = h := by rw [hrest, ← hrecord]
        rw [hnone, List.append_nil, hsame]
        exact hopen.loop_still hok hrecord hidle (by simp)
      · rename_i hne
        rw [List.isEmpty_iff] at hne
        have hfits : bytes.length ≤ h.recvPool.continuousIdleSize := by omega
        obtain ⟨hwell, hqueue, hsize⟩ := RecvPool.receive_spec hopen.wellFormed hne hfits
        rw [hopen.size] at hsize
        have hstream : (h.recvPool.receive bytes).bytes ++ rest = opened ++ h.newly found := by
          rw [hqueue, List.append_assoc, hsource, ← List.append_assoc, hopen.stream]
        have hfull : (h.recvPool.receive bytes).continuousIdleSize = 0 ↔
            (h.recvPool.receive bytes).bytes.length = data.recvDataSize := by
          rw [RecvPool.continuousIdleSize_eq_zero hwell, hsize]
        have hmore : h.recvPool.bytes.length < (h.recvPool.receive bytes).bytes.length := by
          rw [hqueue, List.length_append]
          have := List.length_pos_iff.mpr hne
          omega
        have hrd : h.registeredRd = true := hopen.read (hopen.missing hidle)
        have hnext : ∀ registeredRd : Bool,
            ((h.recvPool.receive bytes).bytes.length < data.recvDataSize → registeredRd = true) →
            Open data toSend written (opened ++ h.newly found)
              { h with record := rest, recvPool := h.recvPool.receive bytes, registeredRd := registeredRd } := by
          intro registeredRd hregistered
          refine { hopen with
            wellFormed := hwell, size := hsize, stream := hstream, read := hregistered,
            shaking := ?_, order := ?_ }
          · intro hshaking
            rw [show h.sslOk = false from hshaking] at hok
            cases hok
          · intro hfirst hsome
            have := hopen.order hfirst hsome
            dsimp only
            omega
        split
        · rename_i hidle'
          have hagain := hnext h.registeredRd fun _ => hrd
          refine ⟨hagain, hok, rfl, rfl, ?_, ?_, ?_⟩
          · intro _ hall
            have := hfull.mpr hall
            omega
          · intro _
            exact ⟨hmore, by dsimp only; omega⟩
          · intro _ hnot
            exact absurd rfl hnot
        · rename_i hidle'
          have hall := hfull.mp (by omega)
          have hstop := hnext false fun hlt => by omega
          refine ⟨hstop, hok, rfl, rfl, fun _ _ => rfl, ?_, ?_⟩
          · intro hagain
            cases hagain
          · intro _ _ hlt
            dsimp only at hlt
            omega

/-- A turn of a full pool. -/
theorem Open.readTurn_full (hopen : h.Open data toSend written opened) (hok : h.sslOk = true)
    (hidle : h.recvPool.continuousIdleSize = 0) (msgSize : Nat) (found : ReadResult β) :
    Loop data toSend written opened h (h.readTurn msgSize found) := by
  have hfull := hopen.continuousIdleSize.mp hidle
  unfold SslHandshaker.readTurn
  dsimp only
  rw [if_pos hidle]
  refine ⟨{ hopen with read := ?_, shaking := ?_ }, hok, rfl, rfl, fun _ _ => rfl, ?_, ?_⟩
  · intro hlt
    dsimp only at hlt
    omega
  · intro hshaking
    rw [show h.sslOk = false from hshaking] at hok
    cases hok
  · intro hagain
    cases hagain
  · intro _ _ hlt
    dsimp only at hlt
    omega

/-- The loop ends with a full pool, with an error, or with nothing left of the record. -/
theorem Open.readLoop (hopen : h.Open data toSend written opened) (hok : h.sslOk = true)
    (hidle : ¬h.recvPool.continuousIdleSize = 0) {turns : Nat}
    (hturns : data.recvDataSize < h.recvPool.bytes.length + turns) (msgSize : Nat) (found : ReadResult β) :
    let r := readLoop turns h msgSize found
    Loop data toSend written (opened ++ h.newly found) h r ∧
      ((∀ errorCode sslCode, r.2 ≠ .error errorCode sslCode) → Drained data r.1) := by
  induction turns generalizing h opened msgSize with
  | zero =>
    have := hopen.length_le
    omega
  | succ turns ih =>
    have hturn : Loop data toSend written (opened ++ h.newly found) h (h.readTurn msgSize found) :=
      hopen.readTurn hok hidle found
    unfold SslHandshaker.readLoop
    cases hr : h.readTurn msgSize found with
    | mk next turn =>
      rw [hr] at hturn
      cases turn with
      | stop regWr => exact ⟨hturn, fun hnot => hturn.drained hnot (by simp)⟩
      | error errorCode sslCode => exact ⟨hturn, fun hnot => absurd rfl (hnot errorCode sslCode)⟩
      | again =>
        have hopen' : next.Open data toSend written (opened ++ h.newly found) := hturn.isOpen
        have hmore : h.recvPool.bytes.length < next.recvPool.bytes.length := (hturn.again rfl).1
        have hidle' : ¬next.recvPool.continuousIdleSize = 0 := (hturn.again rfl).2
        dsimp only
        split
        · rename_i hrecord
          have hsome : ¬next.record.isEmpty = true := by
            rw [List.isEmpty_iff]
            exact List.length_pos_iff.mp hrecord
          have hnone : next.newly found = [] := by
            unfold newly
            cases found <;> dsimp only
            exact if_neg hsome
          obtain ⟨hrest, hdrained⟩ := ih hopen' hturn.sslOk hidle' (by omega) next.record.length
          rw [hnone, List.append_nil] at hrest
          refine ⟨⟨hrest.isOpen, hrest.sslOk, hrest.onWr.trans hturn.onWr,
            hrest.sendPool.trans hturn.sendPool, hrest.full, ?_, hrest.drained⟩, hdrained⟩
          intro hagain
          obtain ⟨hmore', hidle''⟩ := hrest.again hagain
          exact ⟨hmore.trans hmore', hidle''⟩
        · rename_i hrecord
          exact ⟨hturn, fun _ _ => List.length_eq_zero_iff.mp (Nat.eq_zero_of_not_pos hrecord)⟩

/-- How a section leaves a handshaker, and the callback it has chosen. -/
inductive Outcome (data : SslHandshakeData β) (toSend written opened : List β) :
    SslHandshaker β × Option (SslHandshakeCall β) → Prop
  | goesOn {h : SslHandshaker β} (hopen : h.Open data toSend written opened)
      (hdrained : Drained data h) : Outcome data toSend written opened (h, none)
  | fails {h : SslHandshaker β} (hclosed : h.hasObserver = false) (hctx : h.ctx = some data.ctx)
      (hsock : h.sockId = some data.sockId) (errorCode sslCode : Int) :
      Outcome data toSend written opened (h, some (.onHandshakeError errorCode sslCode))
  | succeeds {h : SslHandshaker β} {buf : List β} (hclosed : h.hasObserver = false) (hctx : h.ctx = none)
      (hsock : h.sockId = none) (hok : h.sslOk = true) (hsent : written = toSend)
      (hreceived : buf.length = data.recvDataSize) (hstream : buf ++ h.record = opened) :
      Outcome data toSend written opened
        (h, some (.onHandshakeOk data.ctx data.sockId data.unixSocket buf))

theorem outcome_fail (hctx : h.ctx = some data.ctx) (hsock : h.sockId = some data.sockId)
    (errorCode sslCode : Int) : Outcome data toSend written opened (h.fail errorCode sslCode) :=
  .fails (h := h.leave) rfl hctx hsock errorCode sslCode

theorem Open.addWr (hopen : h.Open data toSend written opened) : h.addWr.Open data toSend written opened :=
  { hopen with masks := rfl, shaking := fun hshaking => hopen.shaking hshaking }

theorem Open.removeWr (hopen : h.Open data toSend written opened) :
    h.removeWr.Open data toSend written opened := by
  unfold SslHandshaker.removeWr
  split
  · exact { hopen with masks := rfl, shaking := fun hshaking => hopen.shaking hshaking }
  · exact hopen

theorem open_init {env : HandshakeEnv β} (hinit : init data env = some h) :
    h.Open data (TcpHandshaker.filled data.toHandshakeData env) [] [] ∧ Drained data h ∧ Armed data h := by
  unfold init at hinit
  dsimp only at hinit
  split at hinit
  · cases hinit
  · split at hinit
    · cases hinit
    · cases hinit
      have hsends : (if env.sendAlloc = true then SendPool.empty.fill data.sendData
          else SendPool.empty).Sends (TcpHandshaker.filled data.toHandshakeData env) [] := by
        unfold TcpHandshaker.filled
        split
        · exact SendPool.sends_fill data.sendData
        · exact .done rfl
      refine ⟨⟨rfl, rfl, rfl, rfl, rfl, hsends, ?_, ?_, ?_, rfl, fun _ => rfl, fun _ => ⟨rfl, rfl, rfl⟩, ?_⟩,
        fun _ => rfl, fun _ _ => rfl⟩
      · dsimp only
        split
        · exact RecvPool.wellFormed_unsized _
        · rename_i hsize
          exact RecvPool.wellFormed_resize (Nat.pos_of_ne_zero hsize) _
      · dsimp only
        split
        · rename_i hsize
          exact hsize.symm
        · rfl
      · dsimp only
        split <;> rfl
      · intro _ hne
        exact absurd rfl hne

theorem Armed.settled (harmed : Armed data h) (hok : h.sslOk = true) (asked : HandshakeStep) :
    Settled data asked h := by
  refine ⟨harmed, fun hshaking => ?_⟩
  rw [hok] at hshaking
  cases hshaking

theorem Open.arm (hopen : h.Open data toSend written opened) (hok : h.sslOk = true)
    (hdrained : Drained data h) (regWr able : Bool)
    (hfull : h.recvPool.bytes.length = data.recvDataSize → regWr = true) (asked : HandshakeStep) :
    Outcome data toSend written opened (h.arm regWr able) ∧
      ((h.arm regWr able).2 = none → Settled data asked (h.arm regWr able).1) := by
  unfold SslHandshaker.arm
  split
  · split
    · exact ⟨.goesOn hopen.addWr hdrained, fun _ => ⟨fun _ _ => rfl, fun _ _ => rfl⟩⟩
    · refine ⟨outcome_fail hopen.ctx hopen.sockId (-1) 0, ?_⟩
      intro hnone
      cases hnone
  · rename_i hcheck
    refine ⟨.goesOn hopen hdrained, fun _ => Armed.settled ?_ hok asked⟩
    intro _ hneed
    rw [hopen.masks]
    by_contra hoff
    apply hcheck
    rw [Bool.not_eq_true] at hoff
    rw [hoff]
    rcases hneed with hpre | hall
    · simp [hpre]
    · simp [hfull hall]

/-- Behind the handshake, `DoRecv` leaves a handshaker that will be called back for what is left. -/
theorem Open.receive (hopen : h.Open data toSend written opened) (hok : h.sslOk = true)
    (found : ReadResult β) (able : Bool) (asked : HandshakeStep) :
    let r := h.receive found able
    Outcome data toSend written
        (opened ++ if h.recvPool.continuousIdleSize = 0 then [] else h.newly found) r ∧
      (r.2 = none → Settled data asked r.1) := by
  have hloop : ∃ next turn, SslHandshaker.readLoop (h.recvPool.size + 1) h 0 found = (next, turn) ∧
      Loop data toSend written
        (opened ++ if h.recvPool.continuousIdleSize = 0 then [] else h.newly found) h (next, turn) ∧
      ((∀ errorCode sslCode, turn ≠ .error errorCode sslCode) → Drained data next) := by
    by_cases hidle : h.recvPool.continuousIdleSize = 0
    · have hturn := hopen.readTurn_full hok hidle 0 found
      have hfull := hopen.continuousIdleSize.mp hidle
      refine ⟨{ h with registeredRd := false }, .stop true, ?_, ?_, fun _ hlt => ?_⟩
      · unfold SslHandshaker.readLoop SslHandshaker.readTurn
        dsimp only
        rw [if_pos hidle]
      · unfold SslHandshaker.readTurn at hturn
        dsimp only at hturn
        rw [if_pos hidle] at hturn
        rw [if_pos hidle, List.append_nil]
        exact hturn
      · dsimp only at hlt
        omega
    · have hturns : data.recvDataSize < h.recvPool.bytes.length + (h.recvPool.size + 1) := by
        rw [hopen.size]
        omega
      obtain ⟨hrest, hend⟩ := hopen.readLoop hok hidle hturns 0 found
      rw [if_neg hidle]
      exact ⟨_, _, rfl, hrest, hend⟩
  obtain ⟨next, turn, heq, hrest, hend⟩ := hloop
  unfold SslHandshaker.receive
  rw [heq]
  have hopen' : next.Open data toSend written
      (opened ++ if h.recvPool.continuousIdleSize = 0 then [] else h.newly found) := hrest.isOpen
  have hsettle := fun hnot : ∀ errorCode sslCode, turn ≠ .error errorCode sslCode =>
    hopen'.arm hrest.sslOk (hend hnot) (turn = .stop true) able
      (fun hfull => decide_eq_true (hrest.full hnot hfull)) asked
  cases turn with
  | again => exact hsettle (by simp)
  | stop regWr => exact hsettle (by simp)
  | error errorCode sslCode =>
    refine ⟨outcome_fail hopen'.ctx hopen'.sockId errorCode sslCode, ?_⟩
    intro hnone
    cases hnone

theorem Open.shake (hopen : h.Open data toSend written opened) :
    Open data toSend written opened { h with sslOk := true } :=
  { hopen with shaking := fun hshaking => by cases hshaking }

theorem Open.doRecv (hopen : h.Open data toSend written opened) (hdrained : Drained data h)
    (shake : HandshakeStep) (found : ReadResult β) (able : Bool) :
    let r := h.doRecv data.sockId shake found able
    Outcome data toSend written (opened ++ h.begins data.sockId shake found) r ∧
      (r.2 = none → Settled data shake r.1) := by
  have hbegins : ∀ h' : SslHandshaker β, h'.recvPool = h.recvPool → h'.record = h.record →
      h.shaken data.sockId shake = true →
      h.begins data.sockId shake found =
        if h'.recvPool.continuousIdleSize = 0 then [] else h'.newly found := by
    intro h' hpool hrecord hshaken
    unfold begins newly
    rw [hpool, hrecord, hshaken]
    cases found <;> dsimp only <;> by_cases hidle : h.recvPool.continuousIdleSize = 0 <;> simp [hidle]
  have hquiet : h.shaken data.sockId shake = false → h.begins data.sockId shake found = [] := by
    intro hshaken
    unfold begins
    rw [hshaken]
    cases found <;> rfl
  have hhears : ¬(h.deaf || decide (h.sockId ≠ some data.sockId)) = true := by
    simp [hopen.not_deaf, hopen.sockId]
  unfold SslHandshaker.doRecv
  dsimp only
  rw [if_neg hhears]
  by_cases hok : h.sslOk = true
  · rw [if_pos hok, hbegins h rfl rfl (by simp [shaken, hopen.not_deaf, hopen.sockId, hok])]
    exact hopen.receive hok found able shake
  · rw [if_neg hok]
    cases shake with
    | done =>
      dsimp only
      rw [hbegins { h with sslOk := true } rfl rfl (by simp [shaken, hopen.not_deaf, hopen.sockId])]
      exact hopen.shake.receive rfl found able .done
    | wantRead =>
      rw [hquiet (by simp [shaken, hok]), List.append_nil]
      exact ⟨.goesOn hopen hdrained, fun _ => ⟨fun hyes => absurd hyes hok, fun _ hno => by cases hno⟩⟩
    | wantWrite =>
      rw [hquiet (by simp [shaken, hok]), List.append_nil]
      dsimp only
      split
      · rename_i hwr
        refine ⟨.goesOn hopen hdrained, fun _ => ⟨fun hyes => absurd hyes hok, fun _ _ => ?_⟩⟩
        exact hopen.masks.trans hwr
      · split
        · exact ⟨.goesOn hopen.addWr hdrained, fun _ => ⟨fun _ _ => rfl, fun _ _ => rfl⟩⟩
        · refine ⟨outcome_fail hopen.ctx hopen.sockId (-1) 0, ?_⟩
          intro hnone
          cases hnone
    | failed sslCode =>
      rw [hquiet (by simp [shaken, hok]), List.append_nil]
      refine ⟨outcome_fail hopen.ctx hopen.sockId (-1) sslCode, ?_⟩
      intro hnone
      cases hnone

theorem removeWr_recvPool (h : SslHandshaker β) : h.removeWr.recvPool = h.recvPool := by
  unfold removeWr
  split <;> rfl

theorem Drained.removeWr (hdrained : Drained data h) : Drained data h.removeWr := by
  unfold SslHandshaker.removeWr
  split
  · exact hdrained
  · exact hdrained

/-- Everything is sent. -/
theorem Open.sendDone (hopen : h.Open data toSend written opened) (hok : h.sslOk = true)
    (hdrained : Drained data h) (hsent : written = toSend) (alloc : Bool) :
    Outcome data toSend written opened (h.sendDone data.sockId alloc) := by
  unfold SslHandshaker.sendDone
  dsimp only
  have hremoved := hopen.removeWr
  split
  · exact .goesOn hremoved hdrained.removeWr
  · rename_i hidle
    have hfull := hopen.continuousIdleSize.mp (by omega)
    split
    · exact outcome_fail hremoved.ctx hremoved.sockId (-1) 0
    · rw [hremoved.ctx]
      dsimp only
      have hbuf : h.removeWr.recvPool.peekData h.removeWr.recvPool.peekDataSize = h.recvPool.bytes := by
        rw [removeWr_recvPool]
        unfold RecvPool.peekDataSize
        rw [RecvPool.peekData_spec hopen.wellFormed (Nat.le_refl _),
          ← RecvPool.length_bytes hopen.wellFormed, List.take_length]
      have hsame : h.removeWr.record = h.record ∧ h.removeWr.sslOk = h.sslOk := by
        unfold SslHandshaker.removeWr
        split <;> exact ⟨rfl, rfl⟩
      rw [hbuf, hremoved.unixSocket]
      refine .succeeds rfl rfl rfl (hsame.2.trans hok) hsent hfull ?_
      exact (congrArg (h.recvPool.bytes ++ ·) hsame.1).trans hopen.stream

/-- The application data is written behind the handshake. -/
theorem Open.send (hopen : h.Open data toSend written opened) (hok : h.sslOk = true)
    (hdrained : Drained data h) (result : SslResult) (alloc : Bool) :
    Outcome data toSend
      (written ++ if h.recvFirst && 0 < h.recvPool.continuousIdleSize then [] else h.taken result) opened
      (h.send data.sockId result alloc) := by
  unfold SslHandshaker.send
  dsimp only
  split
  · rw [List.append_nil]
    exact .goesOn hopen.removeWr hdrained.removeWr
  · rename_i hfirst
    split
    · rename_i hnone
      rw [List.isEmpty_iff] at hnone
      have hbytes : h.taken result = [] := by
        unfold taken
        rw [hnone]
        cases result with
        | sent size => exact List.take_nil
        | wantWrite => rfl
        | wantRead => rfl
        | failed sslCode => rfl
      rw [hbytes, List.append_nil]
      exact hopen.sendDone hok hdrained (hopen.sendPool.all_sent hnone).2 alloc
    · cases result with
      | wantWrite =>
        unfold taken
        rw [List.append_nil]
        exact .goesOn hopen hdrained
      | wantRead =>
        unfold taken
        rw [List.append_nil]
        exact .goesOn hopen.removeWr hdrained.removeWr
      | failed sslCode =>
        unfold taken
        rw [List.append_nil]
        exact outcome_fail hopen.ctx hopen.sockId (-1) sslCode
      | sent size =>
        unfold taken
        dsimp only
        split
        · exact outcome_fail hopen.ctx hopen.sockId (-1) sslInternalError
        · rename_i hfits
          split
          · rename_i hzero
            rw [hzero, List.take_zero, List.append_nil]
            exact .goesOn hopen hdrained
          · rename_i hpos
            have hopen' : ∀ (sendPool : SendPool β) (more : List β), sendPool.Sends toSend (written ++ more) →
                Open data toSend (written ++ more) opened { h with sendPool := sendPool } := by
              intro sendPool more hsends
              refine { hopen with sendPool := hsends, shaking := ?_, order := ?_ }
              · intro hshaking
                rw [show h.sslOk = false from hshaking] at hok
                cases hok
              · intro hdata _
                rw [hopen.recvFirst, hdata] at hfirst
                have hidle : h.recvPool.continuousIdleSize = 0 := by simpa using hfirst
                exact Nat.le_of_eq (hopen.continuousIdleSize.mp hidle).symm
            rcases hopen.sendPool.send (Nat.pos_of_ne_zero hpos) (le_of_le_asInt (Int.not_lt.mp hfits))
              with ⟨hnone, hsends⟩ | ⟨buf, hbuf, hempty, hsent⟩
            · rw [hnone]
              exact .goesOn (hopen' _ _ hsends) hdrained
            · rw [hbuf]
              dsimp only
              rw [hempty]
              exact (hopen' SendPool.empty _ (.done hsent)).sendDone hok hdrained hsent alloc

theorem Open.doSend (hopen : h.Open data toSend written opened) (hdrained : Drained data h)
    (shake : HandshakeStep) (result : SslResult) (alloc : Bool) :
    Outcome data toSend (written ++ h.accepts data.sockId shake result) opened
      (h.doSend data.sockId shake result alloc) := by
  have hhears : ¬(h.deaf || decide (h.sockId ≠ some data.sockId)) = true := by
    simp [hopen.not_deaf, hopen.sockId]
  have haccepts : h.shaken data.sockId shake = true →
      h.accepts data.sockId shake result =
        if h.recvFirst && 0 < h.recvPool.continuousIdleSize then [] else h.taken result := by
    intro hshaken
    unfold accepts
    rw [hshaken]
    rfl
  have hquiet : h.shaken data.sockId shake = false → h.accepts data.sockId shake result = [] := by
    intro hshaken
    unfold accepts
    rw [hshaken]
    rfl
  unfold SslHandshaker.doSend
  rw [if_neg hhears]
  by_cases hok : h.sslOk = true
  · rw [if_pos hok, haccepts (by simp [shaken, hopen.not_deaf, hopen.sockId, hok])]
    exact hopen.send hok hdrained result alloc
  · rw [if_neg hok]
    cases shake with
    | done =>
      rw [haccepts (by simp [shaken, hopen.not_deaf, hopen.sockId])]
      exact hopen.shake.send rfl hdrained result alloc
    | wantRead =>
      rw [hquiet (by simp [shaken, hok]), List.append_nil]
      exact .goesOn hopen.removeWr hdrained.removeWr
    | wantWrite =>
      rw [hquiet (by simp [shaken, hok]), List.append_nil]
      exact .goesOn hopen hdrained
    | failed sslCode =>
      rw [hquiet (by simp [shaken, hok]), List.append_nil]
      exact outcome_fail hopen.ctx hopen.sockId (-1) sslCode

theorem accepts_prefix (h : SslHandshaker β) (sockId : Nat) (shake : HandshakeStep) (result : SslResult) :
    h.accepts sockId shake result <+: h.sendPool.preSend := by
  unfold accepts
  split
  · exact List.nil_prefix
  · unfold taken
    split
    · exact List.take_prefix _ _
    · exact List.nil_prefix

/-- With `recvFirst` nothing is accepted before the pool is full. -/
theorem Open.order_accepts (hopen : h.Open data toSend written opened) {sockId : Nat} {shake : HandshakeStep}
    {result : SslResult} (hfirst : data.recvFirst = true) (hsome : h.accepts sockId shake result ≠ []) :
    data.recvDataSize ≤ opened.length := by
  unfold accepts at hsome
  rw [hopen.recvFirst, hfirst] at hsome
  split at hsome
  · exact absurd rfl hsome
  · rename_i hmay
    have hidle : h.recvPool.continuousIdleSize = 0 := by
      simp only [Bool.true_and, Bool.or_eq_true, not_or, decide_eq_true_eq] at hmay
      omega
    have hfull := hopen.continuousIdleSize.mp hidle
    rw [← hopen.stream, List.length_append]
    omega

end SslHandshaker

end Pronet.Net
