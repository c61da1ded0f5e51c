import Pronet.Net.RecvQueue
import Pronet.Net.TcpTransport

/-! `CProTcpHandshaker`: it sends some bytes, receives a fixed number of bytes, and then
gives the socket to its observer. Each handler chooses its callback in a section under
`m_lock` and makes it behind the section. -/
namespace Pronet.Net

variable {β : Type*}

/-- What `pbsd_recv` returns: bytes, none at the end of the stream, or -1 with `errno`. -/
inductive RecvResult (β : Type*)
  | received (bytes : List β)
  | failed (errno : Int)
  deriving DecidableEq, Repr

/-- A `size_t` where an `int` is expected. -/
def asInt (size : Nat) : Int := Int.bmod size (2 ^ 32)

theorem le_of_le_asInt {count size : Nat} (h : (count : Int) ≤ asInt size) : count ≤ size := by
  have hmod : asInt size ≤ (size : Int) % (2 ^ 32 : Nat) := by
    unfold asInt Int.bmod
    dsimp only
    split <;> omega
  omega

namespace SendPool

/-- One buffer has been filled in, and `written` is what has been sent of it. -/
inductive Sends (data written : List β) : SendPool β → Prop
  | rest {pos : Nat} (hpos : pos < data.length) (hwritten : written = data.take pos) :
      Sends data written ⟨[data], some pos⟩
  | done (hwritten : written = data) : Sends data written empty

variable {data written : List β} {p : SendPool β}

theorem sends_fill (data : List β) : (empty.fill data).Sends data [] := by
  unfold fill
  split
  · rename_i hempty
    exact .done (List.isEmpty_iff.mp hempty).symm
  · rename_i hne
    rw [List.isEmpty_iff] at hne
    exact .rest (List.length_pos_iff.mpr hne) rfl

theorem Sends.preSend (h : p.Sends data written) : written ++ p.preSend = data := by
  cases h with
  | rest hpos hwritten =>
    rw [hwritten]
    exact List.take_append_drop _ data
  | done hwritten => exact (List.append_nil written).trans hwritten

theorem Sends.all_sent (h : p.Sends data written) (hnone : p.preSend = []) :
    p = empty ∧ written = data := by
  cases h with
  | rest hpos hwritten =>
    have hlength := congrArg List.length hnone
    simp only [SendPool.preSend, Option.getD_some, List.length_drop, List.length_nil] at hlength
    omega
  | done hwritten => exact ⟨rfl, hwritten⟩

/-- A part of the rest is sent, or all of it. -/
theorem Sends.send (h : p.Sends data written) {size : Nat} (hpos : 0 < size)
    (hsize : size ≤ p.preSend.length) :
    ((p.flush size).onSendBuf = none ∧
      (p.flush size).Sends data (written ++ p.preSend.take size)) ∨
    (∃ buf, (p.flush size).onSendBuf = some buf ∧ (p.flush size).postSend = empty ∧
      written ++ p.preSend.take size = data) := by
  cases h with
  | done hwritten =>
    simp only [SendPool.preSend, empty, List.length_nil] at hsize
    omega
  | rest hlt hwritten =>
    rename_i pos
    have hrest : SendPool.preSend ⟨[data], some pos⟩ = data.drop pos := rfl
    rw [hrest, List.length_drop] at hsize
    have hsent : written ++ (data.drop pos).take size = data.take (pos + size) := by
      rw [hwritten, List.take_add]
    have hflush : flush ⟨[data], some pos⟩ size = ⟨[data], some (pos + size)⟩ := by
      simp only [flush, Option.getD_some]
      rw [if_neg]
      simp only [Bool.or_eq_true, decide_eq_true_eq]
      omega
    rw [hrest, hflush, hsent]
    by_cases hall : pos + size = data.length
    · right
      refine ⟨data, ?_, ?_, ?_⟩
      · simp [onSendBuf, hall]
      · simp [postSend, hall, empty]
      · exact List.take_of_length_le (Nat.le_of_eq hall.symm)
    · left
      refine ⟨?_, .rest (by omega) rfl⟩
      simp [onSendBuf, hall]

end SendPool

/-- What `Init` is given. No data to send is an empty list. -/
structure HandshakeData (β : Type*) where
  sockId : Nat
  sendData : List β
  recvDataSize : Nat
  recvFirst : Bool
  deriving DecidableEq, Repr

/-- What the environment answers to `Init`: whether the two buffers can be allocated and
the handler can be added, what stands in the memory, and the id of the timer. -/
structure HandshakeEnv (β : Type*) where
  sendAlloc : Bool
  recvAlloc : Bool
  memory : Nat → β
  added : Bool
  timerId : Nat

/-- What the observer is called with. -/
inductive HandshakeCall (β : Type*)
  | onHandshakeOk (sockId : Nat) (buf : List β)
  | onHandshakeError (errorCode : Int)
  deriving DecidableEq, Repr

/-- `registeredRd` and `registeredWr` are the masks under which the reactor has the
handler. -/
structure TcpHandshaker (β : Type*) where
  hasObserver : Bool
  sockId : Option Nat
  recvPool : RecvPool β
  sendPool : SendPool β
  timerId : Nat
  registeredRd : Bool
  registeredWr : Bool

/-- A pool without a buffer. -/
def RecvPool.unsized (memory : Nat → β) : RecvPool β := ⟨0, memory, none, 0, none, 0⟩

namespace RecvPool

theorem wellFormed_unsized (memory : Nat → β) : (unsized memory).WellFormed := by
  constructor <;> simp [unsized]

/-- Only a full pool has no idle space. -/
theorem continuousIdleSize_eq_zero {p : RecvPool β} (h : p.WellFormed) :
    p.continuousIdleSize = 0 ↔ p.bytes.length = p.size := by
  have hsum := h.sum
  rw [length_bytes h]
  constructor
  · intro hzero
    by_contra hne
    have := continuousIdleSize_pos h (by omega)
    omega
  · intro hfull
    have hidle := h.idle_none.mpr (by omega)
    unfold continuousIdleSize
    rw [hidle]
    dsimp only
    omega

end RecvPool

namespace TcpHandshaker

/-- The masks of `Init`: `PRO_MASK_READ` and `PRO_MASK_WRITE`. -/
def initMask (data : HandshakeData β) : Bool × Bool :=
  if data.recvDataSize = 0 then (false, true)
  else if data.sendData.isEmpty then (true, false)
  else if data.recvFirst then (true, false)
  else (true, true)

/-- `Fill` keeps silent about a buffer it cannot allocate. -/
def init (data : HandshakeData β) (env : HandshakeEnv β) : Option (TcpHandshaker β) :=
  let sendPool := if env.sendAlloc then SendPool.empty.fill data.sendData else SendPool.empty
  if 0 < data.recvDataSize && !env.recvAlloc then none
  else if !env.added then none
  else
    let (registeredRd, registeredWr) := initMask data
    some {
      hasObserver := true
      sockId := some data.sockId
      recvPool := if data.recvDataSize = 0 then .unsized env.memory
        else .resize data.recvDataSize env.memory
      sendPool := sendPool
      timerId := env.timerId
      registeredRd := registeredRd
      registeredWr := registeredWr }

/-- Every handler ends so when it has chosen a callback. -/
def leave (h : TcpHandshaker β) : TcpHandshaker β :=
  { h with timerId := 0, registeredRd := false, registeredWr := false, hasObserver := false }

def fini (h : TcpHandshaker β) : TcpHandshaker β := if h.hasObserver then h.leave else h

/-- The callback is behind the section. -/
def onInput (h : TcpHandshaker β) (sockId : Nat) (result : RecvResult β) (added : Bool) :
    TcpHandshaker β × Option (HandshakeCall β) :=
  if !h.hasObserver || h.sockId ≠ some sockId then (h, none)
  else
    let idleSize := h.recvPool.continuousIdleSize
    if idleSize = 0 then ({ h with registeredRd := false }, none)
    else
      match result with
      | .failed errno =>
          if errno = ewouldblock then (h, none) else (h.leave, some (.onHandshakeError errno))
      | .received bytes =>
          if asInt idleSize < bytes.length then (h.leave, some (.onHandshakeError (-1)))
          else if bytes.isEmpty then (h.leave, some (.onHandshakeError 0))
          else
            let h := { h with recvPool := h.recvPool.receive bytes }
            if 0 < h.recvPool.continuousIdleSize then (h, none)
            else if added then ({ h with registeredRd := false, registeredWr := true }, none)
            else (h.leave, some (.onHandshakeError (-1)))

/-- The end of `OnOutput`, once everything is sent. `alloc` says that the copy of the
received bytes can be allocated. -/
def outputSent (h : TcpHandshaker β) (sockId : Nat) (alloc : Bool) :
    TcpHandshaker β × Option (HandshakeCall β) :=
  let h := { h with registeredWr := false }
  if 0 < h.recvPool.continuousIdleSize then (h, none)
  else
    let size := h.recvPool.peekDataSize
    if 0 < size && !alloc then (h.leave, some (.onHandshakeError (-1)))
    else
      ({ h.leave with sockId := none }, some (.onHandshakeOk sockId (h.recvPool.peekData size)))

/-- The bytes that `pbsd_recv` yields in `OnInput`. -/
def inputBytes (h : TcpHandshaker β) (sockId : Nat) : RecvResult β → List β
  | .received bytes =>
      if !h.hasObserver || h.sockId ≠ some sockId || h.recvPool.continuousIdleSize = 0 then []
      else bytes
  | .failed _ => []

/-- The bytes that `pbsd_send` takes in `OnOutput`. -/
def outputBytes (h : TcpHandshaker β) (sockId : Nat) : SendResult → List β
  | .sent size =>
      if !h.hasObserver || h.sockId ≠ some sockId then [] else h.sendPool.preSend.take size
  | .failed _ => []

def onOutput (h : TcpHandshaker β) (sockId : Nat) (result : SendResult) (alloc : Bool) :
    TcpHandshaker β × Option (HandshakeCall β) :=
  if !h.hasObserver || h.sockId ≠ some sockId then (h, none)
  else
    let theBuf := h.sendPool.preSend
    if theBuf.isEmpty then h.outputSent sockId alloc
    else
      match result with
      | .failed errno =>
          if errno = ewouldblock then (h, none) else (h.leave, some (.onHandshakeError errno))
      | .sent size =>
          if asInt theBuf.length < size then (h.leave, some (.onHandshakeError (-1)))
          else if size = 0 then (h, none)
          else
            let sendPool := h.sendPool.flush size
            match sendPool.onSendBuf with
            | none => ({ h with sendPool := sendPool }, none)
            | some _ => { h with sendPool := sendPool.postSend }.outputSent sockId alloc

def onError (h : TcpHandshaker β) (sockId : Nat) (errorCode : Int) :
    TcpHandshaker β × Option (HandshakeCall β) :=
  if !h.hasObserver || h.sockId ≠ some sockId then (h, none)
  else (h.leave, some (.onHandshakeError errorCode))

/-- `PBSD_ETIMEDOUT`. -/
def etimedout : Int := 110

def onTimer (h : TcpHandshaker β) (timerId : Nat) : TcpHandshaker β × Option (HandshakeCall β) :=
  if timerId = 0 || !h.hasObserver || timerId ≠ h.timerId then (h, none)
  else (h.leave, some (.onHandshakeError etimedout))

/-- The destructor, with the socket that it closes. -/
def destroy (h : TcpHandshaker β) : TcpHandshaker β × Option Nat :=
  ({ h.fini with sockId := none }, h.sockId)

/-- The data that `Init` has put into the send pool. -/
def filled (data : HandshakeData β) (env : HandshakeEnv β) : List β :=
  if env.sendAlloc then data.sendData else []

/-- A handshaker that has not chosen its callback. -/
structure Open (data : HandshakeData β) (toSend written received : List β) (h : TcpHandshaker β) :
    Prop where
  hasObserver : h.hasObserver = true
  sockId : h.sockId = some data.sockId
  sendPool : h.sendPool.Sends toSend written
  wellFormed : h.recvPool.WellFormed
  bytes : h.recvPool.bytes = received
  size : h.recvPool.size = data.recvDataSize
  read : h.registeredRd = true ↔ received.length < data.recvDataSize
  write : received.length = data.recvDataSize ∨
    (h.sendPool.preSend ≠ [] ∧ data.recvFirst = false) → h.registeredWr = true
  waits : data.recvFirst = true → h.registeredWr = true → received.length = data.recvDataSize

/-- How a section leaves a handshaker, and the callback it has chosen. -/
inductive Outcome (data : HandshakeData β) (toSend written received : List β) :
    TcpHandshaker β × Option (HandshakeCall β) → Prop
  | goesOn {h : TcpHandshaker β} (hopen : h.Open data toSend written received) :
      Outcome data toSend written received (h, none)
  | fails {h : TcpHandshaker β} (hclosed : h.hasObserver = false)
      (hsock : h.sockId = some data.sockId) (errorCode : Int) :
      Outcome data toSend written received (h, some (.onHandshakeError errorCode))
  | succeeds {h : TcpHandshaker β} (hclosed : h.hasObserver = false) (hsock : h.sockId = none)
      (hsent : written = toSend) (hreceived : received.length = data.recvDataSize) :
      Outcome data toSend written received (h, some (.onHandshakeOk data.sockId received))

variable {data : HandshakeData β} {toSend written received : List β} {h : TcpHandshaker β}

theorem Open.continuousIdleSize (hopen : h.Open data toSend written received) :
    h.recvPool.continuousIdleSize = 0 ↔ received.length = data.recvDataSize := by
  rw [RecvPool.continuousIdleSize_eq_zero hopen.wellFormed, hopen.bytes, hopen.size]

theorem Open.length_le (hopen : h.Open data toSend written received) :
    received.length ≤ data.recvDataSize := by
  have hsum := hopen.wellFormed.sum
  rw [← hopen.bytes, RecvPool.length_bytes hopen.wellFormed, ← hopen.size]
  omega

theorem outcome_leave (hsock : h.sockId = some data.sockId) (errorCode : Int) :
    Outcome data toSend written received (h.leave, some (.onHandshakeError errorCode)) :=
  .fails (h := h.leave) rfl hsock errorCode

theorem added_of_init {env : HandshakeEnv β} (hinit : init data env = some h) : env.added = true := by
  unfold init at hinit
  dsimp only at hinit
  split at hinit
  · cases hinit
  · split at hinit
    · cases hinit
    · rename_i hadded
      simpa using hadded

theorem alloc_of_init {env : HandshakeEnv β} (hinit : init data env = some h)
    (hsize : 0 < data.recvDataSize) : env.recvAlloc = true := by
  unfold init at hinit
  dsimp only at hinit
  split at hinit
  · cases hinit
  · rename_i halloc
    simpa [hsize] using halloc

theorem open_init {env : HandshakeEnv β} (hinit : init data env = some h) :
    h.Open data (filled data env) [] [] := by
  unfold init at hinit
  dsimp only at hinit
  split at hinit
  · cases hinit
  · split at hinit
    · cases hinit
    · cases hinit
      have hsends : (if env.sendAlloc = true then SendPool.empty.fill data.sendData
          else SendPool.empty).Sends (filled data env) [] := by
        unfold filled
        split
        · exact SendPool.sends_fill data.sendData
        · exact .done rfl
      refine ⟨rfl, rfl, hsends, ?_, ?_, ?_, ?_, ?_, ?_⟩
      · dsimp only
        split
        · exact RecvPool.wellFormed_unsized _
        · rename_i hsize
          exact RecvPool.wellFormed_resize (Nat.pos_of_ne_zero hsize) _
      · dsimp only
        split <;> rfl
      · dsimp only
        split
        · rename_i hsize
          exact hsize.symm
        · rfl
      · simp only [initMask, List.length_nil]
        split_ifs <;> simp <;> omega
      · simp only [initMask, List.length_nil]
        rintro (hsize | ⟨hpre, hfirst⟩)
        · rw [if_pos hsize.symm]
        · have hsend : data.sendData ≠ [] := by
            rintro hnil
            have hall := hsends.preSend
            rw [List.nil_append] at hall
            apply hpre
            rw [hall]
            unfold filled
            rw [hnil]
            split <;> rfl
          simp only [hfirst, List.isEmpty_iff, hsend, Bool.false_eq_true, if_false]
          split <;> rfl
      · intro hfirst hwr
        simp only [initMask, hfirst] at hwr
        split_ifs at hwr with hsize
        exact hsize.symm

theorem Open.onInput (hopen : h.Open data toSend written received) (sockId : Nat)
    (result : RecvResult β) (added : Bool) :
    Outcome data toSend written (received ++ h.inputBytes sockId result)
      (h.onInput sockId result added) := by
  unfold TcpHandshaker.onInput
  by_cases hsock : h.sockId = some sockId
  swap
  · have hbytes : h.inputBytes sockId result = [] := by
      cases result <;> simp [inputBytes, hsock]
    rw [hbytes, List.append_nil, if_pos (by simp [hsock])]
    exact .goesOn hopen
  rw [if_neg (by simp [hopen.hasObserver, hsock])]
  dsimp only
  split
  · rename_i hidle
    have hbytes : h.inputBytes sockId result = [] := by
      cases result <;> simp [inputBytes, hidle]
    have hfull := hopen.continuousIdleSize.mp hidle
    rw [hbytes, List.append_nil]
    refine .goesOn { hopen with read := ?_ }
    rw [hfull]
    simp
  · rename_i hidle
    cases result with
    | failed errno =>
      dsimp only
      split
      · exact .goesOn (by simpa [inputBytes] using hopen)
      · exact outcome_leave hopen.sockId errno
    | received bytes =>
      have hbytes : h.inputBytes sockId (.received bytes) = bytes := by
        simp [inputBytes, hopen.hasObserver, hsock, hidle]
      rw [hbytes]
      dsimp only
      split
      · exact outcome_leave hopen.sockId (-1)
      · rename_i hfits
        split
        · exact outcome_leave hopen.sockId 0
        · rename_i hne
          rw [List.isEmpty_iff] at hne
          obtain ⟨hwell, hqueue, hsize⟩ := RecvPool.receive_spec hopen.wellFormed hne
            (le_of_le_asInt (Int.not_lt.mp hfits))
          rw [hopen.bytes] at hqueue
          rw [hopen.size] at hsize
          have hmissing : received.length < data.recvDataSize :=
            Nat.lt_of_le_of_ne hopen.length_le fun hfull => hidle (hopen.continuousIdleSize.mpr hfull)
          have hfull : (h.recvPool.receive bytes).continuousIdleSize = 0 ↔
              (received ++ bytes).length = data.recvDataSize := by
            rw [RecvPool.continuousIdleSize_eq_zero hwell, hqueue, hsize]
          have hle : (received ++ bytes).length ≤ data.recvDataSize := by
            have hsum := hwell.sum
            rw [← hqueue, RecvPool.length_bytes hwell, ← hsize]
            omega
          split
          · rename_i hmore
            have hstill : (received ++ bytes).length < data.recvDataSize :=
              Nat.lt_of_le_of_ne hle fun heq => by omega
            refine .goesOn { hopen with
              wellFormed := hwell, bytes := hqueue, size := hsize, read := ?_, write := ?_, waits := ?_ }
            · exact ⟨fun _ => hstill, fun _ => hopen.read.mpr hmissing⟩
            · rintro (hdone | hpre)
              · omega
              · exact hopen.write (Or.inr hpre)
            · intro hfirst hwr
              have := hopen.waits hfirst hwr
              omega
          · rename_i hdone
            have hcomplete := hfull.mp (by omega)
            split
            · refine .goesOn { hopen with
                wellFormed := hwell, bytes := hqueue, size := hsize, read := ?_,
                write := fun _ => rfl, waits := fun _ _ => hcomplete }
              rw [hcomplete]
              simp
            · apply outcome_leave
              exact hopen.sockId

/-- Everything is sent, and the handler is called back under `PRO_MASK_WRITE`. -/
theorem Open.outputSent (hopen : h.Open data toSend written received) {sendPool : SendPool β}
    {written' : List β} (hempty : sendPool = SendPool.empty) (hsent : written' = toSend)
    (alloc : Bool) :
    Outcome data toSend written' received
      ({ h with sendPool := sendPool }.outputSent data.sockId alloc) := by
  subst hempty hsent
  unfold TcpHandshaker.outputSent
  dsimp only
  split
  · rename_i hidle
    have hmissing : received.length < data.recvDataSize :=
      Nat.lt_of_le_of_ne hopen.length_le fun hfull => by
        have := hopen.continuousIdleSize.mpr hfull
        omega
    refine .goesOn { hopen with sendPool := .done rfl, write := ?_, waits := ?_ }
    · rintro (hdone | ⟨hpre, -⟩)
      · omega
      · exact absurd rfl hpre
    · intro _ hwr
      cases hwr
  · rename_i hidle
    have hcomplete := hopen.continuousIdleSize.mp (by omega)
    split
    · apply outcome_leave
      exact hopen.sockId
    · have hbuf : h.recvPool.peekData h.recvPool.peekDataSize = received := by
        unfold RecvPool.peekDataSize
        rw [RecvPool.peekData_spec hopen.wellFormed (Nat.le_refl _),
          ← RecvPool.length_bytes hopen.wellFormed, hopen.bytes, List.take_length]
      rw [hbuf]
      exact .succeeds rfl rfl rfl hcomplete

theorem Open.onOutput (hopen : h.Open data toSend written received) (sockId : Nat)
    (result : SendResult) (alloc : Bool) :
    Outcome data toSend (written ++ h.outputBytes sockId result) received
      (h.onOutput sockId result alloc) := by
  unfold TcpHandshaker.onOutput
  by_cases hsock : h.sockId = some sockId
  swap
  · have hbytes : h.outputBytes sockId result = [] := by
      cases result <;> simp [outputBytes, hsock]
    rw [hbytes, List.append_nil, if_pos (by simp [hsock])]
    exact .goesOn hopen
  have hown : sockId = data.sockId := Option.some.inj (hsock.symm.trans hopen.sockId)
  subst hown
  rw [if_neg (by simp [hopen.hasObserver, hsock])]
  dsimp only
  split
  · rename_i hnone
    rw [List.isEmpty_iff] at hnone
    have hbytes : h.outputBytes data.sockId result = [] := by
      cases result <;> simp [outputBytes, hnone]
    rw [hbytes, List.append_nil]
    obtain ⟨hpool, hsent⟩ := hopen.sendPool.all_sent hnone
    exact hopen.outputSent hpool hsent alloc
  · rename_i hrest
    cases result with
    | failed errno =>
      dsimp only
      split
      · exact .goesOn (by simpa [outputBytes] using hopen)
      · exact outcome_leave hopen.sockId errno
    | sent size =>
      have hbytes : h.outputBytes data.sockId (.sent size) = h.sendPool.preSend.take size := by
        simp [outputBytes, hopen.hasObserver, hsock]
      rw [hbytes]
      dsimp only
      split
      · exact outcome_leave hopen.sockId (-1)
      · rename_i hfits
        split
        · rename_i hzero
          rw [hzero, List.take_zero, List.append_nil]
          exact .goesOn hopen
        · rename_i hpos
          rcases hopen.sendPool.send (Nat.pos_of_ne_zero hpos) (le_of_le_asInt (Int.not_lt.mp hfits))
            with ⟨hnone, hsends⟩ | ⟨buf, hbuf, hempty, hsent⟩
          · rw [hnone]
            refine .goesOn { hopen with sendPool := hsends, write := ?_ }
            rintro (hdone | ⟨-, hfirst⟩)
            · exact hopen.write (Or.inl hdone)
            · rw [List.isEmpty_iff] at hrest
              exact hopen.write (Or.inr ⟨hrest, hfirst⟩)
          · rw [hbuf]
            exact hopen.outputSent hempty hsent alloc

theorem Open.onError (hopen : h.Open data toSend written received) (sockId : Nat) (errorCode : Int) :
    Outcome data toSend written received (h.onError sockId errorCode) := by
  unfold TcpHandshaker.onError
  split
  · exact .goesOn hopen
  · exact outcome_leave hopen.sockId errorCode

theorem Open.onTimer (hopen : h.Open data toSend written received) (timerId : Nat) :
    Outcome data toSend written received (h.onTimer timerId) := by
  unfold TcpHandshaker.onTimer
  split
  · exact .goesOn hopen
  · exact outcome_leave hopen.sockId etimedout

end TcpHandshaker

end Pronet.Net
