import Mathlib

/-! The sending side of `CProTcpTransport`: `CProSendPool`, `SendData`, `SendFd`,
`RequestOnSend` and `OnOutput`. Every section under `m_lock` is a function of its
own, because other threads run between the sections. -/
namespace Pronet.Net

variable {β : Type*}

/-- The buffers waiting to be sent and the offset in the first of them. -/
structure SendPool (β : Type*) where
  bufs : List (List β)
  pendingPos : Option Nat
  deriving DecidableEq, Repr

namespace SendPool

def empty : SendPool β := ⟨[], none⟩

def fill (p : SendPool β) (buf : List β) : SendPool β :=
  if buf.isEmpty then p
  else
    { bufs := p.bufs ++ [buf]
      pendingPos := if (p.bufs ++ [buf]).length = 1 then some 0 else p.pendingPos }

/-- What is left of the first buffer; nothing stands for the null pointer. -/
def preSend (p : SendPool β) : List β :=
  match p.bufs with
  | [] => []
  | buf :: _ => buf.drop (p.pendingPos.getD 0)

def flush (p : SendPool β) (size : Nat) : SendPool β :=
  match p.bufs with
  | [] => p
  | buf :: _ =>
      if size = 0 || buf.length < p.pendingPos.getD 0 + size then p
      else { p with pendingPos := some (p.pendingPos.getD 0 + size) }

/-- The first buffer, once all of it is sent. -/
def onSendBuf (p : SendPool β) : Option (List β) :=
  match p.bufs with
  | [] => none
  | buf :: _ => if p.pendingPos.getD 0 ≠ buf.length then none else some buf

def postSend (p : SendPool β) : SendPool β :=
  match p.bufs with
  | [] => p
  | buf :: bufs =>
      if p.pendingPos.getD 0 ≠ buf.length then p
      else ⟨bufs, if bufs.isEmpty then none else some 0⟩

end SendPool

/-- What `pbsd_send` or `pbsd_sendmsg` returns: a size, or -1 with `errno`. -/
inductive SendResult
  | sent (size : Nat)
  | failed (errno : Int)
  deriving DecidableEq, Repr

/-- `PBSD_EWOULDBLOCK`. -/
def ewouldblock : Int := 11

/-- The locals of `OnOutput` behind its first section; `error` says that
`sentSize < 0` for another reason than `EWOULDBLOCK`. -/
structure OutputLocals where
  error : Option Int
  onSendBuf : Bool
  requestOnSend : Bool
  actionId : UInt64
  deriving DecidableEq, Repr

/-- Where `OnOutput` stands. It runs under `m_lockUpcall`, so that there is at
most one of it at a time. -/
inductive OutputPhase
  | idle
  | upcall (locals : OutputLocals)
  | deregister
  | leave
  deriving DecidableEq, Repr

/-- `hasObserver` says that `m_observer` and `m_reactorTask` are not null, and
`registeredWr` that the reactor has the handler under `PRO_MASK_WRITE`. -/
structure TcpTransport (β : Type*) where
  hasObserver : Bool
  onWr : Bool
  pendingWr : Bool
  requestOnSend : Bool
  actionId : UInt64
  sendingFd : Option Int
  sendPool : SendPool β
  canUpcall : Bool
  registeredWr : Bool
  phase : OutputPhase
  deriving DecidableEq, Repr

namespace TcpTransport

/-- A transport after `Init`. -/
def init : TcpTransport β :=
  ⟨true, false, false, false, 0, none, SendPool.empty, true, false, .idle⟩

/-- `AddHandler(m_sockId, this, PRO_MASK_WRITE)` unless it is there already. -/
def addWr (t : TcpTransport β) : TcpTransport β :=
  if t.onWr then t else { t with registeredWr := true, onWr := true }

def removeWr (t : TcpTransport β) : TcpTransport β := { t with registeredWr := false, onWr := false }

def sendData (t : TcpTransport β) (buf : List β) (actionId : UInt64) : TcpTransport β × Bool :=
  if buf.isEmpty then (t, false)
  else if !t.hasObserver then (t, false)
  else if t.pendingWr then (t, false)
  else
    let t := t.addWr
    ({ t with sendPool := t.sendPool.fill buf, pendingWr := true, actionId := actionId }, true)

/-- `buf` is the service packet and `fd` its `s2c.oldSock.sockId`. -/
def sendFd (t : TcpTransport β) (buf : List β) (fd : Int) : TcpTransport β × Bool :=
  if fd = -1 then (t, false)
  else if !t.hasObserver then (t, false)
  else if t.pendingWr then (t, false)
  else
    let t := t.addWr
    ({ t with sendPool := t.sendPool.fill buf, sendingFd := some fd, pendingWr := true }, true)

/-- `RequestOnSend`. -/
def request (t : TcpTransport β) : TcpTransport β :=
  if !t.hasObserver then t
  else if t.requestOnSend then t
  else { t.addWr with requestOnSend := true }

/-- The bytes that a call of `pbsd_send` takes from the front of the pool. -/
def sentBytes (t : TcpTransport β) : SendResult → List β
  | .sent size => if size ≤ t.sendPool.preSend.length then t.sendPool.preSend.take size else []
  | .failed _ => []

/-- The branch of `OnOutput` with `pbsd_send`: the error, if any, and whether the
first buffer is now sent. -/
def outputData (t : TcpTransport β) : SendResult → TcpTransport β × Option Int × Bool
  | .sent size =>
      if t.sendPool.preSend.length < size then (t, some (-1), false)
      else if size = 0 then (t, none, false)
      else
        let t := { t with sendPool := t.sendPool.flush size }
        match t.sendPool.onSendBuf with
        | none => (t, none, false)
        | some _ => ({ t with sendPool := t.sendPool.postSend, pendingWr := false }, none, true)
  | .failed errno => (t, if errno = ewouldblock then none else some errno, false)

/-- The branch with `pbsd_sendmsg`. The packet stays in the pool. -/
def outputFd (t : TcpTransport β) (result : SendResult) : TcpTransport β × Option Int × Bool :=
  ({ t with sendingFd := none },
    if result = .sent t.sendPool.preSend.length then none else some (-1), false)

/-- The end of the first section: take over the request and the action id. -/
def takeLocals (t : TcpTransport β) (error : Option Int) (onSendBuf : Bool) : TcpTransport β :=
  { t with
    requestOnSend := false
    actionId := if onSendBuf then 0 else t.actionId
    phase := .upcall ⟨error, onSendBuf, t.requestOnSend, if onSendBuf then t.actionId else 0⟩ }

/-- The first section of `OnOutput`. -/
def outputLocked (t : TcpTransport β) (result : SendResult) : TcpTransport β :=
  if !t.hasObserver then t
  else if t.sendPool.preSend.isEmpty then
    let t := { t with pendingWr := false }
    if !t.requestOnSend then
      if t.onWr then t.removeWr else t
    else t.takeLocals none false
  else if t.sendingFd = none then
    let (t, error, onSendBuf) := t.outputData result
    t.takeLocals error onSendBuf
  else
    let (t, error, onSendBuf) := t.outputFd result
    t.takeLocals error onSendBuf

/-- Which upcall `OnOutput` makes. -/
inductive Upcall
  | onClose (errorCode : Int)
  | onSend (actionId : UInt64)
  deriving DecidableEq, Repr

def upcallOf (t : TcpTransport β) (locals : OutputLocals) : Option Upcall :=
  if t.canUpcall then
    match locals.error with
    | some errorCode => some (.onClose errorCode)
    | none =>
        if locals.onSendBuf || locals.requestOnSend then some (.onSend locals.actionId) else none
  else none

def outputUpcall (t : TcpTransport β) (locals : OutputLocals) : TcpTransport β :=
  match t.upcallOf locals with
  | some (.onClose _) => { t with canUpcall := false, phase := .leave }
  | some (.onSend _) => { t with phase := .deregister }
  | none => { t with phase := .leave }

/-- The second section of `OnOutput`, from the flags as they are now. -/
def outputDeregister (t : TcpTransport β) : TcpTransport β :=
  let t := { t with phase := .leave }
  if t.hasObserver && t.onWr && !t.pendingWr && !t.requestOnSend then t.removeWr else t

def fini (t : TcpTransport β) : TcpTransport β :=
  if t.hasObserver then { t with hasObserver := false, registeredWr := false } else t

/-- The end of `OnOutput`. -/
def outputLeave (t : TcpTransport β) : TcpTransport β :=
  let t := { t with phase := .idle }
  if !t.canUpcall then t.fini else t

end TcpTransport

end Pronet.Net
