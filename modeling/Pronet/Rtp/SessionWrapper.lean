import Pronet.Net.SendOwed
import Pronet.Rtp.Bucket
import Pronet.Rtp.SendReceive

/-! The sending side of `CRtpSessionWrapper` over `CRtpSessionBase` and a TCP or TLS
transport. A call of `SendPacket` holds the lock of the wrapper while it pushes and
while it sends, but the transport runs on between the two. -/
namespace Pronet.Rtp

open Net Library

/-- The session info that sending looks at; `ssl` tells the two transports apart. -/
structure OutInfo where
  kind : TcpKind
  ssl : Bool
  outSrcMmId : UInt32
  mmType : UInt8
  deriving DecidableEq, Repr

/-- A packet with a payload whose ids match the session. -/
structure OutPacket (info : OutInfo) where
  packet : RtpPacket
  payload_pos : 0 < packet.getPayloadSize.toNat
  length_eq : packet.bytes.length = sizeofExt + sizeofHeader + packet.getPayloadSize.toNat
  mmId : info.outSrcMmId = 0 ∨ packet.getMmId = info.outSrcMmId
  mmType : packet.getMmType = info.mmType

theorem OutPacket.ext {info : OutInfo} {p q : OutPacket info} (h : p.packet = q.packet) : p = q := by
  cases p
  cases q
  dsimp only at h
  subst h
  rfl

instance (info : OutInfo) : DecidableEq (OutPacket info) := fun p q =>
  decidable_of_iff (p.packet = q.packet) ⟨OutPacket.ext, congrArg OutPacket.packet⟩

def OutPacket.view (info : OutInfo) : PacketView (OutPacket info) where
  size p := p.packet.getPayloadSize.toNat
  size_pos p := p.payload_pos
  marker p := p.packet.getMarker
  keyFrame p := p.packet.getKeyFrame
  firstPacketOfFrame p := p.packet.getFirstPacketOfFrame

/-- `CRtpSessionBase`; `hasTrans` says that its pointers are not null. -/
structure SessionBase where
  hasTrans : Bool
  onOkCalled : Bool
  canUpcall : Bool
  actionId : UInt64
  deriving DecidableEq, Repr

/-- Where the thread that reports `OnOkSession` stands: the base has set its flag,
the wrapper has set its own, and the request behind the callback is made. -/
inductive OkPhase
  | before
  | started
  | reported
  | done
  deriving DecidableEq, Repr

/-- `isOpen` says that the pointers of the wrapper are not null, and `locked` that a
call of `SendPacket` has pushed and not yet tried to send. -/
structure SendPath (info : OutInfo) (bucket : Bucket (OutPacket info)) where
  trans : TcpTransport UInt8
  base : SessionBase
  isOpen : Bool
  queue : bucket.State
  pushToBucketRet1 : Bool
  packetErased : Bool
  enableOutput : Bool
  onOkCalled : Bool
  okPhase : OkPhase
  locked : Bool
  handed : List (OutPacket info)
  popped : List (OutPacket info)

/-- What happens to a session. `closeSession` is any handler of the session that
gives it up, and `closeTrans` any handler of the transport. -/
inductive SendEvent (info : OutInfo)
  | sendPacket (packet : OutPacket info) (handshaking : Bool)
  | sendFront
  | doHandshake (buf : List UInt8)
  | onHeartbeat
  | okBase
  | okWrapper
  | okRequest
  | requestOnSend
  | onOutput (result : SendResult)
  | doSend (result : SslResult)
  | doRecv (regWr : Bool)
  | upcall
  | deregister
  | leave
  | setOutputRedline (redlineBytes redlineFrames : Nat)
  | enableOutput (enable : Bool)
  | closeTrans
  | closeSession
  | fini

namespace SendPath

variable {info : OutInfo} {bucket : Bucket (OutPacket info)}

def init : SendPath info bucket where
  trans := if info.ssl then TcpTransport.initSsl else TcpTransport.init
  base := ⟨true, false, true, 0⟩
  isOpen := true
  queue := bucket.new
  pushToBucketRet1 := true
  packetErased := false
  enableOutput := true
  onOkCalled := false
  okPhase := .before
  locked := false
  handed := []
  popped := []

def front (s : SendPath info bucket) : Option (OutPacket info) := (bucket.getFront s.queue).2

/-- The session as `TcpSender` sees it. -/
def sender (s : SendPath info bucket) : TcpSender :=
  ⟨info.kind, info.outSrcMmId, info.mmType, s.base.hasTrans, s.base.onOkCalled⟩

/-- `CRtpSessionBase::SendPacket`. -/
def baseSendPacket (s : SendPath info bucket) (packet : OutPacket info) :
    SendPath info bucket × Bool :=
  match s.sender.sendPacket packet.packet with
  | none => (s, false)
  | some buf =>
      let (trans, ret) := s.trans.sendData buf (s.base.actionId + 1)
      ({ s with
          trans := trans
          base := { s.base with actionId := if ret then s.base.actionId + 1 else s.base.actionId } },
        ret)

def baseRequestOnSend (s : SendPath info bucket) : SendPath info bucket :=
  if s.base.hasTrans then { s with trans := s.trans.request } else s

/-- `SendPacketUnlock()`. -/
def sendPacketUnlock (s : SendPath info bucket) : SendPath info bucket × Bool :=
  match bucket.getFront s.queue with
  | (queue, none) => ({ s with queue := queue }, false)
  | (queue, some packet) =>
      match { s with queue := queue }.baseSendPacket packet with
      | (s, false) => (s, false)
      | (s, true) =>
          let (queue, popped) := bucket.popFrontRelease queue packet
          ({ s with
              queue := queue
              handed := s.handed ++ [packet]
              popped := s.popped ++ popped.toList }, true)

/-- `SendPacketUnlock(packet)` up to `GetFront`. The rest is `SendPacketUnlock()`. -/
def pushPacket (s : SendPath info bucket) (packet : OutPacket info) : SendPath info bucket :=
  let (queue, ret2) := bucket.pushBackAddRef s.queue packet
  let erased := s.pushToBucketRet1 && !ret2
  let s' := { s with
    queue := queue
    packetErased := if erased then true
      else if !s.pushToBucketRet1 && ret2 then false else s.packetErased
    pushToBucketRet1 := ret2
    locked := true }
  if erased then s'.baseRequestOnSend else s'

/-- `CRtpSessionWrapper::OnSendSession`, and the flag it reports to the observer. -/
def onSendSession (s : SendPath info bucket) : SendPath info bucket × List Bool :=
  if !s.isOpen then (s, [])
  else
    let (s, ret) := s.sendPacketUnlock
    if ret && !s.packetErased then (s, [])
    else if !s.onOkCalled then (s, [])
    else ({ s with packetErased := false }, [s.packetErased])

/-- `CRtpSessionBase::OnSend` goes on to the wrapper. -/
def passesOnSend (s : SendPath info bucket) : Bool :=
  s.base.hasTrans && s.base.onOkCalled && s.base.canUpcall

/-- The bytes of a heartbeat: an extension or a size field of zeros. -/
def heartbeat (kind : TcpKind) : List UInt8 :=
  if kind.isEx then List.replicate sizeofExt 0 else [0, 0]

def closeBase (s : SendPath info bucket) : SendPath info bucket :=
  { s with base := { s.base with hasTrans := false, canUpcall := false } }

/-- The upcall of `OnOutput`, down to the wrapper. -/
def outputUpcall (s : SendPath info bucket) (locals : OutputLocals) :
    Option (SendPath info bucket × List Bool) :=
  match s.trans.upcallOf locals with
  | some (.onSend _) =>
      if s.passesOnSend then
        if s.locked then none
        else
          let (s, calls) := s.onSendSession
          some ({ s with trans := s.trans.outputUpcall locals }, calls)
      else some ({ s with trans := s.trans.outputUpcall locals }, [])
  | some (.onClose _) => some ({ s.closeBase with trans := s.trans.outputUpcall locals }, [])
  | none => some ({ s with trans := s.trans.outputUpcall locals }, [])

/-- One section. A section of the wrapper waits for its lock; a handler of the
transport starts only when `OnOutput` is not running. -/
def perform (s : SendPath info bucket) : SendEvent info → Option (SendPath info bucket × List Bool)
  | .sendPacket packet handshaking =>
      if s.locked then none
      else if !s.isOpen then some (s, [])
      else if !handshaking && !s.enableOutput then some (s, [])
      else some (s.pushPacket packet, [])
  | .sendFront =>
      if s.locked then some ({ s.sendPacketUnlock.1 with locked := false }, []) else none
  | .doHandshake buf =>
      if s.okPhase = .before && s.base.hasTrans then
        some ({ s with trans := (s.trans.sendData buf 0).1 }, [])
      else none
  | .onHeartbeat =>
      if s.base.hasTrans && s.base.onOkCalled then
        some ({ s with trans := (s.trans.sendData (heartbeat info.kind) 0).1 }, [])
      else some (s, [])
  | .okBase =>
      if s.okPhase = .before && s.base.canUpcall then
        some ({ s with base := { s.base with onOkCalled := true }, okPhase := .started }, [])
      else none
  | .okWrapper =>
      if s.okPhase = .started && !s.locked then
        if s.isOpen then some ({ s with onOkCalled := true, okPhase := .reported }, [])
        else some ({ s with okPhase := .done }, [])
      else none
  | .okRequest =>
      if s.okPhase = .reported && !s.locked then
        some ({ (if s.isOpen then s.baseRequestOnSend else s) with okPhase := .done }, [])
      else none
  | .requestOnSend =>
      if s.locked then none
      else some (if s.isOpen then s.baseRequestOnSend else s, [])
  | .onOutput result =>
      if !info.ssl && s.trans.phase = .idle then
        some ({ s with trans := s.trans.outputLocked result }, [])
      else none
  | .doSend result =>
      if info.ssl && s.trans.phase = .idle then
        some ({ s with trans := s.trans.doSendLocked result }, [])
      else none
  | .doRecv regWr =>
      if info.ssl && s.trans.phase = .idle then
        some ({ s with trans := s.trans.doRecvRegister regWr }, [])
      else none
  | .upcall =>
      match s.trans.phase with
      | .upcall locals => s.outputUpcall locals
      | _ => none
  | .deregister =>
      if s.trans.phase = .deregister then
        some ({ s with trans := s.trans.outputDeregister }, [])
      else none
  | .leave =>
      if s.trans.phase = .leave then some ({ s with trans := s.trans.outputLeave }, []) else none
  | .setOutputRedline redlineBytes redlineFrames =>
      if s.locked then none
      else if !s.isOpen then some (s, [])
      else some ({ s with queue := bucket.setRedline s.queue redlineBytes redlineFrames }, [])
  | .enableOutput enable =>
      if s.locked then none
      else if !s.isOpen || enable = s.enableOutput then some (s, [])
      else
        some ({ s with
            enableOutput := enable
            queue := bucket.reset s.queue
            pushToBucketRet1 := true
            packetErased := false }, [])
  | .closeTrans =>
      if s.trans.phase = .idle then
        some ({ s.closeBase with trans := { s.trans with canUpcall := false, phase := .leave } }, [])
      else none
  | .closeSession => some ({ s.closeBase with trans := s.trans.fini }, [])
  | .fini =>
      if s.locked then none
      else some ({ s.closeBase with trans := s.trans.fini, isOpen := false }, [])

def step (s : SendPath info bucket) (e : SendEvent info) : Option (SendPath info bucket) :=
  (s.perform e).map Prod.fst

/-- None of the three objects has been given up. -/
def Open (s : SendPath info bucket) : Prop :=
  s.isOpen = true ∧ s.base.hasTrans = true ∧ s.base.canUpcall = true ∧
    s.trans.hasObserver = true ∧ s.trans.canUpcall = true

instance (s : SendPath info bucket) : Decidable s.Open := by
  unfold Open
  infer_instance

end SendPath

end Pronet.Rtp
