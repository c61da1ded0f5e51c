import Pronet.Net.HandOver

/-! A pipe that passes descriptors, and a peer that receives them. Every packet is
written twice, the second time without a descriptor, and the peer skips that copy. -/
namespace Pronet.Net

open Library Runs TcpTransport

/-- What one call has written, and the descriptor attached, under its sender's number. -/
structure FdMessage where
  bytes : List (ServicePacket × Nat)
  fd : Option Int
  deriving DecidableEq, Repr

/-- The packet that `pbsd_recvmsg` has read, if it is one with its magic. -/
def FdMessage.packet (message : FdMessage) : Option ServicePacket :=
  match message.bytes.head? with
  | none => none
  | some (packet, _) => if message.bytes = packet.bytes then some packet else none

/-- Where `OnInputFd` stands, and what it has read; nothing stands for `fd == -1`. -/
inductive InputFdPhase
  | idle
  | upcall (arrived : Option (ServicePacket × Int))
  | leave
  deriving DecidableEq, Repr

/-- The transport of the peer in `recvFdMode`, and whether its pipe still has it. -/
structure FdReceiver where
  hasObserver : Bool
  canUpcall : Bool
  hasTrans : Bool
  phase : InputFdPhase
  deriving DecidableEq, Repr

namespace FdReceiver

def init : FdReceiver := ⟨true, true, true, .idle⟩

/-- The first section of `OnInputFd`. Without a message `pbsd_recvmsg` has failed, or the
connection has ended. The number of a new descriptor is not negative. -/
def inputFdLocked (r : FdReceiver) (message : Option FdMessage) : FdReceiver :=
  if !r.hasObserver then r
  else
    match message with
    | none => { r with phase := .upcall none }
    | some message =>
        match message.packet with
        | none => { r with phase := .upcall none }
        | some packet =>
            match message.fd with
            | none => r
            | some fd => { r with phase := .upcall (some (packet, fd)) }

/-- `OnRecvFd` of the peer's pipe, if it is called. -/
def onRecvFd (r : FdReceiver) (arrived : Option (ServicePacket × Int)) :
    List (ServicePacket × Int) :=
  if r.canUpcall then arrived.toList else []

def inputFdUpcall (r : FdReceiver) (arrived : Option (ServicePacket × Int)) : FdReceiver :=
  { r with canUpcall := r.canUpcall && arrived.isSome, phase := .leave }

/-- The end of `OnInputFd`. -/
def inputFdLeave (r : FdReceiver) : FdReceiver :=
  { r with hasObserver := r.hasObserver && r.canUpcall, phase := .idle }

end FdReceiver

/-- `given` are the calls of the pipe's `SendFd`, `received` those of the peer's `OnRecvFd`,
and `passedOn` those of its observer. -/
structure FdLink where
  pipe : PipeState
  wire : List FdMessage
  receiver : FdReceiver
  given : List ServicePacket
  received : List (ServicePacket × Int)
  passedOn : List (ServicePacket × Int)
  deriving DecidableEq

/-- `close` is any other handler that gives up the connection. -/
inductive FdEvent
  | sendFd (packet : ServicePacket)
  | output (blocked : Bool)
  | upcall
  | deregister
  | leave
  | close
  | finiPipe
  | finiTrans
  | input
  | inputUpcall
  | inputLeave
  | peerFiniPipe
  | peerFiniTrans
  deriving DecidableEq, Repr

namespace FdLink

def init : FdLink := ⟨PipeState.init, [], FdReceiver.init, [], [], []⟩

/-- `pbsd_sendmsg` succeeds, and `pbsd_send` writes all or nothing. -/
def sendResult (t : TcpTransport (ServicePacket × Nat)) (blocked : Bool) : SendResult :=
  if t.sendingFd = none && blocked then .failed ewouldblock
  else .sent t.sendPool.preSend.length

/-- What `OnOutput` writes. -/
def writes (t : TcpTransport (ServicePacket × Nat)) (blocked : Bool) : List FdMessage :=
  if !t.hasObserver then []
  else if t.sendPool.preSend.isEmpty then []
  else if t.sendingFd = none && blocked then []
  else [⟨t.sendPool.preSend, t.sendingFd⟩]

def step (w : FdLink) : FdEvent → Option FdLink
  | .sendFd packet => some { w with pipe := w.pipe.sendFd packet, given := w.given ++ [packet] }
  | .output blocked =>
      if w.pipe.trans.phase = .idle then
        some { w with
          pipe := { w.pipe with
            trans := w.pipe.trans.outputLocked (sendResult w.pipe.trans blocked) }
          wire := w.wire ++ writes w.pipe.trans blocked }
      else none
  | .upcall => (HubSystem.upcallPipe w.pipe).map fun pipe => { w with pipe := pipe }
  | .deregister =>
      if w.pipe.trans.phase = .deregister then
        some { w with pipe := { w.pipe with trans := w.pipe.trans.outputDeregister } }
      else none
  | .leave =>
      if w.pipe.trans.phase = .leave then
        some { w with pipe := { w.pipe with trans := w.pipe.trans.outputLeave } }
      else none
  | .close =>
      if w.pipe.trans.phase = .idle then
        some { w with pipe := { w.pipe with
          trans := { w.pipe.trans with canUpcall := false, phase := .leave } } }
      else none
  | .finiPipe => some { w with pipe := { w.pipe with hasTrans := false } }
  | .finiTrans => some { w with pipe := { w.pipe with trans := w.pipe.trans.fini } }
  | .input =>
      if w.receiver.phase = .idle then
        some { w with
          receiver := w.receiver.inputFdLocked w.wire.head?
          wire := if w.receiver.hasObserver then w.wire.tail else w.wire }
      else none
  | .inputUpcall =>
      match w.receiver.phase with
      | .upcall arrived =>
          some { w with
            receiver := w.receiver.inputFdUpcall arrived
            received := w.received ++ w.receiver.onRecvFd arrived
            passedOn := w.passedOn ++
              if w.receiver.hasTrans then w.receiver.onRecvFd arrived else [] }
      | _ => none
  | .inputLeave =>
      if w.receiver.phase = .leave then some { w with receiver := w.receiver.inputFdLeave }
      else none
  | .peerFiniPipe => some { w with receiver := { w.receiver with hasTrans := false } }
  | .peerFiniTrans => some { w with receiver := { w.receiver with hasObserver := false } }

/-- Nothing is left of the last packet. -/
def Clear (t : TcpTransport (ServicePacket × Nat)) : Prop :=
  t.sendPool = SendPool.empty ∧ t.sendingFd = none ∧ t.pendingWr = false

/-- What is received was given, in this order, each with its own descriptor. A message
without a descriptor changes nothing. When a packet has been written again without its
descriptor, nothing is left of it, and as long as one waits the handler is registered. -/
structure Delivers (w : FdLink) : Prop where
  received : (w.received.map Prod.fst).Sublist w.given
  own : ∀ arrived ∈ w.received, arrived.2 = arrived.1.oldSock.sockId
  passedOn : w.passedOn.Sublist w.received
  skipped : ∀ message messages next, w.wire = message :: messages → message.fd = none →
    w.step .input = some next →
    next = { w with wire := if w.receiver.hasObserver then messages else w.wire }
  sent : ∀ blocked next locals, w.step (.output blocked) = some next →
    next.pipe.trans.phase = .upcall locals → locals.onSendBuf = true → Clear next.pipe.trans
  wake : w.pipe.trans.hasObserver = true → w.pipe.hasTrans = true →
    w.pipe.trans.phase = .idle → w.pipe.fdPackets ≠ [] ∨ w.pipe.trans.sendPool ≠ SendPool.empty →
    w.pipe.trans.onWr = true ∧ w.pipe.trans.registeredWr = true ∧ w.pipe.trans.pendingWr = true ∧
      w.pipe.trans.sendPool.preSend ≠ []

end FdLink

end Pronet.Net
