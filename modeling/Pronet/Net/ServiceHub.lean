import Pronet.Library.Runs
import Pronet.Net.TcpTransport

/-! `CProServiceHub` between `Init` and `Fini`, its pipes with their transports, and
the descriptor table of the process. A connection is a ghost identity: it tells
apart the sockets that bear one descriptor number at different times. -/
namespace Pronet.Net

open Std

/-- The fields of `PRO_SERVICE_SOCK` that `operator<` compares. -/
structure SockKey where
  expireTick : Int
  sockId : Int
  deriving DecidableEq, Repr

namespace SockKey

instance : Ord SockKey where
  compare := compareLex (compareOn expireTick) (compareOn sockId)

instance : TransOrd SockKey := inferInstanceAs (TransCmp (compareLex _ _))

instance : LawfulEqOrd SockKey where
  eq_of_compare {left right} h := by
    have h : compareLex (compareOn expireTick) (compareOn sockId) left right = .eq := h
    simp only [compareLex, compareOn, Ordering.then_eq_eq, Std.compare_eq_iff_eq] at h
    cases left
    cases right
    simp_all

end SockKey

/-- The rest of a `PRO_SERVICE_SOCK` in `m_expireSocks`, and its connection. -/
structure ExpireSock where
  unixSocket : Bool
  conn : Nat
  deriving DecidableEq, Repr

/-- The s2c part of a `PRO_SERVICE_PACKET`, and the connection it hands over. -/
structure ServicePacket where
  serviceId : UInt8
  serviceOpt : UInt8
  nonce : UInt64
  oldSock : SockKey
  unixSocket : Bool
  conn : Nat
  deriving DecidableEq, Repr

/-- `sizeof(PRO_SERVICE_PACKET)`. -/
def sizeofServicePacket : Nat := 96

/-- The bytes of a packet; a byte is known by its packet and its place. -/
def ServicePacket.bytes (packet : ServicePacket) : List (ServicePacket × Nat) :=
  (List.range sizeofServicePacket).map fun k => (packet, k)

/-- `PRO_SERVICE_PIPE`; its pointer is the key in `m_allPipes`. -/
structure ServicePipe where
  pipe : Nat
  pending : Bool
  expireTick : Int
  serviceId : UInt8
  processId : Nat
  deriving DecidableEq, Repr

structure ServiceHub where
  allPipes : ExtTreeMap Nat ServicePipe
  serviceId2Pipe : ExtTreeMap UInt8 ServicePipe
  expireSocks : ExtTreeMap SockKey ExpireSock

def sockTimeout : Int := 5 * 1000
def pipeTimeout : Int := 10 * 1000

/-- The c2s part of a packet from a pipe. -/
structure AckPacket where
  serviceId : UInt8
  processId : Nat
  oldSock : SockKey
  deriving DecidableEq, Repr

namespace ServiceHub

def empty : ServiceHub := ⟨∅, ∅, ∅⟩

/-- `OnAcceptIpc` of a local socket, for which a pipe was created. -/
def onAcceptIpc (h : ServiceHub) (pipe : Nat) (tick : Int) : ServiceHub :=
  { h with allPipes := h.allPipes.insertIfNew pipe ⟨pipe, true, tick + pipeTimeout, 0, 0⟩ }

/-- The first half of `OnAcceptOther`: the pipe of the service and the packet that
goes out on it; without one the socket is closed at once. -/
def servicePacket (h : ServiceHub) (sockId : Int) (unixSocket : Bool) (serviceId serviceOpt : UInt8)
    (nonce : UInt64) (tick : Int) (conn : Nat) : Option (Nat × ServicePacket) :=
  match h.serviceId2Pipe[serviceId]? with
  | none => none
  | some sp =>
      some (sp.pipe, ⟨serviceId, serviceOpt, nonce, ⟨tick + sockTimeout, sockId⟩, unixSocket, conn⟩)

/-- The end of `OnAcceptOther`, behind `SendFd`. -/
def awaitSock (h : ServiceHub) (packet : ServicePacket) : ServiceHub :=
  { h with
    expireSocks := h.expireSocks.insertIfNew packet.oldSock ⟨packet.unixSocket, packet.conn⟩ }

/-- What `OnAcceptOther` does to the tables as a whole, and what it sends. -/
def onAcceptOther (h : ServiceHub) (sockId : Int) (unixSocket : Bool) (serviceId serviceOpt : UInt8)
    (nonce : UInt64) (tick : Int) (conn : Nat) : ServiceHub × Option (Nat × ServicePacket) :=
  match h.servicePacket sockId unixSocket serviceId serviceOpt nonce tick conn with
  | none => (h, none)
  | some (pipe, packet) => (h.awaitSock packet, some (pipe, packet))

/-- The descriptor that a packet from a pipe makes the hub close. -/
def ackedSock (h : ServiceHub) (pipe : Nat) (packet : AckPacket) : Option SockKey :=
  match h.allPipes[pipe]? with
  | none => none
  | some sp =>
      if sp.pending then none
      else if packet.serviceId ≠ sp.serviceId || packet.processId ≠ sp.processId then none
      else if packet.oldSock.sockId = -1 then none
      else some packet.oldSock

/-- `OnRecv`. The entry is erased whether or not it is there. -/
def onRecv (h : ServiceHub) (pipe : Nat) (packet : AckPacket) (tick : Int) : ServiceHub :=
  match h.allPipes[pipe]? with
  | none => h
  | some sp =>
      if sp.pending then
        if packet.serviceId ∈ h.serviceId2Pipe then h
        else
          let sp := { sp with
            pending := false
            expireTick := tick + pipeTimeout
            serviceId := packet.serviceId
            processId := packet.processId }
          { h with
            serviceId2Pipe := h.serviceId2Pipe.insert packet.serviceId sp
            allPipes := h.allPipes.insert pipe sp }
      else if packet.serviceId ≠ sp.serviceId || packet.processId ≠ sp.processId then h
      else
        { h with
          allPipes := h.allPipes.insert pipe { sp with expireTick := tick + pipeTimeout }
          expireSocks := if packet.oldSock.sockId = -1 then h.expireSocks
            else h.expireSocks.erase packet.oldSock }

/-- Take a pipe out of both tables. -/
def erasePipe (h : ServiceHub) (pipe : Nat) : ServiceHub :=
  match h.allPipes[pipe]? with
  | none => h
  | some sp =>
      { h with
        serviceId2Pipe := match h.serviceId2Pipe[sp.serviceId]? with
          | some sp' => if sp'.pipe = pipe then h.serviceId2Pipe.erase sp.serviceId
              else h.serviceId2Pipe
          | none => h.serviceId2Pipe
        allPipes := h.allPipes.erase pipe }

/-- The entries that `OnTimer` closes, in order. -/
def expiredSocks (h : ServiceHub) (tick : Int) : List (SockKey × ExpireSock) :=
  h.expireSocks.toList.takeWhile fun entry => entry.1.expireTick ≤ tick

/-- The pipes that `OnTimer` deletes. -/
def expiredPipes (h : ServiceHub) (tick : Int) : List Nat :=
  (h.allPipes.toList.filter fun entry => entry.2.expireTick ≤ tick).map Prod.fst

end ServiceHub

/-- A `CProServicePipe`. On this platform the hub sends on its pipes with `SendFd`
only, so that `m_packets` stays empty. -/
structure PipeState where
  hasTrans : Bool
  fdPackets : List ServicePacket
  trans : TcpTransport (ServicePacket × Nat)
  deriving DecidableEq, Repr

namespace PipeState

def init : PipeState := ⟨true, [], TcpTransport.init⟩

/-- Try the first waiting packet on the transport. -/
def trySend (p : PipeState) : PipeState :=
  match p.fdPackets with
  | [] => p
  | packet :: packets =>
      let (trans, ok) := p.trans.sendFd packet.bytes packet.oldSock.sockId
      { p with trans := trans, fdPackets := if ok then packets else packet :: packets }

/-- `SendFd`. -/
def sendFd (p : PipeState) (packet : ServicePacket) : PipeState :=
  if packet.oldSock.sockId = -1 then p
  else if !p.hasTrans then p
  else { p with fdPackets := p.fdPackets ++ [packet] }.trySend

/-- `OnSend`. -/
def onSend (p : PipeState) : PipeState := if !p.hasTrans then p else p.trySend

/-- The packet in the send pool of the transport. -/
def poolPacket (p : PipeState) : Option ServicePacket :=
  p.trans.sendPool.preSend.head?.map Prod.fst

/-- The packets whose descriptor may still be passed on this pipe. -/
def carried (p : PipeState) : List ServicePacket :=
  if p.trans.hasObserver then
    (if p.trans.sendingFd.isSome then p.poolPacket.toList else []) ++
      (if p.hasTrans then p.fdPackets else [])
  else []

end PipeState

/-- What a descriptor of the process denotes: a connection that the acceptor brings to
the hub, or anything else. -/
inductive Holder
  | accepted (conn : Nat)
  | other
  deriving DecidableEq, Repr

/-- A descriptor passed with `sendmsg`: the packet it goes with, the number, what
the number denotes, whether its entry is in `m_expireSocks`, and whether the packet
is the one that `OnAcceptOther` has sent and not entered there yet. -/
structure HandOver where
  packet : Option ServicePacket
  fd : Int
  holder : Option Holder
  entry : Bool
  entering : Bool
  deriving DecidableEq, Repr

/-- The hub, its pipes, the open descriptors of the process, the connections that the
acceptor has not told the hub about yet, the connections the hub has accepted, the
packet of an `OnAcceptOther` between its `SendFd` and its entry in `m_expireSocks`,
what each `ProCloseSockId` of the hub closed, whether the entry of each
acknowledgement was there, and what was handed over. -/
structure HubSystem where
  hub : ServiceHub
  pipes : ExtTreeMap Nat PipeState
  fds : ExtTreeMap Int Holder
  nextConn : Nat
  arriving : ExtTreeMap Nat Int
  accepted : List Nat
  entering : Option ServicePacket
  closes : List (Option Holder)
  acks : List Bool
  handed : List HandOver

inductive HubEvent
  | acceptIpc (pipe : Nat) (tick : Int)
  | accept (sockId : Int)
  | acceptOther (conn : Nat) (unixSocket : Bool) (serviceId serviceOpt : UInt8) (nonce : UInt64)
      (tick : Int)
  | acceptEnds
  | recv (pipe : Nat) (packet : AckPacket) (tick : Int)
  | closePipe (pipe : Nat)
  | timer (tick : Int)
  | output (pipe : Nat) (result : SendResult)
  | upcall (pipe : Nat)
  | deregister (pipe : Nat)
  | leave (pipe : Nat)
  | finiPipe (pipe : Nat)
  | finiTrans (pipe : Nat)
  | openOther (sockId : Int)
  | closeOther (sockId : Int)
  deriving DecidableEq, Repr

/-- The functions that take `m_lock` of the hub. -/
def HubEvent.locksHub : HubEvent → Bool
  | .acceptIpc .. | .acceptOther .. | .recv .. | .closePipe .. | .timer .. => true
  | _ => false

namespace HubSystem

def init : HubSystem := ⟨ServiceHub.empty, ∅, ∅, 0, ∅, [], none, [], [], []⟩

/-- `ProCloseSockId` called by the hub. -/
def closeSock (w : HubSystem) (sockId : Int) : HubSystem :=
  { w with closes := w.closes ++ [w.fds[sockId]?], fds := w.fds.erase sockId }

/-- Erase an entry of `m_expireSocks` and close its descriptor. -/
def expireSock (w : HubSystem) (key : SockKey) : HubSystem :=
  { w with hub := { w.hub with expireSocks := w.hub.expireSocks.erase key } }.closeSock key.sockId

/-- Run a function of the pipe, if there is one. -/
def onPipe (w : HubSystem) (pipe : Nat) (f : PipeState → Option PipeState) : Option HubSystem :=
  match w.pipes[pipe]? with
  | none => none
  | some p => (f p).map fun p => { w with pipes := w.pipes.insert pipe p }

def sendFd (w : HubSystem) (pipe : Nat) (packet : ServicePacket) : HubSystem :=
  match w.pipes[pipe]? with
  | none => w
  | some p => { w with pipes := w.pipes.insert pipe (p.sendFd packet) }

/-- What `OnOutput` of a transport passes with `sendmsg`, if it is in that branch. -/
def handOver (w : HubSystem) (p : PipeState) : List HandOver :=
  if p.trans.hasObserver && !p.trans.sendPool.preSend.isEmpty then
    match p.trans.sendingFd with
    | none => []
    | some fd => [⟨p.poolPacket, fd, w.fds[fd]?,
        match p.poolPacket with
        | none => false
        | some packet => packet.oldSock ∈ w.hub.expireSocks,
        w.entering.isSome && w.entering = p.poolPacket⟩]
  else []

/-- The upcall of `OnOutput`; `OnSend` tries the next packet. A lost connection is
followed by `closePipe`, `finiPipe` and `finiTrans`. -/
def upcallPipe (p : PipeState) : Option PipeState :=
  match p.trans.phase with
  | .upcall locals =>
      let next := { p with trans := p.trans.outputUpcall locals }
      match p.trans.upcallOf locals with
      | some (.onSend _) => some next.onSend
      | _ => some next
  | _ => none

/-- What an event does once it has the locks it takes. -/
def perform (w : HubSystem) : HubEvent → Option HubSystem
  | .acceptIpc pipe tick =>
      if pipe ∈ w.pipes then none
      else some { w with
        hub := w.hub.onAcceptIpc pipe tick
        pipes := w.pipes.insert pipe PipeState.init }
  -- the acceptor gets a number that is free, and its handshake takes a while
  | .accept sockId =>
      if sockId < 0 || sockId ∈ w.fds then none
      else some { w with
        fds := w.fds.insert sockId (.accepted w.nextConn)
        nextConn := w.nextConn + 1
        arriving := w.arriving.insert w.nextConn sockId }
  | .acceptOther conn unixSocket serviceId serviceOpt nonce tick =>
      match w.arriving[conn]? with
      | none => none
      | some sockId =>
          let w := { w with
            arriving := w.arriving.erase conn
            accepted := w.accepted ++ [conn] }
          match w.hub.servicePacket sockId unixSocket serviceId serviceOpt nonce tick conn with
          | none => some (w.closeSock sockId)
          | some (pipe, packet) => some ({ w with entering := some packet }.sendFd pipe packet)
  | .acceptEnds =>
      match w.entering with
      | none => none
      | some packet => some { w with hub := w.hub.awaitSock packet, entering := none }
  | .recv pipe packet tick =>
      let acked := w.hub.ackedSock pipe packet
      let next := { w with hub := w.hub.onRecv pipe packet tick }
      match acked with
      | none => some next
      | some key =>
          some { next.closeSock key.sockId with acks := w.acks ++ [decide (key ∈ w.hub.expireSocks)] }
  | .closePipe pipe => some { w with hub := w.hub.erasePipe pipe }
  | .timer tick =>
      let w' := (w.hub.expiredSocks tick).foldl (fun w entry => w.expireSock entry.1) w
      some { w' with hub := (w.hub.expiredPipes tick).foldl ServiceHub.erasePipe w'.hub }
  | .output pipe result =>
      match w.pipes[pipe]? with
      | none => none
      | some p =>
          if p.trans.phase = .idle then
            some { w with
              pipes := w.pipes.insert pipe { p with trans := p.trans.outputLocked result }
              handed := w.handed ++ w.handOver p }
          else none
  | .upcall pipe => w.onPipe pipe upcallPipe
  | .deregister pipe => w.onPipe pipe fun p =>
      if p.trans.phase = .deregister then some { p with trans := p.trans.outputDeregister } else none
  | .leave pipe => w.onPipe pipe fun p =>
      if p.trans.phase = .leave then some { p with trans := p.trans.outputLeave } else none
  | .finiPipe pipe => w.onPipe pipe fun p => some { p with hasTrans := false }
  | .finiTrans pipe => w.onPipe pipe fun p => some { p with trans := p.trans.fini }
  | .openOther sockId =>
      if sockId ∈ w.fds then none else some { w with fds := w.fds.insert sockId .other }
  | .closeOther sockId =>
      if w.fds[sockId]? = some .other then some { w with fds := w.fds.erase sockId } else none

/-- `OnAcceptOther` keeps `m_lock` of the hub from the lookup to the entry; the
sections of the pipes and of their transports run meanwhile. -/
def step (w : HubSystem) (e : HubEvent) : Option HubSystem :=
  if e.locksHub && w.entering.isSome then none else w.perform e

end HubSystem

end Pronet.Net
