import Pronet.Msg.Encode
import Pronet.Library.Runs

/-! A message server, its c2s nodes and the clients behind both, with the packets that
are queued between them. `AddBaseUser` makes a user routable in one section and answers
the login in a later one; messages are routed in between. A packet carries, for the
proofs only, where it comes from. -/
namespace Pronet.Msg

open Std Library

/-- The texts of the control messages and of the public address. -/
structure Texts where
  downText : DownMsg → List UInt8
  parseDown : List UInt8 → Option DownMsg
  upText : UpMsg → List UInt8
  inetAton : String → UInt32
  inetNtoa : Nat → String

/-- `session` is a message of a user: the first node that got it (`none` for the server)
found its session bound to `user`. -/
inductive Origin
  | response (user : MsgUser)
  | server
  | session (node : Option Nat) (session : Session) (user : MsgUser)
  deriving DecidableEq, Repr

structure Packet where
  payload : Payload
  origin : Origin

/-- A session from a node to a client that logs in as `user`: all packets queued on it,
those not read yet, and the client. `peer` is the c2s node whose client it is. -/
structure Downlink where
  user : MsgUser
  peer : Option Nat
  log : List Packet
  unread : List Packet
  client : Client

/-- A message in the queue of an uplink. Without a source it is the node's own. -/
structure Outgoing where
  body : List UInt8
  charset : Nat
  dstUsers : List MsgUser
  source : Option (MsgUser × Origin)

structure NodeState where
  c2s : C2s
  uplink : Option Session
  outbox : List Outgoing
  downlinks : ExtTreeMap Session Downlink

/-- `AddBaseUser` between its section and the response. -/
structure Pending where
  session : Session
  user : MsgUser
  publicIp : String
  deriving DecidableEq, Repr

/-- What a client, the observer of the server or a c2s node is called with: a login
confirmed to the client of `user`, a message, or a control message that is acted on. -/
inductive Report
  | onOkMsg (user srcUser : MsgUser) (origin : Origin)
  | onRecvMsg (srcUser : MsgUser) (origin : Origin)
  | observer (srcUser : MsgUser) (origin : Origin)
  | control (origin : Origin)
  deriving DecidableEq, Repr

structure MsgSystem where
  server : Server
  pending : Option Pending
  links : ExtTreeMap Session Downlink
  nodes : ExtTreeMap Nat NodeState
  reports : List Report

/-- What a c2s node does on its own. -/
inductive NodeOp
  | accept (info : AcceptInfo) (timerId : Nat) (sent : Bool)
  | timer (timerId : Nat)
  | kickout (user : MsgUser)
  | close (session : Session) (errorCode sslCode : Int)

/-- `refused` are sessions whose queue is full; `asked` is the user a client asked for. -/
inductive SystemEvent
  | task (input : TaskInput) (task : Task) (peer : Option Nat)
  | respond
  | serverSend (body : List UInt8) (charset : UInt32) (dstUsers : List MsgUser)
      (refused : List Session)
  | clientSend (session : Session) (p : Payload) (refused : List Session)
  | nodeSend (node : Nat) (refused : List Session)
  | clientRead (session : Session)
  | nodeRead (node : Nat) (created : Option (Session × String)) (sent : Bool) (asked : MsgUser)
  | userSend (node : Nat) (session : Session) (p : Payload)
  | userRead (node : Nat) (session : Session)
  | nodeOp (node : Nat) (op : NodeOp)
  | nodeClose (node : Nat) (errorCode sslCode : Int) (tcpConnected : Bool)
  | nodeReconnect (node : Nat) (connected : Bool)

abbrev Queued := List (Session × Packet)

namespace Downlink

def new (session : Session) (user asked : MsgUser) (peer : Option Nat) : Downlink :=
  ⟨user, peer, [], [], ⟨session, asked, peer.isSome, false, true⟩⟩

def push (d : Downlink) (packet : Packet) : Downlink :=
  { d with log := d.log ++ [packet], unread := d.unread ++ [packet] }

/-- What the application above a plain client is called with. -/
def report (user : MsgUser) (origin : Origin) : MsgAccess → Option Report
  | .onOkMsg srcUser _ => some (.onOkMsg user srcUser origin)
  | .onRecvMsg _ _ srcUser => some (.onRecvMsg srcUser origin)
  | _ => none

def read (d : Downlink) (session : Session) : Option (Downlink × List Report) :=
  match d.unread with
  | [] => none
  | packet :: rest =>
      let (client, accesses) := d.client.onRecvSession session packet.payload
      some ({ d with unread := rest, client := client },
        accesses.filterMap (report d.user packet.origin))

end Downlink

/-- One packet for all sessions, unless it could not be made. -/
def queuedFor (sessions : List Session) (origin : Origin) : Option Payload → Queued
  | none => []
  | some payload => sessions.map fun session => (session, ⟨payload, origin⟩)

def pushAll (links : ExtTreeMap Session Downlink) (packets : Queued) : ExtTreeMap Session Downlink :=
  packets.foldl (fun links entry => links.modify entry.1 fun d => d.push entry.2) links

/-- The response to a login. -/
def response (t : Texts) (session : Session) (user : MsgUser) (publicIp : String) : Queued :=
  queuedFor [session] (.response user)
    (sendMsgToDownlink [0] 0 user [] (some (t.inetAton publicIp)))

/-- What a node queues for a packet `p` that it has looked at. -/
def queuedBy (p : Payload) (origin : Origin) : MsgAccess → Queued
  | .sendMsgToDownlink sessions body charset srcUser dstUsers =>
      queuedFor sessions origin
        (sendMsgToDownlink (p.slice body) (.ofNat charset) srcUser dstUsers none)
  | _ => []

namespace Server

/-- The destination loop of `SendMsg`. -/
def routeSend (s : Server) (dstUsers : List MsgUser) : Option Routing :=
  (dstUsers.filter fun dstUser => !dstUser.isRoot).foldlM s.routeUser ⟨false, false, [], ∅⟩

def sendMsg (s : Server) (body : List UInt8) (charset : UInt32) (dstUsers : List MsgUser) :
    Option Queued := do
  if body.isEmpty || dstUsers.isEmpty then
    return []
  let routing ← s.routeSend dstUsers
  return queuedFor routing.sessions .server (sendMsgToDownlink body charset rootId [] none) ++
    routing.session2Users.toList.flatMap fun (session, users) =>
      queuedFor [session] .server (sendMsgToDownlink body charset rootId users none)

end Server

/-- The control messages among the calls of the server. -/
def controls (t : Texts) (calls : List ServerCall) : Queued :=
  calls.flatMap fun
    | .sendToC2s session c2sUser msg =>
        queuedFor [session] .server (sendMsgToDownlink (t.downText msg) 0 rootIdC2s [c2sUser] none)
    | _ => []

def ServerCall.opens? : ServerCall → Option Pending
  | .sendResponse session user publicIp => some ⟨session, user, publicIp⟩
  | _ => none

/-- The login that is still to be answered. -/
def opened (calls : List ServerCall) : Option Pending := calls.findSome? ServerCall.opens?

namespace NodeState

/-- The calls of the c2s node, in order. -/
def call (t : Texts) (asked : MsgUser) (node : NodeState) : C2sCall → NodeState
  | .sendMsg msg => { node with outbox := node.outbox ++ [⟨t.upText msg, 0, [rootIdC2s], none⟩] }
  | .sendResponse session user publicIp =>
      { node with
        downlinks := pushAll (node.downlinks.insert session (.new session user asked none))
          (response t session user publicIp) }
  | .deleteSession session => { node with downlinks := node.downlinks.erase session }
  | _ => node

def withCalls (t : Texts) (asked : MsgUser) (node : NodeState) (r : C2s × List C2sCall) : NodeState :=
  r.2.foldl (call t asked) { node with c2s := r.1 }

/-- What the node does with a packet of the server that its client has looked at. -/
def handle (t : Texts) (user : MsgUser) (packet : Packet) (created : Option (Session × String))
    (sent : Bool) (asked : MsgUser) (r : NodeState × List Report) :
    MsgAccess → NodeState × List Report
  | .onOkMsg srcUser publicIp =>
      ({ r.1 with c2s := (r.1.c2s.onOkMsg srcUser (t.inetNtoa publicIp)).1 },
        r.2 ++ [.onOkMsg user srcUser packet.origin])
  | .onRecvMsg body _ srcUser =>
      if srcUser ≠ rootIdC2s then r
      else
        match t.parseDown (packet.payload.slice body) with
        | none => r
        | some msg =>
            (r.1.withCalls t asked (r.1.c2s.onRecvMsg created sent msg), r.2 ++ [.control packet.origin])
  | .onTransferMsg body charset srcUser dstUsers =>
      if !r.1.c2s.msgClient then r
      else
        ({ r.1 with
            downlinks := pushAll r.1.downlinks
              (queuedFor (dstUsers.filterMap fun dstUser => r.1.c2s.user2Session[dstUser]?)
                packet.origin
                (sendMsgToDownlink (packet.payload.slice body) (.ofNat charset) srcUser [] none)) },
          r.2)
  | _ => r

/-- `OnRecvSession` of the node, for a packet of one of its users. -/
def userSend (node : NodeState) (id : Nat) (session : Session) (p : Payload) : NodeState :=
  let origin := .session (some id) session ((node.c2s.session2User[session]?).getD zeroUser)
  let accesses := node.c2s.onRecvSession session p
  { node with
    downlinks := pushAll node.downlinks (accesses.flatMap (queuedBy p origin))
    outbox := node.outbox ++ accesses.filterMap fun
      | .transferMsg body charset dstUsers srcUser =>
          some ⟨p.slice body, charset, dstUsers, some (srcUser, origin)⟩
      | _ => none }

end NodeState

def NodeOp.run (s : C2s) : NodeOp → C2s × List C2sCall
  | .accept info timerId sent => s.acceptSession info timerId sent
  | .timer timerId => s.onTimer timerId
  | .kickout user => s.asyncKickoutUser user
  | .close session errorCode sslCode => s.onCloseSession session errorCode sslCode

namespace MsgSystem

def init (sslConfig sslForced : Bool) (c2ss : ExtTreeMap Nat C2s) : MsgSystem where
  server := .init sslConfig sslForced
  pending := none
  links := ∅
  nodes := c2ss.map fun _ c2s => ⟨c2s, none, [], ∅⟩
  reports := []

def modifyNode (w : MsgSystem) (id : Nat) (f : NodeState → NodeState) : MsgSystem :=
  { w with nodes := w.nodes.modify id f }

/-- The base user that the server has for a session. -/
def boundUser (w : MsgSystem) (session : Session) : MsgUser :=
  ((LoginSystem.linkCtx? session w.server).map LinkCtx.baseUser).getD zeroUser

/-- `OnRecvSession` of the server: what it queues, and what its observer gets. -/
def serverReceive (w : MsgSystem) (session : Session) (p : Payload) (source : Option Origin) :
    Option (Queued × List Report) := do
  let accesses ← w.server.onRecvSession session p
  let origin := source.getD (.session none session (w.boundUser session))
  return (accesses.flatMap (queuedBy p origin), accesses.filterMap fun
    | .onRecvMsg _ _ srcUser => some (.observer srcUser origin)
    | _ => none)

/-- The next message of a node at the server. The client of the node sends nothing
before its login. -/
def nodeSend (w : MsgSystem) (id : Nat) : Option (Queued × List Report) := do
  let node ← w.nodes[id]?
  let session ← node.uplink
  let item ← node.outbox.head?
  let link ← w.links[session]?
  if !link.client.onOkCalled then none
  else
    match pushMsg item.body (.ofNat item.charset) item.dstUsers (item.source.map Prod.fst)
        link.client.user with
    | none => some ([], [])
    | some p => w.serverReceive session p (item.source.map Prod.snd)

/-- What the server routes in a step: it does so under its lock, at any time. -/
def routed (w : MsgSystem) : SystemEvent → Option (Queued × List Report)
  | .serverSend body charset dstUsers refused =>
      (w.server.sendMsg body charset dstUsers).map fun packets =>
        (packets.filter fun entry => entry.1 ∉ refused, [])
  | .clientSend session p refused =>
      if (w.links[session]?).any (fun link => link.peer = none) && p.msgHeaderSize ≤ p.size.toNat then
        (w.serverReceive session p none).map fun r =>
          (r.1.filter fun entry => entry.1 ∉ refused, r.2)
      else none
  | .nodeSend id refused =>
      (w.nodeSend id).map fun r => (r.1.filter fun entry => entry.1 ∉ refused, r.2)
  | _ => some ([], [])

def withRouted (w : MsgSystem) (r : Queued × List Report) : MsgSystem :=
  { w with links := pushAll w.links r.1, reports := w.reports ++ r.2 }

/-- A task of the server, up to the response of `AddBaseUser`. -/
def runTask (t : Texts) (w : MsgSystem) (input : TaskInput) (task : Task) (peer : Option Nat) :
    Option MsgSystem := do
  let (server, calls) ← w.server.runTask input task
  let w := { w with server := server, links := pushAll w.links (controls t calls) }
  match opened calls, task with
  | some pending, .onAcceptSession _ asked _ =>
      return {
        w with
        pending := some pending
        links := w.links.insert pending.session (.new pending.session pending.user asked peer)
        nodes := peer.elim w.nodes fun id =>
          w.nodes.modify id fun node => { node with uplink := some pending.session } }
  | _, _ => return w

/-- Only a node without an uplink opens one, and what the server creates is new. -/
def mayRun (w : MsgSystem) (input : TaskInput) (peer : Option Nat) : Bool :=
  w.pending.isNone && input.ptr ∉ w.server.heap &&
    input.newSession.all (· ∉ w.server.session2Ctx) &&
    peer.all fun id => (w.nodes[id]?).any fun node => node.uplink.isNone

def step (t : Texts) (w : MsgSystem) (e : SystemEvent) : Option MsgSystem :=
  match e with
  | .task input task peer => if w.mayRun input peer then w.runTask t input task peer else none
  | .respond =>
      w.pending.map fun pending =>
        { w with
          pending := none
          links := pushAll w.links (response t pending.session pending.user pending.publicIp) }
  | .serverSend .. => (w.routed e).map w.withRouted
  | .clientSend .. => (w.routed e).map w.withRouted
  | .nodeSend id _ =>
      (w.routed e).map fun r =>
        (w.withRouted r).modifyNode id fun node => { node with outbox := node.outbox.tail }
  | .clientRead session => do
      let link ← w.links[session]?
      if link.peer ≠ none then none
      else
        let (link, reports) ← link.read session
        return { w with links := w.links.insert session link, reports := w.reports ++ reports }
  | .nodeRead id created sent asked => do
      let node ← w.nodes[id]?
      let session ← node.uplink
      let link ← w.links[session]?
      match link.unread with
      | [] => none
      | packet :: rest =>
          let (client, accesses) := link.client.onRecvSession session packet.payload
          let (node, reports) :=
            accesses.foldl (NodeState.handle t link.user packet created sent asked) (node, [])
          return {
            w with
            links := w.links.insert session { link with unread := rest, client := client }
            nodes := w.nodes.insert id node
            reports := w.reports ++ reports }
  | .userSend id session p =>
      if p.msgHeaderSize ≤ p.size.toNat then
        some (w.modifyNode id fun node => node.userSend id session p)
      else none
  | .userRead id session => do
      let node ← w.nodes[id]?
      let link ← node.downlinks[session]?
      let (link, reports) ← link.read session
      return {
        w with
        nodes := w.nodes.insert id { node with downlinks := node.downlinks.insert session link }
        reports := w.reports ++ reports }
  | .nodeOp id op =>
      some (w.modifyNode id fun node => node.withCalls t zeroUser (op.run node.c2s))
  | .nodeClose id errorCode sslCode tcpConnected =>
      some (w.modifyNode id fun node =>
        { node.withCalls t zeroUser (node.c2s.onCloseMsg errorCode sslCode tcpConnected) with
          uplink := none
          outbox := [] })
  | .nodeReconnect id connected =>
      some (w.modifyNode id fun node => { node with c2s := node.c2s.reconnect connected })

end MsgSystem

end Pronet.Msg
