import Pronet.Msg.C2sTables
import Pronet.Msg.Encode

/-! A message on its way through one server, its c2s nodes and the clients behind
them. Every packet is encoded by its sender and decoded by its receiver; what arrives
is recorded in order. Sessions deliver what they are given. -/
namespace Pronet.Msg

open Std Rtp Library

/-- A message as an application gets it. -/
structure Received where
  body : List UInt8
  charset : Nat
  srcUser : MsgUser
  deriving DecidableEq, Repr

/-- `client`, `c2s` and `observer` are calls of `OnRecvMsg`, `serverHop` is a packet that
reaches the server, and `forwarded` a packet made from a received one, with both
payload sizes and the 8-bit counters it was made with. -/
inductive Arrival
  | client (user : MsgUser) (msg : Received)
  | c2s (c2sUser : MsgUser) (msg : Received)
  | observer (msg : Received)
  | serverHop
  | forwarded (received sent sessionCount dstUserCount : Nat)
  deriving DecidableEq, Repr

/-- A c2s node, its client on the uplink and the clients of its users. -/
structure Node where
  c2s : C2s
  client : Client
  clients : ExtTreeMap Session Client

/-- A node is known by the session of its link. -/
structure Network where
  server : Server
  clients : ExtTreeMap Session Client
  nodes : ExtTreeMap Session Node

/-- A packet at the client of a user. -/
def clientReceive (clients : ExtTreeMap Session Client) (session : Session) (p : Payload) :
    List Arrival :=
  match clients[session]? with
  | none => []
  | some client =>
      (client.onRecvSession session p).2.filterMap fun
        | .onRecvMsg body charset srcUser => some (.client client.user ⟨p.slice body, charset, srcUser⟩)
        | _ => none

namespace Node

/-- `SendMsgToDownlink` of the c2s node, for a packet of `received` bytes that names
`dstUserCount` users. -/
def sendMsgToDownlink (node : Node) (received dstUserCount : Nat) (sessions : List Session)
    (msg : Received) : List Arrival :=
  match Msg.sendMsgToDownlink msg.body (.ofNat msg.charset) msg.srcUser [] none with
  | none => []
  | some packet =>
      .forwarded received packet.size.toNat sessions.length dstUserCount ::
        sessions.flatMap fun session => clientReceive node.clients session packet

def onTransferMsg (node : Node) (received : Nat) (msg : Received) (dstUsers : List MsgUser) :
    List Arrival :=
  let sessions := dstUsers.filterMap fun dstUser => node.c2s.user2Session[dstUser]?
  if sessions.isEmpty || !node.c2s.msgClient then []
  else node.sendMsgToDownlink received dstUsers.length sessions msg

/-- What becomes of a packet `p` that the client on the uplink has looked at. -/
def access (node : Node) (p : Payload) : MsgAccess → List Arrival
  | .onRecvMsg body charset srcUser => [.c2s node.c2s.c2sUser ⟨p.slice body, charset, srcUser⟩]
  | .onTransferMsg body charset srcUser dstUsers =>
      node.onTransferMsg p.size.toNat ⟨p.slice body, charset, srcUser⟩ dstUsers
  | _ => []

def receive (node : Node) (session : Session) (p : Payload) : List Arrival :=
  (node.client.onRecvSession session p).2.flatMap (node.access p)

end Node

/-- Who calls `SendMsg`: the client of a base user, that of a c2s node, or the client of
a sub user. -/
inductive Sender
  | direct (session : Session)
  | uplink (link : Session)
  | downlink (link session : Session)
  deriving DecidableEq, Repr

namespace Network

/-- A packet of the server at the other end of `session`. -/
def receive (n : Network) (session : Session) (p : Payload) : List Arrival :=
  match n.nodes[session]? with
  | some node => node.receive session p
  | none => clientReceive n.clients session p

/-- `SendMsgToDownlink` of the server, for a packet of `received` bytes. -/
def sendMsgToDownlink (n : Network) (received : Nat) (sessions : List Session) (msg : Received)
    (dstUsers : List MsgUser) : List Arrival :=
  match Msg.sendMsgToDownlink msg.body (.ofNat msg.charset) msg.srcUser dstUsers none with
  | none => []
  | some packet =>
      .forwarded received packet.size.toNat sessions.length dstUsers.length ::
        sessions.flatMap fun session => n.receive session packet

/-- What becomes of a packet `p` that the server has looked at. -/
def serverAccess (n : Network) (p : Payload) : MsgAccess → List Arrival
  | .sendMsgToDownlink sessions body charset srcUser dstUsers =>
      n.sendMsgToDownlink p.size.toNat sessions ⟨p.slice body, charset, srcUser⟩ dstUsers
  | .onRecvMsg body charset srcUser => [.observer ⟨p.slice body, charset, srcUser⟩]
  | _ => []

def serverReceive (n : Network) (session : Session) (p : Payload) : Option (List Arrival) := do
  let accesses ← n.server.onRecvSession session p
  return .serverHop :: accesses.flatMap (n.serverAccess p)

/-- `TransferMsg` of the client on the uplink, for a packet of `received` bytes. -/
def transferMsg (n : Network) (link : Session) (node : Node) (received : Nat) (msg : Received)
    (dstUsers : List MsgUser) : Option (List Arrival) :=
  match pushMsg msg.body (.ofNat msg.charset) dstUsers (some msg.srcUser) node.client.user with
  | none => some []
  | some packet =>
      (n.serverReceive link packet).map fun arrivals =>
        .forwarded received packet.size.toNat 1 dstUsers.length :: arrivals

/-- What becomes of a packet `p` from one of its users that a c2s node has looked at. -/
def nodeAccess (n : Network) (link : Session) (node : Node) (p : Payload) :
    MsgAccess → Option (List Arrival)
  | .sendMsgToDownlink sessions body charset srcUser dstUsers =>
      some (node.sendMsgToDownlink p.size.toNat dstUsers.length sessions
        ⟨p.slice body, charset, srcUser⟩)
  | .transferMsg body charset dstUsers srcUser =>
      n.transferMsg link node p.size.toNat ⟨p.slice body, charset, srcUser⟩ dstUsers
  | _ => some []

def nodeReceive (n : Network) (link : Session) (node : Node) (session : Session) (p : Payload) :
    Option (List Arrival) := do
  let arrivals ← (node.c2s.onRecvSession session p).mapM (n.nodeAccess link node p)
  return arrivals.flatten

/-- `SendMsg` of a client that has logged in. Without a result the server has used a
context that is gone. -/
def send (n : Network) (sender : Sender) (body : List UInt8) (charset : UInt32)
    (dstUsers : List MsgUser) : Option (List Arrival) :=
  match sender with
  | .direct session =>
      match (n.clients[session]?).bind fun client => pushMsg body charset dstUsers none client.user with
      | none => some []
      | some packet => n.serverReceive session packet
  | .uplink link =>
      match (n.nodes[link]?).bind fun node => pushMsg body charset dstUsers none node.client.user with
      | none => some []
      | some packet => n.serverReceive link packet
  | .downlink link session =>
      match n.nodes[link]? with
      | none => some []
      | some node =>
          match (node.clients[session]?).bind fun client =>
              pushMsg body charset dstUsers none client.user with
          | none => some []
          | some packet => n.nodeReceive link node session packet

/-- A user that is logged in and is not a c2s node. -/
def online (n : Network) (user : MsgUser) : Bool :=
  match (n.server.user2Ctx[user]?).bind fun ptr => n.server.heap[ptr]? with
  | none => false
  | some ctx => !(ctx.isC2s && user = ctx.baseUser)

end Network

/-- A client behind its login, with nothing on the way. -/
def Client.loggedIn (session : Session) (user : MsgUser) (enableTransfer : Bool) : Client :=
  ⟨session, user, enableTransfer, true, true⟩

/-- The node and the context of its link agree. -/
structure Node.Agrees (node : Node) (ctx : LinkCtx) : Prop where
  msgClient : node.c2s.msgClient = true
  client : node.client = .loggedIn ctx.session ctx.baseUser true
  inverse : node.c2s.Inverse
  users : ∀ user, user ∈ node.c2s.user2Session ↔ user ∈ ctx.subUsers
  clients : ∀ (user : MsgUser) (session : Session), node.c2s.user2Session[user]? = some session →
    node.clients[session]? = some (.loggedIn session user false)

/-- The tables of the server and of the nodes agree. The ids 1-1 are reserved for the
server itself. -/
structure Network.Agrees (n : Network) : Prop where
  tables : n.server.TableInv
  notRoot : ∀ user : MsgUser, user.isRoot = true → user ∉ n.server.user2Ctx
  direct : ∀ (ptr : CtxPtr) (ctx : LinkCtx), n.server.heap[ptr]? = some ctx → ctx.isC2s = false →
    n.nodes[ctx.session]? = none ∧
      n.clients[ctx.session]? = some (.loggedIn ctx.session ctx.baseUser false)
  c2s : ∀ (ptr : CtxPtr) (ctx : LinkCtx), n.server.heap[ptr]? = some ctx → ctx.isC2s = true →
    ∃ node, n.nodes[ctx.session]? = some node ∧ node.Agrees ctx

namespace Arrival

def user? : Arrival → Option MsgUser
  | .client user _ => some user
  | _ => none

def isObserver : Arrival → Bool
  | .observer _ => true
  | _ => false

/-- The message is the one that was sent, and nothing grows on the way. -/
def Fits (msg : Received) : Arrival → Prop
  | .client _ got => got = msg
  | .c2s _ got => got = msg
  | .observer got => got = msg
  | .serverHop => True
  | .forwarded received sent sessionCount dstUserCount =>
      sent ≤ received ∧ sessionCount ≤ 255 ∧ dstUserCount ≤ 255

end Arrival

/-- An entry of the destination list that the observer of the server answers to. -/
def toRoot (dstUser : MsgUser) : Bool := dstUser.isRoot && dstUser.instId ≠ rootIdC2s.instId

end Pronet.Msg
