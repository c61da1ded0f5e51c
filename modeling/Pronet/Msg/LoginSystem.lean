import Pronet.Msg.C2s
import Pronet.Msg.ServerUsers

/-! One message server and one c2s node that is logged in to it on the session
`link`, joined by a FIFO channel in each direction. The server runs its
operations one after another from its task queue; other nodes and clients act on
the same server through the other events. -/
namespace Pronet.Msg

open Std Library

/-- A command in the task queue of the server. -/
inductive Task
  | onAcceptSession (sessionType : SessionType) (baseUser : MsgUser) (remoteIp : String)
  | onRecvSession (session : Session) (c2sUser : MsgUser) (msg : UpMsg)
  | kickoutUser (user : MsgUser)
  | onCloseSession (session : Session) (errorCode sslCode : Int)
  deriving DecidableEq, Repr

/-- What the environment answers while the server runs a task. -/
structure TaskInput where
  check : Option CheckResult
  newSession : Option Session
  ptr : CtxPtr
  deriving DecidableEq, Repr

def Server.runTask (s : Server) (input : TaskInput) : Task → Option (Server × List ServerCall)
  | .onAcceptSession sessionType baseUser remoteIp =>
      s.asyncOnAcceptSession sessionType baseUser remoteIp input.check input.newSession input.ptr
  | .onRecvSession session c2sUser (.clientLogin clientIndex clientId publicIp hash _) =>
      s.processMsgClientLogin session c2sUser clientIndex clientId publicIp hash input.check
  | .onRecvSession _ c2sUser (.clientLogout clientId) =>
      s.processMsgClientLogout c2sUser clientId
  | .kickoutUser user => s.asyncKickoutUser user
  | .onCloseSession session errorCode sslCode => s.asyncOnCloseSession session errorCode sslCode

structure LoginSystem where
  server : Server
  task : List Task
  c2s : C2s
  up : List UpMsg
  down : List DownMsg

inductive LoginEvent
  | c2sAccept (info : AcceptInfo) (timerId : Nat) (sent : Bool)
  | c2sTimer (timerId : Nat)
  | c2sClose (session : Session) (errorCode sslCode : Int)
  | c2sKickout (user : MsgUser)
  | c2sReceive (created : Option (Session × String)) (sent : Bool)
  | serverReceive
  | serverReceiveOther (session : Session) (srcUser : MsgUser) (msg : UpMsg)
  | serverAccept (sessionType : SessionType) (baseUser : MsgUser) (remoteIp : String)
  | serverKickout (user : MsgUser)
  | serverClose (session : Session) (errorCode sslCode : Int)
  | serverTask (input : TaskInput)
  deriving DecidableEq, Repr

/-- The control messages among the calls of the server that go out on `link`. -/
def ServerCall.linkMsg? (link : Session) : ServerCall → Option DownMsg
  | .sendToC2s session _ msg => if session = link then some msg else none
  | _ => none

def C2sCall.upMsg? : C2sCall → Option UpMsg
  | .sendMsg msg => some msg
  | _ => none

namespace LoginSystem

/-- The c2s node has acted: what it sent enters the upward channel. -/
def withC2s (w : LoginSystem) (r : C2s × List C2sCall) : LoginSystem :=
  { w with c2s := r.1, up := w.up ++ r.2.filterMap C2sCall.upMsg? }

/-- The server has acted: what it sent on the link enters the downward channel. -/
def withServer (link : Session) (w : LoginSystem) (r : Server × List ServerCall) : LoginSystem :=
  { w with server := r.1, down := w.down ++ r.2.filterMap (ServerCall.linkMsg? link) }

/-- `OnRecvSession` queues an admitted control message. -/
def enqueue (w : LoginSystem) (session : Session) (srcUser : MsgUser) (msg : UpMsg) :
    Option LoginSystem := do
  let admitted ← w.server.admitsC2sMsg w.task.length session srcUser msg
  return if admitted then { w with task := w.task ++ [.onRecvSession session srcUser msg] } else w

def step (link : Session) (w : LoginSystem) : LoginEvent → Option LoginSystem
  | .c2sAccept info timerId sent => some (w.withC2s (w.c2s.acceptSession info timerId sent))
  | .c2sTimer timerId => some (w.withC2s (w.c2s.onTimer timerId))
  | .c2sClose session errorCode sslCode =>
      some (w.withC2s (w.c2s.onCloseSession session errorCode sslCode))
  | .c2sKickout user => some (w.withC2s (w.c2s.asyncKickoutUser user))
  | .c2sReceive created sent =>
      match w.down with
      | [] => none
      | msg :: rest => some ({ w with down := rest }.withC2s (w.c2s.onRecvMsg created sent msg))
  | .serverReceive =>
      match w.up with
      | [] => none
      | msg :: rest => { w with up := rest }.enqueue link w.c2s.c2sUser msg
  | .serverReceiveOther session srcUser msg =>
      if session = link then none else w.enqueue session srcUser msg
  | .serverAccept sessionType baseUser remoteIp =>
      some (if w.task.length < maxPendingCount then
        { w with task := w.task ++ [.onAcceptSession sessionType baseUser remoteIp] } else w)
  | .serverKickout user =>
      some (if user.valid then { w with task := w.task ++ [.kickoutUser user] } else w)
  | .serverClose session errorCode sslCode =>
      some { w with task := w.task ++ [.onCloseSession session errorCode sslCode] }
  | .serverTask input =>
      match w.task with
      | [] => none
      | task :: rest => (w.server.runTask input task).map fun r =>
          { w with task := rest }.withServer link r

/-- The context of the link, as long as the server has it. -/
def linkCtx? (link : Session) (s : Server) : Option LinkCtx :=
  (s.session2Ctx[link]?).bind fun ptr => s.heap[ptr]?

def Quiescent (w : LoginSystem) : Prop :=
  w.up = [] ∧ w.down = [] ∧ w.task = []

/-- The users connected at the c2s node are the sub users of its link. -/
def Agrees (link : Session) (w : LoginSystem) : Prop :=
  ∀ ctx, linkCtx? link w.server = some ctx →
    ∀ user, user ∈ w.c2s.user2Session ↔ user ∈ ctx.subUsers

end LoginSystem

end Pronet.Msg
