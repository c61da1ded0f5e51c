import Pronet.Library.Tables
import Pronet.Msg.User

/-! The user tables of `CRtpMsgServer` between `Init` and `Fini`. Link contexts
live on a heap and the two maps hold pointers to them, so an update through one
pointer is seen through every other, and `delete` may leave a pointer behind.
An operation that follows a deleted pointer yields `none`. Each operation
returns the calls it makes, in order. -/
namespace Pronet.Msg

open Std Library

/-- `IRtpSession*` and `RTP_MSG_LINK_CTX*`. -/
abbrev Session := Nat
abbrev CtxPtr := Nat
abbrev UserSet := ExtTreeSet MsgUser

/-- Control messages from a c2s node to the server. -/
inductive UpMsg
  | clientLogin (clientIndex : Nat) (clientId : MsgUser) (publicIp : String)
      (hashString : List Char) (nonce : Nat)
  | clientLogout (clientId : MsgUser)
  deriving DecidableEq, Repr

/-- Control messages from the server to a c2s node. -/
inductive DownMsg
  | clientLoginOk (clientIndex : Nat) (clientId : MsgUser)
  | clientLoginError (clientIndex : Nat)
  | clientKickout (clientId : MsgUser)
  deriving DecidableEq, Repr

/-- The kind of session a remote end asks for. -/
inductive SessionType
  | tcpClientEx
  | sslClientEx
  deriving DecidableEq, Repr

/-- Without a TLS configuration only plain sessions are admitted, and with a
forced one only TLS sessions. -/
def sslAdmits (sslConfig sslForced : Bool) (sessionType : SessionType) : Bool :=
  if !sslConfig then sessionType = .tcpClientEx
  else if sslForced then sessionType = .sslClientEx
  else true

/-- A user id in the statically assigned range, or zero for a dynamic one. -/
def nodeUserOk (user : MsgUser) : Bool :=
  user.classId != 0 && (user.userId == 0 || nodeUidMin ≤ user.userId && user.userId ≤ nodeUidMax) &&
    !user.isRoot

/-- A positive answer of `OnCheckUser`. -/
structure CheckResult where
  userId : Nat
  instId : UInt16
  appData : Int
  isC2s : Bool
  deriving DecidableEq, Repr

/-- The user that is logged in after a positive answer. -/
def CheckResult.apply (check : CheckResult) (user : MsgUser) : MsgUser :=
  { user.setUserId check.userId with instId := check.instId }

structure LinkCtx where
  session : Session
  baseUser : MsgUser
  subUsers : UserSet
  isC2s : Bool

/-- The users a context speaks for. -/
def LinkCtx.users (ctx : LinkCtx) : UserSet :=
  ctx.subUsers.insert ctx.baseUser

/-- Calls made on sessions and on the observer. -/
inductive ServerCall
  | sendToC2s (session : Session) (c2sUser : MsgUser) (msg : DownMsg)
  | sendResponse (session : Session) (user : MsgUser) (publicIp : String)
  | setOutputRedline (session : Session) (redlineBytes : Nat)
  | suspendRecv (session : Session)
  | resumeRecv (session : Session)
  | onOkUser (user : MsgUser) (publicIp : String) (c2sUser : Option MsgUser) (appData : Int)
  | onCloseUser (user : MsgUser) (errorCode sslCode : Int)
  | deleteSession (session : Session)

structure Server where
  heap : ExtTreeMap CtxPtr LinkCtx
  session2Ctx : ExtTreeMap Session CtxPtr
  user2Ctx : ExtTreeMap MsgUser CtxPtr
  redlineBytes : Nat
  sslConfig : Bool
  sslForced : Bool

namespace Server

def init (sslConfig sslForced : Bool) : Server :=
  ⟨∅, ∅, ∅, 1024 * 1024 * 8, sslConfig, sslForced⟩

/-- `GetUserCount`: the base users and, as a wrapping `size_t`, the sub users. -/
def getUserCount (s : Server) : Nat × Nat :=
  (s.session2Ctx.size, (s.user2Ctx.size + 2 ^ 64 - s.session2Ctx.size) % 2 ^ 64)

/-- Erase the users of a link and the link itself, then delete its context. -/
def dropLink (s : Server) (session : Session) (ptr : CtxPtr) (ctx : LinkCtx) : Server :=
  { s with
    user2Ctx := Tables.eraseAll ctx.users.toList s.user2Ctx
    session2Ctx := s.session2Ctx.erase session
    heap := s.heap.erase ptr }

/-- Erase one sub user from the context that lists it and from the user table. -/
def dropSubUser (s : Server) (ptr : CtxPtr) (ctx : LinkCtx) (user : MsgUser) : Server :=
  { s with
    heap := s.heap.insert ptr { ctx with subUsers := ctx.subUsers.erase user }
    user2Ctx := s.user2Ctx.erase user }

/-- A new context for a fresh session. -/
def insertLink (s : Server) (session : Session) (ptr : CtxPtr) (baseUser : MsgUser)
    (isC2s : Bool) : Server :=
  { s with
    heap := s.heap.insert ptr ⟨session, baseUser, ∅, isC2s⟩
    session2Ctx := s.session2Ctx.insert session ptr
    user2Ctx := s.user2Ctx.insert baseUser ptr }

def insertSubUser (s : Server) (ptr : CtxPtr) (ctx : LinkCtx) (user : MsgUser) : Server :=
  { s with
    heap := s.heap.insert ptr { ctx with subUsers := ctx.subUsers.insert user }
    user2Ctx := s.user2Ctx.insert user ptr }

def notifyKickout (session : Session) (c2sUser subUser : MsgUser) : List ServerCall :=
  if c2sUser.classId ≠ serverCid || c2sUser.userId == 0 || !subUser.valid || subUser = c2sUser then
    []
  else
    [.sendToC2s session c2sUser (.clientKickout subUser)]

/-- What the "remove old" block leaves behind. -/
structure Removed where
  server : Server
  oldUsers : UserSet
  oldSession : Option Session
  calls : List ServerCall

/-- The "remove old" block shared by the operations. `keeper` is the c2s user
whose own link is not told about the removal. -/
def removeOld (s : Server) (user : MsgUser) (keeper : Option MsgUser) : Option Removed :=
  match s.user2Ctx[user]? with
  | none => some ⟨s, ∅, none, []⟩
  | some ptr =>
    match s.heap[ptr]? with
    | none => none
    | some ctx =>
      if user = ctx.baseUser then
        some ⟨s.dropLink ctx.session ptr ctx, ctx.subUsers.insert user, some ctx.session, []⟩
      else
        some ⟨s.dropSubUser ptr ctx user, (∅ : UserSet).insert user, none,
          if keeper = some ctx.baseUser then []
          else notifyKickout ctx.session ctx.baseUser user⟩

def closeUsers (users : UserSet) (errorCode sslCode : Int) : List ServerCall :=
  users.toList.map fun user => .onCloseUser user errorCode sslCode

def deleteSession (session : Option Session) : List ServerCall :=
  session.toList.map .deleteSession

def asyncKickoutUser (s : Server) (user : MsgUser) : Option (Server × List ServerCall) := do
  let old ← s.removeOld user none
  return (old.server, old.calls ++ closeUsers old.oldUsers (-1) 0 ++ deleteSession old.oldSession)

/-- `newSession` is the result of `CreateRtpSessionWrapper`, `ptr` that of `new`. -/
def addBaseUser (s : Server) (newSession : Option Session) (ptr : CtxPtr) (baseUser : MsgUser)
    (publicIp : String) (appData : Int) (isC2s : Bool) : Option (Server × List ServerCall) := do
  if !baseUser.valid then
    return (s, [])
  let some session := newSession | return (s, [])
  let old ← s.removeOld baseUser none
  return (old.server.insertLink session ptr baseUser isC2s, old.calls ++ closeUsers old.oldUsers (-1) 0 ++
    [.suspendRecv session, .sendResponse session baseUser publicIp,
      .onOkUser baseUser publicIp none appData, .resumeRecv session] ++
    deleteSession old.oldSession)

/-- `msg` is the `client_login_ok` text the caller built. -/
def addSubUser (s : Server) (c2sUser subUser : MsgUser) (publicIp : String) (msg : DownMsg)
    (appData : Int) : Option (Server × List ServerCall) := do
  if c2sUser.classId ≠ serverCid || c2sUser.userId == 0 || !subUser.valid ||
      subUser = c2sUser then
    return (s, [])
  let some newPtr := s.user2Ctx[c2sUser]? | return (s, [])
  let newCtx ← s.heap[newPtr]?
  if !newCtx.isC2s || c2sUser ≠ newCtx.baseUser then
    return (s, [])
  let old ← s.removeOld subUser (some c2sUser)
  -- The removal may have changed the context that `newPtr` points to.
  let newCtx ← old.server.heap[newPtr]?
  return (old.server.insertSubUser newPtr newCtx subUser, old.calls ++
    (if (newCtx.subUsers.insert subUser).size = 1 then [.setOutputRedline newCtx.session s.redlineBytes] else []) ++
    closeUsers old.oldUsers (-1) 0 ++
    [.suspendRecv newCtx.session, .sendToC2s newCtx.session c2sUser msg,
      .onOkUser subUser publicIp (some c2sUser) appData, .resumeRecv newCtx.session] ++
    deleteSession old.oldSession)

/-- The user has been parsed from the `client_id` field. -/
def processMsgClientLogout (s : Server) (c2sUser subUser : MsgUser) :
    Option (Server × List ServerCall) := do
  if c2sUser.classId ≠ serverCid || c2sUser.userId == 0 || !subUser.valid ||
      subUser = c2sUser then
    return (s, [])
  let some ptr := s.user2Ctx[subUser]? | return (s, [])
  let ctx ← s.heap[ptr]?
  if !ctx.isC2s || c2sUser ≠ ctx.baseUser then
    return (s, [])
  return (s.dropSubUser ptr ctx subUser, [.onCloseUser subUser (-1) 0])

def asyncOnCloseSession (s : Server) (session : Session) (errorCode sslCode : Int) :
    Option (Server × List ServerCall) := do
  let some ptr := s.session2Ctx[session]? | return (s, [])
  let ctx ← s.heap[ptr]?
  return (s.dropLink session ptr ctx,
    closeUsers ctx.users errorCode sslCode ++ [.deleteSession session])

/-- `AsyncOnAcceptSession` up to `AddBaseUser`. The answer of `OnCheckUser` is an
input, so the id proposed for a dynamic user does not matter here. -/
def asyncOnAcceptSession (s : Server) (sessionType : SessionType) (baseUser : MsgUser)
    (remoteIp : String) (check : Option CheckResult) (newSession : Option Session)
    (ptr : CtxPtr) : Option (Server × List ServerCall) := do
  if !sslAdmits s.sslConfig s.sslForced sessionType || !nodeUserOk baseUser then
    return (s, [])
  let some result := check | return (s, [])
  if result.userId < nodeUidMin || result.userId > nodeUidMaxx then
    return (s, [])
  s.addBaseUser newSession ptr (result.apply baseUser) remoteIp result.appData result.isC2s

/-- `ProcessMsg_client_login` for the parsed fields of the message. -/
def processMsgClientLogin (s : Server) (session : Session) (c2sUser : MsgUser)
    (clientIndex : Nat) (clientId : MsgUser) (publicIp : String) (hashString : List Char)
    (check : Option CheckResult) : Option (Server × List ServerCall) := do
  if c2sUser.classId ≠ serverCid || c2sUser.userId == 0 then
    return (s, [])
  if !nodeUserOk clientId || clientId = c2sUser || hashString.length ≠ 64 then
    return (s, [])
  let refused := (s, [.sendToC2s session c2sUser (.clientLoginError clientIndex)])
  let some result := check | return refused
  let subUser := result.apply clientId
  if result.userId < nodeUidMin || result.userId > nodeUidMaxx || subUser = c2sUser then
    return refused
  s.addSubUser c2sUser subUser publicIp (.clientLoginOk clientIndex subUser) result.appData

/-- The "from c2s" part of `OnRecvSession`: whether a control message that
`srcUser` sent on `session` is queued behind `taskSize` other tasks. -/
def admitsC2sMsg (s : Server) (taskSize : Nat) (session : Session) (srcUser : MsgUser)
    (msg : UpMsg) : Option Bool := do
  let some ptr := s.session2Ctx[session]? | return false
  let ctx ← s.heap[ptr]?
  if !ctx.isC2s || srcUser.classId ≠ serverCid || srcUser ≠ ctx.baseUser then
    return false
  match msg with
  | .clientLogin .. => return taskSize < maxPendingCount
  | .clientLogout _ => return true

end Server

end Pronet.Msg
