import Pronet.Msg.Server

/-! The login tables of `CRtpMsgC2s`. An accepted connection waits under the id
of its login timer until the server answers; a logged-in user is known by its
downlink session. Each operation returns the calls it makes, in order. -/
namespace Pronet.Msg

open Std

/-- `RTP_MSG_AsyncOnAcceptSession`: an accepted connection that waits for the
answer of the server. `user` and `passwordHash` come with the remote info. -/
structure AcceptInfo where
  sslCtx : Option Nat
  sockId : Int
  unixSocket : Bool
  remoteIp : String
  remotePort : Nat
  nonce : Nat
  sessionType : SessionType
  user : MsgUser
  passwordHash : List UInt8
  deriving DecidableEq, Repr

inductive C2sCall
  | sendMsg (msg : UpMsg)
  | sendResponse (session : Session) (user : MsgUser) (publicIp : String)
  | cancelTimer (timerId : Nat)
  | closeSocket (sslCtx : Option Nat) (sockId : Int)
  | onOkUser (user : MsgUser) (publicIp : String)
  | onCloseUser (user : MsgUser) (errorCode sslCode : Int)
  | deleteSession (session : Session)
  | onOkC2s (user : MsgUser) (publicIp : String)
  | onCloseC2s (errorCode sslCode : Int) (tcpConnected : Bool)
  deriving DecidableEq, Repr

structure C2s where
  msgClient : Bool
  c2sUser : MsgUser
  timerId2Info : ExtTreeMap Nat AcceptInfo
  session2User : ExtTreeMap Session MsgUser
  user2Session : ExtTreeMap MsgUser Session
  localSslConfig : Bool
  localSslForced : Bool

/-- `"%02x"` of every byte of the hash. -/
def hashString (hash : List UInt8) : List Char :=
  hash.flatMap fun byte => [Nat.digitChar (byte.toNat / 16), Nat.digitChar (byte.toNat % 16)]

namespace C2s

def closeInfo (info : AcceptInfo) : C2sCall :=
  .closeSocket info.sslCtx info.sockId

def reportLogout (user : MsgUser) : List C2sCall :=
  if user.valid then [.sendMsg (.clientLogout user)] else []

/-- `AcceptSession` with the id its timer got and the result of `SendMsg`. The
index in the message is an `unsigned int`. -/
def acceptSession (s : C2s) (info : AcceptInfo) (timerId : Nat) (sent : Bool) :
    C2s × List C2sCall :=
  if !sslAdmits s.localSslConfig s.localSslForced info.sessionType || !nodeUserOk info.user ||
      maxPendingCount ≤ s.timerId2Info.size || !s.msgClient || !s.c2sUser.valid ||
      info.user = s.c2sUser then
    (s, [closeInfo info])
  else if !sent then
    (s, [.cancelTimer timerId, closeInfo info])
  else
    ({ s with timerId2Info := s.timerId2Info.insert timerId info },
      [.sendMsg (.clientLogin (timerId % 2 ^ 32) info.user info.remoteIp
        (hashString info.passwordHash) info.nonce)])

/-- `ProcessMsg_client_login_ok` with the session `CreateRtpSessionWrapper` made,
its remote address, and whether the response could be sent on it. -/
def processMsgClientLoginOk (s : C2s) (clientIndex : Nat) (user : MsgUser)
    (created : Option (Session × String)) (sent : Bool) : C2s × List C2sCall :=
  if !user.valid || !s.msgClient then
    (s, [])
  else
    match s.timerId2Info[clientIndex]? with
    | none => (s, reportLogout user)
    | some info =>
      let waiting := { s with timerId2Info := s.timerId2Info.erase clientIndex }
      match created with
      | none =>
        (waiting, [.cancelTimer clientIndex, closeInfo info] ++ reportLogout user)
      | some (newSession, publicIp) =>
        let oldSession := s.user2Session[user]?
        let freed := { waiting with
          session2User := oldSession.elim s.session2User s.session2User.erase
          user2Session := s.user2Session.erase user }
        let closed := if oldSession.isSome then [.onCloseUser user (-1) 0] else []
        if sent then
          ({ freed with
              session2User := freed.session2User.insert newSession user
              user2Session := freed.user2Session.insert user newSession },
            [.cancelTimer clientIndex, .sendResponse newSession user publicIp] ++ closed ++
              [.onOkUser user publicIp] ++ oldSession.toList.map .deleteSession)
        else
          (freed, [.cancelTimer clientIndex, .sendResponse newSession user publicIp] ++ closed ++
            reportLogout user ++ [.deleteSession newSession] ++
            oldSession.toList.map .deleteSession)

/-- `ProcessMsg_client_login_error`; a pending timer that fires does the same. -/
def dropPending (s : C2s) (timerId : Nat) : C2s × List C2sCall :=
  match s.timerId2Info[timerId]? with
  | none => (s, [])
  | some info =>
    ({ s with timerId2Info := s.timerId2Info.erase timerId },
      [.cancelTimer timerId, closeInfo info])

def processMsgClientLoginError (s : C2s) (clientIndex : Nat) : C2s × List C2sCall :=
  if !s.msgClient then (s, []) else s.dropPending clientIndex

/-- `OnTimer` for a login timer. -/
def onTimer (s : C2s) (timerId : Nat) : C2s × List C2sCall :=
  if timerId = 0 then (s, []) else s.dropPending timerId

/-- Erase a logged-in user together with its session. -/
def dropUser (s : C2s) (user : MsgUser) (session : Session) : C2s :=
  { s with
    session2User := s.session2User.erase session
    user2Session := s.user2Session.erase user }

def processMsgClientKickout (s : C2s) (user : MsgUser) : C2s × List C2sCall :=
  if !user.valid || !s.msgClient then
    (s, [])
  else
    match s.user2Session[user]? with
    | none => (s, [])
    | some session =>
      (s.dropUser user session, [.onCloseUser user (-1) 0, .deleteSession session])

def asyncKickoutUser (s : C2s) (user : MsgUser) : C2s × List C2sCall :=
  match s.user2Session[user]? with
  | none => (s, [])
  | some session =>
    (s.dropUser user session, (if s.msgClient then reportLogout user else []) ++
      [.onCloseUser user (-1) 0, .deleteSession session])

def onCloseSession (s : C2s) (session : Session) (errorCode sslCode : Int) :
    C2s × List C2sCall :=
  match s.session2User[session]? with
  | none => (s, [])
  | some user =>
    (s.dropUser user session, (if s.msgClient then reportLogout user else []) ++
      [.onCloseUser user errorCode sslCode, .deleteSession session])

/-- `OnOkMsg`: the uplink client has logged in. -/
def onOkMsg (s : C2s) (myUser : MsgUser) (myPublicIp : String) : C2s × List C2sCall :=
  if myUser.classId ≠ serverCid || myUser.userId == 0 || myPublicIp.isEmpty || !s.msgClient then
    (s, [])
  else
    ({ s with c2sUser := myUser }, [.onOkC2s myUser myPublicIp])

/-- `OnCloseMsg`: the uplink client is lost, and with it everybody. -/
def onCloseMsg (s : C2s) (errorCode sslCode : Int) (tcpConnected : Bool) : C2s × List C2sCall :=
  if !s.msgClient then
    (s, [])
  else
    ({ s with
        msgClient := false
        c2sUser := ⟨0, 0, 0, 0, 0, 0, 0⟩
        timerId2Info := ∅
        session2User := ∅
        user2Session := ∅ },
      (s.timerId2Info.toList.flatMap fun entry => [.cancelTimer entry.1, closeInfo entry.2]) ++
        s.session2User.keys.map .deleteSession ++ [.onCloseC2s errorCode sslCode tcpConnected])

/-- `OnTimer` for `m_timerId`, with the result of creating a new uplink client. -/
def reconnect (s : C2s) (connected : Bool) : C2s :=
  if s.msgClient then s else { s with msgClient := connected }

end C2s

/-- `OnRecvMsg` dispatches the control messages of the server. -/
def C2s.onRecvMsg (s : C2s) (created : Option (Session × String)) (sent : Bool) :
    DownMsg → C2s × List C2sCall
  | .clientLoginOk clientIndex user => s.processMsgClientLoginOk clientIndex user created sent
  | .clientLoginError clientIndex => s.processMsgClientLoginError clientIndex
  | .clientKickout user => s.processMsgClientKickout user

end Pronet.Msg
