import Pronet.Msg.ServerObserver

/-! `CMsgServer`, the observer of the message server that admits users from a
database and counts the instances of each of them. The two run as one machine: a
login asks the observer first, and the callbacks of every operation reach it in
order. -/
namespace Pronet.Msg

open Std Library Runs

/-- `TBL_MSG_USER_ROW`. -/
structure TblMsgUserRow where
  cid : Int
  uid : Int
  maxiids : Int
  isc2s : Int
  passwd : String
  bindedip : String
  deriving DecidableEq, Repr

def maxNodeUid : Int := 0xFFFFFFFFFF

def TblMsgUserRow.adjust (row : TblMsgUserRow) : TblMsgUserRow :=
  { row with
    cid := if row.cid < 0 || 255 < row.cid then 0 else row.cid
    uid := if row.uid < 0 || maxNodeUid < row.uid then 0 else row.uid
    maxiids := if row.maxiids < 1 || 65535 < row.maxiids then 1 else row.maxiids }

/-- The first row that `tbl_msg01_user` has for a `_cid_` and a `_uid_`. -/
abbrev MsgDb := UInt8 → Nat → Option TblMsgUserRow

/-- The row of the user or else that of its class. -/
def MsgDb.matchingRow (db : MsgDb) (classId : UInt8) (userId : Nat) : Option TblMsgUserRow :=
  (db classId userId).or (db classId 0)

/-- `m_uid2Ctx`, with the instance ids of each user. -/
structure MsgServer where
  uid2Ctx : UInt8 → ExtTreeMap Nat (ExtTreeSet UInt16)

/-- What decides on a login: the database, `pbsd_inet_aton` and `CheckRtpServiceData`. -/
structure Admission where
  db : MsgDb
  inetAton : String → UInt32
  checkServiceData : UInt64 → String → List UInt8 → Bool

namespace MsgServer

def init : MsgServer := ⟨fun _ => ∅⟩

/-- The two tests on the instances that are already there. -/
def instRefused (iids : ExtTreeSet UInt16) (row : TblMsgUserRow) (user : MsgUser) : Bool :=
  decide (row.maxiids.toNat ≤ iids.size) && decide (user.instId ∉ iids) ||
    user.classId == serverCid && decide (user.instId ∈ iids)

/-- `OnCheckUser`; `selected` says that the database answered. -/
def onCheckUser (a : Admission) (s : MsgServer) (selected : Bool) (user : MsgUser)
    (userPublicIp : String) (hash : List UInt8) (nonce : UInt64) : Option CheckResult := do
  if !user.valid || userPublicIp.isEmpty || !selected then
    none
  let row ← (a.db.matchingRow user.classId user.userId).map TblMsgUserRow.adjust
  let bindedIp := a.inetAton row.bindedip
  if bindedIp ≠ 0xFFFFFFFF && bindedIp ≠ 0 && a.inetAton userPublicIp ≠ bindedIp then
    none
  if ((s.uid2Ctx user.classId)[user.userId]?).any (fun iids => instRefused iids row user) then
    none
  if !a.checkServiceData nonce row.passwd hash then
    none
  return ⟨user.userId, user.instId, 0, row.isc2s ≠ 0⟩

def onOkUser (s : MsgServer) (user : MsgUser) (userPublicIp : String) : MsgServer :=
  if !user.valid || userPublicIp.isEmpty then s
  else
    let ctxs := s.uid2Ctx user.classId
    let iids := ((ctxs[user.userId]?).getD ∅).insert user.instId
    ⟨Function.update s.uid2Ctx user.classId (ctxs.insert user.userId iids)⟩

def onCloseUser (s : MsgServer) (user : MsgUser) : MsgServer :=
  if !user.valid then s
  else
    let ctxs := s.uid2Ctx user.classId
    match ctxs[user.userId]? with
    | none => s
    | some iids =>
        let iids := iids.erase user.instId
        ⟨Function.update s.uid2Ctx user.classId
          (if iids.size = 0 then ctxs.erase user.userId else ctxs.insert user.userId iids)⟩

/-- What the message server calls reaches the observer. -/
def observe (s : MsgServer) : ServerCall → MsgServer
  | .onOkUser user publicIp _ _ => s.onOkUser user publicIp
  | .onCloseUser user _ _ => s.onCloseUser user
  | _ => s

end MsgServer

def nodeIidMin : UInt16 := 1

/-- The user that is checked: `MakeServerId_i` or `MakeClientId_i` made `madeId`. -/
def madeUser (user : MsgUser) (madeId : Nat) : MsgUser :=
  if user.userId = 0 then { user.setUserId madeId with instId := nodeIidMin } else user

/-- The message server and its observer. -/
structure MsgStation where
  server : Server
  msgServer : MsgServer

inductive StationOp
  | acceptSession (sessionType : SessionType) (baseUser : MsgUser) (remoteIp : String)
      (hash : List UInt8) (nonce : UInt64) (madeId : Nat) (selected : Bool)
      (newSession : Option Session) (ptr : CtxPtr)
  | clientLogin (session : Session) (c2sUser : MsgUser) (clientIndex : Nat) (clientId : MsgUser)
      (publicIp : String) (hashString : List Char) (hash : List UInt8) (nonce : UInt64)
      (madeId : Nat) (selected : Bool)
  | clientLogout (c2sUser subUser : MsgUser)
  | kickoutUser (user : MsgUser)
  | onCloseSession (session : Session) (errorCode sslCode : Int)

namespace MsgStation

def init (sslConfig sslForced : Bool) : MsgStation :=
  ⟨Server.init sslConfig sslForced, MsgServer.init⟩

/-- The operation of the message server, with the answer of the observer. -/
def perform (a : Admission) (w : MsgStation) : StationOp → Option (Server × List ServerCall)
  | .acceptSession sessionType baseUser remoteIp hash nonce madeId selected newSession ptr =>
      w.server.asyncOnAcceptSession sessionType baseUser remoteIp
        (w.msgServer.onCheckUser a selected (madeUser baseUser madeId) remoteIp hash nonce)
        newSession ptr
  | .clientLogin session c2sUser clientIndex clientId publicIp hashString hash nonce madeId
      selected =>
      w.server.processMsgClientLogin session c2sUser clientIndex clientId publicIp hashString
        (w.msgServer.onCheckUser a selected (madeUser clientId madeId) publicIp hash nonce)
  | .clientLogout c2sUser subUser => w.server.processMsgClientLogout c2sUser subUser
  | .kickoutUser user => w.server.asyncKickoutUser user
  | .onCloseSession session errorCode sslCode =>
      w.server.asyncOnCloseSession session errorCode sslCode

def step (a : Admission) (w : MsgStation) (op : StationOp) : Option MsgStation :=
  (w.perform a op).map fun r => ⟨r.1, r.2.foldl MsgServer.observe w.msgServer⟩

/-- Sessions and contexts are new. -/
def Fresh (w : MsgStation) : StationOp → Prop
  | .acceptSession _ _ _ _ _ _ _ newSession ptr =>
      w.server.heap[ptr]? = none ∧ ∀ session ∈ newSession, w.server.session2Ctx[session]? = none
  | _ => True

instance (w : MsgStation) (op : StationOp) : Decidable (w.Fresh op) :=
  match op with
  | .acceptSession _ _ _ _ _ _ _ newSession ptr =>
      decidable_of_iff ((w.server.heap[ptr]?).isNone = true ∧
        newSession.all (fun session => (w.server.session2Ctx[session]?).isNone) = true) (by
          simp [Fresh, Option.all_eq_true])
  | .clientLogin .. => isTrue trivial
  | .clientLogout .. => isTrue trivial
  | .kickoutUser .. => isTrue trivial
  | .onCloseSession .. => isTrue trivial

/-- The user that a login is for. -/
def loginUser : StationOp → Option MsgUser
  | .acceptSession _ baseUser _ _ _ madeId _ _ _ => some (madeUser baseUser madeId)
  | .clientLogin _ _ _ clientId _ _ _ _ madeId _ => some (madeUser clientId madeId)
  | _ => none

end MsgStation

end Pronet.Msg
