import Pronet.Msg.Encode
import Pronet.Rtp.WrapperSend

/-! The message queue of `CRtpMsgClient` over its session. `PushMsg` queues a message
at any time, the login response releases the queue, and every callback of the session
sends one more. The flag that lets `PushMsg` and `OnSendSession` send is set behind
the section that handles the response, without its lock. -/
namespace Pronet.Msg

open Rtp Net Library Runs

/-- A message that fits in a packet. -/
structure QueuedMsg where
  body : List UInt8
  charset : UInt32
  srcUser : MsgUser
  dstUsers : List MsgUser
  body_ne : body ≠ []
  size_le : 16 + 8 * dstUsers.length + body.length ≤ maxPayloadSize
  deriving DecidableEq

namespace QueuedMsg

def size (msg : QueuedMsg) : Nat := 16 + 8 * msg.dstUsers.length + msg.body.length

def bytes (msg : QueuedMsg) : List UInt8 :=
  msgBytes msg.charset msg.srcUser (UInt8.ofNat msg.dstUsers.length) msg.dstUsers msg.body

/-- The source `SendData` fills in if there is none. -/
def own (user : MsgUser) (msg : QueuedMsg) : QueuedMsg :=
  if msg.srcUser.classId = 0 then { msg with srcUser := user } else msg

theorem own_own (user : MsgUser) (msg : QueuedMsg) : (msg.own user).own user = msg.own user := by
  unfold own
  split
  · split <;> rfl
  · rfl

theorem size_own (user : MsgUser) (msg : QueuedMsg) : (msg.own user).size = msg.size := by
  unfold own
  split <;> rfl

theorem length_bytes (msg : QueuedMsg) : msg.bytes.length = msg.size :=
  length_msgBytes msg.charset msg.srcUser _ msg.dstUsers msg.body

/-- The packet of a message, as `CreateRtpPacketSpace` and `SetMmType` make it. -/
def rtpPacket (msg : QueuedMsg) (mmType : UInt8) : RtpPacket :=
  RtpPacket.apply ⟨RtpPacket.dummyBuffer msg.bytes.length ++ msg.bytes⟩ (.mmType mmType)

theorem carries_rtpPacket (msg : QueuedMsg) (mmType : UInt8) :
    (msg.rtpPacket mmType).Carries msg.bytes ∧ 0 < msg.bytes.length ∧
      msg.bytes.length ≤ maxPayloadSize := by
  have hpos : msg.bytes.length ≠ 0 := by
    rw [msg.length_bytes, size]
    omega
  have hle : ¬ maxPayloadSize < msg.bytes.length := by
    rw [msg.length_bytes]
    exact Nat.not_lt.mpr msg.size_le
  have hcreate : RtpPacket.createInstance msg.bytes =
      some ⟨RtpPacket.dummyBuffer msg.bytes.length ++ msg.bytes⟩ := by
    simp [RtpPacket.createInstance, hpos, hle]
  obtain ⟨hcarries, h₁, h₂⟩ := RtpPacket.carries_createInstance hcreate
  exact ⟨hcarries.apply (.mmType mmType), h₁, h₂⟩

end QueuedMsg

/-- What the session of a message client is created with. -/
def clientInfo (ssl : Bool) (mmType : UInt8) : OutInfo := ⟨.clientEx, ssl, 0, mmType⟩

variable {ssl : Bool} {mmType : UInt8}

def QueuedMsg.packet (msg : QueuedMsg) : OutPacket (clientInfo ssl mmType) where
  packet := msg.rtpPacket mmType
  payload_pos := by
    obtain ⟨hcarries, hpos, hle⟩ := msg.carries_rtpPacket mmType
    rw [hcarries.payloadSize hle]
    exact hpos
  length_eq := by
    obtain ⟨hcarries, -, hle⟩ := msg.carries_rtpPacket mmType
    rw [hcarries.payloadSize hle]
    exact hcarries.length
  mmId := Or.inl rfl
  mmType := by
    simp [clientInfo, QueuedMsg.rtpPacket, RtpPacket.apply, RtpPacket.setMmType,
      RtpPacket.getMmType, byteAt, writeAt, RtpPacket.dummyBuffer]

/-- `CreateRtpBaseBucket`, for the queue of the client. A session for messages has a
bucket of the same kind. -/
def QueuedMsg.view : PacketView QueuedMsg where
  size := QueuedMsg.size
  size_pos msg := by
    unfold QueuedMsg.size
    omega
  marker _ := false
  keyFrame _ := false
  firstPacketOfFrame _ := false

abbrev ClientSession (ssl : Bool) (mmType : UInt8) :=
  SendPath (clientInfo ssl mmType) (.base (OutPacket.view (clientInfo ssl mmType)))

/-- `isOpen` says that the pointers of the client are not null, `window` that
`OnRecvSession` has left its section with the login response and not yet set
`m_onOkCalled`, and `onSend` that the session is calling `OnSendSession`. The last three
fields record the messages `PushMsg` has taken, those `SendPacket` has taken, and the
user of the login response. -/
structure ClientQueue (ssl : Bool) (mmType : UInt8) where
  session : ClientSession ssl mmType
  bucket : BaseBucket QueuedMsg
  user : MsgUser
  onOkCalled : Bool
  isOpen : Bool
  window : Bool
  onSend : Bool
  pushed : List QueuedMsg
  accepted : List QueuedMsg
  login : Option MsgUser

inductive QueueEvent (ssl : Bool) (mmType : UInt8)
  | pushMsg (body : List UInt8) (charset : UInt32) (dstUsers : List MsgUser)
      (srcUser : Option MsgUser)
  | onRecvSession (srcUser : MsgUser)
  | onOkMsg
  | onSendSession
  | setOutputRedline (redlineBytes : Nat)
  | onCloseSession
  | session (e : SendEvent (clientInfo ssl mmType))

namespace ClientQueue

def init (user : MsgUser) : ClientQueue ssl mmType :=
  ⟨.init, .new, user, false, true, false, false, [], [], none⟩

/-- What `m_session->SendPacket` returns. -/
def takes (c : ClientQueue ssl mmType) (msg : QueuedMsg) : Bool :=
  c.session.isOpen && c.session.enableOutput &&
    (c.session.queue.1.pushBackAddRef (OutPacket.view _) msg.packet).2

/-- The packet in front, changed in place. -/
def setFront (b : BaseBucket QueuedMsg) (msg : QueuedMsg) : BaseBucket QueuedMsg :=
  { b with packets := msg :: b.packets.tail }

/-- `SendData`. The session is not locked, because the caller has the lock of the
client and nobody else sends on the session. -/
def sendData (c : ClientQueue ssl mmType) (onOkCalled : Bool) : ClientQueue ssl mmType :=
  if !onOkCalled then c
  else
    match c.bucket.getFront with
    | none => c
    | some front =>
        let msg := front.own c.user
        let c := { c with bucket := setFront c.bucket msg }
        match c.session.perform (.sendPacket msg.packet false) with
        | none => c
        | some (session, _) =>
            if c.takes msg then
              { c with
                session := session
                bucket := (c.bucket.popFrontRelease QueuedMsg.view msg).1
                accepted := c.accepted ++ [msg] }
            else { c with session := session }

/-- `GetFlowctrlInfo` of the session: the bytes that wait there. -/
def sessionBytes (c : ClientQueue ssl mmType) : Nat :=
  if c.session.isOpen then c.session.queue.1.totalBytes else 0

/-- `PushMsg`, for `SendMsg` without and for `TransferMsg` with a source. -/
def pushMsg (c : ClientQueue ssl mmType) (body : List UInt8) (charset : UInt32)
    (dstUsers : List MsgUser) (srcUser : Option MsgUser) : ClientQueue ssl mmType × Bool :=
  if !c.isOpen then (c, false)
  else if c.bucket.redlineBytes <
      c.sessionBytes + c.bucket.totalBytes + (16 + 8 * dstUsers.length) + body.length then (c, false)
  else if h : body ≠ [] ∧ 16 + 8 * dstUsers.length + body.length ≤ maxPayloadSize then
    if !dstUsers.all MsgUser.valid then (c, false)
    else
      let msg : QueuedMsg := ⟨body, charset, srcUser.getD zeroUser, dstUsers, h.1, h.2⟩
      let (bucket, ret) := c.bucket.pushBackAddRef QueuedMsg.view msg
      ({ c with
          bucket := bucket
          pushed := if ret then c.pushed ++ [msg] else c.pushed }.sendData c.onOkCalled, ret)
  else (c, false)

/-- The events of the session that do not come from the client. A callback of the
transport does not overlap with `OnRecvSession`, and ends before the transport goes on. -/
def mayRun (c : ClientQueue ssl mmType) : SendEvent (clientInfo ssl mmType) → Bool
  | .sendPacket .. | .setOutputRedline .. | .enableOutput .. => false
  | .upcall => !c.window && !c.onSend
  | .deregister => !c.onSend
  | _ => true

/-- An event of the client waits for its lock, which is held while the session is
sending for it. -/
def step (c : ClientQueue ssl mmType) : QueueEvent ssl mmType → Option (ClientQueue ssl mmType)
  | .pushMsg body charset dstUsers srcUser =>
      if c.session.locked then none else some (c.pushMsg body charset dstUsers srcUser).1
  | .onRecvSession srcUser =>
      if c.session.locked || c.window || c.onSend || !c.session.isOpen || !srcUser.valid ||
          c.session.okPhase ≠ .done then none
      else if !c.isOpen || c.onOkCalled then some c
      else some ({ c with user := srcUser, login := some srcUser, window := true }.sendData true)
  | .onOkMsg =>
      if c.window then some { c with onOkCalled := true, window := false } else none
  | .onSendSession =>
      if c.session.locked || !c.onSend then none
      else some { (if c.isOpen then c.sendData c.onOkCalled else c) with onSend := false }
  | .setOutputRedline redlineBytes =>
      if c.session.locked then none
      else if redlineBytes = 0 || !c.isOpen then some c
      else
        (c.session.perform (.setOutputRedline redlineBytes 0)).map fun r =>
          { c with session := r.1, bucket := c.bucket.setRedline redlineBytes }
  | .onCloseSession => if c.session.locked then none else some { c with isOpen := false }
  | .session e =>
      if !c.mayRun e then none
      else
        (c.session.perform e).map fun r =>
          { c with session := r.1, onSend := c.onSend || !r.2.isEmpty }

/-- What the queue promises in a state. A message is accepted in its turn and as the
login user, if it has no source of its own; a refused one changes nothing; and after the
login a message that waits has a callback to come. -/
structure Sound (c : ClientQueue ssl mmType) : Prop where
  before : c.login = none → c.accepted = [] ∧ c.bucket.packets = c.pushed
  order : ∀ user, c.login = some user →
    c.accepted ++ c.bucket.packets.map (QueuedMsg.own user) = c.pushed.map (QueuedMsg.own user)
  refused : ∀ body charset dstUsers srcUser,
    (c.pushMsg body charset dstUsers srcUser).2 = false →
      (c.pushMsg body charset dstUsers srcUser).1 = c
  owed : c.onOkCalled = true → c.isOpen = true → c.session.Open → c.session.locked = false →
    c.bucket.packets ≠ [] → c.session.trans.Owes ∨ c.onSend = true

end ClientQueue

end Pronet.Msg
