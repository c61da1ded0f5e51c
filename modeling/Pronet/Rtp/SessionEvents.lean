import Pronet.Library.Runs
import Pronet.Net.TcpHandshaker
import Pronet.Rtp.TcpSession

/-! The handlers of the TCP and UDP-EX sessions as sections under `m_lock`. The
handler that holds `m_lockUpcall` is a part of the state, so that `Fini`, which
takes `m_lock` only, may come between any two of its sections. -/
namespace Pronet.Rtp

open Net Library

/-- The values of `RTP_SESSION_TYPE` for the six classes. -/
inductive SessionKind
  | tcpClient
  | tcpServer
  | tcpClientEx
  | tcpServerEx
  | udpClientEx
  | udpServerEx
  deriving DecidableEq, Repr

def SessionKind.isUdp : SessionKind → Bool
  | .udpClientEx | .udpServerEx => true
  | _ => false

/-- The two fields of `pbsd_sockaddr_in` that are compared. -/
structure SockAddr where
  sinAddr : UInt32
  sinPort : UInt16
  deriving DecidableEq, Repr

/-- The calls into `IRtpSessionObserver`, with `OnSendSession`. -/
inductive Upcall
  | onOkSession
  | onRecvSession (packet : RtpPacket)
  | onSendSession (packetErased : Bool)
  | onCloseSession (errorCode sslCode : Int) (tcpConnected : Bool)
  deriving DecidableEq, Repr

/-- Where the handler that holds `m_lockUpcall` stands. -/
inductive Handler
  /-- `OnRecv`, at the head of its loop. -/
  | receiving (trans : Nat) (source : SockAddr)
  /-- `OnRecv`, about to make the upcalls for a frame. -/
  | received (trans : Nat) (source : SockAddr) (error : Bool) (packet : Option RtpPacket)
  /-- `OnConnectOk` of an EX client; `ok` says that `sockId` is not -1. -/
  | connected (ok : Bool)
  /-- The handlers that report `OnOkSession`. -/
  | opened (ok : Bool)
  | sent
  /-- The handlers that report `OnCloseSession`; some of them call `Fini` behind it. -/
  | closed (errorCode sslCode : Int) (fini : Bool)
  | timer (timeout : Bool)
  deriving DecidableEq, Repr

/-- The observer and the reactor are set and cleared together. -/
structure Session where
  kind : SessionKind
  info : SessionInfo
  keepaliveTimeout : Nat
  hasSslConfig : Bool
  hasObserver : Bool
  trans : Option Nat
  pool : RecvPool UInt8
  connector : Option Nat
  acceptor : Option Nat
  tcpHandshaker : Option Nat
  sslHandshaker : Option Nat
  remoteAddr : SockAddr
  remoteVersion : UInt16
  tcpConnected : Bool
  handshakeOk : Bool
  onOkCalled : Bool
  canUpcall : Bool
  peerAliveTick : Int
  timeoutTimerId : Nat
  onOkTimerId : Nat
  handler : Option Handler
  calls : List Upcall

/-- A transport that `ProCreate*Transport` returns; `memory` is what its buffer holds. -/
structure NewTrans where
  id : Nat
  recvPoolSize : Nat
  memory : Nat → UInt8

/-- `DEFAULT_RECV_POOL_SIZE`. -/
def defaultRecvPoolSize : Nat := 1024 * 65

def NewTrans.pool (trans : NewTrans) : RecvPool UInt8 :=
  RecvPool.resize (if 0 < trans.recvPoolSize then trans.recvPoolSize else defaultRecvPoolSize)
    trans.memory

/-- What `Init` is given and what it creates. -/
structure Setup where
  info : SessionInfo
  keepaliveTimeout : Nat
  hasSslConfig : Bool
  trans : NewTrans
  connector : Nat
  acceptor : Nat
  timerId : Nat
  remoteAddr : SockAddr
  initTick : Int

def udpHandshakeBytes : Nat := 1400

namespace Session

/-- The constructor of `CRtpSessionBase`. -/
def create (kind : SessionKind) (setup : Setup) : Session where
  kind := kind
  info := setup.info
  keepaliveTimeout := setup.keepaliveTimeout
  hasSslConfig := setup.hasSslConfig
  hasObserver := false
  trans := none
  pool := setup.trans.pool
  connector := none
  acceptor := none
  tcpHandshaker := none
  sslHandshaker := none
  remoteAddr := ⟨0, 0⟩
  remoteVersion := 0
  tcpConnected := false
  handshakeOk := false
  onOkCalled := false
  canUpcall := true
  peerAliveTick := setup.initTick
  timeoutTimerId := 0
  onOkTimerId := 0
  handler := none
  calls := []

/-- `ProCreate*Transport`, whose result goes to `m_trans` also where it is null. -/
def attach (s : Session) (created : Option NewTrans) : Session :=
  match created with
  | none => { s with trans := none }
  | some trans => { s with trans := some trans.id, pool := trans.pool }

/-- A session after an `Init` that returned true. -/
def init (kind : SessionKind) (setup : Setup) : Session :=
  let s := { create kind setup with hasObserver := true }
  match kind with
  | .tcpClient => { s with connector := some setup.connector }
  | .tcpServer => { s with acceptor := some setup.acceptor, timeoutTimerId := setup.timerId }
  | .tcpClientEx => { s with connector := some setup.connector, timeoutTimerId := setup.timerId }
  | .tcpServerEx =>
      { s.attach (some setup.trans) with
        tcpConnected := true, handshakeOk := true, onOkTimerId := setup.timerId }
  | .udpServerEx => { s.attach (some setup.trans) with timeoutTimerId := setup.timerId }
  | .udpClientEx =>
      { s.attach (some setup.trans) with
        timeoutTimerId := setup.timerId, remoteAddr := setup.remoteAddr }

/-- `Fini`; a class without one of the children or timers has none to clear. -/
def fini (s : Session) : Session :=
  if s.hasObserver then
    { s with
      hasObserver := false, trans := none, connector := none, acceptor := none
      tcpHandshaker := none, sslHandshaker := none, timeoutTimerId := 0, onOkTimerId := 0 }
  else s

def enter (s : Session) (handler : Handler) : Session := { s with handler := some handler }

def leave (s : Session) : Session := { s with handler := none }

def upcall (s : Session) (call : Upcall) : Session := { s with calls := s.calls ++ [call] }

def callClose (s : Session) (errorCode sslCode : Int) : Session :=
  { s with canUpcall := false }.upcall (.onCloseSession errorCode sslCode s.tcpConnected)

def callOk (s : Session) : Session :=
  if s.onOkCalled then s else { s with onOkCalled := true }.upcall .onOkSession

/-! The sections of the handlers up to the end of `m_lock`. -/

/-- `OnConnectOk` of `CRtpSessionTcpclient`. -/
def onConnectOk (s : Session) (connector : Nat) (created : Option NewTrans) : Session :=
  if s.hasObserver && s.connector = some connector then
    let s := { s with tcpConnected := true }.attach created
    { s with connector := none }.enter (.opened created.isSome)
  else s

/-- `DoHandshake` of the EX client; `created` is what creating the handshaker returns. -/
def doHandshake (s : Session) (created : Option Nat) : Session × Bool :=
  if s.tcpHandshaker ≠ none || s.sslHandshaker ≠ none then (s, false)
  else if s.hasSslConfig then ({ s with sslHandshaker := created }, created.isSome)
  else ({ s with tcpHandshaker := created }, created.isSome)

/-- `OnConnectOk` of `CRtpSessionTcpclientEx`. -/
def onConnectOkEx (s : Session) (connector : Nat) (created : Option Nat) : Session :=
  if s.hasObserver && s.connector = some connector then
    let (s, ok) := { s with tcpConnected := true }.doHandshake created
    { s with connector := none }.enter (.connected ok)
  else s

/-- `OnConnectError` of both clients. -/
def onConnectError (s : Session) (connector : Nat) (timeout : Bool) : Session :=
  if s.hasObserver && s.connector = some connector then
    { s with connector := none }.enter
      (.closed (if timeout then TcpHandshaker.etimedout else -1) 0 false)
  else s

/-- `OnAccept` of `CRtpSessionTcpserver`. -/
def onAccept (s : Session) (acceptor : Nat) (created : Option NewTrans) : Session :=
  if s.hasObserver && s.acceptor = some acceptor then
    let s := { s with tcpConnected := true }.attach created
    let s := if created.isSome then { s with timeoutTimerId := 0 } else s
    { s with acceptor := none }.enter (.opened created.isSome)
  else s

/-- The common part of the two `OnHandshakeOk`: the version of the peer, then the transport. -/
def handshaken (s : Session) (buf : List UInt8) (created : Option NewTrans) : Session × Bool :=
  let size := sizeofExt + sizeofHeader + 2
  if buf.length ≠ size then (s, false)
  else if !parseExtBuffer buf (UInt16.ofNat size) then (s, false)
  else
    let s := { s with remoteVersion := be16At buf (sizeofExt + sizeofHeader) }.attach created
    if created.isSome then ({ s with handshakeOk := true, timeoutTimerId := 0 }, true) else (s, false)

def onTcpHandshakeOk (s : Session) (handshaker : Nat) (buf : List UInt8)
    (created : Option NewTrans) : Session :=
  if s.hasObserver && s.tcpHandshaker = some handshaker then
    let (s, ok) := s.handshaken buf created
    { s with tcpHandshaker := none }.enter (.opened ok)
  else s

def onTcpHandshakeError (s : Session) (handshaker : Nat) (errorCode : Int) : Session :=
  if s.hasObserver && s.tcpHandshaker = some handshaker then
    { s with tcpHandshaker := none }.enter (.closed errorCode 0 false)
  else s

def onSslHandshakeOk (s : Session) (handshaker : Nat) (buf : List UInt8)
    (created : Option NewTrans) : Session :=
  if s.hasObserver && s.sslHandshaker = some handshaker then
    let (s, ok) := s.handshaken buf created
    { s with sslHandshaker := none }.enter (.opened ok)
  else s

def onSslHandshakeError (s : Session) (handshaker : Nat) (errorCode sslCode : Int) : Session :=
  if s.hasObserver && s.sslHandshaker = some handshaker then
    { s with sslHandshaker := none }.enter (.closed errorCode sslCode false)
  else s

/-- Whether an event of this transport is for the session. -/
def owns (s : Session) (trans : Nat) : Bool := s.hasObserver && s.trans = some trans

def onSend (s : Session) (trans : Nat) : Session :=
  if s.owns trans && s.onOkCalled then s.enter .sent else s

def onClose (s : Session) (trans : Nat) (errorCode sslCode : Int) : Session :=
  if s.owns trans then { s with trans := none }.enter (.closed errorCode sslCode false) else s

/-- The plain sessions fall through to the `return` behind their heartbeat. -/
def onHeartbeat (s : Session) (trans : Nat) (tick : Int) : Session :=
  if !s.owns trans || !s.onOkCalled then s
  else
    match s.kind with
    | .tcpClient | .tcpServer => s
    | _ =>
        if tick - s.peerAliveTick < s.keepaliveTimeout * 1000 then s
        else s.enter (.closed TcpHandshaker.etimedout 0 true)

def onTimer (s : Session) (timerId : Nat) : Session :=
  if timerId = 0 || !s.hasObserver then s
  else if timerId ≠ s.timeoutTimerId && timerId ≠ s.onOkTimerId then s
  else if timerId = s.timeoutTimerId then { s with timeoutTimerId := 0 }.enter (.timer true)
  else { s with onOkTimerId := 0 }.enter (.timer false)

/-- `OnInput` of a transport up to the call of `OnRecv`. Nothing but `OnRecv` looks at
the pool, so the bytes may as well come when it gets `m_lockUpcall`. -/
def onInput (s : Session) (trans : Nat) (source : SockAddr) (bytes : List UInt8) : Session :=
  if !s.owns trans then s.enter (.receiving trans source)
  else if s.pool.continuousIdleSize = 0 then s.onClose trans (-1) 0
  else
    let received := bytes.take s.pool.continuousIdleSize
    if received = [] then s
    else { s with pool := s.pool.receive received }.enter (.receiving trans source)

/-! A turn of `OnRecv` up to the end of `m_lock`. -/

def flush (s : Session) (count : Nat) : Session := { s with pool := s.pool.flush count }

def alive (s : Session) (tick : Int) : Session := { s with peerAliveTick := tick }

/-- `CRtpSessionTcpclientEx` and `CRtpSessionTcpserverEx`. -/
def turnEx (s : Session) (trans : Nat) (source : SockAddr) (tick : Int) : Session :=
  let s := s.alive tick
  let dataSize := s.pool.peekDataSize
  if dataSize < sizeofExt then s.leave
  else
    let hdrAndPayloadSize := (be16At (s.pool.peekData sizeofExt) 6).toNat
    if dataSize < sizeofExt + hdrAndPayloadSize then s.leave
    else if hdrAndPayloadSize = 0 then s.flush sizeofExt
    else
      let packet := acceptFrame s.info (s.pool.peekData (sizeofExt + hdrAndPayloadSize))
      (s.flush (sizeofExt + hdrAndPayloadSize)).enter (.received trans source packet.isNone packet)

/-- `CRtpSessionTcpclient` and `CRtpSessionTcpserver`. -/
def turnPlain (s : Session) (trans : Nat) (source : SockAddr) (tick : Int) : Session :=
  let dataSize := s.pool.peekDataSize
  if dataSize < 2 then s.leave
  else
    let s := s.alive tick
    let packetSize := (be16At (s.pool.peekData 2) 0).toNat
    if dataSize < 2 + packetSize then s.leave
    else
      let s := s.flush 2
      if packetSize = 0 then s
      else
        match RtpPacket.createInstance (s.pool.peekData packetSize) with
        | none => (s.flush packetSize).enter (.received trans source true none)
        | some packet =>
            match acceptRtpFrame s.info packet with
            | none => s.flush packetSize
            | some packet => (s.flush packetSize).enter (.received trans source false (some packet))

/-- The handshake of a UDP peer, which has a fixed size. -/
def isUdpHandshake (s : Session) (hdrAndPayloadSize : Nat) : Bool :=
  let size := sizeofExt + sizeofHeader + udpHandshakeBytes
  hdrAndPayloadSize = sizeofHeader + udpHandshakeBytes &&
    parseExtBuffer (s.pool.peekData size) (UInt16.ofNat size)

/-- A frame of the bound peer. A malformed one drops the datagram, a large one is an error. -/
def takeUdpFrame (s : Session) (trans : Nat) (source : SockAddr) (hdrAndPayloadSize : Nat) :
    Session :=
  let frame := s.pool.peekData (sizeofExt + hdrAndPayloadSize)
  match RtpPacket.createInstance frame with
  | none =>
      (s.flush (sizeofExt + hdrAndPayloadSize)).enter (.received trans source true none)
  | some _ =>
      match acceptFrame s.info frame with
      | none => (s.flush s.pool.peekDataSize).leave
      | some packet =>
          (s.flush (sizeofExt + hdrAndPayloadSize)).enter
            (.received trans source false (some packet))

/-- `CRtpSessionUdpserverEx`; `shook` is what `DoHandshake` returns. -/
def turnUdpServerEx (s : Session) (trans : Nat) (source : SockAddr) (tick : Int) (shook : Bool) :
    Session :=
  let dataSize := s.pool.peekDataSize
  if dataSize < sizeofExt then (s.flush dataSize).leave
  else
    let hdrAndPayloadSize := (be16At (s.pool.peekData sizeofExt) 6).toNat
    if dataSize < sizeofExt + hdrAndPayloadSize then (s.flush dataSize).leave
    else if hdrAndPayloadSize = 0 then
      (if source = s.remoteAddr then s.alive tick else s).flush sizeofExt
    else if !s.handshakeOk then
      if !s.isUdpHandshake hdrAndPayloadSize then (s.flush dataSize).leave
      else
        let s := s.flush (sizeofExt + sizeofHeader + udpHandshakeBytes)
        { s with remoteAddr := source, handshakeOk := true, timeoutTimerId := 0 }.enter
          (.received trans source (!shook) none)
    else if source ≠ s.remoteAddr then (s.flush dataSize).leave
    else (s.alive tick).takeUdpFrame trans source hdrAndPayloadSize

/-- `CRtpSessionUdpclientEx`, which knows its peer from `Init` on. -/
def turnUdpClientEx (s : Session) (trans : Nat) (source : SockAddr) (tick : Int) : Session :=
  let dataSize := s.pool.peekDataSize
  if source ≠ s.remoteAddr then (s.flush dataSize).leave
  else if dataSize < sizeofExt then (s.flush dataSize).leave
  else
    let hdrAndPayloadSize := (be16At (s.pool.peekData sizeofExt) 6).toNat
    if dataSize < sizeofExt + hdrAndPayloadSize then (s.flush dataSize).leave
    else if hdrAndPayloadSize = 0 then (s.alive tick).flush sizeofExt
    else if !s.handshakeOk then
      if !s.isUdpHandshake hdrAndPayloadSize then (s.flush dataSize).leave
      else
        let s := s.flush (sizeofExt + sizeofHeader + udpHandshakeBytes)
        { s with handshakeOk := true, timeoutTimerId := 0 }.enter (.received trans source false none)
    else (s.alive tick).takeUdpFrame trans source hdrAndPayloadSize

def turn (s : Session) (trans : Nat) (source : SockAddr) (tick : Int) (shook : Bool) : Session :=
  if !s.owns trans then s.leave
  else
    match s.kind with
    | .tcpClient | .tcpServer => s.turnPlain trans source tick
    | .tcpClientEx | .tcpServerEx => s.turnEx trans source tick
    | .udpClientEx => s.turnUdpClientEx trans source tick
    | .udpServerEx => s.turnUdpServerEx trans source tick shook

/-! The upcalls of a handler, and what it does behind them. -/

/-- The classes that call `OnOkSession` before anything can be received do not look. -/
def opensFirst (s : Session) : Bool :=
  match s.kind with
  | .tcpClient | .tcpServer | .tcpClientEx => true
  | _ => false

def deliver (s : Session) (packet : Option RtpPacket) : Session :=
  match packet with
  | none => s
  | some packet => s.upcall (.onRecvSession packet)

def reportReceived (s : Session) (error : Bool) (packet : Option RtpPacket) : Session :=
  if !s.canUpcall then s
  else if error then s.callClose (-1) 0
  else if s.opensFirst then s.deliver packet
  else if s.handshakeOk then s.callOk.deliver packet
  else s

def reportOpened (s : Session) (ok : Bool) : Session :=
  if !s.canUpcall then s
  else if !ok then s.callClose (-1) 0
  else if s.kind ≠ .tcpClientEx || s.handshakeOk then s.callOk
  else s

def reportConnected (s : Session) (ok : Bool) : Session :=
  if s.canUpcall && !ok then s.callClose (-1) 0 else s

def reportTimer (s : Session) (timeout : Bool) : Session :=
  if !s.canUpcall then s
  else if timeout then s.callClose TcpHandshaker.etimedout 0
  else s.callOk

/-- The handler runs to the end of its next section. -/
def proceed (s : Session) (handler : Handler) (tick : Int) (shook : Bool) : Session :=
  match handler with
  | .receiving trans source => s.turn trans source tick shook
  | .received trans source error packet =>
      let s := s.reportReceived error packet
      if s.canUpcall then s.enter (.receiving trans source) else s.fini.leave
  | .connected ok => (s.reportConnected ok).leave
  | .opened ok => (s.reportOpened ok).leave
  | .sent => (if s.canUpcall then s.upcall (.onSendSession false) else s).leave
  | .closed errorCode sslCode fini =>
      let s := if s.canUpcall then s.callClose errorCode sslCode else s
      (if fini then s.fini else s).leave
  | .timer timeout =>
      let s := s.reportTimer timeout
      (if s.canUpcall then s else s.fini).leave

end Session

/-- What may come to a session. The last two are a `Fini` from any thread, and the
handler that is in progress going on. -/
inductive SessionEvent
  | onConnectOk (connector : Nat) (created : Option NewTrans)
  | onConnectOkEx (connector : Nat) (created : Option Nat)
  | onConnectError (connector : Nat) (timeout : Bool)
  | onAccept (acceptor : Nat) (created : Option NewTrans)
  | onTcpHandshakeOk (handshaker : Nat) (buf : List UInt8) (created : Option NewTrans)
  | onTcpHandshakeError (handshaker : Nat) (errorCode : Int)
  | onSslHandshakeOk (handshaker : Nat) (buf : List UInt8) (created : Option NewTrans)
  | onSslHandshakeError (handshaker : Nat) (errorCode sslCode : Int)
  | onInput (trans : Nat) (source : SockAddr) (bytes : List UInt8)
  | onSend (trans : Nat)
  | onClose (trans : Nat) (errorCode sslCode : Int)
  | onHeartbeat (trans : Nat) (tick : Int)
  | onTimer (timerId : Nat)
  | fini
  | proceed (tick : Int) (shook : Bool)

namespace Session

/-- The first section of the handler of an event; none if the class has no such handler. -/
def begin (s : Session) (event : SessionEvent) : Option Session :=
  match event, s.kind with
  | .onConnectOk connector created, .tcpClient => some (s.onConnectOk connector created)
  | .onConnectOkEx connector created, .tcpClientEx => some (s.onConnectOkEx connector created)
  | .onConnectError connector timeout, .tcpClient => some (s.onConnectError connector timeout)
  | .onConnectError connector timeout, .tcpClientEx => some (s.onConnectError connector timeout)
  | .onAccept acceptor created, .tcpServer => some (s.onAccept acceptor created)
  | .onTcpHandshakeOk handshaker buf created, .tcpClientEx =>
      some (s.onTcpHandshakeOk handshaker buf created)
  | .onTcpHandshakeError handshaker errorCode, .tcpClientEx =>
      some (s.onTcpHandshakeError handshaker errorCode)
  | .onSslHandshakeOk handshaker buf created, .tcpClientEx =>
      some (s.onSslHandshakeOk handshaker buf created)
  | .onSslHandshakeError handshaker errorCode sslCode, .tcpClientEx =>
      some (s.onSslHandshakeError handshaker errorCode sslCode)
  | .onInput trans source bytes, _ => some (s.onInput trans source bytes)
  | .onSend trans, _ => some (s.onSend trans)
  | .onClose trans errorCode sslCode, _ => some (s.onClose trans errorCode sslCode)
  | .onHeartbeat trans tick, _ => some (s.onHeartbeat trans tick)
  | .onTimer timerId, _ => some (s.onTimer timerId)
  | _, _ => none

/-- A handler waits for `m_lockUpcall` as long as another one is in progress. -/
def step (s : Session) (event : SessionEvent) : Option Session :=
  match event, s.handler with
  | .fini, _ => some s.fini
  | .proceed tick shook, some handler => some (s.proceed handler tick shook)
  | .proceed _ _, none => none
  | _, some _ => none
  | event, none => s.begin event

theorem trans_fini (s : Session) : s.fini.trans = s.trans ∨ s.fini.trans = none := by
  unfold fini
  split
  · exact .inr rfl
  · exact .inl rfl

theorem handler_fini (s : Session) : s.fini.handler = s.handler := by
  unfold fini
  split <;> rfl

theorem handshakeOk_fini (s : Session) : s.fini.handshakeOk = s.handshakeOk := by
  unfold fini
  split <;> rfl

theorem canUpcall_fini (s : Session) : s.fini.canUpcall = s.canUpcall := by
  unfold fini
  split <;> rfl

theorem calls_fini (s : Session) : s.fini.calls = s.calls := by
  unfold fini
  split <;> rfl

end Session

end Pronet.Rtp
