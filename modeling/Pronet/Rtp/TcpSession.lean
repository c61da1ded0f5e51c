import Pronet.Library.Runs
import Pronet.Net.RecvPool
import Pronet.Rtp.Packet

/-! Reception on a TCP session: `OnInputData` of the transport, and `OnRecv` of the
EX sessions (a client after its handshake) and of the plain ones. -/
namespace Pronet.Rtp

open Net Library

/-- The fields of `RTP_SESSION_INFO` that reception looks at. -/
structure SessionInfo where
  inSrcMmId : UInt32
  mmType : UInt8
  deriving DecidableEq, Repr

/-- `CRtpSessionTcpserverEx`, `CRtpSessionTcpclientEx`, `CRtpSessionTcpserver` and
`CRtpSessionTcpclient`. -/
inductive TcpKind
  | serverEx
  | clientEx
  | server
  | client
  deriving DecidableEq, Repr

def TcpKind.isEx : TcpKind → Bool
  | .serverEx | .clientEx => true
  | .server | .client => false

/-- The calls into `IRtpSessionObserver`. -/
inductive SessionCall
  | onOkSession
  | onRecvSession (packet : RtpPacket)
  | onCloseSession (errorCode : Int)
  deriving DecidableEq, Repr

/-- The default of `g_s_tcpRecvPoolSize`, the size the sessions request. -/
def tcpRecvPoolSize : Nat := 1024 * 65

/-- `hasTrans` says that `m_trans` is not null, and `position` counts the bytes
flushed from the stream. -/
structure TcpSession where
  kind : TcpKind
  info : SessionInfo
  pool : RecvPool UInt8
  hasTrans : Bool
  canUpcall : Bool
  onOkCalled : Bool
  calls : List SessionCall
  position : Nat

/-- Whether the session takes a packet from a peer with this id and type. -/
def SessionInfo.admits (info : SessionInfo) (packet : RtpPacket) : Bool :=
  !((info.inSrcMmId ≠ 0 && packet.getMmId ≠ info.inSrcMmId) || packet.getMmType ≠ info.mmType)

/-- The packet in a complete EX frame; none is an error. -/
def acceptFrame (info : SessionInfo) (frame : List UInt8) : Option RtpPacket :=
  match RtpPacket.createInstance frame with
  | none => none
  | some packet =>
      if parseExtBuffer packet.getPayloadBuffer packet.getPayloadSize then
        -- magicPacket.ext points to the received bytes
        let packet : RtpPacket := ⟨packet.getPayloadBuffer⟩
        if info.admits packet then some packet else none
      else none

/-- The packet in a complete plain frame; none if it is malformed or empty. The
extension is laid over the memory in front of the payload. -/
def acceptRtpFrame (info : SessionInfo) (packet : RtpPacket) : Option RtpPacket :=
  match parseRtpBuffer packet.getPayloadBuffer packet.getPayloadSize with
  | some (some offset, payloadSize) =>
      if payloadSize = 0 then none
      else
        let hdr := writeAt (packet.getPayloadBuffer.take sizeofHeader) 0 [128]
        let bytes := packet.bytes.drop offset
        let bytes := writeAt bytes 0 (be32 info.inSrcMmId)
        let bytes := writeAt bytes 4 [info.mmType]
        let bytes := writeAt bytes 6 (be16 (UInt16.ofNat sizeofHeader + payloadSize))
        some ⟨writeAt bytes sizeofExt hdr⟩
  | _ => none

namespace TcpSession

/-- A session with its transport, before the first read. All but the EX server
have called `OnOkSession` by then. -/
def init (kind : TcpKind) (info : SessionInfo) (poolSize : Nat) (buf : Nat → UInt8) : TcpSession :=
  ⟨kind, info, RecvPool.resize poolSize buf, true, true, kind != .serverEx, [], 0⟩

def flush (s : TcpSession) (count : Nat) : TcpSession :=
  { s with pool := s.pool.flush count, position := s.position + count }

def upcall (s : TcpSession) (call : SessionCall) : TcpSession :=
  { s with calls := s.calls ++ [call] }

def fini (s : TcpSession) : TcpSession := { s with hasTrans := false }

/-- The EX server reports `OnOkSession` before the first packet. -/
def deliver (s : TcpSession) (packet : RtpPacket) : TcpSession :=
  if s.kind = .serverEx && !s.onOkCalled then
    ({ s with onOkCalled := true }.upcall .onOkSession).upcall (.onRecvSession packet)
  else s.upcall (.onRecvSession packet)

/-- The upcalls behind a frame; no packet is an error. -/
def report (s : TcpSession) (packet : Option RtpPacket) : TcpSession :=
  if s.canUpcall then
    match packet with
    | none => { s with canUpcall := false }.upcall (.onCloseSession (-1))
    | some packet => s.deliver packet
  else s

end TcpSession

/-- How a turn of the loop of `OnRecv` ends. -/
inductive Turn
  | leave (s : TcpSession)
  | again (s : TcpSession)

namespace TcpSession

/-- The end of a turn that took a frame. -/
def endTurn (s : TcpSession) (packet : Option RtpPacket) : Turn :=
  let s := s.report packet
  if s.canUpcall then .again s else .leave s.fini

def turnEx (s : TcpSession) : Turn :=
  let dataSize := s.pool.peekDataSize
  if dataSize < sizeofExt then .leave s
  else
    let hdrAndPayloadSize := (be16At (s.pool.peekData sizeofExt) 6).toNat
    if dataSize < sizeofExt + hdrAndPayloadSize then .leave s
    else if hdrAndPayloadSize = 0 then .again (s.flush sizeofExt)
    else
      let packet := acceptFrame s.info (s.pool.peekData (sizeofExt + hdrAndPayloadSize))
      (s.flush (sizeofExt + hdrAndPayloadSize)).endTurn packet

/-- A malformed packet is dropped here; only one that is too large is an error. -/
def turnPlain (s : TcpSession) : Turn :=
  let dataSize := s.pool.peekDataSize
  if dataSize < 2 then .leave s
  else
    let packetSize := (be16At (s.pool.peekData 2) 0).toNat
    if dataSize < 2 + packetSize then .leave s
    else
      let s := s.flush 2
      if packetSize = 0 then .again s
      else
        match RtpPacket.createInstance (s.pool.peekData packetSize) with
        | none => (s.flush packetSize).endTurn none
        | some packet =>
            match acceptRtpFrame s.info packet with
            | none => .again (s.flush packetSize)
            | some packet => (s.flush packetSize).endTurn (some packet)

def turn (s : TcpSession) : Turn := if s.kind.isEx then s.turnEx else s.turnPlain

def onRecvLoop : Nat → TcpSession → TcpSession
  | 0, s => s
  | fuel + 1, s =>
      match s.turn with
      | .leave s => s
      | .again s => onRecvLoop fuel s

/-- `OnRecv`; every turn that goes on flushes at least two bytes. -/
def onRecv (s : TcpSession) : TcpSession := onRecvLoop (s.pool.peekDataSize + 1) s

/-- `OnInputData` when `recv` returns `bytes`. A session without a transport
reads no more, and a full pool is an error. -/
def onInputData (s : TcpSession) (bytes : List UInt8) : TcpSession :=
  if !s.hasTrans then s
  else if s.pool.continuousIdleSize = 0 then (s.report none).fini
  else { s with pool := s.pool.receive bytes }.onRecv

/-- The session after a sequence of reads. -/
def onReads (s : TcpSession) (reads : List (List UInt8)) : TcpSession := reads.foldl onInputData s

/-- What `recv` may return: at least a byte, and no more than there is space for. -/
def Readable (s : TcpSession) (bytes : List UInt8) : Prop :=
  s.hasTrans → bytes ≠ [] ∧ bytes.length ≤ s.pool.continuousIdleSize

instance (s : TcpSession) (bytes : List UInt8) : Decidable (s.Readable bytes) := by
  unfold Readable
  infer_instance

/-- Every read of the sequence is one that `recv` may return at that moment. -/
def ReadsFit (s : TcpSession) (reads : List (List UInt8)) : Prop :=
  Runs.Guarded (fun s bytes => some (onInputData s bytes)) Readable s reads

/-- The packets delivered to `OnRecvSession`. -/
def delivered (s : TcpSession) : List RtpPacket :=
  s.calls.filterMap fun
    | .onRecvSession packet => some packet
    | _ => none

/-- Still open with residual bytes, or closed at a position of the stream. -/
inductive Outcome
  | running (residual : List UInt8)
  | closed (position : Nat)
  deriving DecidableEq, Repr

def outcome (s : TcpSession) : Outcome :=
  if s.hasTrans then .running s.pool.bytes else .closed s.position

end TcpSession


end Pronet.Rtp
