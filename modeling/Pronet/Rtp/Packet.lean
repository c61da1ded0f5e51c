import Mathlib

/-! `CRtpPacket`. A packet is the memory from its `RTP_EXT` on: the 8 bytes of the
extension, the 12 bytes of the RTP header, and the payload. -/
namespace Pronet.Rtp

/-- `sizeof(RTP_EXT)` and `sizeof(RTP_HEADER)`. -/
def sizeofExt : Nat := 8
def sizeofHeader : Nat := 12

def maxPayloadSize : Nat := 1024 * 63

def byteAt (bytes : List UInt8) (offset : Nat) : UInt8 := bytes.getD offset 0

def be16At (bytes : List UInt8) (offset : Nat) : UInt16 :=
  UInt16.ofNat ((byteAt bytes offset).toNat * 256 + (byteAt bytes (offset + 1)).toNat)

def be32At (bytes : List UInt8) (offset : Nat) : UInt32 :=
  UInt32.ofNat ((((byteAt bytes offset).toNat * 256 + (byteAt bytes (offset + 1)).toNat) * 256 +
    (byteAt bytes (offset + 2)).toNat) * 256 + (byteAt bytes (offset + 3)).toNat)

def be16 (value : UInt16) : List UInt8 :=
  [UInt8.ofNat (value.toNat / 256), UInt8.ofNat value.toNat]

def be32 (value : UInt32) : List UInt8 :=
  [UInt8.ofNat (value.toNat / 256 ^ 3), UInt8.ofNat (value.toNat / 256 ^ 2),
    UInt8.ofNat (value.toNat / 256), UInt8.ofNat value.toNat]

/-- Overwrite the bytes from `offset` on. -/
def writeAt (bytes : List UInt8) (offset : Nat) (values : List UInt8) : List UInt8 :=
  bytes.take offset ++ values ++ bytes.drop (offset + values.length)

structure RtpPacket where
  bytes : List UInt8
  deriving DecidableEq, Repr

namespace RtpPacket

/-- The zeroed `dummyBuffer` with its size field and `hdr->v = 2`. -/
def dummyBuffer (payloadSize : Nat) : List UInt8 :=
  [0, 0, 0, 0, 0, 0] ++ be16 (UInt16.ofNat (sizeofHeader + payloadSize)) ++
    [128, 0, 0, 0, 0, 0, 0, 0, 0, 0, 0, 0]

def createInstance (payload : List UInt8) : Option RtpPacket :=
  if payload.length = 0 || maxPayloadSize < payload.length then none
  else some ⟨dummyBuffer payload.length ++ payload⟩

def hdrAndPayloadSize (p : RtpPacket) : UInt16 := be16At p.bytes 6
def getMmId (p : RtpPacket) : UInt32 := be32At p.bytes 0
def getMmType (p : RtpPacket) : UInt8 := byteAt p.bytes 4
def getKeyFrame (p : RtpPacket) : Bool := (byteAt p.bytes 5).toNat / 128 != 0
def getFirstPacketOfFrame (p : RtpPacket) : Bool := (byteAt p.bytes 5).toNat / 64 % 2 != 0
def getMarker (p : RtpPacket) : Bool := (byteAt p.bytes 9).toNat / 128 != 0
def getPayloadType (p : RtpPacket) : Nat := (byteAt p.bytes 9).toNat % 128
def getSequence (p : RtpPacket) : UInt16 := be16At p.bytes 10
def getTimeStamp (p : RtpPacket) : UInt32 := be32At p.bytes 12
def getSsrc (p : RtpPacket) : UInt32 := be32At p.bytes 16

/-- The memory from the payload on, and the number of bytes of it that are payload. -/
def getPayloadBuffer (p : RtpPacket) : List UInt8 := p.bytes.drop (sizeofExt + sizeofHeader)
def getPayloadSize (p : RtpPacket) : UInt16 := p.hdrAndPayloadSize - UInt16.ofNat sizeofHeader
def getPayload (p : RtpPacket) : List UInt8 := p.getPayloadBuffer.take p.getPayloadSize.toNat

def setMmId (p : RtpPacket) (mmId : UInt32) : RtpPacket := ⟨writeAt p.bytes 0 (be32 mmId)⟩
def setMmType (p : RtpPacket) (mmType : UInt8) : RtpPacket := ⟨writeAt p.bytes 4 [mmType]⟩
def setSequence (p : RtpPacket) (seq : UInt16) : RtpPacket := ⟨writeAt p.bytes 10 (be16 seq)⟩
def setTimeStamp (p : RtpPacket) (ts : UInt32) : RtpPacket := ⟨writeAt p.bytes 12 (be32 ts)⟩
def setSsrc (p : RtpPacket) (ssrc : UInt32) : RtpPacket := ⟨writeAt p.bytes 16 (be32 ssrc)⟩

def setKeyFrame (p : RtpPacket) (keyFrame : Bool) : RtpPacket :=
  ⟨writeAt p.bytes 5 [UInt8.ofNat ((if keyFrame then 128 else 0) + (byteAt p.bytes 5).toNat % 128)]⟩

def setFirstPacketOfFrame (p : RtpPacket) (firstPacket : Bool) : RtpPacket :=
  ⟨writeAt p.bytes 5 [UInt8.ofNat ((byteAt p.bytes 5).toNat / 128 * 128 +
    (if firstPacket then 64 else 0) + (byteAt p.bytes 5).toNat % 64)]⟩

def setMarker (p : RtpPacket) (m : Bool) : RtpPacket :=
  ⟨writeAt p.bytes 9 [UInt8.ofNat ((if m then 128 else 0) + (byteAt p.bytes 9).toNat % 128)]⟩

/-- `pt` has seven bits. -/
def setPayloadType (p : RtpPacket) (pt : UInt8) : RtpPacket :=
  ⟨writeAt p.bytes 9 [UInt8.ofNat ((byteAt p.bytes 9).toNat / 128 * 128 + pt.toNat % 128)]⟩

end RtpPacket

/-- The first byte of an RTP header: `v`, `p`, `x` and `cc`. -/
structure HeaderBits where
  v : Nat
  p : Nat
  x : Nat
  cc : Nat
  deriving DecidableEq, Repr

def headerBits (byte : UInt8) : HeaderBits :=
  ⟨byte.toNat / 64, byte.toNat / 32 % 2, byte.toNat / 16 % 2, byte.toNat % 16⟩

def parseExtBuffer (buffer : List UInt8) (size : UInt16) : Bool :=
  if size.toNat < sizeofExt + sizeofHeader + 1 then false
  else if sizeofExt + (be16At buffer 6).toNat ≠ size.toNat then false
  else headerBits (byteAt buffer 8) = ⟨2, 0, 0, 0⟩

/-- The offset and the size of the payload in an RTP packet of `size` bytes, or
none if the packet is malformed. An empty payload is a null pointer. -/
def parseRtpBuffer (buffer : List UInt8) (size : UInt16) : Option (Option Nat × UInt16) := do
  let needSize := sizeofHeader
  if size.toNat < needSize then
    none
  let hdr := headerBits (byteAt buffer 0)
  if hdr.v ≠ 2 then
    none
  let needSize := needSize + 4 * hdr.cc
  if size.toNat < needSize then
    none
  let needSize ← if hdr.x ≠ 0 then do
      let needSize := needSize + 4
      if size.toNat < needSize then
        none
      let needSize := needSize + 4 * (be16At buffer (needSize - 2)).toNat
      if size.toNat < needSize then
        none
      some needSize
    else some needSize
  let payloadSize ← if hdr.p ≠ 0 then do
      if size.toNat < needSize + 1 then
        none
      let paddingSize := max 1 (byteAt buffer (size.toNat - 1)).toNat
      if size.toNat < needSize + paddingSize then
        none
      some (size.toNat - needSize - paddingSize)
    else some (size.toNat - needSize)
  some (if payloadSize = 0 then none else some needSize, UInt16.ofNat payloadSize)

end Pronet.Rtp
