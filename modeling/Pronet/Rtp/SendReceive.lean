import Pronet.Rtp.TcpFraming

/-! What `SendPacket` hands to the transport of a TCP session, and what the peer
makes of it. -/
namespace Pronet.Rtp

open Net Library Framing

/-- A call of one of the setters of `IRtpPacket`. -/
inductive PacketSetter
  | marker (m : Bool)
  | payloadType (pt : UInt8)
  | sequence (seq : UInt16)
  | timeStamp (ts : UInt32)
  | ssrc (ssrc : UInt32)
  | mmId (mmId : UInt32)
  | mmType (mmType : UInt8)
  | keyFrame (keyFrame : Bool)
  | firstPacketOfFrame (firstPacket : Bool)
  deriving DecidableEq, Repr

namespace RtpPacket

def apply (p : RtpPacket) : PacketSetter → RtpPacket
  | .marker m => p.setMarker m
  | .payloadType pt => p.setPayloadType pt
  | .sequence seq => p.setSequence seq
  | .timeStamp ts => p.setTimeStamp ts
  | .ssrc ssrc => p.setSsrc ssrc
  | .mmId mmId => p.setMmId mmId
  | .mmType mmType => p.setMmType mmType
  | .keyFrame keyFrame => p.setKeyFrame keyFrame
  | .firstPacketOfFrame firstPacket => p.setFirstPacketOfFrame firstPacket

def applyAll (p : RtpPacket) (setters : List PacketSetter) : RtpPacket := setters.foldl apply p

/-- The packets agree in what an application can read of the RTP header and payload. -/
structure SameRtp (p q : RtpPacket) : Prop where
  payload : q.getPayload = p.getPayload
  marker : q.getMarker = p.getMarker
  payloadType : q.getPayloadType = p.getPayloadType
  sequence : q.getSequence = p.getSequence
  timeStamp : q.getTimeStamp = p.getTimeStamp
  ssrc : q.getSsrc = p.getSsrc

/-- They also agree in the extension. -/
structure SameExt (p q : RtpPacket) : Prop where
  mmId : q.getMmId = p.getMmId
  mmType : q.getMmType = p.getMmType
  keyFrame : q.getKeyFrame = p.getKeyFrame
  firstPacketOfFrame : q.getFirstPacketOfFrame = p.getFirstPacketOfFrame

end RtpPacket

/-- `sizeof` what a session sends in front of the payload. -/
def TcpKind.otherSize (kind : TcpKind) : Nat :=
  if kind.isEx then sizeofExt + sizeofHeader else 2 + sizeofHeader

/-- The fields of a session that `SendPacket` looks at. -/
structure TcpSender where
  kind : TcpKind
  outSrcMmId : UInt32
  mmType : UInt8
  hasTrans : Bool
  onOkCalled : Bool
  deriving DecidableEq, Repr

/-- The bytes `SendPacket` hands to the transport, if it does not refuse the packet. -/
def TcpSender.sendPacket (s : TcpSender) (packet : RtpPacket) : Option (List UInt8) :=
  if !s.hasTrans then none
  else if !s.onOkCalled then none
  else if (s.outSrcMmId ≠ 0 && packet.getMmId ≠ s.outSrcMmId) || packet.getMmType ≠ s.mmType then none
  else
    let start := sizeofExt + sizeofHeader - s.kind.otherSize
    some ((packet.bytes.drop start).take (packet.getPayloadSize.toNat + s.kind.otherSize))

/-- The peer is still open and has delivered one more packet, with the same content. -/
def Received (packet : RtpPacket) (before after : TcpSession) : Prop :=
  after.outcome = .running [] ∧
    ∃ received, after.delivered = before.delivered ++ [received] ∧ packet.SameRtp received ∧
      (before.kind.isEx → packet.SameExt received)

theorem length_writeAt {bytes : List UInt8} {offset : Nat} {values : List UInt8}
    (h : offset + values.length ≤ bytes.length) : (writeAt bytes offset values).length = bytes.length := by
  unfold writeAt
  simp only [List.length_append, List.length_take, List.length_drop]
  omega

theorem drop_writeAt {bytes : List UInt8} {offset start : Nat} {values : List UInt8}
    (h : offset + values.length ≤ bytes.length) (hstart : offset + values.length ≤ start) :
    (writeAt bytes offset values).drop start = bytes.drop start := by
  unfold writeAt
  have hfront : (bytes.take offset ++ values).length = offset + values.length := by
    simp only [List.length_append, List.length_take]
    omega
  rw [List.drop_append, List.drop_eq_nil_of_le (by omega), List.nil_append, List.drop_drop, hfront]
  congr 1
  omega

theorem byteAt_writeAt {bytes : List UInt8} {offset i : Nat} {values : List UInt8}
    (h : offset + values.length ≤ bytes.length) (hi : i < offset ∨ offset + values.length ≤ i) :
    byteAt (writeAt bytes offset values) i = byteAt bytes i := by
  unfold byteAt writeAt
  rw [List.getD_eq_getElem?_getD, List.getD_eq_getElem?_getD]
  congr 1
  have hfront : (bytes.take offset ++ values).length = offset + values.length := by
    simp only [List.length_append, List.length_take]
    omega
  rcases hi with hi | hi
  · rw [List.getElem?_append_left (by omega), List.getElem?_append_left (by simp; omega),
      List.getElem?_take_of_lt hi]
  · rw [List.getElem?_append_right (by omega), hfront, List.getElem?_drop]
    congr 1
    omega

theorem byteAt_writeAt_inside {bytes : List UInt8} {offset i : Nat} {values : List UInt8}
    (h : offset ≤ bytes.length) (hi : offset ≤ i) (hi' : i < offset + values.length) :
    byteAt (writeAt bytes offset values) i = byteAt values (i - offset) := by
  have hfront : (bytes.take offset).length = offset := List.length_take_of_le h
  unfold byteAt writeAt
  rw [List.getD_eq_getElem?_getD, List.getD_eq_getElem?_getD, List.append_assoc,
    List.getElem?_append_right (by omega), hfront, List.getElem?_append_left (by omega)]

theorem byteAt_drop (bytes : List UInt8) (start i : Nat) :
    byteAt (bytes.drop start) i = byteAt bytes (start + i) := by
  unfold byteAt
  rw [List.getD_eq_getElem?_getD, List.getD_eq_getElem?_getD, List.getElem?_drop]

theorem byteAt_take {bytes : List UInt8} {count i : Nat} (h : i < count) :
    byteAt (bytes.take count) i = byteAt bytes i := by
  unfold byteAt
  rw [List.getD_eq_getElem?_getD, List.getD_eq_getElem?_getD, List.getElem?_take_of_lt h]

theorem be16At_be16 (value : UInt16) (front back : List UInt8) :
    be16At (front ++ be16 value ++ back) front.length = value := by
  have hvalue := value.toNat_lt
  apply UInt16.toNat_inj.mp
  simp [be16At, byteAt, be16]
  omega

namespace RtpPacket

/-- The packet is framed as `Init` framed it: the setters leave alone the payload,
the size field and the first byte of the header. -/
structure Carries (payload : List UInt8) (p : RtpPacket) : Prop where
  length : p.bytes.length = 20 + payload.length
  payload_eq : p.bytes.drop 20 = payload
  size : be16At p.bytes 6 = UInt16.ofNat (12 + payload.length)
  first : byteAt p.bytes 8 = 128

theorem carries_createInstance {payload : List UInt8} {p : RtpPacket}
    (h : createInstance payload = some p) :
    p.Carries payload ∧ 0 < payload.length ∧ payload.length ≤ maxPayloadSize := by
  unfold createInstance at h
  split at h
  · cases h
  · rename_i hsize
    cases h
    simp only [Bool.or_eq_true, decide_eq_true_eq, not_or] at hsize
    refine ⟨⟨?_, ?_, ?_, ?_⟩, by omega, by omega⟩
    · simp [dummyBuffer, be16]
      omega
    · simp [dummyBuffer, be16]
    · unfold dummyBuffer
      rw [List.append_assoc]
      exact be16At_be16 _ [0, 0, 0, 0, 0, 0] _
    · simp [dummyBuffer, be16, byteAt]

theorem getMmType_setMmType (p : RtpPacket) (mmType : UInt8) (h : 4 ≤ p.bytes.length) :
    (p.setMmType mmType).getMmType = mmType := byteAt_writeAt_inside h le_rfl (Nat.lt_succ_self 4)

/-- Where a setter writes. -/
theorem apply_eq_writeAt (p : RtpPacket) (setter : PacketSetter) :
    ∃ offset values, p.apply setter = ⟨writeAt p.bytes offset values⟩ ∧
      (offset + values.length ≤ 6 ∨ 9 ≤ offset ∧ offset + values.length ≤ 20) := by
  cases setter <;> exact ⟨_, _, rfl, by simp [be16, be32]⟩

theorem Carries.apply {payload : List UInt8} {p : RtpPacket} (h : p.Carries payload)
    (setter : PacketSetter) : (p.apply setter).Carries payload := by
  obtain ⟨offset, values, heq, hrange⟩ := p.apply_eq_writeAt setter
  have hlength := h.length
  have hfits : offset + values.length ≤ p.bytes.length := by omega
  rw [heq]
  refine ⟨?_, ?_, ?_, ?_⟩
  · rw [length_writeAt hfits, hlength]
  · rw [drop_writeAt hfits (by omega), h.payload_eq]
  · unfold be16At
    rw [byteAt_writeAt hfits (by omega), byteAt_writeAt hfits (by omega)]
    exact h.size
  · rw [byteAt_writeAt hfits (by omega), h.first]

theorem Carries.applyAll {payload : List UInt8} {p : RtpPacket} (h : p.Carries payload)
    (setters : List PacketSetter) : (p.applyAll setters).Carries payload := by
  induction setters generalizing p with
  | nil => exact h
  | cons setter setters ih => exact ih (h.apply setter)

theorem Carries.payloadSize {payload : List UInt8} {p : RtpPacket} (h : p.Carries payload)
    (hsize : payload.length ≤ maxPayloadSize) : p.getPayloadSize.toNat = payload.length := by
  unfold getPayloadSize hdrAndPayloadSize
  rw [h.size]
  unfold maxPayloadSize at hsize
  unfold sizeofHeader
  rw [UInt16.toNat_sub_of_le]
  · rw [UInt16.toNat_ofNat', UInt16.toNat_ofNat']
    omega
  · rw [UInt16.le_iff_toNat_le, UInt16.toNat_ofNat', UInt16.toNat_ofNat']
    omega

theorem Carries.getPayload {payload : List UInt8} {p : RtpPacket} (h : p.Carries payload)
    (hsize : payload.length ≤ maxPayloadSize) : p.getPayload = payload := by
  unfold RtpPacket.getPayload getPayloadBuffer
  have hdrop : p.bytes.drop (sizeofExt + sizeofHeader) = payload := h.payload_eq
  rw [hdrop, h.payloadSize hsize, List.take_length]

/-- A packet made for a buffer of received bytes gives them back. -/
theorem getPayloadBuffer_of_createInstance {payload : List UInt8} {p : RtpPacket}
    (h : createInstance payload = some p) :
    p.getPayloadBuffer = payload ∧ p.getPayloadSize.toNat = payload.length := by
  obtain ⟨hcarries, _, hsize⟩ := carries_createInstance h
  exact ⟨hcarries.payload_eq, hcarries.payloadSize hsize⟩

theorem createInstance_eq_none_iff (payload : List UInt8) :
    createInstance payload = none ↔ payload.length = 0 ∨ maxPayloadSize < payload.length := by
  unfold createInstance
  split
  · rename_i h
    simpa using h
  · rename_i h
    simpa using h

end RtpPacket

open RtpPacket

/-- The EX peer takes the frame of a packet if it fits into a payload. -/
theorem acceptFrame_of_carries {info : SessionInfo} {payload : List UInt8} {p : RtpPacket}
    (h : p.Carries payload) (hpos : 0 < payload.length) (hsize : payload.length ≤ maxPayloadSize) :
    acceptFrame info p.bytes =
      if 20 + payload.length ≤ maxPayloadSize ∧ info.admits p then some p else none := by
  have hlength := h.length
  unfold acceptFrame
  cases hcreate : createInstance p.bytes with
  | none =>
    rw [createInstance_eq_none_iff, hlength] at hcreate
    rw [if_neg (by omega)]
  | some packet =>
    have hfits : 20 + payload.length ≤ maxPayloadSize := by
      rw [← hlength]
      exact (carries_createInstance hcreate).2.2
    obtain ⟨hbuffer, hbufferSize⟩ := getPayloadBuffer_of_createInstance hcreate
    have hword : (be16At p.bytes 6).toNat = 12 + payload.length := by
      unfold maxPayloadSize at hsize
      rw [h.size, UInt16.toNat_ofNat']
      omega
    have hparse : parseExtBuffer packet.getPayloadBuffer packet.getPayloadSize = true := by
      unfold parseExtBuffer sizeofExt sizeofHeader
      rw [hbuffer, hbufferSize, hlength, hword, h.first, if_neg (by omega), if_neg (by omega)]
      rfl
    dsimp only
    rw [if_pos hparse, hbuffer]
    by_cases hadmits : info.admits p
    · rw [if_pos hadmits, if_pos ⟨hfits, hadmits⟩]
    · rw [if_neg hadmits, if_neg (fun hboth => hadmits hboth.2)]

theorem parseRtpBuffer_of_carries {payload : List UInt8} {p : RtpPacket} (h : p.Carries payload)
    (hpos : 0 < payload.length) {size : UInt16} (hsize : size.toNat = 12 + payload.length) :
    parseRtpBuffer (p.bytes.drop 8) size = some (some 12, UInt16.ofNat payload.length) := by
  have hbits : headerBits (byteAt (p.bytes.drop 8) 0) = ⟨2, 0, 0, 0⟩ := by
    rw [byteAt_drop, h.first]
    rfl
  have hrest : 12 + payload.length - 12 = payload.length := by omega
  unfold parseRtpBuffer
  rw [hbits, hsize]
  simp [sizeofHeader, Nat.pos_iff_ne_zero.mp hpos, hrest]

/-- Writing back what stands there changes nothing. -/
theorem writeAt_self {bytes : List UInt8} {offset count : Nat} (h : offset + count ≤ bytes.length) :
    writeAt bytes offset ((bytes.drop offset).take count) = bytes := by
  have hcount : ((bytes.drop offset).take count).length = count := by
    rw [List.length_take, List.length_drop]
    omega
  unfold writeAt
  rw [hcount, List.append_assoc, ← List.drop_drop, List.take_append_drop, List.take_append_drop]

theorem take_one {bytes : List UInt8} (h : 0 < bytes.length) :
    (bytes.drop 0).take 1 = [byteAt bytes 0] := by
  cases bytes with
  | nil => simp at h
  | cons b bytes => simp [byteAt]

theorem be16At_writeAt {bytes : List UInt8} {offset : Nat} (h : offset ≤ bytes.length)
    (value : UInt16) : be16At (writeAt bytes offset (be16 value)) offset = value := by
  have hback := be16At_be16 value (bytes.take offset) (bytes.drop (offset + (be16 value).length))
  rw [List.length_take, Nat.min_eq_left h] at hback
  exact hback

/-- The first byte that a receiver sets is the one that was sent. -/
theorem header_of_carries {payload : List UInt8} {p : RtpPacket} (h : p.Carries payload) :
    writeAt ((p.bytes.drop 8).take sizeofHeader) 0 [128] = (p.bytes.drop 8).take sizeofHeader := by
  have hfirst : byteAt ((p.bytes.drop 8).take sizeofHeader) 0 = 128 := by
    rw [byteAt_take (by decide), byteAt_drop, h.first]
  have hlong : 0 + 1 ≤ ((p.bytes.drop 8).take sizeofHeader).length := by
    rw [List.length_take, List.length_drop, h.length]
    unfold sizeofHeader
    omega
  rw [← hfirst, ← take_one hlong, writeAt_self hlong]

/-- The plain peer rebuilds the header and the payload of a packet. -/
theorem acceptRtpFrame_of_carries (info : SessionInfo) {payload : List UInt8} {p packet : RtpPacket}
    (h : p.Carries payload) (hpos : 0 < payload.length)
    (hcreate : createInstance (p.bytes.drop 8) = some packet) :
    ∃ received, acceptRtpFrame info packet = some received ∧
      received.bytes.drop 8 = p.bytes.drop 8 ∧ be16At received.bytes 6 = be16At p.bytes 6 := by
  have hlength : (p.bytes.drop 8).length = 12 + payload.length := by
    rw [List.length_drop, h.length]
    omega
  obtain ⟨hcarries, -, hsize⟩ := carries_createInstance hcreate
  obtain ⟨hbuffer, hbufferSize⟩ := getPayloadBuffer_of_createInstance hcreate
  rw [hlength] at hbufferSize hsize
  have hparse := parseRtpBuffer_of_carries h hpos hbufferSize
  have hnonzero : UInt16.ofNat payload.length ≠ 0 := by
    intro hzero
    have hnat := congrArg UInt16.toNat hzero
    unfold maxPayloadSize at hsize
    rw [UInt16.toNat_ofNat', UInt16.toNat_zero] at hnat
    omega
  -- the memory the extension is laid over: eight bytes, then what was received
  have hmemory : (packet.bytes.drop 12).length = 20 + payload.length := by
    rw [List.length_drop, hcarries.length, hlength]
    omega
  have hbehind : (packet.bytes.drop 12).drop 8 = p.bytes.drop 8 := by
    rw [List.drop_drop]
    exact hcarries.payload_eq
  have hhdr := header_of_carries h
  unfold acceptRtpFrame
  rw [hbuffer, hparse]
  dsimp only
  rw [if_neg hnonzero, hhdr]
  have hext : ∀ (bytes : List UInt8), bytes.length = 20 + payload.length →
      bytes.drop 8 = p.bytes.drop 8 →
      ∀ offset values, offset + values.length ≤ 8 →
        (writeAt bytes offset values).length = 20 + payload.length ∧
          (writeAt bytes offset values).drop 8 = p.bytes.drop 8 := by
    intro bytes hbytes hsame offset values hrange
    exact ⟨(length_writeAt (by omega)).trans hbytes, (drop_writeAt (by omega) hrange).trans hsame⟩
  have hmmId := hext _ hmemory hbehind 0 (be32 info.inSrcMmId) (by simp [be32])
  have hmmType := hext _ hmmId.1 hmmId.2 4 [info.mmType] (by simp)
  have hword := hext _ hmmType.1 hmmType.2 6
    (be16 (UInt16.ofNat sizeofHeader + UInt16.ofNat payload.length)) (by simp [be16])
  have hself : ∀ (bytes : List UInt8), bytes.length = 20 + payload.length →
      bytes.drop 8 = p.bytes.drop 8 →
      writeAt bytes sizeofExt ((p.bytes.drop 8).take sizeofHeader) = bytes := by
    intro bytes hbytes hsame
    rw [← hsame]
    apply writeAt_self
    unfold sizeofExt sizeofHeader
    omega
  have hhdrSelf := hself _ hword.1 hword.2
  refine ⟨_, rfl, ?_, ?_⟩
  · exact (congrArg (List.drop 8) hhdrSelf).trans hword.2
  · refine (congrArg (be16At · 6) hhdrSelf).trans ?_
    rw [be16At_writeAt (by omega), h.size]
    exact (UInt16.ofNat_add _ _).symm

theorem be16At_congr {bytes bytes' : List UInt8} {i : Nat}
    (h : byteAt bytes i = byteAt bytes' i) (h' : byteAt bytes (i + 1) = byteAt bytes' (i + 1)) :
    be16At bytes i = be16At bytes' i := by
  unfold be16At
  rw [h, h']

theorem be32At_congr {bytes bytes' : List UInt8} {i : Nat}
    (h : ∀ k < 4, byteAt bytes (i + k) = byteAt bytes' (i + k)) :
    be32At bytes i = be32At bytes' i := by
  have hzero := h 0 (by omega)
  rw [Nat.add_zero] at hzero
  unfold be32At
  rw [hzero, h 1 (by omega), h 2 (by omega), h 3 (by omega)]

/-- The header bytes and the payload are all the content there is. -/
theorem sameRtp_of_bytes {p q : RtpPacket}
    (hbyte : ∀ i, 8 ≤ i → i < 20 → byteAt q.bytes i = byteAt p.bytes i)
    (hpayload : q.getPayload = p.getPayload) : p.SameRtp q := by
  refine ⟨hpayload, ?_, ?_, ?_, ?_, ?_⟩
  · unfold getMarker
    rw [hbyte 9 (by omega) (by omega)]
  · unfold getPayloadType
    rw [hbyte 9 (by omega) (by omega)]
  · exact be16At_congr (hbyte 10 (by omega) (by omega)) (hbyte 11 (by omega) (by omega))
  · exact be32At_congr fun k _ => hbyte (12 + k) (by omega) (by omega)
  · exact be32At_congr fun k _ => hbyte (16 + k) (by omega) (by omega)

/-- What agrees from the header on and in the size field has the same content. -/
theorem sameRtp_of_drop {p q : RtpPacket} (hdrop : q.bytes.drop 8 = p.bytes.drop 8)
    (hsize : be16At q.bytes 6 = be16At p.bytes 6) : p.SameRtp q := by
  apply sameRtp_of_bytes
  · intro i hi _
    have hi' : i = 8 + (i - 8) := by omega
    rw [hi', ← byteAt_drop, ← byteAt_drop, hdrop]
  · have hbuffer : q.bytes.drop 20 = p.bytes.drop 20 := by
      have h := congrArg (List.drop 12) hdrop
      rwa [List.drop_drop, List.drop_drop] at h
    unfold RtpPacket.getPayload getPayloadBuffer getPayloadSize hdrAndPayloadSize
    unfold sizeofExt sizeofHeader
    rw [hsize, hbuffer]

/-- The sizes for which the frame of a packet still fits into a packet at the peer. -/
def TcpKind.Fits (kind : TcpKind) (payloadSize : Nat) : Prop :=
  if kind.isEx then sizeofExt + sizeofHeader + payloadSize ≤ maxPayloadSize
  else sizeofHeader + payloadSize ≤ maxPayloadSize

instance (kind : TcpKind) (payloadSize : Nat) : Decidable (kind.Fits payloadSize) := by
  unfold TcpKind.Fits
  infer_instance

/-- Whether the peer can take the packet: its frame fits, and on an EX session it
comes from the configured source. -/
def TcpKind.CanTake (kind : TcpKind) (info : SessionInfo) (packet : RtpPacket)
    (payloadSize : Nat) : Prop :=
  kind.Fits payloadSize ∧ (kind.isEx → info.admits packet)

theorem sendPacket_eq {sender : TcpSender} {payload bytes : List UInt8} {p : RtpPacket}
    (h : p.Carries payload) (hsize : payload.length ≤ maxPayloadSize)
    (hsend : sender.sendPacket p = some bytes) :
    bytes = if sender.kind.isEx then p.bytes else p.bytes.drop 6 := by
  have hlength := h.length
  unfold TcpSender.sendPacket at hsend
  split at hsend
  · cases hsend
  · split at hsend
    · cases hsend
    · split at hsend
      · cases hsend
      · cases hsend
        rw [h.payloadSize hsize]
        unfold TcpKind.otherSize sizeofExt sizeofHeader
        split
        · rw [Nat.sub_self, List.drop_zero]
          exact List.take_of_length_le (by omega)
        · apply List.take_of_length_le
          rw [List.length_drop]
          omega

theorem frameSize_ex {payload : List UInt8} {p : RtpPacket} (h : p.Carries payload)
    (hsize : payload.length ≤ maxPayloadSize) :
    frameSize sizeofExt (fun header => (be16At header 6).toNat) p.bytes = p.bytes.length := by
  have hword : be16At (p.bytes.take sizeofExt) 6 = be16At p.bytes 6 :=
    be16At_congr (byteAt_take (by decide)) (byteAt_take (by decide))
  unfold frameSize
  dsimp only
  rw [hword, h.size, h.length, UInt16.toNat_ofNat']
  unfold maxPayloadSize at hsize
  unfold sizeofExt
  omega

theorem parse_ex (info : SessionInfo) {payload : List UInt8} {p : RtpPacket} (h : p.Carries payload)
    (hpos : 0 < payload.length) (hsize : payload.length ≤ maxPayloadSize) :
    (exFramer info).parse p.bytes =
      if 20 + payload.length ≤ maxPayloadSize ∧ info.admits p then ⟨[p], p.bytes.length, some []⟩
      else ⟨[], p.bytes.length, none⟩ := by
  have hlength := h.length
  have htake : takeFrame info p.bytes =
      (if 20 + payload.length ≤ maxPayloadSize ∧ info.admits p then some (some p) else none) := by
    unfold takeFrame
    rw [if_neg (by unfold sizeofExt; omega), acceptFrame_of_carries h hpos hsize]
    split <;> rfl
  unfold exFramer
  rw [parse_announced_single _ _ _ _ (frameSize_ex h hsize), htake]
  split
  · rename_i hnone
    split at hnone
    · cases hnone
    · rename_i hcannot
      rw [if_neg hcannot]
  · rename_i hsome
    split at hsome
    · rename_i hcan
      cases hsome
      rw [if_pos hcan]
      rfl
    · cases hsome

theorem parse_plain (info : SessionInfo) {payload : List UInt8} {p : RtpPacket}
    (h : p.Carries payload) (hpos : 0 < payload.length) (hsize : payload.length ≤ maxPayloadSize) :
    (12 + payload.length ≤ maxPayloadSize → ∃ received, p.SameRtp received ∧
      (plainFramer info).parse (p.bytes.drop 6) = ⟨[received], (p.bytes.drop 6).length, some []⟩) ∧
    (¬ 12 + payload.length ≤ maxPayloadSize →
      (plainFramer info).parse (p.bytes.drop 6) = ⟨[], (p.bytes.drop 6).length, none⟩) := by
  have hlength : (p.bytes.drop 6).length = 14 + payload.length := by
    rw [List.length_drop, h.length]
    omega
  have hbody : ((p.bytes.drop 6).drop 2).length = 12 + payload.length := by
    rw [List.length_drop, hlength]
    omega
  have hdrop : (p.bytes.drop 6).drop 2 = p.bytes.drop 8 := List.drop_drop
  have hframe : frameSize 2 (fun header => (be16At header 0).toNat) (p.bytes.drop 6) =
      (p.bytes.drop 6).length := by
    have hword : be16At ((p.bytes.drop 6).take 2) 0 = be16At p.bytes 6 := by
      unfold be16At
      rw [byteAt_take (by decide), byteAt_take (by decide), byteAt_drop, byteAt_drop]
    unfold frameSize
    dsimp only
    rw [hword, h.size, hlength, UInt16.toNat_ofNat']
    unfold maxPayloadSize at hsize
    omega
  unfold plainFramer
  rw [parse_announced_single _ _ _ _ hframe]
  unfold takeRtpFrame
  rw [if_neg (by omega)]
  cases hcreate : createInstance ((p.bytes.drop 6).drop 2) with
  | none =>
    have hlarge := (createInstance_eq_none_iff _).mp hcreate
    rw [hbody] at hlarge
    exact ⟨fun hfits => by omega, fun _ => rfl⟩
  | some packet =>
    have hfits := (carries_createInstance hcreate).2.2
    rw [hbody] at hfits
    rw [hdrop] at hcreate
    obtain ⟨received, haccept, hsame, hword⟩ := acceptRtpFrame_of_carries info h hpos hcreate
    refine ⟨fun _ => ⟨received, sameRtp_of_drop hsame hword, ?_⟩, fun hlarge => absurd hfits hlarge⟩
    rw [Option.map_some, haccept]
    rfl

/-- What the peer makes of the bytes of one packet. -/
theorem parse_sent {sender : TcpSender} {kind : TcpKind} (info : SessionInfo)
    {payload bytes : List UInt8} {p : RtpPacket} (h : p.Carries payload)
    (hpos : 0 < payload.length) (hsize : payload.length ≤ maxPayloadSize)
    (hkind : kind.isEx = sender.kind.isEx) (hsend : sender.sendPacket p = some bytes) :
    (kind.CanTake info p payload.length → ∃ received, p.SameRtp received ∧
      (kind.isEx → p.SameExt received) ∧
      (framer kind info).parse bytes = ⟨[received], bytes.length, some []⟩) ∧
    (¬ kind.CanTake info p payload.length →
      (framer kind info).parse bytes = ⟨[], bytes.length, none⟩) := by
  have hbytes := sendPacket_eq h hsize hsend
  unfold TcpKind.CanTake TcpKind.Fits framer
  cases hex : kind.isEx with
  | true =>
    rw [← hkind, hex, if_pos rfl] at hbytes
    subst hbytes
    simp only [if_true, true_implies]
    rw [parse_ex info h hpos hsize]
    refine ⟨fun hcan => ⟨p, ⟨rfl, rfl, rfl, rfl, rfl, rfl⟩, ⟨rfl, rfl, rfl, rfl⟩, if_pos hcan⟩,
      fun hcannot => if_neg hcannot⟩
  | false =>
    rw [← hkind, hex, if_neg (by simp)] at hbytes
    subst hbytes
    simp only [Bool.false_eq_true, if_false, false_implies, and_true, true_and]
    exact parse_plain info h hpos hsize

namespace TcpSession

/-- After the bytes of a packet the session stands behind them, or is closed. -/
theorem follows_sent (kind : TcpKind) (info : SessionInfo) {poolSize : Nat} (hsize : 0 < poolSize)
    (buf : Nat → UInt8) {before reads : List (List UInt8)}
    (hbefore : (init kind info poolSize buf).ReadsFit before)
    (hidle : ((init kind info poolSize buf).onReads before).outcome = .running [])
    (hreads : ((init kind info poolSize buf).onReads before).ReadsFit reads) :
    ∃ consumed, (((init kind info poolSize buf).onReads before).onReads reads).Follows
      kind info poolSize
      ⟨((init kind info poolSize buf).onReads before).delivered ++
          ((framer kind info).parse reads.flatten).items,
        consumed + ((framer kind info).parse reads.flatten).consumed,
        ((framer kind info).parse reads.flatten).rest⟩ := by
  have hfirst := follows_parse kind info hsize buf hbefore
  have hrest : ((framer kind info).parse before.flatten).rest = some [] := by
    have houtcome := hfirst.outcome_eq
    rw [hidle] at houtcome
    split at houtcome
    · rename_i rest hrest
      cases houtcome
      exact hrest
    · cases houtcome
  have hsecond := hfirst.onReads hreads
  rw [Framer.foldl_feed_parse, Framer.parse_append] at hsecond
  unfold Framer.feed at hsecond
  rw [hrest] at hsecond
  dsimp only at hsecond
  rw [List.nil_append, ← hfirst.items] at hsecond
  exact ⟨_, hsecond⟩

end TcpSession

open TcpSession

/-- The peer receives a packet as it was sent exactly if its frame fits into a
packet of the peer, and on an EX session comes from the configured source. -/
theorem received_iff_canTake {sender : TcpSender} {kind : TcpKind}
    (hkind : kind.isEx = sender.kind.isEx) (info : SessionInfo) {poolSize : Nat}
    (hsize : 0 < poolSize) (buf : Nat → UInt8) {payload bytes : List UInt8} {made : RtpPacket}
    (setters : List PacketSetter) (hmade : createInstance payload = some made)
    (hsend : sender.sendPacket (made.applyAll setters) = some bytes)
    {before reads : List (List UInt8)} (hbefore : (init kind info poolSize buf).ReadsFit before)
    (hidle : ((init kind info poolSize buf).onReads before).outcome = .running [])
    (hreads : ((init kind info poolSize buf).onReads before).ReadsFit reads)
    (hbytes : reads.flatten = bytes) :
    Received (made.applyAll setters) ((init kind info poolSize buf).onReads before)
        (((init kind info poolSize buf).onReads before).onReads reads) ↔
      kind.CanTake info (made.applyAll setters) payload.length := by
  obtain ⟨hcarries, hpos, hmax⟩ := carries_createInstance hmade
  obtain ⟨htaken, hrefused⟩ := parse_sent info (hcarries.applyAll setters) hpos hmax hkind hsend
  obtain ⟨consumed, hfollows⟩ := follows_sent kind info hsize buf hbefore hidle hreads
  have hkindEq : ((init kind info poolSize buf).onReads before).kind = kind :=
    (follows_parse kind info hsize buf hbefore).kind_eq
  rw [hbytes] at hfollows
  unfold Received
  rw [hfollows.outcome_eq, hfollows.items, hkindEq]
  by_cases hcan : kind.CanTake info (made.applyAll setters) payload.length
  · obtain ⟨received, hrtp, hext, hparse⟩ := htaken hcan
    rw [hparse]
    exact ⟨fun _ => hcan, fun _ => ⟨rfl, received, rfl, hrtp, hext⟩⟩
  · rw [hrefused hcan]
    constructor
    · intro hreceived
      cases hreceived.1
    · intro h
      exact absurd h hcan

/-- A packet of one byte between matching EX sessions. -/
def onePacket : RtpPacket := ⟨dummyBuffer 1 ++ [65]⟩

def exSender : TcpSender := ⟨.clientEx, 0, 11, true, true⟩

theorem received_iff_canTake_onePacket :
    Received (onePacket.applyAll [.mmType 11])
        ((init .serverEx ⟨0, 11⟩ tcpRecvPoolSize fun _ => 0).onReads [])
        (((init .serverEx ⟨0, 11⟩ tcpRecvPoolSize fun _ => 0).onReads []).onReads
          [(onePacket.applyAll [.mmType 11]).bytes]) ↔
      TcpKind.CanTake .serverEx ⟨0, 11⟩ (onePacket.applyAll [.mmType 11]) 1 := by
  have hreads : ((init .serverEx ⟨0, 11⟩ tcpRecvPoolSize fun _ => 0).onReads []).ReadsFit
      [(onePacket.applyAll [.mmType 11]).bytes] := by
    unfold ReadsFit
    decide +kernel
  have hmade : createInstance [65] = some onePacket := by decide
  have hsend : exSender.sendPacket (onePacket.applyAll [.mmType 11]) =
      some (onePacket.applyAll [.mmType 11]).bytes := by decide
  have hkind : TcpKind.isEx .serverEx = exSender.kind.isEx := rfl
  have hbefore : (init .serverEx ⟨0, 11⟩ tcpRecvPoolSize fun _ => 0).ReadsFit [] := trivial
  exact received_iff_canTake hkind ⟨0, 11⟩ (by decide) (fun _ => 0) [.mmType 11] hmade hsend
    hbefore rfl hreads List.flatten_singleton

/-- A packet with the largest payload `CreateInstance` accepts. -/
def largestPacket : RtpPacket :=
  ⟨dummyBuffer maxPayloadSize ++ List.replicate maxPayloadSize 0⟩

theorem createInstance_largest :
    createInstance (List.replicate maxPayloadSize 0) = some largestPacket := by
  unfold createInstance largestPacket
  rw [List.length_replicate, if_neg (by decide)]

theorem sendPacket_largest :
    exSender.sendPacket (largestPacket.applyAll [.mmType 11]) =
      some (largestPacket.applyAll [.mmType 11]).bytes := by
  have hmade := (carries_createInstance createInstance_largest).1
  have hcarries := hmade.applyAll [.mmType 11]
  have hlength := hcarries.length
  have hmmType : (largestPacket.applyAll [.mmType 11]).getMmType = 11 :=
    getMmType_setMmType largestPacket 11 (hmade.length ▸ Nat.le_add_right_of_le (by decide))
  rw [List.length_replicate] at hlength
  have hpayload := hcarries.payloadSize (by rw [List.length_replicate])
  rw [List.length_replicate] at hpayload
  unfold TcpSender.sendPacket
  rw [hmmType, hpayload]
  have hwhole : (largestPacket.applyAll [.mmType 11]).bytes.take (maxPayloadSize + 20) =
      (largestPacket.applyAll [.mmType 11]).bytes := List.take_of_length_le (by omega)
  exact congrArg some hwhole

/-- The peer closes the session on the largest packet there is. -/
theorem not_received_largest :
    createInstance (List.replicate maxPayloadSize 0) = some largestPacket ∧
      exSender.sendPacket (largestPacket.applyAll [.mmType 11]) =
        some (largestPacket.applyAll [.mmType 11]).bytes ∧
      (init .serverEx ⟨0, 11⟩ tcpRecvPoolSize fun _ => 0).ReadsFit
        [(largestPacket.applyAll [.mmType 11]).bytes] ∧
      ¬ Received (largestPacket.applyAll [.mmType 11])
        (init .serverEx ⟨0, 11⟩ tcpRecvPoolSize fun _ => 0)
        ((init .serverEx ⟨0, 11⟩ tcpRecvPoolSize fun _ => 0).onReads
          [(largestPacket.applyAll [.mmType 11]).bytes]) := by
  obtain ⟨hcarries, hpos, hmax⟩ := carries_createInstance createInstance_largest
  have hset := hcarries.applyAll [.mmType 11]
  have hlength := hset.length
  rw [List.length_replicate] at hlength
  have hreads : (init .serverEx ⟨0, 11⟩ tcpRecvPoolSize fun _ => 0).ReadsFit
      [(largestPacket.applyAll [.mmType 11]).bytes] := by
    refine ⟨fun _ => ⟨?_, ?_⟩, trivial⟩
    · intro hnil
      rw [hnil] at hlength
      cases hlength
    · rw [hlength]
      decide
  refine ⟨createInstance_largest, sendPacket_largest, hreads, ?_⟩
  intro hreceived
  have hkind : TcpKind.isEx .serverEx = exSender.kind.isEx := rfl
  have hcannot : ¬ TcpKind.CanTake .serverEx ⟨0, 11⟩ (largestPacket.applyAll [.mmType 11])
      (List.replicate maxPayloadSize (0 : UInt8)).length := by
    intro hcan
    have hfits := hcan.1
    rw [List.length_replicate] at hfits
    revert hfits
    decide
  have hrefused := (parse_sent ⟨0, 11⟩ hset hpos hmax hkind sendPacket_largest).2 hcannot
  have hbefore : (init .serverEx ⟨0, 11⟩ tcpRecvPoolSize fun _ => 0).ReadsFit [] := trivial
  obtain ⟨consumed, hfollows⟩ := follows_sent .serverEx ⟨0, 11⟩ (by decide) (fun _ => 0)
    hbefore rfl hreads
  rw [List.flatten_singleton, hrefused] at hfollows
  have houtcome := hfollows.outcome_eq.symm.trans hreceived.1
  cases houtcome

end Pronet.Rtp
