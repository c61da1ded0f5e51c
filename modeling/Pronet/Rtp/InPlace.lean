import Pronet.Rtp.HeaderParser

/-! The packets that `OnRecv` of `CRtpSessionTcpclient` and `CRtpSessionUdpclient` build inside
the received bytes, beside the packet that `ParseRtpStreamToPacket` builds from them. -/
namespace Pronet.Rtp

open Net Library RtpPacket

/-- What a turn of `OnRecv` makes of the bytes of one RTP packet. -/
inductive Decoded where
  | error
  | dropped
  | packet (packet : RtpPacket)
deriving DecidableEq, Repr

/-- The bytes behind the size word of a frame. -/
def tcpclientDecode (info : SessionInfo) (buffer : List UInt8) : Decoded :=
  match createInstance buffer with
  | none => .error
  | some packet =>
      match acceptRtpFrame info packet with
      | none => .dropped
      | some packet => .packet packet

/-- A datagram, and whether its sender becomes the remote address. -/
def udpclientDecode (info : SessionInfo) (buffer : List UInt8) : Decoded × Bool :=
  match createInstance buffer with
  | none => (.error, false)
  | some packet =>
      match parseRtpBuffer packet.getPayloadBuffer packet.getPayloadSize with
      | none => (.dropped, false)
      | some (payloadBuffer, payloadSize) =>
          -- the address is taken here, before an empty payload is looked for
          if payloadBuffer = none ∨ payloadSize = 0 then (.dropped, true)
          else
            match acceptRtpFrame info packet with
            | none => (.dropped, true)
            | some packet => (.packet packet, true)

/-- What the TCP client does with a whole frame. -/
theorem turnPlain_eq (s : TcpSession)
    (hframe : 2 + (be16At (s.pool.peekData 2) 0).toNat ≤ s.pool.peekDataSize)
    (hsize : (be16At (s.pool.peekData 2) 0).toNat ≠ 0) :
    s.turnPlain =
      let packetSize := (be16At (s.pool.peekData 2) 0).toNat
      let next := (s.flush 2).flush packetSize
      match tcpclientDecode s.info ((s.flush 2).pool.peekData packetSize) with
      | .error => next.endTurn none
      | .dropped => .again next
      | .packet packet => next.endTurn (some packet) := by
  unfold TcpSession.turnPlain tcpclientDecode
  dsimp only
  rw [if_neg (by omega), if_neg (by omega), if_neg hsize]
  cases createInstance ((s.flush 2).pool.peekData (be16At (s.pool.peekData 2) 0).toNat) with
  | none => rfl
  | some packet =>
    dsimp only
    rw [show (s.flush 2).info = s.info from rfl]
    cases acceptRtpFrame s.info packet <;> rfl

/-- The packets give the same answers to all getters of the payload, the header and the flags. -/
structure Alike (fresh inPlace : RtpPacket) : Prop where
  sameRtp : fresh.SameRtp inPlace
  size : inPlace.getPayloadSize = fresh.getPayloadSize
  keyFrame : inPlace.getKeyFrame = fresh.getKeyFrame
  firstPacketOfFrame : inPlace.getFirstPacketOfFrame = fresh.getFirstPacketOfFrame

/-- What the decoder of a session is to do with a buffer: a packet it builds is the one that
`ParseRtpStreamToPacket` builds, with the id and the type of the session. -/
def DecodesAlike (info : SessionInfo) (buffer : List UInt8) (decoded : Decoded) : Prop :=
  ∀ inPlace, decoded = .packet inPlace →
    inPlace.getMmId = info.inSrcMmId ∧ inPlace.getMmType = info.mmType ∧
      ∃ fresh, parseRtpStreamToPacket buffer (UInt16.ofNat buffer.length) = some (some fresh) ∧
        Alike fresh inPlace

/-- The header that both ways of decoding write. -/
def rewrittenHeader (buffer : List UInt8) : List UInt8 :=
  writeAt (buffer.take sizeofHeader) 0 [128]

/-- The memory from the new place of the extension on, before anything is written. -/
def overlaidMemory (buffer : List UInt8) : List UInt8 :=
  (dummyBuffer buffer.length ++ buffer).drop (headerSize buffer)

/-- The packet built in place. -/
def inPlacePacket (info : SessionInfo) (buffer : List UInt8) : RtpPacket :=
  let bytes := overlaidMemory buffer
  let bytes := writeAt bytes 0 (be32 info.inSrcMmId)
  let bytes := writeAt bytes 4 [info.mmType]
  let bytes := writeAt bytes 6
    (be16 (UInt16.ofNat sizeofHeader + UInt16.ofNat (payloadOf buffer).length))
  ⟨writeAt bytes sizeofExt (rewrittenHeader buffer)⟩

/-- The packet built afresh. -/
def freshPacket (buffer : List UInt8) : RtpPacket :=
  ⟨writeAt (dummyBuffer (payloadOf buffer).length ++ payloadOf buffer) sizeofExt
    (rewrittenHeader buffer)⟩

theorem createInstance_of_fits {payload : List UInt8} (hpos : 0 < payload.length)
    (hmax : payload.length ≤ maxPayloadSize) :
    createInstance payload = some ⟨dummyBuffer payload.length ++ payload⟩ := by
  unfold createInstance
  rw [if_neg (by rw [Bool.or_eq_true, decide_eq_true_eq, decide_eq_true_eq]; omega)]

section

variable {buffer : List UInt8} (hgood : WellFormed buffer) (hpos : 0 < (payloadOf buffer).length)
include hgood hpos

theorem payload_bounds : headerSize buffer + (payloadOf buffer).length ≤ buffer.length ∧
    sizeofHeader ≤ headerSize buffer := by
  have hlength := length_payloadOf hgood
  have hsources := sources_le_headerSize buffer
  omega

theorem acceptRtpFrame_eq (info : SessionInfo) (hmax : buffer.length ≤ maxPayloadSize)
    {packet : RtpPacket} (hcreate : createInstance buffer = some packet) :
    parseRtpBuffer packet.getPayloadBuffer packet.getPayloadSize =
        some (some (headerSize buffer), UInt16.ofNat (payloadOf buffer).length) ∧
      UInt16.ofNat (payloadOf buffer).length ≠ 0 ∧
      acceptRtpFrame info packet = some (inPlacePacket info buffer) := by
  have hbounds := payload_bounds hgood hpos
  unfold maxPayloadSize at hmax
  have hbytes : packet = ⟨dummyBuffer buffer.length ++ buffer⟩ := by
    rw [createInstance_of_fits (by omega) (by unfold maxPayloadSize; omega)] at hcreate
    exact (Option.some.inj hcreate).symm
  obtain ⟨hbuffer, hsize⟩ := getPayloadBuffer_of_createInstance hcreate
  have hparse : parseRtpBuffer packet.getPayloadBuffer packet.getPayloadSize =
      some (some (headerSize buffer), UInt16.ofNat (payloadOf buffer).length) := by
    rw [hbuffer, parseRtpBuffer_eq hsize, if_pos hgood, if_neg (by omega)]
  have hnonzero : UInt16.ofNat (payloadOf buffer).length ≠ 0 := by
    intro hzero
    have hnat := congrArg UInt16.toNat hzero
    rw [UInt16.toNat_ofNat', UInt16.toNat_zero] at hnat
    omega
  refine ⟨hparse, hnonzero, ?_⟩
  unfold acceptRtpFrame
  rw [hparse]
  dsimp only
  rw [if_neg hnonzero, hbuffer, hbytes]
  rfl

theorem tcpclientDecode_eq (info : SessionInfo) :
    tcpclientDecode info buffer =
      if buffer.length ≤ maxPayloadSize then .packet (inPlacePacket info buffer) else .error := by
  have hbounds := payload_bounds hgood hpos
  unfold tcpclientDecode
  by_cases hmax : buffer.length ≤ maxPayloadSize
  · have hcreate := @createInstance_of_fits buffer (by omega) hmax
    rw [if_pos hmax, hcreate]
    dsimp only
    rw [(acceptRtpFrame_eq hgood hpos info hmax hcreate).2.2]
  · rw [if_neg hmax, (createInstance_eq_none_iff buffer).mpr (Or.inr (by omega))]

theorem udpclientDecode_eq (info : SessionInfo) :
    (udpclientDecode info buffer).1 =
      if buffer.length ≤ maxPayloadSize then .packet (inPlacePacket info buffer) else .error := by
  have hbounds := payload_bounds hgood hpos
  unfold udpclientDecode
  by_cases hmax : buffer.length ≤ maxPayloadSize
  · have hcreate := @createInstance_of_fits buffer (by omega) hmax
    obtain ⟨hparse, hnonzero, haccept⟩ := acceptRtpFrame_eq hgood hpos info hmax hcreate
    rw [if_pos hmax, hcreate]
    dsimp only
    rw [hparse]
    dsimp only
    rw [if_neg (by simp [hnonzero]), haccept]
  · rw [if_neg hmax, (createInstance_eq_none_iff buffer).mpr (Or.inr (by omega))]

theorem parseRtpStreamToPacket_fresh (hmax : buffer.length ≤ maxPayloadSize) :
    parseRtpStreamToPacket buffer (UInt16.ofNat buffer.length) = some (some (freshPacket buffer)) := by
  have hbounds := payload_bounds hgood hpos
  have hsize : (UInt16.ofNat buffer.length).toNat = buffer.length := by
    unfold maxPayloadSize at hmax
    exact UInt16.toNat_ofNat_of_lt' (show _ < 2 ^ 16 by omega)
  rw [parseRtpStreamToPacket_eq hsize, if_pos hgood, createInstance_of_fits hpos (by omega)]
  rfl

end

/-! The bytes of the two packets. -/

theorem be32At_be32 (value : UInt32) (back : List UInt8) : be32At (be32 value ++ back) 0 = value := by
  have hvalue := value.toNat_lt
  apply UInt32.toNat_inj.mp
  simp [be32At, byteAt, be32]
  omega

/-- The writes into the extension, of which none covers its byte of flags. -/
theorem ext_writes {bytes : List UInt8} (hlength : 8 ≤ bytes.length) (mmId : UInt32) (mmType : UInt8)
    (size : UInt16) :
    let out := writeAt (writeAt (writeAt bytes 0 (be32 mmId)) 4 [mmType]) 6 (be16 size)
    out.length = bytes.length ∧ be32At out 0 = mmId ∧ byteAt out 4 = mmType ∧
      byteAt out 5 = byteAt bytes 5 ∧ be16At out 6 = size ∧ out.drop 20 = bytes.drop 20 := by
  have hid : (writeAt bytes 0 (be32 mmId)).length = bytes.length :=
    length_writeAt (by simp [be32]; omega)
  have htype : (writeAt (writeAt bytes 0 (be32 mmId)) 4 [mmType]).length = bytes.length := by
    rw [length_writeAt (by rw [hid]; simp; omega), hid]
  have htypeFits : 4 + [mmType].length ≤ (writeAt bytes 0 (be32 mmId)).length := by
    rw [hid]
    simp
    omega
  have hsizeFits : 6 + (be16 size).length ≤
      (writeAt (writeAt bytes 0 (be32 mmId)) 4 [mmType]).length := by
    rw [htype]
    simp [be16]
    omega
  dsimp only
  refine ⟨?_, ?_, ?_, ?_, ?_, ?_⟩
  · rw [length_writeAt hsizeFits, htype]
  · have hfirst : be32At (writeAt bytes 0 (be32 mmId)) 0 = mmId := by
      unfold writeAt
      rw [List.take_zero, List.nil_append]
      exact be32At_be32 mmId _
    refine Eq.trans (be32At_congr fun k hk => ?_) hfirst
    rw [byteAt_writeAt hsizeFits (Or.inl (by omega)), byteAt_writeAt htypeFits (Or.inl (by omega))]
  · rw [byteAt_writeAt hsizeFits (Or.inl (by omega)),
      byteAt_writeAt_inside (by omega) (le_refl 4) (by simp)]
    rfl
  · rw [byteAt_writeAt hsizeFits (Or.inl (by omega)),
      byteAt_writeAt htypeFits (Or.inr (by simp)),
      byteAt_writeAt (by simp [be32]; omega) (Or.inr (by simp [be32]))]
  · exact be16At_writeAt (by omega) size
  · rw [drop_writeAt hsizeFits (by simp [be16]), drop_writeAt htypeFits (by simp),
      drop_writeAt (by simp [be32]; omega) (by simp [be32])]

theorem length_rewrittenHeader {buffer : List UInt8} (hgood : WellFormed buffer) :
    (rewrittenHeader buffer).length = 12 := by
  have hlong : (buffer.take sizeofHeader).length = 12 := List.length_take_of_le hgood.1
  unfold rewrittenHeader
  rw [length_writeAt (by rw [hlong]; decide), hlong]

theorem length_overlaidMemory {buffer : List UInt8} (hgood : WellFormed buffer) :
    20 ≤ (overlaidMemory buffer).length := by
  have hfits := hgood.2.2
  unfold overlaidMemory dummyBuffer be16
  simp
  omega

/-- Memory written from the header on. -/
theorem header_written {buffer bytes : List UInt8} (hgood : WellFormed buffer)
    (hlength : 20 ≤ bytes.length) :
    (∀ i < 8, byteAt (writeAt bytes sizeofExt (rewrittenHeader buffer)) i = byteAt bytes i) ∧
      (∀ i, 8 ≤ i → i < 20 → byteAt (writeAt bytes sizeofExt (rewrittenHeader buffer)) i =
        byteAt (rewrittenHeader buffer) (i - 8)) ∧
      (writeAt bytes sizeofExt (rewrittenHeader buffer)).drop 20 = bytes.drop 20 := by
  have hhdr := length_rewrittenHeader hgood
  have hfits : sizeofExt + (rewrittenHeader buffer).length ≤ bytes.length := by
    rw [hhdr]
    exact hlength
  refine ⟨?_, ?_, ?_⟩
  · intro i hi
    exact byteAt_writeAt hfits (Or.inl hi)
  · intro i hi hi'
    exact byteAt_writeAt_inside (by unfold sizeofExt; omega) hi (by rw [hhdr]; exact hi')
  · exact drop_writeAt hfits (by rw [hhdr]; exact le_refl _)

/-- The byte of flags of a packet built in place: the dummy header in front of the buffer, or a
byte of the buffer that nothing has written since. -/
def staleFlags (buffer : List UInt8) : UInt8 :=
  if headerSize buffer = sizeofHeader then 0 else byteAt buffer (headerSize buffer - 15)

theorem overlaidMemory_flags (buffer : List UInt8) :
    byteAt (overlaidMemory buffer) 5 = staleFlags buffer := by
  have hsources := sources_le_headerSize buffer
  have hdummy : (dummyBuffer buffer.length).length = 20 := by simp [dummyBuffer, be16]
  unfold overlaidMemory staleFlags
  rw [byteAt_drop]
  split
  · rename_i hplain
    rw [hplain]
    unfold byteAt sizeofHeader
    rw [List.getD_eq_getElem?_getD, List.getElem?_append_left (by omega)]
    rfl
  · rename_i hmore
    have hfar : 15 ≤ headerSize buffer := by
      unfold headerSize sizeofHeader at *
      dsimp only at *
      split at hmore <;> split <;> omega
    unfold byteAt
    rw [List.getD_eq_getElem?_getD, List.getD_eq_getElem?_getD,
      List.getElem?_append_right (by omega), hdummy]
    congr 2

theorem overlaidMemory_drop (buffer : List UInt8) :
    (overlaidMemory buffer).drop 20 = buffer.drop (headerSize buffer) := by
  have hdummy : (dummyBuffer buffer.length).length = 20 := by simp [dummyBuffer, be16]
  unfold overlaidMemory
  rw [List.drop_drop, Nat.add_comm, ← List.drop_drop, List.drop_left' hdummy]

theorem payloadSize_of_word {p : RtpPacket} {n : Nat}
    (h : be16At p.bytes 6 = UInt16.ofNat sizeofHeader + UInt16.ofNat n) :
    p.getPayloadSize = UInt16.ofNat n := by
  unfold getPayloadSize hdrAndPayloadSize
  rw [h, UInt16.add_comm, UInt16.add_sub_cancel]

theorem payload_of_size {p : RtpPacket} {n : Nat} (hn : n < 2 ^ 16)
    (hsize : p.getPayloadSize = UInt16.ofNat n) : p.getPayload = (p.bytes.drop 20).take n := by
  unfold getPayload getPayloadBuffer
  rw [hsize, UInt16.toNat_ofNat_of_lt' hn]
  rfl

/-- What the getters find in the packet built in place. -/
theorem inPlacePacket_spec {buffer : List UInt8} (hgood : WellFormed buffer)
    (hsmall : (payloadOf buffer).length < 2 ^ 16) (info : SessionInfo) :
    (inPlacePacket info buffer).getMmId = info.inSrcMmId ∧
      (inPlacePacket info buffer).getMmType = info.mmType ∧
      byteAt (inPlacePacket info buffer).bytes 5 = staleFlags buffer ∧
      (∀ i, 8 ≤ i → i < 20 → byteAt (inPlacePacket info buffer).bytes i =
        byteAt (rewrittenHeader buffer) (i - 8)) ∧
      (inPlacePacket info buffer).getPayloadSize = UInt16.ofNat (payloadOf buffer).length ∧
      (inPlacePacket info buffer).getPayload = payloadOf buffer := by
  have hlength := length_overlaidMemory hgood
  obtain ⟨hsame, hid, htype, hflags, hsize, hrest⟩ := @ext_writes (overlaidMemory buffer) (by omega)
    info.inSrcMmId info.mmType (UInt16.ofNat sizeofHeader + UInt16.ofNat (payloadOf buffer).length)
  obtain ⟨hfront, hheader, hback⟩ := header_written hgood (hlength.trans_eq hsame.symm)
  have hword : (inPlacePacket info buffer).getPayloadSize = UInt16.ofNat (payloadOf buffer).length :=
    payloadSize_of_word ((be16At_congr (hfront 6 (by omega)) (hfront 7 (by omega))).trans hsize)
  refine ⟨?_, ?_, ?_, hheader, hword, ?_⟩
  · refine Eq.trans (be32At_congr fun k hk => ?_) hid
    exact hfront (0 + k) (by omega)
  · exact (hfront 4 (by omega)).trans htype
  · exact ((hfront 5 (by omega)).trans hflags).trans (overlaidMemory_flags buffer)
  · rw [payload_of_size hsmall hword]
    have hdrop : (inPlacePacket info buffer).bytes.drop 20 = buffer.drop (headerSize buffer) :=
      (hback.trans hrest).trans (overlaidMemory_drop buffer)
    rw [hdrop, length_payloadOf hgood]
    rfl

/-- What the getters find in the packet built afresh. -/
theorem freshPacket_spec {buffer : List UInt8} (hgood : WellFormed buffer)
    (hsmall : (payloadOf buffer).length < 2 ^ 16) :
    byteAt (freshPacket buffer).bytes 5 = 0 ∧
      (∀ i, 8 ≤ i → i < 20 → byteAt (freshPacket buffer).bytes i =
        byteAt (rewrittenHeader buffer) (i - 8)) ∧
      (freshPacket buffer).getPayloadSize = UInt16.ofNat (payloadOf buffer).length ∧
      (freshPacket buffer).getPayload = payloadOf buffer := by
  have hdummy : (dummyBuffer (payloadOf buffer).length).length = 20 := by simp [dummyBuffer, be16]
  obtain ⟨hfront, hheader, hback⟩ := @header_written buffer
    (dummyBuffer (payloadOf buffer).length ++ payloadOf buffer) hgood
    (by rw [List.length_append, hdummy]; omega)
  have hword : be16At (freshPacket buffer).bytes 6 =
      UInt16.ofNat sizeofHeader + UInt16.ofNat (payloadOf buffer).length := by
    refine (be16At_congr (hfront 6 (by omega)) (hfront 7 (by omega))).trans ?_
    rw [← UInt16.ofNat_add]
    unfold dummyBuffer
    rw [List.append_assoc]
    exact be16At_be16 _ [0, 0, 0, 0, 0, 0] _
  have hsize := payloadSize_of_word hword
  refine ⟨(hfront 5 (by omega)).trans rfl, hheader, hsize, ?_⟩
  have hdrop : (freshPacket buffer).bytes.drop 20 = payloadOf buffer :=
    hback.trans (List.drop_left' hdummy)
  rw [payload_of_size hsmall hsize, hdrop, List.take_length]

/-- The flags are the only thing that depends on the stale byte. -/
theorem alike_iff {buffer : List UInt8} (hgood : WellFormed buffer)
    (hsmall : (payloadOf buffer).length < 2 ^ 16) (info : SessionInfo) :
    (freshPacket buffer).SameRtp (inPlacePacket info buffer) ∧
      (Alike (freshPacket buffer) (inPlacePacket info buffer) ↔ staleFlags buffer < 64) := by
  obtain ⟨-, -, hflags, hheader, hsize, hpayload⟩ := inPlacePacket_spec hgood hsmall info
  obtain ⟨hflags', hheader', hsize', hpayload'⟩ := freshPacket_spec hgood hsmall
  have hsame : (freshPacket buffer).SameRtp (inPlacePacket info buffer) := by
    apply sameRtp_of_bytes
    · intro i hi hi'
      rw [hheader i hi hi', hheader' i hi hi']
    · rw [hpayload, hpayload']
  have hbyte := (staleFlags buffer).toNat_lt
  refine ⟨hsame, ?_⟩
  rw [UInt8.lt_iff_toNat_lt]
  constructor
  · intro halike
    have hkey := halike.keyFrame
    have hfirst := halike.firstPacketOfFrame
    unfold getKeyFrame at hkey
    unfold getFirstPacketOfFrame at hfirst
    rw [hflags, hflags'] at hkey hfirst
    simp at hkey hfirst
    show (staleFlags buffer).toNat < 64
    omega
  · intro hlow
    have hlow : (staleFlags buffer).toNat < 64 := hlow
    refine ⟨hsame, hsize.trans hsize'.symm, ?_, ?_⟩
    · unfold getKeyFrame
      rw [hflags, hflags', Nat.div_eq_of_lt (by omega)]
      rfl
    · unfold getFirstPacketOfFrame
      rw [hflags, hflags', Nat.div_eq_of_lt hlow]
      rfl

/-- Both decoders build the packet of `ParseRtpStreamToPacket`, up to the flags of the extension.
These agree if and only if the payload follows the twelve bytes of the header at once, or the
byte that comes to lie under the flags has its two top bits clear; a packet too large to be
received is not built at all. -/
theorem decodesAlike_iff (info : SessionInfo) (buffer : List UInt8) (hgood : WellFormed buffer)
    (hpos : 0 < (payloadOf buffer).length) :
    (∀ inPlace, tcpclientDecode info buffer = .packet inPlace ∨
        (udpclientDecode info buffer).1 = .packet inPlace →
      inPlace.getMmId = info.inSrcMmId ∧ inPlace.getMmType = info.mmType ∧
        ∃ fresh, parseRtpStreamToPacket buffer (UInt16.ofNat buffer.length) = some (some fresh) ∧
          fresh.SameRtp inPlace) ∧
    (DecodesAlike info buffer (tcpclientDecode info buffer) ∧
        DecodesAlike info buffer (udpclientDecode info buffer).1 ↔
      maxPayloadSize < buffer.length ∨ headerSize buffer = sizeofHeader ∨
        byteAt buffer (headerSize buffer - 15) < 64) := by
  rw [tcpclientDecode_eq hgood hpos, udpclientDecode_eq hgood hpos]
  by_cases hmax : buffer.length ≤ maxPayloadSize
  · have hbounds := payload_bounds hgood hpos
    have hfresh := parseRtpStreamToPacket_fresh hgood hpos hmax
    have hsmall : (payloadOf buffer).length < 2 ^ 16 := by
      unfold maxPayloadSize at hmax
      omega
    obtain ⟨hid, htype, -⟩ := inPlacePacket_spec hgood hsmall info
    obtain ⟨hsame, hiff⟩ := alike_iff hgood hsmall info
    rw [if_pos hmax]
    constructor
    · rintro inPlace (hbuilt | hbuilt) <;> obtain rfl := Decoded.packet.inj hbuilt
      · exact ⟨hid, htype, _, hfresh, hsame⟩
      · exact ⟨hid, htype, _, hfresh, hsame⟩
    · have hstale : staleFlags buffer < 64 ↔ maxPayloadSize < buffer.length ∨
          headerSize buffer = sizeofHeader ∨ byteAt buffer (headerSize buffer - 15) < 64 := by
        unfold staleFlags
        split
        · rename_i hplain
          simp [hplain]
        · rename_i hmore
          simp [hmore, hmax]
      rw [and_self_iff, ← hstale, ← hiff]
      constructor
      · intro halike
        obtain ⟨-, -, fresh, hparsed, halike⟩ := halike _ rfl
        rw [hfresh] at hparsed
        obtain rfl := Option.some.inj (Option.some.inj hparsed)
        exact halike
      · intro halike inPlace hbuilt
        obtain rfl := Decoded.packet.inj hbuilt
        exact ⟨hid, htype, _, hfresh, halike⟩
  · rw [if_neg hmax]
    constructor
    · rintro inPlace (hbuilt | hbuilt) <;> cases hbuilt
    · constructor
      · intro _
        exact Or.inl (Nat.lt_of_not_le hmax)
      · intro _
        exact ⟨fun _ hbuilt => (by cases hbuilt), fun _ hbuilt => (by cases hbuilt)⟩

/-- One source and the marker set. -/
def markedWithSource : List UInt8 :=
  [0x81, 0xe0, 0, 1, 0, 0, 0, 2, 0, 0, 0, 3] ++ [0, 0, 0, 4] ++ [65, 66, 67]

/-- The marker and the payload type come to lie under the flags. -/
theorem not_decodesAlike_markedWithSource :
    WellFormed markedWithSource ∧ 0 < (payloadOf markedWithSource).length ∧
      ¬ DecodesAlike ⟨7, 11⟩ markedWithSource (tcpclientDecode ⟨7, 11⟩ markedWithSource) ∧
      ¬ DecodesAlike ⟨7, 11⟩ markedWithSource (udpclientDecode ⟨7, 11⟩ markedWithSource).1 := by
  have hfails : ¬ DecodesAlike ⟨7, 11⟩ markedWithSource
      (.packet (inPlacePacket ⟨7, 11⟩ markedWithSource)) := by
    intro halike
    obtain ⟨-, -, fresh, hparsed, halike⟩ := halike _ rfl
    have hfresh : parseRtpStreamToPacket markedWithSource
        (UInt16.ofNat markedWithSource.length) = some (some (freshPacket markedWithSource)) := by
      decide
    rw [hfresh] at hparsed
    obtain rfl := Option.some.inj (Option.some.inj hparsed)
    have hkey : (inPlacePacket ⟨7, 11⟩ markedWithSource).getKeyFrame = true ∧
        (freshPacket markedWithSource).getKeyFrame = false := by decide
    have := halike.keyFrame
    rw [hkey.1, hkey.2] at this
    cases this
  have htcp : tcpclientDecode ⟨7, 11⟩ markedWithSource =
      .packet (inPlacePacket ⟨7, 11⟩ markedWithSource) := by decide
  have hudp : (udpclientDecode ⟨7, 11⟩ markedWithSource).1 =
      .packet (inPlacePacket ⟨7, 11⟩ markedWithSource) := by decide
  rw [htcp, hudp]
  exact ⟨by decide, by decide, hfails, hfails⟩

/-- With one source and an extension of one word it is a byte of the ssrc, here zero. -/
theorem decodesAlike_iff_fullHeader :
    DecodesAlike ⟨7, 11⟩ fullHeader (tcpclientDecode ⟨7, 11⟩ fullHeader) ∧
      DecodesAlike ⟨7, 11⟩ fullHeader (udpclientDecode ⟨7, 11⟩ fullHeader).1 :=
  (decodesAlike_iff ⟨7, 11⟩ fullHeader (by decide) (by decide)).2.mpr (by decide)

end Pronet.Rtp
