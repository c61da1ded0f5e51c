import Pronet.Rtp.SendReceive

/-! `CRtpPacket::ParseRtpBuffer` with the widths of its sizes and a check at every read, and the
functions that turn a stream into a packet and back. `parseRtpBuffer` is the same parser on
numbers without bounds. -/
namespace Pronet.Rtp

open RtpPacket

/-- Why the block of `ParseRtpBuffer` is left early. -/
inductive Stop where
  | refused
  | readOutside
deriving DecidableEq, Repr

def readAt (buffer : List UInt8) (offset count : Nat) : Except Stop (List UInt8) :=
  if offset + count ≤ buffer.length then .ok ((buffer.drop offset).take count)
  else .error .readOutside

namespace HeaderParser

/-- The branch for `hdr.x`. -/
def skipExtension (buffer : List UInt8) (size : UInt16) (bits : HeaderBits) (needSize : UInt32)
    (now : Nat) : Except Stop (UInt32 × Nat) :=
  if bits.x ≠ 0 then do
    let needSize := needSize + 2
    let needSize := needSize + 2
    if size.toUInt32 < needSize then
      throw .refused
    let now := now + 2
    let extCount := be16At (← readAt buffer now 2) 0
    let now := now + 2
    let needSize := needSize + 4 * extCount.toUInt32
    if size.toUInt32 < needSize then
      throw .refused
    return (needSize, now + 4 * extCount.toNat)
  else
    return (needSize, now)

/-- The branch for `hdr.p`. -/
def stripPadding (buffer : List UInt8) (size : UInt16) (bits : HeaderBits) (needSize : UInt32)
    (payloadSize : UInt16) : Except Stop UInt16 :=
  if bits.p ≠ 0 then do
    if size.toUInt32 < needSize + 1 then
      throw .refused
    let paddingSize := byteAt (← readAt buffer (size.toNat - 1) 1) 0
    let paddingSize := if paddingSize < 1 then 1 else paddingSize
    let needSize := needSize + paddingSize.toUInt32
    if size.toUInt32 < needSize then
      throw .refused
    return payloadSize - paddingSize.toUInt16
  else
    return payloadSize

/-- The header, where the payload begins and its size. `needSize` has 32 bits, the least width
of `unsigned long`. -/
def block (buffer : List UInt8) (size : UInt16) : Except Stop (List UInt8 × Nat × UInt16) := do
  let needSize : UInt32 := 12
  if size.toUInt32 < needSize then
    throw .refused
  let hdr ← readAt buffer 0 sizeofHeader
  let bits := headerBits (byteAt hdr 0)
  if bits.v ≠ 2 then
    throw .refused
  let now := sizeofHeader
  let needSize := needSize + 4 * UInt32.ofNat bits.cc
  if size.toUInt32 < needSize then
    throw .refused
  let now := now + 4 * bits.cc
  let (needSize, now) ← skipExtension buffer size bits needSize now
  let payloadSize := size - UInt16.ofNat now
  let payloadSize ← stripPadding buffer size bits needSize payloadSize
  return (hdr, now, payloadSize)

end HeaderParser

/-- What `ParseRtpBuffer` returns and what it leaves in its output parameters. A payload pointer
is an offset; `hdr` counts only with `ret`. -/
structure ParsedRtp where
  ret : Bool
  hdr : List UInt8
  payloadBuffer : Option Nat
  payloadSize : UInt16
deriving DecidableEq, Repr

/-- `none` stands for a read outside the buffer. -/
def HeaderParser.parseRtpBuffer (buffer : List UInt8) (size : UInt16) : Option ParsedRtp :=
  if size = 0 then some ⟨false, [], none, 0⟩
  else
    match block buffer size with
    | .ok (hdr, now, payloadSize) =>
        some ⟨true, hdr, if payloadSize = 0 then none else some now, payloadSize⟩
    | .error .refused => some ⟨false, [], none, 0⟩
    | .error .readOutside => none

/-- `ParseRtpStreamToPacket`: a packet or a null pointer, unless a read goes outside the
stream. -/
def parseRtpStreamToPacket (streamBuffer : List UInt8) (streamSize : UInt16) :
    Option (Option RtpPacket) :=
  if streamSize = 0 then some none
  else
    match HeaderParser.parseRtpBuffer streamBuffer streamSize with
    | none => none
    | some ⟨true, hdr, some offset, payloadSize⟩ =>
        if payloadSize = 0 then some none
        else
          match readAt streamBuffer offset payloadSize.toNat with
          | .error _ => none
          | .ok payload =>
              match createInstance payload with
              | none => some none
              | some packet => some (some ⟨writeAt packet.bytes sizeofExt (writeAt hdr 0 [128])⟩)
    | some _ => some none

/-- The stream that `FindRtpStreamFromPacket` points to, and its size. -/
def findRtpStreamFromPacket (packet : RtpPacket) : List UInt8 × UInt16 :=
  let streamSize := packet.getPayloadSize + UInt16.ofNat sizeofHeader
  ((packet.bytes.drop sizeofExt).take streamSize.toNat, streamSize)

/-! The lengths of the parts, as RFC 3550 has them. -/

/-- The offset of the payload: the header, the list of sources and the extension. -/
def headerSize (buffer : List UInt8) : Nat :=
  let bits := headerBits (byteAt buffer 0)
  sizeofHeader + 4 * bits.cc +
    if bits.x ≠ 0 then 4 + 4 * (be16At buffer (sizeofHeader + 4 * bits.cc + 2)).toNat else 0

def paddingSize (buffer : List UInt8) : Nat :=
  if (headerBits (byteAt buffer 0)).p ≠ 0 then
    max 1 (byteAt buffer (buffer.length - 1)).toNat
  else 0

/-- The buffer is a well-formed RTP packet. -/
def WellFormed (buffer : List UInt8) : Prop :=
  sizeofHeader ≤ buffer.length ∧ (headerBits (byteAt buffer 0)).v = 2 ∧
    headerSize buffer + paddingSize buffer ≤ buffer.length

instance (buffer : List UInt8) : Decidable (WellFormed buffer) :=
  inferInstanceAs (Decidable (_ ∧ _))

/-- The payload of a well-formed packet. -/
def payloadOf (buffer : List UInt8) : List UInt8 :=
  (buffer.drop (headerSize buffer)).take (buffer.length - headerSize buffer - paddingSize buffer)

theorem length_payloadOf {buffer : List UInt8} (h : WellFormed buffer) :
    (payloadOf buffer).length = buffer.length - headerSize buffer - paddingSize buffer := by
  obtain ⟨-, -, hfits⟩ := h
  unfold payloadOf
  rw [List.length_take, List.length_drop]
  omega

theorem sources_le_headerSize (buffer : List UInt8) :
    sizeofHeader + 4 * (headerBits (byteAt buffer 0)).cc ≤ headerSize buffer :=
  Nat.le_add_right _ _

theorem be16At_take_drop (buffer : List UInt8) (offset : Nat) :
    be16At ((buffer.drop offset).take 2) 0 = be16At buffer offset := by
  unfold be16At
  rw [byteAt_take (by omega), byteAt_take (by omega), byteAt_drop, byteAt_drop]
  rfl

namespace HeaderParser

theorem readAt_of_le {buffer : List UInt8} {offset count : Nat}
    (h : offset + count ≤ buffer.length) :
    readAt buffer offset count = .ok ((buffer.drop offset).take count) := if_pos h

/-- The comparison of the sizes, with no wrap below 2 ^ 32. -/
theorem size_lt_iff {size : UInt16} {needSize : UInt32} {need : Nat} (h : needSize.toNat = need) :
    size.toUInt32 < needSize ↔ size.toNat < need := by
  rw [UInt32.lt_iff_toNat_lt, UInt16.toNat_toUInt32, h]

theorem skipExtension_eq {buffer : List UInt8} {size : UInt16} (hsize : size.toNat = buffer.length)
    {bits : HeaderBits} (hx : bits.x ≠ 0) {now : Nat} (hnow : now ≤ buffer.length) :
    skipExtension buffer size bits (UInt32.ofNat now) now =
      if now + 4 + 4 * (be16At buffer (now + 2)).toNat ≤ buffer.length then
        .ok (UInt32.ofNat (now + 4 + 4 * (be16At buffer (now + 2)).toNat),
          now + 4 + 4 * (be16At buffer (now + 2)).toNat)
      else .error .refused := by
  have hlt := size.toNat_lt
  have hcount := (be16At buffer (now + 2)).toNat_lt
  have hwords : (UInt32.ofNat now + 2 + 2).toNat = now + 4 := by
    simp only [UInt32.toNat_add, UInt32.toNat_ofNat', UInt32.toNat_ofNat]
    omega
  have hlist : UInt32.ofNat now + 2 + 2 + 4 * (be16At buffer (now + 2)).toUInt32 =
      UInt32.ofNat (now + 4 + 4 * (be16At buffer (now + 2)).toNat) := by
    apply UInt32.toNat_inj.mp
    rw [UInt32.toNat_add, hwords]
    simp only [UInt32.toNat_mul, UInt32.toNat_ofNat, UInt16.toNat_toUInt32, UInt32.toNat_ofNat']
    omega
  have hend := UInt32.toNat_ofNat_of_lt'
    (show now + 4 + 4 * (be16At buffer (now + 2)).toNat < 2 ^ 32 by omega)
  unfold skipExtension
  rw [if_pos hx]
  dsimp only
  by_cases hshort : size.toNat < now + 4
  · rw [if_pos ((size_lt_iff hwords).mpr hshort), if_neg (by omega)]
    rfl
  · rw [if_neg (fun h => hshort ((size_lt_iff hwords).mp h)), readAt_of_le (by omega)]
    simp only [bind, Except.bind, be16At_take_drop, hlist]
    by_cases hlong : size.toNat < now + 4 + 4 * (be16At buffer (now + 2)).toNat
    · rw [if_pos ((size_lt_iff hend).mpr hlong), if_neg (by omega)]
      rfl
    · rw [if_neg (fun h => hlong ((size_lt_iff hend).mp h)), if_pos (by omega)]
      rfl

theorem stripPadding_eq {buffer : List UInt8} {size : UInt16} (hsize : size.toNat = buffer.length)
    {bits : HeaderBits} (hp : bits.p ≠ 0) {now : Nat} (hnow : now ≤ buffer.length) :
    stripPadding buffer size bits (UInt32.ofNat now) (size - UInt16.ofNat now) =
      if now + max 1 (byteAt buffer (buffer.length - 1)).toNat ≤ buffer.length then
        .ok (UInt16.ofNat
          (buffer.length - now - max 1 (byteAt buffer (buffer.length - 1)).toNat))
      else .error .refused := by
  have hlt := size.toNat_lt
  have hbyte := (byteAt buffer (buffer.length - 1)).toNat_lt
  have hone : (UInt32.ofNat now + 1).toNat = now + 1 := by
    simp only [UInt32.toNat_add, UInt32.toNat_ofNat', UInt32.toNat_ofNat]
    omega
  unfold stripPadding
  rw [if_pos hp]
  by_cases hshort : size.toNat < now + 1
  · rw [if_pos ((size_lt_iff hone).mpr hshort), if_neg (by omega)]
    rfl
  · rw [if_neg (fun h => hshort ((size_lt_iff hone).mp h)), readAt_of_le (by omega)]
    have hlast : byteAt ((buffer.drop (size.toNat - 1)).take 1) 0 =
        byteAt buffer (buffer.length - 1) := by
      rw [byteAt_take (by omega), byteAt_drop, hsize]
      rfl
    simp only [bind, Except.bind, hlast]
    generalize hpad : (if byteAt buffer (buffer.length - 1) < 1 then 1
      else byteAt buffer (buffer.length - 1)) = padding
    have hmax : padding.toNat = max 1 (byteAt buffer (buffer.length - 1)).toNat := by
      rw [← hpad]
      split
      · rename_i hzero
        have hzero := UInt8.lt_iff_toNat_lt.mp hzero
        simp only [UInt8.toNat_one] at hzero ⊢
        omega
      · rename_i hpos
        have hpos := mt UInt8.lt_iff_toNat_lt.mpr hpos
        simp only [UInt8.toNat_one] at hpos
        omega
    have hend : (UInt32.ofNat now + padding.toUInt32).toNat = now + padding.toNat := by
      have := padding.toNat_lt
      simp only [UInt32.toNat_add, UInt32.toNat_ofNat', UInt8.toNat_toUInt32]
      omega
    rw [← hmax]
    by_cases hlong : size.toNat < now + padding.toNat
    · rw [if_pos ((size_lt_iff hend).mpr hlong), if_neg (by omega)]
      rfl
    · rw [if_neg (fun h => hlong ((size_lt_iff hend).mp h)), if_pos (by omega)]
      have hrest : size - UInt16.ofNat now - padding.toUInt16 =
          UInt16.ofNat (buffer.length - now - padding.toNat) := by
        have := padding.toNat_lt
        apply UInt16.toNat_inj.mp
        simp only [UInt16.toNat_sub, UInt16.toNat_ofNat', UInt8.toNat_toUInt16]
        omega
      exact congrArg Except.ok hrest

theorem extension_eq {buffer : List UInt8} {size : UInt16} (hsize : size.toNat = buffer.length)
    {now : Nat} (hnow : now = sizeofHeader + 4 * (headerBits (byteAt buffer 0)).cc)
    (hle : now ≤ buffer.length) :
    skipExtension buffer size (headerBits (byteAt buffer 0)) (UInt32.ofNat now) now =
      if headerSize buffer ≤ buffer.length then
        .ok (UInt32.ofNat (headerSize buffer), headerSize buffer)
      else .error .refused := by
  have hhead : headerSize buffer = now +
      if (headerBits (byteAt buffer 0)).x ≠ 0 then 4 + 4 * (be16At buffer (now + 2)).toNat else 0 := by
    rw [hnow]
    rfl
  by_cases hx : (headerBits (byteAt buffer 0)).x ≠ 0
  · rw [if_pos hx, ← Nat.add_assoc] at hhead
    rw [skipExtension_eq hsize hx hle, hhead]
  · rw [if_neg hx, Nat.add_zero] at hhead
    unfold skipExtension
    rw [if_neg hx, hhead, if_pos hle]
    rfl

theorem padding_eq {buffer : List UInt8} {size : UInt16} (hsize : size.toNat = buffer.length)
    {now : Nat} (hle : now ≤ buffer.length) :
    stripPadding buffer size (headerBits (byteAt buffer 0)) (UInt32.ofNat now)
        (size - UInt16.ofNat now) =
      if now + paddingSize buffer ≤ buffer.length then
        .ok (UInt16.ofNat (buffer.length - now - paddingSize buffer))
      else .error .refused := by
  unfold paddingSize
  by_cases hp : (headerBits (byteAt buffer 0)).p ≠ 0
  · rw [if_pos hp]
    exact stripPadding_eq hsize hp hle
  · have hrest : size - UInt16.ofNat now = UInt16.ofNat (buffer.length - now - 0) := by
      have := size.toNat_lt
      apply UInt16.toNat_inj.mp
      simp only [UInt16.toNat_sub, UInt16.toNat_ofNat']
      omega
    unfold stripPadding
    rw [if_neg hp, if_neg hp, Nat.add_zero, if_pos hle, hrest]
    rfl

/-- What is well formed is taken apart, the rest is refused, and no read goes outside. -/
theorem block_eq {buffer : List UInt8} {size : UInt16} (hsize : size.toNat = buffer.length) :
    block buffer size =
      if WellFormed buffer then
        .ok (buffer.take sizeofHeader, headerSize buffer,
          UInt16.ofNat (buffer.length - headerSize buffer - paddingSize buffer))
      else .error .refused := by
  have hlt := size.toNat_lt
  unfold block
  dsimp only
  by_cases hshort : size.toNat < 12
  · have hbad : ¬ WellFormed buffer := by
      rintro ⟨hlong, -⟩
      unfold sizeofHeader at hlong
      omega
    rw [if_pos ((size_lt_iff rfl).mpr hshort), if_neg hbad]
    rfl
  · rw [if_neg (fun h => hshort ((size_lt_iff rfl).mp h)),
      readAt_of_le (by unfold sizeofHeader; omega), List.drop_zero]
    have hfirst : byteAt (buffer.take sizeofHeader) 0 = byteAt buffer 0 := byteAt_take (by decide)
    have hcc : (headerBits (byteAt buffer 0)).cc < 16 := Nat.mod_lt _ (by decide)
    have hsources : (12 : UInt32) + 4 * UInt32.ofNat (headerBits (byteAt buffer 0)).cc =
        UInt32.ofNat (sizeofHeader + 4 * (headerBits (byteAt buffer 0)).cc) := by
      apply UInt32.toNat_inj.mp
      unfold sizeofHeader
      simp only [UInt32.toNat_add, UInt32.toNat_mul, UInt32.toNat_ofNat', UInt32.toNat_ofNat]
      omega
    simp only [bind, Except.bind, hfirst, hsources]
    by_cases hv : (headerBits (byteAt buffer 0)).v ≠ 2
    · have hbad : ¬ WellFormed buffer := fun h => hv h.2.1
      rw [if_pos hv, if_neg hbad]
      rfl
    · rw [if_neg hv]
      have hend : (UInt32.ofNat (sizeofHeader + 4 * (headerBits (byteAt buffer 0)).cc)).toNat =
          sizeofHeader + 4 * (headerBits (byteAt buffer 0)).cc :=
        UInt32.toNat_ofNat_of_lt' (show _ < 2 ^ 32 by unfold sizeofHeader; omega)
      have hge := sources_le_headerSize buffer
      by_cases hlist : size.toNat < sizeofHeader + 4 * (headerBits (byteAt buffer 0)).cc
      · have hbad : ¬ WellFormed buffer := fun h => by have := h.2.2; omega
        rw [if_pos ((size_lt_iff hend).mpr hlist), if_neg hbad]
        rfl
      · rw [if_neg (fun h => hlist ((size_lt_iff hend).mp h)),
          extension_eq hsize rfl (by omega)]
        by_cases hext : headerSize buffer ≤ buffer.length
        · rw [if_pos hext]
          dsimp only
          rw [padding_eq hsize hext]
          by_cases hpad : headerSize buffer + paddingSize buffer ≤ buffer.length
          · rw [if_pos hpad, if_pos ⟨by unfold sizeofHeader; omega, not_not.mp hv, hpad⟩]
            rfl
          · have hbad : ¬ WellFormed buffer := fun h => hpad h.2.2
            rw [if_neg hpad, if_neg hbad]
        · have hbad : ¬ WellFormed buffer := fun h => by have := h.2.2; omega
          rw [if_neg hext, if_neg hbad]

end HeaderParser

theorem headerSize_extended {buffer : List UInt8} (hx : (headerBits (byteAt buffer 0)).x ≠ 0) :
    headerSize buffer = sizeofHeader + 4 * (headerBits (byteAt buffer 0)).cc + 4 +
      4 * (be16At buffer (sizeofHeader + 4 * (headerBits (byteAt buffer 0)).cc + 4 - 2)).toNat := by
  unfold headerSize
  dsimp only
  rw [if_pos hx, ← Nat.add_assoc]
  rfl

theorem headerSize_plain {buffer : List UInt8} (hx : ¬ (headerBits (byteAt buffer 0)).x ≠ 0) :
    headerSize buffer = sizeofHeader + 4 * (headerBits (byteAt buffer 0)).cc := by
  unfold headerSize
  dsimp only
  rw [if_neg hx, Nat.add_zero]

/-- The parser on numbers without bounds takes a buffer apart in the same way. -/
theorem parseRtpBuffer_eq {buffer : List UInt8} {size : UInt16} (hsize : size.toNat = buffer.length) :
    parseRtpBuffer buffer size =
      if WellFormed buffer then
        some (if (payloadOf buffer).length = 0 then none else some (headerSize buffer),
          UInt16.ofNat (payloadOf buffer).length)
      else none := by
  have hge := sources_le_headerSize buffer
  have hpadded : ∀ hp : (headerBits (byteAt buffer 0)).p ≠ 0, paddingSize buffer =
      max 1 (byteAt buffer (buffer.length - 1)).toNat := fun hp => if_pos hp
  have hunpadded : ∀ hp : ¬ (headerBits (byteAt buffer 0)).p ≠ 0, paddingSize buffer = 0 :=
    fun hp => if_neg hp
  unfold parseRtpBuffer
  simp only [bind, Option.bind, hsize]
  by_cases hgood : WellFormed buffer
  · obtain ⟨hlong, hv, hfits⟩ := id hgood
    rw [if_pos hgood, length_payloadOf hgood, if_neg (by omega), if_neg (not_not.mpr hv),
      if_neg (by omega)]
    by_cases hx : (headerBits (byteAt buffer 0)).x ≠ 0
    · have hhead := headerSize_extended hx
      rw [if_pos hx, if_neg (by omega), ← hhead, if_neg (by omega)]
      by_cases hp : (headerBits (byteAt buffer 0)).p ≠ 0
      · have hpad := hpadded hp
        rw [if_pos hp, if_neg (by omega), ← hpad, if_neg (by omega)]
      · rw [if_neg hp, hunpadded hp, Nat.sub_zero]
    · have hhead := headerSize_plain hx
      rw [if_neg hx, ← hhead]
      by_cases hp : (headerBits (byteAt buffer 0)).p ≠ 0
      · have hpad := hpadded hp
        rw [if_pos hp, if_neg (by omega), ← hpad, if_neg (by omega)]
      · rw [if_neg hp, hunpadded hp, Nat.sub_zero]
  · rw [if_neg hgood]
    have hbad : sizeofHeader ≤ buffer.length → (headerBits (byteAt buffer 0)).v = 2 →
        buffer.length < headerSize buffer + paddingSize buffer :=
      fun hlong hv => Nat.lt_of_not_le fun hfits => hgood ⟨hlong, hv, hfits⟩
    by_cases hshort : buffer.length < sizeofHeader
    · rw [if_pos hshort]
    · rw [if_neg hshort]
      by_cases hv : (headerBits (byteAt buffer 0)).v ≠ 2
      · rw [if_pos hv]
      · have hover := hbad (by omega) (not_not.mp hv)
        rw [if_neg hv]
        by_cases hx : (headerBits (byteAt buffer 0)).x ≠ 0
        · rw [if_pos hx]
          rw [headerSize_extended hx] at hover
          by_cases hp : (headerBits (byteAt buffer 0)).p ≠ 0
          · rw [hpadded hp] at hover
            rw [if_pos hp, if_pos hover]
            simp only [ite_self]
          · rw [hunpadded hp, Nat.add_zero] at hover
            rw [if_pos hover]
            simp only [ite_self]
        · rw [if_neg hx]
          rw [headerSize_plain hx] at hover
          by_cases hp : (headerBits (byteAt buffer 0)).p ≠ 0
          · rw [hpadded hp] at hover
            rw [if_pos hp, if_pos hover]
            simp only [ite_self]
          · rw [hunpadded hp, Nat.add_zero] at hover
            rw [if_pos hover]

/-- `ParseRtpBuffer` never reads outside the buffer. It accepts exactly what is well formed, and
gives the bytes between the header parts and the padding; otherwise it gives nothing. -/
theorem HeaderParser.parseRtpBuffer_spec {buffer : List UInt8} {size : UInt16}
    (hsize : size.toNat = buffer.length) :
    parseRtpBuffer buffer size = some
      (if WellFormed buffer then
        ⟨true, buffer.take sizeofHeader,
          if (payloadOf buffer).length = 0 then none else some (headerSize buffer),
          UInt16.ofNat (payloadOf buffer).length⟩
      else ⟨false, [], none, 0⟩) := by
  have hlt := size.toNat_lt
  unfold parseRtpBuffer
  by_cases hzero : size = 0
  · have hbad : ¬ WellFormed buffer := by
      rintro ⟨hlong, -⟩
      rw [hzero, UInt16.toNat_zero] at hsize
      unfold sizeofHeader at hlong
      omega
    rw [if_pos hzero, if_neg hbad]
  · rw [if_neg hzero, block_eq hsize]
    by_cases hgood : WellFormed buffer
    · have hlength := length_payloadOf hgood
      have hsmall : (UInt16.ofNat (payloadOf buffer).length = 0) ↔ (payloadOf buffer).length = 0 := by
        rw [← UInt16.toNat_inj, UInt16.toNat_ofNat', UInt16.toNat_zero]
        omega
      rw [if_pos hgood, if_pos hgood, ← hlength]
      simp only [hsmall]
    · rw [if_neg hgood, if_neg hgood]

/-! The way of a packet into a stream and back. -/

theorem wellFormed_of_carries {payload : List UInt8} {p : RtpPacket} (h : p.Carries payload)
    (hpos : 0 < payload.length) : WellFormed (p.bytes.drop 8) ∧
      headerSize (p.bytes.drop 8) = 12 ∧ payloadOf (p.bytes.drop 8) = payload := by
  have hbits : headerBits (byteAt (p.bytes.drop 8) 0) = ⟨2, 0, 0, 0⟩ := by
    rw [byteAt_drop, h.first]
    rfl
  have hlength : (p.bytes.drop 8).length = 12 + payload.length := by
    rw [List.length_drop, h.length]
    omega
  have hhead : headerSize (p.bytes.drop 8) = 12 := by
    unfold headerSize
    rw [hbits]
    rfl
  have hpad : paddingSize (p.bytes.drop 8) = 0 := by
    unfold paddingSize
    rw [hbits]
    rfl
  refine ⟨⟨?_, ?_, ?_⟩, hhead, ?_⟩
  · unfold sizeofHeader
    omega
  · rw [hbits]
  · omega
  · unfold payloadOf
    rw [hhead, hpad, hlength, List.drop_drop, h.payload_eq]
    exact List.take_of_length_le (by omega)

/-- What `ParseRtpStreamToPacket` makes of a stream: a packet of the payload under the header
of the stream, if there is a payload. -/
theorem parseRtpStreamToPacket_eq {stream : List UInt8} {size : UInt16}
    (hsize : size.toNat = stream.length) :
    parseRtpStreamToPacket stream size = some
      (if WellFormed stream then
        (createInstance (payloadOf stream)).map fun packet =>
          ⟨writeAt packet.bytes sizeofExt (writeAt (stream.take sizeofHeader) 0 [128])⟩
      else none) := by
  have hlt := size.toNat_lt
  unfold parseRtpStreamToPacket
  rw [HeaderParser.parseRtpBuffer_spec hsize]
  by_cases hgood : WellFormed stream
  · obtain ⟨hlong, -, hfits⟩ := id hgood
    unfold sizeofHeader at hlong
    have hlength := length_payloadOf hgood
    have hword : (UInt16.ofNat (payloadOf stream).length).toNat = (payloadOf stream).length :=
      UInt16.toNat_ofNat_of_lt' (show _ < 2 ^ 16 by omega)
    have hnonzero : size ≠ 0 := by
      rintro rfl
      rw [UInt16.toNat_zero] at hsize
      omega
    rw [if_neg hnonzero, if_pos hgood, if_pos hgood]
    by_cases hempty : (payloadOf stream).length = 0
    · have hnone := (createInstance_eq_none_iff (payloadOf stream)).mpr (Or.inl hempty)
      rw [if_pos hempty, hnone]
      rfl
    · have hwordne : UInt16.ofNat (payloadOf stream).length ≠ 0 := by
        intro h0
        rw [h0] at hword
        exact hempty hword.symm
      rw [if_neg hempty]
      dsimp only
      rw [if_neg hwordne, HeaderParser.readAt_of_le (by omega), hword, hlength]
      dsimp only
      rw [← payloadOf]
      cases createInstance (payloadOf stream) <;> rfl
  · rw [if_neg hgood, if_neg hgood]
    dsimp only
    rw [ite_self]

theorem parse_find_of_carries {payload : List UInt8} {p : RtpPacket} (h : p.Carries payload)
    (hpos : 0 < payload.length) (hmax : payload.length ≤ maxPayloadSize) :
    ∃ q, parseRtpStreamToPacket (findRtpStreamFromPacket p).1 (findRtpStreamFromPacket p).2 =
      some (some q) ∧ p.SameRtp q := by
  have hsize : (p.getPayloadSize + UInt16.ofNat sizeofHeader).toNat = 12 + payload.length := by
    have hpayload := h.payloadSize hmax
    unfold maxPayloadSize at hmax
    unfold sizeofHeader
    rw [UInt16.toNat_add, hpayload, UInt16.toNat_ofNat']
    omega
  have hlength : (p.bytes.drop 8).length = 12 + payload.length := by
    rw [List.length_drop, h.length]
    omega
  have hstream : (findRtpStreamFromPacket p).1 = p.bytes.drop 8 := by
    unfold findRtpStreamFromPacket
    dsimp only
    rw [hsize]
    exact List.take_of_length_le (by rw [← hlength]; exact le_rfl)
  obtain ⟨hgood, -, hpayload⟩ := wellFormed_of_carries h hpos
  rw [hstream, show (findRtpStreamFromPacket p).2 = p.getPayloadSize + UInt16.ofNat sizeofHeader
    from rfl, parseRtpStreamToPacket_eq (hsize.trans hlength.symm), if_pos hgood, hpayload,
    header_of_carries h]
  cases hcreate : createInstance payload with
  | none =>
    rw [createInstance_eq_none_iff] at hcreate
    omega
  | some packet =>
    obtain ⟨hcarries, -, -⟩ := carries_createInstance hcreate
    have hcopied : ((p.bytes.drop 8).take sizeofHeader).length = 12 := by
      rw [List.length_take, hlength]
      unfold sizeofHeader
      omega
    refine ⟨_, rfl, sameRtp_of_drop ?_ ?_⟩
    · have hfront : (packet.bytes.take 8).length = 8 := by
        rw [List.length_take, hcarries.length]
        omega
      unfold writeAt sizeofExt
      dsimp only
      rw [hcopied, hcarries.payload_eq, List.append_assoc, List.drop_left' hfront]
      have hback := List.take_append_drop sizeofHeader (p.bytes.drop 8)
      rw [List.drop_drop, show 8 + sizeofHeader = 20 from rfl, h.payload_eq] at hback
      exact hback
    · have hfits : sizeofExt + ((p.bytes.drop 8).take sizeofHeader).length ≤ packet.bytes.length := by
        rw [hcopied, hcarries.length]
        unfold sizeofExt
        omega
      unfold be16At
      dsimp only
      rw [byteAt_writeAt hfits (Or.inl (by decide)), byteAt_writeAt hfits (Or.inl (by decide))]
      exact hcarries.size.trans h.size.symm

/-- `ParseRtpBuffer` accepts exactly the well-formed buffers, reads nothing outside them and
gives the bytes between the header parts and the padding. A packet of `CreateRtpPacket` comes
back from its stream with the same content, whatever was set in it. -/
theorem parseRtpBuffer_exact (buffer : List UInt8) (hsize : buffer.length ≤ 65535) :
    (∃ out, HeaderParser.parseRtpBuffer buffer (UInt16.ofNat buffer.length) = some out ∧
      (out.ret = true ↔ WellFormed buffer) ∧
      (out.ret = true →
        headerSize buffer + out.payloadSize.toNat + paddingSize buffer = buffer.length ∧
        out.payloadBuffer = if out.payloadSize = 0 then none else some (headerSize buffer)) ∧
      (out.ret = false → out.payloadBuffer = none ∧ out.payloadSize = 0)) ∧
    ∀ payload packet setters, createInstance payload = some packet →
      ∃ received, parseRtpStreamToPacket
          (findRtpStreamFromPacket (packet.applyAll setters)).1
          (findRtpStreamFromPacket (packet.applyAll setters)).2 = some (some received) ∧
        (packet.applyAll setters).SameRtp received := by
  constructor
  · have hsize' : (UInt16.ofNat buffer.length).toNat = buffer.length :=
      UInt16.toNat_ofNat_of_lt' (show _ < 2 ^ 16 by omega)
    refine ⟨_, HeaderParser.parseRtpBuffer_spec hsize', ?_⟩
    by_cases hgood : WellFormed buffer
    · have hlength := length_payloadOf hgood
      have hfits := hgood.2.2
      have hword : (UInt16.ofNat (payloadOf buffer).length).toNat = (payloadOf buffer).length :=
        UInt16.toNat_ofNat_of_lt' (show _ < 2 ^ 16 by omega)
      have hzero : UInt16.ofNat (payloadOf buffer).length = 0 ↔ (payloadOf buffer).length = 0 := by
        rw [← UInt16.toNat_inj, hword, UInt16.toNat_zero]
      rw [if_pos hgood]
      refine ⟨by simp [hgood], fun _ => ⟨?_, ?_⟩, by simp⟩
      · dsimp only
        rw [hword]
        omega
      · simp only [hzero]
    · rw [if_neg hgood]
      exact ⟨by simp [hgood], by simp, fun _ => ⟨rfl, rfl⟩⟩
  · intro payload packet setters hcreate
    obtain ⟨hcarries, hpos, hmax⟩ := carries_createInstance hcreate
    exact parse_find_of_carries (hcarries.applyAll setters) hpos hmax

/-- One source, an extension of one word, three bytes of payload and two of padding. -/
def fullHeader : List UInt8 :=
  [0xb1, 0x60, 0, 1, 0, 0, 0, 2, 0, 0, 0, 3] ++ [0, 0, 0, 4] ++ [0, 0, 0, 1, 9, 9, 9, 9] ++
    [65, 66, 67] ++ [0, 2]

theorem parseRtpBuffer_exact_fullHeader :
    WellFormed fullHeader ∧
      (∃ out, HeaderParser.parseRtpBuffer fullHeader (UInt16.ofNat fullHeader.length) = some out ∧
        (out.ret = true ↔ WellFormed fullHeader)) ∧
      ∃ received, parseRtpStreamToPacket
          (findRtpStreamFromPacket (onePacket.applyAll [.marker true, .sequence 7])).1
          (findRtpStreamFromPacket (onePacket.applyAll [.marker true, .sequence 7])).2 =
            some (some received) ∧
        (onePacket.applyAll [.marker true, .sequence 7]).SameRtp received := by
  obtain ⟨⟨out, hout, hret, -, -⟩, hround⟩ := parseRtpBuffer_exact fullHeader (by decide)
  exact ⟨by decide, ⟨out, hout, hret⟩, hround [65] onePacket [.marker true, .sequence 7] (by decide)⟩

end Pronet.Rtp
