import Pronet.Library.Framing
import Pronet.Rtp.TcpSession

/-! The loop of `OnRecv` over the ring buffer refines a framer of the byte stream,
so that what a session receives does not depend on how the stream was read. -/
namespace Pronet.Rtp

open Net Library Framing

/-- What a session does with a complete frame: reject it, or take it with or
without a packet in it. -/
def takeFrame (info : SessionInfo) (frame : List UInt8) : Option (Option RtpPacket) :=
  if frame.length = sizeofExt then some none else (acceptFrame info frame).map some

def takeRtpFrame (info : SessionInfo) (frame : List UInt8) : Option (Option RtpPacket) :=
  if frame.length = 2 then some none
  else (RtpPacket.createInstance (frame.drop 2)).map (acceptRtpFrame info)

def exFramer (info : SessionInfo) : Framer UInt8 RtpPacket :=
  announced sizeofExt (fun header => (be16At header 6).toNat) (takeFrame info) (by decide)

def plainFramer (info : SessionInfo) : Framer UInt8 RtpPacket :=
  announced 2 (fun header => (be16At header 0).toNat) (takeRtpFrame info) (by decide)

def framer (kind : TcpKind) (info : SessionInfo) : Framer UInt8 RtpPacket :=
  if kind.isEx then exFramer info else plainFramer info

/-- An unfinished frame is shorter than the largest one there is. -/
theorem length_lt_of_wait {kind : TcpKind} {info : SessionInfo} {bytes : List UInt8}
    (h : (framer kind info).next bytes = .wait) : bytes.length < tcpRecvPoolSize := by
  have hword := fun header offset => (be16At header offset).toNat_lt
  unfold framer at h
  unfold tcpRecvPoolSize
  split at h
  · have hlength := length_lt_of_nextAnnounced_eq_wait h
    have hbody := hword (bytes.take sizeofExt) 6
    unfold frameSize sizeofExt at hlength
    unfold sizeofExt at hbody
    dsimp only at hlength
    omega
  · have hlength := length_lt_of_nextAnnounced_eq_wait h
    have hbody := hword (bytes.take 2) 0
    unfold frameSize at hlength
    dsimp only at hlength
    omega

namespace TcpSession

/-- The session stands where the framer stands in the stream. -/
structure Follows (kind : TcpKind) (info : SessionInfo) (poolSize : Nat) (s : TcpSession)
    (p : Progress UInt8 RtpPacket) : Prop where
  kind_eq : s.kind = kind
  info_eq : s.info = info
  size_eq : s.pool.size = poolSize
  wellFormed : s.pool.WellFormed
  items : s.delivered = p.items
  consumed : s.position = p.consumed
  canUpcall : s.hasTrans → s.canUpcall
  rest : p.rest = if s.hasTrans then some s.pool.bytes else none

variable {kind : TcpKind} {info : SessionInfo} {poolSize : Nat} {s : TcpSession}
  {p : Progress UInt8 RtpPacket} {items : List RtpPacket} {consumed : Nat} {bytes : List UInt8}

theorem follows_init (kind : TcpKind) (info : SessionInfo) (hsize : 0 < poolSize)
    (buf : Nat → UInt8) : (init kind info poolSize buf).Follows kind info poolSize Framer.start where
  kind_eq := rfl
  info_eq := rfl
  size_eq := rfl
  wellFormed := RecvPool.wellFormed_resize hsize buf
  items := rfl
  consumed := rfl
  canUpcall _ := rfl
  rest := rfl

theorem Follows.hasTrans (h : s.Follows kind info poolSize ⟨items, consumed, some bytes⟩) :
    s.hasTrans = true ∧ bytes = s.pool.bytes := by
  have hrest := h.rest
  dsimp only at hrest
  split at hrest
  · rename_i htrans
    exact ⟨htrans, Option.some.inj hrest⟩
  · cases hrest

theorem Follows.flush (h : s.Follows kind info poolSize ⟨items, consumed, some bytes⟩)
    {count : Nat} (hpos : 0 < count) (hcount : count ≤ bytes.length) :
    (s.flush count).Follows kind info poolSize ⟨items, consumed + count, some (bytes.drop count)⟩ := by
  obtain ⟨htrans, rfl⟩ := h.hasTrans
  rw [RecvPool.length_bytes h.wellFormed] at hcount
  obtain ⟨hwell, hbytes, hsize⟩ := RecvPool.flush_spec h.wellFormed hpos hcount
  refine ⟨h.kind_eq, h.info_eq, hsize.trans h.size_eq, hwell, h.items, ?_, h.canUpcall, ?_⟩
  · exact congrArg (· + count) h.consumed
  · simp [TcpSession.flush, htrans, hbytes]

theorem delivered_deliver (s : TcpSession) (packet : RtpPacket) :
    (s.deliver packet).delivered = s.delivered ++ [packet] := by
  unfold deliver delivered upcall
  split <;> simp

/-- A packet is delivered and the loop goes on. -/
theorem Follows.endTurn_some (h : s.Follows kind info poolSize ⟨items, consumed, some bytes⟩)
    (packet : RtpPacket) :
    ∃ next, s.endTurn (some packet) = .again next ∧
      next.Follows kind info poolSize ⟨items ++ [packet], consumed, some bytes⟩ := by
  have hcan : s.canUpcall = true := h.canUpcall h.hasTrans.1
  have hreport : s.report (some packet) = s.deliver packet := by
    unfold report
    rw [if_pos hcan]
  have hkeeps : (s.deliver packet).canUpcall = true := by
    unfold deliver upcall
    split <;> exact hcan
  refine ⟨s.deliver packet, ?_, ?_⟩
  · unfold endTurn
    dsimp only
    rw [hreport, if_pos hkeeps]
  · have hitems := (s.delivered_deliver packet).trans (congrArg (· ++ [packet]) h.items)
    have hsame : (s.deliver packet).kind = s.kind ∧ (s.deliver packet).info = s.info ∧
        (s.deliver packet).pool = s.pool ∧ (s.deliver packet).position = s.position ∧
        (s.deliver packet).hasTrans = s.hasTrans := by
      unfold deliver upcall
      split <;> exact ⟨rfl, rfl, rfl, rfl, rfl⟩
    obtain ⟨hkind, hinfo, hpool, hposition, htrans⟩ := hsame
    refine ⟨hkind.trans h.kind_eq, hinfo.trans h.info_eq, ?_, ?_, hitems,
      hposition.trans h.consumed, fun _ => hkeeps, ?_⟩
    · rw [hpool, h.size_eq]
    · rw [hpool]
      exact h.wellFormed
    · rw [hpool, htrans]
      exact h.rest

/-- An error closes the session and leaves the loop. -/
theorem Follows.endTurn_none (h : s.Follows kind info poolSize ⟨items, consumed, some bytes⟩) :
    ∃ next, s.endTurn none = .leave next ∧
      next.Follows kind info poolSize ⟨items, consumed, none⟩ := by
  have hreport : s.report none = { s with canUpcall := false }.upcall (.onCloseSession (-1)) := by
    unfold report
    rw [if_pos (h.canUpcall h.hasTrans.1)]
  refine ⟨({ s with canUpcall := false }.upcall (.onCloseSession (-1))).fini, ?_,
    h.kind_eq, h.info_eq, h.size_eq, h.wellFormed, ?_, h.consumed, ?_, rfl⟩
  · unfold endTurn
    rw [hreport]
    rfl
  · rw [← h.items]
    simp [delivered, upcall, fini]
  · simp [fini]

/-- What a turn of the loop has to do for a verdict of the framer. -/
def Takes (kind : TcpKind) (info : SessionInfo) (poolSize : Nat) (s : TcpSession)
    (items : List RtpPacket) (consumed : Nat) (bytes : List UInt8) (turn : Turn) :
    Verdict RtpPacket → Prop
  | .wait => turn = .leave s
  | .accept size item => ∃ next, turn = .again next ∧ next.Follows kind info poolSize
      ⟨items ++ item.toList, consumed + size, some (bytes.drop size)⟩
  | .reject size => ∃ next, turn = .leave next ∧ next.Follows kind info poolSize
      ⟨items, consumed + size, none⟩

theorem Follows.turnEx (h : s.Follows kind info poolSize ⟨items, consumed, some bytes⟩) :
    Takes kind info poolSize s items consumed bytes s.turnEx ((exFramer info).next bytes) := by
  obtain ⟨htrans, rfl⟩ := h.hasTrans
  have hlength := RecvPool.length_bytes h.wellFormed
  change Takes kind info poolSize s items consumed _ _ (nextAnnounced _ _ _ _)
  unfold TcpSession.turnEx nextAnnounced frameSize RecvPool.peekDataSize
  beta_reduce
  dsimp only
  rw [hlength]
  by_cases hext : s.pool.dataSize < sizeofExt
  · rw [if_pos hext, if_pos hext]
    rfl
  · rw [if_neg hext, if_neg hext, RecvPool.peekData_spec h.wellFormed (by omega)]
    generalize hbody : (be16At (s.pool.bytes.take sizeofExt) 6).toNat = body
    by_cases hframe : s.pool.dataSize < sizeofExt + body
    · rw [if_pos hframe, if_pos hframe]
      rfl
    · have hpos : 0 < sizeofExt + body := Nat.add_pos_left (by decide) body
      have hflush := h.flush hpos (by omega)
      have hframeLength : (s.pool.bytes.take (sizeofExt + body)).length = sizeofExt + body := by
        rw [List.length_take]
        omega
      rw [if_neg hframe, if_neg hframe, RecvPool.peekData_spec h.wellFormed (by omega)]
      unfold takeFrame
      rw [hframeLength, h.info_eq]
      by_cases hzero : body = 0
      · subst hzero
        rw [if_pos rfl, if_pos (by simp)]
        exact ⟨_, rfl, by simpa using hflush⟩
      · rw [if_neg hzero, if_neg (by omega)]
        cases acceptFrame info (s.pool.bytes.take (sizeofExt + body)) with
        | none => exact hflush.endTurn_none
        | some packet => exact hflush.endTurn_some packet

theorem Follows.turnPlain (h : s.Follows kind info poolSize ⟨items, consumed, some bytes⟩) :
    Takes kind info poolSize s items consumed bytes s.turnPlain ((plainFramer info).next bytes) := by
  obtain ⟨htrans, rfl⟩ := h.hasTrans
  have hlength := RecvPool.length_bytes h.wellFormed
  change Takes kind info poolSize s items consumed _ _ (nextAnnounced _ _ _ _)
  unfold TcpSession.turnPlain nextAnnounced frameSize RecvPool.peekDataSize
  beta_reduce
  dsimp only
  rw [hlength]
  by_cases hheader : s.pool.dataSize < 2
  · rw [if_pos hheader, if_pos hheader]
    rfl
  · rw [if_neg hheader, if_neg hheader, RecvPool.peekData_spec h.wellFormed (by omega)]
    generalize hbody : (be16At (s.pool.bytes.take 2) 0).toNat = body
    by_cases hframe : s.pool.dataSize < 2 + body
    · rw [if_pos hframe, if_pos hframe]
      rfl
    · have hword := h.flush (by decide : 0 < 2) (by omega)
      have hframeLength : (s.pool.bytes.take (2 + body)).length = 2 + body := by
        rw [List.length_take]
        omega
      rw [if_neg hframe, if_neg hframe]
      unfold takeRtpFrame
      rw [hframeLength]
      by_cases hzero : body = 0
      · subst hzero
        rw [if_pos rfl, if_pos rfl]
        exact ⟨_, rfl, by simpa using hword⟩
      · have hrest : (s.flush 2).pool.bytes = s.pool.bytes.drop 2 := hword.hasTrans.2.symm
        have hrestLength : (s.pool.bytes.drop 2).length = s.pool.dataSize - 2 := by
          rw [List.length_drop, hlength]
        have hflush := hword.flush (Nat.pos_of_ne_zero hzero) (by omega)
        have hframe : (s.pool.bytes.take (2 + body)).drop 2 = (s.pool.bytes.drop 2).take body := by
          rw [List.drop_take]
          simp
        rw [List.drop_drop, Nat.add_assoc] at hflush
        have hpeek : (s.flush 2).pool.peekData body = (s.pool.bytes.drop 2).take body := by
          rw [RecvPool.peekData_spec hword.wellFormed, hrest]
          rw [← RecvPool.length_bytes hword.wellFormed, hrest]
          omega
        rw [if_neg hzero, if_neg (by omega), hpeek, hframe, hword.info_eq]
        cases RtpPacket.createInstance ((s.pool.bytes.drop 2).take body) with
        | none => exact hflush.endTurn_none
        | some packet =>
          simp only [Option.map_some]
          cases acceptRtpFrame info packet with
          | none => exact ⟨_, rfl, by simpa using hflush⟩
          | some packet => exact hflush.endTurn_some packet

theorem Follows.turn (h : s.Follows kind info poolSize ⟨items, consumed, some bytes⟩) :
    Takes kind info poolSize s items consumed bytes s.turn ((framer kind info).next bytes) := by
  unfold TcpSession.turn framer
  rw [h.kind_eq]
  split
  · exact h.turnEx
  · exact h.turnPlain

theorem Follows.onRecvLoop (fuel : Nat)
    (h : s.Follows kind info poolSize ⟨items, consumed, some bytes⟩) :
    (onRecvLoop fuel s).Follows kind info poolSize
      ⟨items ++ ((framer kind info).drain fuel bytes).items,
        consumed + ((framer kind info).drain fuel bytes).consumed,
        ((framer kind info).drain fuel bytes).rest⟩ := by
  induction fuel generalizing s items consumed bytes with
  | zero => simpa [TcpSession.onRecvLoop, Framer.drain] using h
  | succ fuel ih =>
    have hturn := h.turn
    unfold TcpSession.onRecvLoop Framer.drain
    cases hnext : (framer kind info).next bytes with
    | wait =>
      rw [hnext] at hturn
      unfold Takes at hturn
      rw [hturn]
      simpa using h
    | accept size item =>
      rw [hnext] at hturn
      obtain ⟨next, hagain, hfollows⟩ := hturn
      rw [hagain]
      simpa [Nat.add_assoc] using ih hfollows
    | reject size =>
      rw [hnext] at hturn
      obtain ⟨next, hleave, hfollows⟩ := hturn
      rw [hleave]
      simpa using hfollows

theorem Follows.onInputData (h : s.Follows kind info poolSize p) (hread : s.Readable bytes) :
    (s.onInputData bytes).Follows kind info poolSize ((framer kind info).feed p bytes) := by
  have hrest := h.rest
  unfold TcpSession.onInputData Framer.feed
  cases htrans : s.hasTrans with
  | false =>
    simp only [htrans, Bool.false_eq_true, if_false] at hrest
    rw [hrest]
    exact h
  | true =>
    obtain ⟨hpos, hfits⟩ := hread htrans
    have hlength := List.length_pos_iff.mpr hpos
    obtain ⟨hwell, hbytes, hsize⟩ := RecvPool.receive_spec h.wellFormed hpos hfits
    simp only [htrans, if_true] at hrest
    rw [hrest, if_neg (by simp), if_neg (by omega)]
    have hreceived : Follows kind info poolSize { s with pool := s.pool.receive bytes }
        ⟨p.items, p.consumed, some (s.pool.bytes ++ bytes)⟩ := by
      refine ⟨h.kind_eq, h.info_eq, hsize.trans h.size_eq, hwell, h.items, h.consumed,
        h.canUpcall, ?_⟩
      simp [htrans, hbytes]
    have hloop := hreceived.onRecvLoop ((s.pool.receive bytes).peekDataSize + 1)
    have hfuel : (s.pool.bytes ++ bytes).length ≤ (s.pool.receive bytes).peekDataSize + 1 := by
      rw [← hbytes, RecvPool.length_bytes hwell]
      exact Nat.le_succ _
    rw [(framer kind info).drain_eq_parse _ _ hfuel, htrans] at hloop
    exact hloop

/-- Reading a stream in pieces follows the framer through the pieces. -/
theorem Follows.onReads {reads : List (List UInt8)} (h : s.Follows kind info poolSize p)
    (hreads : s.ReadsFit reads) :
    (s.onReads reads).Follows kind info poolSize (reads.foldl (framer kind info).feed p) := by
  induction reads generalizing s p with
  | nil => exact h
  | cons bytes reads ih => exact ih (h.onInputData hreads.1) hreads.2

/-- Every sequence of reads follows the framer on the stream they make up. -/
theorem follows_parse (kind : TcpKind) (info : SessionInfo) (hsize : 0 < poolSize)
    (buf : Nat → UInt8) {reads : List (List UInt8)}
    (hreads : (init kind info poolSize buf).ReadsFit reads) :
    ((init kind info poolSize buf).onReads reads).Follows kind info poolSize
      ((framer kind info).parse reads.flatten) := by
  rw [← (framer kind info).foldl_feed]
  exact (follows_init kind info hsize buf).onReads hreads

theorem Follows.outcome_eq (h : s.Follows kind info poolSize p) :
    s.outcome = match p.rest with
      | some rest => .running rest
      | none => .closed p.consumed := by
  unfold outcome
  rw [h.rest]
  split
  · rfl
  · rw [h.consumed]

/-- An incomplete frame of any announced size leaves space in the pool. -/
theorem Follows.idle_pos {stream : List UInt8}
    (h : s.Follows kind info poolSize ((framer kind info).parse stream))
    (hsize : tcpRecvPoolSize ≤ poolSize) (htrans : s.hasTrans = true) :
    0 < s.pool.continuousIdleSize := by
  have hrest := h.rest
  rw [if_pos htrans] at hrest
  have hlength := length_lt_of_wait ((framer kind info).next_rest hrest)
  apply RecvPool.continuousIdleSize_pos h.wellFormed
  rw [h.size_eq, ← RecvPool.length_bytes h.wellFormed]
  omega

/-- However a stream is cut into reads, the session delivers the same packets and
ends in the same way, and it never stalls with a full pool. -/
theorem reads_irrelevant (kind : TcpKind) (info : SessionInfo) {poolSize : Nat}
    (hsize : 0 < poolSize) (buf buf' : Nat → UInt8) {reads reads' : List (List UInt8)}
    (hstream : reads.flatten = reads'.flatten)
    (hreads : (init kind info poolSize buf).ReadsFit reads)
    (hreads' : (init kind info poolSize buf').ReadsFit reads') :
    ((init kind info poolSize buf).onReads reads).delivered =
        ((init kind info poolSize buf').onReads reads').delivered ∧
      ((init kind info poolSize buf).onReads reads).outcome =
        ((init kind info poolSize buf').onReads reads').outcome ∧
      (tcpRecvPoolSize ≤ poolSize → ((init kind info poolSize buf).onReads reads).hasTrans = true →
        0 < ((init kind info poolSize buf).onReads reads).pool.continuousIdleSize) := by
  have h := follows_parse kind info hsize buf hreads
  have h' := follows_parse kind info hsize buf' hreads'
  rw [← hstream] at h'
  refine ⟨h.items.trans h'.items.symm, ?_, h.idle_pos⟩
  rw [h.outcome_eq, h'.outcome_eq]

/-- A heartbeat and a packet with one byte of payload. -/
def smallStream : List UInt8 :=
  [0, 0, 0, 0, 0, 0, 0, 0] ++
    [0, 0, 0, 9, 11, 128, 0, 13] ++ [128, 7, 0, 1, 0, 0, 0, 2, 0, 0, 0, 3] ++ [65]

theorem reads_irrelevant_smallStream :
    (init .serverEx ⟨9, 11⟩ tcpRecvPoolSize fun _ => 0).ReadsFit [smallStream] ∧
      (init .serverEx ⟨9, 11⟩ tcpRecvPoolSize fun _ => 0).ReadsFit
        [smallStream.take 3, smallStream.drop 3] ∧
      ((init .serverEx ⟨9, 11⟩ tcpRecvPoolSize fun _ => 0).onReads [smallStream]).delivered =
        ((init .serverEx ⟨9, 11⟩ tcpRecvPoolSize fun _ => 0).onReads
          [smallStream.take 3, smallStream.drop 3]).delivered := by
  have h : (init .serverEx ⟨9, 11⟩ tcpRecvPoolSize fun _ => 0).ReadsFit [smallStream] := by
    unfold ReadsFit
    decide +kernel
  have h' : (init .serverEx ⟨9, 11⟩ tcpRecvPoolSize fun _ => 0).ReadsFit
      [smallStream.take 3, smallStream.drop 3] := by
    unfold ReadsFit
    decide +kernel
  exact ⟨h, h', (reads_irrelevant .serverEx ⟨9, 11⟩ (by decide) _ _ (by decide) h h').1⟩

end TcpSession

end Pronet.Rtp
