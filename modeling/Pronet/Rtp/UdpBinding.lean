import Pronet.Rtp.SessionEvents

/-! The binding of a UDP-EX session to its peer. Anybody may send to its port, so what a
datagram can do depends on where it comes from, and nothing of it stays in the pool. -/
namespace Pronet.Rtp

open Net Library

/-- The size that the extension in front of the bytes announces. -/
def announced (bytes : List UInt8) : Nat := (be16At (bytes.take sizeofExt) 6).toNat

/-- The loop of `OnRecv` comes to a whole frame that is larger than a packet may be, in
bytes of which it takes everything in front of that frame. -/
inductive MeetsLarge (info : SessionInfo) : Bool → List UInt8 → Prop
  | large {bytes : List UInt8} :
      sizeofExt + announced bytes ≤ bytes.length →
      maxPayloadSize < sizeofExt + announced bytes → MeetsLarge info true bytes
  | heartbeat {shook : Bool} {bytes : List UInt8} :
      sizeofExt ≤ bytes.length → announced bytes = 0 →
      MeetsLarge info shook (bytes.drop sizeofExt) → MeetsLarge info shook bytes
  | handshake {bytes : List UInt8} :
      announced bytes = sizeofHeader + udpHandshakeBytes →
      parseExtBuffer (bytes.take (sizeofExt + sizeofHeader + udpHandshakeBytes))
        (UInt16.ofNat (sizeofExt + sizeofHeader + udpHandshakeBytes)) →
      MeetsLarge info true (bytes.drop (sizeofExt + sizeofHeader + udpHandshakeBytes)) →
      MeetsLarge info false bytes
  | packet {bytes : List UInt8} :
      0 < announced bytes →
      (acceptFrame info (bytes.take (sizeofExt + announced bytes))).isSome →
      MeetsLarge info true (bytes.drop (sizeofExt + announced bytes)) → MeetsLarge info true bytes

/-- A datagram that is no larger than a packet has no such frame. -/
theorem length_lt_of_meetsLarge {info : SessionInfo} {shook : Bool} {bytes : List UInt8}
    (h : MeetsLarge info shook bytes) : maxPayloadSize < bytes.length := by
  induction h with
  | large hfits hlarge => exact hlarge.trans_le hfits
  | heartbeat _ _ _ ih => exact ih.trans_le (by simp)
  | handshake _ _ _ ih => exact ih.trans_le (by simp)
  | packet _ _ _ ih => exact ih.trans_le (by simp)

namespace Session

/-- The peer may send at this moment: it is bound, or a server will bind whoever shakes hands. -/
def Admits (s : Session) (source : SockAddr) : Prop :=
  source = s.remoteAddr ∨ s.kind = .udpServerEx ∧ s.handshakeOk = false

/-- A datagram that the session answers by closing. -/
def ClosedBy (s : Session) (source : SockAddr) (bytes : List UInt8) : Prop :=
  s.Admits source ∧ MeetsLarge s.info s.handshakeOk bytes

/-- The transport and the source of the datagram that `OnRecv` is at. -/
def reading (s : Session) : Option (Nat × SockAddr) :=
  match s.handler with
  | some (.receiving trans source) => some (trans, source)
  | some (.received trans source _ _) => some (trans, source)
  | _ => none

/-- No datagram with a frame that is too large, and a `DoHandshake` that succeeds. -/
def Harmless (s : Session) : SessionEvent → Prop
  | .onInput trans source bytes =>
      s.owns trans → ¬ s.ClosedBy source (bytes.take s.pool.continuousIdleSize)
  | .proceed _ shook => shook = true
  | _ => True

/-- What a step may do to a session that is bound to a peer or waits for one. -/
structure KeepsBinding (s : Session) (event : SessionEvent) (next : Session) : Prop where
  /-- Only the bound peer has packets delivered, and only after the handshake. -/
  delivered : ∀ packet, .onRecvSession packet ∈ next.calls.drop s.calls.length →
    s.handshakeOk ∧ ∃ trans, s.reading = some (trans, s.remoteAddr)
  /-- Only the bound peer keeps the session alive. -/
  refreshed : s.handshakeOk → next.peerAliveTick ≠ s.peerAliveTick →
    ∃ trans, s.reading = some (trans, s.remoteAddr)
  bound : s.handshakeOk → next.handshakeOk ∧ next.remoteAddr = s.remoteAddr
  /-- A datagram, while it comes in and while `OnRecv` is at it, closes nothing. -/
  stays : (∃ trans source bytes, event = .onInput trans source bytes) ∨
      s.reading.isSome ∧ event ≠ .fini →
    next.trans = s.trans ∧ next.canUpcall = s.canUpcall ∧
      ∀ call ∈ next.calls.drop s.calls.length, ∀ errorCode sslCode tcpConnected,
        call ≠ .onCloseSession errorCode sslCode tcpConnected
  /-- Where `OnRecv` has returned, an open session has an empty pool. -/
  emptied : next.trans.isSome → next.reading = none → next.pool.bytes = []

/-- What holds of a UDP-EX session between any two sections. -/
structure Sheltered (s : Session) : Prop where
  udp : s.kind.isUdp
  pool : s.trans.isSome → s.pool.WellFormed ∧ 0 < s.pool.size
  observed : s.trans.isSome → s.hasObserver
  silent : s.canUpcall = false → s.trans = none
  /-- Bytes are in the pool only while `OnRecv` of the transport is at them. -/
  emptied : ∀ trans, s.trans = some trans → s.reading.map Prod.fst ≠ some trans →
    s.pool.bytes = []
  harmless : ∀ trans source, s.trans = some trans → s.reading = some (trans, source) →
    ¬ s.ClosedBy source s.pool.bytes
  received : ∀ trans source error packet, s.handler = some (.received trans source error packet) →
    error = false ∧ (packet.isSome → s.handshakeOk ∧ source = s.remoteAddr)
  handlers : ∀ ok, s.handler ≠ some (.connected ok) ∧ s.handler ≠ some (.opened ok)
  detached : ∀ errorCode sslCode, s.handler = some (.closed errorCode sslCode false) →
    s.trans = none

variable {s next : Session}

theorem sheltered_init {kind : SessionKind} (hkind : kind.isUdp) (setup : Setup) :
    (init kind setup).Sheltered := by
  have hsize : 0 < if 0 < setup.trans.recvPoolSize then setup.trans.recvPoolSize
      else defaultRecvPoolSize := by
    split
    · assumption
    · decide
  have hpool : setup.trans.pool.WellFormed := RecvPool.wellFormed_resize hsize _
  cases kind with
  | udpClientEx =>
    constructor <;> simp [init, create, attach, reading, SessionKind.isUdp, NewTrans.pool]
    exact ⟨hpool, hsize⟩
  | udpServerEx =>
    constructor <;> simp [init, create, attach, reading, SessionKind.isUdp, NewTrans.pool]
    exact ⟨hpool, hsize⟩
  | tcpClient => cases hkind
  | tcpServer => cases hkind
  | tcpClientEx => cases hkind
  | tcpServerEx => cases hkind

/-! What a turn leaves in the pool. -/

/-- An offset into the pool that a turn flushes. -/
theorem flush_pool (h : s.pool.WellFormed) {count : Nat} (hcount : count ≤ s.pool.bytes.length) :
    (s.flush count).pool.WellFormed ∧ (s.flush count).pool.size = s.pool.size ∧
      (s.flush count).pool.bytes = s.pool.bytes.drop count := by
  rcases Nat.eq_zero_or_pos count with rfl | hpos
  · have hsame : s.pool.flush 0 = s.pool := by
      unfold RecvPool.flush
      split <;> simp
    simp [flush, hsame, h]
  · rw [RecvPool.length_bytes h] at hcount
    obtain ⟨hwell, hbytes, hsize⟩ := RecvPool.flush_spec h hpos hcount
    exact ⟨hwell, hsize, hbytes⟩

/-- A turn of `OnRecv` over a UDP transport. -/
structure UdpTurned (s : Session) (trans : Nat) (source : SockAddr) (next : Session) : Prop where
  kind : next.kind = s.kind
  hasObserver : next.hasObserver = s.hasObserver
  kept : next.trans = s.trans
  canUpcall : next.canUpcall = s.canUpcall
  calls : next.calls = s.calls
  pool : next.pool.WellFormed ∧ next.pool.size = s.pool.size
  refreshed : s.handshakeOk → next.peerAliveTick ≠ s.peerAliveTick → source = s.remoteAddr
  bound : s.handshakeOk → next.handshakeOk ∧ next.remoteAddr = s.remoteAddr
  handler : next.handler = none ∧ next.pool.bytes = [] ∨
    ¬ next.ClosedBy source next.pool.bytes ∧
      (next.handler = some (.receiving trans source) ∨
        ∃ packet, next.handler = some (.received trans source false packet) ∧
          (packet.isSome → next.handshakeOk ∧ source = next.remoteAddr))

section Turns

variable {trans : Nat} {source : SockAddr} {mid : Session}

/-- The session itself, or the same after a sign of life of its peer. -/
def Heard (s : Session) (source : SockAddr) (mid : Session) : Prop :=
  mid = s ∨ source = s.remoteAddr ∧ ∃ tick, mid = s.alive tick

/-- The rest of the datagram is dropped. -/
theorem udpTurned_drop (hwell : s.pool.WellFormed) (hheard : Heard s source mid) :
    UdpTurned s trans source (mid.flush mid.pool.peekDataSize).leave := by
  have hpool := flush_pool hwell (Nat.le_of_eq (RecvPool.length_bytes hwell).symm)
  have hbytes : (s.flush s.pool.dataSize).pool.bytes = [] := by
    rw [hpool.2.2, ← RecvPool.length_bytes hwell, List.drop_length]
  rcases hheard with rfl | ⟨hsource, tick, rfl⟩
  · exact ⟨rfl, rfl, rfl, rfl, rfl, ⟨hpool.1, hpool.2.1⟩, fun _ hne => absurd rfl hne,
      fun hok => ⟨hok, rfl⟩, .inl ⟨rfl, hbytes⟩⟩
  · exact ⟨rfl, rfl, rfl, rfl, rfl, ⟨hpool.1, hpool.2.1⟩, fun _ _ => hsource,
      fun hok => ⟨hok, rfl⟩, .inl ⟨rfl, hbytes⟩⟩

/-- A frame without a packet in it is taken. -/
theorem udpTurned_again (hwell : s.pool.WellFormed) (hheard : Heard s source mid)
    (hhandler : s.handler = some (.receiving trans source)) {count : Nat}
    (hcount : count ≤ s.pool.bytes.length)
    (hsafe : ¬ s.ClosedBy source (s.pool.bytes.drop count)) :
    UdpTurned s trans source (mid.flush count) := by
  have hpool := flush_pool hwell hcount
  rw [← hpool.2.2] at hsafe
  rcases hheard with rfl | ⟨hsource, tick, rfl⟩
  · exact ⟨rfl, rfl, rfl, rfl, rfl, ⟨hpool.1, hpool.2.1⟩, fun _ hne => absurd rfl hne,
      fun hok => ⟨hok, rfl⟩, .inr ⟨hsafe, .inl hhandler⟩⟩
  · exact ⟨rfl, rfl, rfl, rfl, rfl, ⟨hpool.1, hpool.2.1⟩, fun _ _ => hsource,
      fun hok => ⟨hok, rfl⟩, .inr ⟨hsafe, .inl hhandler⟩⟩

/-- A frame of the bound peer with a packet in it is taken. -/
theorem udpTurned_packet (hwell : s.pool.WellFormed) (hsource : source = s.remoteAddr)
    (hshook : s.handshakeOk) (tick : Int) (packet : RtpPacket) {count : Nat}
    (hcount : count ≤ s.pool.bytes.length)
    (hsafe : ¬ s.ClosedBy source (s.pool.bytes.drop count)) :
    UdpTurned s trans source
      (((s.alive tick).flush count).enter (.received trans source false (some packet))) := by
  have hpool := flush_pool hwell hcount
  rw [← hpool.2.2] at hsafe
  exact ⟨rfl, rfl, rfl, rfl, rfl, ⟨hpool.1, hpool.2.1⟩, fun _ _ => hsource,
    fun hok => ⟨hok, rfl⟩, .inr ⟨hsafe, .inr ⟨some packet, rfl, fun _ => ⟨hshook, hsource⟩⟩⟩⟩

/-- The handshake is taken, and its source is the peer from now on. -/
theorem udpTurned_bind (hwell : s.pool.WellFormed) (hshook : s.handshakeOk = false) {count : Nat}
    (hcount : count ≤ s.pool.bytes.length)
    (hsafe : ¬ MeetsLarge s.info true (s.pool.bytes.drop count)) :
    UdpTurned s trans source
      ({ s.flush count with remoteAddr := source, handshakeOk := true, timeoutTimerId := 0 }.enter
        (.received trans source false none)) := by
  have hpool := flush_pool hwell hcount
  rw [← hpool.2.2] at hsafe
  exact ⟨rfl, rfl, rfl, rfl, rfl, ⟨hpool.1, hpool.2.1⟩, fun _ hne => absurd rfl hne,
    fun hok => absurd hok (by simp [hshook]), .inr ⟨fun hclosed => hsafe hclosed.2,
      .inr ⟨none, rfl, fun hsome => absurd hsome (by simp)⟩⟩⟩

theorem udpTurned_takeUdpFrame (hwell : s.pool.WellFormed) (hsource : source = s.remoteAddr)
    (hshook : s.handshakeOk) (tick : Int)
    (hfits : sizeofExt + announced s.pool.bytes ≤ s.pool.bytes.length)
    (hpos : 0 < announced s.pool.bytes) (hsafe : ¬ s.ClosedBy source s.pool.bytes) :
    UdpTurned s trans source
      ((s.alive tick).takeUdpFrame trans source (announced s.pool.bytes)) := by
  have hsmall : ¬ maxPayloadSize < sizeofExt + announced s.pool.bytes := by
    intro hlarge
    apply hsafe
    refine ⟨.inl hsource, ?_⟩
    rw [hshook]
    exact .large hfits hlarge
  have hpeek : (s.alive tick).pool.peekData (sizeofExt + announced s.pool.bytes) =
      s.pool.bytes.take (sizeofExt + announced s.pool.bytes) := by
    apply RecvPool.peekData_spec hwell
    rwa [← RecvPool.length_bytes hwell]
  unfold takeUdpFrame
  dsimp only
  rw [hpeek]
  split
  · rename_i hnone
    unfold RtpPacket.createInstance at hnone
    rw [if_neg] at hnone
    · cases hnone
    · rw [List.length_take_of_le hfits]
      simp only [Bool.or_eq_true, decide_eq_true_eq, not_or]
      exact ⟨by omega, hsmall⟩
  · split
    · exact udpTurned_drop hwell (.inr ⟨hsource, tick, rfl⟩)
    · rename_i packet hpacket
      have hrest : ¬ s.ClosedBy source
          (s.pool.bytes.drop (sizeofExt + announced s.pool.bytes)) := by
        rintro ⟨hadmits, hmeets⟩
        apply hsafe
        refine ⟨hadmits, ?_⟩
        rw [hshook] at hmeets ⊢
        exact .packet hpos (Option.isSome_iff_exists.mpr ⟨packet, hpacket⟩) hmeets
      exact udpTurned_packet hwell hsource hshook tick packet hfits hrest

/-- What the code reads of the size field. -/
theorem be16At_peekData (hwell : s.pool.WellFormed) (hext : sizeofExt ≤ s.pool.peekDataSize) :
    (be16At (s.pool.peekData sizeofExt) 6).toNat = announced s.pool.bytes := by
  rw [RecvPool.peekData_spec hwell hext]
  rfl

theorem harmless_heartbeat (hext : sizeofExt ≤ s.pool.bytes.length)
    (hzero : announced s.pool.bytes = 0) (hsafe : ¬ s.ClosedBy source s.pool.bytes) :
    ¬ s.ClosedBy source (s.pool.bytes.drop sizeofExt) := by
  rintro ⟨hadmits, hmeets⟩
  exact hsafe ⟨hadmits, .heartbeat hext hzero hmeets⟩

/-- What lies behind a handshake that is about to be taken. -/
theorem harmless_handshake (hwell : s.pool.WellFormed) (hshook : s.handshakeOk = false)
    (hadmits : s.Admits source)
    (hfits : sizeofExt + announced s.pool.bytes ≤ s.pool.bytes.length)
    (hshakes : s.isUdpHandshake (announced s.pool.bytes))
    (hsafe : ¬ s.ClosedBy source s.pool.bytes) :
    sizeofExt + sizeofHeader + udpHandshakeBytes ≤ s.pool.bytes.length ∧
      ¬ MeetsLarge s.info true
        (s.pool.bytes.drop (sizeofExt + sizeofHeader + udpHandshakeBytes)) := by
  unfold isUdpHandshake at hshakes
  rw [Bool.and_eq_true, decide_eq_true_eq] at hshakes
  obtain ⟨hsize, hparse⟩ := hshakes
  have hlength : sizeofExt + sizeofHeader + udpHandshakeBytes ≤ s.pool.bytes.length := by
    rw [Nat.add_assoc, ← hsize]
    exact hfits
  rw [RecvPool.peekData_spec hwell (by rwa [← RecvPool.length_bytes hwell])] at hparse
  refine ⟨hlength, ?_⟩
  intro hmeets
  apply hsafe
  refine ⟨hadmits, ?_⟩
  rw [hshook]
  exact .handshake hsize hparse hmeets

theorem udpTurned_turnUdpServerEx (hkind : s.kind = .udpServerEx) (hwell : s.pool.WellFormed)
    (hhandler : s.handler = some (.receiving trans source)) (tick : Int)
    (hsafe : ¬ s.ClosedBy source s.pool.bytes) :
    UdpTurned s trans source (s.turnUdpServerEx trans source tick true) := by
  have hlength := RecvPool.length_bytes hwell
  unfold turnUdpServerEx
  dsimp only
  split
  · exact udpTurned_drop hwell (.inl rfl)
  · rename_i hext
    have hext : sizeofExt ≤ s.pool.peekDataSize := Nat.le_of_not_lt hext
    rw [be16At_peekData hwell hext]
    split
    · exact udpTurned_drop hwell (.inl rfl)
    · rename_i hfits
      have hfits : sizeofExt + announced s.pool.bytes ≤ s.pool.bytes.length := by
        rw [hlength]
        exact Nat.le_of_not_lt hfits
      split
      · rename_i hzero
        have hext' : sizeofExt ≤ s.pool.bytes.length := by rwa [hlength]
        have hrest := harmless_heartbeat hext' hzero hsafe
        split
        · rename_i hsource
          exact udpTurned_again hwell (.inr ⟨hsource, tick, rfl⟩) hhandler hext' hrest
        · exact udpTurned_again hwell (.inl rfl) hhandler hext' hrest
      · rename_i hsome
        split
        · rename_i hshook
          have hshook : s.handshakeOk = false := by simpa using hshook
          split
          · exact udpTurned_drop hwell (.inl rfl)
          · rename_i hshakes
            have hshakes : s.isUdpHandshake (announced s.pool.bytes) := by simpa using hshakes
            obtain ⟨hcount, hrest⟩ := harmless_handshake hwell hshook (.inr ⟨hkind, hshook⟩) hfits
              hshakes hsafe
            exact udpTurned_bind hwell hshook hcount hrest
        · rename_i hshook
          have hshook : s.handshakeOk := by simpa using hshook
          split
          · exact udpTurned_drop hwell (.inl rfl)
          · rename_i hsource
            have hsource : source = s.remoteAddr := not_not.mp hsource
            exact udpTurned_takeUdpFrame hwell hsource hshook tick hfits (Nat.pos_of_ne_zero hsome)
              hsafe

theorem udpTurned_turnUdpClientEx (hwell : s.pool.WellFormed)
    (hhandler : s.handler = some (.receiving trans source)) (tick : Int)
    (hsafe : ¬ s.ClosedBy source s.pool.bytes) :
    UdpTurned s trans source (s.turnUdpClientEx trans source tick) := by
  have hlength := RecvPool.length_bytes hwell
  unfold turnUdpClientEx
  dsimp only
  split
  · exact udpTurned_drop hwell (.inl rfl)
  · rename_i hsource
    have hsource : source = s.remoteAddr := not_not.mp hsource
    split
    · exact udpTurned_drop hwell (.inl rfl)
    · rename_i hext
      have hext : sizeofExt ≤ s.pool.peekDataSize := Nat.le_of_not_lt hext
      rw [be16At_peekData hwell hext]
      split
      · exact udpTurned_drop hwell (.inl rfl)
      · rename_i hfits
        have hfits : sizeofExt + announced s.pool.bytes ≤ s.pool.bytes.length := by
          rw [hlength]
          exact Nat.le_of_not_lt hfits
        split
        · rename_i hzero
          have hext' : sizeofExt ≤ s.pool.bytes.length := by rwa [hlength]
          exact udpTurned_again hwell (.inr ⟨hsource, tick, rfl⟩) hhandler hext'
            (harmless_heartbeat hext' hzero hsafe)
        · rename_i hsome
          split
          · rename_i hshook
            have hshook : s.handshakeOk = false := by simpa using hshook
            split
            · exact udpTurned_drop hwell (.inl rfl)
            · rename_i hshakes
              have hshakes : s.isUdpHandshake (announced s.pool.bytes) := by simpa using hshakes
              obtain ⟨hcount, hrest⟩ := harmless_handshake hwell hshook (.inl hsource) hfits
                hshakes hsafe
              subst hsource
              exact udpTurned_bind hwell hshook hcount hrest
          · rename_i hshook
            have hshook : s.handshakeOk := by simpa using hshook
            exact udpTurned_takeUdpFrame hwell hsource hshook tick hfits (Nat.pos_of_ne_zero hsome)
              hsafe

/-! What one step preserves. -/

theorem reading_receiving (hhandler : s.handler = some (.receiving trans source)) :
    s.reading = some (trans, source) := by
  unfold reading
  rw [hhandler]

theorem reading_received {error : Bool} {packet : Option RtpPacket}
    (hhandler : s.handler = some (.received trans source error packet)) :
    s.reading = some (trans, source) := by
  unfold reading
  rw [hhandler]

theorem reading_none (hhandler : s.handler = none) : s.reading = none := by
  unfold reading
  rw [hhandler]

theorem Sheltered.of_turned (h : s.Sheltered) (howns : s.trans = some trans)
    (hturned : UdpTurned s trans source next) : next.Sheltered := by
  have hsize := (h.pool (by simp [howns])).2
  obtain ⟨hkind, hobserver, hkept, hcan, hcalls, ⟨hwell, hpool⟩, -, hbound, hhandler⟩ := hturned
  refine ⟨hkind ▸ h.udp, fun _ => ⟨hwell, hpool ▸ hsize⟩, ?_, ?_, ?_, ?_, ?_, ?_, ?_⟩
  · rw [hkept, hobserver]
    exact h.observed
  · rw [hkept, hcan]
    exact h.silent
  · intro trans' htrans hreading
    have heq : trans = trans' := Option.some.inj (howns.symm.trans (hkept.symm.trans htrans))
    rcases hhandler with ⟨-, hbytes⟩ | ⟨-, hagain | ⟨packet, hreceived, -⟩⟩
    · exact hbytes
    · exact absurd (congrArg some heq) (by simpa [reading_receiving hagain] using hreading)
    · exact absurd (congrArg some heq) (by simpa [reading_received hreceived] using hreading)
  · intro trans' source' htrans hreading
    rcases hhandler with ⟨hnone, -⟩ | ⟨hsafe, hagain | ⟨packet, hreceived, -⟩⟩
    · rw [reading_none hnone] at hreading
      cases hreading
    · rw [reading_receiving hagain] at hreading
      cases hreading
      exact hsafe
    · rw [reading_received hreceived] at hreading
      cases hreading
      exact hsafe
  all_goals rcases hhandler with ⟨hnone, -⟩ | ⟨-, hagain | ⟨packet, hreceived, hpacket⟩⟩ <;> simp_all

theorem udpTurned_turn (h : s.Sheltered) (hhandler : s.handler = some (.receiving trans source))
    (htrans : s.trans = some trans) (tick : Int) :
    UdpTurned s trans source (s.turn trans source tick true) := by
  have hwell := (h.pool (by simp [htrans])).1
  have hobserver := h.observed (by simp [htrans])
  have hsafe := h.harmless trans source htrans (reading_receiving hhandler)
  have hudp := h.udp
  unfold turn
  rw [if_neg (by simp [owns, htrans, hobserver])]
  cases hkind : s.kind with
  | udpClientEx => exact udpTurned_turnUdpClientEx hwell hhandler tick hsafe
  | udpServerEx => exact udpTurned_turnUdpServerEx hkind hwell hhandler tick hsafe
  | tcpClient => simp [hkind, SessionKind.isUdp] at hudp
  | tcpServer => simp [hkind, SessionKind.isUdp] at hudp
  | tcpClientEx => simp [hkind, SessionKind.isUdp] at hudp
  | tcpServerEx => simp [hkind, SessionKind.isUdp] at hudp

theorem keeps_of_turned (hreading : s.reading = some (trans, source)) (event : SessionEvent)
    (hturned : UdpTurned s trans source next) (hnext : next.Sheltered) :
    s.KeepsBinding event next := by
  have hquiet : next.calls.drop s.calls.length = [] := by rw [hturned.calls, List.drop_length]
  refine ⟨?_, ?_, hturned.bound, ?_, ?_⟩
  · rw [hquiet]
    simp
  · intro hok htick
    exact ⟨trans, by rw [hreading, hturned.refreshed hok htick]⟩
  · rw [hquiet]
    exact fun _ => ⟨hturned.kept, hturned.canUpcall, by simp⟩
  · intro hopen hidle
    obtain ⟨own, hown⟩ := Option.isSome_iff_exists.mp hopen
    exact hnext.emptied own hown (by simp [hidle])

end Turns

/-- A section that looks at no bytes: of what reception goes by it may clear the transport. -/
structure Framed (s next : Session) : Prop where
  kind : next.kind = s.kind
  info : next.info = s.info
  pool : next.pool = s.pool
  remoteAddr : next.remoteAddr = s.remoteAddr
  handshakeOk : next.handshakeOk = s.handshakeOk
  peerAliveTick : next.peerAliveTick = s.peerAliveTick
  trans : next.trans = s.trans ∧ next.hasObserver = s.hasObserver ∨ next.trans = none

theorem Framed.closedBy (h : Framed s next) (source : SockAddr) (bytes : List UInt8) :
    next.ClosedBy source bytes ↔ s.ClosedBy source bytes := by
  unfold ClosedBy Admits
  rw [h.kind, h.info, h.remoteAddr, h.handshakeOk]

theorem Framed.trans_eq (h : Framed s next) {trans : Nat} (htrans : next.trans = some trans) :
    s.trans = some trans ∧ next.hasObserver = s.hasObserver := by
  rcases h.trans with ⟨hsame, hobserver⟩ | hnone
  · exact ⟨hsame ▸ htrans, hobserver⟩
  · rw [hnone] at htrans
    cases htrans

theorem Sheltered.of_framed (h : s.Sheltered) (hframed : Framed s next)
    (hsilent : next.canUpcall = false → next.trans = none)
    (hreading : ∀ trans, next.trans = some trans →
      next.reading = s.reading ∨
        s.reading = none ∧ ∀ source, next.reading ≠ some (trans, source))
    (hreceived : ∀ trans source error packet,
      next.handler = some (.received trans source error packet) →
        error = false ∧ (packet.isSome → next.handshakeOk ∧ source = next.remoteAddr))
    (hhandlers : ∀ ok, next.handler ≠ some (.connected ok) ∧ next.handler ≠ some (.opened ok))
    (hdetached : ∀ errorCode sslCode, next.handler = some (.closed errorCode sslCode false) →
      next.trans = none) : next.Sheltered := by
  refine ⟨hframed.kind ▸ h.udp, ?_, ?_, hsilent, ?_, ?_, hreceived, hhandlers, hdetached⟩
  · intro hopen
    obtain ⟨trans, htrans⟩ := Option.isSome_iff_exists.mp hopen
    rw [hframed.pool]
    exact h.pool (by simp [(hframed.trans_eq htrans).1])
  · intro hopen
    obtain ⟨trans, htrans⟩ := Option.isSome_iff_exists.mp hopen
    obtain ⟨hsame, hobserver⟩ := hframed.trans_eq htrans
    rw [hobserver]
    exact h.observed (by simp [hsame])
  · intro trans htrans hother
    rw [hframed.pool]
    apply h.emptied trans (hframed.trans_eq htrans).1
    rcases hreading trans htrans with hsame | ⟨hnone, -⟩
    · rwa [hsame] at hother
    · simp [hnone]
  · intro trans source htrans hnext
    rw [hframed.closedBy, hframed.pool]
    rcases hreading trans htrans with hsame | ⟨-, hother⟩
    · exact h.harmless trans source (hframed.trans_eq htrans).1 (hsame ▸ hnext)
    · exact absurd hnext (hother source)

theorem keeps_of_framed {event : SessionEvent} (hframed : Framed s next) (hnext : next.Sheltered)
    (new : List Upcall) (hnew : next.calls = s.calls ++ new)
    (hdelivered : ∀ packet, .onRecvSession packet ∈ new →
      s.handshakeOk ∧ ∃ trans, s.reading = some (trans, s.remoteAddr))
    (hstays : (∃ trans source bytes, event = .onInput trans source bytes) ∨
        s.reading.isSome ∧ event ≠ .fini →
      next.trans = s.trans ∧ next.canUpcall = s.canUpcall ∧
        ∀ call ∈ new, ∀ errorCode sslCode tcpConnected,
          call ≠ .onCloseSession errorCode sslCode tcpConnected) :
    s.KeepsBinding event next := by
  have hdrop : next.calls.drop s.calls.length = new := by rw [hnew, List.drop_left]
  refine ⟨?_, ?_, ?_, ?_, ?_⟩
  · rwa [hdrop]
  · intro _ htick
    exact absurd hframed.peerAliveTick htick
  · intro hok
    exact ⟨hframed.handshakeOk ▸ hok, hframed.remoteAddr⟩
  · rwa [hdrop]
  · intro hopen hidle
    obtain ⟨trans, htrans⟩ := Option.isSome_iff_exists.mp hopen
    exact hnext.emptied trans htrans (by simp [hidle])

theorem fini_eq (h : s.Sheltered) : s.fini.trans = none := by
  unfold fini
  split
  · rfl
  · rename_i hobserver
    by_contra hsome
    exact hobserver (h.observed (Option.isSome_iff_ne_none.mpr hsome))

theorem framed_fini (h : s.Sheltered) : Framed s s.fini := by
  refine ⟨?_, ?_, ?_, ?_, ?_, ?_, .inr (fini_eq h)⟩
  all_goals unfold fini; split <;> rfl

theorem reading_fini (s : Session) : s.fini.reading = s.reading := by
  unfold reading
  rw [handler_fini]

theorem Sheltered.fini (h : s.Sheltered) : s.fini.Sheltered := by
  have hframed := framed_fini h
  apply h.of_framed hframed (fun _ => fini_eq h) (fun _ _ => .inl s.reading_fini)
  · rw [handler_fini, hframed.handshakeOk, hframed.remoteAddr]
    exact h.received
  · rw [handler_fini]
    exact h.handlers
  · exact fun _ _ _ => fini_eq h

theorem keeps_fini (h : s.Sheltered) : s.KeepsBinding .fini s.fini := by
  apply keeps_of_framed (framed_fini h) h.fini [] (by simp [s.calls_fini])
  · simp
  · simp

/-- A section at whose end nothing of reception has changed, for a handler that is none of
`OnRecv` and none that a connection opens. -/
theorem begin_quiet (h : s.Sheltered) (hidle : s.handler = none) {event : SessionEvent}
    (hevent : ∀ trans source bytes, event ≠ .onInput trans source bytes)
    (hframed : Framed s next) (hcan : next.canUpcall = s.canUpcall) (hcalls : next.calls = s.calls)
    (hreading : next.reading = none)
    (hhandlers : ∀ ok, next.handler ≠ some (.connected ok) ∧ next.handler ≠ some (.opened ok))
    (hdetached : ∀ errorCode sslCode, next.handler = some (.closed errorCode sslCode false) →
      next.trans = none) : next.Sheltered ∧ s.KeepsBinding event next := by
  have hsilent : next.canUpcall = false → next.trans = none := by
    intro hshut
    have hnone := h.silent (hcan ▸ hshut)
    rcases hframed.trans with ⟨hsame, -⟩ | hnone'
    · rw [hsame, hnone]
    · exact hnone'
  have hnext : next.Sheltered := by
    apply h.of_framed hframed hsilent _ _ hhandlers hdetached
    · exact fun _ _ => .inl (hreading.trans (reading_none hidle).symm)
    · intro trans source error packet hreceived
      rw [reading_received hreceived] at hreading
      cases hreading
  refine ⟨hnext, keeps_of_framed hframed hnext [] (by simp [hcalls]) (by simp) ?_⟩
  rintro (⟨trans, source, bytes, heq⟩ | ⟨hsome, -⟩)
  · exact absurd heq (hevent trans source bytes)
  · rw [reading_none hidle] at hsome
    cases hsome

theorem framed_refl (s : Session) : Framed s s := ⟨rfl, rfl, rfl, rfl, rfl, rfl, .inl ⟨rfl, rfl⟩⟩

/-- A handler that returns at once. -/
theorem begin_return (h : s.Sheltered) (event : SessionEvent) :
    s.Sheltered ∧ s.KeepsBinding event s := by
  refine ⟨h, keeps_of_framed (framed_refl s) h [] (by simp) (by simp) ?_⟩
  exact fun _ => ⟨rfl, rfl, by simp⟩

/-- Between two datagrams the pool is empty, so there is space for the next one. -/
theorem bytes_idle (h : s.Sheltered) (hidle : s.handler = none) {trans : Nat}
    (htrans : s.trans = some trans) : s.pool.bytes = [] ∧ 0 < s.pool.continuousIdleSize := by
  obtain ⟨hwell, hsize⟩ := h.pool (by simp [htrans])
  have hbytes := h.emptied trans htrans (by simp [reading_none hidle])
  refine ⟨hbytes, RecvPool.continuousIdleSize_pos hwell ?_⟩
  rw [← RecvPool.length_bytes hwell, hbytes]
  exact hsize

theorem step_onInput (h : s.Sheltered) (hidle : s.handler = none) (trans : Nat)
    (source : SockAddr) (bytes : List UInt8)
    (hsafe : s.owns trans → ¬ s.ClosedBy source (bytes.take s.pool.continuousIdleSize)) :
    (s.onInput trans source bytes).Sheltered ∧
      s.KeepsBinding (.onInput trans source bytes) (s.onInput trans source bytes) := by
  unfold onInput
  split
  · rename_i hother
    have hframed : Framed s (s.enter (.receiving trans source)) :=
      ⟨rfl, rfl, rfl, rfl, rfl, rfl, .inl ⟨rfl, rfl⟩⟩
    have hnext : (s.enter (.receiving trans source)).Sheltered := by
      apply h.of_framed hframed h.silent
      · intro own hown
        refine .inr ⟨reading_none hidle, ?_⟩
        intro source' hreading
        rw [reading_receiving rfl] at hreading
        cases hreading
        have hobserver := h.observed (Option.isSome_iff_exists.mpr ⟨trans, hown⟩)
        have hown : s.trans = some trans := hown
        simp [owns, hobserver, hown] at hother
      all_goals simp [enter]
    exact ⟨hnext, keeps_of_framed hframed hnext [] (by simp [enter]) (by simp)
      (fun _ => ⟨rfl, rfl, by simp⟩)⟩
  · rename_i howns
    have howns : s.owns trans := by simpa using howns
    have htrans : s.hasObserver ∧ s.trans = some trans := by simpa [owns] using howns
    obtain ⟨hbytes, hspace⟩ := bytes_idle h hidle htrans.2
    obtain ⟨hwell, hsize⟩ := h.pool (by simp [htrans.2])
    rw [if_neg (Nat.ne_of_gt hspace)]
    dsimp only
    split
    · exact begin_return h _
    · rename_i hsome
      obtain ⟨hreceived, hqueue, hsame⟩ := RecvPool.receive_spec hwell hsome (by simp)
      rw [hbytes, List.nil_append] at hqueue
      have hnext : ({ s with pool := s.pool.receive (bytes.take s.pool.continuousIdleSize) }.enter
          (.receiving trans source)).Sheltered := by
        refine ⟨h.udp, fun _ => ⟨hreceived, ?_⟩, h.observed, h.silent, ?_, ?_, ?_, ?_, ?_⟩
        · exact hsame.symm ▸ hsize
        · intro own hown hother
          have heq : trans = own := Option.some.inj (htrans.2.symm.trans hown)
          exact absurd (congrArg some heq) hother
        · intro own source' _ hreading
          cases hreading
          change ¬ s.ClosedBy source (s.pool.receive _).bytes
          rw [hqueue]
          exact hsafe howns
        all_goals simp [enter]
      refine ⟨hnext, ⟨?_, ?_, fun hok => ⟨hok, rfl⟩, ?_, ?_⟩⟩
      · simp [enter]
      · exact fun _ htick => absurd rfl htick
      · simp [enter]
      · exact fun _ hnone => absurd hnone (by simp [reading, enter])

theorem step_onClose (h : s.Sheltered) (hidle : s.handler = none) (trans : Nat)
    (errorCode sslCode : Int) :
    (s.onClose trans errorCode sslCode).Sheltered ∧
      s.KeepsBinding (.onClose trans errorCode sslCode) (s.onClose trans errorCode sslCode) := by
  unfold onClose
  split
  · refine begin_quiet h hidle (by simp) ⟨rfl, rfl, rfl, rfl, rfl, rfl, .inr rfl⟩ rfl rfl rfl ?_ ?_
    · simp [enter]
    · exact fun _ _ _ => rfl
  · exact begin_return h _

theorem step_onSend (h : s.Sheltered) (hidle : s.handler = none) (trans : Nat) :
    (s.onSend trans).Sheltered ∧ s.KeepsBinding (.onSend trans) (s.onSend trans) := by
  unfold onSend
  split
  · refine begin_quiet h hidle (by simp) ⟨rfl, rfl, rfl, rfl, rfl, rfl, .inl ⟨rfl, rfl⟩⟩ rfl rfl rfl ?_ ?_
    all_goals simp [enter]
  · exact begin_return h _

theorem step_onHeartbeat (h : s.Sheltered) (hidle : s.handler = none) (trans : Nat) (tick : Int) :
    (s.onHeartbeat trans tick).Sheltered ∧
      s.KeepsBinding (.onHeartbeat trans tick) (s.onHeartbeat trans tick) := by
  unfold onHeartbeat
  split
  · exact begin_return h _
  · split
    · exact begin_return h _
    · exact begin_return h _
    · split
      · exact begin_return h _
      · refine begin_quiet h hidle (by simp) ⟨rfl, rfl, rfl, rfl, rfl, rfl, .inl ⟨rfl, rfl⟩⟩ rfl rfl rfl ?_ ?_
        all_goals simp [enter]

theorem step_onTimer (h : s.Sheltered) (hidle : s.handler = none) (timerId : Nat) :
    (s.onTimer timerId).Sheltered ∧ s.KeepsBinding (.onTimer timerId) (s.onTimer timerId) := by
  unfold onTimer
  split
  · exact begin_return h _
  · split
    · exact begin_return h _
    · split
      · refine begin_quiet h hidle (by simp) ⟨rfl, rfl, rfl, rfl, rfl, rfl, .inl ⟨rfl, rfl⟩⟩ rfl rfl rfl ?_ ?_
        all_goals simp [enter]
      · refine begin_quiet h hidle (by simp) ⟨rfl, rfl, rfl, rfl, rfl, rfl, .inl ⟨rfl, rfl⟩⟩ rfl rfl rfl ?_ ?_
        all_goals simp [enter]

theorem step_begin (h : s.Sheltered) (hidle : s.handler = none) {event : SessionEvent}
    (hsafe : s.Harmless event) (hbegin : s.begin event = some next) :
    next.Sheltered ∧ s.KeepsBinding event next := by
  have hudp := h.udp
  unfold begin at hbegin
  split at hbegin
  case h_10 trans source bytes =>
    exact Option.some.inj hbegin ▸ step_onInput h hidle trans source bytes hsafe
  case h_11 trans =>
    exact Option.some.inj hbegin ▸ step_onSend h hidle trans
  case h_12 trans errorCode sslCode =>
    exact Option.some.inj hbegin ▸ step_onClose h hidle trans errorCode sslCode
  case h_13 trans tick =>
    exact Option.some.inj hbegin ▸ step_onHeartbeat h hidle trans tick
  case h_14 timerId =>
    exact Option.some.inj hbegin ▸ step_onTimer h hidle timerId
  all_goals simp_all [SessionKind.isUdp]

/-! The upcalls. -/

/-- A session after upcalls: its observer knows more, and it may have been shut. -/
structure Told (s mid : Session) (new : List Upcall) : Prop where
  framed : Framed s mid
  trans : mid.trans = s.trans
  hasObserver : mid.hasObserver = s.hasObserver
  handler : mid.handler = s.handler
  calls : mid.calls = s.calls ++ new

theorem told_refl (s : Session) : Told s s [] :=
  ⟨framed_refl s, rfl, rfl, rfl, (List.append_nil _).symm⟩

theorem told_upcall (s : Session) (call : Upcall) : Told s (s.upcall call) [call] :=
  ⟨⟨rfl, rfl, rfl, rfl, rfl, rfl, .inl ⟨rfl, rfl⟩⟩, rfl, rfl, rfl, rfl⟩

theorem told_callClose (s : Session) (errorCode sslCode : Int) :
    Told s (s.callClose errorCode sslCode)
      [.onCloseSession errorCode sslCode s.tcpConnected] :=
  ⟨⟨rfl, rfl, rfl, rfl, rfl, rfl, .inl ⟨rfl, rfl⟩⟩, rfl, rfl, rfl, rfl⟩

theorem told_callOk (s : Session) :
    ∃ new, Told s s.callOk new ∧ s.callOk.canUpcall = s.canUpcall ∧ ∀ call ∈ new, call = .onOkSession := by
  unfold callOk
  split
  · exact ⟨[], told_refl s, rfl, by simp⟩
  · exact ⟨[.onOkSession],
      ⟨⟨rfl, rfl, rfl, rfl, rfl, rfl, .inl ⟨rfl, rfl⟩⟩, rfl, rfl, rfl, rfl⟩, rfl, by simp⟩

theorem Told.upcall {mid : Session} {new : List Upcall} (h : Told s mid new) (call : Upcall) :
    Told s (mid.upcall call) (new ++ [call]) := by
  obtain ⟨⟨hkind, hinfo, hpool, hremote, hshook, htick, htrans⟩, hsame, hobserver, hhandler, hcalls⟩ := h
  refine ⟨⟨hkind, hinfo, hpool, hremote, hshook, htick, htrans⟩, hsame, hobserver, hhandler, ?_⟩
  change mid.calls ++ [call] = _
  rw [hcalls, List.append_assoc]

/-- A session that is finished after upcalls. -/
theorem Told.finished (h : s.Sheltered) {mid : Session} {new : List Upcall} (htold : Told s mid new) :
    mid.fini.leave.trans = none ∧ Framed s mid.fini.leave ∧ mid.fini.leave.Sheltered ∧
      mid.fini.leave.calls = s.calls ++ new := by
  have hclear : mid.fini.trans = none := by
    unfold fini
    split
    · rfl
    · rename_i hobserver
      by_contra hsome
      rw [htold.trans] at hsome
      rw [htold.hasObserver] at hobserver
      exact hobserver (h.observed (Option.isSome_iff_ne_none.mpr hsome))
  have hframed : Framed s mid.fini.leave := by
    obtain ⟨⟨hkind, hinfo, hpool, hremote, hshook, htick, -⟩, -⟩ := htold
    refine ⟨?_, ?_, ?_, ?_, ?_, ?_, .inr hclear⟩
    all_goals unfold fini; split <;> assumption
  refine ⟨hclear, hframed, ?_, mid.calls_fini.trans htold.calls⟩
  apply h.of_framed hframed (fun _ => hclear)
  · intro trans htrans
    exact absurd (hclear.symm.trans htrans) (by simp)
  · simp [leave]
  · simp [leave]
  · exact fun _ _ _ => hclear

/-- A handler other than `OnRecv` lets go of the lock, after `Fini` if the session was shut. -/
theorem proceed_leave (h : s.Sheltered) (hreading : s.reading = none) (tick : Int) (shook : Bool)
    {mid : Session} {new : List Upcall} (htold : Told s mid new)
    (hnew : ∀ packet, .onRecvSession packet ∉ new)
    (hsilent : mid.canUpcall = false → s.trans = none) :
    mid.leave.Sheltered ∧ s.KeepsBinding (.proceed tick shook) mid.leave := by
  obtain ⟨⟨hkind, hinfo, hpool, hremote, hshook, htick, htrans⟩, hsame, -, -, hcalls⟩ := htold
  have hframed : Framed s mid.leave := ⟨hkind, hinfo, hpool, hremote, hshook, htick, htrans⟩
  have hnext : mid.leave.Sheltered := by
    apply h.of_framed hframed
    · intro hshut
      exact hsame.trans (hsilent hshut)
    · exact fun _ _ => .inl (reading_none rfl |>.trans hreading.symm)
    all_goals simp [leave]
  refine ⟨hnext, keeps_of_framed hframed hnext new hcalls ?_ ?_⟩
  · intro packet hmem
    exact absurd hmem (hnew packet)
  · rintro (⟨_, _, _, hevent⟩ | ⟨hsome, -⟩)
    · cases hevent
    · rw [hreading] at hsome
      cases hsome

theorem proceed_fini (h : s.Sheltered) (hreading : s.reading = none) (tick : Int) (shook : Bool)
    {mid : Session} {new : List Upcall} (htold : Told s mid new)
    (hnew : ∀ packet, .onRecvSession packet ∉ new) :
    mid.fini.leave.Sheltered ∧ s.KeepsBinding (.proceed tick shook) mid.fini.leave := by
  obtain ⟨-, hframed, hnext, hcalls⟩ := htold.finished h
  refine ⟨hnext, keeps_of_framed hframed hnext new hcalls ?_ ?_⟩
  · intro packet hmem
    exact absurd hmem (hnew packet)
  · rintro (⟨_, _, _, hevent⟩ | ⟨hsome, -⟩)
    · cases hevent
    · rw [hreading] at hsome
      cases hsome

/-- The upcalls for a frame without an error. -/
theorem told_reportReceived (hudp : s.kind.isUdp) (packet : Option RtpPacket) :
    ∃ new, Told s (s.reportReceived false packet) new ∧
      (s.reportReceived false packet).canUpcall = s.canUpcall ∧
      ∀ call ∈ new, call = .onOkSession ∨ ∃ p, packet = some p ∧ call = .onRecvSession p := by
  have hlast : s.opensFirst = false := by
    unfold opensFirst
    cases hkind : s.kind <;> simp_all [SessionKind.isUdp]
  unfold reportReceived
  split
  · exact ⟨[], told_refl s, rfl, by simp⟩
  · simp only [Bool.false_eq_true, if_false, hlast]
    split
    · obtain ⟨new, htold, hcan, hnew⟩ := s.told_callOk
      cases packet with
      | none => exact ⟨new, htold, hcan, fun call hcall => .inl (hnew call hcall)⟩
      | some packet =>
        have hdelivered : Told s (s.callOk.deliver (some packet)) (new ++ [.onRecvSession packet]) :=
          htold.upcall (.onRecvSession packet)
        refine ⟨new ++ [.onRecvSession packet], hdelivered, hcan, ?_⟩
        intro call hcall
        rcases List.mem_append.mp hcall with hok | hrecv
        · exact .inl (hnew call hok)
        · exact .inr ⟨packet, rfl, List.mem_singleton.mp hrecv⟩
    · exact ⟨[], told_refl s, rfl, by simp⟩

theorem proceed_received (h : s.Sheltered) {trans : Nat} {source : SockAddr} {error : Bool}
    {packet : Option RtpPacket} (hhandler : s.handler = some (.received trans source error packet))
    (tick : Int) (shook : Bool) :
    (s.proceed (.received trans source error packet) tick shook).Sheltered ∧
      s.KeepsBinding (.proceed tick shook)
        (s.proceed (.received trans source error packet) tick shook) := by
  have hreading := reading_received hhandler
  obtain ⟨rfl, hpacket⟩ := h.received trans source error packet hhandler
  obtain ⟨new, htold, hcan, hnew⟩ := told_reportReceived h.udp packet
  have hdelivered : ∀ p, .onRecvSession p ∈ new →
      s.handshakeOk ∧ ∃ own, s.reading = some (own, s.remoteAddr) := by
    intro p hmem
    rcases hnew _ hmem with hok | ⟨p', hsome, -⟩
    · cases hok
    · obtain ⟨hok, hsource⟩ := hpacket (by simp [hsome])
      exact ⟨hok, trans, by rw [hreading, hsource]⟩
  have hquiet : ∀ call ∈ new, ∀ errorCode sslCode tcpConnected,
      call ≠ .onCloseSession errorCode sslCode tcpConnected := by
    intro call hcall errorCode sslCode tcpConnected hclose
    rcases hnew call hcall with hok | ⟨p, -, hrecv⟩
    · cases hok.symm.trans hclose
    · cases hrecv.symm.trans hclose
  unfold Session.proceed
  dsimp only
  split
  · rename_i hopen
    obtain ⟨⟨hkind, hinfo, hpool, hremote, hshook, htick, htrans⟩, hsame, -, -, hcalls⟩ := htold
    have hframed : Framed s ((s.reportReceived false packet).enter (.receiving trans source)) :=
      ⟨hkind, hinfo, hpool, hremote, hshook, htick, htrans⟩
    have hnext : ((s.reportReceived false packet).enter (.receiving trans source)).Sheltered := by
      apply h.of_framed hframed
      · intro hshut
        exact absurd (hopen.symm.trans hshut) (by simp)
      · exact fun _ _ => .inl ((reading_receiving rfl).trans hreading.symm)
      all_goals simp [enter]
    exact ⟨hnext, keeps_of_framed hframed hnext new hcalls hdelivered
      (fun _ => ⟨hsame, hcan, hquiet⟩)⟩
  · rename_i hshut
    have hshut : s.canUpcall = false := by
      rw [hcan] at hshut
      simpa using hshut
    obtain ⟨hclear, hframed, hnext, hcalls⟩ := htold.finished h
    refine ⟨hnext, keeps_of_framed hframed hnext new hcalls hdelivered ?_⟩
    refine fun _ => ⟨hclear.trans (h.silent hshut).symm, ?_, hquiet⟩
    rw [← hcan]
    exact canUpcall_fini _

theorem step_proceed (h : s.Sheltered) {handler : Handler} (hhandler : s.handler = some handler)
    (tick : Int) :
    (s.proceed handler tick true).Sheltered ∧
      s.KeepsBinding (.proceed tick true) (s.proceed handler tick true) := by
  cases handler with
  | receiving trans source =>
    change (s.turn trans source tick true).Sheltered ∧
      s.KeepsBinding (.proceed tick true) (s.turn trans source tick true)
    have hreading := reading_receiving hhandler
    by_cases howns : s.trans = some trans
    · have hobserver := h.observed (by simp [howns])
      have hturned := udpTurned_turn h hhandler howns tick
      have hnext := h.of_turned howns hturned
      exact ⟨hnext, keeps_of_turned hreading _ hturned hnext⟩
    · -- the transport is not the one of the session, or no longer
      have hleave : s.turn trans source tick true = s.leave := by
        unfold turn
        rw [if_pos (by simp [owns, howns])]
      have hframed : Framed s s.leave := ⟨rfl, rfl, rfl, rfl, rfl, rfl, .inl ⟨rfl, rfl⟩⟩
      have hnext : s.leave.Sheltered := by
        refine ⟨h.udp, h.pool, h.observed, h.silent, ?_, ?_, ?_, ?_, ?_⟩
        · intro own hown _
          apply h.emptied own hown
          intro hsame
          rw [hreading] at hsame
          cases hsame
          exact howns hown
        all_goals simp [leave, reading]
      rw [hleave]
      exact ⟨hnext, keeps_of_framed hframed hnext [] (by simp [leave]) (by simp)
        (fun _ => ⟨rfl, rfl, by simp⟩)⟩
  | received trans source error packet => exact proceed_received h hhandler tick true
  | connected ok => exact absurd hhandler (h.handlers ok).1
  | opened ok => exact absurd hhandler (h.handlers ok).2
  | sent =>
    have hreading : s.reading = none := by
      unfold reading
      rw [hhandler]
    unfold Session.proceed
    dsimp only
    split
    · exact proceed_leave h hreading tick true (s.told_upcall _) (by simp) h.silent
    · exact proceed_leave h hreading tick true s.told_refl (by simp) h.silent
  | closed errorCode sslCode fini =>
    have hreading : s.reading = none := by
      unfold reading
      rw [hhandler]
    have htold : ∃ new, Told s (if s.canUpcall then s.callClose errorCode sslCode else s) new ∧
        ∀ packet, .onRecvSession packet ∉ new := by
      split
      · exact ⟨_, s.told_callClose errorCode sslCode, by simp⟩
      · exact ⟨_, s.told_refl, by simp⟩
    obtain ⟨new, htold, hnew⟩ := htold
    unfold Session.proceed
    cases fini with
    | true => exact proceed_fini h hreading tick true htold hnew
    | false =>
      exact proceed_leave h hreading tick true htold hnew (fun _ => h.detached _ _ hhandler)
  | timer timeout =>
    have hreading : s.reading = none := by
      unfold reading
      rw [hhandler]
    have htold : ∃ new, Told s (s.reportTimer timeout) new ∧
        ∀ packet, .onRecvSession packet ∉ new := by
      unfold reportTimer
      split
      · exact ⟨_, s.told_refl, by simp⟩
      · split
        · exact ⟨_, s.told_callClose _ _, by simp⟩
        · obtain ⟨new, htold, -, hnew⟩ := s.told_callOk
          refine ⟨new, htold, ?_⟩
          intro packet hmem
          cases hnew _ hmem
    obtain ⟨new, htold, hnew⟩ := htold
    unfold Session.proceed
    dsimp only
    split
    · rename_i hopen
      apply proceed_leave h hreading tick true htold hnew
      intro hshut
      exact absurd (hopen.symm.trans hshut) (by simp)
    · exact proceed_fini h hreading tick true htold hnew

theorem step_keeps (h : s.Sheltered) {event : SessionEvent} (hsafe : s.Harmless event)
    (hstep : s.step event = some next) : next.Sheltered ∧ s.KeepsBinding event next := by
  unfold Session.step at hstep
  split at hstep
  · exact Option.some.inj hstep ▸ ⟨h.fini, keeps_fini h⟩
  · rename_i tick shook handler hhandler
    obtain rfl : shook = true := hsafe
    exact Option.some.inj hstep ▸ step_proceed h hhandler tick
  · cases hstep
  · cases hstep
  · rename_i hidle
    exact step_begin h hidle hsafe hstep

/-- As long as no datagram has a frame that is too large where the loop gets to it, every
step of every run keeps to the binding. -/
theorem keepsBinding_of_run {kind : SessionKind} (hkind : kind.isUdp) {setup : Setup}
    {events : List SessionEvent} {event : SessionEvent}
    (hsafe : Runs.Guarded step Harmless (init kind setup) (events ++ [event]))
    (hrun : Runs.run step (init kind setup) events = some s) (hstep : s.step event = some next) :
    s.KeepsBinding event next := by
  obtain ⟨hbefore, hevent⟩ := hsafe.of_append hrun
  have hsteps : ∀ s event next, Sheltered s → Harmless s event → s.step event = some next →
      Sheltered next := by
    intro s event next h hsafe hstep
    exact (step_keeps h hsafe hstep).1
  have hsheltered := Runs.run_preserves hsteps (sheltered_init hkind setup) hbefore hrun
  exact (step_keeps hsheltered hevent.1 hstep).2

/-- A whole frame of the bound peer that is larger than a packet is an error. -/
theorem turn_large {trans : Nat} (hkind : s.kind = .udpServerEx) (howns : s.owns trans)
    (hwell : s.pool.WellFormed) (hshook : s.handshakeOk)
    (hfits : sizeofExt + announced s.pool.bytes ≤ s.pool.bytes.length)
    (hlarge : maxPayloadSize < sizeofExt + announced s.pool.bytes) (tick : Int) :
    (s.turn trans s.remoteAddr tick true).handler =
        some (.received trans s.remoteAddr true none) ∧
      (s.turn trans s.remoteAddr tick true).canUpcall = s.canUpcall := by
  have hlength : s.pool.bytes.length = s.pool.peekDataSize := RecvPool.length_bytes hwell
  rw [hlength] at hfits
  have hmax : sizeofExt < maxPayloadSize := by decide
  have hext : sizeofExt ≤ s.pool.peekDataSize := by omega
  have hsome : announced s.pool.bytes ≠ 0 := by omega
  have hnone : RtpPacket.createInstance
      ((s.alive tick).pool.peekData (sizeofExt + announced s.pool.bytes)) = none := by
    change RtpPacket.createInstance (s.pool.peekData _) = none
    rw [RecvPool.peekData_spec hwell hfits]
    unfold RtpPacket.createInstance
    rw [List.length_take_of_le (hlength ▸ hfits), if_pos (by simp [hlarge])]
  unfold turn
  rw [if_neg (by simp [howns]), hkind]
  dsimp only
  unfold turnUdpServerEx
  dsimp only
  rw [if_neg (Nat.not_lt.mpr hext), be16At_peekData hwell hext, if_neg (Nat.not_lt.mpr hfits),
    if_neg hsome, if_neg (by simp [hshook]), if_neg (by simp)]
  unfold takeUdpFrame
  dsimp only
  rw [hnone]
  exact ⟨rfl, rfl⟩

theorem canUpcall_proceed_error (s : Session) (trans : Nat) (source : SockAddr)
    (packet : Option RtpPacket) (tick : Int) (shook : Bool) :
    (s.proceed (.received trans source true packet) tick shook).canUpcall = false := by
  have hshut : (s.reportReceived true packet).canUpcall = false := by
    unfold reportReceived
    split
    · rename_i hcan
      simpa using hcan
    · rfl
  unfold Session.proceed
  dsimp only
  rw [if_neg (by simp [hshut])]
  exact (canUpcall_fini _).trans hshut

/-- A datagram that consists of such a frame closes the session. -/
theorem closes_of_large {trans : Nat} {bytes : List UInt8} (h : s.Sheltered)
    (hkind : s.kind = .udpServerEx) (hidle : s.handler = none) (htrans : s.trans = some trans)
    (hshook : s.handshakeOk) (hcan : s.canUpcall)
    (hspace : bytes.length ≤ s.pool.continuousIdleSize)
    (hfits : sizeofExt + announced bytes ≤ bytes.length)
    (hlarge : maxPayloadSize < sizeofExt + announced bytes) (tick : Int) :
    ∃ mid next, Runs.run step s [.onInput trans s.remoteAddr bytes, .proceed tick true] = some mid ∧
      mid.reading = some (trans, s.remoteAddr) ∧ mid.canUpcall ∧
      mid.step (.proceed tick true) = some next ∧ next.canUpcall = false := by
  obtain ⟨hwell, -⟩ := h.pool (by simp [htrans])
  have hobserver := h.observed (by simp [htrans])
  obtain ⟨hempty, hidleSize⟩ := bytes_idle h hidle htrans
  have hsome : bytes ≠ [] := by
    rintro rfl
    exact absurd hfits (by decide)
  obtain ⟨hreceived, hqueue, -⟩ := RecvPool.receive_spec hwell hsome hspace
  rw [hempty, List.nil_append] at hqueue
  have howns : s.owns trans := by simp [owns, hobserver, htrans]
  obtain ⟨start, hinput, hstart⟩ : ∃ start, s.step (.onInput trans s.remoteAddr bytes) = some start ∧
      start = { s with pool := s.pool.receive bytes }.enter (.receiving trans s.remoteAddr) := by
    refine ⟨_, ?_, rfl⟩
    unfold Session.step begin onInput
    simp only [hidle, howns, Nat.ne_of_gt hidleSize, List.take_of_length_le hspace, hsome,
      Bool.not_true, Bool.false_eq_true, if_false]
  have hpool : start.pool = s.pool.receive bytes := by rw [hstart]; rfl
  have hremote : start.remoteAddr = s.remoteAddr := by rw [hstart]; rfl
  have hreading : start.handler = some (.receiving trans s.remoteAddr) := by rw [hstart]; rfl
  obtain ⟨hhandler, hkept⟩ := turn_large (s := start) (by rw [hstart]; exact hkind)
    (by rw [hstart]; exact howns) (hpool ▸ hreceived) (by rw [hstart]; exact hshook)
    (by rw [hpool, hqueue]; exact hfits) (by rw [hpool, hqueue]; exact hlarge) tick
  rw [hremote] at hhandler hkept
  have hopen : start.canUpcall := by rw [hstart]; exact hcan
  refine ⟨start.turn trans s.remoteAddr tick true, _, ?_, reading_received hhandler,
    hkept.trans hopen, ?_, canUpcall_proceed_error (start.turn trans s.remoteAddr tick true) trans
      s.remoteAddr none tick true⟩
  · have hturn : start.step (.proceed tick true) = some (start.turn trans s.remoteAddr tick true) := by
      unfold Session.step
      rw [hreading]
      rfl
    simp only [Runs.run, hinput, hturn, Option.bind_some]
  · unfold Session.step
    rw [hhandler]

def udpSetup : Setup :=
  ⟨⟨0, 20⟩, 60, false, ⟨1, 0, fun _ => 0⟩, 2, 3, 4, ⟨1, 1⟩, 0⟩

/-- A frame whose extension announces `high * 256 + low` bytes, all zero but the version. -/
def zeroFrame (high low : UInt8) (count : Nat) : List UInt8 :=
  [0, 0, 0, 7, 20, 0, high, low, 128] ++ List.replicate count 0

theorem length_zeroFrame (high low : UInt8) (count : Nat) :
    (zeroFrame high low count).length = 9 + count := by
  unfold zeroFrame
  rw [List.length_append, List.length_replicate]
  rfl

/-- A peer shakes hands. -/
def shakingHands : List SessionEvent :=
  [.onInput 1 ⟨9, 9⟩ (zeroFrame 5 132 1411), .proceed 1 true, .proceed 1 true]

/-- `OnRecv` is through with the datagram of the handshake. -/
def shakenHands : List SessionEvent := shakingHands ++ [.proceed 1 true]

theorem shakenHands_spec :
    ∃ s, Runs.run step (init .udpServerEx udpSetup) shakenHands = some s ∧ s.handler = none ∧
      s.kind = .udpServerEx ∧ s.trans = some 1 ∧ s.remoteAddr = ⟨9, 9⟩ ∧ s.canUpcall ∧
      s.handshakeOk ∧ s.pool.continuousIdleSize = 66560 := by
  have hrun : (Runs.run step (init .udpServerEx udpSetup) shakenHands).map (fun s =>
      s.handler.isNone && (s.kind == .udpServerEx && (s.trans == some 1 &&
        (s.remoteAddr == ⟨9, 9⟩ && (s.canUpcall && (s.handshakeOk &&
          s.pool.continuousIdleSize == 66560)))))) = some true := by decide +kernel
  obtain ⟨s, hs, hfacts⟩ := Option.map_eq_some_iff.mp hrun
  simp only [Bool.and_eq_true, Option.isNone_iff_eq_none, beq_iff_eq] at hfacts
  exact ⟨s, hs, hfacts⟩

/-- The handshake alone is harmless, as it is smaller than a packet may be. -/
theorem harmless_shakenHands (s : Session) : Runs.Guarded step Harmless s shakenHands := by
  apply Runs.guarded_of_forall
  intro event hmem s
  simp only [shakenHands, shakingHands, List.cons_append, List.nil_append, List.mem_cons,
    List.not_mem_nil, or_false] at hmem
  rcases hmem with rfl | rfl | rfl | rfl
  · intro _ hclosed
    have hlength := length_lt_of_meetsLarge hclosed.2
    rw [List.length_take, length_zeroFrame] at hlength
    have : maxPayloadSize = 64512 := rfl
    omega
  all_goals exact rfl

theorem keepsBinding_of_run_handshake :
    ∃ s next, Runs.run step (init .udpServerEx udpSetup) shakingHands = some s ∧
      s.step (.proceed 1 true) = some next ∧ s.KeepsBinding (.proceed 1 true) next := by
  obtain ⟨final, hfinal, -⟩ := shakenHands_spec
  unfold shakenHands at hfinal
  rw [Runs.run_append] at hfinal
  obtain ⟨s, hs, hlast⟩ := Option.bind_eq_some_iff.mp hfinal
  obtain ⟨next, hnext, -⟩ := Runs.run_cons_eq_some hlast
  exact ⟨s, next, hs, hnext, keepsBinding_of_run rfl (harmless_shakenHands _) hs hnext⟩

/-- The peer that is bound sends one frame of 64513 bytes, and the session closes. -/
theorem not_keepsBinding_largeFrame :
    ∃ s next, Runs.run step (init .udpServerEx udpSetup)
        (shakenHands ++ [.onInput 1 ⟨9, 9⟩ (zeroFrame 251 249 64504), .proceed 2 true]) = some s ∧
      s.step (.proceed 2 true) = some next ∧ ¬ s.KeepsBinding (.proceed 2 true) next := by
  obtain ⟨s, hs, hidle, hkind, htrans, hremote, hcan, hshook, hspace⟩ := shakenHands_spec
  have hsteps : ∀ s event next, Sheltered s → Harmless s event → s.step event = some next →
      Sheltered next := by
    intro s event next h hsafe hstep
    exact (step_keeps h hsafe hstep).1
  have hsheltered := Runs.run_preserves hsteps (sheltered_init rfl udpSetup)
    (harmless_shakenHands _) hs
  have hlength := length_zeroFrame 251 249 64504
  have hannounced : announced (zeroFrame 251 249 64504) = 64505 := rfl
  obtain ⟨mid, next, hmid, hreading, hopen, hnext, hshut⟩ := closes_of_large hsheltered hkind hidle
    htrans hshook hcan (hlength.trans_le (by rw [hspace]; decide))
    (by rw [hlength, hannounced]; decide) (by rw [hannounced]; decide) 2
  rw [hremote] at hmid
  refine ⟨mid, next, ?_, hnext, ?_⟩
  · rw [Runs.run_append, hs]
    exact hmid
  · intro hkeeps
    have hstays := (hkeeps.stays (.inr ⟨by simp [hreading], by simp⟩)).2.1
    rw [hopen, hshut] at hstays
    cases hstays

end Session

end Pronet.Rtp
