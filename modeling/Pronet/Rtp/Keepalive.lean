import Pronet.Rtp.SessionProtocol

/-! Whether a session notices that its peer has gone silent. The SSL classes take their handlers
from the TCP-EX ones. -/
namespace Pronet.Rtp

open Net Library

namespace Session

def present : Option Nat → Nat
  | none => 0
  | some _ => 1

@[simp] theorem present_none : present none = 0 := rfl

@[simp] theorem present_some (id : Nat) : present (some id) = 1 := rfl

theorem present_eq_zero {id : Option Nat} (h : present id = 0) : id = none := by
  cases id with
  | none => rfl
  | some _ => cases h

/-- The objects through which something can still come to the session. -/
def sources (s : Session) : Nat :=
  present s.trans + present s.connector + present s.acceptor + present s.tcpHandshaker +
    present s.sslHandshaker

/-- Nothing can come any more. -/
def Cut (s : Session) : Prop := s.hasObserver = false ∨ s.sources = 0

/-- The handler is about to report that the session closes, and calls no `Fini`. -/
def Closing (s : Session) : Prop :=
  s.handler = some (.opened false) ∨ s.handler = some (.connected false) ∨
    ∃ errorCode sslCode, s.handler = some (.closed errorCode sslCode false)

/-- The session depends on one object at a time, and a session that has closed on none. -/
structure Watched (s : Session) : Prop where
  single : s.sources ≤ 1
  closed : s.canUpcall = false → s.Cut
  closing : s.Closing → s.Cut

variable {s next : Session}

theorem watched_init (kind : SessionKind) (setup : Setup) : (init kind setup).Watched := by
  constructor
  · cases kind <;> simp [init, create, attach, sources, present]
  · cases kind <;> simp [init, create, attach]
  · cases kind <;> simp [init, create, attach, Closing]

/-- The first section of a handler takes an object away, or puts another in its place. -/
structure Drawn (s next : Session) : Prop where
  hasObserver : next.hasObserver = s.hasObserver
  canUpcall : next.canUpcall = s.canUpcall
  sources : next.sources ≤ s.sources
  closing : next.Closing → next.sources = 0

theorem Drawn.cut (h : Drawn s next) (hcut : s.Cut) : next.Cut := by
  rcases hcut with hgone | hnone
  · exact .inl (h.hasObserver.trans hgone)
  · exact .inr (Nat.le_zero.mp (hnone ▸ h.sources))

theorem Watched.of_drawn (h : s.Watched) (hdrawn : Drawn s next) : next.Watched where
  single := hdrawn.sources.trans h.single
  closed hcan := hdrawn.cut (h.closed (hdrawn.canUpcall ▸ hcan))
  closing hclosing := .inr (hdrawn.closing hclosing)

theorem drawn_refl (hidle : s.handler = none) : Drawn s s :=
  ⟨rfl, rfl, le_rfl, by simp [Closing, hidle]⟩

/-- Handlers that leave the objects alone and do not close. -/
theorem drawn_enter {handler : Handler} (hhandler : next.handler = some handler)
    (hobserver : next.hasObserver = s.hasObserver) (hcan : next.canUpcall = s.canUpcall)
    (hsources : next.sources = s.sources) (hquiet : handler ≠ .opened false ∧
      handler ≠ .connected false ∧ ∀ errorCode sslCode, handler ≠ .closed errorCode sslCode false) :
    Drawn s next := by
  refine ⟨hobserver, hcan, hsources.le, ?_⟩
  rintro (h | h | ⟨errorCode, sslCode, h⟩)
  · exact absurd (Option.some.inj (hhandler.symm.trans h)) hquiet.1
  · exact absurd (Option.some.inj (hhandler.symm.trans h)) hquiet.2.1
  · exact absurd (Option.some.inj (hhandler.symm.trans h)) (hquiet.2.2 errorCode sslCode)

theorem drawn_onConnectOk (hidle : s.handler = none) (hsingle : s.sources ≤ 1) (connector : Nat)
    (created : Option NewTrans) : Drawn s (s.onConnectOk connector created) := by
  unfold onConnectOk
  split
  · rename_i hmine
    have hconnector : s.hasObserver ∧ s.connector = some connector := by simpa using hmine
    unfold sources at hsingle
    rw [hconnector.2, present_some] at hsingle
    cases created with
    | none =>
      refine ⟨rfl, rfl, ?_, fun _ => ?_⟩
      all_goals
        simp only [attach, enter, sources, present_none]
        omega
    | some trans =>
      refine ⟨rfl, rfl, ?_, by simp [Closing, enter]⟩
      simp only [attach, enter, sources, present_none, present_some, hconnector.2]
      omega
  · exact drawn_refl hidle

theorem drawn_onAccept (hidle : s.handler = none) (hsingle : s.sources ≤ 1) (acceptor : Nat)
    (created : Option NewTrans) : Drawn s (s.onAccept acceptor created) := by
  unfold onAccept
  split
  · rename_i hmine
    have hacceptor : s.hasObserver ∧ s.acceptor = some acceptor := by simpa using hmine
    unfold sources at hsingle
    rw [hacceptor.2, present_some] at hsingle
    cases created with
    | none =>
      refine ⟨rfl, rfl, ?_, fun _ => ?_⟩
      all_goals
        simp only [attach, enter, sources, present_none, Option.isSome_none, Bool.false_eq_true,
          if_false]
        omega
    | some trans =>
      refine ⟨rfl, rfl, ?_, by simp [Closing, enter]⟩
      simp only [attach, enter, sources, present_none, present_some, hacceptor.2,
        Option.isSome_some, if_true]
      omega
  · exact drawn_refl hidle

theorem drawn_onConnectOkEx (hidle : s.handler = none) (hsingle : s.sources ≤ 1) (connector : Nat)
    (created : Option Nat) : Drawn s (s.onConnectOkEx connector created) := by
  unfold onConnectOkEx
  split
  · rename_i hmine
    have hconnector : s.hasObserver ∧ s.connector = some connector := by simpa using hmine
    unfold sources at hsingle
    rw [hconnector.2, present_some] at hsingle
    have htcp : s.tcpHandshaker = none := present_eq_zero (by omega)
    have hssl : s.sslHandshaker = none := present_eq_zero (by omega)
    rw [htcp, hssl] at hsingle
    simp only [present_none] at hsingle
    unfold doHandshake
    simp only [htcp, hssl, ne_eq, not_true_eq_false, decide_false, Bool.or_false,
      Bool.false_eq_true, if_false]
    -- the handshaker that takes the place of the connector is the one of the configuration
    cases hssl' : s.hasSslConfig <;> cases created with
    | none =>
      refine ⟨rfl, rfl, ?_, fun _ => ?_⟩
      all_goals
        simp only [enter, sources, present_none, htcp, hssl, Bool.false_eq_true, if_false, if_true]
        omega
    | some handshaker =>
      refine ⟨rfl, rfl, ?_, by simp [Closing, enter]⟩
      simp only [enter, sources, present_none, present_some, htcp, hssl, hconnector.2,
        Bool.false_eq_true, if_false, if_true]
      omega
  · exact drawn_refl hidle

/-- A handler that takes one object away and reports that the session closes. -/
theorem drawn_taken {handler : Handler} (hobserver : next.hasObserver = s.hasObserver)
    (hcan : next.canUpcall = s.canUpcall) (hnone : next.sources = 0) : Drawn s (next.enter handler) :=
  ⟨hobserver, hcan, (Nat.le_of_eq hnone).trans (Nat.zero_le _), fun _ => hnone⟩

theorem drawn_onConnectError (hidle : s.handler = none) (hsingle : s.sources ≤ 1)
    (connector : Nat) (timeout : Bool) : Drawn s (s.onConnectError connector timeout) := by
  unfold onConnectError
  split
  · rename_i hmine
    have hconnector : s.hasObserver ∧ s.connector = some connector := by simpa using hmine
    unfold sources at hsingle
    rw [hconnector.2, present_some] at hsingle
    refine drawn_taken rfl rfl ?_
    simp only [sources, present_none]
    omega
  · exact drawn_refl hidle

theorem drawn_onTcpHandshakeError (hidle : s.handler = none) (hsingle : s.sources ≤ 1)
    (handshaker : Nat) (errorCode : Int) : Drawn s (s.onTcpHandshakeError handshaker errorCode) := by
  unfold onTcpHandshakeError
  split
  · rename_i hmine
    have htcp : s.hasObserver ∧ s.tcpHandshaker = some handshaker := by simpa using hmine
    unfold sources at hsingle
    rw [htcp.2, present_some] at hsingle
    refine drawn_taken rfl rfl ?_
    simp only [sources, present_none]
    omega
  · exact drawn_refl hidle

theorem drawn_onSslHandshakeError (hidle : s.handler = none) (hsingle : s.sources ≤ 1)
    (handshaker : Nat) (errorCode sslCode : Int) :
    Drawn s (s.onSslHandshakeError handshaker errorCode sslCode) := by
  unfold onSslHandshakeError
  split
  · rename_i hmine
    have hssl : s.hasObserver ∧ s.sslHandshaker = some handshaker := by simpa using hmine
    unfold sources at hsingle
    rw [hssl.2, present_some] at hsingle
    refine drawn_taken rfl rfl ?_
    simp only [sources, present_none]
    omega
  · exact drawn_refl hidle

theorem drawn_onClose (hidle : s.handler = none) (hsingle : s.sources ≤ 1) (trans : Nat)
    (errorCode sslCode : Int) : Drawn s (s.onClose trans errorCode sslCode) := by
  unfold onClose
  split
  · rename_i howns
    have htrans : s.hasObserver ∧ s.trans = some trans := by simpa [owns] using howns
    unfold sources at hsingle
    rw [htrans.2, present_some] at hsingle
    refine drawn_taken rfl rfl ?_
    simp only [sources, present_none]
    omega
  · exact drawn_refl hidle

/-- A handshake gives a transport, or leaves the session without one. -/
theorem handshaken_trans (s : Session) (buf : List UInt8) (created : Option NewTrans)
    (htrans : s.trans = none) :
    (s.handshaken buf created).1.connector = s.connector ∧
      (s.handshaken buf created).1.acceptor = s.acceptor ∧
      (s.handshaken buf created).1.tcpHandshaker = s.tcpHandshaker ∧
      (s.handshaken buf created).1.sslHandshaker = s.sslHandshaker ∧
      (s.handshaken buf created).1.hasObserver = s.hasObserver ∧
      (s.handshaken buf created).1.canUpcall = s.canUpcall ∧
      ((s.handshaken buf created).2 = false → (s.handshaken buf created).1.trans = none) := by
  unfold handshaken
  dsimp only
  split
  · exact ⟨rfl, rfl, rfl, rfl, rfl, rfl, fun _ => htrans⟩
  · split
    · exact ⟨rfl, rfl, rfl, rfl, rfl, rfl, fun _ => htrans⟩
    · cases created with
      | none => exact ⟨rfl, rfl, rfl, rfl, rfl, rfl, fun _ => rfl⟩
      | some trans => exact ⟨rfl, rfl, rfl, rfl, rfl, rfl, by simp⟩

theorem present_le (id : Option Nat) : present id ≤ 1 := by
  cases id with
  | none => exact Nat.zero_le 1
  | some _ => exact le_rfl

theorem drawn_onTcpHandshakeOk (hidle : s.handler = none) (hsingle : s.sources ≤ 1)
    (handshaker : Nat) (buf : List UInt8) (created : Option NewTrans) :
    Drawn s (s.onTcpHandshakeOk handshaker buf created) := by
  unfold onTcpHandshakeOk
  split
  · rename_i hmine
    have htcp : s.hasObserver ∧ s.tcpHandshaker = some handshaker := by simpa using hmine
    unfold sources at hsingle
    rw [htcp.2, present_some] at hsingle
    have htrans : s.trans = none := present_eq_zero (by omega)
    obtain ⟨hconnector, hacceptor, -, hssl, hobserver, hcan, hfailed⟩ :=
      handshaken_trans s buf created htrans
    have hle := present_le (s.handshaken buf created).1.trans
    cases hres : s.handshaken buf created with
    | mk mid ok =>
      rw [hres] at hconnector hacceptor hssl hobserver hcan hfailed hle
      dsimp only at hconnector hacceptor hssl hobserver hcan hfailed hle ⊢
      refine ⟨hobserver, hcan, ?_, fun hclosing => ?_⟩
      · simp only [enter, sources, present_none, hconnector, hacceptor, hssl, htcp.2, present_some]
        omega
      · have hok : ok = false := by simpa [Closing, enter] using hclosing
        simp only [enter, sources, present_none, hconnector, hacceptor, hssl, hfailed hok]
        omega
  · exact drawn_refl hidle

theorem drawn_onSslHandshakeOk (hidle : s.handler = none) (hsingle : s.sources ≤ 1)
    (handshaker : Nat) (buf : List UInt8) (created : Option NewTrans) :
    Drawn s (s.onSslHandshakeOk handshaker buf created) := by
  unfold onSslHandshakeOk
  split
  · rename_i hmine
    have hssl : s.hasObserver ∧ s.sslHandshaker = some handshaker := by simpa using hmine
    unfold sources at hsingle
    rw [hssl.2, present_some] at hsingle
    have htrans : s.trans = none := present_eq_zero (by omega)
    obtain ⟨hconnector, hacceptor, htcp, -, hobserver, hcan, hfailed⟩ :=
      handshaken_trans s buf created htrans
    have hle := present_le (s.handshaken buf created).1.trans
    cases hres : s.handshaken buf created with
    | mk mid ok =>
      rw [hres] at hconnector hacceptor htcp hobserver hcan hfailed hle
      dsimp only at hconnector hacceptor htcp hobserver hcan hfailed hle ⊢
      refine ⟨hobserver, hcan, ?_, fun hclosing => ?_⟩
      · simp only [enter, sources, present_none, hconnector, hacceptor, htcp, hssl.2, present_some]
        omega
      · have hok : ok = false := by simpa [Closing, enter] using hclosing
        simp only [enter, sources, present_none, hconnector, hacceptor, htcp, hfailed hok]
        omega
  · exact drawn_refl hidle

theorem drawn_onSend (hidle : s.handler = none) (trans : Nat) : Drawn s (s.onSend trans) := by
  unfold onSend
  split
  · exact drawn_enter rfl rfl rfl rfl (by simp)
  · exact drawn_refl hidle

theorem drawn_onHeartbeat (hidle : s.handler = none) (trans : Nat) (tick : Int) :
    Drawn s (s.onHeartbeat trans tick) := by
  unfold onHeartbeat
  split
  · exact drawn_refl hidle
  · split
    · exact drawn_refl hidle
    · exact drawn_refl hidle
    · split
      · exact drawn_refl hidle
      · exact drawn_enter rfl rfl rfl rfl (by simp)

theorem drawn_onTimer (hidle : s.handler = none) (timerId : Nat) : Drawn s (s.onTimer timerId) := by
  unfold onTimer
  split
  · exact drawn_refl hidle
  · split
    · exact drawn_refl hidle
    · split
      · exact drawn_enter rfl rfl rfl rfl (by simp)
      · exact drawn_enter rfl rfl rfl rfl (by simp)

theorem drawn_onInput (hidle : s.handler = none) (hsingle : s.sources ≤ 1) (trans : Nat)
    (source : SockAddr) (bytes : List UInt8) : Drawn s (s.onInput trans source bytes) := by
  unfold onInput
  dsimp only
  split
  · exact drawn_enter rfl rfl rfl rfl (by simp)
  · split
    · exact drawn_onClose hidle hsingle trans (-1) 0
    · split
      · exact drawn_refl hidle
      · exact drawn_enter rfl rfl rfl rfl (by simp)

theorem Watched.begin {event : SessionEvent} (h : s.Watched) (hidle : s.handler = none)
    (hbegin : s.begin event = some next) : next.Watched := by
  apply h.of_drawn
  have hsingle := h.single
  unfold Session.begin at hbegin
  split at hbegin
  · exact Option.some.inj hbegin ▸ drawn_onConnectOk hidle hsingle _ _
  · exact Option.some.inj hbegin ▸ drawn_onConnectOkEx hidle hsingle _ _
  · exact Option.some.inj hbegin ▸ drawn_onConnectError hidle hsingle _ _
  · exact Option.some.inj hbegin ▸ drawn_onConnectError hidle hsingle _ _
  · exact Option.some.inj hbegin ▸ drawn_onAccept hidle hsingle _ _
  · exact Option.some.inj hbegin ▸ drawn_onTcpHandshakeOk hidle hsingle _ _ _
  · exact Option.some.inj hbegin ▸ drawn_onTcpHandshakeError hidle hsingle _ _
  · exact Option.some.inj hbegin ▸ drawn_onSslHandshakeOk hidle hsingle _ _ _
  · exact Option.some.inj hbegin ▸ drawn_onSslHandshakeError hidle hsingle _ _ _
  · exact Option.some.inj hbegin ▸ drawn_onInput hidle hsingle _ _ _
  · exact Option.some.inj hbegin ▸ drawn_onSend hidle _
  · exact Option.some.inj hbegin ▸ drawn_onClose hidle hsingle _ _ _
  · exact Option.some.inj hbegin ▸ drawn_onHeartbeat hidle _ _
  · exact Option.some.inj hbegin ▸ drawn_onTimer hidle _
  · cases hbegin

/-! The sections behind the first one. -/

/-- The class, the observer and the objects are the same. -/
structure SameObjects (s next : Session) : Prop where
  kind : next.kind = s.kind
  hasObserver : next.hasObserver = s.hasObserver
  sources : next.sources = s.sources

theorem sameObjects_takeUdpFrame (s : Session) (trans : Nat) (source : SockAddr) (tick : Int)
    (hdrAndPayloadSize : Nat) :
    SameObjects s ((s.alive tick).takeUdpFrame trans source hdrAndPayloadSize) := by
  unfold takeUdpFrame
  dsimp only
  split
  · exact ⟨rfl, rfl, rfl⟩
  · split <;> exact ⟨rfl, rfl, rfl⟩

/-- A turn works on the pool, the tick and the binding of the peer. -/
theorem sameObjects_turn (s : Session) (trans : Nat) (source : SockAddr) (tick : Int)
    (shook : Bool) : SameObjects s (s.turn trans source tick shook) := by
  unfold turn
  split
  · exact ⟨rfl, rfl, rfl⟩
  · split
    · unfold turnPlain
      dsimp only
      repeat' split
      all_goals exact ⟨rfl, rfl, rfl⟩
    · unfold turnPlain
      dsimp only
      repeat' split
      all_goals exact ⟨rfl, rfl, rfl⟩
    · unfold turnEx
      dsimp only
      repeat' split
      all_goals exact ⟨rfl, rfl, rfl⟩
    · unfold turnEx
      dsimp only
      repeat' split
      all_goals exact ⟨rfl, rfl, rfl⟩
    · unfold turnUdpClientEx
      dsimp only
      repeat' split
      all_goals first
        | exact ⟨rfl, rfl, rfl⟩
        | exact sameObjects_takeUdpFrame s trans source tick _
    · unfold turnUdpServerEx
      dsimp only
      repeat' split
      all_goals first
        | exact ⟨rfl, rfl, rfl⟩
        | exact sameObjects_takeUdpFrame s trans source tick _

theorem Watched.of_same (h : s.Watched) (hsame : SameObjects s next)
    (hcan : next.canUpcall = false → s.Cut) (hquiet : ¬ next.Closing) : next.Watched where
  single := hsame.sources.le.trans h.single
  closed hclosed := by
    have hcut := hcan hclosed
    unfold Cut at hcut ⊢
    rwa [hsame.hasObserver, hsame.sources]
  closing hclosing := absurd hclosing hquiet

theorem hasObserver_fini (s : Session) : s.fini.hasObserver = false := by
  unfold fini
  split
  · rfl
  · rename_i hgone
    simpa using hgone

theorem sources_fini_le (s : Session) : s.fini.sources ≤ s.sources := by
  unfold fini
  split
  · exact Nat.zero_le _
  · exact le_rfl

/-- A session behind `Fini`. -/
theorem watched_fini (h : s.Watched) (hsame : SameObjects s next) : next.fini.leave.Watched where
  single := (sources_fini_le next).trans (hsame.sources.le.trans h.single)
  closed _ := .inl (hasObserver_fini next)
  closing _ := .inl (hasObserver_fini next)

theorem sameObjects_callOk (s : Session) : SameObjects s s.callOk := by
  unfold callOk
  split <;> exact ⟨rfl, rfl, rfl⟩

theorem sameObjects_deliver (s : Session) (packet : Option RtpPacket) :
    SameObjects s (s.deliver packet) := by
  cases packet <;> exact ⟨rfl, rfl, rfl⟩

theorem sameObjects_reportReceived (s : Session) (error : Bool) (packet : Option RtpPacket) :
    SameObjects s (s.reportReceived error packet) := by
  unfold reportReceived
  split
  · exact ⟨rfl, rfl, rfl⟩
  · split
    · exact ⟨rfl, rfl, rfl⟩
    · split
      · exact sameObjects_deliver s packet
      · split
        · have hok := sameObjects_callOk s
          have hdeliver := sameObjects_deliver s.callOk packet
          exact ⟨hdeliver.kind.trans hok.kind, hdeliver.hasObserver.trans hok.hasObserver,
            hdeliver.sources.trans hok.sources⟩
        · exact ⟨rfl, rfl, rfl⟩

theorem sameObjects_reportConnected (s : Session) (ok : Bool) :
    SameObjects s (s.reportConnected ok) := by
  unfold reportConnected
  split <;> exact ⟨rfl, rfl, rfl⟩

theorem sameObjects_reportOpened (s : Session) (ok : Bool) :
    SameObjects s (s.reportOpened ok) := by
  unfold reportOpened
  split
  · exact ⟨rfl, rfl, rfl⟩
  · split
    · exact ⟨rfl, rfl, rfl⟩
    · split
      · exact sameObjects_callOk s
      · exact ⟨rfl, rfl, rfl⟩

theorem sameObjects_reportTimer (s : Session) (timeout : Bool) :
    SameObjects s (s.reportTimer timeout) := by
  unfold reportTimer
  split
  · exact ⟨rfl, rfl, rfl⟩
  · split
    · exact ⟨rfl, rfl, rfl⟩
    · exact sameObjects_callOk s

/-- Opening does not close. -/
theorem canUpcall_reportOpened (s : Session) : (s.reportOpened true).canUpcall = s.canUpcall := by
  unfold reportOpened
  split
  · rfl
  · simp only [Bool.not_true, Bool.false_eq_true, if_false]
    split
    · unfold callOk
      split <;> rfl
    · rfl

theorem Watched.turn {trans : Nat} {source : SockAddr} (h : s.Watched)
    (hhandler : s.handler = some (.receiving trans source)) (tick : Int) (shook : Bool) :
    (s.turn trans source tick shook).Watched := by
  have hturned := turned_turn hhandler tick shook
  apply h.of_same (sameObjects_turn s trans source tick shook)
  · intro hcan
    exact h.closed (hturned.unheard.canUpcall ▸ hcan)
  · rcases hturned.handler with hnone | hagain | ⟨-, error, packet, hreceived⟩
    · simp [Closing, hnone]
    · simp [Closing, hagain]
    · simp [Closing, hreceived]

theorem Watched.proceed {handler : Handler} (h : s.Watched) (hhandler : s.handler = some handler)
    (tick : Int) (shook : Bool) : (s.proceed handler tick shook).Watched := by
  unfold Session.proceed
  cases handler with
  | receiving trans source => exact h.turn hhandler tick shook
  | received trans source error packet =>
    have hsame := sameObjects_reportReceived s error packet
    dsimp only
    split
    · rename_i hcan
      refine h.of_same ⟨hsame.kind, hsame.hasObserver, hsame.sources⟩ ?_ (by simp [Closing, enter])
      intro hclosed
      exact absurd (hcan.symm.trans hclosed) (by decide)
    · exact watched_fini h hsame
  | connected ok =>
    have hsame := sameObjects_reportConnected s ok
    refine h.of_same ⟨hsame.kind, hsame.hasObserver, hsame.sources⟩ ?_ (by simp [Closing, leave])
    intro hclosed
    cases ok with
    | false => exact h.closing (.inr (.inl hhandler))
    | true =>
      apply h.closed
      simpa [leave, reportConnected] using hclosed
  | opened ok =>
    have hsame := sameObjects_reportOpened s ok
    refine h.of_same ⟨hsame.kind, hsame.hasObserver, hsame.sources⟩ ?_ (by simp [Closing, leave])
    intro hclosed
    cases ok with
    | false => exact h.closing (.inl hhandler)
    | true => exact h.closed ((canUpcall_reportOpened s).symm.trans hclosed)
  | sent =>
    have hsame : SameObjects s (if s.canUpcall then s.upcall (.onSendSession false) else s) := by
      split <;> exact ⟨rfl, rfl, rfl⟩
    refine h.of_same ⟨hsame.kind, hsame.hasObserver, hsame.sources⟩ ?_ (by simp [Closing, leave])
    have hcan : (if s.canUpcall then s.upcall (.onSendSession false) else s).canUpcall =
        s.canUpcall := by
      split <;> rfl
    intro hclosed
    exact h.closed (hcan.symm.trans hclosed)
  | closed errorCode sslCode fini =>
    have hsame : SameObjects s (if s.canUpcall then s.callClose errorCode sslCode else s) := by
      split <;> exact ⟨rfl, rfl, rfl⟩
    cases fini with
    | true => exact watched_fini h hsame
    | false =>
      refine h.of_same ⟨hsame.kind, hsame.hasObserver, hsame.sources⟩ ?_ (by simp [Closing, leave])
      intro _
      exact h.closing (.inr (.inr ⟨errorCode, sslCode, hhandler⟩))
  | timer timeout =>
    have hsame := sameObjects_reportTimer s timeout
    dsimp only
    split
    · rename_i hcan
      refine h.of_same ⟨hsame.kind, hsame.hasObserver, hsame.sources⟩ ?_ (by simp [Closing, leave])
      intro hclosed
      exact absurd (hcan.symm.trans hclosed) (by decide)
    · exact watched_fini h hsame

theorem Watched.fini (h : s.Watched) : s.fini.Watched where
  single := (sources_fini_le s).trans h.single
  closed _ := .inl (hasObserver_fini s)
  closing _ := .inl (hasObserver_fini s)

theorem Watched.step {event : SessionEvent} (h : s.Watched) (hstep : s.step event = some next) :
    next.Watched := by
  unfold Session.step at hstep
  split at hstep
  · exact Option.some.inj hstep ▸ h.fini
  · rename_i tick shook handler hhandler
    exact Option.some.inj hstep ▸ h.proceed hhandler tick shook
  · cases hstep
  · cases hstep
  · rename_i hidle
    exact h.begin hidle hstep

theorem watched_of_run {kind : SessionKind} {setup : Setup} {events : List SessionEvent}
    (hrun : Runs.run Session.step (init kind setup) events = some s) : s.Watched :=
  Runs.run_preserves (fun _ _ _ h _ hstep => h.step hstep) (watched_init kind setup)
    (Runs.guarded_true _ _) hrun

theorem kind_fini (s : Session) : s.fini.kind = s.kind := (unheard_fini s).kind

theorem kind_proceed (s : Session) (handler : Handler) (tick : Int) (shook : Bool) :
    (s.proceed handler tick shook).kind = s.kind := by
  unfold Session.proceed
  cases handler with
  | receiving trans source => exact (sameObjects_turn s trans source tick shook).kind
  | received trans source error packet =>
    have hsame := sameObjects_reportReceived s error packet
    dsimp only
    split
    · exact hsame.kind
    · exact (kind_fini _).trans hsame.kind
  | connected ok => exact (sameObjects_reportConnected s ok).kind
  | opened ok => exact (sameObjects_reportOpened s ok).kind
  | sent =>
    show (if s.canUpcall then s.upcall (.onSendSession false) else s).kind = s.kind
    split <;> rfl
  | closed errorCode sslCode fini =>
    have hkind : (if s.canUpcall then s.callClose errorCode sslCode else s).kind = s.kind := by
      split <;> rfl
    cases fini with
    | true => exact (kind_fini _).trans hkind
    | false => exact hkind
  | timer timeout =>
    have hsame := sameObjects_reportTimer s timeout
    show (if (s.reportTimer timeout).canUpcall then s.reportTimer timeout
      else (s.reportTimer timeout).fini).kind = s.kind
    split
    · exact hsame.kind
    · exact (kind_fini _).trans hsame.kind

theorem kind_step {event : SessionEvent} (hstep : s.step event = some next) :
    next.kind = s.kind := by
  unfold Session.step at hstep
  split at hstep
  · exact Option.some.inj hstep ▸ kind_fini s
  · exact Option.some.inj hstep ▸ kind_proceed s _ _ _
  · cases hstep
  · cases hstep
  · rename_i hidle
    exact (begun_begin hidle hstep).unheard.kind

theorem kind_run {events : List SessionEvent}
    (hrun : Runs.run Session.step s events = some next) : next.kind = s.kind := by
  have hkept : ∀ (mid : Session) (event : SessionEvent) (after : Session), mid.kind = s.kind →
      True → mid.step event = some after → after.kind = s.kind :=
    fun _ _ _ hmid _ hstep => (kind_step hstep).trans hmid
  exact Runs.run_preserves hkept rfl (Runs.guarded_true s events) hrun

/-- A transport that still belongs to the session can make it close. -/
theorem Watched.canUpcall {trans : Nat} (h : s.Watched) (howns : s.owns trans) :
    s.canUpcall = true := by
  have htrans : s.hasObserver ∧ s.trans = some trans := by simpa [owns] using howns
  by_contra hclosed
  rcases h.closed (by simpa using hclosed) with hgone | hnone
  · exact absurd (htrans.1.symm.trans hgone) (by decide)
  · unfold sources at hnone
    rw [htrans.2, present_some] at hnone
    omega

/-! Without input the tick of the peer stands still. -/

end Session

def Handler.receives : Handler → Bool
  | .receiving _ _ | .received _ _ _ _ => true
  | _ => false

def SessionEvent.isInput : SessionEvent → Bool
  | .onInput _ _ _ => true
  | _ => false

namespace Session

variable {s next : Session}

/-- `OnRecv` is not in progress. -/
def Silent (s : Session) : Prop := ∀ handler, s.handler = some handler → handler.receives = false

/-- Nothing was received: the tick is the same, and `OnRecv` is still not in progress. -/
structure Unfed (s next : Session) : Prop where
  peerAliveTick : next.peerAliveTick = s.peerAliveTick
  silent : next.Silent

theorem unfed_refl (hidle : s.handler = none) : Unfed s s :=
  ⟨rfl, by simp [Silent, hidle]⟩

theorem unfed_enter {handler : Handler} (htick : next.peerAliveTick = s.peerAliveTick)
    (hquiet : handler.receives = false) : Unfed s (next.enter handler) := by
  refine ⟨htick, ?_⟩
  intro held hheld
  rw [← Option.some.inj hheld]
  exact hquiet

theorem peerAliveTick_attach (s : Session) (created : Option NewTrans) :
    (s.attach created).peerAliveTick = s.peerAliveTick := by
  cases created <;> rfl

theorem peerAliveTick_handshaken (s : Session) (buf : List UInt8) (created : Option NewTrans) :
    (s.handshaken buf created).1.peerAliveTick = s.peerAliveTick := by
  unfold handshaken
  dsimp only
  split
  · rfl
  · split
    · rfl
    · cases created <;> rfl

theorem peerAliveTick_doHandshake (s : Session) (created : Option Nat) :
    (s.doHandshake created).1.peerAliveTick = s.peerAliveTick := by
  unfold doHandshake
  repeat' split
  all_goals rfl

theorem unfed_onAccept (hidle : s.handler = none) (acceptor : Nat) (created : Option NewTrans) :
    Unfed s (s.onAccept acceptor created) := by
  unfold onAccept
  split
  · cases created <;> exact unfed_enter rfl rfl
  · exact unfed_refl hidle

theorem unfed_onConnectOkEx (hidle : s.handler = none) (connector : Nat) (created : Option Nat) :
    Unfed s (s.onConnectOkEx connector created) := by
  unfold onConnectOkEx
  split
  · exact unfed_enter (peerAliveTick_doHandshake _ _) rfl
  · exact unfed_refl hidle

theorem unfed_onTimer (hidle : s.handler = none) (timerId : Nat) : Unfed s (s.onTimer timerId) := by
  unfold onTimer
  split
  · exact unfed_refl hidle
  · split
    · exact unfed_refl hidle
    · split <;> exact unfed_enter rfl rfl

theorem unfed_onHeartbeat (hidle : s.handler = none) (trans : Nat) (tick : Int) :
    Unfed s (s.onHeartbeat trans tick) := by
  unfold onHeartbeat
  split
  · exact unfed_refl hidle
  · split
    · exact unfed_refl hidle
    · exact unfed_refl hidle
    · split
      · exact unfed_refl hidle
      · exact unfed_enter rfl rfl

theorem unfed_begin {event : SessionEvent} (hidle : s.handler = none)
    (hinput : event.isInput = false) (hbegin : s.begin event = some next) : Unfed s next := by
  unfold Session.begin at hbegin
  split at hbegin
  · obtain rfl := Option.some.inj hbegin
    unfold onConnectOk
    split
    · exact unfed_enter (peerAliveTick_attach _ _) rfl
    · exact unfed_refl hidle
  · exact Option.some.inj hbegin ▸ unfed_onConnectOkEx hidle _ _
  · obtain rfl := Option.some.inj hbegin
    unfold onConnectError
    split
    · exact unfed_enter rfl rfl
    · exact unfed_refl hidle
  · obtain rfl := Option.some.inj hbegin
    unfold onConnectError
    split
    · exact unfed_enter rfl rfl
    · exact unfed_refl hidle
  · exact Option.some.inj hbegin ▸ unfed_onAccept hidle _ _
  · obtain rfl := Option.some.inj hbegin
    unfold onTcpHandshakeOk
    split
    · exact unfed_enter (peerAliveTick_handshaken _ _ _) rfl
    · exact unfed_refl hidle
  · obtain rfl := Option.some.inj hbegin
    unfold onTcpHandshakeError
    split
    · exact unfed_enter rfl rfl
    · exact unfed_refl hidle
  · obtain rfl := Option.some.inj hbegin
    unfold onSslHandshakeOk
    split
    · exact unfed_enter (peerAliveTick_handshaken _ _ _) rfl
    · exact unfed_refl hidle
  · obtain rfl := Option.some.inj hbegin
    unfold onSslHandshakeError
    split
    · exact unfed_enter rfl rfl
    · exact unfed_refl hidle
  · cases hinput
  · obtain rfl := Option.some.inj hbegin
    unfold onSend
    split
    · exact unfed_enter rfl rfl
    · exact unfed_refl hidle
  · obtain rfl := Option.some.inj hbegin
    unfold onClose
    split
    · exact unfed_enter rfl rfl
    · exact unfed_refl hidle
  · exact Option.some.inj hbegin ▸ unfed_onHeartbeat hidle _ _
  · exact Option.some.inj hbegin ▸ unfed_onTimer hidle _
  · cases hbegin

theorem unfed_leave (htick : next.peerAliveTick = s.peerAliveTick) : Unfed s next.leave :=
  ⟨htick, by simp [Silent, leave]⟩

theorem peerAliveTick_fini (s : Session) : s.fini.peerAliveTick = s.peerAliveTick := by
  unfold fini
  split <;> rfl

theorem peerAliveTick_callOk (s : Session) : s.callOk.peerAliveTick = s.peerAliveTick := by
  unfold callOk
  split <;> rfl

theorem unfed_proceed {handler : Handler} (hquiet : handler.receives = false) (tick : Int)
    (shook : Bool) : Unfed s (s.proceed handler tick shook) := by
  unfold Session.proceed
  cases handler with
  | receiving trans source => cases hquiet
  | received trans source error packet => cases hquiet
  | connected ok =>
    apply unfed_leave
    unfold reportConnected
    split <;> rfl
  | opened ok =>
    apply unfed_leave
    unfold reportOpened
    repeat' split
    all_goals first
      | rfl
      | exact peerAliveTick_callOk s
  | sent =>
    apply unfed_leave
    split <;> rfl
  | closed errorCode sslCode fini =>
    apply unfed_leave
    have hclose : (if s.canUpcall then s.callClose errorCode sslCode else s).peerAliveTick =
        s.peerAliveTick := by
      split <;> rfl
    cases fini with
    | true => exact (peerAliveTick_fini _).trans hclose
    | false => exact hclose
  | timer timeout =>
    apply unfed_leave
    have hreport : (s.reportTimer timeout).peerAliveTick = s.peerAliveTick := by
      unfold reportTimer
      repeat' split
      all_goals first
        | rfl
        | exact peerAliveTick_callOk s
    split
    · exact hreport
    · exact (peerAliveTick_fini _).trans hreport

theorem unfed_step {event : SessionEvent} (hsilent : s.Silent) (hinput : event.isInput = false)
    (hstep : s.step event = some next) : Unfed s next := by
  unfold Session.step at hstep
  split at hstep
  · obtain rfl := Option.some.inj hstep
    refine ⟨peerAliveTick_fini s, ?_⟩
    unfold Silent
    rw [handler_fini]
    exact hsilent
  · rename_i tick shook handler hhandler
    exact Option.some.inj hstep ▸ unfed_proceed (hsilent handler hhandler) tick shook
  · cases hstep
  · cases hstep
  · rename_i hidle
    exact unfed_begin hidle hinput hstep

theorem unfed_run {events : List SessionEvent} (hsilent : s.Silent)
    (hinput : ∀ event ∈ events, event.isInput = false)
    (hrun : Runs.run Session.step s events = some next) : Unfed s next := by
  have hkept : ∀ (mid : Session) (event : SessionEvent) (after : Session), Unfed s mid →
      event.isInput = false → mid.step event = some after → Unfed s after := by
    intro mid event after hmid hquiet hstep
    have hafter := unfed_step hmid.silent hquiet hstep
    exact ⟨hafter.peerAliveTick.trans hmid.peerAliveTick, hafter.silent⟩
  have hguard : Runs.Guarded Session.step (fun _ event => event.isInput = false) s events :=
    Runs.guarded_of_forall (fun event hmem _ => hinput event hmem) s
  exact Runs.run_preserves hkept ⟨rfl, hsilent⟩ hguard hrun

/-! The heartbeat. -/

/-- The peer has been silent for the whole timeout. -/
def Expired (s : Session) (tick : Int) : Prop :=
  (s.keepaliveTimeout * 1000 : Int) ≤ tick - s.peerAliveTick

instance (s : Session) (tick : Int) : Decidable (s.Expired tick) :=
  inferInstanceAs (Decidable (_ ≤ _))

/-- The heartbeat reports the timeout once and finishes the session, also where another thread
has called `Fini` in between. -/
def TimesOut (s : Session) (trans : Nat) (tick : Int) : Prop :=
  ∀ finis tick' shook, ∃ final,
    Runs.run Session.step s
        (.onHeartbeat trans tick :: List.replicate finis .fini ++ [.proceed tick' shook]) =
      some final ∧
    final.calls = s.calls ++ [.onCloseSession TcpHandshaker.etimedout 0 s.tcpConnected] ∧
    final.hasObserver = false ∧ final.trans = none ∧ final.handler = none

/-- A heartbeat of an open session closes it exactly if the timeout is over, and as long as
nothing comes in nothing puts the timeout off. -/
def DetectsSilence (kind : SessionKind) : Prop :=
  ∀ setup before s silence next trans,
    Runs.run Session.step (init kind setup) before = some s → s.handler = none →
    (∀ event ∈ silence, event.isInput = false) →
    Runs.run Session.step s silence = some next → next.handler = none →
    next.owns trans → next.onOkCalled →
    next.peerAliveTick = s.peerAliveTick ∧
      ∀ tick, (next.Expired tick → next.TimesOut trans tick) ∧
        (¬ next.Expired tick → next.step (.onHeartbeat trans tick) = some next)

/-- The timeout is noticed, and the upcall not yet made. -/
structure TimingOut (s mid : Session) : Prop where
  handler : mid.handler = some (.closed TcpHandshaker.etimedout 0 true)
  calls : mid.calls = s.calls
  canUpcall : mid.canUpcall = s.canUpcall
  tcpConnected : mid.tcpConnected = s.tcpConnected
  trans : mid.hasObserver = false → mid.trans = none

theorem TimingOut.fini {mid : Session} (h : TimingOut s mid) : TimingOut s mid.fini := by
  obtain ⟨hhandler, hcalls, hcan, hconnected, htrans⟩ := h
  unfold Session.fini
  split
  · exact ⟨hhandler, hcalls, hcan, hconnected, fun _ => rfl⟩
  · exact ⟨hhandler, hcalls, hcan, hconnected, htrans⟩

theorem TimingOut.run {mid : Session} (h : TimingOut s mid) (finis : Nat) :
    ∃ after, Runs.run Session.step mid (List.replicate finis .fini) = some after ∧
      TimingOut s after := by
  induction finis generalizing mid with
  | zero => exact ⟨mid, rfl, h⟩
  | succ finis ih =>
    obtain ⟨after, hrun, hafter⟩ := ih h.fini
    exact ⟨after, hrun, hafter⟩

theorem TimingOut.proceed {mid : Session} (h : TimingOut s mid) (hcan : s.canUpcall = true)
    (tick : Int) (shook : Bool) : ∃ final, mid.step (.proceed tick shook) = some final ∧
      final.calls = s.calls ++ [.onCloseSession TcpHandshaker.etimedout 0 s.tcpConnected] ∧
      final.hasObserver = false ∧ final.trans = none ∧ final.handler = none := by
  have hclose := h.canUpcall.trans hcan
  refine ⟨(mid.callClose TcpHandshaker.etimedout 0).fini.leave, ?_, ?_, ?_, ?_, rfl⟩
  · unfold Session.step
    rw [h.handler]
    show some (Session.leave (Session.fini (if mid.canUpcall then _ else _))) = _
    rw [if_pos hclose]
  · refine (calls_fini _).trans ?_
    show mid.calls ++ _ = _
    rw [h.calls, h.tcpConnected]
  · exact hasObserver_fini _
  · show (mid.callClose TcpHandshaker.etimedout 0).fini.trans = none
    unfold Session.fini
    split
    · rfl
    · rename_i hgone
      exact h.trans (by simpa [callClose, upcall] using hgone)

theorem onHeartbeat_early {trans : Nat} {tick : Int} (hearly : ¬ s.Expired tick) :
    s.onHeartbeat trans tick = s := by
  unfold Expired at hearly
  unfold onHeartbeat
  split
  · rfl
  · split
    · rfl
    · rfl
    · rw [if_pos (by omega)]

theorem onHeartbeat_late {trans : Nat} {tick : Int} (howns : s.owns trans) (hok : s.onOkCalled)
    (hlate : s.Expired tick) (hclient : s.kind ≠ .tcpClient) (hserver : s.kind ≠ .tcpServer) :
    s.onHeartbeat trans tick = s.enter (.closed TcpHandshaker.etimedout 0 true) := by
  unfold Expired at hlate
  unfold onHeartbeat
  rw [if_neg (by simp [howns, hok])]
  split
  · rename_i hkind
    exact absurd hkind hclient
  · rename_i hkind
    exact absurd hkind hserver
  · rw [if_neg (by omega)]

theorem detects_of_ne {kind : SessionKind} (hclient : kind ≠ .tcpClient)
    (hserver : kind ≠ .tcpServer) : DetectsSilence kind := by
  intro setup before s silence next trans hbefore hidle hquiet hsilence hidle' howns hok
  have hunfed := unfed_run (by simp [Silent, hidle]) hquiet hsilence
  refine ⟨hunfed.peerAliveTick, fun tick => ⟨fun hlate finis tick' shook => ?_, fun hearly => ?_⟩⟩
  · have hrun : Runs.run Session.step (init kind setup) (before ++ silence) = some next := by
      rw [Runs.run_append, hbefore]
      exact hsilence
    have hcan := (watched_of_run hrun).canUpcall howns
    have hkind : next.kind = kind := (kind_run hrun).trans (by cases kind <;> rfl)
    have hbeat : next.step (.onHeartbeat trans tick) =
        some (next.enter (.closed TcpHandshaker.etimedout 0 true)) := by
      unfold Session.step
      rw [hidle']
      exact congrArg some (onHeartbeat_late howns hok hlate (hkind ▸ hclient) (hkind ▸ hserver))
    have hobserver : next.hasObserver = true := by
      have htrans : next.hasObserver ∧ next.trans = some trans := by simpa [owns] using howns
      exact htrans.1
    have htiming : TimingOut next (next.enter (.closed TcpHandshaker.etimedout 0 true)) :=
      ⟨rfl, rfl, rfl, rfl, fun hgone => absurd (hobserver.symm.trans hgone) (by decide)⟩
    obtain ⟨mid, hfinis, hmid⟩ := htiming.run finis
    obtain ⟨final, hstep, hfinal⟩ := hmid.proceed hcan tick' shook
    refine ⟨final, ?_, hfinal⟩
    rw [List.cons_append, Runs.run, hbeat, Option.bind_some, Runs.run_append, hfinis]
    simp [Runs.run, hstep]
  · unfold Session.step
    rw [hidle']
    exact congrArg some (onHeartbeat_early hearly)

/-- A plain client connects, and the other end of a plain server; then nothing comes. -/
def plainOpening : SessionKind → List SessionEvent
  | .tcpServer => [.onAccept 3 (some ⟨6, 64, fun _ => 0⟩), .proceed 0 true]
  | _ => [.onConnectOk 2 (some ⟨6, 64, fun _ => 0⟩), .proceed 0 true]

theorem not_detects_tcpClient : ¬ DetectsSilence .tcpClient := by
  intro h
  obtain ⟨-, hbeat⟩ := h smallSetup (plainOpening .tcpClient) _ [] _ 6 rfl rfl (by simp) rfl rfl
    rfl rfl
  obtain ⟨final, hrun, -⟩ := (hbeat 1000000).1 (by decide) 0 1000000 true
  cases hrun

theorem not_detects_tcpServer : ¬ DetectsSilence .tcpServer := by
  intro h
  obtain ⟨-, hbeat⟩ := h smallSetup (plainOpening .tcpServer) _ [] _ 6 rfl rfl (by simp) rfl rfl
    rfl rfl
  obtain ⟨final, hrun, -⟩ := (hbeat 1000000).1 (by decide) 0 1000000 true
  cases hrun

/-- Exactly the EX sessions notice that a peer is silent. -/
theorem detectsSilence_iff (kind : SessionKind) :
    DetectsSilence kind ↔ kind ≠ .tcpClient ∧ kind ≠ .tcpServer := by
  constructor
  · intro h
    refine ⟨?_, ?_⟩
    · rintro rfl
      exact not_detects_tcpClient h
    · rintro rfl
      exact not_detects_tcpServer h
  · intro h
    exact detects_of_ne h.1 h.2

/-- The timeout is sixty seconds, and a heartbeat after a thousand leaves the session open. -/
theorem not_detectsSilence_plain :
    ¬ DetectsSilence .tcpClient ∧ ¬ DetectsSilence .tcpServer ∧
      ∀ kind ∈ [SessionKind.tcpClient, .tcpServer],
        (Runs.run Session.step (init kind smallSetup)
          (plainOpening kind ++ [.onHeartbeat 6 1000000])).map
            (fun s => (s.handler, s.calls)) = some (none, [.onOkSession]) := by
  refine ⟨not_detects_tcpClient, not_detects_tcpServer, ?_⟩
  decide +kernel

end Session

end Pronet.Rtp
