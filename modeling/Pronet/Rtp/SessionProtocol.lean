import Pronet.Rtp.SessionEvents

/-! What an observer may rely on: a session opens at most once, carries packets while
it is open, and is silent once it has closed. -/
namespace Pronet.Rtp

open Library

/-- A session as its observer sees it. -/
inductive SessionPhase
  | waiting
  | opened
  | closed
  deriving DecidableEq, Repr

def SessionPhase.advance : SessionPhase → Upcall → Option SessionPhase
  | .waiting, .onOkSession => some .opened
  | .waiting, .onCloseSession _ _ _ => some .closed
  | .opened, .onRecvSession _ => some .opened
  | .opened, .onSendSession _ => some .opened
  | .opened, .onCloseSession _ _ _ => some .closed
  | _, _ => none

def Upcall.isOk : Upcall → Bool
  | .onOkSession => true
  | _ => false

def Upcall.isTraffic : Upcall → Bool
  | .onRecvSession _ | .onSendSession _ => true
  | _ => false

def Upcall.isClose : Upcall → Bool
  | .onCloseSession _ _ _ => true
  | _ => false

/-- The contract of `IRtpSessionObserver`, over the calls in the order they were made. -/
structure CallbackProtocol (calls : List Upcall) : Prop where
  ok_once : calls.countP Upcall.isOk ≤ 1
  close_once : calls.countP Upcall.isClose ≤ 1
  ok_first : ∀ before call after, calls = before ++ call :: after → call.isTraffic →
    .onOkSession ∈ before
  close_last : ∀ before call after, calls = before ++ call :: after → call.isClose → after = []

section Phases

variable {p q : SessionPhase} {calls : List Upcall} {call : Upcall}

theorem advance_concat (hcalls : Runs.run SessionPhase.advance .waiting calls = some p)
    (hcall : p.advance call = some q) :
    Runs.run SessionPhase.advance .waiting (calls ++ [call]) = some q := by
  rw [Runs.run_append, hcalls]
  simp [Runs.run, hcall]

/-- A call that may be made is one of five. -/
theorem advance_cases (h : p.advance call = some q) :
    (p = .waiting ∧ call = .onOkSession ∧ q = .opened) ∨
      (p = .opened ∧ call.isTraffic ∧ q = .opened) ∨
      (p ≠ .closed ∧ call.isClose ∧ q = .closed) := by
  cases p <;> cases call <;>
    simp_all [SessionPhase.advance, Upcall.isTraffic, Upcall.isClose, eq_comm]

theorem closed_silent (h : Runs.run SessionPhase.advance .closed calls = some q) : calls = [] := by
  cases calls with
  | nil => rfl
  | cons call rest =>
    obtain ⟨next, hnext, -⟩ := Runs.run_cons_eq_some h
    cases call <;> cases hnext

theorem countP_isOk_le (h : Runs.run SessionPhase.advance p calls = some q) :
    calls.countP Upcall.isOk ≤ if p = .waiting then 1 else 0 := by
  induction calls generalizing p with
  | nil => simp
  | cons call rest ih =>
    obtain ⟨next, hnext, hrest⟩ := Runs.run_cons_eq_some h
    have := ih hrest
    rcases advance_cases hnext with ⟨rfl, rfl, rfl⟩ | ⟨rfl, hcall, rfl⟩ | ⟨-, hcall, rfl⟩
    · rw [List.countP_cons_of_pos rfl]
      exact Nat.succ_le_succ this
    · cases call <;> simp_all [Upcall.isOk, Upcall.isTraffic]
    · rw [closed_silent hrest]
      cases call <;> simp_all [Upcall.isOk, Upcall.isClose]

theorem countP_isClose_le (h : Runs.run SessionPhase.advance p calls = some q) :
    calls.countP Upcall.isClose ≤ 1 := by
  induction calls generalizing p with
  | nil => simp
  | cons call rest ih =>
    obtain ⟨next, hnext, hrest⟩ := Runs.run_cons_eq_some h
    have := ih hrest
    rcases advance_cases hnext with ⟨-, rfl, -⟩ | ⟨-, hcall, -⟩ | ⟨-, hcall, rfl⟩
    · simpa [Upcall.isClose] using this
    · cases call <;> simp_all [Upcall.isClose, Upcall.isTraffic]
    · rw [closed_silent hrest]
      simp [hcall]

theorem mem_of_opened (h : Runs.run SessionPhase.advance p calls = some .opened)
    (hp : p ≠ .opened) : .onOkSession ∈ calls := by
  cases calls with
  | nil =>
    exact absurd (Option.some.inj h) hp
  | cons call rest =>
    obtain ⟨next, hnext, hrest⟩ := Runs.run_cons_eq_some h
    rcases advance_cases hnext with ⟨-, rfl, -⟩ | ⟨hopen, -, -⟩ | ⟨-, -, rfl⟩
    · exact List.mem_cons_self
    · exact absurd hopen hp
    · rw [closed_silent hrest] at hrest
      cases hrest

theorem protocol_of_advance (h : Runs.run SessionPhase.advance .waiting calls = some q) :
    CallbackProtocol calls where
  ok_once := countP_isOk_le h
  close_once := countP_isClose_le h
  ok_first before call after hsplit htraffic := by
    rw [hsplit, Runs.run_append] at h
    obtain ⟨mid, hmid, hrest⟩ := Option.bind_eq_some_iff.mp h
    obtain ⟨next, hnext, -⟩ := Runs.run_cons_eq_some hrest
    have hopen : mid = .opened := by
      rcases advance_cases hnext with ⟨-, rfl, -⟩ | ⟨hopen, -, -⟩ | ⟨-, hclose, -⟩
      · cases htraffic
      · exact hopen
      · cases call <;> simp_all [Upcall.isTraffic, Upcall.isClose]
    exact mem_of_opened (hopen ▸ hmid) (by decide)
  close_last before call after hsplit hclose := by
    rw [hsplit, Runs.run_append] at h
    obtain ⟨mid, -, hrest⟩ := Option.bind_eq_some_iff.mp h
    obtain ⟨next, hnext, hafter⟩ := Runs.run_cons_eq_some hrest
    have hclosed : next = .closed := by
      rcases advance_cases hnext with ⟨-, rfl, -⟩ | ⟨-, htraffic, -⟩ | ⟨-, -, hclosed⟩
      · cases hclose
      · cases call <;> simp_all [Upcall.isTraffic, Upcall.isClose]
      · exact hclosed
    exact closed_silent (hclosed ▸ hafter)

end Phases

namespace Session

/-- The phase that the flags of the session stand for. -/
def phase (s : Session) : SessionPhase :=
  if !s.canUpcall then .closed else if s.onOkCalled then .opened else .waiting

/-- The flags follow the calls, and a class that does not look whether it has opened
has no transport before it has. -/
structure Polite (s : Session) : Prop where
  accepted : Runs.run SessionPhase.advance .waiting s.calls = some s.phase
  transport : s.canUpcall → s.opensFirst → s.trans ≠ none →
    s.onOkCalled ∨ s.handler = some (.opened true)
  shaken : s.handler = some (.opened true) → s.kind = .tcpClientEx → s.handshakeOk
  received : ∀ trans source error packet,
    s.handler = some (.received trans source error (some packet)) → s.canUpcall → s.opensFirst →
      s.onOkCalled
  sent : s.handler = some .sent → s.onOkCalled

variable {s next : Session}

theorem polite_init (kind : SessionKind) (setup : Setup) : (init kind setup).Polite := by
  constructor
  · cases kind <;> rfl
  · cases kind <;> simp [init, create, opensFirst, attach]
  · cases kind <;> simp [init, create, attach]
  · cases kind <;> simp [init, create, attach]
  · cases kind <;> simp [init, create, attach]

/-- What the observer was told and what decides what it is told next. -/
structure Unheard (s next : Session) : Prop where
  kind : next.kind = s.kind
  canUpcall : next.canUpcall = s.canUpcall
  onOkCalled : next.onOkCalled = s.onOkCalled
  calls : next.calls = s.calls

theorem Unheard.phase (h : Unheard s next) : next.phase = s.phase := by
  unfold Session.phase
  rw [h.canUpcall, h.onOkCalled]

theorem Unheard.opensFirst (h : Unheard s next) : next.opensFirst = s.opensFirst := by
  unfold Session.opensFirst
  rw [h.kind]

/-- A section that makes no upcall and holds the lock for one of the others. -/
theorem Polite.of_unheard (h : s.Polite) (hunheard : Unheard s next)
    (htransport : next.canUpcall → next.opensFirst → next.trans ≠ none →
      next.onOkCalled ∨ next.handler = some (.opened true))
    (hshaken : next.handler = some (.opened true) → next.kind = .tcpClientEx → next.handshakeOk)
    (hreceived : ∀ trans source error packet,
      next.handler = some (.received trans source error (some packet)) → next.canUpcall →
        next.opensFirst → next.onOkCalled)
    (hsent : next.handler = some .sent → next.onOkCalled) : next.Polite := by
  refine ⟨?_, htransport, hshaken, hreceived, hsent⟩
  rw [hunheard.calls, hunheard.phase]
  exact h.accepted

theorem Unheard.refl (s : Session) : Unheard s s := ⟨rfl, rfl, rfl, rfl⟩

/-- The first section of a handler: it sets a transport only where it goes on to report
`OnOkSession`. -/
structure Begun (s next : Session) : Prop where
  unheard : Unheard s next
  trans : next.trans = s.trans ∨ next.trans = none ∨ next.handler = some (.opened true)
  shaken : next.handler = some (.opened true) → next.kind = .tcpClientEx → next.handshakeOk
  received : ∀ trans source error packet,
    next.handler ≠ some (.received trans source error (some packet))
  sent : next.handler = some .sent → next.onOkCalled

theorem begun_refl (hidle : s.handler = none) : Begun s s := by
  refine ⟨.refl s, .inl rfl, ?_, ?_, ?_⟩ <;> simp [hidle]

/-- The handlers that close, and those that only look. -/
theorem begun_quiet (handler : Handler) (hunheard : Unheard s next)
    (hhandler : next.handler = some handler)
    (htrans : next.trans = s.trans ∨ next.trans = none)
    (hquiet : handler ≠ .opened true ∧ handler ≠ .sent ∧
      ∀ trans source error packet, handler ≠ .received trans source error (some packet)) :
    Begun s next := by
  refine ⟨hunheard, htrans.imp_right .inl, ?_, ?_, ?_⟩
  · intro hopened
    exact absurd (Option.some.inj (hhandler.symm.trans hopened)) hquiet.1
  · intro trans source error packet hreceived
    exact hquiet.2.2 trans source error packet (Option.some.inj (hhandler.symm.trans hreceived))
  · intro hsent
    exact absurd (Option.some.inj (hhandler.symm.trans hsent)) hquiet.2.1

theorem begun_opened (ok : Bool) (hunheard : Unheard s next)
    (hhandler : next.handler = some (.opened ok))
    (htrans : ok = false → next.trans = s.trans ∨ next.trans = none)
    (hshaken : ok = true → next.kind = .tcpClientEx → next.handshakeOk) : Begun s next := by
  cases ok with
  | false =>
    apply begun_quiet _ hunheard hhandler (htrans rfl)
    simp
  | true =>
    refine ⟨hunheard, .inr (.inr hhandler), fun _ => hshaken rfl, ?_, ?_⟩
    · simp [hhandler]
    · simp [hhandler]

theorem begun_onConnectOk (hidle : s.handler = none) (hkind : s.kind = .tcpClient)
    (connector : Nat) (created : Option NewTrans) : Begun s (s.onConnectOk connector created) := by
  unfold onConnectOk
  split
  · cases created with
    | none => exact begun_opened false ⟨rfl, rfl, rfl, rfl⟩ rfl (fun _ => .inr rfl) (by simp)
    | some trans =>
      refine begun_opened true ⟨rfl, rfl, rfl, rfl⟩ rfl (by simp) ?_
      intro _ hex
      cases hkind.symm.trans hex
  · exact begun_refl hidle

theorem begun_onAccept (hidle : s.handler = none) (hkind : s.kind = .tcpServer)
    (acceptor : Nat) (created : Option NewTrans) : Begun s (s.onAccept acceptor created) := by
  unfold onAccept
  split
  · cases created with
    | none => exact begun_opened false ⟨rfl, rfl, rfl, rfl⟩ rfl (fun _ => .inr rfl) (by simp)
    | some trans =>
      refine begun_opened true ⟨rfl, rfl, rfl, rfl⟩ rfl (by simp) ?_
      intro _ hex
      cases hkind.symm.trans hex
  · exact begun_refl hidle

theorem begun_onConnectOkEx (hidle : s.handler = none) (connector : Nat) (created : Option Nat) :
    Begun s (s.onConnectOkEx connector created) := by
  unfold onConnectOkEx doHandshake
  split
  · dsimp only
    split
    · exact begun_quiet (.connected false) ⟨rfl, rfl, rfl, rfl⟩ rfl (.inl rfl) (by simp)
    · split
      · exact begun_quiet (.connected created.isSome) ⟨rfl, rfl, rfl, rfl⟩ rfl (.inl rfl) (by simp)
      · exact begun_quiet (.connected created.isSome) ⟨rfl, rfl, rfl, rfl⟩ rfl (.inl rfl) (by simp)
  · exact begun_refl hidle

theorem begun_onConnectError (hidle : s.handler = none) (connector : Nat) (timeout : Bool) :
    Begun s (s.onConnectError connector timeout) := by
  unfold onConnectError
  split
  · exact begun_quiet (.closed _ _ _) ⟨rfl, rfl, rfl, rfl⟩ rfl (.inl rfl) (by simp)
  · exact begun_refl hidle

/-- What the two `OnHandshakeOk` have in common. -/
theorem handshaken_spec (s : Session) (buf : List UInt8) (created : Option NewTrans) :
    Unheard s (s.handshaken buf created).1 ∧
      ((s.handshaken buf created).2 = false →
        (s.handshaken buf created).1.trans = s.trans ∨ (s.handshaken buf created).1.trans = none) ∧
      ((s.handshaken buf created).2 = true → (s.handshaken buf created).1.handshakeOk) := by
  unfold handshaken
  dsimp only
  split
  · exact ⟨.refl s, fun _ => .inl rfl, by simp⟩
  · split
    · exact ⟨.refl s, fun _ => .inl rfl, by simp⟩
    · cases created with
      | none => exact ⟨⟨rfl, rfl, rfl, rfl⟩, fun _ => .inr rfl, by simp⟩
      | some trans => exact ⟨⟨rfl, rfl, rfl, rfl⟩, by simp, fun _ => rfl⟩

theorem begun_onTcpHandshakeOk (hidle : s.handler = none) (handshaker : Nat) (buf : List UInt8)
    (created : Option NewTrans) : Begun s (s.onTcpHandshakeOk handshaker buf created) := by
  unfold onTcpHandshakeOk
  split
  · obtain ⟨⟨hkind, hcan, hok, hcalls⟩, htrans, hshaken⟩ := s.handshaken_spec buf created
    exact begun_opened _ ⟨hkind, hcan, hok, hcalls⟩ rfl htrans (fun hopen _ => hshaken hopen)
  · exact begun_refl hidle

theorem begun_onSslHandshakeOk (hidle : s.handler = none) (handshaker : Nat) (buf : List UInt8)
    (created : Option NewTrans) : Begun s (s.onSslHandshakeOk handshaker buf created) := by
  unfold onSslHandshakeOk
  split
  · obtain ⟨⟨hkind, hcan, hok, hcalls⟩, htrans, hshaken⟩ := s.handshaken_spec buf created
    exact begun_opened _ ⟨hkind, hcan, hok, hcalls⟩ rfl htrans (fun hopen _ => hshaken hopen)
  · exact begun_refl hidle

theorem begun_onTcpHandshakeError (hidle : s.handler = none) (handshaker : Nat) (errorCode : Int) :
    Begun s (s.onTcpHandshakeError handshaker errorCode) := by
  unfold onTcpHandshakeError
  split
  · exact begun_quiet (.closed _ _ _) ⟨rfl, rfl, rfl, rfl⟩ rfl (.inl rfl) (by simp)
  · exact begun_refl hidle

theorem begun_onSslHandshakeError (hidle : s.handler = none) (handshaker : Nat)
    (errorCode sslCode : Int) : Begun s (s.onSslHandshakeError handshaker errorCode sslCode) := by
  unfold onSslHandshakeError
  split
  · exact begun_quiet (.closed _ _ _) ⟨rfl, rfl, rfl, rfl⟩ rfl (.inl rfl) (by simp)
  · exact begun_refl hidle

theorem begun_onSend (hidle : s.handler = none) (trans : Nat) : Begun s (s.onSend trans) := by
  unfold onSend
  split
  · rename_i hopen
    rw [Bool.and_eq_true] at hopen
    refine ⟨⟨rfl, rfl, rfl, rfl⟩, .inl rfl, ?_, ?_, fun _ => hopen.2⟩ <;> simp [enter]
  · exact begun_refl hidle

theorem begun_onClose (hidle : s.handler = none) (trans : Nat) (errorCode sslCode : Int) :
    Begun s (s.onClose trans errorCode sslCode) := by
  unfold onClose
  split
  · exact begun_quiet (.closed _ _ _) ⟨rfl, rfl, rfl, rfl⟩ rfl (.inr rfl) (by simp)
  · exact begun_refl hidle

theorem begun_onHeartbeat (hidle : s.handler = none) (trans : Nat) (tick : Int) :
    Begun s (s.onHeartbeat trans tick) := by
  unfold onHeartbeat
  split
  · exact begun_refl hidle
  · split
    · exact begun_refl hidle
    · exact begun_refl hidle
    · split
      · exact begun_refl hidle
      · exact begun_quiet (.closed _ _ _) ⟨rfl, rfl, rfl, rfl⟩ rfl (.inl rfl) (by simp)

theorem begun_onTimer (hidle : s.handler = none) (timerId : Nat) : Begun s (s.onTimer timerId) := by
  unfold onTimer
  split
  · exact begun_refl hidle
  · split
    · exact begun_refl hidle
    · split
      · exact begun_quiet (.timer true) ⟨rfl, rfl, rfl, rfl⟩ rfl (.inl rfl) (by simp)
      · exact begun_quiet (.timer false) ⟨rfl, rfl, rfl, rfl⟩ rfl (.inl rfl) (by simp)

theorem begun_onInput (hidle : s.handler = none) (trans : Nat) (source : SockAddr)
    (bytes : List UInt8) : Begun s (s.onInput trans source bytes) := by
  unfold onInput
  split
  · exact begun_quiet (.receiving trans source) ⟨rfl, rfl, rfl, rfl⟩ rfl (.inl rfl) (by simp)
  · split
    · exact begun_onClose hidle trans _ _
    · dsimp only
      split
      · exact begun_refl hidle
      · exact begun_quiet (.receiving trans source) ⟨rfl, rfl, rfl, rfl⟩ rfl (.inl rfl) (by simp)

theorem begun_begin {event : SessionEvent} (hidle : s.handler = none)
    (h : s.begin event = some next) : Begun s next := by
  unfold begin at h
  split at h
  · rename_i connector created hkind
    exact Option.some.inj h ▸ begun_onConnectOk hidle hkind connector created
  · rename_i connector created hkind
    exact Option.some.inj h ▸ begun_onConnectOkEx hidle connector created
  · rename_i connector timeout hkind
    exact Option.some.inj h ▸ begun_onConnectError hidle connector timeout
  · rename_i connector timeout hkind
    exact Option.some.inj h ▸ begun_onConnectError hidle connector timeout
  · rename_i acceptor created hkind
    exact Option.some.inj h ▸ begun_onAccept hidle hkind acceptor created
  · rename_i handshaker buf created hkind
    exact Option.some.inj h ▸ begun_onTcpHandshakeOk hidle handshaker buf created
  · rename_i handshaker errorCode hkind
    exact Option.some.inj h ▸ begun_onTcpHandshakeError hidle handshaker errorCode
  · rename_i handshaker buf created hkind
    exact Option.some.inj h ▸ begun_onSslHandshakeOk hidle handshaker buf created
  · rename_i handshaker errorCode sslCode hkind
    exact Option.some.inj h ▸ begun_onSslHandshakeError hidle handshaker errorCode sslCode
  · rename_i trans source bytes
    exact Option.some.inj h ▸ begun_onInput hidle trans source bytes
  · rename_i trans
    exact Option.some.inj h ▸ begun_onSend hidle trans
  · rename_i trans errorCode sslCode
    exact Option.some.inj h ▸ begun_onClose hidle trans errorCode sslCode
  · rename_i trans tick
    exact Option.some.inj h ▸ begun_onHeartbeat hidle trans tick
  · rename_i timerId
    exact Option.some.inj h ▸ begun_onTimer hidle timerId
  · cases h

theorem Polite.begin {event : SessionEvent} (h : s.Polite) (hidle : s.handler = none)
    (hbegin : s.begin event = some next) : next.Polite := by
  have hbegun := begun_begin hidle hbegin
  apply h.of_unheard hbegun.unheard
  · intro hcan hfirst htrans
    rcases hbegun.trans with hsame | hnone | hopened
    · have hok := h.transport (hbegun.unheard.canUpcall ▸ hcan)
        (hbegun.unheard.opensFirst ▸ hfirst) (hsame ▸ htrans)
      rw [hbegun.unheard.onOkCalled]
      exact .inl (by simpa [hidle] using hok)
    · exact absurd hnone htrans
    · exact .inr hopened
  · exact hbegun.shaken
  · intro trans source error packet hreceived
    exact absurd hreceived (hbegun.received trans source error packet)
  · exact hbegun.sent

/-- A turn of `OnRecv` ends the loop, goes on with it, or holds a frame of the transport. -/
structure Turned (s : Session) (trans : Nat) (source : SockAddr) (next : Session) : Prop where
  unheard : Unheard s next
  kept : next.trans = s.trans
  handler : next.handler = none ∨ next.handler = some (.receiving trans source) ∨
    s.trans = some trans ∧ ∃ error packet, next.handler = some (.received trans source error packet)

section Turns

variable {trans : Nat} {source : SockAddr}

theorem turned_leave (hunheard : Unheard s next) (htrans : next.trans = s.trans) :
    Turned s trans source next.leave := by
  exact ⟨⟨hunheard.kind, hunheard.canUpcall, hunheard.onOkCalled, hunheard.calls⟩, htrans, .inl rfl⟩

theorem turned_again (hunheard : Unheard s next) (htrans : next.trans = s.trans)
    (hhandler : next.handler = some (.receiving trans source)) : Turned s trans source next :=
  ⟨hunheard, htrans, .inr (.inl hhandler)⟩

theorem turned_received (howns : s.owns trans) (error : Bool) (packet : Option RtpPacket)
    (hunheard : Unheard s next) (htrans : next.trans = s.trans) :
    Turned s trans source (next.enter (.received trans source error packet)) := by
  refine ⟨⟨hunheard.kind, hunheard.canUpcall, hunheard.onOkCalled, hunheard.calls⟩, htrans, ?_⟩
  have htrans : s.hasObserver ∧ s.trans = some trans := by simpa [owns] using howns
  exact .inr (.inr ⟨htrans.2, error, packet, rfl⟩)

theorem turned_turnEx (howns : s.owns trans)
    (hhandler : s.handler = some (.receiving trans source)) (tick : Int) :
    Turned s trans source (s.turnEx trans source tick) := by
  unfold turnEx
  dsimp only
  split
  · exact turned_leave ⟨rfl, rfl, rfl, rfl⟩ rfl
  · split
    · exact turned_leave ⟨rfl, rfl, rfl, rfl⟩ rfl
    · split
      · exact turned_again ⟨rfl, rfl, rfl, rfl⟩ rfl hhandler
      · exact turned_received howns _ _ ⟨rfl, rfl, rfl, rfl⟩ rfl

theorem turned_turnPlain (howns : s.owns trans)
    (hhandler : s.handler = some (.receiving trans source)) (tick : Int) :
    Turned s trans source (s.turnPlain trans source tick) := by
  unfold turnPlain
  dsimp only
  split
  · exact turned_leave (.refl s) rfl
  · split
    · exact turned_leave ⟨rfl, rfl, rfl, rfl⟩ rfl
    · split
      · exact turned_again ⟨rfl, rfl, rfl, rfl⟩ rfl hhandler
      · split
        · exact turned_received howns _ _ ⟨rfl, rfl, rfl, rfl⟩ rfl
        · split
          · exact turned_again ⟨rfl, rfl, rfl, rfl⟩ rfl hhandler
          · exact turned_received howns _ _ ⟨rfl, rfl, rfl, rfl⟩ rfl

theorem turned_takeUdpFrame (howns : s.owns trans) (tick : Int) (hdrAndPayloadSize : Nat) :
    Turned s trans source ((s.alive tick).takeUdpFrame trans source hdrAndPayloadSize) := by
  unfold takeUdpFrame
  dsimp only
  split
  · exact turned_received howns _ _ ⟨rfl, rfl, rfl, rfl⟩ rfl
  · split
    · exact turned_leave ⟨rfl, rfl, rfl, rfl⟩ rfl
    · exact turned_received howns _ _ ⟨rfl, rfl, rfl, rfl⟩ rfl

theorem turned_turnUdpServerEx (howns : s.owns trans)
    (hhandler : s.handler = some (.receiving trans source)) (tick : Int) (shook : Bool) :
    Turned s trans source (s.turnUdpServerEx trans source tick shook) := by
  unfold turnUdpServerEx
  dsimp only
  split
  · exact turned_leave ⟨rfl, rfl, rfl, rfl⟩ rfl
  · split
    · exact turned_leave ⟨rfl, rfl, rfl, rfl⟩ rfl
    · split
      · split
        · exact turned_again ⟨rfl, rfl, rfl, rfl⟩ rfl hhandler
        · exact turned_again ⟨rfl, rfl, rfl, rfl⟩ rfl hhandler
      · split
        · split
          · exact turned_leave ⟨rfl, rfl, rfl, rfl⟩ rfl
          · exact turned_received howns _ _ ⟨rfl, rfl, rfl, rfl⟩ rfl
        · split
          · exact turned_leave ⟨rfl, rfl, rfl, rfl⟩ rfl
          · exact turned_takeUdpFrame howns tick _

theorem turned_turnUdpClientEx (howns : s.owns trans)
    (hhandler : s.handler = some (.receiving trans source)) (tick : Int) :
    Turned s trans source (s.turnUdpClientEx trans source tick) := by
  unfold turnUdpClientEx
  dsimp only
  split
  · exact turned_leave ⟨rfl, rfl, rfl, rfl⟩ rfl
  · split
    · exact turned_leave ⟨rfl, rfl, rfl, rfl⟩ rfl
    · split
      · exact turned_leave ⟨rfl, rfl, rfl, rfl⟩ rfl
      · split
        · exact turned_again ⟨rfl, rfl, rfl, rfl⟩ rfl hhandler
        · split
          · split
            · exact turned_leave ⟨rfl, rfl, rfl, rfl⟩ rfl
            · exact turned_received howns _ _ ⟨rfl, rfl, rfl, rfl⟩ rfl
          · exact turned_takeUdpFrame howns tick _

theorem turned_turn (hhandler : s.handler = some (.receiving trans source)) (tick : Int)
    (shook : Bool) : Turned s trans source (s.turn trans source tick shook) := by
  unfold turn
  split
  · exact turned_leave (.refl s) rfl
  · rename_i howns
    have howns : s.owns trans := by simpa using howns
    split
    · exact turned_turnPlain howns hhandler tick
    · exact turned_turnPlain howns hhandler tick
    · exact turned_turnEx howns hhandler tick
    · exact turned_turnEx howns hhandler tick
    · exact turned_turnUdpClientEx howns hhandler tick
    · exact turned_turnUdpServerEx howns hhandler tick shook

theorem Polite.turn (h : s.Polite) (hhandler : s.handler = some (.receiving trans source))
    (tick : Int) (shook : Bool) : (s.turn trans source tick shook).Polite := by
  obtain ⟨hunheard, htrans, hturned⟩ := turned_turn hhandler tick shook
  apply h.of_unheard hunheard
  · intro hcan hfirst hnext
    have hok := h.transport (hunheard.canUpcall ▸ hcan) (hunheard.opensFirst ▸ hfirst)
      (htrans ▸ hnext)
    rw [hunheard.onOkCalled]
    exact .inl (by simpa [hhandler] using hok)
  · intro hopened
    rcases hturned with hnone | hagain | ⟨-, error, packet, hreceived⟩ <;> simp_all
  · intro _ _ _ _ hreceived hcan hfirst
    rcases hturned with hnone | hagain | ⟨hown, -⟩
    · rw [hnone] at hreceived
      cases hreceived
    · rw [hagain] at hreceived
      cases hreceived
    · have hok := h.transport (hunheard.canUpcall ▸ hcan) (hunheard.opensFirst ▸ hfirst)
        (by simp [hown])
      rw [hunheard.onOkCalled]
      simpa [hhandler] using hok
  · intro hsent
    rcases hturned with hnone | hagain | ⟨-, error, packet, hreceived⟩ <;> simp_all

end Turns

/-- What upcalls do to a session. -/
structure Reported (s next : Session) : Prop where
  kind : next.kind = s.kind
  trans : next.trans = s.trans
  canUpcall : next.canUpcall → s.canUpcall
  onOkCalled : s.onOkCalled → next.onOkCalled
  accepted : Runs.run SessionPhase.advance .waiting next.calls = some next.phase

theorem reported_refl (h : Runs.run SessionPhase.advance .waiting s.calls = some s.phase) :
    Reported s s := ⟨rfl, rfl, id, id, h⟩

theorem Reported.trans' {mid : Session} (h : Reported s mid) (h' : Reported mid next) :
    Reported s next :=
  ⟨h'.kind.trans h.kind, h'.trans.trans h.trans, h.canUpcall ∘ h'.canUpcall,
    h'.onOkCalled ∘ h.onOkCalled, h'.accepted⟩

theorem reported_callClose (h : Runs.run SessionPhase.advance .waiting s.calls = some s.phase)
    (hcan : s.canUpcall) (errorCode sslCode : Int) : Reported s (s.callClose errorCode sslCode) := by
  refine ⟨rfl, rfl, by simp [callClose, upcall], id, ?_⟩
  apply advance_concat h
  unfold phase
  rw [hcan]
  cases s.onOkCalled <;> rfl

theorem reported_callOk (h : Runs.run SessionPhase.advance .waiting s.calls = some s.phase)
    (hcan : s.canUpcall) :
    Reported s s.callOk ∧ s.callOk.onOkCalled ∧ s.callOk.canUpcall := by
  unfold callOk
  split
  · rename_i hok
    exact ⟨reported_refl h, hok, hcan⟩
  · rename_i hok
    refine ⟨⟨rfl, rfl, id, fun _ => rfl, ?_⟩, rfl, hcan⟩
    apply advance_concat h
    simp [phase, hcan, hok, upcall, SessionPhase.advance]

theorem reported_traffic (h : Runs.run SessionPhase.advance .waiting s.calls = some s.phase)
    (hcan : s.canUpcall) (hok : s.onOkCalled) {call : Upcall} (hcall : call.isTraffic) :
    Reported s (s.upcall call) := by
  refine ⟨rfl, rfl, id, id, ?_⟩
  apply advance_concat h
  unfold phase upcall
  cases call <;> simp_all [Upcall.isTraffic, SessionPhase.advance]

theorem reported_deliver (h : Runs.run SessionPhase.advance .waiting s.calls = some s.phase)
    (hcan : s.canUpcall) {packet : Option RtpPacket} (hok : packet.isSome → s.onOkCalled) :
    Reported s (s.deliver packet) := by
  cases packet with
  | none => exact reported_refl h
  | some packet => exact reported_traffic h hcan (hok rfl) rfl

/-- A handler that has made its upcalls lets go of the lock, or goes on as `OnRecv`. -/
theorem Polite.of_reported (h : s.Polite) (hreported : Reported s next)
    (hopened : s.handler = some (.opened true) → next.canUpcall → next.onOkCalled)
    {final : Session} (hunheard : Unheard next final)
    (htrans : final.trans = next.trans ∨ final.trans = none)
    (hhandler : final.handler = none ∨
      ∃ trans source, final.handler = some (.receiving trans source)) : final.Polite := by
  refine ⟨?_, ?_, ?_, ?_, ?_⟩
  · rw [hunheard.calls, hunheard.phase]
    exact hreported.accepted
  · intro hcan hfirst hfinal
    rcases htrans with hsame | hnone
    · have hcan : next.canUpcall := hunheard.canUpcall ▸ hcan
      have hfirst : s.opensFirst := by
        rw [hunheard.opensFirst] at hfirst
        unfold opensFirst at hfirst ⊢
        rwa [hreported.kind] at hfirst
      rw [hunheard.onOkCalled]
      rcases h.transport (hreported.canUpcall hcan) hfirst
        (hreported.trans ▸ hsame ▸ hfinal) with hok | hopen
      · exact .inl (hreported.onOkCalled hok)
      · exact .inl (hopened hopen hcan)
    · exact absurd hnone hfinal
  all_goals rcases hhandler with hnone | ⟨trans, source, hreceiving⟩ <;> simp_all

theorem unheard_fini (s : Session) : Unheard s s.fini := by
  unfold fini
  split <;> exact ⟨rfl, rfl, rfl, rfl⟩

theorem Polite.fini (h : s.Polite) : s.fini.Polite := by
  have hunheard := s.unheard_fini
  apply h.of_unheard hunheard
  · intro hcan hfirst htrans
    rw [handler_fini, hunheard.onOkCalled]
    rcases s.trans_fini with hsame | hnone
    · exact h.transport (hunheard.canUpcall ▸ hcan) (hunheard.opensFirst ▸ hfirst) (hsame ▸ htrans)
    · exact absurd hnone htrans
  · rw [handler_fini, handshakeOk_fini, hunheard.kind]
    exact h.shaken
  · rw [handler_fini, hunheard.canUpcall, hunheard.opensFirst, hunheard.onOkCalled]
    exact h.received
  · rw [handler_fini, hunheard.onOkCalled]
    exact h.sent

theorem reported_reportReceived
    (h : Runs.run SessionPhase.advance .waiting s.calls = some s.phase) (error : Bool)
    {packet : Option RtpPacket}
    (hok : packet.isSome → s.canUpcall → s.opensFirst → s.onOkCalled) :
    Reported s (s.reportReceived error packet) := by
  unfold reportReceived
  split
  · exact reported_refl h
  · rename_i hcan
    have hcan : s.canUpcall := by simpa using hcan
    split
    · exact reported_callClose h hcan _ _
    · split
      · rename_i hfirst
        exact reported_deliver h hcan (fun hsome => hok hsome hcan hfirst)
      · split
        · obtain ⟨hreported, hopened, hcan⟩ := reported_callOk h hcan
          exact hreported.trans' (reported_deliver hreported.accepted hcan (fun _ => hopened))
        · exact reported_refl h

theorem reported_reportOpened
    (h : Runs.run SessionPhase.advance .waiting s.calls = some s.phase) (ok : Bool) :
    Reported s (s.reportOpened ok) := by
  unfold reportOpened
  split
  · exact reported_refl h
  · rename_i hcan
    have hcan : s.canUpcall := by simpa using hcan
    split
    · exact reported_callClose h hcan _ _
    · split
      · exact (reported_callOk h hcan).1
      · exact reported_refl h

/-- The transport of a session that opens first is there once `OnOkSession` was called. -/
theorem onOkCalled_reportOpened (hshaken : s.kind = .tcpClientEx → s.handshakeOk)
    (hcan : (s.reportOpened true).canUpcall) : (s.reportOpened true).onOkCalled := by
  have hfirst : s.kind ≠ .tcpClientEx ∨ s.handshakeOk := by
    by_cases hkind : s.kind = .tcpClientEx
    · exact .inr (hshaken hkind)
    · exact .inl hkind
  unfold reportOpened at hcan ⊢
  by_cases hwas : s.canUpcall
  · simp only [hwas, Bool.not_true, Bool.false_eq_true, if_false, Bool.or_eq_true,
      decide_eq_true_eq, if_pos hfirst]
    unfold callOk
    split
    · assumption
    · rfl
  · simp [hwas] at hcan

theorem reported_reportConnected
    (h : Runs.run SessionPhase.advance .waiting s.calls = some s.phase) (ok : Bool) :
    Reported s (s.reportConnected ok) := by
  unfold reportConnected
  split
  · rename_i hclose
    rw [Bool.and_eq_true] at hclose
    exact reported_callClose h hclose.1 _ _
  · exact reported_refl h

theorem reported_reportTimer
    (h : Runs.run SessionPhase.advance .waiting s.calls = some s.phase) (timeout : Bool) :
    Reported s (s.reportTimer timeout) := by
  unfold reportTimer
  split
  · exact reported_refl h
  · rename_i hcan
    have hcan : s.canUpcall := by simpa using hcan
    split
    · exact reported_callClose h hcan _ _
    · exact (reported_callOk h hcan).1

theorem Polite.proceed {handler : Handler} (h : s.Polite) (hhandler : s.handler = some handler)
    (tick : Int) (shook : Bool) : (s.proceed handler tick shook).Polite := by
  have hnot : handler ≠ .opened true → ∀ {mid : Session}, s.handler = some (.opened true) →
      mid.canUpcall → mid.onOkCalled := by
    intro hne mid hopened
    exact absurd (Option.some.inj (hhandler.symm.trans hopened)) hne
  unfold Session.proceed
  cases handler with
  | receiving trans source => exact h.turn hhandler tick shook
  | received trans source error packet =>
    have hok : packet.isSome → s.canUpcall → s.opensFirst → s.onOkCalled := by
      intro hsome
      obtain ⟨packet, rfl⟩ := Option.isSome_iff_exists.mp hsome
      exact h.received trans source error packet hhandler
    have hreported := reported_reportReceived h.accepted error hok
    dsimp only
    split
    · exact h.of_reported hreported (hnot (by simp)) ⟨rfl, rfl, rfl, rfl⟩ (.inl rfl)
        (.inr ⟨trans, source, rfl⟩)
    · have hfini := (s.reportReceived error packet).unheard_fini
      exact h.of_reported hreported (hnot (by simp))
        ⟨hfini.kind, hfini.canUpcall, hfini.onOkCalled, hfini.calls⟩ (trans_fini _) (.inl rfl)
  | connected ok =>
    exact h.of_reported (reported_reportConnected h.accepted ok) (hnot (by simp))
      ⟨rfl, rfl, rfl, rfl⟩ (.inl rfl) (.inl rfl)
  | opened ok =>
    refine h.of_reported (reported_reportOpened h.accepted ok) ?_ ⟨rfl, rfl, rfl, rfl⟩ (.inl rfl)
      (.inl rfl)
    intro hopened
    rw [hhandler] at hopened
    cases hopened
    exact onOkCalled_reportOpened (h.shaken hhandler)
  | sent =>
    have hreported : Reported s
        (if s.canUpcall then s.upcall (.onSendSession false) else s) := by
      split
      · rename_i hcan
        exact reported_traffic h.accepted hcan (h.sent hhandler) rfl
      · exact reported_refl h.accepted
    exact h.of_reported hreported (hnot (by simp)) ⟨rfl, rfl, rfl, rfl⟩ (.inl rfl) (.inl rfl)
  | closed errorCode sslCode fini =>
    have hreported : Reported s
        (if s.canUpcall then s.callClose errorCode sslCode else s) := by
      split
      · rename_i hcan
        exact reported_callClose h.accepted hcan _ _
      · exact reported_refl h.accepted
    dsimp only
    split
    · have hfini := (if s.canUpcall then s.callClose errorCode sslCode else s).unheard_fini
      exact h.of_reported hreported (hnot (by simp))
        ⟨hfini.kind, hfini.canUpcall, hfini.onOkCalled, hfini.calls⟩ (trans_fini _) (.inl rfl)
    · exact h.of_reported hreported (hnot (by simp)) ⟨rfl, rfl, rfl, rfl⟩ (.inl rfl) (.inl rfl)
  | timer timeout =>
    have hreported := reported_reportTimer h.accepted timeout
    dsimp only
    split
    · exact h.of_reported hreported (hnot (by simp)) ⟨rfl, rfl, rfl, rfl⟩ (.inl rfl) (.inl rfl)
    · have hfini := (s.reportTimer timeout).unheard_fini
      exact h.of_reported hreported (hnot (by simp))
        ⟨hfini.kind, hfini.canUpcall, hfini.onOkCalled, hfini.calls⟩ (trans_fini _) (.inl rfl)

theorem Polite.step {event : SessionEvent} (h : s.Polite) (hstep : s.step event = some next) :
    next.Polite := by
  unfold Session.step at hstep
  split at hstep
  · exact Option.some.inj hstep ▸ h.fini
  · rename_i tick shook handler hhandler
    exact Option.some.inj hstep ▸ h.proceed hhandler tick shook
  · cases hstep
  · cases hstep
  · rename_i hidle
    exact h.begin hidle hstep

/-- Whatever comes, and wherever `Fini` falls, the observer sees a session of the protocol. -/
theorem callbackProtocol_of_run {kind : SessionKind} {setup : Setup} {events : List SessionEvent}
    {final : Session} (hrun : Runs.run step (init kind setup) events = some final) :
    CallbackProtocol final.calls := by
  have hstep : ∀ s event next, Polite s → True → s.step event = some next → Polite next := by
    intro s event next h _ hstep
    exact h.step hstep
  have hpolite := Runs.run_preserves hstep (polite_init kind setup) (Runs.guarded_true _ _) hrun
  exact protocol_of_advance hpolite.accepted

def smallSetup : Setup :=
  ⟨⟨0, 20⟩, 60, false, ⟨1, 64, fun _ => 0⟩, 2, 3, 4, ⟨1, 1⟩, 0⟩

def smallFrame : List UInt8 :=
  [0, 0, 0, 7, 20, 0, 0, 13, 128, 0, 0, 0, 0, 0, 0, 0, 0, 0, 0, 0, 1]

/-- A client connects, gets the version of its peer and a packet, and is closed by its
transport; the timer and the packet behind that go unheard. -/
def exchange : List SessionEvent :=
  [.onConnectOkEx 2 (some 5), .proceed 0 true,
    .onTcpHandshakeOk 5 [0, 0, 0, 7, 20, 0, 0, 14, 128, 0, 0, 0, 0, 0, 0, 0, 0, 0, 0, 0, 0, 1]
      (some ⟨6, 64, fun _ => 0⟩), .proceed 0 true,
    .onInput 6 ⟨1, 1⟩ smallFrame, .proceed 1 true, .proceed 1 true, .proceed 1 true,
    .onSend 6, .proceed 1 true, .onClose 6 104 0, .proceed 2 true,
    .onTimer 4, .onInput 6 ⟨1, 1⟩ smallFrame, .proceed 3 true, .fini]

theorem callbackProtocol_of_run_exchange :
    ∃ final, Runs.run step (init .tcpClientEx smallSetup) exchange = some final ∧
      final.calls.length = 4 ∧ CallbackProtocol final.calls := by
  have hcalls : (Runs.run step (init .tcpClientEx smallSetup) exchange).map
      (fun s => s.calls.length) = some 4 := by decide +kernel
  obtain ⟨final, hrun, hlength⟩ := Option.map_eq_some_iff.mp hcalls
  exact ⟨final, hrun, hlength, callbackProtocol_of_run hrun⟩

end Session

end Pronet.Rtp
