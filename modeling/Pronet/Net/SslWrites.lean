import Pronet.Net.RecvQueue
import Pronet.Net.SslTransport

/-! What holds between and inside the callbacks of a TLS transport. `DoSend` may drop the
registration for writing although a buffer is pending; the first section of `DoRecv` in the
same callback restores it. -/
namespace Pronet.Net

open Library Runs TcpTransport

variable {β : Type*}

namespace Wire

theorem Sending.sendData {done : List (List β × UInt64)} {w : Wire β} (h : Sending done w)
    (hpending : w.trans.pendingWr = false) {buf : List β} (hbuf : buf.isEmpty = false)
    (actionId : UInt64) {trans : TcpTransport β} (hpool : trans.sendPool = w.trans.sendPool) :
    Sending done { w with
      trans := { trans with
        sendPool := trans.sendPool.fill buf
        pendingWr := true
        actionId := actionId }
      accepted := w.accepted ++ [(buf, actionId)] } := by
  cases h with
  | nothing _ hempty haccepted hwritten =>
    have hlength : 0 < buf.length := by
      rw [List.isEmpty_eq_false_iff] at hbuf
      exact List.length_pos_iff.mpr hbuf
    refine .rest buf 0 rfl ?_ hlength ?_ ?_
    · simp [hpool, hempty, SendPool.fill, SendPool.empty, hbuf]
    · simp [haccepted]
    · simp [hwritten]
  | rest _ _ hrest =>
    rw [hpending] at hrest
    cases hrest

end Wire

namespace TcpTransport

/-- What `SendData` does: it refuses, or it fills the free slot. -/
theorem sendData_cases (t : TcpTransport β) (buf : List β) (actionId : UInt64) :
    t.sendData buf actionId = (t, false) ∨
      (t.hasObserver = true ∧ t.pendingWr = false ∧ buf.isEmpty = false ∧
        t.sendData buf actionId =
          ({ t.addWr with
              sendPool := t.addWr.sendPool.fill buf
              pendingWr := true
              actionId := actionId }, true)) := by
  unfold sendData
  cases hempty : buf.isEmpty with
  | true => exact .inl rfl
  | false =>
    cases hopen : t.hasObserver with
    | false => exact .inl rfl
    | true =>
      cases hpending : t.pendingWr with
      | true => exact .inl rfl
      | false => exact .inr ⟨rfl, rfl, rfl, rfl⟩

theorem request_cases (t : TcpTransport β) :
    t.request = t ∨ t.request = { t.addWr with requestOnSend := true } := by
  unfold request
  cases t.hasObserver with
  | false => exact .inl rfl
  | true =>
    cases t.requestOnSend with
    | true => exact .inl rfl
    | false => exact .inr rfl

/-- `mbedtls_ssl_write` takes nothing, a part, or the rest of the buffer. The code that asks
to read takes away the registration for writing. -/
theorem sslOutputData_cases {t : TcpTransport β} {buf : List β} {pos : Nat}
    (hpool : t.sendPool = ⟨[buf], some pos⟩) (result : SslResult) :
    (∃ error trans, t.sslOutputData result = (trans, error, false) ∧ (trans = t ∨ trans = t.removeWr) ∧
      ∀ size, result = .sent size → t.sentBytes (.sent size) = []) ∨
    (∃ size, result = .sent size ∧ ∃ more, pos + more < buf.length ∧
      t.sslOutputData result = ({ t with sendPool := ⟨[buf], some (pos + more)⟩ }, none, false) ∧
      t.sentBytes (.sent size) = (buf.drop pos).take more) ∨
    (∃ size, result = .sent size ∧
      t.sslOutputData result =
        ({ t with sendPool := SendPool.empty, pendingWr := false }, none, true) ∧
      t.sentBytes (.sent size) = buf.drop pos) := by
  cases result with
  | sent size =>
    rcases Wire.outputData_cases hpool (.sent size) with ⟨error, hdata, hsent⟩ |
      ⟨more, hmore, hdata, hsent⟩ | ⟨hdata, hsent⟩
    · exact .inl ⟨error, t, hdata, .inl rfl, fun _ hsize => by cases hsize; exact hsent⟩
    · exact .inr (.inl ⟨size, rfl, more, hmore, hdata, hsent⟩)
    · exact .inr (.inr ⟨size, rfl, hdata, hsent⟩)
  | wantWrite => exact .inl ⟨none, t, rfl, .inl rfl, nofun⟩
  | failed sslCode => exact .inl ⟨_, t, rfl, .inl rfl, nofun⟩
  | wantRead =>
    refine .inl ⟨none, if t.onWr then t.removeWr else t, rfl, ?_, nofun⟩
    split
    · exact .inr rfl
    · exact .inl rfl

end TcpTransport

namespace SslWire

/-- `DoRecv` has yet to register for writing, or the transport is about to close. -/
def Unsettled (w : SslWire β) : Prop :=
  w.trans.recv = .locked 0 ∨ (∃ locals, w.trans.recv = .upcall locals ∧ locals.error = true) ∨
    w.trans.tcp.canUpcall = false

/-- The bytes of a record that `DoRecv` has and has not yet delivered, where it stands. -/
def Draining (w : SslWire β) : Prop :=
  match w.trans.recv with
  | .idle => w.trans.record = [] ∧ w.delivered = w.records.flatten
  | .locked msgSize =>
      msgSize = w.trans.record.length ∧ w.delivered ++ w.trans.record = w.records.flatten
  | .upcall locals => locals.error = true ∨ (locals.msgSize = w.trans.record.length ∧
      w.delivered ++ locals.received ++ w.trans.record = w.records.flatten)
  | .leave msgSize => w.trans.tcp.canUpcall = false ∨
      (msgSize = w.trans.record.length ∧ w.delivered ++ w.trans.record = w.records.flatten)

/-- The next call of `mbedtls_ssl_write` gets the same pointer and the same length. -/
def Repeats (first second : WriteCall β) : Prop :=
  first.result.wants = true →
    second.popped = first.popped ∧ second.pendingPos = first.pendingPos ∧ second.buf = first.buf

structure Inv (w : SslWire β) : Prop where
  registered : w.trans.tcp.hasObserver = true → w.trans.tcp.registeredWr = w.trans.tcp.onWr
  wake : w.trans.tcp.hasObserver = true →
    w.trans.tcp.pendingWr = true ∨ w.trans.tcp.requestOnSend = true →
    w.Unsettled ∨ w.trans.tcp.onWr = true
  dataMode : w.trans.tcp.sendingFd = none
  canUpcall : w.trans.tcp.hasObserver = true → w.trans.tcp.phase = .idle →
    (∀ msgSize, w.trans.recv ≠ .leave msgSize) → w.trans.tcp.canUpcall = true
  locals : ∀ locals, w.trans.tcp.phase = .upcall locals →
    w.trans.tcp.canUpcall = true ∧ Wire.LocalsOk locals
  nested : w.trans.tcp.phase = .idle ∨ w.trans.recv = .idle ∨ w.trans.recv = .locked 0
  sending : ∃ done, Wire.Sending done w.wire ∧
    Wire.nonzero (w.reported ++ w.wire.inFlight) = Wire.nonzero (done.map Prod.snd)
  wanted : ∀ call ∈ w.writes.getLast?, Repeats call (w.writeCall call.result) ∧ call.buf ≠ []
  repeated : w.writes.IsChain Repeats
  pool : w.trans.recvPool.WellFormed ∧
    w.consumed ++ w.trans.recvPool.bytes ++ w.trans.record = w.records.flatten
  draining : w.trans.tcp.hasObserver = true → w.Draining

theorem inv_init {size : Nat} (hsize : 0 < size) (buf : Nat → β) : (init size buf).Inv := by
  refine ⟨fun _ => rfl, ?_, rfl, fun _ _ _ => rfl, ?_, .inl rfl, ⟨[], .nothing rfl rfl rfl rfl, rfl⟩,
    ?_, .nil, ⟨RecvPool.wellFormed_resize hsize buf, rfl⟩, fun _ => ⟨rfl, rfl⟩⟩
  · rintro - (hpending | hrequest)
    · cases hpending
    · cases hrequest
  · intro locals hphase
    cases hphase
  · intro call hcall
    cases hcall

variable {w : SslWire β}

/-- A step of the writing half that leaves the pool alone, or fills it when it is empty. -/
theorem Inv.of_wire (h : w.Inv) {wire : Wire β}
    (hopen : wire.trans.hasObserver = true → w.trans.tcp.hasObserver = true)
    (hclosing : w.trans.tcp.canUpcall = false → wire.trans.canUpcall = false)
    (hregistered : wire.trans.hasObserver = true → wire.trans.registeredWr = wire.trans.onWr)
    (hwake : wire.trans.hasObserver = true →
      wire.trans.pendingWr = true ∨ wire.trans.requestOnSend = true →
      (w.withWire wire).Unsettled ∨ wire.trans.onWr = true)
    (hdata : wire.trans.sendingFd = none)
    (hcan : wire.trans.hasObserver = true → wire.trans.phase = .idle →
      (∀ msgSize, w.trans.recv ≠ .leave msgSize) → wire.trans.canUpcall = true)
    (hlocals : ∀ locals, wire.trans.phase = .upcall locals →
      wire.trans.canUpcall = true ∧ Wire.LocalsOk locals)
    (hnested : wire.trans.phase = .idle ∨ w.trans.recv = .idle ∨ w.trans.recv = .locked 0)
    (hsending : ∃ done, Wire.Sending done wire ∧
      Wire.nonzero (wire.reported ++ wire.inFlight) = Wire.nonzero (done.map Prod.snd))
    (hpool : wire.trans.sendPool = w.trans.tcp.sendPool ∨ w.trans.tcp.sendPool = SendPool.empty) :
    (w.withWire wire).Inv := by
  refine ⟨hregistered, hwake, hdata, hcan, hlocals, hnested, hsending, ?_, h.repeated, h.pool, ?_⟩
  · intro call hcall
    obtain ⟨hrepeats, hbuf⟩ := h.wanted call hcall
    refine ⟨?_, hbuf⟩
    rcases hpool with hsame | hempty
    · unfold writeCall withWire
      dsimp only
      rw [hsame]
      exact hrepeats
    · -- A call that has to be repeated leaves its buffer in the pool.
      intro hwants
      refine absurd (hrepeats hwants).2.2.symm ?_
      unfold writeCall
      dsimp only
      rw [hempty]
      exact hbuf
  · intro hopen'
    have hdraining := h.draining (hopen hopen')
    unfold Draining at hdraining ⊢
    unfold withWire
    dsimp only
    split
    · rename_i hrecv
      rw [hrecv] at hdraining
      exact hdraining
    · rename_i hrecv
      rw [hrecv] at hdraining
      exact hdraining
    · rename_i hrecv
      rw [hrecv] at hdraining
      exact hdraining
    · rename_i hrecv
      rw [hrecv] at hdraining
      exact hdraining.imp_left hclosing

/-- What `Unsettled` says is kept while `DoRecv` does not move. -/
theorem Unsettled.withWire (h : w.Unsettled) {wire : Wire β}
    (hclosing : w.trans.tcp.canUpcall = false → wire.trans.canUpcall = false) :
    (w.withWire wire).Unsettled := by
  rcases h with hlocked | herror | hcan
  · exact .inl hlocked
  · exact .inr (.inl herror)
  · exact .inr (.inr (hclosing hcan))

/-- A step that touches the flags of the writing half only. -/
theorem Inv.of_flags (h : w.Inv) {trans : TcpTransport β}
    (hopen : trans.hasObserver = true → w.trans.tcp.hasObserver = true)
    (hclosing : w.trans.tcp.canUpcall = false → trans.canUpcall = false)
    (hregistered : trans.hasObserver = true → trans.registeredWr = trans.onWr)
    (hwake : trans.hasObserver = true → trans.pendingWr = true ∨ trans.requestOnSend = true →
      w.Unsettled ∨ trans.onWr = true)
    (hsame : trans.sendingFd = w.trans.tcp.sendingFd ∧ trans.sendPool = w.trans.tcp.sendPool ∧
      trans.pendingWr = w.trans.tcp.pendingWr ∧ trans.actionId = w.trans.tcp.actionId)
    (hcan : trans.hasObserver = true → trans.phase = .idle →
      (∀ msgSize, w.trans.recv ≠ .leave msgSize) → trans.canUpcall = true)
    (hphase : ((∀ locals, trans.phase ≠ .upcall locals ∧ w.trans.tcp.phase ≠ .upcall locals) ∧
        (trans.phase = .idle ∨ w.trans.recv = .idle ∨ w.trans.recv = .locked 0)) ∨
      (trans.phase = w.trans.tcp.phase ∧ trans.canUpcall = w.trans.tcp.canUpcall)) :
    (w.withWire { w.wire with trans := trans }).Inv := by
  obtain ⟨hdata, hpool, hpending, hid⟩ := hsame
  obtain ⟨done, hsending, hids⟩ := h.sending
  refine h.of_wire hopen hclosing hregistered ?_ (hdata.trans h.dataMode) hcan ?_ ?_
    ⟨done, hsending.of_eq hpending hpool hid rfl rfl, ?_⟩ (.inl hpool)
  · intro hopen' hflags
    exact (hwake hopen' hflags).imp_left fun hunsettled => hunsettled.withWire hclosing
  · intro locals hlocals
    rcases hphase with ⟨hnone, -⟩ | ⟨hphase, hcan⟩
    · exact absurd hlocals (hnone locals).1
    · obtain ⟨hold, hok⟩ := h.locals locals (hphase.symm.trans hlocals)
      exact ⟨hcan.trans hold, hok⟩
  · rcases hphase with ⟨-, hnested⟩ | ⟨hphase, -⟩
    · exact hnested
    · rcases h.nested with hidle | hnested
      · exact .inl (hphase.trans hidle)
      · exact .inr hnested
  · rw [← hids]
    refine congrArg (fun ids => Wire.nonzero (w.reported ++ ids)) ?_
    unfold Wire.inFlight SslWire.wire
    dsimp only
    rcases hphase with ⟨hnone, -⟩ | ⟨hphase, -⟩
    · split
      · rename_i locals hlocals
        exact absurd hlocals (hnone locals).1
      · split
        · rename_i locals hlocals
          exact absurd hlocals (hnone locals).2
        · rfl
    · rw [hphase]

theorem Inv.sendData (h : w.Inv) (buf : List β) (actionId : UInt64) {next : SslWire β}
    (hstep : (w.wire.step (.sendData buf actionId)).map w.withWire = some next) : next.Inv := by
  simp only [Wire.step, Option.map_some, Option.some.injEq] at hstep
  subst hstep
  rcases sendData_cases w.trans.tcp buf actionId with hrefused | ⟨hopen, hpending, hbuf, haccepted⟩
  · rw [show w.wire.trans.sendData buf actionId = (w.trans.tcp, false) from hrefused]
    exact h
  · rw [show w.wire.trans.sendData buf actionId = _ from haccepted]
    have hadd := Wire.addWr_eq w.trans.tcp (h.registered hopen)
    rw [hadd]
    obtain ⟨done, hsending, hids⟩ := h.sending
    have hempty : w.trans.tcp.sendPool = SendPool.empty := by
      cases hsending with
      | nothing _ hpool => exact hpool
      | rest _ _ hrest =>
        rw [show w.wire.trans.pendingWr = false from hpending] at hrest
        cases hrest
    refine h.of_wire (fun _ => hopen) id (fun _ => rfl) (fun _ _ => .inr rfl) h.dataMode h.canUpcall
      h.locals h.nested ⟨done, ?_, hids⟩ (.inr hempty)
    exact hsending.sendData hpending hbuf actionId rfl

theorem Inv.requestOnSend (h : w.Inv) {next : SslWire β}
    (hstep : (w.wire.step .requestOnSend).map w.withWire = some next) : next.Inv := by
  simp only [Wire.step, Option.map_some, Option.some.injEq] at hstep
  subst hstep
  rcases request_cases w.trans.tcp with hsame | hrequested
  · rw [show w.wire.trans.request = w.trans.tcp from hsame]
    exact h
  · rw [show w.wire.trans.request = _ from hrequested]
    have hadds : w.trans.tcp.hasObserver = true →
        w.trans.tcp.addWr.registeredWr = true ∧ w.trans.tcp.addWr.onWr = true := by
      intro hopen
      rw [Wire.addWr_eq w.trans.tcp (h.registered hopen)]
      exact ⟨rfl, rfl⟩
    have hsame := sameSlot_addWr w.trans.tcp
    have hid : w.trans.tcp.addWr.actionId = w.trans.tcp.actionId := by
      unfold addWr
      split <;> rfl
    have hopens : w.trans.tcp.addWr.hasObserver = true → w.trans.tcp.hasObserver = true :=
      fun hopen => hsame.hasObserver.symm.trans hopen
    refine h.of_flags hopens (fun hcan => hsame.canUpcall.trans hcan) ?_ ?_
      ⟨hsame.sendingFd, hsame.sendPool, hsame.pendingWr, hid⟩ ?_ (.inr ⟨hsame.phase, hsame.canUpcall⟩)
    · intro hopen
      exact (hadds (hopens hopen)).1.trans (hadds (hopens hopen)).2.symm
    · intro hopen _
      exact .inr (hadds (hopens hopen)).2
    · intro hopen hidle hrecv
      exact hsame.canUpcall.trans (h.canUpcall (hopens hopen) (hsame.phase.symm.trans hidle) hrecv)

theorem Inv.upcall (h : w.Inv) {next : SslWire β}
    (hstep : (w.wire.step .upcall).map w.withWire = some next) : next.Inv := by
  obtain ⟨wire, hwire, rfl⟩ := Option.map_eq_some_iff.mp hstep
  simp only [Wire.step] at hwire
  split at hwire
  · rename_i locals hphase
    cases hwire
    obtain ⟨hcan, hlocals⟩ := h.locals locals hphase
    obtain ⟨done, hsending, hids⟩ := h.sending
    have hreported : Wire.nonzero (w.wire.reported ++ Wire.onSendOf (w.trans.tcp.upcallOf locals)) =
        Wire.nonzero (done.map Prod.snd) := by
      rw [← hids, Wire.nonzero_append, Wire.nonzero_append, Wire.onSendOf_upcallOf hcan hlocals]
      unfold Wire.inFlight
      rw [hphase]
      rfl
    have hnested : w.trans.recv = .idle ∨ w.trans.recv = .locked 0 := by
      refine h.nested.resolve_left ?_
      rw [show w.trans.tcp.phase = .upcall locals from hphase]
      simp
    rw [show w.wire.trans = w.trans.tcp from rfl]
    unfold outputUpcall
    cases hcall : w.trans.tcp.upcallOf locals with
    | none =>
      rw [hcall] at hreported
      refine h.of_wire id id h.registered (fun hopen hflags => h.wake hopen hflags) h.dataMode
        (fun _ hidle => by cases hidle) (fun _ hphase => by cases hphase) (.inr hnested)
        ⟨done, hsending.of_eq rfl rfl rfl rfl rfl, ?_⟩ (.inl rfl)
      simpa [Wire.inFlight] using hreported
    | some call =>
      rw [hcall] at hreported
      cases call with
      | onClose errorCode =>
        refine h.of_wire id (fun _ => rfl) h.registered (fun _ _ => .inl (.inr (.inr rfl))) h.dataMode
          (fun _ hidle => by cases hidle) (fun _ hphase => by cases hphase) (.inr hnested)
          ⟨done, hsending.of_eq rfl rfl rfl rfl rfl, ?_⟩ (.inl rfl)
        simpa [Wire.inFlight] using hreported
      | onSend actionId =>
        refine h.of_wire id id h.registered (fun hopen hflags => h.wake hopen hflags) h.dataMode
          (fun _ hidle => by cases hidle) (fun _ hphase => by cases hphase) (.inr hnested)
          ⟨done, hsending.of_eq rfl rfl rfl rfl rfl, ?_⟩ (.inl rfl)
        simpa [Wire.inFlight] using hreported
  · cases hwire

theorem Inv.deregister (h : w.Inv) {next : SslWire β}
    (hstep : (w.wire.step .deregister).map w.withWire = some next) : next.Inv := by
  obtain ⟨wire, hwire, rfl⟩ := Option.map_eq_some_iff.mp hstep
  simp only [Wire.step] at hwire
  split at hwire
  · rename_i hphase
    cases hwire
    have hphase : w.trans.tcp.phase = .deregister := hphase
    have hnested : w.trans.recv = .idle ∨ w.trans.recv = .locked 0 := by
      refine h.nested.resolve_left ?_
      rw [hphase]
      simp
    have hnot : ∀ locals, OutputPhase.leave ≠ .upcall locals ∧ w.trans.tcp.phase ≠ .upcall locals :=
      fun locals => ⟨by simp, by simp [hphase]⟩
    rw [show w.wire.trans = w.trans.tcp from rfl]
    unfold outputDeregister
    dsimp only
    split
    · rename_i hflags
      simp only [Bool.and_eq_true, Bool.not_eq_true'] at hflags
      refine h.of_flags id id (fun _ => rfl) ?_ ⟨rfl, rfl, rfl, rfl⟩ (fun _ hidle => by cases hidle)
        (.inl ⟨hnot, .inr hnested⟩)
      intro _ hwake
      simp [removeWr, hflags.1.2, hflags.2] at hwake
    · exact h.of_flags id id h.registered h.wake ⟨rfl, rfl, rfl, rfl⟩ (fun _ hidle => by cases hidle)
        (.inl ⟨hnot, .inr hnested⟩)
  · cases hwire

/-- `Fini`, in whatever phase the callback is left. -/
theorem Inv.close (h : w.Inv) {trans : TcpTransport β} (hsame : trans.sendingFd = w.trans.tcp.sendingFd ∧
      trans.sendPool = w.trans.tcp.sendPool ∧ trans.pendingWr = w.trans.tcp.pendingWr ∧
      trans.actionId = w.trans.tcp.actionId)
    (hclosed : trans.hasObserver = false) (hcan : trans.canUpcall = w.trans.tcp.canUpcall)
    (hphase : ((∀ locals, trans.phase ≠ .upcall locals ∧ w.trans.tcp.phase ≠ .upcall locals) ∧
        (trans.phase = .idle ∨ w.trans.recv = .idle ∨ w.trans.recv = .locked 0)) ∨
      (trans.phase = w.trans.tcp.phase ∧ trans.canUpcall = w.trans.tcp.canUpcall)) :
    (w.withWire { w.wire with trans := trans }).Inv := by
  have hnever : trans.hasObserver ≠ true := by simp [hclosed]
  exact h.of_flags (fun hopen => absurd hopen hnever) (fun hfalse => hcan.trans hfalse)
    (fun hopen => absurd hopen hnever) (fun hopen => absurd hopen hnever) hsame
    (fun hopen => absurd hopen hnever) hphase

theorem fini_fields (t : TcpTransport β) : t.fini.hasObserver = false ∧ t.fini.canUpcall = t.canUpcall ∧
    t.fini.phase = t.phase ∧ t.fini.sendingFd = t.sendingFd ∧ t.fini.sendPool = t.sendPool ∧
    t.fini.pendingWr = t.pendingWr ∧ t.fini.actionId = t.actionId := by
  unfold TcpTransport.fini
  cases hopen : t.hasObserver with
  | false => exact ⟨hopen, rfl, rfl, rfl, rfl, rfl, rfl⟩
  | true => exact ⟨rfl, rfl, rfl, rfl, rfl, rfl, rfl⟩

theorem Inv.leave (h : w.Inv) {next : SslWire β}
    (hstep : (w.wire.step .leave).map w.withWire = some next) : next.Inv := by
  obtain ⟨wire, hwire, rfl⟩ := Option.map_eq_some_iff.mp hstep
  simp only [Wire.step] at hwire
  split at hwire
  · rename_i hphase
    cases hwire
    have hphase : w.trans.tcp.phase = .leave := hphase
    have hnot : ∀ locals, OutputPhase.idle ≠ .upcall locals ∧ w.trans.tcp.phase ≠ .upcall locals :=
      fun locals => ⟨by simp, by simp [hphase]⟩
    rw [show w.wire.trans = w.trans.tcp from rfl]
    unfold outputLeave
    dsimp only
    by_cases hcan : w.trans.tcp.canUpcall = true
    · rw [if_neg (by simp [hcan])]
      exact h.of_flags id id h.registered h.wake ⟨rfl, rfl, rfl, rfl⟩ (fun _ _ _ => hcan)
        (.inl ⟨hnot, .inl rfl⟩)
    · rw [if_pos (by simp [hcan])]
      obtain ⟨hclosed, hcan', hphase', hfd, hpool, hpending, hid⟩ :=
        fini_fields { w.trans.tcp with phase := .idle }
      refine h.close ⟨hfd, hpool, hpending, hid⟩ hclosed hcan' (.inl ⟨?_, .inl hphase'⟩)
      intro locals
      exact ⟨by rw [hphase']; simp, (hnot locals).2⟩
  · cases hwire

theorem Inv.fini (h : w.Inv) {next : SslWire β}
    (hstep : (w.wire.step .fini).map w.withWire = some next) : next.Inv := by
  simp only [Wire.step, Option.map_some, Option.some.injEq] at hstep
  subst hstep
  obtain ⟨hclosed, hcan, hphase, hfd, hpool, hpending, hid⟩ := fini_fields w.trans.tcp
  exact h.close ⟨hfd, hpool, hpending, hid⟩ hclosed hcan (.inr ⟨hphase, hcan⟩)

theorem between_iff : w.between = true ↔ w.trans.tcp.phase = .idle ∧ w.trans.recv = .idle := by
  unfold between
  split
  · rename_i hphase hrecv
    simp [hphase, hrecv]
  · rename_i hnot
    simp only [Bool.false_eq_true, false_iff]
    exact fun hboth => hnot hboth.1 hboth.2

theorem Inv.onClose (h : w.Inv) {next : SslWire β}
    (hstep : (if w.between then (w.wire.step .close).map w.withWire else none) = some next) :
    next.Inv := by
  obtain ⟨hbetween, hstep⟩ := Option.ite_none_right_eq_some.mp hstep
  obtain ⟨hidle, hrecv⟩ := between_iff.mp hbetween
  have hclose : w.wire.step .close =
      some { w.wire with trans := { w.trans.tcp with canUpcall := false, phase := .leave } } := by
    simp only [Wire.step]
    exact if_pos hidle
  rw [hclose, Option.map_some, Option.some.injEq] at hstep
  subst hstep
  refine h.of_flags id (fun _ => rfl) h.registered ?_ ⟨rfl, rfl, rfl, rfl⟩ (fun _ hphase => by cases hphase)
    (.inl ⟨fun locals => ⟨by simp, by simp [hidle]⟩, .inr (.inl hrecv)⟩)
  intro hopen hflags
  refine (h.wake hopen hflags).imp_left fun hunsettled => ?_
  rcases hunsettled with hlocked | ⟨locals, herror, -⟩ | hcan
  · rw [hrecv] at hlocked
    cases hlocked
  · rw [hrecv] at herror
    cases herror
  · exact .inr (.inr hcan)

theorem Inv.onInput (h : w.Inv) (hidle : w.trans.tcp.phase = .idle) (hrecv : w.trans.recv = .idle) :
    SslWire.Inv { w with trans := { w.trans with recv := .locked 0 } } := by
  refine ⟨h.registered, fun _ _ => .inl (.inl rfl), h.dataMode, ?_, h.locals, .inr (.inr rfl), h.sending,
    h.wanted, h.repeated, h.pool, ?_⟩
  · intro hopen _ _
    refine h.canUpcall hopen hidle fun msgSize => ?_
    rw [hrecv]
    simp
  · intro hopen
    have hdraining := h.draining hopen
    unfold Draining at hdraining ⊢
    rw [hrecv] at hdraining
    dsimp only
    rw [hdraining.1, List.append_nil]
    exact ⟨rfl, hdraining.2⟩

/-- What a section of `DoSend` has to keep; `DoRecv` comes next. -/
theorem Inv.of_output (h : w.Inv) (hidle : w.trans.tcp.phase = .idle) (hrecv : w.trans.recv = .idle)
    {tcp : TcpTransport β} {written : List β} {popped : Nat} {writes : List (WriteCall β)}
    (hflags : tcp.hasObserver = w.trans.tcp.hasObserver ∧ tcp.canUpcall = w.trans.tcp.canUpcall ∧
      tcp.sendingFd = w.trans.tcp.sendingFd)
    (hregistered : tcp.hasObserver = true → tcp.registeredWr = tcp.onWr)
    (hlocals : ∀ locals, tcp.phase = .upcall locals → tcp.canUpcall = true ∧ Wire.LocalsOk locals)
    (hsending : ∃ done, Wire.Sending done ⟨tcp, written, w.accepted, w.reported⟩ ∧
      Wire.nonzero (w.reported ++ Wire.inFlight ⟨tcp, written, w.accepted, w.reported⟩) =
        Wire.nonzero (done.map Prod.snd))
    (hwanted : ∀ call ∈ writes.getLast?, Repeats call
      ⟨popped, tcp.sendPool.pendingPos, tcp.sendPool.preSend, call.result⟩ ∧ call.buf ≠ [])
    (hrepeated : writes.IsChain Repeats) :
    SslWire.Inv { w with
      trans := { w.trans with tcp := tcp, recv := .locked 0 }
      written := written
      popped := popped
      writes := writes } := by
  obtain ⟨hopens, hcan, hdata⟩ := hflags
  have hdraining := (h.onInput hidle hrecv).draining
  refine ⟨hregistered, fun _ _ => .inl (.inl rfl), hdata.trans h.dataMode, ?_, hlocals, .inr (.inr rfl),
    hsending, hwanted, hrepeated, h.pool, fun hopen => hdraining (hopens.symm.trans hopen)⟩
  intro hopen _ _
  refine hcan.trans (h.canUpcall (hopens.symm.trans hopen) hidle fun msgSize => ?_)
  rw [hrecv]
  simp

/-- The world after a section of `DoSend`. -/
def outputs (w : SslWire β) (result : SslResult) : SslWire β :=
  { w with
    trans := { w.trans with tcp := w.trans.tcp.doSendLocked result, recv := .locked 0 }
    written := w.written ++ w.sentBytes result
    popped := if w.callsWrite && (w.trans.tcp.sslOutputData result).2.2 then w.popped + 1 else w.popped
    writes := if w.callsWrite then w.writes ++ [w.writeCall result] else w.writes }

/-- `DoSend` without a buffer answers a request, or deregisters. -/
theorem Inv.output_empty (h : w.Inv) (hidle : w.trans.tcp.phase = .idle) (hrecv : w.trans.recv = .idle)
    (hopen : w.trans.tcp.hasObserver = true) (hpool : w.trans.tcp.sendPool = SendPool.empty)
    (hpending : w.trans.tcp.pendingWr = false) (result : SslResult) : (w.outputs result).Inv := by
  obtain ⟨done, hsending, hids⟩ := h.sending
  have hempty : w.trans.tcp.sendPool.preSend.isEmpty = true := by
    rw [hpool]
    rfl
  have hcalls : w.callsWrite = false := by
    unfold callsWrite
    rw [hempty, Bool.not_true, Bool.and_false]
  have hsent : w.sentBytes result = [] := by
    unfold sentBytes
    split
    · rw [hcalls, if_neg (by decide)]
    · rfl
  have hnone : w.wire.inFlight = [] := by
    unfold Wire.inFlight wire
    rw [hidle]
  rw [hnone, List.append_nil] at hids
  unfold outputs doSendLocked
  rw [hsent, hcalls, List.append_nil, if_neg (by simp [hopen]), if_pos hempty]
  dsimp only
  have hcan := h.canUpcall hopen hidle (fun msgSize => by rw [hrecv]; simp)
  by_cases hrequest : (!w.trans.tcp.requestOnSend) = true
  · rw [if_pos hrequest]
    have hflight : ∀ trans : TcpTransport β, trans.phase = w.trans.tcp.phase →
        Wire.nonzero (w.reported ++ Wire.inFlight ⟨trans, w.written, w.accepted, w.reported⟩) =
          Wire.nonzero (done.map Prod.snd) := by
      intro trans hphase
      unfold Wire.inFlight
      rw [hphase, hidle, List.append_nil]
      exact hids
    split
    · refine h.of_output hidle hrecv ⟨rfl, rfl, rfl⟩ (fun _ => rfl) h.locals
        ⟨done, hsending.of_eq hpending.symm rfl rfl rfl rfl, ?_⟩ h.wanted h.repeated
      exact hflight _ rfl
    · refine h.of_output hidle hrecv ⟨rfl, rfl, rfl⟩ h.registered h.locals
        ⟨done, hsending.of_eq hpending.symm rfl rfl rfl rfl, ?_⟩ h.wanted h.repeated
      exact hflight _ rfl
  · rw [if_neg hrequest]
    refine h.of_output hidle hrecv ⟨rfl, rfl, rfl⟩ h.registered ?_
      ⟨done, hsending.of_eq hpending.symm rfl rfl rfl rfl, ?_⟩ h.wanted h.repeated
    · intro locals hphase
      cases hphase
      exact ⟨hcan, .inr rfl⟩
    · rw [← hids]
      simp [Wire.inFlight, takeLocals, Wire.nonzero]

/-- `DoSend` with a buffer. -/
theorem Inv.output_rest (h : w.Inv) (hidle : w.trans.tcp.phase = .idle) (hrecv : w.trans.recv = .idle)
    (hopen : w.trans.tcp.hasObserver = true) {done : List (List β × UInt64)} {buf : List β} {pos : Nat}
    (hpending : w.trans.tcp.pendingWr = true) (hpool : w.trans.tcp.sendPool = ⟨[buf], some pos⟩)
    (hpos : pos < buf.length) (haccepted : w.accepted = done ++ [(buf, w.trans.tcp.actionId)])
    (hwritten : w.written = Wire.bytesOf done ++ buf.take pos)
    (hids : Wire.nonzero w.reported = Wire.nonzero (done.map Prod.snd)) (result : SslResult) :
    (w.outputs result).Inv := by
  have hrest : w.trans.tcp.sendPool.preSend = buf.drop pos := by
    rw [hpool]
    rfl
  have hne : buf.drop pos ≠ [] := by
    rw [ne_eq, List.drop_eq_nil_iff]
    omega
  have hnonempty : w.trans.tcp.sendPool.preSend.isEmpty = false := by
    rw [hrest, List.isEmpty_eq_false_iff]
    exact hne
  have hcalls : w.callsWrite = true := by
    unfold callsWrite
    rw [hopen, hnonempty]
    rfl
  have hcan := h.canUpcall hopen hidle (fun msgSize => by rw [hrecv]; simp)
  have hrepeated : (w.writes ++ [w.writeCall result]).IsChain Repeats := by
    refine List.isChain_append.mpr ⟨h.repeated, .singleton _, ?_⟩
    intro call hcall next hnext
    cases hnext
    exact (h.wanted call hcall).1
  unfold outputs doSendLocked
  rw [hcalls, if_neg (by simp [hopen]), if_neg (by simp [hnonempty]), if_pos rfl]
  dsimp only
  rcases sslOutputData_cases hpool result with ⟨error, trans, hdata, hsame, hnothing⟩ |
    ⟨size, rfl, more, hmore, hdata, hbytes⟩ | ⟨size, rfl, hdata, hbytes⟩
  · have hsent : w.sentBytes result = [] := by
      unfold sentBytes
      split
      · rename_i size
        rw [if_pos hcalls]
        exact hnothing size rfl
      · rfl
    have hregistered : trans.hasObserver = true → trans.registeredWr = trans.onWr := by
      rcases hsame with rfl | rfl
      · exact h.registered
      · exact fun _ => rfl
    have hfields : trans.hasObserver = w.trans.tcp.hasObserver ∧
        trans.canUpcall = w.trans.tcp.canUpcall ∧ trans.sendingFd = w.trans.tcp.sendingFd ∧
        trans.sendPool = w.trans.tcp.sendPool ∧ trans.pendingWr = w.trans.tcp.pendingWr ∧
        trans.actionId = w.trans.tcp.actionId := by
      rcases hsame with rfl | rfl <;> exact ⟨rfl, rfl, rfl, rfl, rfl, rfl⟩
    obtain ⟨hopens, hcan', hfd, hpool', hpending', hid⟩ := hfields
    rw [hdata, hsent, List.append_nil]
    refine h.of_output hidle hrecv ⟨hopens, hcan', hfd⟩ hregistered ?_ ⟨done, ?_, ?_⟩ ?_ hrepeated
    · intro locals hphase
      cases hphase
      exact ⟨hcan'.trans hcan, .inr rfl⟩
    · exact .rest buf pos (hpending'.trans hpending) (hpool'.trans hpool) hpos
        (by rw [haccepted]; exact congrArg (fun id => done ++ [(buf, id)]) hid.symm) hwritten
    · rw [Wire.nonzero_append, hids]
      simp [Wire.inFlight, takeLocals, Wire.nonzero]
    · intro call hcall
      rw [List.getLast?_concat] at hcall
      cases hcall
      refine ⟨fun _ => ⟨rfl, ?_, ?_⟩, by rw [writeCall, hrest]; exact hne⟩
      · exact congrArg SendPool.pendingPos hpool'
      · exact congrArg SendPool.preSend hpool'
  · have hsent : w.sentBytes (.sent size) = (buf.drop pos).take more := by
      unfold sentBytes
      dsimp only
      rw [if_pos hcalls, hbytes]
    rw [hdata, hsent]
    refine h.of_output hidle hrecv ⟨rfl, rfl, rfl⟩ h.registered ?_ ⟨done, ?_, ?_⟩ ?_ hrepeated
    · intro locals hphase
      cases hphase
      exact ⟨hcan, .inr rfl⟩
    · refine .rest buf (pos + more) hpending rfl hmore haccepted ?_
      rw [hwritten, List.append_assoc, List.take_add]
    · rw [Wire.nonzero_append, hids]
      simp [Wire.inFlight, takeLocals, Wire.nonzero]
    · intro call hcall
      rw [List.getLast?_concat] at hcall
      cases hcall
      exact ⟨fun hwants => (by cases hwants), by rw [writeCall, hrest]; exact hne⟩
  · have hsent : w.sentBytes (.sent size) = buf.drop pos := by
      unfold sentBytes
      dsimp only
      rw [if_pos hcalls, hbytes]
    rw [hdata, hsent]
    refine h.of_output hidle hrecv ⟨rfl, rfl, rfl⟩ h.registered ?_
      ⟨done ++ [(buf, w.trans.tcp.actionId)], ?_, ?_⟩ ?_ hrepeated
    · intro locals hphase
      cases hphase
      exact ⟨hcan, .inl ⟨rfl, rfl⟩⟩
    · refine .nothing rfl rfl haccepted ?_
      rw [hwritten, List.append_assoc, List.take_append_drop, Wire.bytesOf_append]
      simp [Wire.bytesOf]
    · rw [Wire.nonzero_append, hids, List.map_append, Wire.nonzero_append]
      rfl
    · intro call hcall
      rw [List.getLast?_concat] at hcall
      cases hcall
      exact ⟨fun hwants => (by cases hwants), by rw [writeCall, hrest]; exact hne⟩

theorem Inv.onOutput (h : w.Inv) (hidle : w.trans.tcp.phase = .idle) (hrecv : w.trans.recv = .idle)
    (result : SslResult) : (w.outputs result).Inv := by
  cases hopen : w.trans.tcp.hasObserver with
  | false =>
    have hcalls : w.callsWrite = false := by
      unfold callsWrite
      rw [hopen]
      rfl
    have hsent : w.sentBytes result = [] := by
      unfold sentBytes
      split
      · rw [hcalls, if_neg (by decide)]
      · rfl
    have hsame : w.trans.tcp.doSendLocked result = w.trans.tcp := by
      unfold doSendLocked
      rw [hopen]
      rfl
    unfold outputs
    rw [hsame, hsent, hcalls, List.append_nil]
    exact h.onInput hidle hrecv
  | true =>
    obtain ⟨done, hsending, hids⟩ := h.sending
    cases hsending with
    | nothing hpending hpool _ _ => exact h.output_empty hidle hrecv hopen hpool hpending result
    | rest buf pos hpending hpool hpos haccepted hwritten =>
      have hnone : w.wire.inFlight = [] := by
        unfold Wire.inFlight wire
        rw [hidle]
      rw [hnone, List.append_nil] at hids
      exact h.output_rest hidle hrecv hopen hpending hpool hpos haccepted hwritten hids result

/-- `mbedtls_ssl_read` returns the beginning of what is left of the record, or of a new one. -/
theorem sslRead_record {record : List β} {size : Nat} {found : ReadResult β} {bytes rest : List β}
    (h : sslRead record size found = (.record bytes, rest)) :
    bytes.length ≤ size ∧ ∃ begun, bytes ++ rest = record ++ begun ∧
      begun = if record.isEmpty then (match found with
        | .record all => all
        | _ => []) else [] := by
  unfold sslRead at h
  cases record with
  | nil =>
    simp only [List.isEmpty_nil, if_true] at h
    cases found with
    | record all =>
      cases h
      exact ⟨List.length_take_le _ _, all, List.take_append_drop _ _, rfl⟩
    | _ => cases h
  | cons byte record =>
    rw [if_neg (by simp)] at h
    cases h
    exact ⟨List.length_take_le _ _, [], by rw [List.append_nil]; exact List.take_append_drop _ _, rfl⟩

theorem sslRead_other {record : List β} {size : Nat} {found found' : ReadResult β} {rest : List β}
    (h : sslRead record size found = (found', rest)) (hother : ∀ bytes, found' ≠ .record bytes) :
    record = [] ∧ rest = [] ∧ found = found' := by
  unfold sslRead at h
  cases record with
  | nil =>
    simp only [List.isEmpty_nil, if_true] at h
    cases found with
    | record all =>
      cases h
      exact absurd rfl (hother _)
    | _ =>
      cases h
      exact ⟨rfl, rfl, rfl⟩
  | cons byte record =>
    rw [if_neg (by simp)] at h
    cases h
    exact absurd rfl (hother _)

/-- The registration at the end of the section: what is pending has its handler, unless the
connection is given up. -/
theorem register_spec (t : SslTransport β) (locals : RecvLocals β) (regWr able : Bool) :
    ∃ tcp locals', (if !locals.error && !t.tcp.onWr &&
        (regWr || t.tcp.pendingWr || t.tcp.requestOnSend) then
        if able then { t with tcp := t.tcp.addWr, recv := .upcall locals }
        else { t with recv := .upcall { locals with error := true } }
      else { t with recv := .upcall locals }) = { t with tcp := tcp, recv := .upcall locals' } ∧
      (tcp = t.tcp ∨ tcp = t.tcp.addWr) ∧
      (locals'.error = true ∨ (t.tcp.pendingWr = true ∨ t.tcp.requestOnSend = true → tcp.onWr = true)) ∧
      (locals'.error = true ∨ locals' = locals) := by
  split
  · split
    · refine ⟨_, locals, rfl, .inr rfl, .inr fun _ => ?_, .inr rfl⟩
      unfold addWr
      split
      · assumption
      · rfl
    · exact ⟨_, { locals with error := true }, rfl, .inl rfl, .inl rfl, .inl rfl⟩
  · rename_i hnot
    refine ⟨_, locals, rfl, .inl rfl, ?_, .inr rfl⟩
    cases herror : locals.error with
    | true => exact .inl rfl
    | false =>
      refine .inr fun hflags => ?_
      rw [herror, Bool.not_false, Bool.true_and] at hnot
      cases hon : t.tcp.onWr with
      | true => rfl
      | false =>
        rw [hon, Bool.not_false, Bool.true_and, Bool.or_eq_true, Bool.or_eq_true] at hnot
        exact absurd (hflags.elim (fun hpending => .inl (.inr hpending)) .inr) hnot

/-- What a section of `DoRecv` reads goes into the pool; what it leaves is held back. -/
theorem doRecvLocked_spec (hopen : w.trans.tcp.hasObserver = true) (hpool : w.trans.recvPool.WellFormed)
    (msgSize : Nat) (found : ReadResult β) (able : Bool) :
    ∃ tcp locals recvPool record got,
      w.trans.doRecvLocked msgSize found able = ⟨tcp, recvPool, record, .upcall locals⟩ ∧
      (tcp = w.trans.tcp ∨ tcp = w.trans.tcp.addWr) ∧
      (locals.error = true ∨
        (w.trans.tcp.pendingWr = true ∨ w.trans.tcp.requestOnSend = true → tcp.onWr = true)) ∧
      (recvPool.WellFormed ∧ recvPool.bytes = w.trans.recvPool.bytes ++ got) ∧
      got ++ record = w.trans.record ++ (w.begins found).flatten ∧
      (locals.error = true ∨ (locals.received = got ∧ locals.msgSize = record.length)) := by
  unfold SslTransport.doRecvLocked
  rw [if_neg (by simp [hopen])]
  dsimp only
  by_cases hidle : w.trans.recvPool.continuousIdleSize = 0
  · have hnone : w.begins found = [] := by
      unfold begins
      rw [hidle]
      simp
    rw [if_pos hidle, hnone]
    exact ⟨_, _, _, _, [], rfl, .inl rfl, .inl rfl, ⟨hpool, (List.append_nil _).symm⟩,
      (List.append_nil _).symm, .inl rfl⟩
  · rw [if_neg hidle]
    have hmin : (if msgSize = 0 || w.trans.recvPool.continuousIdleSize < msgSize then
        w.trans.recvPool.continuousIdleSize else msgSize) ≤ w.trans.recvPool.continuousIdleSize := by
      split
      · exact Nat.le_refl _
      · rename_i hnot
        simp only [Bool.or_eq_true, decide_eq_true_eq, not_or, Nat.not_lt] at hnot
        exact hnot.2
    generalize (if (msgSize = 0 || w.trans.recvPool.continuousIdleSize < msgSize : Bool) = true then
      w.trans.recvPool.continuousIdleSize else msgSize) = minSize at hmin ⊢
    have hbegins : (w.begins found).flatten = if w.trans.record.isEmpty then (match found with
        | .record all => all
        | _ => []) else [] := by
      unfold begins
      cases hrecord : w.trans.record.isEmpty with
      | true => cases found <;> simp [hopen, hidle]
      | false => simp
    cases hread : sslRead w.trans.record minSize found with
    | mk found' record =>
      dsimp only
      have hother : (∀ bytes, found' ≠ .record bytes) →
          [] ++ record = w.trans.record ++ (w.begins found).flatten := by
        intro hnot
        obtain ⟨hrecord, hrest, rfl⟩ := sslRead_other hread hnot
        rw [hbegins, hrecord, hrest]
        cases found with
        | record bytes => exact absurd rfl (hnot bytes)
        | _ => rfl
      cases found' with
      | record bytes =>
        obtain ⟨hlength, begun, hsplit, hbegun⟩ := sslRead_record hread
        rw [← hbegins] at hbegun
        subst hbegun
        dsimp only
        by_cases hempty : bytes.isEmpty = true
        · simp only [hempty, if_true]
          rw [List.isEmpty_iff.mp hempty] at hsplit
          obtain ⟨tcp, locals, heq, htcp, hwake, hlocals⟩ :=
            register_spec { w.trans with record := record } ⟨true, [], msgSize⟩ false able
          exact ⟨tcp, locals, _, _, [], heq, htcp, hwake, ⟨hpool, (List.append_nil _).symm⟩, hsplit,
            .inl (hlocals.elim id fun hsame => by rw [hsame])⟩
        · simp only [hempty, Bool.false_eq_true, if_false]
          have hbytes : bytes ≠ [] := fun hnil => hempty (List.isEmpty_iff.mpr hnil)
          obtain ⟨hformed, hreceived, -⟩ := RecvPool.receive_spec hpool hbytes (hlength.trans hmin)
          obtain ⟨tcp, locals, heq, htcp, hwake, hlocals⟩ :=
            register_spec { w.trans with record := record, recvPool := w.trans.recvPool.receive bytes }
              ⟨false, bytes, record.length⟩ false able
          exact ⟨tcp, locals, _, _, bytes, heq, htcp, hwake, ⟨hformed, hreceived⟩, hsplit,
            hlocals.imp_right fun hsame => by rw [hsame]; exact ⟨rfl, rfl⟩⟩
      | wantRead =>
        obtain ⟨tcp, locals, heq, htcp, hwake, hlocals⟩ :=
          register_spec { w.trans with record := record } ⟨false, [], 0⟩ false able
        refine ⟨tcp, locals, _, _, [], heq, htcp, hwake, ⟨hpool, (List.append_nil _).symm⟩,
          hother nofun, hlocals.imp_right fun hsame => ?_⟩
        obtain ⟨-, hrest, -⟩ := sslRead_other hread nofun
        rw [hsame, hrest]
        exact ⟨rfl, rfl⟩
      | wantWrite =>
        obtain ⟨tcp, locals, heq, htcp, hwake, hlocals⟩ :=
          register_spec { w.trans with record := record } ⟨false, [], 0⟩ true able
        refine ⟨tcp, locals, _, _, [], heq, htcp, hwake, ⟨hpool, (List.append_nil _).symm⟩,
          hother nofun, hlocals.imp_right fun hsame => ?_⟩
        obtain ⟨-, hrest, -⟩ := sslRead_other hread nofun
        rw [hsame, hrest]
        exact ⟨rfl, rfl⟩
      | closed =>
        obtain ⟨tcp, locals, heq, htcp, hwake, hlocals⟩ :=
          register_spec { w.trans with record := record } ⟨true, [], msgSize⟩ false able
        exact ⟨tcp, locals, _, _, [], heq, htcp, hwake, ⟨hpool, (List.append_nil _).symm⟩,
          hother nofun, .inl (hlocals.elim id fun hsame => by rw [hsame])⟩
      | failed sslCode =>
        obtain ⟨tcp, locals, heq, htcp, hwake, hlocals⟩ :=
          register_spec { w.trans with record := record } ⟨true, [], msgSize⟩ false able
        exact ⟨tcp, locals, _, _, [], heq, htcp, hwake, ⟨hpool, (List.append_nil _).symm⟩,
          hother nofun, .inl (hlocals.elim id fun hsame => by rw [hsame])⟩

theorem Inv.recv (h : w.Inv) (hidle : w.trans.tcp.phase = .idle) {msgSize : Nat}
    (hrecv : w.trans.recv = .locked msgSize) (found : ReadResult β) (able : Bool) :
    SslWire.Inv { w with
      trans := w.trans.doRecvLocked msgSize found able
      records := w.records ++ w.begins found } := by
  have hcan : w.trans.tcp.hasObserver = true → w.trans.tcp.canUpcall = true :=
    fun hopen => h.canUpcall hopen hidle fun size => by rw [hrecv]; simp
  cases hopen : w.trans.tcp.hasObserver with
  | false =>
    have hbegins : w.begins found = [] := by
      unfold begins
      rw [hopen]
      rfl
    have hclosed : w.trans.doRecvLocked msgSize found able = { w.trans with recv := .idle } := by
      unfold SslTransport.doRecvLocked
      rw [hopen]
      rfl
    have hnever : w.trans.tcp.hasObserver ≠ true := by simp [hopen]
    rw [hclosed, hbegins, List.append_nil]
    exact ⟨h.registered, fun hopen' => absurd hopen' hnever, h.dataMode,
      fun hopen' => absurd hopen' hnever, h.locals, .inl hidle, h.sending, h.wanted, h.repeated, h.pool,
      fun hopen' => absurd hopen' hnever⟩
  | true =>
    obtain ⟨tcp, locals, recvPool, record, got, heq, htcp, hwake, ⟨hformed, hbytes⟩, hsplit, hlocals⟩ :=
      doRecvLocked_spec hopen h.pool.1 msgSize found able
    have hadded := Wire.addWr_eq w.trans.tcp (h.registered hopen)
    have hregistered : tcp.registeredWr = tcp.onWr := by
      rcases htcp with rfl | rfl
      · exact h.registered hopen
      · rw [hadded]
    have hsame : tcp.sendingFd = w.trans.tcp.sendingFd ∧ tcp.sendPool = w.trans.tcp.sendPool ∧
        tcp.pendingWr = w.trans.tcp.pendingWr ∧ tcp.actionId = w.trans.tcp.actionId ∧
        tcp.requestOnSend = w.trans.tcp.requestOnSend ∧ tcp.canUpcall = w.trans.tcp.canUpcall ∧
        tcp.phase = w.trans.tcp.phase := by
      rcases htcp with rfl | rfl
      · exact ⟨rfl, rfl, rfl, rfl, rfl, rfl, rfl⟩
      · rw [hadded]
        exact ⟨rfl, rfl, rfl, rfl, rfl, rfl, rfl⟩
    obtain ⟨hfd, hpool, hpending, hid, hrequest, hcan', hphase⟩ := hsame
    obtain ⟨done, hsending, hids⟩ := h.sending
    have hdraining := h.draining hopen
    unfold Draining at hdraining
    rw [hrecv] at hdraining
    dsimp only at hdraining
    rw [heq]
    refine ⟨fun _ => hregistered, ?_, hfd.trans h.dataMode, fun _ _ _ => hcan'.trans (hcan hopen), ?_,
      .inl (hphase.trans hidle), ⟨done, hsending.of_eq hpending hpool hid rfl rfl, ?_⟩, ?_, h.repeated,
      ⟨hformed, ?_⟩, ?_⟩
    · intro _ hflags
      rcases hwake with herror | hwake
      · exact .inl (.inr (.inl ⟨locals, rfl, herror⟩))
      · dsimp only at hflags
        rw [hpending, hrequest] at hflags
        exact .inr (hwake hflags)
    · intro locals' hupcall
      exact absurd ((hphase.trans hidle).symm.trans hupcall) (by simp)
    · rw [← hids]
      refine congrArg (fun ids => Wire.nonzero (w.reported ++ ids)) ?_
      unfold Wire.inFlight wire
      dsimp only
      rw [hphase]
    · intro call hcall
      obtain ⟨hrepeats, hbuf⟩ := h.wanted call hcall
      refine ⟨?_, hbuf⟩
      unfold writeCall
      dsimp only
      rw [hpool]
      exact hrepeats
    · rw [List.flatten_append, ← h.pool.2, hbytes]
      simp only [List.append_assoc]
      rw [hsplit]
    · intro _
      refine hlocals.imp_right ?_
      rintro ⟨rfl, hsize⟩
      refine ⟨hsize, ?_⟩
      rw [List.flatten_append, ← hdraining.2, List.append_assoc, List.append_assoc, hsplit]

theorem Inv.recvUpcall (h : w.Inv) {locals : RecvLocals β} (hrecv : w.trans.recv = .upcall locals) :
    SslWire.Inv { w with
      trans := w.trans.doRecvUpcall locals
      delivered := w.delivered ++ w.trans.recvUpcall locals } := by
  have hidle : w.trans.tcp.phase = .idle := by
    refine h.nested.resolve_right ?_
    rw [hrecv]
    simp
  have hsame : ∀ b : Bool, (if b then { w.trans.tcp with canUpcall := false } else w.trans.tcp) =
      { w.trans.tcp with canUpcall := !b && w.trans.tcp.canUpcall } := by
    intro b
    cases b <;> rfl
  unfold SslTransport.doRecvUpcall
  rw [hsame]
  obtain ⟨done, hsending, hids⟩ := h.sending
  refine ⟨h.registered, ?_, h.dataMode, ?_, ?_, .inl hidle, ⟨done, hsending.of_eq rfl rfl rfl rfl rfl, hids⟩,
    h.wanted, h.repeated, h.pool, ?_⟩
  · intro hopen hflags
    refine (h.wake hopen hflags).imp_left fun hunsettled => .inr (.inr ?_)
    rcases hunsettled with hlocked | ⟨locals', hlocals, herror⟩ | hcan
    · rw [hrecv] at hlocked
      cases hlocked
    · rw [hrecv] at hlocals
      cases hlocals
      dsimp only
      rw [herror]
      simp
    · dsimp only
      rw [hcan, Bool.and_false]
  · intro _ _ hnot
    exact absurd rfl (hnot locals.msgSize)
  · intro locals' hupcall
    exact absurd (hidle.symm.trans hupcall) (by simp)
  · intro hopen
    have hdraining := h.draining hopen
    unfold Draining at hdraining ⊢
    rw [hrecv] at hdraining
    dsimp only at hdraining ⊢
    unfold SslTransport.recvUpcall
    cases hcan : w.trans.tcp.canUpcall with
    | false =>
      rw [Bool.and_false]
      exact .inl rfl
    | true =>
      rcases hdraining with herror | ⟨hsize, hbytes⟩
      · rw [herror]
        exact .inl rfl
      · cases herror : locals.error with
        | true => exact .inl rfl
        | false => exact .inr ⟨hsize, hbytes⟩

theorem Inv.recvLeave (h : w.Inv) {msgSize : Nat} (hrecv : w.trans.recv = .leave msgSize) :
    SslWire.Inv { w with trans := w.trans.doRecvLeave msgSize } := by
  have hidle : w.trans.tcp.phase = .idle := by
    refine h.nested.resolve_right ?_
    rw [hrecv]
    simp
  obtain ⟨done, hsending, hids⟩ := h.sending
  unfold SslTransport.doRecvLeave
  cases hcan : w.trans.tcp.canUpcall with
  | false =>
    obtain ⟨hclosed, -, hphase, hfd, hpool, hpending, hid⟩ := fini_fields w.trans.tcp
    have hnever : w.trans.tcp.fini.hasObserver ≠ true := by simp [hclosed]
    rw [Bool.not_false, if_pos rfl]
    refine ⟨fun hopen => absurd hopen hnever, fun hopen => absurd hopen hnever, hfd.trans h.dataMode,
      fun hopen => absurd hopen hnever, ?_, .inl (hphase.trans hidle),
      ⟨done, hsending.of_eq hpending hpool hid rfl rfl, ?_⟩, ?_, h.repeated, h.pool,
      fun hopen => absurd hopen hnever⟩
    · intro locals hupcall
      exact absurd ((hphase.trans hidle).symm.trans hupcall) (by simp)
    · rw [← hids]
      refine congrArg (fun ids => Wire.nonzero (w.reported ++ ids)) ?_
      unfold Wire.inFlight wire
      dsimp only
      rw [hphase]
    · intro call hcall
      obtain ⟨hrepeats, hbuf⟩ := h.wanted call hcall
      refine ⟨?_, hbuf⟩
      unfold writeCall
      dsimp only
      rw [hpool]
      exact hrepeats
  | true =>
    rw [Bool.not_true, if_neg (by decide)]
    refine ⟨h.registered, ?_, h.dataMode, fun _ _ _ => hcan, h.locals, .inl hidle,
      ⟨done, hsending.of_eq rfl rfl rfl rfl rfl, hids⟩, h.wanted, h.repeated, h.pool, ?_⟩
    · intro hopen hflags
      refine .inr ((h.wake hopen hflags).resolve_left ?_)
      rintro (hlocked | ⟨locals, hlocals, -⟩ | hfalse)
      · rw [hrecv] at hlocked
        cases hlocked
      · rw [hrecv] at hlocals
        cases hlocals
      · rw [hcan] at hfalse
        cases hfalse
    · intro hopen
      have hdraining := h.draining hopen
      unfold Draining at hdraining ⊢
      rw [hrecv] at hdraining
      dsimp only at hdraining ⊢
      obtain ⟨hsize, hbytes⟩ := hdraining.resolve_left (by rw [hcan]; decide)
      by_cases hmore : msgSize > 0
      · rw [if_pos hmore]
        exact ⟨hsize, hbytes⟩
      · have hnil : w.trans.record = [] := List.eq_nil_of_length_eq_zero (by omega)
        rw [hnil, List.append_nil] at hbytes
        rw [if_neg hmore]
        exact ⟨hnil, hbytes⟩

theorem Inv.flush (h : w.Inv) (count : Nat) :
    SslWire.Inv { w with
      trans := { w.trans with recvPool := w.trans.recvPool.flush count }
      consumed := w.consumed ++
        if count ≤ w.trans.recvPool.dataSize then w.trans.recvPool.bytes.take count else [] } := by
  have hpool : (w.trans.recvPool.flush count).WellFormed ∧
      (if count ≤ w.trans.recvPool.dataSize then w.trans.recvPool.bytes.take count else []) ++
        (w.trans.recvPool.flush count).bytes = w.trans.recvPool.bytes := by
    have hrefused : count = 0 ∨ w.trans.recvPool.dataSize < count →
        w.trans.recvPool.flush count = w.trans.recvPool := PoolRun.flush_refused
    by_cases hfits : count ≤ w.trans.recvPool.dataSize
    · rw [if_pos hfits]
      by_cases hpos : 0 < count
      · obtain ⟨hformed, hbytes, -⟩ := RecvPool.flush_spec h.pool.1 hpos hfits
        rw [hbytes]
        exact ⟨hformed, List.take_append_drop _ _⟩
      · have hzero : count = 0 := by omega
        rw [hrefused (.inl hzero), hzero]
        exact ⟨h.pool.1, rfl⟩
    · rw [if_neg hfits, hrefused (.inr (by omega))]
      exact ⟨h.pool.1, rfl⟩
  refine ⟨h.registered, h.wake, h.dataMode, h.canUpcall, h.locals, h.nested, h.sending, h.wanted,
    h.repeated, ⟨hpool.1, ?_⟩, h.draining⟩
  rw [← h.pool.2]
  dsimp only
  rw [List.append_assoc w.consumed, hpool.2]

theorem Inv.step (h : w.Inv) (event : SslEvent β) {next : SslWire β} (hstep : w.step event = some next) :
    next.Inv := by
  unfold SslWire.step at hstep
  cases event with
  | sendData buf actionId able =>
    dsimp only at hstep
    split at hstep
    · exact h.sendData buf actionId hstep
    · exact Option.some.inj hstep ▸ h
  | requestOnSend able =>
    dsimp only at hstep
    split at hstep
    · exact h.requestOnSend hstep
    · exact Option.some.inj hstep ▸ h
  | onInput =>
    obtain ⟨hbetween, hsome⟩ := Option.ite_none_right_eq_some.mp hstep
    obtain ⟨hidle, hrecv⟩ := between_iff.mp hbetween
    exact Option.some.inj hsome ▸ h.onInput hidle hrecv
  | onOutput result =>
    obtain ⟨hbetween, hsome⟩ := Option.ite_none_right_eq_some.mp hstep
    obtain ⟨hidle, hrecv⟩ := between_iff.mp hbetween
    exact Option.some.inj hsome ▸ h.onOutput hidle hrecv result
  | upcall => exact h.upcall hstep
  | deregister => exact h.deregister hstep
  | leave => exact h.leave hstep
  | recv found able =>
    dsimp only at hstep
    split at hstep
    · rename_i hidle hrecv
      exact Option.some.inj hstep ▸ h.recv hidle hrecv found able
    · cases hstep
  | recvUpcall =>
    dsimp only at hstep
    split at hstep
    · rename_i hrecv
      exact Option.some.inj hstep ▸ h.recvUpcall hrecv
    · cases hstep
  | recvLeave =>
    dsimp only at hstep
    split at hstep
    · rename_i hrecv
      exact Option.some.inj hstep ▸ h.recvLeave hrecv
    · cases hstep
  | flush count => exact Option.some.inj hstep ▸ h.flush count
  | close => exact h.onClose hstep
  | fini => exact h.fini hstep

/-- Between callbacks whatever is pending will be written, a write that had to wait is
repeated, what is accepted is what was sent, every completed action id is reported once, and
a record that was begun is delivered to its end before `DoRecv` returns. -/
structure Sound (w : SslWire β) : Prop where
  wake : w.between = true → w.trans.tcp.hasObserver = true →
    w.trans.tcp.pendingWr = true ∨ w.trans.tcp.requestOnSend = true →
    w.trans.tcp.onWr = true ∧ w.trans.tcp.registeredWr = true
  repeated : w.writes.IsChain Repeats
  written : w.written <+: Wire.bytesOf w.accepted
  reported : ∃ done, w.wire.Completed done ∧
    Wire.nonzero w.reported <+: Wire.nonzero (done.map Prod.snd) ∧
    (w.wire.inFlight = [] → Wire.nonzero w.reported = Wire.nonzero (done.map Prod.snd))
  drained : w.trans.recv = .idle → w.trans.tcp.hasObserver = true →
    w.trans.record = [] ∧ w.delivered = w.records.flatten ∧
      w.consumed ++ w.trans.recvPool.bytes = w.delivered

theorem Inv.sound (h : w.Inv) : w.Sound := by
  obtain ⟨done, hsending, hids⟩ := h.sending
  refine ⟨?_, h.repeated, hsending.written_prefix, ⟨done, hsending.completed, ?_, ?_⟩, ?_⟩
  · intro hbetween hopen hflags
    obtain ⟨hidle, hrecv⟩ := between_iff.mp hbetween
    have honWr : w.trans.tcp.onWr = true := by
      refine (h.wake hopen hflags).resolve_left ?_
      rintro (hlocked | ⟨locals, hlocals, -⟩ | hfalse)
      · rw [hrecv] at hlocked
        cases hlocked
      · rw [hrecv] at hlocals
        cases hlocals
      · rw [h.canUpcall hopen hidle fun msgSize => by rw [hrecv]; simp] at hfalse
        cases hfalse
    exact ⟨honWr, (h.registered hopen).trans honWr⟩
  · rw [← hids, Wire.nonzero_append]
    exact List.prefix_append _ _
  · intro hnone
    rw [← hids, hnone, List.append_nil]
  · intro hrecv hopen
    have hdraining := h.draining hopen
    have hpool := h.pool.2
    unfold Draining at hdraining
    rw [hrecv] at hdraining
    dsimp only at hdraining
    rw [hdraining.1, List.append_nil] at hpool
    exact ⟨hdraining.1, hdraining.2, hpool.trans hdraining.2.symm⟩

end SslWire

end Pronet.Net
