import Pronet.Library.Runs
import Pronet.Net.TcpTransport

/-! The write state machine of a transport in data mode, with the socket it writes
to. Sends and requests run between any two sections of `OnOutput`, whether they
come from inside `OnSend` or from another thread. -/
namespace Pronet.Net

open Library Runs TcpTransport

variable {β : Type*}

/-- The transport, the bytes its socket has taken, the calls of `SendData` that
returned true, and the action ids that `OnSend` has reported. -/
structure Wire (β : Type*) where
  trans : TcpTransport β
  written : List β
  accepted : List (List β × UInt64)
  reported : List UInt64
  deriving DecidableEq, Repr

/-- `close` is any other handler that gives up the connection. -/
inductive WireEvent (β : Type*)
  | sendData (buf : List β) (actionId : UInt64)
  | requestOnSend
  | onOutput (result : SendResult)
  | upcall
  | deregister
  | leave
  | close
  | fini
  deriving DecidableEq, Repr

namespace Wire

def init : Wire β := ⟨TcpTransport.init, [], [], []⟩

def onSendOf : Option Upcall → List UInt64
  | some (.onSend actionId) => [actionId]
  | _ => []

/-- A handler starts only when `OnOutput` is not running. -/
def step (w : Wire β) : WireEvent β → Option (Wire β)
  | .sendData buf actionId =>
      let (trans, ok) := w.trans.sendData buf actionId
      some { w with
        trans := trans
        accepted := if ok then w.accepted ++ [(buf, actionId)] else w.accepted }
  | .requestOnSend => some { w with trans := w.trans.request }
  | .onOutput result =>
      if w.trans.phase = .idle then
        some { w with
          trans := w.trans.outputLocked result
          written := if w.trans.hasObserver then w.written ++ w.trans.sentBytes result
            else w.written }
      else none
  | .upcall =>
      match w.trans.phase with
      | .upcall locals =>
          some { w with
            trans := w.trans.outputUpcall locals
            reported := w.reported ++ onSendOf (w.trans.upcallOf locals) }
      | _ => none
  | .deregister =>
      if w.trans.phase = .deregister then some { w with trans := w.trans.outputDeregister } else none
  | .leave =>
      if w.trans.phase = .leave then some { w with trans := w.trans.outputLeave } else none
  | .close =>
      if w.trans.phase = .idle then
        some { w with trans := { w.trans with canUpcall := false, phase := .leave } }
      else none
  | .fini => some { w with trans := w.trans.fini }

/-- The action id that `OnOutput` has taken and not yet reported. -/
def inFlight (w : Wire β) : List UInt64 :=
  match w.trans.phase with
  | .upcall locals => [locals.actionId]
  | _ => []

/-- The ids that are reported at all. -/
def nonzero (ids : List UInt64) : List UInt64 := ids.filter (· ≠ 0)

/-- The bytes of some calls, in the order of the calls. -/
def bytesOf (calls : List (List β × UInt64)) : List β := calls.flatMap Prod.fst

/-- Either nothing is pending, or the pool holds the rest of the last accepted
buffer and `m_actionId` is its id. -/
inductive Sending (done : List (List β × UInt64)) (w : Wire β) : Prop
  | nothing (hpending : w.trans.pendingWr = false) (hpool : w.trans.sendPool = SendPool.empty)
      (haccepted : w.accepted = done) (hwritten : w.written = bytesOf done)
  | rest (buf : List β) (pos : Nat) (hpending : w.trans.pendingWr = true)
      (hpool : w.trans.sendPool = ⟨[buf], some pos⟩) (hpos : pos < buf.length)
      (haccepted : w.accepted = done ++ [(buf, w.trans.actionId)])
      (hwritten : w.written = bytesOf done ++ buf.take pos)

/-- What is being sent depends on these fields only. -/
theorem Sending.of_eq {done : List (List β × UInt64)} {w w' : Wire β} (h : Sending done w)
    (hpending : w'.trans.pendingWr = w.trans.pendingWr)
    (hpool : w'.trans.sendPool = w.trans.sendPool) (hid : w'.trans.actionId = w.trans.actionId)
    (haccepted : w'.accepted = w.accepted) (hwritten : w'.written = w.written) :
    Sending done w' := by
  cases h with
  | nothing h₁ h₂ h₃ h₄ =>
    exact .nothing (hpending.trans h₁) (hpool.trans h₂) (haccepted.trans h₃) (hwritten.trans h₄)
  | rest buf pos h₁ h₂ h₃ h₄ h₅ =>
    refine .rest buf pos (hpending.trans h₁) (hpool.trans h₂) h₃ ?_ (hwritten.trans h₅)
    rw [haccepted, hid]
    exact h₄

/-- The locals carry an id only for `OnSend`. -/
def LocalsOk (locals : OutputLocals) : Prop :=
  (locals.onSendBuf = true ∧ locals.error = none) ∨ locals.actionId = 0

structure Inv (w : Wire β) : Prop where
  registered : w.trans.hasObserver = true → w.trans.registeredWr = w.trans.onWr
  wake : w.trans.hasObserver = true → w.trans.pendingWr = true ∨ w.trans.requestOnSend = true →
    w.trans.onWr = true
  dataMode : w.trans.sendingFd = none
  canUpcall : w.trans.hasObserver = true → w.trans.phase = .idle → w.trans.canUpcall = true
  locals : ∀ locals, w.trans.phase = .upcall locals → w.trans.canUpcall = true ∧ LocalsOk locals
  sending : ∃ done, Sending done w ∧
    nonzero (w.reported ++ w.inFlight) = nonzero (done.map Prod.snd)

theorem inv_init : (init : Wire β).Inv := by
  refine ⟨fun _ => rfl, ?_, rfl, fun _ _ => rfl, ?_, [], .nothing rfl rfl rfl rfl, rfl⟩
  · intro _ h
    cases h <;> contradiction
  · intro locals h
    cases h

/-- Adding the handler changes nothing but the two flags. -/
theorem addWr_eq (t : TcpTransport β) (h : t.registeredWr = t.onWr) :
    t.addWr = { t with registeredWr := true, onWr := true } := by
  unfold addWr
  split
  · rename_i hon
    have hreg := h.trans hon
    cases t
    dsimp only at hon hreg
    subst hon hreg
    rfl
  · rfl

theorem Inv.sendData {w : Wire β} (h : w.Inv) (buf : List β) (actionId : UInt64) {next : Wire β}
    (hstep : w.step (.sendData buf actionId) = some next) : next.Inv := by
  simp only [step, Option.some.injEq] at hstep
  subst hstep
  unfold TcpTransport.sendData
  by_cases hempty : buf.isEmpty = true
  · rw [if_pos hempty]
    exact h
  · rw [if_neg hempty]
    cases hopen : w.trans.hasObserver with
    | false => exact h
    | true =>
      cases hpending : w.trans.pendingWr with
      | true => exact h
      | false =>
        simp only [Bool.not_true, Bool.false_eq_true, if_false, if_true]
        rw [addWr_eq w.trans (h.registered hopen)]
        refine ⟨fun _ => rfl, fun _ _ => rfl, h.dataMode, h.canUpcall, h.locals, ?_⟩
        obtain ⟨done, hsending, hids⟩ := h.sending
        refine ⟨done, ?_, hids⟩
        cases hsending with
        | nothing hpending hpool haccepted hwritten =>
          have hlength : 0 < buf.length := by
            rw [List.isEmpty_iff] at hempty
            exact List.length_pos_iff.mpr hempty
          refine .rest buf 0 rfl ?_ hlength ?_ ?_
          · simp [hpool, SendPool.fill, SendPool.empty, hempty]
          · simp [haccepted]
          · simp [hwritten]
        | rest buf pos hpending' =>
          rw [hpending] at hpending'
          cases hpending'

theorem Inv.requestOnSend {w : Wire β} (h : w.Inv) {next : Wire β}
    (hstep : w.step .requestOnSend = some next) : next.Inv := by
  simp only [step, Option.some.injEq] at hstep
  subst hstep
  unfold request
  cases hopen : w.trans.hasObserver with
  | false => exact h
  | true =>
    cases hrequest : w.trans.requestOnSend with
    | true => exact h
    | false =>
      simp only [Bool.not_true, Bool.false_eq_true, if_false]
      rw [addWr_eq w.trans (h.registered hopen)]
      refine ⟨fun _ => rfl, fun _ _ => rfl, h.dataMode, h.canUpcall, h.locals, ?_⟩
      obtain ⟨done, hsending, hids⟩ := h.sending
      exact ⟨done, hsending.of_eq rfl rfl rfl rfl rfl, hids⟩

/-- `pbsd_send` takes nothing, a part, or the rest of the buffer. -/
theorem outputData_cases {t : TcpTransport β} {buf : List β} {pos : Nat}
    (hpool : t.sendPool = ⟨[buf], some pos⟩) (result : SendResult) :
    (∃ error, t.outputData result = (t, error, false) ∧ t.sentBytes result = []) ∨
    (∃ size, pos + size < buf.length ∧
      t.outputData result = ({ t with sendPool := ⟨[buf], some (pos + size)⟩ }, none, false) ∧
      t.sentBytes result = (buf.drop pos).take size) ∨
    (t.outputData result = ({ t with sendPool := SendPool.empty, pendingWr := false }, none, true) ∧
      t.sentBytes result = buf.drop pos) := by
  have hrest : t.sendPool.preSend = buf.drop pos := by
    rw [hpool]
    rfl
  cases result with
  | failed errno => exact Or.inl ⟨_, rfl, rfl⟩
  | sent size =>
    unfold outputData sentBytes
    dsimp only
    rw [hrest, List.length_drop]
    by_cases hlarge : buf.length - pos < size
    · rw [if_pos hlarge, if_neg (by omega)]
      exact Or.inl ⟨_, rfl, rfl⟩
    · have hfits : size ≤ buf.length - pos := Nat.le_of_not_lt hlarge
      rw [if_neg hlarge, if_pos hfits]
      by_cases hzero : size = 0
      · rw [if_pos hzero, hzero]
        exact Or.inl ⟨_, rfl, rfl⟩
      · have hflush : t.sendPool.flush size = ⟨[buf], some (pos + size)⟩ := by
          rw [hpool]
          simp only [SendPool.flush, Option.getD_some, hzero, decide_false, Bool.false_or,
            decide_eq_true_eq]
          rw [if_neg (by omega)]
        rw [if_neg hzero, hflush]
        right
        by_cases hall : pos + size = buf.length
        · right
          have hempty : SendPool.postSend ⟨[buf], some (pos + size)⟩ = SendPool.empty := by
            simp [SendPool.postSend, SendPool.empty, hall]
          simp only [SendPool.onSendBuf, Option.getD_some, hall, ne_eq, not_true, if_false]
          rw [← hall, hempty]
          refine ⟨rfl, List.take_of_length_le ?_⟩
          rw [List.length_drop]
          omega
        · left
          refine ⟨size, by omega, ?_, rfl⟩
          simp [SendPool.onSendBuf, hall]

theorem nonzero_append (ids more : List UInt64) :
    nonzero (ids ++ more) = nonzero ids ++ nonzero more := List.filter_append ids more

theorem bytesOf_append (calls more : List (List β × UInt64)) :
    bytesOf (calls ++ more) = bytesOf calls ++ bytesOf more := List.flatMap_append

theorem sentBytes_of_empty {t : TcpTransport β} (hpool : t.sendPool = SendPool.empty)
    (result : SendResult) : t.sentBytes result = [] := by
  unfold sentBytes
  rw [hpool]
  split <;> simp [SendPool.preSend, SendPool.empty]

/-- `OnOutput` with nothing to send only answers a request, or deregisters. -/
theorem Inv.onOutput_empty {w : Wire β} (h : w.Inv) (hopen : w.trans.hasObserver = true)
    (hidle : w.trans.phase = .idle) (hpool : w.trans.sendPool = SendPool.empty)
    (hpending : w.trans.pendingWr = false) (result : SendResult) :
    Inv { w with trans := w.trans.outputLocked result } := by
  obtain ⟨done, hsending, hids⟩ := h.sending
  have hempty : w.trans.sendPool.preSend.isEmpty = true := by
    rw [hpool]
    rfl
  unfold inFlight at hids
  rw [hidle] at hids
  unfold outputLocked
  rw [if_neg (by simp [hopen]), if_pos hempty]
  dsimp only
  cases hrequest : w.trans.requestOnSend with
  | true =>
    refine ⟨h.registered, ?_, h.dataMode, ?_, ?_, done, ?_, ?_⟩
    · intro _ _
      exact h.wake hopen (Or.inr hrequest)
    · intro _ hphase
      cases hphase
    · intro locals hlocals
      cases hlocals
      exact ⟨h.canUpcall hopen hidle, Or.inr rfl⟩
    · exact hsending.of_eq hpending.symm rfl rfl rfl rfl
    · rw [← hids]
      simp [inFlight, takeLocals, nonzero]
  | false =>
    rw [if_pos (by rfl)]
    split
    · refine ⟨fun _ => rfl, ?_, h.dataMode, h.canUpcall, h.locals, done, ?_, ?_⟩
      · intro _ hflags
        cases hflags with
        | inl hflag => cases hflag
        | inr hflag => exact absurd hflag (by simp [removeWr])
      · exact hsending.of_eq hpending.symm rfl rfl rfl rfl
      · unfold inFlight removeWr
        dsimp only
        rw [hidle]
        exact hids
    · refine ⟨h.registered, ?_, h.dataMode, h.canUpcall, h.locals, done,
        hsending.of_eq hpending.symm rfl rfl rfl rfl, ?_⟩
      · intro _ hflags
        cases hflags with
        | inl hflag => cases hflag
        | inr hflag => exact absurd hflag (by simp)
      · unfold inFlight
        dsimp only
        rw [hidle]
        exact hids

/-- `OnOutput` with a buffer to send. -/
theorem Inv.onOutput_rest {w : Wire β} (h : w.Inv) (hopen : w.trans.hasObserver = true)
    (hidle : w.trans.phase = .idle) {done : List (List β × UInt64)} {buf : List β} {pos : Nat}
    (hpending : w.trans.pendingWr = true) (hpool : w.trans.sendPool = ⟨[buf], some pos⟩)
    (hpos : pos < buf.length) (haccepted : w.accepted = done ++ [(buf, w.trans.actionId)])
    (hwritten : w.written = bytesOf done ++ buf.take pos)
    (hids : nonzero w.reported = nonzero (done.map Prod.snd)) (result : SendResult) :
    Inv { w with
      trans := w.trans.outputLocked result
      written := w.written ++ w.trans.sentBytes result } := by
  have hnonempty : w.trans.sendPool.preSend.isEmpty = false := by
    rw [hpool]
    simp only [SendPool.preSend, Option.getD_some, List.isEmpty_eq_false_iff]
    intro hnil
    have := congrArg List.length hnil
    simp only [List.length_drop, List.length_nil] at this
    omega
  have honWr := h.wake hopen (Or.inl hpending)
  have hlocked : w.trans.outputLocked result =
      (w.trans.outputData result).1.takeLocals (w.trans.outputData result).2.1
        (w.trans.outputData result).2.2 := by
    unfold outputLocked
    rw [if_neg (by simp [hopen]), if_neg (by simp [hnonempty]), if_pos h.dataMode]
  rw [hlocked]
  rcases outputData_cases hpool result with ⟨error, hdata, hsent⟩ | ⟨size, hsize, hdata, hsent⟩ |
    ⟨hdata, hsent⟩
  all_goals rw [hdata, hsent]
  · refine ⟨h.registered, fun _ _ => honWr, h.dataMode, ?_, ?_, done, ?_, ?_⟩
    · intro _ hphase
      cases hphase
    · intro locals hlocals
      cases hlocals
      exact ⟨h.canUpcall hopen hidle, Or.inr rfl⟩
    · exact .rest buf pos hpending hpool hpos haccepted (by simp [hwritten])
    · rw [nonzero_append, hids]
      simp [inFlight, takeLocals, nonzero]
  · refine ⟨h.registered, fun _ _ => honWr, h.dataMode, ?_, ?_, done, ?_, ?_⟩
    · intro _ hphase
      cases hphase
    · intro locals hlocals
      cases hlocals
      exact ⟨h.canUpcall hopen hidle, Or.inr rfl⟩
    · refine .rest buf (pos + size) hpending rfl hsize haccepted ?_
      rw [hwritten, List.append_assoc, List.take_add]
    · rw [nonzero_append, hids]
      simp [inFlight, takeLocals, nonzero]
  · refine ⟨h.registered, fun _ _ => honWr, h.dataMode, ?_, ?_,
      done ++ [(buf, w.trans.actionId)], ?_, ?_⟩
    · intro _ hphase
      cases hphase
    · intro locals hlocals
      cases hlocals
      exact ⟨h.canUpcall hopen hidle, Or.inl ⟨rfl, rfl⟩⟩
    · refine .nothing rfl rfl haccepted ?_
      rw [hwritten, List.append_assoc, List.take_append_drop, bytesOf_append]
      simp [bytesOf]
    · rw [nonzero_append, hids, List.map_append, nonzero_append]
      rfl

theorem Inv.onOutput {w : Wire β} (h : w.Inv) (result : SendResult) {next : Wire β}
    (hstep : w.step (.onOutput result) = some next) : next.Inv := by
  simp only [step] at hstep
  split at hstep
  · rename_i hidle
    cases hstep
    cases hopen : w.trans.hasObserver with
    | false =>
      have hlocked : w.trans.outputLocked result = w.trans := by
        simp [outputLocked, hopen]
      rw [hlocked]
      exact h
    | true =>
      obtain ⟨done, hsending, hids⟩ := h.sending
      rw [if_pos rfl]
      cases hsending with
      | nothing hpending hpool haccepted hwritten =>
        rw [sentBytes_of_empty hpool, List.append_nil]
        exact h.onOutput_empty hopen hidle hpool hpending result
      | rest buf pos hpending hpool hpos haccepted hwritten =>
        unfold inFlight at hids
        rw [hidle, List.append_nil] at hids
        exact h.onOutput_rest hopen hidle hpending hpool hpos haccepted hwritten hids result
  · cases hstep

/-- The id that was taken is reported by the upcall, or was zero. -/
theorem onSendOf_upcallOf {t : TcpTransport β} {locals : OutputLocals} (hcan : t.canUpcall = true)
    (hlocals : LocalsOk locals) :
    nonzero (onSendOf (t.upcallOf locals)) = nonzero [locals.actionId] := by
  unfold upcallOf
  rw [if_pos hcan]
  cases hlocals with
  | inl hsend =>
    rw [hsend.2, hsend.1]
    rfl
  | inr hzero =>
    rw [hzero]
    split
    · rfl
    · split <;> rfl

theorem Inv.upcall {w : Wire β} (h : w.Inv) {next : Wire β}
    (hstep : w.step .upcall = some next) : next.Inv := by
  simp only [step] at hstep
  split at hstep
  · rename_i locals hphase
    cases hstep
    obtain ⟨hcan, hlocals⟩ := h.locals locals hphase
    obtain ⟨done, hsending, hids⟩ := h.sending
    have hreported : nonzero (w.reported ++ onSendOf (w.trans.upcallOf locals)) =
        nonzero (done.map Prod.snd) := by
      rw [← hids, nonzero_append, nonzero_append, onSendOf_upcallOf hcan hlocals]
      unfold inFlight
      rw [hphase]
    unfold outputUpcall
    cases hcall : w.trans.upcallOf locals with
    | none =>
      rw [hcall] at hreported
      refine ⟨h.registered, h.wake, h.dataMode, ?_, ?_, done, hsending.of_eq rfl rfl rfl rfl rfl, ?_⟩
      · intro _ hphase
        cases hphase
      · intro locals hphase
        cases hphase
      · simpa [inFlight] using hreported
    | some call =>
      rw [hcall] at hreported
      cases call with
      | onClose errorCode =>
        refine ⟨h.registered, h.wake, h.dataMode, ?_, ?_, done,
          hsending.of_eq rfl rfl rfl rfl rfl, ?_⟩
        · intro _ hphase
          cases hphase
        · intro locals hphase
          cases hphase
        · simpa [inFlight] using hreported
      | onSend actionId =>
        refine ⟨h.registered, h.wake, h.dataMode, ?_, ?_, done,
          hsending.of_eq rfl rfl rfl rfl rfl, ?_⟩
        · intro _ hphase
          cases hphase
        · intro locals hphase
          cases hphase
        · simpa [inFlight] using hreported
  · cases hstep

/-- A step outside the first section of `OnOutput` that leaves the queue alone. -/
theorem Inv.of_flags {w : Wire β} (h : w.Inv) {trans : TcpTransport β}
    (hregistered : trans.hasObserver = true → trans.registeredWr = trans.onWr)
    (hwake : trans.hasObserver = true → trans.pendingWr = true ∨ trans.requestOnSend = true →
      trans.onWr = true)
    (hdata : trans.sendingFd = w.trans.sendingFd) (hpool : trans.sendPool = w.trans.sendPool)
    (hpending : trans.pendingWr = w.trans.pendingWr) (hid : trans.actionId = w.trans.actionId)
    (hcan : trans.hasObserver = true → trans.phase = .idle → trans.canUpcall = true)
    (hphase : (∀ locals, trans.phase ≠ .upcall locals ∧ w.trans.phase ≠ .upcall locals) ∨
      (trans.phase = w.trans.phase ∧ trans.canUpcall = w.trans.canUpcall)) :
    Inv { w with trans := trans } := by
  obtain ⟨done, hsending, hids⟩ := h.sending
  refine ⟨hregistered, hwake, hdata.trans h.dataMode, hcan, ?_, done,
    hsending.of_eq hpending hpool hid rfl rfl, ?_⟩
  · intro locals hlocals
    cases hphase with
    | inl hnone => exact absurd hlocals (hnone locals).1
    | inr hsame =>
      have hold := h.locals locals (hsame.1.symm.trans hlocals)
      exact ⟨hsame.2.trans hold.1, hold.2⟩
  · rw [← hids]
    congr 2
    unfold inFlight
    dsimp only
    cases hphase with
    | inl hnone =>
      split
      · rename_i locals hlocals
        exact absurd hlocals (hnone locals).1
      · split
        · rename_i locals hlocals
          exact absurd hlocals (hnone locals).2
        · rfl
    | inr hsame => rw [hsame.1]

theorem Inv.deregister {w : Wire β} (h : w.Inv) {next : Wire β}
    (hstep : w.step .deregister = some next) : next.Inv := by
  simp only [step] at hstep
  split at hstep
  · rename_i hphase
    cases hstep
    unfold outputDeregister
    dsimp only
    split
    · rename_i hflags
      simp only [Bool.and_eq_true, Bool.not_eq_true'] at hflags
      refine h.of_flags (fun _ => rfl) ?_ rfl rfl rfl rfl (by intro _ hidle; cases hidle) ?_
      · intro _ hwake
        simp [removeWr, hflags.1.2, hflags.2] at hwake
      · exact Or.inl fun locals => ⟨by simp [removeWr], by simp [hphase]⟩
    · exact h.of_flags h.registered h.wake rfl rfl rfl rfl (by intro _ hidle; cases hidle)
        (Or.inl fun locals => ⟨by simp, by simp [hphase]⟩)
  · cases hstep

theorem Inv.leave {w : Wire β} (h : w.Inv) {next : Wire β}
    (hstep : w.step .leave = some next) : next.Inv := by
  simp only [step] at hstep
  split at hstep
  · rename_i hphase
    cases hstep
    have hnot : ∀ locals, OutputPhase.idle ≠ .upcall locals ∧ w.trans.phase ≠ .upcall locals :=
      fun locals => ⟨by simp, by simp [hphase]⟩
    unfold outputLeave
    dsimp only
    cases hcan : w.trans.canUpcall with
    | true => exact h.of_flags h.registered h.wake rfl rfl rfl rfl (fun _ _ => rfl) (Or.inl hnot)
    | false =>
      unfold TcpTransport.fini
      cases hopen : w.trans.hasObserver with
      | true =>
        exact h.of_flags (by simp) (by simp) rfl rfl rfl rfl (by simp) (Or.inl hnot)
      | false =>
        exact h.of_flags (by simp) (by simp) rfl rfl rfl rfl (by simp) (Or.inl hnot)
  · cases hstep

theorem Inv.close {w : Wire β} (h : w.Inv) {next : Wire β}
    (hstep : w.step .close = some next) : next.Inv := by
  simp only [step] at hstep
  split at hstep
  · rename_i hphase
    cases hstep
    exact h.of_flags h.registered h.wake rfl rfl rfl rfl (by intro _ hidle; cases hidle)
      (Or.inl fun locals => ⟨by simp, by simp [hphase]⟩)
  · cases hstep

theorem Inv.fini {w : Wire β} (h : w.Inv) {next : Wire β}
    (hstep : w.step .fini = some next) : next.Inv := by
  simp only [step, Option.some.injEq] at hstep
  subst hstep
  unfold TcpTransport.fini
  split
  · exact h.of_flags (by simp) (by simp) rfl rfl rfl rfl (by simp) (Or.inr ⟨rfl, rfl⟩)
  · exact h

theorem Inv.step {w : Wire β} (h : w.Inv) (e : WireEvent β) {next : Wire β}
    (hstep : w.step e = some next) : next.Inv := by
  cases e with
  | sendData buf actionId => exact h.sendData buf actionId hstep
  | requestOnSend => exact h.requestOnSend hstep
  | onOutput result => exact h.onOutput result hstep
  | upcall => exact h.upcall hstep
  | deregister => exact h.deregister hstep
  | leave => exact h.leave hstep
  | close => exact h.close hstep
  | fini => exact h.fini hstep

/-- `done` are the accepted calls whose last byte has been written. -/
structure Completed (w : Wire β) (done : List (List β × UInt64)) : Prop where
  accepted : done <+: w.accepted
  written : bytesOf done <+: w.written
  last : ∀ call, done ++ [call] <+: w.accepted → ¬ bytesOf (done ++ [call]) <+: w.written

/-- No wake-up is lost, the socket gets the accepted bytes in order, and every
completed action id is reported once, in order, at the latest by the upcall that
is about to be made. A refused send changes nothing. -/
structure Sound (w : Wire β) : Prop where
  wake : w.trans.hasObserver = true → w.trans.pendingWr = true ∨ w.trans.requestOnSend = true →
    w.trans.onWr = true ∧ w.trans.registeredWr = true
  written : w.written <+: bytesOf w.accepted
  reported : ∃ done, w.Completed done ∧ nonzero w.reported <+: nonzero (done.map Prod.snd) ∧
    (w.inFlight = [] → nonzero w.reported = nonzero (done.map Prod.snd))
  refused : ∀ buf actionId, (w.trans.sendData buf actionId).2 = false →
    (w.trans.sendData buf actionId).1 = w.trans

theorem Sending.completed {done : List (List β × UInt64)} {w : Wire β} (h : Sending done w) :
    w.Completed done := by
  cases h with
  | nothing hpending hpool haccepted hwritten =>
    refine ⟨by rw [haccepted], by rw [hwritten], ?_⟩
    intro call hcall
    have hlength := hcall.length_le
    rw [haccepted, List.length_append, List.length_singleton] at hlength
    omega
  | rest buf pos hpending hpool hpos haccepted hwritten =>
    refine ⟨⟨_, haccepted.symm⟩, ⟨_, hwritten.symm⟩, ?_⟩
    intro call hcall hbytes
    have hsame : done ++ [call] = done ++ [(buf, w.trans.actionId)] := by
      apply List.IsPrefix.eq_of_length (haccepted ▸ hcall)
      simp
    have hlength := hbytes.length_le
    rw [hsame, hwritten, bytesOf_append, List.length_append, List.length_append,
      List.length_take] at hlength
    have hbuf : (bytesOf [(buf, w.trans.actionId)]).length = buf.length := by
      simp [bytesOf]
    omega

theorem Sending.written_prefix {done : List (List β × UInt64)} {w : Wire β} (h : Sending done w) :
    w.written <+: bytesOf w.accepted := by
  cases h with
  | nothing hpending hpool haccepted hwritten => rw [hwritten, haccepted]
  | rest buf pos hpending hpool hpos haccepted hwritten =>
    refine ⟨buf.drop pos, ?_⟩
    rw [hwritten, haccepted, bytesOf_append, List.append_assoc, List.take_append_drop]
    simp [bytesOf]

theorem sendData_refused (t : TcpTransport β) (buf : List β) (actionId : UInt64)
    (h : (t.sendData buf actionId).2 = false) : (t.sendData buf actionId).1 = t := by
  unfold TcpTransport.sendData at h ⊢
  split at h
  · rename_i hempty
    rw [if_pos hempty]
  · rename_i hempty
    rw [if_neg hempty]
    split at h
    · rename_i hclosed
      rw [if_pos hclosed]
    · rename_i hopen
      rw [if_neg hopen]
      split at h
      · rename_i hpending
        rw [if_pos hpending]
      · cases h

theorem Inv.sound {w : Wire β} (h : w.Inv) : w.Sound := by
  obtain ⟨done, hsending, hids⟩ := h.sending
  refine ⟨?_, hsending.written_prefix, ⟨done, hsending.completed, ?_, ?_⟩, sendData_refused w.trans⟩
  · intro hopen hflags
    have honWr := h.wake hopen hflags
    exact ⟨honWr, (h.registered hopen).trans honWr⟩
  · rw [← hids, nonzero_append]
    exact List.prefix_append _ _
  · intro hnone
    rw [← hids, hnone, List.append_nil]

/-- Whatever the order of sends, requests and sections of `OnOutput`, and whatever
the socket takes, the transport is sound in every state. -/
theorem sound_of_wire_run {es : List (WireEvent β)} {w : Wire β} (hrun : run step init es = some w) :
    w.Sound := by
  have hinv : w.Inv := run_preserves (fun w e next h _ hstep => h.step e hstep) inv_init
    (guarded_true init es) hrun
  exact hinv.sound

/-- A send that slips in between the last byte of a buffer and its `OnSend`. -/
def crossingSend : List (WireEvent UInt8) :=
  [.sendData [1, 2, 3] 7, .requestOnSend, .onOutput (.sent 2), .upcall, .deregister, .leave,
    .onOutput (.failed ewouldblock), .upcall, .leave, .onOutput (.sent 1), .sendData [4] 8,
    .upcall, .deregister, .leave]

theorem sound_of_wire_run_crossingSend :
    ∃ w, run step init crossingSend = some w ∧ w.Sound := by
  have hsome : (run step init crossingSend).isSome = true := by decide
  obtain ⟨w, hw⟩ := Option.isSome_iff_exists.mp hsome
  exact ⟨w, hw, sound_of_wire_run hw⟩

end Wire

end Pronet.Net
