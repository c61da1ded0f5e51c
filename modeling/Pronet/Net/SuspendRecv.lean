import Pronet.Net.SslWrites

/-! A transport under the worker of `CProEpollReactor`. `SuspendRecv` only takes the
handler away from reading; the worker goes by the events that it was told of. -/
namespace Pronet.Net

open Library Runs TcpTransport

variable {β : Type*}

/-- The events of one descriptor that `epoll_wait` returns. -/
structure ReadyEvents where
  input : Bool
  output : Bool
  hup : Bool
  err : Bool
  deriving DecidableEq, Repr

/-- A handler function that the worker calls for the descriptor. -/
inductive PollTask
  | onOutput
  | onInput (hup : Bool)
  | onError
  deriving DecidableEq, Repr

inductive PollPhase
  | waiting
  | ready (events : ReadyEvents)
  | dispatching (tasks : List PollTask)
  | calling (task : PollTask) (entered : Bool) (tasks : List PollTask)
  deriving DecidableEq, Repr

/-- `suspended` says that a `SuspendRecv` has returned and no `ResumeRecv` since, `waited`
that it was so already when `epoll_wait` returned, and `inside` when the handler function was
called. `early` counts the calls of `OnRecv` that such a function has made. -/
structure PollState (β : Type*) where
  ssl : Bool
  trans : SslTransport β
  registeredRd : Bool
  phase : PollPhase
  suspended : Bool
  waited : Bool
  inside : Bool
  early : Nat

inductive PollEvent (β : Type*)
  | suspendRecv
  | resumeRecv (able : Bool)
  | sendData (buf : List β) (actionId : UInt64) (able : Bool)
  | requestOnSend (able : Bool)
  | wait (events : ReadyEvents)
  | collect
  | call
  | output (result : SslResult)
  | upcall
  | deregister
  | leave
  | recv (found : ReadResult β) (able : Bool)
  | recvUpcall
  | recvLeave
  | finished
  | flush (count : Nat)
  | fini
  deriving DecidableEq, Repr

/-- `pbsd_send` has no wishes. -/
def SslResult.toSend : SslResult → SendResult
  | .sent size => .sent size
  | .wantWrite => .failed ewouldblock
  | .wantRead => .failed ewouldblock
  | .failed code => .failed code

namespace SslTransport

/-- The section of `OnInputData`, for a transport without TLS. A descriptor with nothing to
receive would block. -/
def inputDataLocked (t : SslTransport β) (found : ReadResult β) : SslTransport β :=
  if !t.tcp.hasObserver then { t with recv := .idle }
  else
    let idleSize := t.recvPool.continuousIdleSize
    if idleSize = 0 then { t with recv := .upcall ⟨true, [], 0⟩ }
    else
      match found with
      | .record bytes =>
          let bytes := bytes.take idleSize
          if bytes.isEmpty then { t with recv := .upcall ⟨true, [], 0⟩ }
          else
            { t with
              recvPool := t.recvPool.receive bytes
              recv := .upcall ⟨false, bytes, 0⟩ }
      | .closed => { t with recv := .upcall ⟨true, [], 0⟩ }
      | .failed _ => { t with recv := .upcall ⟨true, [], 0⟩ }
      | .wantRead => { t with recv := .upcall ⟨false, [], 0⟩ }
      | .wantWrite => { t with recv := .upcall ⟨false, [], 0⟩ }

end SslTransport

namespace PollState

/-- A transport after `Init`. Without TLS it is registered for reading only. -/
def init (ssl : Bool) (size : Nat) (buf : Nat → β) : PollState β :=
  { ssl := ssl
    trans := ⟨if ssl then initSsl else TcpTransport.init, RecvPool.resize size buf, [], .idle⟩
    registeredRd := true
    phase := .waiting
    suspended := false
    waited := false
    inside := false
    early := 0 }

/-- The reactor knows the handler. -/
def registered (s : PollState β) : Bool := s.registeredRd || s.trans.tcp.registeredWr

/-- What the worker does about some events. -/
def tasksOf (events : ReadyEvents) : List PollTask :=
  if events.err then [.onError]
  else
    (if events.output then [.onOutput] else []) ++
      (if events.input || events.hup then [.onInput events.hup] else [])

/-- No handler function is running. -/
def between (s : PollState β) : Bool :=
  match s.trans.tcp.phase, s.trans.recv with
  | .idle, .idle => true
  | _, _ => false

def withTcp (s : PollState β) (tcp : TcpTransport β) : PollState β :=
  { s with trans := { s.trans with tcp := tcp } }

/-- `fini`, which takes the handler away from everything. -/
def finish (s : PollState β) (tcp : TcpTransport β) : PollState β :=
  { s.withTcp tcp with registeredRd := s.registeredRd && tcp.hasObserver }

def step (s : PollState β) : PollEvent β → Option (PollState β)
  | .suspendRecv =>
      some { s with
        registeredRd := if s.trans.tcp.hasObserver then false else s.registeredRd
        suspended := true }
  | .resumeRecv able =>
      some { s with
        registeredRd := s.registeredRd || (s.trans.tcp.hasObserver && able)
        suspended := false
        waited := false
        inside := false }
  | .sendData buf actionId able =>
      some (if able || s.trans.tcp.onWr then s.withTcp (s.trans.tcp.sendData buf actionId).1 else s)
  | .requestOnSend able => some (if able || s.trans.tcp.onWr then s.withTcp s.trans.tcp.request else s)
  | .wait events =>
      -- The kernel reports what the descriptor is registered for, and hang-ups and errors.
      if s.phase = .waiting && s.registered && (!events.input || s.registeredRd) &&
          (!events.output || s.trans.tcp.registeredWr) then
        some { s with
          phase := .ready events
          waited := s.suspended }
      else none
  | .collect =>
      match s.phase with
      | .ready events =>
          some { s with phase := .dispatching (if s.registered then tasksOf events else []) }
      | _ => none
  | .call =>
      match s.phase with
      | .dispatching [] => some { s with phase := .waiting }
      | .dispatching (task :: tasks) =>
          if s.between then
            some { s with
              phase := .calling task (task = .onOutput) tasks
              inside := s.suspended
              trans := match task with
                | .onOutput => s.trans
                | .onInput _ => { s.trans with recv := .locked 0 }
                | .onError =>
                    { s.trans with tcp := { s.trans.tcp with canUpcall := false, phase := .leave } } }
          else none
      | _ => none
  | .output result =>
      match s.phase with
      | .calling .onOutput true tasks =>
          some { s with
            phase := .calling .onOutput false tasks
            trans :=
              if s.ssl then { s.trans with tcp := s.trans.tcp.doSendLocked result, recv := .locked 0 }
              else { s.trans with tcp := s.trans.tcp.outputLocked result.toSend } }
      | _ => none
  | .upcall =>
      match s.trans.tcp.phase with
      | .upcall locals => some (s.withTcp (s.trans.tcp.outputUpcall locals))
      | _ => none
  | .deregister =>
      if s.trans.tcp.phase = .deregister then some (s.withTcp s.trans.tcp.outputDeregister) else none
  | .leave =>
      if s.trans.tcp.phase = .leave then some (s.finish s.trans.tcp.outputLeave) else none
  | .recv found able =>
      match s.trans.tcp.phase, s.trans.recv with
      | .idle, .locked msgSize =>
          some { s with
            trans := if s.ssl then s.trans.doRecvLocked msgSize found able
              else s.trans.inputDataLocked found }
      | _, _ => none
  | .recvUpcall =>
      match s.trans.recv with
      | .upcall locals =>
          some { s with
            trans := s.trans.doRecvUpcall locals
            early := if s.inside && !(s.trans.recvUpcall locals).isEmpty then s.early + 1 else s.early }
      | _ => none
  | .recvLeave =>
      match s.trans.recv with
      | .leave msgSize =>
          let trans := s.trans.doRecvLeave msgSize
          some { s.finish trans.tcp with trans := trans }
      | _ => none
  | .finished =>
      match s.phase with
      | .calling _ false tasks => if s.between then some { s with phase := .dispatching tasks } else none
      | _ => none
  | .flush count => some { s with trans := { s.trans with recvPool := s.trans.recvPool.flush count } }
  | .fini => some (s.finish s.trans.tcp.fini)

/-- There is something to receive, from the descriptor or from the TLS context. -/
def findsData (s : PollState β) (found : ReadResult β) : Bool :=
  !s.trans.record.isEmpty ||
    match found with
    | .record bytes => !bytes.isEmpty
    | _ => false

/-- The function that is running was called for a hang-up, or for an event from before
`SuspendRecv`, or to write. -/
def strays (s : PollState β) : Bool :=
  match s.phase with
  | .calling (.onInput hup) _ _ => hup || !s.waited
  | _ => true

/-- No such function that was called while receiving is suspended finds data. -/
def Quiet (s : PollState β) (event : PollEvent β) : Prop :=
  match event with
  | .recv found _ => s.inside = true → s.strays = true → s.findsData found = false
  | _ => True

instance (s : PollState β) (event : PollEvent β) : Decidable (s.Quiet event) := by
  unfold Quiet
  split <;> infer_instance

/-- A read event that the worker knows of is a hang-up. -/
def HupOnly (phase : PollPhase) : Prop :=
  match phase with
  | .waiting => True
  | .ready events => events.input = false
  | .dispatching tasks => ∀ hup, PollTask.onInput hup ∈ tasks → hup = true
  | .calling task _ tasks => ∀ hup, PollTask.onInput hup ∈ task :: tasks → hup = true

structure Inv (s : PollState β) : Prop where
  closed : s.trans.tcp.hasObserver = false → s.registeredRd = false
  suspended : s.suspended = true → s.registeredRd = false
  waited : s.waited = true → HupOnly s.phase
  calm : s.inside = true → ∀ locals, s.trans.recv = .upcall locals →
    locals.error = true ∨ locals.received = []
  early : s.early = 0

variable {s s' : PollState β}

theorem inv_init (ssl : Bool) (size : Nat) (buf : Nat → β) : (init ssl size buf).Inv := by
  refine ⟨fun hclosed => ?_, fun hsuspended => ?_, fun hwaited => ?_, fun hinside => ?_, rfl⟩
  · cases ssl <;> cases hclosed
  · cases hsuspended
  · cases hwaited
  · cases hinside

theorem hasObserver_sendData (t : TcpTransport β) (buf : List β) (actionId : UInt64) :
    (t.sendData buf actionId).1.hasObserver = t.hasObserver := by
  rcases sendData_cases t buf actionId with hrefused | ⟨-, -, -, haccepted⟩
  · rw [hrefused]
  · rw [haccepted]
    exact (sameSlot_addWr t).hasObserver

theorem hasObserver_outputUpcall (t : TcpTransport β) (locals : OutputLocals) :
    (t.outputUpcall locals).hasObserver = t.hasObserver := by
  unfold outputUpcall
  split <;> rfl

theorem hasObserver_outputDeregister (t : TcpTransport β) :
    t.outputDeregister.hasObserver = t.hasObserver := by
  unfold outputDeregister
  dsimp only
  split <;> rfl

theorem hasObserver_outputData (t : TcpTransport β) (result : SendResult) :
    (t.outputData result).1.hasObserver = t.hasObserver := by
  unfold outputData
  split
  · split
    · rfl
    · split
      · rfl
      · dsimp only
        split <;> rfl
  · rfl

theorem hasObserver_outputLocked (t : TcpTransport β) (result : SendResult) :
    (t.outputLocked result).hasObserver = t.hasObserver := by
  unfold outputLocked
  split
  · rfl
  · split
    · dsimp only
      split
      · split <;> rfl
      · rfl
    · split
      · exact hasObserver_outputData t result
      · rfl

theorem hasObserver_doSendLocked (t : TcpTransport β) (result : SslResult) :
    (t.doSendLocked result).hasObserver = t.hasObserver := by
  unfold doSendLocked
  split
  · rfl
  · split
    · dsimp only
      split
      · split <;> rfl
      · rfl
    · cases result with
      | sent size => exact hasObserver_outputData t (.sent size)
      | wantRead =>
        unfold sslOutputData takeLocals
        dsimp only
        split <;> rfl
      | _ => rfl

theorem hasObserver_doRecvLocked (t : SslTransport β) (msgSize : Nat) (found : ReadResult β)
    (able : Bool) : (t.doRecvLocked msgSize found able).tcp.hasObserver = t.tcp.hasObserver := by
  have hregister : ∀ (t' : SslTransport β) (locals : RecvLocals β) (regWr : Bool),
      (if !locals.error && !t'.tcp.onWr && (regWr || t'.tcp.pendingWr || t'.tcp.requestOnSend) then
        if able then { t' with tcp := t'.tcp.addWr, recv := .upcall locals }
        else { t' with recv := .upcall { locals with error := true } }
      else { t' with recv := .upcall locals }).tcp.hasObserver = t'.tcp.hasObserver := by
    intro t' locals regWr
    split
    · split
      · exact (sameSlot_addWr t'.tcp).hasObserver
      · rfl
    · rfl
  unfold SslTransport.doRecvLocked
  split
  · rfl
  · dsimp only
    split
    · rfl
    · rw [hregister]
      split
      · split <;> rfl
      · rfl
      · rfl
      · rfl
      · rfl

theorem hasObserver_inputDataLocked (t : SslTransport β) (found : ReadResult β) :
    (t.inputDataLocked found).tcp.hasObserver = t.tcp.hasObserver := by
  unfold SslTransport.inputDataLocked
  split
  · rfl
  · dsimp only
    split
    · rfl
    · split
      · split <;> rfl
      · rfl
      · rfl
      · rfl
      · rfl

/-- A step that leaves the worker and `DoRecv` alone. -/
theorem Inv.frame (h : s.Inv) {trans : SslTransport β}
    (hopens : trans.tcp.hasObserver = s.trans.tcp.hasObserver)
    (hrecv : trans.recv = s.trans.recv ∨ ∀ locals, trans.recv ≠ .upcall locals) :
    PollState.Inv { s with trans := trans } := by
  refine ⟨fun hclosed => h.closed (hopens.symm.trans hclosed), h.suspended, h.waited, ?_, h.early⟩
  intro hinside locals hlocals
  rcases hrecv with hsame | hnot
  · exact h.calm hinside locals (hsame.symm.trans hlocals)
  · exact absurd hlocals (hnot locals)

theorem Inv.finish (h : s.Inv) {trans : SslTransport β}
    (hrecv : trans.recv = s.trans.recv ∨ ∀ locals, trans.recv ≠ .upcall locals) :
    PollState.Inv { s with
      trans := trans
      registeredRd := s.registeredRd && trans.tcp.hasObserver } := by
  refine ⟨fun hclosed => ?_, fun hsuspended => ?_, h.waited, ?_, h.early⟩
  · dsimp only at hclosed ⊢
    rw [hclosed, Bool.and_false]
  · dsimp only
    rw [h.suspended hsuspended, Bool.false_and]
  · intro hinside locals hlocals
    rcases hrecv with hsame | hnot
    · exact h.calm hinside locals (hsame.symm.trans hlocals)
    · exact absurd hlocals (hnot locals)

/-- Without data a section of `DoRecv` ends with an error, or with nothing received. -/
theorem calm_of_no_data (found : ReadResult β) (hnone : s.findsData found = false) (msgSize : Nat)
    (able : Bool) {locals : RecvLocals β}
    (hlocals : (if s.ssl then s.trans.doRecvLocked msgSize found able
      else s.trans.inputDataLocked found).recv = .upcall locals) :
    locals.error = true ∨ locals.received = [] := by
  unfold findsData at hnone
  rw [Bool.or_eq_false_iff, Bool.not_eq_false'] at hnone
  obtain ⟨hrecord, hfound⟩ := hnone
  cases hssl : s.ssl with
  | true =>
    rw [hssl, if_pos rfl] at hlocals
    unfold SslTransport.doRecvLocked sslRead at hlocals
    simp only [hrecord, if_true] at hlocals
    cases found with
    | record bytes =>
      rw [Bool.not_eq_false', List.isEmpty_iff] at hfound
      subst hfound
      simp only [List.take_nil, List.isEmpty_nil, if_true] at hlocals
      split at hlocals
      · cases hlocals
      · split at hlocals
        · cases hlocals
          exact .inl rfl
        · split at hlocals
          · split at hlocals <;> (cases hlocals; exact .inl rfl)
          · cases hlocals
            exact .inl rfl
    | _ =>
      dsimp only at hlocals
      split at hlocals
      · cases hlocals
      · split at hlocals
        · cases hlocals
          exact .inl rfl
        · split at hlocals
          · split at hlocals <;> (cases hlocals; exact .inr rfl)
          · cases hlocals
            exact .inr rfl
  | false =>
    rw [hssl, if_neg (by decide)] at hlocals
    unfold SslTransport.inputDataLocked at hlocals
    dsimp only at hlocals
    split at hlocals
    · cases hlocals
    · split at hlocals
      · cases hlocals
        exact .inl rfl
      · cases found with
        | record bytes =>
          rw [Bool.not_eq_false', List.isEmpty_iff] at hfound
          subst hfound
          simp only [List.take_nil, List.isEmpty_nil, if_true] at hlocals
          cases hlocals
          exact .inl rfl
        | _ =>
          cases hlocals
          exact .inr rfl

theorem hupOnly_tasksOf {events : ReadyEvents} (hinput : events.input = false) :
    HupOnly (.dispatching (tasksOf events)) := by
  intro hup hmem
  unfold tasksOf at hmem
  split at hmem
  · rw [List.mem_singleton] at hmem
    cases hmem
  · rcases List.mem_append.mp hmem with hmem | hmem
    · split at hmem
      · rw [List.mem_singleton] at hmem
        cases hmem
      · cases hmem
    · split at hmem
      · rename_i hread
        rw [List.mem_singleton] at hmem
        cases hmem
        rwa [hinput, Bool.false_or] at hread
      · cases hmem

/-- A function that reads while receiving is suspended was called for a reason that
`SuspendRecv` does not take away. -/
theorem Inv.strays (h : s.Inv) (hwaited : s.waited = true) : s.strays = true := by
  have hhup := h.waited hwaited
  unfold PollState.strays
  split
  · rename_i hup _ tasks hphase
    rw [hphase] at hhup
    rw [hhup hup List.mem_cons_self, Bool.true_or]
  · rfl

theorem Inv.recv (h : s.Inv) {msgSize : Nat} {found : ReadResult β} {able : Bool}
    (hquiet : s.Quiet (.recv found able)) :
    PollState.Inv { s with
      trans := if s.ssl then s.trans.doRecvLocked msgSize found able else s.trans.inputDataLocked found } := by
  refine ⟨fun hclosed => h.closed ?_, h.suspended, h.waited, ?_, h.early⟩
  · dsimp only at hclosed
    split at hclosed
    · rwa [hasObserver_doRecvLocked] at hclosed
    · rwa [hasObserver_inputDataLocked] at hclosed
  intro hinside locals hlocals
  have hstrays : s.strays = true := by
    cases hwaited : s.waited with
    | true => exact h.strays hwaited
    | false =>
      unfold PollState.strays
      split
      · rw [hwaited, Bool.not_false, Bool.or_true]
      · rfl
  exact calm_of_no_data found (hquiet hinside hstrays) msgSize able hlocals

theorem Inv.recvUpcall (h : s.Inv) {locals : RecvLocals β} (hrecv : s.trans.recv = .upcall locals) :
    PollState.Inv { s with
      trans := s.trans.doRecvUpcall locals
      early := if s.inside && !(s.trans.recvUpcall locals).isEmpty then s.early + 1 else s.early } := by
  refine ⟨fun hclosed => h.closed ?_, h.suspended, h.waited, fun _ locals' hlocals => (by cases hlocals), ?_⟩
  · unfold SslTransport.doRecvUpcall at hclosed
    dsimp only at hclosed
    split at hclosed <;> exact hclosed
  dsimp only
  rw [if_neg]
  · exact h.early
  · rw [Bool.and_eq_true]
    rintro ⟨hinside, hcalled⟩
    unfold SslTransport.recvUpcall at hcalled
    rcases h.calm hinside locals hrecv with herror | hnothing
    · rw [herror, Bool.not_true, Bool.and_false] at hcalled
      cases hcalled
    · rw [hnothing, ite_self] at hcalled
      cases hcalled

theorem recv_of_between (hbetween : s.between = true) : s.trans.recv = .idle := by
  unfold between at hbetween
  split at hbetween
  · assumption
  · cases hbetween

theorem Inv.step (h : s.Inv) {event : PollEvent β} (hquiet : s.Quiet event)
    (hstep : s.step event = some s') : s'.Inv := by
  have hkeep : ∀ {tcp : TcpTransport β}, tcp.hasObserver = s.trans.tcp.hasObserver →
      PollState.Inv (s.withTcp tcp) := fun hopens => h.frame hopens (.inl rfl)
  unfold PollState.step at hstep
  cases event with
  | suspendRecv =>
    cases hstep
    have hread : (if s.trans.tcp.hasObserver then false else s.registeredRd) = false := by
      split
      · rfl
      · rename_i hclosed
        exact h.closed (Bool.eq_false_iff.mpr hclosed)
    exact ⟨fun _ => hread, fun _ => hread, h.waited, h.calm, h.early⟩
  | resumeRecv able =>
    cases hstep
    refine ⟨fun hclosed => ?_, fun hsuspended => ?_, fun hwaited => ?_, fun hinside => ?_, h.early⟩
    case refine_2 => cases hsuspended
    case refine_3 => cases hwaited
    case refine_4 => cases hinside
    dsimp only at hclosed ⊢
    rw [h.closed hclosed, hclosed]
    rfl
  | sendData buf actionId able =>
    cases hstep
    split
    · exact hkeep (hasObserver_sendData _ _ _)
    · exact h
  | requestOnSend able =>
    cases hstep
    split
    · exact hkeep (request_spec _).1
    · exact h
  | wait events =>
    obtain ⟨hready, hsome⟩ := Option.ite_none_right_eq_some.mp hstep
    cases hsome
    refine ⟨h.closed, h.suspended, fun hwaited => ?_, h.calm, h.early⟩
    simp only [Bool.and_eq_true, Bool.or_eq_true, Bool.not_eq_true', decide_eq_true_eq] at hready
    refine hready.1.2.resolve_right ?_
    rw [h.suspended hwaited]
    decide
  | collect =>
    dsimp only at hstep
    split at hstep
    · rename_i events hphase
      cases hstep
      refine ⟨h.closed, h.suspended, fun hwaited => ?_, h.calm, h.early⟩
      have hinput := h.waited hwaited
      rw [hphase] at hinput
      dsimp only
      split
      · exact hupOnly_tasksOf hinput
      · intro hup hmem
        cases hmem
    · cases hstep
  | call =>
    dsimp only at hstep
    split at hstep
    · cases hstep
      exact ⟨h.closed, h.suspended, fun _ => trivial, h.calm, h.early⟩
    · rename_i task tasks hphase
      obtain ⟨hbetween, hsome⟩ := Option.ite_none_right_eq_some.mp hstep
      cases hsome
      refine ⟨fun hclosed => h.closed ?_, h.suspended, fun hwaited => ?_, fun _ locals hlocals => ?_,
        h.early⟩
      · cases task <;> exact hclosed
      · have hhup := h.waited hwaited
        rw [hphase] at hhup
        exact hhup
      · have hidle := recv_of_between hbetween
        cases task with
        | onInput hup => cases hlocals
        | _ =>
          rw [show s.trans.recv = .upcall locals from hlocals] at hidle
          cases hidle
    · cases hstep
  | output result =>
    dsimp only at hstep
    split at hstep
    · rename_i tasks hphase
      cases hstep
      have hhup : s.waited = true → HupOnly (.calling .onOutput false tasks) := by
        intro hwaited
        have hhup := h.waited hwaited
        rw [hphase] at hhup
        exact hhup
      split
      · refine ⟨fun hclosed => h.closed ?_, h.suspended, hhup, fun _ locals hlocals => (by cases hlocals),
          h.early⟩
        rwa [hasObserver_doSendLocked] at hclosed
      · refine ⟨fun hclosed => h.closed ?_, h.suspended, hhup, h.calm, h.early⟩
        rwa [hasObserver_outputLocked] at hclosed
    · cases hstep
  | upcall =>
    dsimp only at hstep
    split at hstep
    · cases hstep
      exact hkeep (hasObserver_outputUpcall _ _)
    · cases hstep
  | deregister =>
    obtain ⟨-, hsome⟩ := Option.ite_none_right_eq_some.mp hstep
    cases hsome
    exact hkeep (hasObserver_outputDeregister _)
  | leave =>
    obtain ⟨-, hsome⟩ := Option.ite_none_right_eq_some.mp hstep
    cases hsome
    exact h.finish (.inl rfl)
  | recv found able =>
    dsimp only at hstep
    split at hstep
    · cases hstep
      exact h.recv hquiet
    · cases hstep
  | recvUpcall =>
    dsimp only at hstep
    split at hstep
    · rename_i locals hrecv
      cases hstep
      exact h.recvUpcall hrecv
    · cases hstep
  | recvLeave =>
    dsimp only at hstep
    split at hstep
    · rename_i msgSize hrecv
      cases hstep
      refine h.finish (.inr fun locals hupcall => ?_)
      unfold SslTransport.doRecvLeave at hupcall
      split at hupcall
      · cases hupcall
      · split at hupcall
        · cases hupcall
        · cases hupcall
    · cases hstep
  | finished =>
    dsimp only at hstep
    split at hstep
    · rename_i task tasks hphase
      obtain ⟨-, hsome⟩ := Option.ite_none_right_eq_some.mp hstep
      cases hsome
      refine ⟨h.closed, h.suspended, fun hwaited => ?_, h.calm, h.early⟩
      have hhup := h.waited hwaited
      rw [hphase] at hhup
      exact fun hup hmem => hhup hup (List.mem_cons_of_mem _ hmem)
    · cases hstep
  | flush count =>
    cases hstep
    exact h.frame rfl (.inl rfl)
  | fini =>
    cases hstep
    exact h.finish (.inl rfl)

/-- In a quiet run nothing is received while receiving is suspended. -/
theorem quiet_of_run (ssl : Bool) (size : Nat) (buf : Nat → β) {events : List (PollEvent β)}
    {final : PollState β} (hquiet : Guarded step Quiet (init ssl size buf) events)
    (hrun : run step (init ssl size buf) events = some final) : final.early = 0 := by
  have hinv : final.Inv := run_preserves (fun _ _ _ hs hguard hnext => Inv.step hs hguard hnext)
    (inv_init ssl size buf) hquiet hrun
  exact hinv.early

/-- `AddBaseUser` without TLS: the response is sent while receiving is suspended. -/
def addBaseUser : List (PollEvent UInt8) :=
  [.suspendRecv, .sendData [0] 0 true, .wait ⟨false, true, false, false⟩, .collect, .call,
    .output (.sent 1), .upcall, .deregister, .leave, .finished, .call, .resumeRecv true,
    .wait ⟨true, false, false, false⟩, .collect, .call, .recv (.record [7]) true, .recvUpcall,
    .recvLeave, .finished]

theorem quiet_of_run_addBaseUser :
    ∃ final : PollState UInt8, run step (init false 8 fun _ => 0) addBaseUser = some final ∧
      final.early = 0 := by
  have hends : (run step (init false 8 fun _ => (0 : UInt8)) addBaseUser).isSome = true := by
    decide +kernel
  obtain ⟨final, hfinal⟩ := Option.isSome_iff_exists.mp hends
  exact ⟨final, hfinal, quiet_of_run false 8 (fun _ => 0) (by decide +kernel) hfinal⟩

/-- With TLS the response is written, and what the peer has sent is read after it. -/
def eagerClient : List (PollEvent UInt8) :=
  [.suspendRecv, .sendData [0] 0 true, .wait ⟨false, true, false, false⟩, .collect, .call,
    .output (.sent 1), .upcall, .deregister, .leave, .recv (.record [7]) true, .recvUpcall]

/-- Without TLS the peer of a unix socket has sent and closed, and nothing is written. -/
def hangUp : List (PollEvent UInt8) :=
  [.suspendRecv, .requestOnSend true, .wait ⟨false, true, true, false⟩, .collect, .call,
    .output (.failed ewouldblock), .upcall, .deregister, .leave, .finished, .call,
    .recv (.record [7]) true, .recvUpcall]

/-- Without TLS `epoll_wait` has returned before receiving is suspended. -/
def staleEvent : List (PollEvent UInt8) :=
  [.wait ⟨true, false, false, false⟩, .suspendRecv, .sendData [0] 0 true, .collect, .call,
    .recv (.record [7]) true, .recvUpcall]

/-- A transport of either kind receives while it is suspended, one without TLS after a
hang-up and for a stale event. -/
theorem suspended_receives :
    (¬∀ events final, run step (init true 8 fun _ => (0 : UInt8)) events = some final → final.early = 0) ∧
      (¬∀ events final, run step (init false 8 fun _ => (0 : UInt8)) events = some final →
        final.early = 0) ∧
      ∀ events ∈ [hangUp, staleEvent],
        (run step (init false 8 fun _ => (0 : UInt8)) events).any (·.early = 1) = true := by
  have hssl : (run step (init true 8 fun _ => (0 : UInt8)) eagerClient).any (·.early = 1) = true := by
    decide +kernel
  have htcp : ∀ events ∈ [hangUp, staleEvent],
      (run step (init false 8 fun _ => (0 : UInt8)) events).any (·.early = 1) = true := by
    decide +kernel
  refine ⟨fun hclaim => ?_, fun hclaim => ?_, htcp⟩
  · obtain ⟨final, hfinal, hone⟩ := (Option.any_eq_true _ _).mp hssl
    rw [hclaim eagerClient final hfinal] at hone
    cases hone
  · obtain ⟨final, hfinal, hone⟩ := (Option.any_eq_true _ _).mp (htcp staleEvent (by simp))
    rw [hclaim staleEvent final hfinal] at hone
    cases hone

end PollState

end Pronet.Net
