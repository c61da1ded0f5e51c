import Pronet.Library.Runs
import Pronet.Net.SslHandshaker

/-! Every run of a TLS handshaker. The reactor's thread calls `OnInput`, `OnError`, and
`OnOutput` in two sections; the timer, `Fini` and the destructor come in between. The
destructor waits for the sections and callbacks that hold a reference. -/
namespace Pronet.Net

open Library Runs

variable {β : Type*}

/-- A callback, and whether `Fini` had run when it was chosen and when it was made. -/
structure SslHandshakeMade (β : Type*) where
  call : SslHandshakeCall β
  chosenLate : Bool
  madeLate : Bool
  deriving DecidableEq, Repr

/-- A handshaker with what its TLS context has accepted and decrypted, what
`mbedtls_ssl_handshake` has returned last to `DoRecv`, and the `OnOutput` that is half done. -/
structure SslHandshakeRun (β : Type*) where
  handshaker : SslHandshaker β
  written : List β
  opened : List β
  asked : HandshakeStep
  half : Option Nat
  chosen : Option (SslHandshakeCall β × Bool)
  finished : Bool
  made : List (SslHandshakeMade β)
  notices : List Nat
  closed : List Nat
  deleted : List Nat
  destroyed : Bool

inductive SslHandshakeEvent (β : Type*)
  | onInput (sockId : Nat) (shake : HandshakeStep) (found : ReadResult β) (able : Bool)
  | onOutput (sockId : Nat) (shake : HandshakeStep) (result : SslResult) (alloc : Bool)
  | outputRecv (shake : HandshakeStep) (found : ReadResult β) (able : Bool)
  | onError (sockId : Nat) (errorCode : Int)
  | onTimer (timerId : Nat)
  | upcall
  | fini
  | destroy
  deriving DecidableEq, Repr

namespace SslHandshakeRun

def start (h : SslHandshaker β) : SslHandshakeRun β :=
  ⟨h, [], [], .wantRead, none, none, false, [], [], [], [], false⟩

/-- A section has run. -/
def enter (w : SslHandshakeRun β) (r : SslHandshaker β × Option (SslHandshakeCall β)) :
    SslHandshakeRun β :=
  { w with
    handshaker := r.1
    chosen := r.2.elim w.chosen fun call => some (call, w.finished) }

def doRecv (w : SslHandshakeRun β) (sockId : Nat) (shake : HandshakeStep) (found : ReadResult β)
    (able : Bool) : SslHandshakeRun β :=
  { w with
    opened := w.opened ++ w.handshaker.begins sockId shake found
    asked := if w.handshaker.deaf || w.handshaker.sockId ≠ some sockId then w.asked else shake }.enter
    (w.handshaker.doRecv sockId shake found able)

/-- `Fini`, with its close notify. -/
def fini (w : SslHandshakeRun β) : SslHandshakeRun β :=
  { w with
    handshaker := w.handshaker.fini
    finished := true
    notices := w.notices ++ if w.handshaker.notifies then w.handshaker.ctx.toList else [] }

def perform (w : SslHandshakeRun β) : SslHandshakeEvent β → Option (SslHandshakeRun β)
  | .onInput sockId shake found able =>
      if w.half.isSome then none else some (w.doRecv sockId shake found able)
  | .onOutput sockId shake result alloc =>
      if w.half.isSome then none
      else
        some ({ w with
          written := w.written ++ w.handshaker.accepts sockId shake result
          half := some sockId }.enter (w.handshaker.doSend sockId shake result alloc))
  | .outputRecv shake found able =>
      w.half.map fun sockId => { w with half := none }.doRecv sockId shake found able
  | .onError sockId errorCode =>
      if w.half.isSome then none else some (w.enter (w.handshaker.onError sockId errorCode))
  | .onTimer timerId => some (w.enter (w.handshaker.onTimer timerId))
  | .upcall =>
      w.chosen.map fun (call, chosenLate) =>
        { w with chosen := none, made := w.made ++ [⟨call, chosenLate, w.finished⟩] }
  | .fini => some w.fini
  | .destroy =>
      if w.chosen.isSome || w.half.isSome then none
      else
        some { w.fini with
          handshaker := { w.handshaker.fini with ctx := none, sockId := none }
          closed := w.closed ++ w.handshaker.sockId.toList
          deleted := w.deleted ++ w.handshaker.ctx.toList
          destroyed := true }

def step (w : SslHandshakeRun β) (e : SslHandshakeEvent β) : Option (SslHandshakeRun β) :=
  if w.destroyed then none else w.perform e

/-- The callback that has been made or is about to be made. -/
def calls (w : SslHandshakeRun β) : List (SslHandshakeCall β) :=
  w.made.map SslHandshakeMade.call ++ w.chosen.toList.map Prod.fst

/-- The socket and the TLS context are the handshaker's, or have been disposed of once. -/
structure Owned (data : SslHandshakeData β) (w : SslHandshakeRun β) : Prop where
  sock : w.handshaker.sockId.toList ++ w.closed = [data.sockId]
  ctx : w.handshaker.ctx.toList ++ w.deleted = [data.ctx]

/-- They belong to the observer. -/
structure GivenAway (w : SslHandshakeRun β) : Prop where
  sock : w.handshaker.sockId.toList ++ w.closed = []
  ctx : w.handshaker.ctx.toList ++ w.deleted = []
  notices : w.notices = []

/-- A handshaker that has chosen its callback, or that `Fini` has stopped before. -/
inductive Ended (data : SslHandshakeData β) (toSend : List β) (w : SslHandshakeRun β) : Prop
  | stopped (hcalls : w.calls = []) (hfinished : w.finished = true) (howned : w.Owned data)
  | failed (errorCode sslCode : Int) (hcalls : w.calls = [.onHandshakeError errorCode sslCode])
      (howned : w.Owned data)
  | succeeded (buf : List β)
      (hcalls : w.calls = [.onHandshakeOk data.ctx data.sockId data.unixSocket buf])
      (hgiven : w.GivenAway) (hok : w.handshaker.sslOk = true) (hsent : w.written = toSend)
      (hreceived : buf.length = data.recvDataSize) (hstream : buf ++ w.handshaker.record = w.opened)

/-- A handshaker at work. -/
structure Working (data : SslHandshakeData β) (toSend : List β) (w : SslHandshakeRun β) : Prop where
  isOpen : w.handshaker.Open data toSend w.written w.opened
  drained : SslHandshaker.Drained data w.handshaker
  settled : w.half ≠ some data.sockId → SslHandshaker.Settled data w.asked w.handshaker
  calls : w.calls = []
  finished : w.finished = false
  notices : w.notices = []
  closed : w.closed = []
  deleted : w.deleted = []

structure Inv (data : SslHandshakeData β) (toSend : List β) (w : SslHandshakeRun β) : Prop where
  working : w.handshaker.hasObserver = true → w.Working data toSend
  ended : w.handshaker.hasObserver = false → w.Ended data toSend
  written : w.written <+: toSend
  order : data.recvFirst = true → w.written ≠ [] → data.recvDataSize ≤ w.opened.length
  chosen : ∀ entry ∈ w.chosen, entry.2 = false
  made : ∀ entry ∈ w.made, entry.chosenLate = false
  notices : ∀ ctx ∈ w.notices, ctx = data.ctx
  alive : w.destroyed = false → w.closed = [] ∧ w.deleted = []
  dead : w.destroyed = true → w.chosen = none ∧ w.handshaker.sockId = none ∧ w.handshaker.ctx = none ∧
    w.handshaker.hasObserver = false

variable {data : SslHandshakeData β} {toSend : List β} {w : SslHandshakeRun β}

theorem inv_start {env : HandshakeEnv β} {h : SslHandshaker β}
    (hinit : SslHandshaker.init data env = some h) :
    (start h).Inv data (TcpHandshaker.filled data.toHandshakeData env) := by
  obtain ⟨hopen, hdrained, harmed⟩ := SslHandshaker.open_init hinit
  have hsettled : SslHandshaker.Settled data .wantRead h := ⟨harmed, fun _ hask => by cases hask⟩
  refine ⟨fun _ => ⟨hopen, hdrained, fun _ => hsettled, rfl, rfl, rfl, rfl, rfl⟩, ?_, List.nil_prefix, ?_, ?_,
    ?_, ?_, fun _ => ⟨rfl, rfl⟩, ?_⟩
  · intro hclosed
    have hobserver := hopen.hasObserver
    rw [show h.hasObserver = false from hclosed] at hobserver
    cases hobserver
  · intro _ hne
    exact absurd rfl hne
  · intro entry hentry
    cases hentry
  · intro entry hentry
    cases hentry
  · intro ctx hctx
    cases hctx
  · intro hdead
    cases hdead

/-- A section of a working handshaker, with the bytes that it has moved. -/
theorem Inv.enter (h : w.Inv data toSend) (hobserver : w.handshaker.hasObserver = true)
    {written opened : List β} {asked : HandshakeStep} {half : Option Nat} (hpre : written <+: toSend)
    (horder : data.recvFirst = true → written ≠ [] → data.recvDataSize ≤ opened.length)
    {r : SslHandshaker β × Option (SslHandshakeCall β)}
    (houtcome : SslHandshaker.Outcome data toSend written opened r)
    (hsettled : r.2 = none → half ≠ some data.sockId → SslHandshaker.Settled data asked r.1) :
    Inv data toSend
      (SslHandshakeRun.enter
        { w with written := written, opened := opened, asked := asked, half := half } r) := by
  obtain ⟨-, -, -, hcalls, hfinished, hnotices, hclosed, hdeleted⟩ := h.working hobserver
  have hnone : w.made = [] ∧ w.chosen = none := by
    simpa [calls] using hcalls
  have hdead : w.destroyed = false := by
    by_contra hdestroyed
    rw [Bool.not_eq_false] at hdestroyed
    have := (h.dead hdestroyed).2.2.2
    rw [hobserver] at this
    cases this
  cases houtcome with
  | goesOn hnext hdrained =>
    refine ⟨fun _ => ⟨hnext, hdrained, hsettled rfl, hcalls, hfinished, hnotices, hclosed, hdeleted⟩, ?_, hpre,
      horder, h.chosen, h.made, h.notices, h.alive, ?_⟩
    · intro hleft
      cases hnext.hasObserver.symm.trans hleft
    · intro hdestroyed
      rw [show w.destroyed = true from hdestroyed] at hdead
      cases hdead
  | fails hleft hctx hsock errorCode sslCode =>
    refine ⟨?_, ?_, hpre, horder, ?_, h.made, h.notices, h.alive, ?_⟩
    · intro hstill
      rw [SslHandshakeRun.enter] at hstill
      rw [hleft] at hstill
      cases hstill
    · intro _
      refine .failed errorCode sslCode ?_ ⟨?_, ?_⟩
      · simp [calls, SslHandshakeRun.enter, hnone.1]
      · simp [SslHandshakeRun.enter, hsock, hclosed]
      · simp [SslHandshakeRun.enter, hctx, hdeleted]
    · intro entry hentry
      cases hentry
      exact hfinished
    · intro hdestroyed
      rw [show w.destroyed = true from hdestroyed] at hdead
      cases hdead
  | succeeds hleft hctx hsock hok hsent hreceived hstream =>
    rename_i buf
    refine ⟨?_, ?_, hpre, horder, ?_, h.made, h.notices, h.alive, ?_⟩
    · intro hstill
      rw [SslHandshakeRun.enter] at hstill
      rw [hleft] at hstill
      cases hstill
    · intro _
      refine .succeeded buf ?_ ⟨?_, ?_, hnotices⟩ hok hsent hreceived hstream
      · simp [calls, SslHandshakeRun.enter, hnone.1]
      · simp [SslHandshakeRun.enter, hsock, hclosed]
      · simp [SslHandshakeRun.enter, hctx, hdeleted]
    · intro entry hentry
      cases hentry
      exact hfinished
    · intro hdestroyed
      rw [show w.destroyed = true from hdestroyed] at hdead
      cases hdead

theorem deaf_of_left {h : SslHandshaker β} (hleft : h.hasObserver = false) : h.deaf = true := by
  unfold SslHandshaker.deaf
  rw [hleft]
  rfl

/-- A section that finds no observer, or the socket of another handshaker, does nothing. -/
theorem begins_deaf {h : SslHandshaker β} {sockId : Nat} (hdeaf : (h.deaf || decide (h.sockId ≠ some sockId)) = true)
    (shake : HandshakeStep) (found : ReadResult β) : h.begins sockId shake found = [] := by
  have hshaken : h.shaken sockId shake = false := by
    unfold SslHandshaker.shaken
    rcases (Bool.or_eq_true _ _).mp hdeaf with hdeaf | hsock
    · rw [hdeaf]
      rfl
    · simp [of_decide_eq_true hsock]
  unfold SslHandshaker.begins
  rw [hshaken]
  cases found <;> rfl

theorem accepts_deaf {h : SslHandshaker β} {sockId : Nat}
    (hdeaf : (h.deaf || decide (h.sockId ≠ some sockId)) = true) (shake : HandshakeStep) (result : SslResult) :
    h.accepts sockId shake result = [] := by
  have hshaken : h.shaken sockId shake = false := by
    unfold SslHandshaker.shaken
    rcases (Bool.or_eq_true _ _).mp hdeaf with hdeaf | hsock
    · rw [hdeaf]
      rfl
    · simp [of_decide_eq_true hsock]
  unfold SslHandshaker.accepts
  rw [hshaken]
  rfl

theorem Inv.order_opened (h : w.Inv data toSend) (more : List β) (hfirst : data.recvFirst = true)
    (hsome : w.written ≠ []) : data.recvDataSize ≤ (w.opened ++ more).length := by
  have := h.order hfirst hsome
  rw [List.length_append]
  omega

/-- A section of a handshaker that hears nothing. -/
theorem Inv.half (h : w.Inv data toSend) {half : Option Nat}
    (hhalf : w.handshaker.hasObserver = true → half ≠ some data.sockId → w.half ≠ some data.sockId) :
    Inv data toSend { w with half := half } := by
  refine ⟨?_, ?_, h.written, h.order, h.chosen, h.made, h.notices, h.alive, h.dead⟩
  · intro hobserver
    have hworking := h.working hobserver
    exact { hworking with settled := fun hne => hworking.settled (hhalf hobserver hne) }
  · intro hleft
    cases h.ended hleft with
    | stopped hcalls hfinished howned => exact .stopped hcalls hfinished ⟨howned.sock, howned.ctx⟩
    | failed errorCode sslCode hcalls howned => exact .failed errorCode sslCode hcalls ⟨howned.sock, howned.ctx⟩
    | succeeded buf hcalls hgiven hok hsent hreceived hstream =>
      exact .succeeded buf hcalls ⟨hgiven.sock, hgiven.ctx, hgiven.notices⟩ hok hsent hreceived hstream

/-- `DoRecv`, which leaves the masks as they are needed. -/
theorem Inv.doRecv (h : w.Inv data toSend) {sockId : Nat} (hhalf : w.half = none ∨ w.half = some sockId)
    (shake : HandshakeStep) (found : ReadResult β) (able : Bool) :
    Inv data toSend ({ w with half := none }.doRecv sockId shake found able) := by
  unfold SslHandshakeRun.doRecv
  dsimp only
  by_cases hdeaf : (w.handshaker.deaf || decide (w.handshaker.sockId ≠ some sockId)) = true
  · have hnothing : w.handshaker.doRecv sockId shake found able = (w.handshaker, none) := by
      unfold SslHandshaker.doRecv
      exact if_pos hdeaf
    rw [begins_deaf hdeaf, hnothing, if_pos hdeaf, List.append_nil]
    refine h.half ?_
    intro hobserver _ heq
    have hopen := (h.working hobserver).isOpen
    rw [hopen.not_deaf, Bool.false_or, decide_eq_true_eq, hopen.sockId] at hdeaf
    rcases hhalf with hhalf | hhalf
    · rw [hhalf] at heq
      cases heq
    · exact hdeaf (heq.symm.trans hhalf)
  · have hobserver : w.handshaker.hasObserver = true := by
      by_contra hleft
      rw [Bool.not_eq_true] at hleft
      rw [deaf_of_left hleft] at hdeaf
      exact hdeaf rfl
    obtain ⟨hopen, hdrained, -⟩ := h.working hobserver
    have hsock : sockId = data.sockId := by
      rw [hopen.not_deaf, Bool.false_or, decide_eq_true_eq, hopen.sockId] at hdeaf
      exact (Option.some.inj (not_not.mp hdeaf)).symm
    subst hsock
    obtain ⟨houtcome, hsettled⟩ := hopen.doRecv hdrained shake found able
    rw [if_neg hdeaf]
    exact h.enter hobserver h.written (h.order_opened _) houtcome fun hnone _ => hsettled hnone

/-- `DoSend`, the first half of `OnOutput`. -/
theorem Inv.doSend (h : w.Inv data toSend) (hhalf : w.half = none) (sockId : Nat) (shake : HandshakeStep)
    (result : SslResult) (alloc : Bool) :
    Inv data toSend (SslHandshakeRun.enter
      { w with written := w.written ++ w.handshaker.accepts sockId shake result, half := some sockId }
      (w.handshaker.doSend sockId shake result alloc)) := by
  by_cases hdeaf : (w.handshaker.deaf || decide (w.handshaker.sockId ≠ some sockId)) = true
  · have hnothing : w.handshaker.doSend sockId shake result alloc = (w.handshaker, none) := by
      unfold SslHandshaker.doSend
      exact if_pos hdeaf
    rw [accepts_deaf hdeaf, hnothing, List.append_nil]
    refine h.half ?_
    intro _ _ heq
    rw [hhalf] at heq
    cases heq
  · have hobserver : w.handshaker.hasObserver = true := by
      by_contra hleft
      rw [Bool.not_eq_true] at hleft
      rw [deaf_of_left hleft] at hdeaf
      exact hdeaf rfl
    obtain ⟨hopen, hdrained, -⟩ := h.working hobserver
    have hsock : sockId = data.sockId := by
      rw [hopen.not_deaf, Bool.false_or, decide_eq_true_eq, hopen.sockId] at hdeaf
      exact (Option.some.inj (not_not.mp hdeaf)).symm
    subst hsock
    refine h.enter hobserver ?_ ?_ (hopen.doSend hdrained shake result alloc) fun _ hne => absurd rfl hne
    · rw [← hopen.sendPool.preSend, List.prefix_append_right_inj]
      exact w.handshaker.accepts_prefix data.sockId shake result
    · intro hfirst hsome
      by_cases hold : w.written = []
      · rw [hold, List.nil_append] at hsome
        exact hopen.order_accepts hfirst hsome
      · exact h.order hfirst hold

/-- `OnError` and `OnTimer` move no bytes. -/
theorem Inv.onQuiet (h : w.Inv data toSend) {r : SslHandshaker β × Option (SslHandshakeCall β)}
    (hr : r = (w.handshaker, none) ∨
      w.handshaker.hasObserver = true ∧ ∃ errorCode, r = w.handshaker.fail errorCode 0) :
    Inv data toSend (w.enter r) := by
  rcases hr with rfl | ⟨hobserver, errorCode, rfl⟩
  · exact h
  · have hopen := (h.working hobserver).isOpen
    have houtcome : SslHandshaker.Outcome data toSend w.written w.opened (w.handshaker.fail errorCode 0) :=
      SslHandshaker.outcome_fail hopen.ctx hopen.sockId errorCode 0
    exact h.enter hobserver h.written h.order houtcome fun hnone => by cases hnone

theorem Inv.upcall (h : w.Inv data toSend) {call : SslHandshakeCall β} {chosenLate : Bool}
    (hchosen : w.chosen = some (call, chosenLate)) :
    Inv data toSend
      { w with chosen := none, made := w.made ++ [⟨call, chosenLate, w.finished⟩] } := by
  have hcalls : calls { w with
      chosen := none, made := w.made ++ [⟨call, chosenLate, w.finished⟩] } = w.calls := by
    simp [calls, hchosen]
  refine ⟨?_, ?_, h.written, h.order, ?_, ?_, h.notices, h.alive, ?_⟩
  · intro hobserver
    have hworking := h.working hobserver
    exact { hworking with calls := hcalls.trans hworking.calls }
  · intro hobserver
    cases h.ended hobserver with
    | stopped hnone hfinished howned =>
      exact .stopped (hcalls.trans hnone) hfinished ⟨howned.sock, howned.ctx⟩
    | failed errorCode sslCode hfailed howned =>
      exact .failed errorCode sslCode (hcalls.trans hfailed) ⟨howned.sock, howned.ctx⟩
    | succeeded buf hdone hgiven hok hsent hreceived hstream =>
      exact .succeeded buf (hcalls.trans hdone) ⟨hgiven.sock, hgiven.ctx, hgiven.notices⟩ hok hsent hreceived
        hstream
  · intro entry hentry
    cases hentry
  · intro entry hentry
    rcases List.mem_append.mp hentry with hentry | hentry
    · exact h.made entry hentry
    · rw [List.mem_singleton.mp hentry]
      exact h.chosen _ hchosen
  · intro hdestroyed
    exact ⟨rfl, (h.dead hdestroyed).2⟩

/-- What `Fini` leaves of a handshaker. -/
theorem fini_parts (h : SslHandshaker β) : h.fini.sockId = h.sockId ∧ h.fini.ctx = h.ctx ∧
    h.fini.sslOk = h.sslOk ∧ h.fini.record = h.record := by
  unfold SslHandshaker.fini
  split
  · exact ⟨rfl, rfl, rfl, rfl⟩
  · exact ⟨rfl, rfl, rfl, rfl⟩

theorem Inv.owner (h : w.Inv data toSend) : w.Owned data ∨ w.GivenAway := by
  cases hobserver : w.handshaker.hasObserver with
  | true =>
    obtain ⟨hopen, -, -, -, -, -, hclosed, hdeleted⟩ := h.working hobserver
    left
    refine ⟨?_, ?_⟩
    · rw [hopen.sockId, hclosed]
      rfl
    · rw [hopen.ctx, hdeleted]
      rfl
  | false =>
    cases h.ended hobserver with
    | stopped hcalls hfinished howned => exact .inl howned
    | failed errorCode sslCode hcalls howned => exact .inl howned
    | succeeded buf hcalls hgiven hok hsent hreceived hstream => exact .inr hgiven

/-- A close notify goes to the handshaker's own context. -/
theorem Inv.notices_fini (h : w.Inv data toSend) : ∀ ctx ∈ w.fini.notices, ctx = data.ctx := by
  intro ctx hmem
  rcases List.mem_append.mp hmem with hmem | hmem
  · exact h.notices ctx hmem
  · split at hmem
    · rcases h.owner with howned | hgiven
      · have hall : ctx ∈ w.handshaker.ctx.toList ++ w.deleted := List.mem_append_left _ hmem
        rw [howned.ctx, List.mem_singleton] at hall
        exact hall
      · rw [(List.append_eq_nil_iff.mp hgiven.ctx).1] at hmem
        cases hmem
    · cases hmem

theorem GivenAway.fini (h : w.GivenAway) : w.fini.notices = [] := by
  have hctx := (List.append_eq_nil_iff.mp h.ctx).1
  unfold SslHandshakeRun.fini
  dsimp only
  rw [h.notices, hctx]
  split <;> rfl

theorem fini_left (h : w.Inv data toSend) : w.handshaker.fini.hasObserver = false := by
  unfold SslHandshaker.fini
  split
  · rename_i hdeaf
    by_contra hobserver
    rw [Bool.not_eq_false] at hobserver
    rw [(h.working hobserver).isOpen.not_deaf] at hdeaf
    cases hdeaf
  · rfl

theorem Inv.ended_fini (h : w.Inv data toSend) : w.fini.Ended data toSend := by
  obtain ⟨hsock, hctx, hok', hrecord⟩ := fini_parts w.handshaker
  have howner : w.Owned data → w.fini.Owned data := by
    intro howned
    refine ⟨?_, ?_⟩
    · exact (congrArg (·.toList ++ w.closed) hsock).trans howned.sock
    · exact (congrArg (·.toList ++ w.deleted) hctx).trans howned.ctx
  cases hobserver : w.handshaker.hasObserver with
  | true =>
    obtain ⟨-, -, -, hcalls, -⟩ := h.working hobserver
    rcases h.owner with howned | hgiven
    · exact .stopped hcalls rfl (howner howned)
    · have hopen := (h.working hobserver).isOpen
      have hnone := (List.append_eq_nil_iff.mp hgiven.sock).1
      rw [hopen.sockId] at hnone
      cases hnone
  | false =>
    cases h.ended hobserver with
    | stopped hcalls hfinished howned => exact .stopped hcalls rfl (howner howned)
    | failed errorCode sslCode hcalls howned => exact .failed errorCode sslCode hcalls (howner howned)
    | succeeded buf hcalls hgiven hok hsent hreceived hstream =>
      refine .succeeded buf hcalls ⟨?_, ?_, hgiven.fini⟩ (hok'.trans hok) hsent hreceived ?_
      · exact (congrArg (·.toList ++ w.closed) hsock).trans hgiven.sock
      · exact (congrArg (·.toList ++ w.deleted) hctx).trans hgiven.ctx
      · exact (congrArg (buf ++ ·) hrecord).trans hstream

theorem Inv.fini (h : w.Inv data toSend) (hdead : w.destroyed = false) : w.fini.Inv data toSend := by
  refine ⟨?_, fun _ => h.ended_fini, h.written, h.order, h.chosen, h.made, h.notices_fini, h.alive, ?_⟩
  · intro hstill
    rw [show w.fini.handshaker.hasObserver = false from fini_left h] at hstill
    cases hstill
  · intro hdestroyed
    rw [show w.destroyed = true from hdestroyed] at hdead
    cases hdead

theorem Inv.destroy (h : w.Inv data toSend) (hdead : w.destroyed = false) (hchosen : w.chosen = none) :
    Inv data toSend { w.fini with
      handshaker := { w.handshaker.fini with ctx := none, sockId := none }
      closed := w.closed ++ w.handshaker.sockId.toList
      deleted := w.deleted ++ w.handshaker.ctx.toList
      destroyed := true } := by
  obtain ⟨hclosed, hdeleted⟩ := h.alive hdead
  obtain ⟨hsock, hctx, -, -⟩ := fini_parts w.handshaker
  have hmoved : ∀ (kept : Option Nat) (gone all : List Nat), gone = [] → kept.toList ++ gone = all →
      (none : Option Nat).toList ++ (gone ++ kept.toList) = all := by
    intro kept gone all hgone hall
    rw [hgone, List.append_nil] at hall
    rw [hgone, List.nil_append, hall]
    rfl
  have hleft := fini_left h
  refine ⟨?_, ?_, h.written, h.order, h.chosen, h.made, h.notices_fini, ?_, fun _ => ⟨hchosen, rfl, rfl, hleft⟩⟩
  · intro hstill
    rw [show w.handshaker.fini.hasObserver = true from hstill] at hleft
    cases hleft
  · intro _
    have hown : ∀ howned : w.fini.Owned data,
        w.handshaker.sockId.toList ++ w.closed = [data.sockId] ∧
          w.handshaker.ctx.toList ++ w.deleted = [data.ctx] := by
      intro howned
      have h1 := howned.sock
      have h2 := howned.ctx
      rw [show w.fini.handshaker.sockId = w.handshaker.sockId from hsock] at h1
      rw [show w.fini.handshaker.ctx = w.handshaker.ctx from hctx] at h2
      exact ⟨h1, h2⟩
    cases h.ended_fini with
    | stopped hcalls hfinished howned =>
      obtain ⟨h1, h2⟩ := hown howned
      exact .stopped hcalls rfl ⟨hmoved _ _ _ hclosed h1, hmoved _ _ _ hdeleted h2⟩
    | failed errorCode sslCode hcalls howned =>
      obtain ⟨h1, h2⟩ := hown howned
      exact .failed errorCode sslCode hcalls ⟨hmoved _ _ _ hclosed h1, hmoved _ _ _ hdeleted h2⟩
    | succeeded buf hcalls hgiven hok hsent hreceived hstream =>
      have h1 := hgiven.sock
      have h2 := hgiven.ctx
      rw [show w.fini.handshaker.sockId = w.handshaker.sockId from hsock] at h1
      rw [show w.fini.handshaker.ctx = w.handshaker.ctx from hctx] at h2
      exact .succeeded buf hcalls ⟨hmoved _ _ _ hclosed h1, hmoved _ _ _ hdeleted h2, hgiven.notices⟩ hok hsent
        hreceived hstream
  · intro halive
    cases halive

theorem Inv.step (h : w.Inv data toSend) (e : SslHandshakeEvent β) {next : SslHandshakeRun β}
    (hstep : w.step e = some next) : next.Inv data toSend := by
  unfold SslHandshakeRun.step at hstep
  split at hstep
  · cases hstep
  rename_i hdead
  rw [Bool.not_eq_true] at hdead
  cases e with
  | onInput sockId shake found able =>
    simp only [perform] at hstep
    split at hstep
    · cases hstep
    · rename_i hhalf
      have hhalf : w.half = none := by simpa using hhalf
      cases hstep
      have hsame : { w with half := none } = w := by rw [← hhalf]
      have hnext : Inv data toSend ({ w with half := none }.doRecv sockId shake found able) :=
        h.doRecv (.inl hhalf) shake found able
      rw [hsame] at hnext
      exact hnext
  | onOutput sockId shake result alloc =>
    simp only [perform] at hstep
    split at hstep
    · cases hstep
    · rename_i hhalf
      cases hstep
      exact h.doSend (by simpa using hhalf) sockId shake result alloc
  | outputRecv shake found able =>
    obtain ⟨sockId, hhalf, rfl⟩ := Option.map_eq_some_iff.mp hstep
    exact h.doRecv (.inr hhalf) shake found able
  | onError sockId errorCode =>
    simp only [perform] at hstep
    split at hstep
    · cases hstep
    · cases hstep
      apply h.onQuiet
      unfold SslHandshaker.onError
      split
      · exact .inl rfl
      · rename_i hhears
        refine .inr ⟨?_, errorCode, rfl⟩
        by_contra hleft
        rw [Bool.not_eq_true] at hleft
        rw [deaf_of_left hleft] at hhears
        exact hhears rfl
  | onTimer timerId =>
    cases hstep
    apply h.onQuiet
    unfold SslHandshaker.onTimer
    split
    · exact .inl rfl
    · rename_i hhears
      refine .inr ⟨?_, TcpHandshaker.etimedout, rfl⟩
      by_contra hleft
      rw [Bool.not_eq_true] at hleft
      rw [deaf_of_left hleft] at hhears
      exact hhears (by simp)
  | upcall =>
    obtain ⟨⟨call, chosenLate⟩, hchosen, rfl⟩ := Option.map_eq_some_iff.mp hstep
    exact h.upcall hchosen
  | fini =>
    cases hstep
    exact h.fini hdead
  | destroy =>
    simp only [perform] at hstep
    split at hstep
    · cases hstep
    · rename_i hcheck
      cases hstep
      have hchosen : w.chosen = none := by
        by_contra hsome
        apply hcheck
        rw [Option.isSome_iff_ne_none.mpr hsome]
        rfl
      exact h.destroy hdead hchosen

/-- The handshake succeeded. -/
def Succeeded (w : SslHandshakeRun β) : Prop :=
  ∃ entry ∈ w.made, ∃ ctx sockId unixSocket buf, entry.call = .onHandshakeOk ctx sockId unixSocket buf

/-- What holds of a TLS handshaker in every state. `allocated` says that `Init` could copy the
data it has to send. The buffer and what the context holds back are all that was decrypted. -/
structure Settles (data : SslHandshakeData β) (allocated : Bool) (w : SslHandshakeRun β) : Prop where
  once : w.made.length ≤ 1
  inTime : ∀ entry ∈ w.made, entry.chosenLate = false
  ok : ∀ entry ∈ w.made, ∀ ctx sockId unixSocket buf,
    entry.call = .onHandshakeOk ctx sockId unixSocket buf →
      ctx = data.ctx ∧ sockId = data.sockId ∧ unixSocket = data.unixSocket ∧ w.handshaker.sslOk = true ∧
        buf.length = data.recvDataSize ∧ buf ++ w.handshaker.record = w.opened ∧
        (allocated = true → w.written = data.sendData)
  inOrder : w.written <+: data.sendData
  recvFirst : data.recvFirst = true → w.written ≠ [] → data.recvDataSize ≤ w.opened.length
  shaking : w.handshaker.hasObserver = true → w.handshaker.sslOk = false → w.written = [] ∧ w.opened = []
  given : w.Succeeded → w.closed = [] ∧ w.deleted = [] ∧ w.handshaker.sockId = none ∧
    w.handshaker.ctx = none ∧ w.notices = []
  disposed : w.destroyed = true → ¬w.Succeeded → w.closed = [data.sockId] ∧ w.deleted = [data.ctx]
  kept : w.destroyed = false → w.closed = [] ∧ w.deleted = []
  notices : ∀ ctx ∈ w.notices, ctx = data.ctx
  reading : w.handshaker.hasObserver = true →
    w.handshaker.sslOk = false ∨ w.handshaker.recvPool.bytes.length < data.recvDataSize →
      w.handshaker.registeredRd = true ∧ w.handshaker.record = []
  writing : w.handshaker.hasObserver = true → w.half = none →
    (w.handshaker.sslOk = false → w.asked = .wantWrite → w.handshaker.registeredWr = true) ∧
    (w.handshaker.sslOk = true →
      w.handshaker.sendPool.preSend ≠ [] ∨ w.handshaker.recvPool.bytes.length = data.recvDataSize →
      w.handshaker.registeredWr = true)
  observed : w.handshaker.hasObserver = true ↔ w.calls = [] ∧ w.finished = false

theorem length_made (w : SslHandshakeRun β) : w.made.length ≤ w.calls.length := by
  simp [calls]

theorem call_mem {entry : SslHandshakeMade β} (hentry : entry ∈ w.made) : entry.call ∈ w.calls :=
  List.mem_append_left _ (List.mem_map_of_mem hentry)

theorem Inv.length_calls (h : w.Inv data toSend) : w.calls.length ≤ 1 := by
  cases hobserver : w.handshaker.hasObserver with
  | true => simp [(h.working hobserver).calls]
  | false =>
    cases h.ended hobserver with
    | stopped hcalls hfinished howned => simp [hcalls]
    | failed errorCode sslCode hcalls howned => simp [hcalls]
    | succeeded buf hcalls hgiven hok hsent hreceived hstream => simp [hcalls]

theorem Inv.ended_of_made (h : w.Inv data toSend) {entry : SslHandshakeMade β} (hentry : entry ∈ w.made) :
    w.Ended data toSend := by
  apply h.ended
  by_contra hobserver
  rw [Bool.not_eq_false] at hobserver
  have hmem := call_mem hentry
  rw [(h.working hobserver).calls] at hmem
  cases hmem

theorem Inv.ok (h : w.Inv data toSend) {entry : SslHandshakeMade β} (hentry : entry ∈ w.made)
    {ctx sockId : Nat} {unixSocket : Bool} {buf : List β}
    (hcall : entry.call = .onHandshakeOk ctx sockId unixSocket buf) :
    ctx = data.ctx ∧ sockId = data.sockId ∧ unixSocket = data.unixSocket ∧ w.handshaker.sslOk = true ∧
      buf.length = data.recvDataSize ∧ buf ++ w.handshaker.record = w.opened ∧ w.written = toSend ∧
      w.GivenAway := by
  have hmem := call_mem hentry
  rw [hcall] at hmem
  cases h.ended_of_made hentry with
  | stopped hcalls hfinished howned =>
    rw [hcalls] at hmem
    cases hmem
  | failed errorCode sslCode hcalls howned =>
    rw [hcalls] at hmem
    cases List.mem_singleton.mp hmem
  | succeeded buf' hcalls hgiven hok hsent hreceived hstream =>
    rw [hcalls] at hmem
    cases List.mem_singleton.mp hmem
    exact ⟨rfl, rfl, rfl, hok, hreceived, hstream, hsent, hgiven⟩

theorem Inv.disposed (h : w.Inv data toSend) (hdestroyed : w.destroyed = true) (hfailed : ¬w.Succeeded) :
    w.closed = [data.sockId] ∧ w.deleted = [data.ctx] := by
  obtain ⟨hchosen, hsock, hctx, hobserver⟩ := h.dead hdestroyed
  have howned : w.Owned data → w.closed = [data.sockId] ∧ w.deleted = [data.ctx] := by
    intro howned
    have h1 := howned.sock
    have h2 := howned.ctx
    rw [hsock] at h1
    rw [hctx] at h2
    exact ⟨h1, h2⟩
  cases h.ended hobserver with
  | stopped hcalls hfinished hown => exact howned hown
  | failed errorCode sslCode hcalls hown => exact howned hown
  | succeeded buf hcalls hgiven hok hsent hreceived hstream =>
    -- The callback has been made, since the destructor waits for it.
    have hmem : SslHandshakeCall.onHandshakeOk data.ctx data.sockId data.unixSocket buf ∈
        w.made.map SslHandshakeMade.call := by
      rw [calls, hchosen] at hcalls
      simp only [Option.toList_none, List.map_nil, List.append_nil] at hcalls
      rw [hcalls]
      exact List.mem_singleton_self _
    obtain ⟨entry, hentry, hcall⟩ := List.mem_map.mp hmem
    exact absurd ⟨entry, hentry, data.ctx, data.sockId, data.unixSocket, buf, hcall⟩ hfailed

theorem Inv.observed (h : w.Inv data toSend) :
    w.handshaker.hasObserver = true ↔ w.calls = [] ∧ w.finished = false := by
  constructor
  · intro hobserver
    have hworking := h.working hobserver
    exact ⟨hworking.calls, hworking.finished⟩
  · rintro ⟨hnone, hfinished⟩
    by_contra hobserver
    rw [Bool.not_eq_true] at hobserver
    cases h.ended hobserver with
    | stopped hcalls hstopped howned =>
      rw [hfinished] at hstopped
      cases hstopped
    | failed errorCode sslCode hcalls howned =>
      rw [hnone] at hcalls
      cases hcalls
    | succeeded buf hcalls hgiven hok hsent hreceived hstream =>
      rw [hnone] at hcalls
      cases hcalls

theorem Inv.settles {env : HandshakeEnv β}
    (h : w.Inv data (TcpHandshaker.filled data.toHandshakeData env)) : w.Settles data env.sendAlloc := by
  refine ⟨(length_made w).trans h.length_calls, h.made, ?_, ?_, h.order, ?_, ?_, h.disposed, h.alive, h.notices,
    ?_, ?_, h.observed⟩
  · intro entry hentry ctx sockId unixSocket buf hcall
    obtain ⟨hctx, hsock, hunix, hok, hlength, hstream, hsent, -⟩ := h.ok hentry hcall
    refine ⟨hctx, hsock, hunix, hok, hlength, hstream, fun halloc => ?_⟩
    rw [hsent, TcpHandshaker.filled, if_pos halloc]
  · refine h.written.trans ?_
    unfold TcpHandshaker.filled
    split
    · exact List.prefix_rfl
    · exact List.nil_prefix
  · intro hobserver hshaking
    exact ((h.working hobserver).isOpen.shaking hshaking).2
  · rintro ⟨entry, hentry, ctx, sockId, unixSocket, buf, hcall⟩
    obtain ⟨-, -, -, -, -, -, -, hgiven⟩ := h.ok hentry hcall
    have hsock := List.append_eq_nil_iff.mp hgiven.sock
    have hctx := List.append_eq_nil_iff.mp hgiven.ctx
    rw [Option.toList_eq_nil_iff] at hsock hctx
    exact ⟨hsock.2, hctx.2, hsock.1, hctx.1, hgiven.notices⟩
  · intro hobserver hneed
    have hworking := h.working hobserver
    rcases hneed with hshaking | hmissing
    · obtain ⟨hrd, -, hopened⟩ := hworking.isOpen.shaking hshaking
      have hstream := hworking.isOpen.stream
      rw [hopened] at hstream
      exact ⟨hrd, (List.append_eq_nil_iff.mp hstream).2⟩
    · exact ⟨hworking.isOpen.read hmissing, hworking.drained hmissing⟩
  · intro hobserver hhalf
    have hsettled := (h.working hobserver).settled (by rw [hhalf]; simp)
    exact ⟨hsettled.asked, hsettled.armed⟩

/-- Whatever the TLS context answers, and whatever the order of the sections, the callbacks,
`Fini` and the destructor. -/
theorem settles_of_ssl_handshake_run {data : SslHandshakeData β} {env : HandshakeEnv β}
    {h : SslHandshaker β} (hinit : SslHandshaker.init data env = some h)
    {es : List (SslHandshakeEvent β)} {w : SslHandshakeRun β} (hrun : run step (start h) es = some w) :
    w.Settles data env.sendAlloc := by
  have hinv : w.Inv data (TcpHandshaker.filled data.toHandshakeData env) :=
    run_preserves (fun v e next hv _ hstep => hv.step e hstep) (inv_start hinit)
      (guarded_true (start h) es) hrun
  exact hinv.settles

/-- The bytes 1, 2 and 3 are sent once 7 and 8 have arrived. -/
def secureThreeForTwo : SslHandshakeData UInt8 := ⟨⟨5, [1, 2, 3], 2, true⟩, 9, false, false⟩

def secureEnv : HandshakeEnv UInt8 := ⟨true, true, fun _ => 0, true, 1⟩

def secureStart : SslHandshaker UInt8 := (SslHandshaker.init secureThreeForTwo secureEnv).get (by decide)

/-- The handshake wants to read and then to write; the record has a byte more than is asked for. -/
def inRecords : List (SslHandshakeEvent UInt8) :=
  [.onOutput 5 .wantRead .wantWrite true, .outputRecv .wantRead .wantRead true,
    .onInput 5 .wantWrite .wantRead true, .onOutput 5 .done .wantWrite true,
    .outputRecv .done (.record [7, 8, 6]) true, .onOutput 5 .done (.sent 1) true,
    .outputRecv .done .wantRead true, .onOutput 5 .done (.sent 2) true, .upcall,
    .outputRecv .done .wantRead true, .fini, .destroy]

theorem settles_of_ssl_handshake_run_inRecords :
    ∃ w, SslHandshaker.init secureThreeForTwo secureEnv = some secureStart ∧
      run step (start secureStart) inRecords = some w ∧ w.made.length = 1 ∧ w.Succeeded ∧
      w.Settles secureThreeForTwo true := by
  have hinit : SslHandshaker.init secureThreeForTwo secureEnv = some secureStart :=
    (Option.some_get _).symm
  have hmade : (run step (start secureStart) inRecords).map SslHandshakeRun.made =
      some [⟨.onHandshakeOk 9 5 false [7, 8], false, false⟩] := by decide +kernel
  obtain ⟨w, hw, hcalls⟩ := Option.map_eq_some_iff.mp hmade
  refine ⟨w, hinit, hw, by rw [hcalls]; rfl, ?_, settles_of_ssl_handshake_run hinit hw⟩
  exact ⟨⟨.onHandshakeOk 9 5 false [7, 8], false, false⟩, by rw [hcalls]; exact List.mem_singleton_self _,
    9, 5, false, [7, 8], rfl⟩

end SslHandshakeRun

end Pronet.Net
