import Pronet.Net.HandshakeCustody

/-! What the two ends of a service handshake agree on, and who owns their sockets. The
nonce is all that the connector receives, and the service data all that the acceptor
receives, before either application can send a byte of its own. -/
namespace Pronet.Net

open Std Library Runs

/-- The socket that a callback passes on. -/
def ConnectCall.passed : ConnectCall → Option Nat
  | .onConnectOk sockId _ _ _ => some sockId
  | .onConnectError _ _ _ => none

namespace Connector

variable {c : Connector} {timerId : Nat}

theorem onTimer_closed (hobserver : c.hasObserver = false) {opened : Option Nat} {connected : Bool} :
    c.onTimer timerId opened connected = c.nothing := by
  unfold onTimer
  rw [if_pos (by simp [hobserver])]

theorem onTimer_opens (hobserver : c.hasObserver = true) (hpos : timerId ≠ 0)
    (htimer : timerId = c.timerId0) {sockId : Nat} :
    c.onTimer timerId (some sockId) true = ({ c with sockId := some sockId } : Connector).nothing := by
  unfold onTimer
  rw [if_neg (by simp [hpos, hobserver]), if_neg (by simp [htimer]), if_pos (by simp [htimer])]

theorem onTimer_fails (hobserver : c.hasObserver = true) (hpos : timerId ≠ 0)
    (htimer : timerId = c.timerId0) {opened : Option Nat} {connected : Bool}
    (hfails : ¬ (opened.isSome = true ∧ connected = true)) :
    c.onTimer timerId opened connected =
      ⟨{ c.leave with handshaker := false, sockId := none }, c.error false, opened.toList,
        c.handshaker⟩ := by
  unfold onTimer
  rw [if_neg (by simp [hpos, hobserver]), if_neg (by simp [htimer]),
    if_neg (by simpa [htimer] using hfails)]
  simp [htimer, leave, error]

theorem passed_error (c : Connector) (timeout : Bool) :
    (c.error timeout).toList.filterMap ConnectCall.passed = [] := rfl

end Connector

namespace ConnectorEnd

/-- The callback that has been made or is about to be made. -/
def calls (c : ConnectorEnd) : List ConnectCall := c.made ++ c.chosen.toList

def passed (c : ConnectorEnd) : List Nat := c.calls.filterMap ConnectCall.passed

/-- The data of the connector for its handshakers, all of which is to be sent. -/
def Valid (serviceId serviceOpt : UInt8) (data : HandshakeData UInt8) (toSend : List UInt8) : Prop :=
  ∃ sockId r, data = ⟨sockId, [serviceId, serviceOpt, r, r + 1], 8, true⟩ ∧
    toSend = [serviceId, serviceOpt, r, r + 1]

/-- What holds of the connector besides the custody of its socket. -/
structure Sound (serviceId serviceOpt : UInt8) (stream : List UInt8) (c : ConnectorEnd) : Prop where
  ids : c.connector.serviceId = serviceId ∧ c.connector.serviceOpt = serviceOpt
  observed : c.connector.hasObserver = true → c.calls = []
  once : c.calls.length ≤ 1
  due : c.timer0Due = true → c.opened = none
  ok : ∀ sockId id opt nonce, .onConnectOk sockId id opt nonce ∈ c.calls →
    id = serviceId ∧ opt = serviceOpt ∧
      ∃ run, c.run = some run ∧ run.Succeeded ∧ nonce = ntoh64 (ofMemory64 run.received)
  said : c.said ≠ [] → c.hasOk = true
  stream : ∀ run, c.run = some run → run.received <+: stream
  working : c.connector.handshaker = true → c.connector.hasObserver = true ∧ c.run ≠ none
  released : c.run ≠ none → c.connector.handshaker = true ∨ c.doomed = true
  gone : c.destroyed = true → c.connector.hasObserver = false ∧ c.connector.sockId = none

/-- If `OnOutput` creates a handshaker, its send pool can copy the service data. -/
def Copies (c : ConnectorEnd) (sockId : Nat) (env : HandshakeEnv UInt8) : Prop :=
  c.connector.hasObserver = true → c.connector.sockId = some sockId → env.recvAlloc = true →
    env.added = true → env.sendAlloc = true

structure Inv (serviceId serviceOpt : UInt8) (stream : List UInt8) (c : ConnectorEnd) : Prop where
  sound : c.Sound serviceId serviceOpt stream
  custody : Custody (Valid serviceId serviceOpt) c.opened c.connector.sockId c.run c.closed c.passed

variable {serviceId serviceOpt : UInt8} {stream : List UInt8} {c : ConnectorEnd}

theorem inv_init (serviceId serviceOpt : UInt8) (timerId0 timerId1 : Nat) (stream : List UInt8) :
    (init serviceId serviceOpt timerId0 timerId1).Inv serviceId serviceOpt stream where
  sound := {
    ids := ⟨rfl, rfl⟩
    observed := fun _ => rfl
    once := Nat.zero_le 1
    due := fun _ => rfl
    ok := fun sockId id opt nonce hmem => by cases hmem
    said := fun hne => absurd rfl hne
    stream := fun run hrun => by cases hrun
    working := fun hworking => by cases hworking
    released := fun hne => absurd rfl hne
    gone := fun hgone => by cases hgone }
  custody := .unopened

theorem Inv.mono {longer : List UInt8} (h : c.Inv serviceId serviceOpt stream)
    (hlonger : stream <+: longer) : c.Inv serviceId serviceOpt longer where
  sound := { h.sound with stream := fun run hrun => (h.sound.stream run hrun).trans hlonger }
  custody := h.custody

theorem enter_nothing (c : ConnectorEnd) : c.enter c.connector.nothing = c := by
  simp [enter, Connector.nothing]

/-- A section in which the connector gives its observer up. -/
structure Ends (c : Connector) (r : ConnectorStep) : Prop where
  hasObserver : c.hasObserver = true
  ids : r.connector.serviceId = c.serviceId ∧ r.connector.serviceOpt = c.serviceOpt
  left : r.connector.hasObserver = false
  handshaker : r.connector.handshaker = false
  deletes : c.handshaker = true → r.deletes = true

theorem Sound.calls_enter (h : c.Sound serviceId serviceOpt stream) {r : ConnectorStep}
    (hends : Ends c.connector r) : (c.enter r).calls = r.call.toList := by
  have hnone := h.observed hends.hasObserver
  rw [calls, List.append_eq_nil_iff, Option.toList_eq_nil_iff] at hnone
  simp [calls, enter, hnone.1, hnone.2]

theorem Sound.enter (h : c.Sound serviceId serviceOpt stream) {r : ConnectorStep}
    (hends : Ends c.connector r) (hsock : c.destroyed = true → r.connector.sockId = none)
    (hok : ∀ sockId id opt nonce, r.call = some (.onConnectOk sockId id opt nonce) →
      id = serviceId ∧ opt = serviceOpt ∧
        ∃ run, c.run = some run ∧ run.Succeeded ∧ nonce = ntoh64 (ofMemory64 run.received)) :
    (c.enter r).Sound serviceId serviceOpt stream where
  ids := ⟨hends.ids.1.trans h.ids.1, hends.ids.2.trans h.ids.2⟩
  observed hobserver := by cases hends.left.symm.trans hobserver
  once := by
    rw [h.calls_enter hends]
    cases r.call <;> simp
  due := h.due
  ok sockId id opt nonce hmem := by
    rw [h.calls_enter hends, Option.mem_toList] at hmem
    exact hok sockId id opt nonce hmem
  said := h.said
  stream := h.stream
  working hworking := by cases hends.handshaker.symm.trans hworking
  released hrun := by
    right
    rcases h.released hrun with hhandshaker | hdoomed
    · simp [ConnectorEnd.enter, hends.deletes hhandshaker]
    · simp [ConnectorEnd.enter, hdoomed]
  gone hgone := ⟨hends.left, hsock hgone⟩

theorem Sound.passed_nil (h : c.Sound serviceId serviceOpt stream)
    (hobserver : c.connector.hasObserver = true) : c.passed = [] := by
  rw [passed, h.observed hobserver, List.filterMap_nil]

/-- The connector gives up and reports an error, or has been stopped. -/
theorem Inv.fails (h : c.Inv serviceId serviceOpt stream) {r : ConnectorStep}
    (hends : Ends c.connector r) (hsock : r.connector.sockId = c.connector.sockId)
    (hclosed : r.closed = []) (hcall : ∀ call ∈ r.call, call.passed = none) :
    (c.enter r).Inv serviceId serviceOpt stream where
  sound := by
    refine h.sound.enter hends ?_ ?_
    · intro hgone
      cases (h.sound.gone hgone).1.symm.trans hends.hasObserver
    · intro sockId id opt nonce hok
      cases hcall _ hok
  custody := by
    have hpassed : (c.enter r).passed = [] := by
      rw [passed, h.sound.calls_enter hends]
      cases hr : r.call with
      | none => rfl
      | some call => simp [hcall call hr]
    have hcustody := h.custody
    rw [h.sound.passed_nil hends.hasObserver] at hcustody
    rw [hpassed]
    simpa [enter, hsock, hclosed] using hcustody

theorem ends_fini (hobserver : c.connector.hasObserver = true) : Ends c.connector c.connector.fini := by
  unfold Connector.fini
  rw [if_neg (by simp [hobserver])]
  exact ⟨hobserver, ⟨rfl, rfl⟩, rfl, rfl, id⟩

theorem Inv.fini (h : c.Inv serviceId serviceOpt stream) :
    (c.enter c.connector.fini).Inv serviceId serviceOpt stream := by
  cases hobserver : c.connector.hasObserver with
  | false =>
    have hnothing : c.connector.fini = c.connector.nothing := by
      simp [Connector.fini, hobserver]
    rw [hnothing, enter_nothing]
    exact h
  | true =>
    refine h.fails (ends_fini hobserver) ?_ ?_ ?_
    · simp [Connector.fini, hobserver, Connector.leave]
    · simp [Connector.fini, hobserver]
    · simp [Connector.fini, hobserver]

/-- Before a handshaker exists. -/
theorem Inv.no_handshaker (h : c.Inv serviceId serviceOpt stream) (hrun : c.run = none) :
    c.connector.handshaker = false := by
  by_contra hworking
  rw [Bool.not_eq_false] at hworking
  exact (h.sound.working hworking).2 hrun

theorem Inv.onError (h : c.Inv serviceId serviceOpt stream) (sockId : Nat) :
    (c.enter (c.connector.onError sockId)).Inv serviceId serviceOpt stream := by
  unfold Connector.onError
  split
  · rw [enter_nothing]
    exact h
  · rename_i hguard
    simp only [ne_eq, Bool.or_eq_true, Bool.not_eq_true', decide_eq_true_eq, not_or, not_not,
      Bool.not_eq_false] at hguard
    obtain ⟨hobserver, hsock⟩ := hguard
    have hcustody := h.custody
    rw [hsock] at hcustody
    have hnone := h.no_handshaker hcustody.none_of_own.2.1
    refine h.fails ⟨hobserver, ⟨rfl, rfl⟩, rfl, hnone, ?_⟩ rfl rfl ?_
    · intro hworking
      cases hnone.symm.trans hworking
    · intro call hcall
      cases hcall
      rfl

/-- The connection takes too long. -/
theorem Inv.onTimeout (h : c.Inv serviceId serviceOpt stream) {timerId : Nat}
    (hother : timerId = 0 ∨ timerId ≠ c.connector.timerId0) :
    (c.enter (c.connector.onTimer timerId none false)).Inv serviceId serviceOpt stream := by
  unfold Connector.onTimer
  split
  · rw [enter_nothing]
    exact h
  · rename_i hguard
    simp only [Bool.or_eq_true, decide_eq_true_eq, Bool.not_eq_true', not_or,
      Bool.not_eq_false] at hguard
    have hne := hother.resolve_left hguard.1
    split
    · rw [enter_nothing]
      exact h
    · rw [if_neg (by simp)]
      simp only [hne, decide_false, if_false, Bool.not_false]
      refine h.fails ⟨hguard.2, ⟨rfl, rfl⟩, rfl, rfl, id⟩ rfl rfl ?_
      intro call hcall
      cases hcall
      rfl

/-- The socket is created, or the attempt to do so fails. -/
theorem Inv.onConnect (h : c.Inv serviceId serviceOpt stream) (hdue : c.timer0Due = true)
    (opened : Option Nat) (connected : Bool) {timerId : Nat} (hpos : timerId ≠ 0)
    (htimer : timerId = c.connector.timerId0) :
    ({ c with
        timer0Due := false
        opened := if c.connector.hasObserver then opened else none }.enter
      (c.connector.onTimer timerId opened connected)).Inv serviceId serviceOpt stream := by
  have hcustody := h.custody
  rw [h.sound.due hdue] at hcustody
  obtain ⟨hown, hrun, hclosed, hpassed⟩ := hcustody.none_of_unopened
  have hsound : ∀ created, Sound serviceId serviceOpt stream
      { c with timer0Due := false, opened := created } :=
    fun created => { h.sound with due := fun hdue => by cases hdue }
  cases hobserver : c.connector.hasObserver with
  | false =>
    rw [if_neg (by simp), Connector.onTimer_closed hobserver]
    refine ⟨?_, ?_⟩
    · simpa [enter, Connector.nothing] using hsound none
    · simpa [enter, Connector.nothing, hown, hrun, passed, calls] using hcustody
  | true =>
    rw [if_pos rfl]
    have hcalls : c.made ++ c.chosen.toList = [] := h.sound.observed hobserver
    by_cases hopens : opened.isSome = true ∧ connected = true
    · obtain ⟨sockId, rfl⟩ := Option.isSome_iff_exists.mp hopens.1
      rw [hopens.2, Connector.onTimer_opens hobserver hpos htimer]
      refine ⟨?_, ?_⟩
      · have hnothing : ConnectorEnd.enter { c with timer0Due := false, opened := some sockId }
            ({ c.connector with sockId := some sockId } : Connector).nothing =
            { c with
              timer0Due := false
              opened := some sockId
              connector := { c.connector with sockId := some sockId } } := by
          simp [enter, Connector.nothing]
        rw [hnothing]
        exact { hsound (some sockId) with
          gone := fun hgone => by cases (h.sound.gone hgone).1.symm.trans hobserver }
      · simpa [enter, Connector.nothing, passed, calls, hrun, hclosed, hcalls] using
          Custody.own sockId
    · rw [Connector.onTimer_fails hobserver hpos htimer hopens]
      have hends : Ends c.connector ⟨{ c.connector.leave with handshaker := false, sockId := none },
          c.connector.error false, opened.toList, c.connector.handshaker⟩ :=
        ⟨hobserver, ⟨rfl, rfl⟩, rfl, rfl, id⟩
      refine ⟨(hsound opened).enter hends (fun _ => rfl) ?_, ?_⟩
      · intro sockId id opt nonce hok
        cases hok
      · rw [passed, (hsound opened).calls_enter hends, Connector.passed_error]
        cases opened with
        | none => simpa [enter, hrun, hclosed] using Custody.unopened
        | some sockId => simpa [enter, hrun, hclosed] using Custody.closed sockId

theorem Inv.onOutput (h : c.Inv serviceId serviceOpt stream) (sockId : Nat) (r : UInt8)
    {env : HandshakeEnv UInt8} (hcopies : c.Copies sockId env) :
    Inv serviceId serviceOpt stream { c.enter (c.connector.onOutput sockId r env).1 with
      run := ((c.connector.onOutput sockId r env).2.map HandshakeRun.start).or c.run } := by
  unfold Connector.onOutput
  split
  · simpa [enter_nothing] using h
  · rename_i hguard
    simp only [ne_eq, Bool.or_eq_true, Bool.not_eq_true', decide_eq_true_eq, not_or, not_not,
      Bool.not_eq_false] at hguard
    obtain ⟨hobserver, hsock⟩ := hguard
    have hcustody := h.custody
    rw [hsock] at hcustody
    obtain ⟨hopened, hrun, hclosed, hpassed⟩ := hcustody.none_of_own
    have hnone := h.no_handshaker hrun
    cases hinit : TcpHandshaker.init (c.connector.handshakeData sockId r) env with
    | none =>
      have hends : Ends c.connector ⟨c.connector.leave, c.connector.error false, [], false⟩ := by
        refine ⟨hobserver, ⟨rfl, rfl⟩, rfl, hnone, ?_⟩
        intro hworking
        cases hnone.symm.trans hworking
      refine h.fails hends rfl rfl ?_
      intro call hcall
      cases hcall
      rfl
    | some handshaker =>
      have hcalls : c.made ++ c.chosen.toList = [] := h.sound.observed hobserver
      have hvalid : Valid serviceId serviceOpt (c.connector.handshakeData sockId r)
          (c.connector.serviceData r) := by
        refine ⟨sockId, r, ?_, ?_⟩ <;> rw [← h.sound.ids.1, ← h.sound.ids.2] <;> rfl
      have halloc := hcopies hobserver hsock (TcpHandshaker.alloc_of_init hinit (Nat.zero_lt_succ 7))
        (TcpHandshaker.added_of_init hinit)
      have hinv := HandshakeRun.inv_start hinit
      rw [TcpHandshaker.filled, if_pos halloc] at hinv
      have hnot : ¬ (HandshakeRun.start handshaker).Succeeded := by
        rintro ⟨entry, hentry, -⟩
        cases hentry
      refine ⟨?_, ?_⟩
      · exact {
          ids := h.sound.ids
          observed := fun _ => hcalls
          once := h.sound.once
          due := h.sound.due
          ok := fun sockId id opt nonce hmem => by
            have hnever : ConnectCall.onConnectOk sockId id opt nonce ∈ c.made ++ c.chosen.toList := hmem
            rw [hcalls] at hnever
            cases hnever
          said := h.sound.said
          stream := fun run hrun => by
            cases hrun
            exact List.nil_prefix
          working := fun _ => ⟨hobserver, by simp⟩
          released := fun _ => .inl rfl
          gone := fun hgone => by cases (h.sound.gone hgone).1.symm.trans hobserver }
      · have hhanded : Custody (Valid serviceId serviceOpt) (some sockId) none
            (some (HandshakeRun.start handshaker)) [] [] := .handed hvalid hinv hnot
        simpa [enter, Connector.nothing, passed, calls, hopened, hclosed, hcalls] using hhanded

/-- The handshaker acts, and its callback is not one that gives the socket away. -/
theorem Sound.handshaker (h : c.Sound serviceId serviceOpt stream)
    {data : HandshakeData UInt8} {toSend : List UInt8} {run next : HandshakeRun UInt8}
    {e : HandshakeEvent UInt8} (hrun : c.run = some run) (hinv : run.Inv data toSend)
    (hpermits : run.permits stream c.doomed e = true) (hstep : run.step e = some next) :
    Sound serviceId serviceOpt stream { c with run := some next } :=
  { h with
    ok := by
      intro sockId id opt nonce hmem
      obtain ⟨hid, hopt, run', hrun', hok, hnonce⟩ := h.ok sockId id opt nonce hmem
      cases hrun.symm.trans hrun'
      refine ⟨hid, hopt, next, rfl, hinv.succeeded_step hstep hok, ?_⟩
      rw [(HandshakeRun.step_bytes_closed hstep (hinv.succeeded hok).2.2).2]
      exact hnonce
    stream := by
      intro run' hrun'
      cases hrun'
      exact HandshakeRun.received_prefix hstep hpermits (h.stream run hrun)
    working := fun hworking => ⟨(h.working hworking).1, by simp⟩
    released := fun _ => h.released (by simp [hrun]) }

theorem Inv.onHandshakeError (h : c.Inv serviceId serviceOpt stream) (errorCode : Int) :
    (c.enter (c.connector.onHandshakeError errorCode)).Inv serviceId serviceOpt stream := by
  unfold Connector.onHandshakeError
  split
  · rw [enter_nothing]
    exact h
  · rename_i hguard
    simp only [Bool.or_eq_true, Bool.not_eq_true', not_or, Bool.not_eq_false] at hguard
    refine h.fails ⟨hguard.1, ⟨rfl, rfl⟩, rfl, rfl, fun _ => rfl⟩ rfl rfl ?_
    intro call hcall
    cases hcall
    rfl

/-- The handshaker gives the socket away: it is closed here, or it is passed on. -/
theorem Sound.onHandshakeOk (h : c.Sound serviceId serviceOpt stream) {run : HandshakeRun UInt8}
    (hrun : c.run = some run) (hok : run.Succeeded) {sockId : Nat} (hclosed : c.closed = [])
    (hpassed : c.passed = [])
    (hcloses : Custody (Valid serviceId serviceOpt) c.opened c.connector.sockId (some run) [sockId] [])
    (hpasses : Custody (Valid serviceId serviceOpt) c.opened c.connector.sockId (some run) [] [sockId]) :
    (c.enter (c.connector.onHandshakeOk sockId run.received)).Inv serviceId serviceOpt stream := by
  unfold Connector.onHandshakeOk
  split
  · have hsame : c.enter ⟨c.connector, none, [sockId], false⟩ =
        { c with closed := c.closed ++ [sockId] } := by
      simp [ConnectorEnd.enter]
    rw [hsame]
    refine ⟨{ h with }, ?_⟩
    rw [← hrun] at hcloses
    simpa [passed, calls, hclosed, show (c.made ++ c.chosen.toList).filterMap _ = [] from hpassed]
      using hcloses
  · rename_i hguard
    simp only [Bool.or_eq_true, Bool.not_eq_true', not_or, Bool.not_eq_false] at hguard
    split
    · have hends : Ends c.connector ⟨{ c.connector.leave with handshaker := false },
          c.connector.error false, [sockId], true⟩ := ⟨hguard.1, ⟨rfl, rfl⟩, rfl, rfl, fun _ => rfl⟩
      refine ⟨h.enter hends (fun hgone => (h.gone hgone).2) ?_, ?_⟩
      · intro sockId' id opt nonce hnever
        cases hnever
      · rw [passed, h.calls_enter hends, Connector.passed_error]
        rw [← hrun] at hcloses
        simpa [ConnectorEnd.enter, hclosed, Connector.leave] using hcloses
    · have hends : Ends c.connector ⟨{ c.connector.leave with handshaker := false },
          some (.onConnectOk sockId c.connector.serviceId c.connector.serviceOpt
            (ntoh64 (ofMemory64 run.received))), [], true⟩ :=
        ⟨hguard.1, ⟨rfl, rfl⟩, rfl, rfl, fun _ => rfl⟩
      refine ⟨h.enter hends (fun hgone => (h.gone hgone).2) ?_, ?_⟩
      · intro sockId' id opt nonce hcall
        cases hcall
        exact ⟨h.ids.1, h.ids.2, run, hrun, hok, rfl⟩
      · rw [passed, h.calls_enter hends]
        rw [← hrun] at hpasses
        simpa [ConnectorEnd.enter, hclosed, Connector.leave, ConnectCall.passed] using hpasses

theorem Inv.onHandshaker (h : c.Inv serviceId serviceOpt stream) {e : HandshakeEvent UInt8}
    {c' : ConnectorEnd} (hstep : c.onHandshaker stream e = some c') :
    c'.Inv serviceId serviceOpt stream := by
  unfold ConnectorEnd.onHandshaker at hstep
  obtain ⟨run, hrun, hstep⟩ := Option.bind_eq_some_iff.mp hstep
  split at hstep
  · cases hstep
  rename_i hpermits
  rw [Bool.not_eq_true', Bool.not_eq_false] at hpermits
  obtain ⟨next, hnext, hstep⟩ := Option.bind_eq_some_iff.mp hstep
  have hcustody := h.custody
  rw [hrun] at hcustody
  obtain ⟨data, toSend, hvalid, hinv⟩ := hcustody.inv
  have hsound := h.sound.handshaker hrun hinv hpermits hnext
  cases hdelivers : run.delivers e with
  | none =>
    rw [hdelivers] at hstep
    cases hstep
    exact ⟨hsound, hcustody.goesOn hnext (by simp [hdelivers])⟩
  | some call =>
    rw [hdelivers] at hstep
    cases hstep
    cases call with
    | onHandshakeError errorCode =>
      have hmoved : Inv serviceId serviceOpt stream { c with run := some next } :=
        ⟨hsound, hcustody.goesOn hnext (by simp [hdelivers])⟩
      exact hmoved.onHandshakeError errorCode
    | onHandshakeOk sockId buf =>
      obtain ⟨hclosed, hpassed, hbuf, hok, hcloses, hpasses⟩ := hcustody.given hnext hdelivers
      rw [hbuf]
      exact hsound.onHandshakeOk rfl hok hclosed hpassed hcloses hpasses

theorem Inv.upcall (h : c.Inv serviceId serviceOpt stream) {call : ConnectCall}
    (hchosen : c.chosen = some call) :
    Inv serviceId serviceOpt stream { c with chosen := none, made := c.made ++ [call] } := by
  have hcalls : calls { c with chosen := none, made := c.made ++ [call] } = c.calls := by
    simp [calls, hchosen]
  refine ⟨{ h.sound with observed := ?_, once := ?_, ok := ?_, said := ?_ }, ?_⟩
  · intro hobserver
    rw [hcalls]
    exact h.sound.observed hobserver
  · rw [hcalls]
    exact h.sound.once
  · rw [hcalls]
    exact h.sound.ok
  · intro hsaid
    have hbefore := h.sound.said hsaid
    rw [hasOk] at hbefore ⊢
    rw [List.any_append, hbefore, Bool.true_or]
  · rw [passed, hcalls]
    exact h.custody

theorem Inv.destroy (h : c.Inv serviceId serviceOpt stream) (hobserver : c.connector.hasObserver = false) :
    Inv serviceId serviceOpt stream { c with
      connector := { c.connector with sockId := none }
      closed := c.closed ++ c.connector.sockId.toList
      destroyed := true } := by
  refine ⟨{ h.sound with gone := fun _ => ⟨hobserver, rfl⟩ }, ?_⟩
  have hcustody := h.custody
  cases hsock : c.connector.sockId with
  | none =>
    rw [hsock] at hcustody
    simpa [passed, calls] using hcustody
  | some sockId =>
    rw [hsock] at hcustody
    obtain ⟨hopened, hrun, hclosed, hpassed⟩ := hcustody.none_of_own
    rw [passed, calls] at hpassed
    simpa [passed, calls, hopened, hrun, hclosed, hpassed] using
      @Custody.closed (Valid serviceId serviceOpt) sockId

theorem Inv.step (h : c.Inv serviceId serviceOpt stream) (e : ServiceEvent)
    (hcopies : ∀ sockId r env, e = .connOutput sockId r env → c.Copies sockId env) {c' : ConnectorEnd}
    (hstep : ServiceSystem.stepConn c stream e = some c') : c'.Inv serviceId serviceOpt stream := by
  cases e with
  | connTimer timerId opened connected =>
    simp only [ServiceSystem.stepConn] at hstep
    split at hstep
    · rename_i hother
      cases hstep
      exact h.onTimeout (by simpa using hother)
    · rename_i htimer
      simp only [ne_eq, Bool.or_eq_true, decide_eq_true_eq, not_or, not_not] at htimer
      split at hstep
      · cases hstep
      · rename_i hdue
        rw [Bool.not_eq_true', Bool.not_eq_false] at hdue
        cases hstep
        exact h.onConnect hdue opened connected htimer.1 htimer.2
  | connOutput sockId r env =>
    cases hstep
    exact h.onOutput sockId r (hcopies sockId r env rfl)
  | connError sockId =>
    cases hstep
    exact h.onError sockId
  | connHandshaker e => exact h.onHandshaker hstep
  | connFini =>
    cases hstep
    exact h.fini
  | connUpcall =>
    obtain ⟨call, hchosen, rfl⟩ := Option.map_eq_some_iff.mp hstep
    exact h.upcall hchosen
  | connDestroy =>
    simp only [ServiceSystem.stepConn] at hstep
    split at hstep
    · cases hstep
    · rename_i hguard
      cases hstep
      simp only [Bool.or_eq_true, not_or, Bool.not_eq_true] at hguard
      exact h.destroy hguard.1.1.2
  | connSays bytes =>
    simp only [ServiceSystem.stepConn] at hstep
    split at hstep
    · rename_i hok
      cases hstep
      exact ⟨{ h.sound with said := fun _ => hok }, h.custody⟩
    · cases hstep
  | _ => cases hstep

/-- The application speaks once the handshake is over. -/
theorem Inv.said_after (h : c.Inv serviceId serviceOpt stream) (hsaid : c.said ≠ []) :
    ∃ run, c.run = some run ∧ run.Succeeded := by
  have hok := h.sound.said hsaid
  rw [hasOk, List.any_eq_true] at hok
  obtain ⟨call, hcall, hkind⟩ := hok
  cases call with
  | onConnectOk sockId id opt nonce =>
    obtain ⟨-, -, run, hrun, hok, -⟩ := h.sound.ok _ _ _ _ (List.mem_append_left _ hcall)
    exact ⟨run, hrun, hok⟩
  | onConnectError id opt timeout => cases hkind

theorem Inv.sent_of_unstarted (h : c.Inv serviceId serviceOpt stream) (hrun : c.run = none) : c.sent = [] := by
  have hsaid : c.said = [] := by
    by_contra hsaid
    obtain ⟨run, hsome, -⟩ := h.said_after hsaid
    cases hrun.symm.trans hsome
  rw [sent, hrun, hsaid]
  rfl

theorem Inv.speaks (h : c.Inv serviceId serviceOpt stream) :
    ∃ r, Speaks [serviceId, serviceOpt, r, r + 1] c.sent := by
  cases hrun : c.run with
  | none =>
    rw [h.sent_of_unstarted hrun]
    exact ⟨0, speaks_nil _⟩
  | some run =>
    have hcustody := h.custody
    rw [hrun] at hcustody
    obtain ⟨data, toSend, ⟨sockId, r, rfl, rfl⟩, hinv⟩ := hcustody.inv
    refine ⟨r, ?_⟩
    rw [sent, hrun]
    refine hinv.speaks fun hsaid => ?_
    obtain ⟨run', hrun', hok⟩ := h.said_after hsaid
    cases hrun.symm.trans hrun'
    exact hok

theorem Inv.sent_handshaker (h : c.Inv serviceId serviceOpt stream) {e : HandshakeEvent UInt8}
    {c' : ConnectorEnd} (hstep : c.onHandshaker stream e = some c') : c.sent <+: c'.sent := by
  unfold ConnectorEnd.onHandshaker at hstep
  obtain ⟨run, hrun, hstep⟩ := Option.bind_eq_some_iff.mp hstep
  split at hstep
  · cases hstep
  obtain ⟨next, hnext, hstep⟩ := Option.bind_eq_some_iff.mp hstep
  have hcustody := h.custody
  rw [hrun] at hcustody
  obtain ⟨data, toSend, -, hinv⟩ := hcustody.inv
  have hsent : c.sent <+: next.written ++ c.said := by
    rw [sent, hrun]
    refine hinv.written_step hnext fun hsaid => ?_
    obtain ⟨run', hrun', hok⟩ := h.said_after hsaid
    cases hrun.symm.trans hrun'
    exact hok
  cases hdelivers : run.delivers e with
  | none =>
    rw [hdelivers] at hstep
    cases hstep
    exact hsent
  | some call =>
    rw [hdelivers] at hstep
    cases hstep
    exact hsent

/-- A connector that has heard nothing says nothing. -/
theorem Inv.sent_nil (h : c.Inv serviceId serviceOpt []) : c.sent = [] := by
  cases hrun : c.run with
  | none => exact h.sent_of_unstarted hrun
  | some run =>
    have hcustody := h.custody
    rw [hrun] at hcustody
    obtain ⟨data, toSend, ⟨sockId, r, rfl, -⟩, hinv⟩ := hcustody.inv
    have hreceived : run.received = [] := List.prefix_nil.mp (h.sound.stream run hrun)
    have hwritten : run.written = [] := by
      by_contra hwritten
      have horder := hinv.order rfl hwritten
      rw [hreceived] at horder
      cases horder
    have hsaid : c.said = [] := by
      by_contra hsaid
      obtain ⟨run', hsome, hok⟩ := h.said_after hsaid
      cases hrun.symm.trans hsome
      exact hinv.not_succeeded (Nat.zero_lt_succ 7) hreceived hok
    rw [sent, hrun, hsaid, Option.elim_some, hwritten]
    rfl

/-- Nothing that has been sent is taken back. -/
theorem Inv.sent_step (h : c.Inv serviceId serviceOpt stream) (e : ServiceEvent) {c' : ConnectorEnd}
    (hstep : ServiceSystem.stepConn c stream e = some c') : c.sent <+: c'.sent := by
  cases e with
  | connTimer timerId opened connected =>
    simp only [ServiceSystem.stepConn] at hstep
    split at hstep
    · cases hstep
      exact List.prefix_rfl
    · split at hstep
      · cases hstep
      · cases hstep
        exact List.prefix_rfl
  | connOutput sockId r env =>
    simp only [ServiceSystem.stepConn, Option.some.injEq] at hstep
    subst hstep
    cases hnew : (c.connector.onOutput sockId r env).2 with
    | none => exact List.prefix_rfl
    | some handshaker =>
      have hrun : c.run = none := by
        have hcustody := h.custody
        unfold Connector.onOutput at hnew
        split at hnew
        · cases hnew
        · rename_i hguard
          simp only [ne_eq, Bool.or_eq_true, Bool.not_eq_true', decide_eq_true_eq, not_or,
            not_not, Bool.not_eq_false] at hguard
          rw [hguard.2] at hcustody
          exact hcustody.none_of_own.2.1
      rw [h.sent_of_unstarted hrun]
      exact List.nil_prefix
  | connSays bytes =>
    simp only [ServiceSystem.stepConn] at hstep
    split at hstep
    · cases hstep
      rw [sent, sent, ← List.append_assoc]
      exact List.prefix_append _ _
    · cases hstep
  | connHandshaker e => exact h.sent_handshaker hstep
  | connUpcall =>
    obtain ⟨call, -, rfl⟩ := Option.map_eq_some_iff.mp hstep
    exact List.prefix_rfl
  | connDestroy =>
    simp only [ServiceSystem.stepConn] at hstep
    split at hstep
    · cases hstep
    · cases hstep
      exact List.prefix_rfl
  | connError sockId =>
    cases hstep
    exact List.prefix_rfl
  | connFini =>
    cases hstep
    exact List.prefix_rfl
  | _ => cases hstep

end ConnectorEnd

namespace AcceptorEnd

def calls (a : AcceptorEnd) : List AcceptCall := a.made ++ a.chosen.toList

def passed (a : AcceptorEnd) : List Nat := a.calls.map AcceptCall.sockId

/-- The data of the acceptor for the handshaker, all of which is to be sent, or nothing if
it could not be copied. -/
def Valid (nonce : UInt64) (filled : Bool) (data : HandshakeData UInt8) (toSend : List UInt8) : Prop :=
  ∃ sockId, data = Acceptor.handshakeData sockId nonce ∧
    toSend = if filled then memory64 (hton64 nonce) else []

/-- What holds of the acceptor besides the custody of the socket. -/
structure Sound (stream : List UInt8) (a : AcceptorEnd) : Prop where
  table : ∀ nonce, a.acceptor.handshaker2Nonce[a.key]? = some nonce →
    nonce = a.nonce ∧ a.calls = [] ∧ a.run ≠ none
  once : a.calls.length ≤ 1
  ok : ∀ call ∈ a.calls, call.nonce = a.nonce ∧ ∃ run r,
    a.run = some run ∧ run.Succeeded ∧ run.received = [call.serviceId, call.serviceOpt, r, r + 1]
  said : a.said ≠ [] → a.made ≠ []
  stream : ∀ run, a.run = some run → run.received <+: stream
  released : a.run ≠ none → a.key ∈ a.acceptor.handshaker2Nonce ∨ a.doomed = true
  stopped : a.acceptor.hasObserver = false → a.acceptor.handshaker2Nonce = ∅

structure Inv (stream : List UInt8) (a : AcceptorEnd) : Prop where
  sound : a.Sound stream
  custody : Custody (Valid a.nonce a.filled) a.accepted none a.run a.closed a.passed

variable {stream : List UInt8} {a : AcceptorEnd}

theorem inv_init (stream : List UInt8) : init.Inv stream where
  sound := {
    table := fun nonce hmem => by simp [init, Acceptor.init] at hmem
    once := Nat.zero_le 1
    ok := fun call hmem => by cases hmem
    said := fun hne => absurd rfl hne
    stream := fun run hrun => by cases hrun
    released := fun hne => absurd rfl hne
    stopped := fun _ => rfl }
  custody := .unopened

theorem Inv.mono {longer : List UInt8} (h : a.Inv stream) (hlonger : stream <+: longer) :
    a.Inv longer where
  sound := { h.sound with stream := fun run hrun => (h.sound.stream run hrun).trans hlonger }
  custody := h.custody

/-- Before the socket is accepted. -/
theorem Inv.unaccepted (h : a.Inv stream) (hnone : a.accepted = none) :
    a.run = none ∧ a.closed = [] ∧ a.made = [] ∧ a.chosen = none := by
  have hcustody := h.custody
  rw [hnone] at hcustody
  obtain ⟨-, hrun, hclosed, hpassed⟩ := hcustody.none_of_unopened
  rw [passed, List.map_eq_nil_iff, calls, List.append_eq_nil_iff, Option.toList_eq_nil_iff] at hpassed
  exact ⟨hrun, hclosed, hpassed⟩

theorem Inv.accept (h : a.Inv stream) (hnone : a.accepted = none) (newSockId handshaker : Nat)
    (nonce : UInt64) (env : HandshakeEnv UInt8)
    (hobserver : a.acceptor.hasObserver = true) :
    (a.accept newSockId handshaker nonce env).Inv stream := by
  obtain ⟨hrun, hclosed, hmade, hchosen⟩ := h.unaccepted hnone
  have hcloses : Inv stream
      { a with accepted := some newSockId, closed := a.closed ++ [newSockId] } := by
    refine ⟨{ h.sound with }, ?_⟩
    simpa [passed, calls, hrun, hclosed, hmade, hchosen] using Custody.closed newSockId
  unfold AcceptorEnd.accept Acceptor.onInput
  split
  · rename_i hfull
    split at hfull
    · cases hfull
      exact hcloses
    · split at hfull
      · cases hfull
        exact hcloses
      · cases hfull
  · rename_i hnew
    split at hnew
    · cases hnew
    split at hnew
    · cases hnew
    rename_i created _ _ _ hinit
    cases hnew
    have hinv := HandshakeRun.inv_start hinit
    refine ⟨?_, ?_⟩
    · exact {
        table := fun found hfound => by
          rw [ExtTreeMap.getElem?_insert_self, ntoh64_hton64] at hfound
          cases hfound
          exact ⟨rfl, by simp [calls, hmade, hchosen], by simp⟩
        once := h.sound.once
        ok := fun call hmem => by simp [calls, hmade, hchosen] at hmem
        said := h.sound.said
        stream := fun run hrun => by
          cases hrun
          exact List.nil_prefix
        released := fun _ => .inl (by simp)
        stopped := fun hstopped => by cases hstopped.symm.trans hobserver }
    · have hnot : ¬ (HandshakeRun.start created).Succeeded := by
        rintro ⟨entry, hentry, -⟩
        cases hentry
      have hhanded : Custody (Valid nonce env.sendAlloc) (some newSockId) none
          (some (HandshakeRun.start created)) [] [] := .handed ⟨newSockId, rfl, rfl⟩ hinv hnot
      simpa [passed, calls, hclosed, hmade, hchosen] using hhanded

/-- The entries of other connections come and go. -/
theorem Inv.onOther (h : a.Inv stream) {table : ExtTreeMap Nat UInt64}
    (hsame : table[a.key]? = a.acceptor.handshaker2Nonce[a.key]?)
    (hobserver : a.acceptor.hasObserver = false → table = ∅) :
    Inv stream { a with acceptor := { a.acceptor with handshaker2Nonce := table } } := by
  refine ⟨{ h.sound with table := ?_, released := ?_, stopped := hobserver }, h.custody⟩
  · intro nonce hfound
    rw [hsame] at hfound
    exact h.sound.table nonce hfound
  · intro hrun
    refine (h.sound.released hrun).imp_left fun hmem => ?_
    rw [ExtTreeMap.mem_iff_isSome_getElem?] at hmem ⊢
    rwa [hsame]

theorem Sound.handshaker (h : a.Sound stream) {data : HandshakeData UInt8} {toSend : List UInt8}
    {run next : HandshakeRun UInt8} {e : HandshakeEvent UInt8} (hrun : a.run = some run)
    (hinv : run.Inv data toSend) (hpermits : run.permits stream a.doomed e = true)
    (hstep : run.step e = some next) : Sound stream { a with run := some next } :=
  { h with
    table := fun nonce hfound => ⟨(h.table nonce hfound).1, (h.table nonce hfound).2.1, by simp⟩
    ok := by
      intro call hmem
      obtain ⟨hnonce, run', r, hrun', hok, hreceived⟩ := h.ok call hmem
      cases hrun.symm.trans hrun'
      refine ⟨hnonce, next, r, rfl, hinv.succeeded_step hstep hok, ?_⟩
      rw [(HandshakeRun.step_bytes_closed hstep (hinv.succeeded hok).2.2).2]
      exact hreceived
    stream := by
      intro run' hrun'
      cases hrun'
      exact HandshakeRun.received_prefix hstep hpermits (h.stream run hrun)
    released := fun _ => h.released (by simp [hrun]) }

/-- The entry of the handshaker is taken out, and the handshaker is deleted. -/
theorem Sound.erase (h : a.Sound stream) (call : Option AcceptCall) (closed : List Nat)
    (hfound : a.key ∈ a.acceptor.handshaker2Nonce)
    (hok : ∀ call' ∈ call, call'.nonce = a.nonce ∧ ∃ run r,
      a.run = some run ∧ run.Succeeded ∧ run.received = [call'.serviceId, call'.serviceOpt, r, r + 1]) :
    (a.enter ⟨{ a.acceptor with handshaker2Nonce := a.acceptor.handshaker2Nonce.erase a.key }, call,
      closed, true⟩).Sound stream ∧
    (a.enter ⟨{ a.acceptor with handshaker2Nonce := a.acceptor.handshaker2Nonce.erase a.key }, call,
      closed, true⟩).calls = call.toList := by
  obtain ⟨nonce, hnonce⟩ := Option.isSome_iff_exists.mp (ExtTreeMap.mem_iff_isSome_getElem?.mp hfound)
  obtain ⟨-, hnone, -⟩ := h.table nonce hnonce
  rw [calls, List.append_eq_nil_iff, Option.toList_eq_nil_iff] at hnone
  have hcalls : (a.enter ⟨{ a.acceptor with
      handshaker2Nonce := a.acceptor.handshaker2Nonce.erase a.key }, call, closed, true⟩).calls =
      call.toList := by
    simp [calls, AcceptorEnd.enter, hnone.1, hnone.2]
  refine ⟨⟨?_, ?_, ?_, h.said, h.stream, ?_, ?_⟩, hcalls⟩
  · intro nonce hstill
    simp [AcceptorEnd.enter] at hstill
  · rw [hcalls]
    cases call <;> simp
  · intro call' hmem
    rw [hcalls, Option.mem_toList] at hmem
    exact hok call' hmem
  · intro _
    right
    simp [AcceptorEnd.enter]
  · intro hstopped
    rw [h.stopped hstopped] at hfound
    simp at hfound

theorem enter_none (a : AcceptorEnd) : a.enter ⟨a.acceptor, none, [], false⟩ = a := by
  simp [enter]

theorem Inv.onHandshakeError (h : a.Inv stream) :
    (a.enter (a.acceptor.onHandshakeError a.key)).Inv stream := by
  unfold Acceptor.onHandshakeError
  split
  · rw [enter_none]
    exact h
  · rename_i hguard
    simp only [Bool.or_eq_true, Bool.not_eq_true', decide_eq_true_eq, not_or, not_not] at hguard
    obtain ⟨hsound, hcalls⟩ := h.sound.erase none [] hguard.2
      (fun call' hcall => by cases hcall)
    refine ⟨hsound, ?_⟩
    have hnone : a.calls = [] := by
      obtain ⟨nonce, hnonce⟩ :=
        Option.isSome_iff_exists.mp (ExtTreeMap.mem_iff_isSome_getElem?.mp hguard.2)
      exact (h.sound.table nonce hnonce).2.1
    have hcustody := h.custody
    rw [passed, hnone] at hcustody
    rw [passed, hcalls]
    simpa [enter] using hcustody

/-- The socket is closed here, or it is passed on. -/
theorem Sound.onHandshakeOk (h : a.Sound stream) {run : HandshakeRun UInt8} {sockId : Nat}
    (hrun : a.run = some run) (hok : run.Succeeded) (hclosed : a.closed = []) (hpassed : a.passed = [])
    (hcloses : Custody (Valid a.nonce a.filled) a.accepted none (some run) [sockId] [])
    (hpasses : Custody (Valid a.nonce a.filled) a.accepted none (some run) [] [sockId]) (named : Bool) :
    (a.enter (a.acceptor.onHandshakeOk a.key sockId run.received named)).Inv stream := by
  have hdropped : (a.enter ⟨a.acceptor, none, [sockId], false⟩).Inv stream := by
    have hsame : a.enter ⟨a.acceptor, none, [sockId], false⟩ =
        { a with closed := a.closed ++ [sockId] } := by
      simp [AcceptorEnd.enter]
    rw [hsame]
    refine ⟨{ h with }, ?_⟩
    rw [← hrun] at hcloses
    rw [passed, List.map_eq_nil_iff, calls] at hpassed
    simpa [passed, calls, hclosed, hpassed] using hcloses
  unfold Acceptor.onHandshakeOk
  split
  · exact hdropped
  split
  · exact hdropped
  rename_i nonce hnonce
  have hfound : a.key ∈ a.acceptor.handshaker2Nonce :=
    ExtTreeMap.mem_iff_isSome_getElem?.mpr (Option.isSome_iff_exists.mpr ⟨nonce, hnonce⟩)
  have hrefused : (a.enter ⟨{ a.acceptor with
      handshaker2Nonce := a.acceptor.handshaker2Nonce.erase a.key }, none, [sockId], true⟩).Inv
      stream := by
    obtain ⟨hsound, hcalls⟩ := h.erase none [sockId] hfound
      (fun call' hcall => by cases hcall)
    refine ⟨hsound, ?_⟩
    rw [passed, hcalls]
    rw [← hrun] at hcloses
    simpa [AcceptorEnd.enter, hclosed] using hcloses
  dsimp only
  split
  · rename_i serviceId serviceOpt r r' hbytes
    split
    · exact hrefused
    · rename_i hrand
      rw [ne_eq, not_not] at hrand
      obtain ⟨hsound, hcalls⟩ :=
        h.erase (some ⟨sockId, serviceId, serviceOpt, nonce⟩) [] hfound
          (fun call' hcall => by
            cases hcall
            exact ⟨(h.table nonce hnonce).1, run, r, hrun, hok, by rw [hbytes, hrand]⟩)
      refine ⟨hsound, ?_⟩
      rw [passed, hcalls]
      rw [← hrun] at hpasses
      simpa [AcceptorEnd.enter, hclosed] using hpasses
  · exact hrefused

theorem Inv.onHandshaker (h : a.Inv stream) {e : HandshakeEvent UInt8} {named : Bool}
    {a' : AcceptorEnd} (hstep : a.onHandshaker stream e named = some a') : a'.Inv stream := by
  unfold AcceptorEnd.onHandshaker at hstep
  obtain ⟨run, hrun, hstep⟩ := Option.bind_eq_some_iff.mp hstep
  split at hstep
  · cases hstep
  rename_i hpermits
  rw [Bool.not_eq_true', Bool.not_eq_false] at hpermits
  obtain ⟨next, hnext, hstep⟩ := Option.bind_eq_some_iff.mp hstep
  have hcustody := h.custody
  rw [hrun] at hcustody
  obtain ⟨data, toSend, hvalid, hinv⟩ := hcustody.inv
  have hsound := h.sound.handshaker hrun hinv hpermits hnext
  cases hdelivers : run.delivers e with
  | none =>
    rw [hdelivers] at hstep
    cases hstep
    exact ⟨hsound, hcustody.goesOn hnext (by simp [hdelivers])⟩
  | some call =>
    rw [hdelivers] at hstep
    cases hstep
    cases call with
    | onHandshakeError errorCode =>
      have hmoved : Inv stream { a with run := some next } :=
        ⟨hsound, hcustody.goesOn hnext (by simp [hdelivers])⟩
      exact hmoved.onHandshakeError
    | onHandshakeOk sockId buf =>
      obtain ⟨hclosed, hpassed, hbuf, hok, hcloses, hpasses⟩ := hcustody.given hnext hdelivers
      rw [hbuf]
      exact hsound.onHandshakeOk rfl hok hclosed hpassed hcloses hpasses named

theorem Inv.fini (h : a.Inv stream) :
    Inv stream { a with
      acceptor := a.acceptor.fini.1
      doomed := a.doomed || a.acceptor.fini.2.contains a.key } := by
  unfold Acceptor.fini
  split
  · simpa using h
  · refine ⟨{ h.sound with table := ?_, released := ?_, stopped := fun _ => rfl }, h.custody⟩
    · intro nonce hfound
      simp at hfound
    · intro hrun
      right
      rcases h.sound.released hrun with hmem | hdoomed
      · simp [hmem]
      · simp [hdoomed]

theorem Inv.upcall (h : a.Inv stream) {call : AcceptCall} (hchosen : a.chosen = some call) :
    Inv stream { a with chosen := none, made := a.made ++ [call] } := by
  have hcalls : calls { a with chosen := none, made := a.made ++ [call] } = a.calls := by
    simp [calls, hchosen]
  refine ⟨{ h.sound with table := ?_, once := ?_, ok := ?_, said := ?_ }, ?_⟩
  · intro nonce hfound
    rw [hcalls]
    exact h.sound.table nonce hfound
  · rw [hcalls]
    exact h.sound.once
  · rw [hcalls]
    exact h.sound.ok
  · simp
  · rw [passed, hcalls]
    exact h.custody

theorem Inv.step (h : a.Inv stream) (e : ServiceEvent) {a' : AcceptorEnd}
    (hstep : ServiceSystem.stepAcc a stream e = some a') : a'.Inv stream := by
  cases e with
  | accept newSockId handshaker nonce env =>
    simp only [ServiceSystem.stepAcc] at hstep
    split at hstep
    · cases hstep
    · rename_i hguard
      simp only [Bool.or_eq_true, Bool.not_eq_true', decide_eq_true_eq, not_or, Bool.not_eq_false,
        Bool.not_eq_true, Option.isSome_eq_false_iff, Option.isNone_iff_eq_none] at hguard
      cases hstep
      exact h.accept hguard.1.2 newSockId handshaker nonce env hguard.1.1
  | acceptOther handshaker nonce =>
    simp only [ServiceSystem.stepAcc] at hstep
    split at hstep
    · cases hstep
    · rename_i hguard
      simp only [Bool.or_eq_true, decide_eq_true_eq, Bool.not_eq_true', not_or,
        Bool.not_eq_false] at hguard
      cases hstep
      refine h.onOther ?_ ?_
      · rw [ExtTreeMap.getElem?_insert, if_neg (by simpa using hguard.1)]
      · intro hclosed
        cases hclosed.symm.trans hguard.2
  | dropOther handshaker =>
    simp only [ServiceSystem.stepAcc] at hstep
    split at hstep
    · cases hstep
    · rename_i hne
      cases hstep
      refine h.onOther ?_ ?_
      · rw [ExtTreeMap.getElem?_erase, if_neg (by simpa using hne)]
      · intro hclosed
        rw [h.sound.stopped hclosed]
        exact ExtTreeMap.erase_empty
  | accHandshaker e named => exact h.onHandshaker hstep
  | accFini =>
    cases hstep
    exact h.fini
  | accUpcall =>
    obtain ⟨call, hchosen, rfl⟩ := Option.map_eq_some_iff.mp hstep
    exact h.upcall hchosen
  | accSays bytes =>
    simp only [ServiceSystem.stepAcc] at hstep
    split at hstep
    · cases hstep
    · rename_i hmade
      cases hstep
      exact ⟨{ h.sound with said := fun _ hnone => hmade (List.isEmpty_iff.mpr hnone) }, h.custody⟩
  | _ => cases hstep

theorem Inv.said_after (h : a.Inv stream) (hsaid : a.said ≠ []) :
    ∃ run, a.run = some run ∧ run.Succeeded := by
  obtain ⟨call, hcall⟩ := List.exists_mem_of_ne_nil _ (h.sound.said hsaid)
  obtain ⟨-, run, -, hrun, hok, -⟩ := h.sound.ok call (List.mem_append_left _ hcall)
  exact ⟨run, hrun, hok⟩

theorem Inv.sent_of_unstarted (h : a.Inv stream) (hrun : a.run = none) : a.sent = [] := by
  have hsaid : a.said = [] := by
    by_contra hsaid
    obtain ⟨run, hsome, -⟩ := h.said_after hsaid
    cases hrun.symm.trans hsome
  rw [sent, hrun, hsaid]
  rfl

theorem Inv.speaks (h : a.Inv stream) (hfilled : a.filled = true) :
    Speaks (memory64 (hton64 a.nonce)) a.sent := by
  cases hrun : a.run with
  | none =>
    rw [h.sent_of_unstarted hrun]
    exact speaks_nil _
  | some run =>
    have hcustody := h.custody
    rw [hrun] at hcustody
    obtain ⟨data, toSend, ⟨sockId, rfl, rfl⟩, hinv⟩ := hcustody.inv
    rw [hfilled, if_pos rfl] at hinv
    rw [sent, hrun]
    refine hinv.speaks fun hsaid => ?_
    obtain ⟨run', hrun', hok⟩ := h.said_after hsaid
    cases hrun.symm.trans hrun'
    exact hok

/-- An acceptor that has not copied its nonce and has heard nothing says nothing. -/
theorem Inv.sent_nil (h : a.Inv []) (hfilled : a.filled = false) : a.sent = [] := by
  cases hrun : a.run with
  | none => exact h.sent_of_unstarted hrun
  | some run =>
    have hcustody := h.custody
    rw [hrun, hfilled] at hcustody
    obtain ⟨data, toSend, ⟨sockId, rfl, rfl⟩, hinv⟩ := hcustody.inv
    have hreceived : run.received = [] := List.prefix_nil.mp (h.sound.stream run hrun)
    have hwritten : run.written = [] := List.prefix_nil.mp hinv.written
    have hsaid : a.said = [] := by
      by_contra hsaid
      obtain ⟨run', hsome, hok⟩ := h.said_after hsaid
      cases hrun.symm.trans hsome
      exact hinv.not_succeeded (Nat.zero_lt_succ 3) hreceived hok
    rw [sent, hrun, hsaid, Option.elim_some, hwritten]
    rfl

theorem Inv.sent_handshaker (h : a.Inv stream) {e : HandshakeEvent UInt8} {named : Bool}
    {a' : AcceptorEnd} (hstep : a.onHandshaker stream e named = some a') : a.sent <+: a'.sent := by
  unfold AcceptorEnd.onHandshaker at hstep
  obtain ⟨run, hrun, hstep⟩ := Option.bind_eq_some_iff.mp hstep
  split at hstep
  · cases hstep
  obtain ⟨next, hnext, hstep⟩ := Option.bind_eq_some_iff.mp hstep
  have hcustody := h.custody
  rw [hrun] at hcustody
  obtain ⟨data, toSend, -, hinv⟩ := hcustody.inv
  have hsent : a.sent <+: next.written ++ a.said := by
    rw [sent, hrun]
    refine hinv.written_step hnext fun hsaid => ?_
    obtain ⟨run', hrun', hok⟩ := h.said_after hsaid
    cases hrun.symm.trans hrun'
    exact hok
  cases hdelivers : run.delivers e with
  | none =>
    rw [hdelivers] at hstep
    cases hstep
    exact hsent
  | some call =>
    rw [hdelivers] at hstep
    cases hstep
    exact hsent

theorem Inv.sent_step (h : a.Inv stream) (e : ServiceEvent) {a' : AcceptorEnd}
    (hstep : ServiceSystem.stepAcc a stream e = some a') : a.sent <+: a'.sent := by
  cases e with
  | accept newSockId handshaker nonce env =>
    simp only [ServiceSystem.stepAcc] at hstep
    split at hstep
    · cases hstep
    · rename_i hguard
      simp only [Bool.or_eq_true, Bool.not_eq_true', decide_eq_true_eq, not_or,
        Bool.not_eq_true, Option.isSome_eq_false_iff, Option.isNone_iff_eq_none] at hguard
      rw [h.sent_of_unstarted (h.unaccepted hguard.1.2).1]
      exact List.nil_prefix
  | accHandshaker e named => exact h.sent_handshaker hstep
  | accUpcall =>
    obtain ⟨call, -, rfl⟩ := Option.map_eq_some_iff.mp hstep
    exact List.prefix_rfl
  | accSays bytes =>
    simp only [ServiceSystem.stepAcc] at hstep
    split at hstep
    · cases hstep
    · cases hstep
      rw [sent, sent, ← List.append_assoc]
      exact List.prefix_append _ _
  | accFini =>
    cases hstep
    exact List.prefix_rfl
  | acceptOther handshaker nonce =>
    simp only [ServiceSystem.stepAcc] at hstep
    split at hstep
    · cases hstep
    · cases hstep
      exact List.prefix_rfl
  | dropOther handshaker =>
    simp only [ServiceSystem.stepAcc] at hstep
    split at hstep
    · cases hstep
    · cases hstep
      exact List.prefix_rfl
  | _ => cases hstep

end AcceptorEnd

/-- Whoever has the socket of an end, with the callbacks that pass it on and the places
where it is closed. -/
def ConnectorEnd.owners (c : ConnectorEnd) : List Nat :=
  c.connector.sockId.toList ++ c.run.elim [] HandshakeRun.holds ++ c.passed ++ c.closed

def AcceptorEnd.owners (a : AcceptorEnd) : List Nat :=
  a.run.elim [] HandshakeRun.holds ++ a.passed ++ a.closed

/-- The handshaker of an end is gone, or has never been. -/
def HandshakeRun.Gone (run : Option (HandshakeRun UInt8)) : Prop :=
  ∀ w, run = some w → w.destroyed = true ∧ w.chosen = none ∧ w.handshaker.sockId = none

namespace ServiceSystem

/-- What holds of the two ends in every state. -/
structure Agreement (serviceId serviceOpt : UInt8) (w : ServiceSystem) : Prop where
  connectOnce : w.conn.made.length ≤ 1
  acceptOnce : w.acc.made.length ≤ 1
  accepts : ∀ call ∈ w.acc.made,
    w.acc.accepted = some call.sockId ∧ call.serviceId = serviceId ∧ call.serviceOpt = serviceOpt ∧
      call.nonce = w.acc.nonce ∧ memory64 (hton64 call.nonce) <+: w.acc.sent
  connects : ∀ sockId id opt nonce, .onConnectOk sockId id opt nonce ∈ w.conn.made →
    w.conn.opened = some sockId ∧ id = serviceId ∧ opt = serviceOpt ∧
      w.acc.accepted.isSome = true ∧ nonce = w.acc.nonce
  connOwner : w.conn.owners = w.conn.opened.toList
  accOwner : w.acc.owners = w.acc.accepted.toList
  connReleases : w.conn.connector.hasObserver = false → w.conn.run ≠ none → w.conn.doomed = true
  accReleases : w.acc.acceptor.hasObserver = false → w.acc.run ≠ none → w.acc.doomed = true
  connSettles : w.conn.destroyed = true → w.conn.chosen = none → HandshakeRun.Gone w.conn.run →
    w.conn.run.elim [] HandshakeRun.closed ++ w.conn.made.filterMap ConnectCall.passed ++
      w.conn.closed = w.conn.opened.toList
  accSettles : w.acc.chosen = none → HandshakeRun.Gone w.acc.run →
    w.acc.run.elim [] HandshakeRun.closed ++ w.acc.made.map AcceptCall.sockId ++
      w.acc.closed = w.acc.accepted.toList

structure Inv (serviceId serviceOpt : UInt8) (w : ServiceSystem) : Prop where
  conn : w.conn.Inv serviceId serviceOpt w.acc.sent
  acc : w.acc.Inv w.conn.sent
  mute : w.acc.filled = false → w.acc.sent = [] ∧ w.conn.sent = []

/-- Whenever `OnOutput` of the connector creates a handshaker, `Fill` can copy the
service data. -/
def Copies (w : ServiceSystem) : ServiceEvent → Prop
  | .connOutput sockId _ env => w.conn.Copies sockId env
  | _ => True

variable {serviceId serviceOpt : UInt8} {w : ServiceSystem}

theorem filled_step {a a' : AcceptorEnd} {stream : List UInt8} {e : ServiceEvent}
    (hstep : stepAcc a stream e = some a') : a'.filled = a.filled ∨ a.accepted = none := by
  cases e with
  | accept newSockId handshaker nonce env =>
    simp only [stepAcc] at hstep
    split at hstep
    · cases hstep
    · rename_i hguard
      simp only [Bool.or_eq_true, not_or, Bool.not_eq_true, Option.isSome_eq_false_iff,
        Option.isNone_iff_eq_none] at hguard
      exact Or.inr hguard.1.2
  | acceptOther handshaker nonce =>
    simp only [stepAcc] at hstep
    split at hstep
    · cases hstep
    · cases hstep
      exact Or.inl rfl
  | dropOther handshaker =>
    simp only [stepAcc] at hstep
    split at hstep
    · cases hstep
    · cases hstep
      exact Or.inl rfl
  | accHandshaker e named =>
    simp only [stepAcc] at hstep
    unfold AcceptorEnd.onHandshaker at hstep
    obtain ⟨run, -, hstep⟩ := Option.bind_eq_some_iff.mp hstep
    split at hstep
    · cases hstep
    · obtain ⟨next, -, hstep⟩ := Option.bind_eq_some_iff.mp hstep
      left
      cases hdelivers : run.delivers e with
      | none =>
        rw [hdelivers] at hstep
        cases hstep
        rfl
      | some call =>
        rw [hdelivers] at hstep
        cases hstep
        rfl
  | accFini =>
    cases hstep
    exact Or.inl rfl
  | accUpcall =>
    obtain ⟨call, -, rfl⟩ := Option.map_eq_some_iff.mp hstep
    exact Or.inl rfl
  | accSays bytes =>
    simp only [stepAcc] at hstep
    split at hstep
    · cases hstep
    · cases hstep
      exact Or.inl rfl
  | _ => cases hstep

/-- As long as the acceptor has no nonce to send, neither end says anything. -/
theorem Inv.conn_mute (h : w.Inv serviceId serviceOpt) {e : ServiceEvent} {acc : AcceptorEnd}
    (hstep : stepAcc w.acc w.conn.sent e = some acc) (hfilled : acc.filled = false) :
    w.conn.sent = [] := by
  rcases filled_step hstep with hsame | hnone
  · exact (h.mute (hsame.symm.trans hfilled)).2
  · have hconn := h.conn
    rw [h.acc.sent_of_unstarted (h.acc.unaccepted hnone).1] at hconn
    exact hconn.sent_nil

theorem Inv.step (h : w.Inv serviceId serviceOpt) (e : ServiceEvent) (hcopies : w.Copies e)
    {next : ServiceSystem} (hstep : w.step e = some next) : next.Inv serviceId serviceOpt := by
  unfold ServiceSystem.step at hstep
  rcases Option.or_eq_some_iff.mp hstep with hconn | ⟨-, hacc⟩
  · obtain ⟨conn, hstepped, rfl⟩ := Option.map_eq_some_iff.mp hconn
    have hnext := h.conn.step e (fun sockId r env he => by cases he; exact hcopies) hstepped
    refine ⟨hnext, h.acc.mono (h.conn.sent_step e hstepped), ?_⟩
    intro hfilled
    have hsent := (h.mute hfilled).1
    rw [hsent] at hnext
    exact ⟨hsent, hnext.sent_nil⟩
  · obtain ⟨acc, hstepped, rfl⟩ := Option.map_eq_some_iff.mp hacc
    have hnext := h.acc.step e hstepped
    refine ⟨h.conn.mono (h.acc.sent_step e hstepped), hnext, ?_⟩
    intro hfilled
    have hsent := h.conn_mute hstepped hfilled
    rw [hsent] at hnext
    exact ⟨hnext.sent_nil hfilled, hsent⟩

end ServiceSystem

theorem HandshakeRun.Gone.holds {run : Option (HandshakeRun UInt8)} (h : Gone run) :
    run.elim [] HandshakeRun.holds = run.elim [] HandshakeRun.closed := by
  cases run with
  | none => rfl
  | some w =>
    obtain ⟨-, hchosen, hsock⟩ := h w rfl
    simp [HandshakeRun.holds, hchosen, hsock]

namespace ServiceSystem

variable {serviceId serviceOpt : UInt8} {w : ServiceSystem}

theorem Inv.connOwner (h : w.Inv serviceId serviceOpt) : w.conn.owners = w.conn.opened.toList :=
  h.conn.custody.holds

theorem Inv.accOwner (h : w.Inv serviceId serviceOpt) : w.acc.owners = w.acc.accepted.toList := by
  have hholds := h.acc.custody.holds
  rwa [Option.toList_none, List.nil_append] at hholds

/-- Whoever has heard something has copied its nonce. -/
theorem Inv.filled_of_heard (h : w.Inv serviceId serviceOpt) {run : HandshakeRun UInt8}
    (hheard : run.received <+: w.acc.sent ∨ run.received <+: w.conn.sent)
    (hne : run.received ≠ []) : w.acc.filled = true := by
  by_contra hfilled
  rw [Bool.not_eq_true] at hfilled
  rw [(h.mute hfilled).1, (h.mute hfilled).2, or_self, List.prefix_nil] at hheard
  exact hne hheard

/-- The acceptor has heard what the connector says of its service. -/
theorem Inv.accepts (h : w.Inv serviceId serviceOpt) {call : AcceptCall} (hcall : call ∈ w.acc.made) :
    w.acc.accepted = some call.sockId ∧ call.serviceId = serviceId ∧ call.serviceOpt = serviceOpt ∧
      call.nonce = w.acc.nonce ∧ memory64 (hton64 call.nonce) <+: w.acc.sent := by
  have hmem : call ∈ w.acc.calls := List.mem_append_left _ hcall
  obtain ⟨hnonce, run, r, hrun, hok, hreceived⟩ := h.acc.sound.ok call hmem
  have hopened : call.sockId ∈ w.acc.accepted.toList := by
    rw [← h.accOwner, AcceptorEnd.owners]
    exact List.mem_append_left _ (List.mem_append_right _ (List.mem_map_of_mem hmem))
  have hcustody := h.acc.custody
  rw [hrun] at hcustody
  obtain ⟨data, toSend, ⟨sockId, rfl, rfl⟩, hinv⟩ := hcustody.inv
  have hfilled := h.filled_of_heard (.inr (h.acc.sound.stream run hrun)) (by simp [hreceived])
  rw [hfilled, if_pos rfl] at hinv
  obtain ⟨r', hspeaks⟩ := h.conn.speaks
  have hheard := hspeaks.heard (h.acc.sound.stream run hrun) (hinv.succeeded hok).1
  rw [hreceived] at hheard
  injection hheard with hid hrest
  injection hrest with hopt
  refine ⟨Option.mem_toList.mp hopened, hid, hopt, hnonce, ?_⟩
  rw [hnonce, AcceptorEnd.sent, hrun, Option.elim_some, (hinv.succeeded hok).2.1]
  exact List.prefix_append _ _

/-- The connector has heard the nonce of the acceptor. -/
theorem Inv.connects (h : w.Inv serviceId serviceOpt) {sockId : Nat} {id opt : UInt8} {nonce : UInt64}
    (hcall : .onConnectOk sockId id opt nonce ∈ w.conn.made) :
    w.conn.opened = some sockId ∧ id = serviceId ∧ opt = serviceOpt ∧
      w.acc.accepted.isSome = true ∧ nonce = w.acc.nonce := by
  have hmem : .onConnectOk sockId id opt nonce ∈ w.conn.calls := List.mem_append_left _ hcall
  obtain ⟨hid, hopt, run, hrun, hok, hnonce⟩ := h.conn.sound.ok _ _ _ _ hmem
  have hopened : sockId ∈ w.conn.opened.toList := by
    rw [← h.connOwner, ConnectorEnd.owners]
    exact List.mem_append_left _
      (List.mem_append_right _ (List.mem_filterMap.mpr ⟨_, hmem, rfl⟩))
  have hcustody := h.conn.custody
  rw [hrun] at hcustody
  obtain ⟨data, toSend, ⟨sockId', r, rfl, rfl⟩, hinv⟩ := hcustody.inv
  have hlength := (hinv.succeeded hok).1
  have hpre := h.conn.sound.stream run hrun
  have hsome : run.received ≠ [] := by
    intro hnone
    rw [hnone] at hlength
    cases hlength
  have hheard := (h.acc.speaks (h.filled_of_heard (.inl hpre) hsome)).heard hpre hlength
  refine ⟨Option.mem_toList.mp hopened, hid, hopt, ?_, ?_⟩
  · -- The acceptor has sent bytes, so that it has accepted the socket.
    by_contra hnone
    rw [Bool.not_eq_true, Option.isSome_eq_false_iff, Option.isNone_iff_eq_none] at hnone
    rw [h.acc.sent_of_unstarted (h.acc.unaccepted hnone).1, List.prefix_nil] at hpre
    exact hsome hpre
  · rw [hnonce, hheard, ofMemory64_memory64, ntoh64_hton64]

theorem Inv.agreement (h : w.Inv serviceId serviceOpt) : w.Agreement serviceId serviceOpt where
  connectOnce := by
    have honce := h.conn.sound.once
    rw [ConnectorEnd.calls, List.length_append] at honce
    omega
  acceptOnce := by
    have honce := h.acc.sound.once
    rw [AcceptorEnd.calls, List.length_append] at honce
    omega
  accepts _ hcall := h.accepts hcall
  connects _ _ _ _ hcall := h.connects hcall
  connOwner := h.connOwner
  accOwner := h.accOwner
  connReleases hobserver hrun := by
    rcases h.conn.sound.released hrun with hworking | hdoomed
    · cases hobserver.symm.trans (h.conn.sound.working hworking).1
    · exact hdoomed
  accReleases hobserver hrun := by
    rcases h.acc.sound.released hrun with hmem | hdoomed
    · rw [h.acc.sound.stopped hobserver] at hmem
      simp at hmem
    · exact hdoomed
  connSettles hdestroyed hchosen hgone := by
    have howner := h.connOwner
    rw [ConnectorEnd.owners, hgone.holds, (h.conn.sound.gone hdestroyed).2, ConnectorEnd.passed,
      ConnectorEnd.calls, hchosen, Option.toList_none, Option.toList_none, List.nil_append,
      List.append_nil] at howner
    exact howner
  accSettles hchosen hgone := by
    have howner := h.accOwner
    rw [AcceptorEnd.owners, hgone.holds, AcceptorEnd.passed, AcceptorEnd.calls, hchosen,
      Option.toList_none, List.append_nil] at howner
    exact howner

theorem inv_init (serviceId serviceOpt : UInt8) (timerId0 timerId1 : Nat) :
    (init serviceId serviceOpt timerId0 timerId1).Inv serviceId serviceOpt :=
  ⟨ConnectorEnd.inv_init _ _ _ _ _, AcceptorEnd.inv_init _, fun _ => ⟨rfl, rfl⟩⟩

/-- In every interleaving of the two ends, however the bytes are cut and whatever else
fails, as long as the connector can copy what it has to send. -/
theorem agreement_of_service_run {serviceId serviceOpt : UInt8} {timerId0 timerId1 : Nat}
    {es : List ServiceEvent} {w : ServiceSystem}
    (hcopies : Guarded step Copies (init serviceId serviceOpt timerId0 timerId1) es)
    (hrun : run step (init serviceId serviceOpt timerId0 timerId1) es = some w) :
    w.Agreement serviceId serviceOpt := by
  have hinv : w.Inv serviceId serviceOpt :=
    run_preserves (fun v e next hv hcopies hstep => hv.step e hcopies hstep)
      (inv_init serviceId serviceOpt timerId0 timerId1) hcopies hrun
  exact hinv.agreement

instance (w : ServiceSystem) : (e : ServiceEvent) → Decidable (w.Copies e)
  | .connOutput sockId _ env => inferInstanceAs (Decidable
      (w.conn.connector.hasObserver = true → w.conn.connector.sockId = some sockId →
        env.recvAlloc = true → env.added = true → env.sendAlloc = true))
  | .connTimer .. | .connError .. | .connHandshaker .. | .connFini | .connUpcall | .connDestroy
  | .connSays .. | .accept .. | .acceptOther .. | .dropOther .. | .accHandshaker .. | .accFini
  | .accUpcall | .accSays .. => inferInstanceAs (Decidable True)

/-- Socket 7 is connected and accepted as socket 9; the nonce arrives in two pieces. -/
def wholeHandshake : List ServiceEvent :=
  [.connTimer 1 (some 7) true, .connOutput 7 40 ⟨true, true, fun _ => 0, true, 3⟩,
    .accept 9 80 0x0102030405060708 ⟨true, true, fun _ => 0, true, 4⟩,
    .accHandshaker (.onOutput 9 (.sent 8) true) true,
    .connHandshaker (.onInput 7 (.received [1, 2, 3]) true),
    .connHandshaker (.onInput 7 (.received [4, 5, 6, 7, 8]) true),
    .connHandshaker (.onOutput 7 (.sent 4) true), .connHandshaker .upcall, .connUpcall,
    .accHandshaker (.onInput 9 (.received [5, 6, 40, 41]) true) true,
    .accHandshaker (.onOutput 9 (.sent 0) true) true, .accHandshaker .upcall true, .accUpcall]

theorem agreement_of_service_run_wholeHandshake :
    ∃ w, run step (init 5 6 1 2) wholeHandshake = some w ∧
      w.conn.made = [.onConnectOk 7 5 6 0x0102030405060708] ∧
      w.acc.made = [⟨9, 5, 6, 0x0102030405060708⟩] ∧ w.Agreement 5 6 := by
  have hsome : ((run step (init 5 6 1 2) wholeHandshake).map fun w => (w.conn.made, w.acc.made)) =
      some ([.onConnectOk 7 5 6 0x0102030405060708], [⟨9, 5, 6, 0x0102030405060708⟩]) := by
    decide +kernel
  obtain ⟨w, hw, hmade⟩ := Option.map_eq_some_iff.mp hsome
  rw [Prod.mk.injEq] at hmade
  exact ⟨w, hw, hmade.1, hmade.2, agreement_of_service_run (by decide +kernel) hw⟩

/-- The connector cannot copy its service data, and its handshake succeeds without them.
Then its application speaks. -/
def unsentData : List ServiceEvent :=
  [.connTimer 1 (some 7) true, .connOutput 7 40 ⟨false, true, fun _ => 0, true, 3⟩,
    .accept 9 80 0x0102030405060708 ⟨true, true, fun _ => 0, true, 4⟩,
    .accHandshaker (.onOutput 9 (.sent 8) true) true,
    .connHandshaker (.onInput 7 (.received [1, 2, 3, 4, 5, 6, 7, 8]) true),
    .connHandshaker (.onOutput 7 (.sent 0) true), .connHandshaker .upcall, .connUpcall,
    .connSays [1, 2, 3, 4], .accHandshaker (.onInput 9 (.received [1, 2, 3, 4]) true) true,
    .accHandshaker (.onOutput 9 (.sent 0) true) true, .accHandshaker .upcall true, .accUpcall]

/-- The acceptor takes the first bytes of the application for the service data. -/
theorem not_agreement_unsentData :
    ∃ w, run step (init 5 6 1 2) unsentData = some w ∧
      w.conn.made = [.onConnectOk 7 5 6 0x0102030405060708] ∧
      w.acc.made = [⟨9, 1, 2, 0x0102030405060708⟩] ∧ ¬ w.Agreement 5 6 := by
  have hsome : ((run step (init 5 6 1 2) unsentData).map fun w => (w.conn.made, w.acc.made)) =
      some ([.onConnectOk 7 5 6 0x0102030405060708], [⟨9, 1, 2, 0x0102030405060708⟩]) := by
    decide +kernel
  obtain ⟨w, hw, hmade⟩ := Option.map_eq_some_iff.mp hsome
  rw [Prod.mk.injEq] at hmade
  refine ⟨w, hw, hmade.1, hmade.2, ?_⟩
  intro hagrees
  have haccepts := hagrees.accepts ⟨9, 1, 2, 0x0102030405060708⟩ (by simp [hmade.2])
  cases haccepts.2.1

end ServiceSystem

end Pronet.Net
