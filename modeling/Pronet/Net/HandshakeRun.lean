import Pronet.Library.Runs
import Pronet.Net.TcpHandshaker

/-! Every run of a TCP handshaker. The sections of its handlers, the callbacks behind
them, `Fini` and the destructor come in any order; the reactor calls `OnOutput` for
handlers that are registered for it. -/
namespace Pronet.Net

open Library Runs

variable {β : Type*}

/-- A callback, and whether `Fini` had run when it was chosen and when it was made. -/
structure HandshakeMade (β : Type*) where
  call : HandshakeCall β
  chosenLate : Bool
  madeLate : Bool
  deriving DecidableEq, Repr

/-- A handshaker with the bytes that its socket has taken and yielded. -/
structure HandshakeRun (β : Type*) where
  handshaker : TcpHandshaker β
  written : List β
  received : List β
  chosen : Option (HandshakeCall β × Bool)
  finished : Bool
  made : List (HandshakeMade β)
  closed : List Nat
  destroyed : Bool

inductive HandshakeEvent (β : Type*)
  | onInput (sockId : Nat) (result : RecvResult β) (added : Bool)
  | onOutput (sockId : Nat) (result : SendResult) (alloc : Bool)
  | onError (sockId : Nat) (errorCode : Int)
  | onTimer (timerId : Nat)
  | upcall
  | fini
  | destroy
  deriving DecidableEq, Repr

namespace HandshakeRun

def start (h : TcpHandshaker β) : HandshakeRun β := ⟨h, [], [], none, false, [], [], false⟩

/-- A section has run. -/
def enter (w : HandshakeRun β) (r : TcpHandshaker β × Option (HandshakeCall β)) : HandshakeRun β :=
  { w with
    handshaker := r.1
    chosen := r.2.elim w.chosen fun call => some (call, w.finished) }

def perform (w : HandshakeRun β) : HandshakeEvent β → Option (HandshakeRun β)
  | .onInput sockId result added =>
      some ({ w with received := w.received ++ w.handshaker.inputBytes sockId result }.enter
        (w.handshaker.onInput sockId result added))
  | .onOutput sockId result alloc =>
      if w.handshaker.hasObserver && !w.handshaker.registeredWr then none
      else
        some ({ w with written := w.written ++ w.handshaker.outputBytes sockId result }.enter
          (w.handshaker.onOutput sockId result alloc))
  | .onError sockId errorCode => some (w.enter (w.handshaker.onError sockId errorCode))
  | .onTimer timerId => some (w.enter (w.handshaker.onTimer timerId))
  | .upcall =>
      w.chosen.map fun (call, chosenLate) =>
        { w with chosen := none, made := w.made ++ [⟨call, chosenLate, w.finished⟩] }
  | .fini => some { w with handshaker := w.handshaker.fini, finished := true }
  | .destroy =>
      -- A handler that still has to make its callback holds a reference.
      if w.chosen.isSome then none
      else
        let (handshaker, closed) := w.handshaker.destroy
        some {
          w with
          handshaker := handshaker
          finished := true
          closed := w.closed ++ closed.toList
          destroyed := true }

def step (w : HandshakeRun β) (e : HandshakeEvent β) : Option (HandshakeRun β) :=
  if w.destroyed then none else w.perform e

/-- The callback that has been made or is about to be made. -/
def calls (w : HandshakeRun β) : List (HandshakeCall β) :=
  w.made.map HandshakeMade.call ++ w.chosen.toList.map Prod.fst

/-- A handshaker that has chosen its callback, or that `Fini` has stopped before. -/
inductive Ended (data : HandshakeData β) (toSend : List β) (w : HandshakeRun β) : Prop
  | stopped (hcalls : w.calls = []) (hfinished : w.finished = true)
      (hsock : w.handshaker.sockId.toList ++ w.closed = [data.sockId])
  | failed (errorCode : Int) (hcalls : w.calls = [.onHandshakeError errorCode])
      (hsock : w.handshaker.sockId.toList ++ w.closed = [data.sockId])
  | succeeded (hcalls : w.calls = [.onHandshakeOk data.sockId w.received])
      (hsock : w.handshaker.sockId.toList ++ w.closed = []) (hsent : w.written = toSend)
      (hreceived : w.received.length = data.recvDataSize)

structure Inv (data : HandshakeData β) (toSend : List β) (w : HandshakeRun β) : Prop where
  opened : w.handshaker.hasObserver = true →
    w.handshaker.Open data toSend w.written w.received ∧ w.calls = [] ∧ w.finished = false ∧
      w.closed = []
  ended : w.handshaker.hasObserver = false → w.Ended data toSend
  written : w.written <+: toSend
  order : data.recvFirst = true → w.written ≠ [] → data.recvDataSize ≤ w.received.length
  chosen : ∀ entry ∈ w.chosen, entry.2 = false
  made : ∀ entry ∈ w.made, entry.chosenLate = false
  alive : w.destroyed = false → w.closed = []
  dead : w.destroyed = true → w.chosen = none ∧ w.handshaker.sockId = none ∧
    w.handshaker.hasObserver = false

variable {data : HandshakeData β} {toSend : List β} {w : HandshakeRun β}

theorem inv_start {env : HandshakeEnv β} {h : TcpHandshaker β}
    (hinit : TcpHandshaker.init data env = some h) :
    (start h).Inv data (TcpHandshaker.filled data env) := by
  have hopen := TcpHandshaker.open_init hinit
  refine ⟨fun _ => ⟨hopen, rfl, rfl, rfl⟩, ?_, List.nil_prefix, ?_, ?_, ?_, fun _ => rfl, ?_⟩
  · intro hclosed
    have hobserver := hopen.hasObserver
    rw [show h.hasObserver = false from hclosed] at hobserver
    cases hobserver
  · intro _ hne
    exact absurd rfl hne
  · intro entry hentry
    cases hentry
  · intro entry hentry
    cases hentry
  · intro hdead
    cases hdead

/-- A section of an open handshaker, with the bytes that it has moved. -/
theorem Inv.enter (h : w.Inv data toSend) (hobserver : w.handshaker.hasObserver = true)
    {written received : List β} (hpre : written <+: toSend)
    (horder : data.recvFirst = true → written ≠ [] → data.recvDataSize ≤ received.length)
    {r : TcpHandshaker β × Option (HandshakeCall β)}
    (houtcome : TcpHandshaker.Outcome data toSend written received r) :
    Inv data toSend
      (HandshakeRun.enter { w with written := written, received := received } r) := by
  obtain ⟨hopen, hcalls, hfinished, hclosed⟩ := h.opened hobserver
  have hnone : w.made = [] ∧ w.chosen = none := by
    simpa [calls] using hcalls
  have hdead : w.destroyed = false := by
    by_contra hdestroyed
    rw [Bool.not_eq_false] at hdestroyed
    have := (h.dead hdestroyed).2.2
    rw [hobserver] at this
    cases this
  cases houtcome with
  | goesOn hnext =>
    refine ⟨fun _ => ⟨hnext, hcalls, hfinished, hclosed⟩, ?_, hpre, horder, h.chosen, h.made,
      h.alive, ?_⟩
    · intro hleft
      cases hnext.hasObserver.symm.trans hleft
    · intro hdestroyed
      rw [show w.destroyed = true from hdestroyed] at hdead
      cases hdead
  | fails hleft hsock errorCode =>
    refine ⟨?_, ?_, hpre, horder, ?_, h.made, h.alive, ?_⟩
    · intro hstill
      rw [HandshakeRun.enter] at hstill
      rw [hleft] at hstill
      cases hstill
    · intro _
      refine .failed errorCode ?_ ?_
      · simp [calls, HandshakeRun.enter, hnone.1]
      · simp [HandshakeRun.enter, hsock, hclosed]
    · intro entry hentry
      cases hentry
      exact hfinished
    · intro hdestroyed
      rw [show w.destroyed = true from hdestroyed] at hdead
      cases hdead
  | succeeds hleft hsock hsent hreceived =>
    refine ⟨?_, ?_, hpre, horder, ?_, h.made, h.alive, ?_⟩
    · intro hstill
      rw [HandshakeRun.enter] at hstill
      rw [hleft] at hstill
      cases hstill
    · intro _
      refine .succeeded ?_ ?_ hsent hreceived
      · simp [calls, HandshakeRun.enter, hnone.1]
      · simp [HandshakeRun.enter, hsock, hclosed]
    · intro entry hentry
      cases hentry
      exact hfinished
    · intro hdestroyed
      rw [show w.destroyed = true from hdestroyed] at hdead
      cases hdead

/-- A handler that finds no observer does nothing. -/
theorem enter_none (w : HandshakeRun β) : w.enter (w.handshaker, none) = w := rfl

theorem Inv.onInput (h : w.Inv data toSend) (sockId : Nat) (result : RecvResult β) (added : Bool) :
    Inv data toSend
      (HandshakeRun.enter { w with received := w.received ++ w.handshaker.inputBytes sockId result }
        (w.handshaker.onInput sockId result added)) := by
  cases hobserver : w.handshaker.hasObserver with
  | false =>
    have hbytes : w.handshaker.inputBytes sockId result = [] := by
      cases result <;> simp [TcpHandshaker.inputBytes, hobserver]
    have hnothing : w.handshaker.onInput sockId result added = (w.handshaker, none) := by
      simp [TcpHandshaker.onInput, hobserver]
    rw [hbytes, hnothing, List.append_nil, enter_none]
    exact h
  | true =>
    refine h.enter hobserver h.written ?_ ((h.opened hobserver).1.onInput sockId result added)
    intro hfirst hne
    have := h.order hfirst hne
    rw [List.length_append]
    omega

theorem Inv.onOutput (h : w.Inv data toSend) (sockId : Nat) (result : SendResult) (alloc : Bool)
    (hregistered : w.handshaker.hasObserver = true → w.handshaker.registeredWr = true) :
    Inv data toSend
      (HandshakeRun.enter { w with written := w.written ++ w.handshaker.outputBytes sockId result }
        (w.handshaker.onOutput sockId result alloc)) := by
  cases hobserver : w.handshaker.hasObserver with
  | false =>
    have hbytes : w.handshaker.outputBytes sockId result = [] := by
      cases result <;> simp [TcpHandshaker.outputBytes, hobserver]
    have hnothing : w.handshaker.onOutput sockId result alloc = (w.handshaker, none) := by
      simp [TcpHandshaker.onOutput, hobserver]
    rw [hbytes, hnothing, List.append_nil, enter_none]
    exact h
  | true =>
    obtain ⟨hopen, -⟩ := h.opened hobserver
    refine h.enter hobserver ?_ ?_ (hopen.onOutput sockId result alloc)
    · rw [← hopen.sendPool.preSend, List.prefix_append_right_inj]
      cases result with
      | failed errno => exact List.nil_prefix
      | sent size =>
        unfold TcpHandshaker.outputBytes
        dsimp only
        split
        · exact List.nil_prefix
        · exact List.take_prefix _ _
    · intro hfirst _
      exact Nat.le_of_eq (hopen.waits hfirst (hregistered hobserver)).symm

/-- `OnError` and `OnTimer` move no bytes. -/
theorem Inv.onQuiet (h : w.Inv data toSend) {r : TcpHandshaker β × Option (HandshakeCall β)}
    (hnothing : w.handshaker.hasObserver = false → r = (w.handshaker, none))
    (houtcome : w.handshaker.Open data toSend w.written w.received →
      TcpHandshaker.Outcome data toSend w.written w.received r) : Inv data toSend (w.enter r) := by
  cases hobserver : w.handshaker.hasObserver with
  | false =>
    rw [hnothing hobserver, enter_none]
    exact h
  | true => exact h.enter hobserver h.written h.order (houtcome (h.opened hobserver).1)

theorem Inv.upcall (h : w.Inv data toSend) {call : HandshakeCall β} {chosenLate : Bool}
    (hchosen : w.chosen = some (call, chosenLate)) :
    Inv data toSend
      { w with chosen := none, made := w.made ++ [⟨call, chosenLate, w.finished⟩] } := by
  have hcalls : calls { w with
      chosen := none, made := w.made ++ [⟨call, chosenLate, w.finished⟩] } = w.calls := by
    simp [calls, hchosen]
  refine ⟨?_, ?_, h.written, h.order, ?_, ?_, h.alive, ?_⟩
  · intro hobserver
    obtain ⟨hopen, hnone, hrest⟩ := h.opened hobserver
    exact ⟨hopen, hcalls.trans hnone, hrest⟩
  · intro hobserver
    cases h.ended hobserver with
    | stopped hnone hfinished hsock => exact .stopped (hcalls.trans hnone) hfinished hsock
    | failed errorCode hfailed hsock => exact .failed errorCode (hcalls.trans hfailed) hsock
    | succeeded hok hsock hsent hreceived => exact .succeeded (hcalls.trans hok) hsock hsent hreceived
  · intro entry hentry
    cases hentry
  · intro entry hentry
    rcases List.mem_append.mp hentry with hentry | hentry
    · exact h.made entry hentry
    · rw [List.mem_singleton.mp hentry]
      exact h.chosen _ hchosen
  · intro hdestroyed
    exact ⟨rfl, (h.dead hdestroyed).2⟩

theorem Inv.fini (h : w.Inv data toSend) (hdead : w.destroyed = false) :
    Inv data toSend { w with handshaker := w.handshaker.fini, finished := true } := by
  cases hobserver : w.handshaker.hasObserver with
  | false =>
    have hsame : w.handshaker.fini = w.handshaker := by
      simp [TcpHandshaker.fini, hobserver]
    rw [hsame]
    refine ⟨?_, ?_, h.written, h.order, h.chosen, h.made, h.alive, h.dead⟩
    · intro hstill
      rw [show w.handshaker.hasObserver = true from hstill] at hobserver
      cases hobserver
    · intro _
      cases h.ended hobserver with
      | stopped hnone _ hsock => exact .stopped hnone rfl hsock
      | failed errorCode hfailed hsock => exact .failed errorCode hfailed hsock
      | succeeded hok hsock hsent hreceived => exact .succeeded hok hsock hsent hreceived
  | true =>
    obtain ⟨hopen, hcalls, -, hclosed⟩ := h.opened hobserver
    have hleave : w.handshaker.fini = w.handshaker.leave := by
      simp [TcpHandshaker.fini, hobserver]
    rw [hleave]
    refine ⟨(fun hstill => nomatch hstill), ?_, h.written, h.order, h.chosen, h.made, h.alive, ?_⟩
    · intro _
      refine .stopped hcalls rfl ?_
      simp [TcpHandshaker.leave, hopen.sockId, hclosed]
    · intro hdestroyed
      rw [show w.destroyed = true from hdestroyed] at hdead
      cases hdead

theorem Inv.destroy (h : w.Inv data toSend) (hdead : w.destroyed = false)
    (hchosen : w.chosen = none) :
    Inv data toSend { w with
      handshaker := w.handshaker.destroy.1
      finished := true
      closed := w.closed ++ w.handshaker.destroy.2.toList
      destroyed := true } := by
  have hfini := h.fini hdead
  have hclosed := h.alive hdead
  have hobserver : w.handshaker.fini.hasObserver = false := by
    unfold TcpHandshaker.fini
    split
    · rfl
    · rename_i hclosed
      rwa [Bool.not_eq_true] at hclosed
  have hsock : w.handshaker.fini.sockId = w.handshaker.sockId := by
    unfold TcpHandshaker.fini
    split <;> rfl
  have hmoved : ∀ socks, w.handshaker.fini.sockId.toList ++ w.closed = socks →
      (none : Option Nat).toList ++ (w.closed ++ w.handshaker.sockId.toList) = socks := by
    intro socks hsocks
    rw [hsock, hclosed, List.append_nil] at hsocks
    rw [hclosed, List.nil_append, hsocks]
    rfl
  refine ⟨?_, ?_, h.written, h.order, h.chosen, h.made, ?_, fun _ => ⟨hchosen, rfl, hobserver⟩⟩
  · intro hstill
    rw [show w.handshaker.fini.hasObserver = true from hstill] at hobserver
    cases hobserver
  · intro _
    cases hfini.ended hobserver with
    | stopped hnone _ hsocks => exact .stopped hnone rfl (hmoved _ hsocks)
    | failed errorCode hfailed hsocks => exact .failed errorCode hfailed (hmoved _ hsocks)
    | succeeded hok hsocks hsent hreceived => exact .succeeded hok (hmoved _ hsocks) hsent hreceived
  · intro halive
    cases halive

theorem Inv.step (h : w.Inv data toSend) (e : HandshakeEvent β) {next : HandshakeRun β}
    (hstep : w.step e = some next) : next.Inv data toSend := by
  unfold HandshakeRun.step at hstep
  split at hstep
  · cases hstep
  rename_i hdead
  rw [Bool.not_eq_true] at hdead
  cases e with
  | onInput sockId result added =>
    cases hstep
    exact h.onInput sockId result added
  | onOutput sockId result alloc =>
    simp only [perform] at hstep
    split at hstep
    · cases hstep
    · rename_i hcheck
      cases hstep
      apply h.onOutput
      intro hobserver
      simpa [hobserver] using hcheck
  | onError sockId errorCode =>
    cases hstep
    apply h.onQuiet
    · intro hobserver
      simp [TcpHandshaker.onError, hobserver]
    · exact fun hopen => hopen.onError sockId errorCode
  | onTimer timerId =>
    cases hstep
    apply h.onQuiet
    · intro hobserver
      simp [TcpHandshaker.onTimer, hobserver]
    · exact fun hopen => hopen.onTimer timerId
  | upcall =>
    obtain ⟨⟨call, chosenLate⟩, hchosen, rfl⟩ := Option.map_eq_some_iff.mp hstep
    exact h.upcall hchosen
  | fini =>
    cases hstep
    exact h.fini hdead
  | destroy =>
    simp only [perform] at hstep
    split at hstep
    · cases hstep
    · rename_i hchosen
      cases hstep
      exact h.destroy hdead (by simpa using hchosen)

/-- The handshake succeeded. -/
def Succeeded (w : HandshakeRun β) : Prop :=
  ∃ entry ∈ w.made, ∃ sockId buf, entry.call = .onHandshakeOk sockId buf

/-- What holds of a handshaker in every state. `allocated` says that `Init` could copy
the data it has to send. -/
structure Settles (data : HandshakeData β) (allocated : Bool) (w : HandshakeRun β) : Prop where
  once : w.made.length ≤ 1
  inTime : ∀ entry ∈ w.made, entry.chosenLate = false
  ok : ∀ entry ∈ w.made, ∀ sockId buf, entry.call = .onHandshakeOk sockId buf →
    sockId = data.sockId ∧ buf = w.received ∧ w.received.length = data.recvDataSize ∧
      (allocated = true → w.written = data.sendData)
  inOrder : w.written <+: data.sendData
  recvFirst : data.recvFirst = true → w.written ≠ [] → data.recvDataSize ≤ w.received.length
  given : w.Succeeded → w.closed = [] ∧ w.handshaker.sockId = none
  closed : w.destroyed = true → ¬ w.Succeeded → w.closed = [data.sockId]
  kept : w.destroyed = false → w.closed = []
  registered : w.handshaker.hasObserver = true →
    (w.received.length < data.recvDataSize → w.handshaker.registeredRd = true) ∧
    (w.handshaker.sendPool.preSend ≠ [] →
      (data.recvFirst = true → w.received.length = data.recvDataSize) →
      w.handshaker.registeredWr = true) ∧
    (w.handshaker.sendPool.preSend = [] → w.received.length = data.recvDataSize →
      w.handshaker.registeredWr = true)
  observed : w.handshaker.hasObserver = true ↔ w.calls = [] ∧ w.finished = false

theorem length_made (w : HandshakeRun β) : w.made.length ≤ w.calls.length := by
  simp [calls]

theorem call_mem {entry : HandshakeMade β} (hentry : entry ∈ w.made) : entry.call ∈ w.calls :=
  List.mem_append_left _ (List.mem_map_of_mem hentry)

theorem Inv.calls_of_mem (h : w.Inv data toSend) {entry : HandshakeMade β} (hentry : entry ∈ w.made) :
    w.Ended data toSend := by
  apply h.ended
  by_contra hobserver
  rw [Bool.not_eq_false] at hobserver
  have hmem := call_mem hentry
  rw [(h.opened hobserver).2.1] at hmem
  cases hmem

theorem Inv.ok (h : w.Inv data toSend) {entry : HandshakeMade β} (hentry : entry ∈ w.made)
    {sockId : Nat} {buf : List β} (hcall : entry.call = .onHandshakeOk sockId buf) :
    sockId = data.sockId ∧ buf = w.received ∧ w.received.length = data.recvDataSize ∧
      w.written = toSend ∧ w.handshaker.sockId.toList ++ w.closed = [] := by
  have hmem := call_mem hentry
  rw [hcall] at hmem
  cases h.calls_of_mem hentry with
  | stopped hcalls _ hsock =>
    rw [hcalls] at hmem
    cases hmem
  | failed errorCode hcalls hsock =>
    rw [hcalls] at hmem
    cases List.mem_singleton.mp hmem
  | succeeded hcalls hsock hsent hreceived =>
    rw [hcalls] at hmem
    cases List.mem_singleton.mp hmem
    exact ⟨rfl, rfl, hreceived, hsent, hsock⟩

theorem Inv.length_calls (h : w.Inv data toSend) : w.calls.length ≤ 1 := by
  cases hobserver : w.handshaker.hasObserver with
  | true => simp [(h.opened hobserver).2.1]
  | false =>
    cases h.ended hobserver with
    | stopped hcalls _ hsock => simp [hcalls]
    | failed errorCode hcalls hsock => simp [hcalls]
    | succeeded hcalls hsock hsent hreceived => simp [hcalls]

theorem Inv.closed_of_destroyed (h : w.Inv data toSend) (hdestroyed : w.destroyed = true)
    (hfailed : ¬ w.Succeeded) : w.closed = [data.sockId] := by
  obtain ⟨hchosen, hsock, hobserver⟩ := h.dead hdestroyed
  cases h.ended hobserver with
  | stopped hcalls _ hsocks =>
    rw [hsock] at hsocks
    exact hsocks
  | failed errorCode hcalls hsocks =>
    rw [hsock] at hsocks
    exact hsocks
  | succeeded hcalls hsocks hsent hreceived =>
    -- The callback has been made, since the destructor waits for it.
    have hmem : HandshakeCall.onHandshakeOk data.sockId w.received ∈ w.made.map HandshakeMade.call := by
      rw [calls, hchosen] at hcalls
      simp only [Option.toList_none, List.map_nil, List.append_nil] at hcalls
      rw [hcalls]
      exact List.mem_singleton_self _
    obtain ⟨entry, hentry, hcall⟩ := List.mem_map.mp hmem
    exact absurd ⟨entry, hentry, data.sockId, w.received, hcall⟩ hfailed

theorem Inv.observed (h : w.Inv data toSend) :
    w.handshaker.hasObserver = true ↔ w.calls = [] ∧ w.finished = false := by
  constructor
  · intro hobserver
    obtain ⟨-, hcalls, hfinished, -⟩ := h.opened hobserver
    exact ⟨hcalls, hfinished⟩
  · rintro ⟨hnone, hfinished⟩
    by_contra hobserver
    rw [Bool.not_eq_true] at hobserver
    cases h.ended hobserver with
    | stopped hcalls hstopped hsock =>
      rw [hfinished] at hstopped
      cases hstopped
    | failed errorCode hcalls hsock =>
      rw [hnone] at hcalls
      cases hcalls
    | succeeded hcalls hsock hsent hreceived =>
      rw [hnone] at hcalls
      cases hcalls

theorem Inv.registered (h : w.Inv data toSend) (hobserver : w.handshaker.hasObserver = true) :
    (w.received.length < data.recvDataSize → w.handshaker.registeredRd = true) ∧
    (w.handshaker.sendPool.preSend ≠ [] →
      (data.recvFirst = true → w.received.length = data.recvDataSize) →
      w.handshaker.registeredWr = true) ∧
    (w.handshaker.sendPool.preSend = [] → w.received.length = data.recvDataSize →
      w.handshaker.registeredWr = true) := by
  obtain ⟨hopen, -⟩ := h.opened hobserver
  refine ⟨hopen.read.mpr, ?_, fun _ hall => hopen.write (Or.inl hall)⟩
  intro hrest hfirst
  apply hopen.write
  cases hcase : data.recvFirst with
  | false => exact Or.inr ⟨hrest, rfl⟩
  | true => exact Or.inl (hfirst hcase)

theorem Inv.settles {env : HandshakeEnv β} (h : w.Inv data (TcpHandshaker.filled data env)) :
    w.Settles data env.sendAlloc := by
  refine ⟨(length_made w).trans h.length_calls, h.made, ?_, ?_, h.order, ?_,
    h.closed_of_destroyed, h.alive, h.registered, h.observed⟩
  · intro entry hentry sockId buf hcall
    obtain ⟨hsock, hbuf, hlength, hsent, -⟩ := h.ok hentry hcall
    refine ⟨hsock, hbuf, hlength, fun halloc => ?_⟩
    rw [hsent, TcpHandshaker.filled, if_pos halloc]
  · refine h.written.trans ?_
    unfold TcpHandshaker.filled
    split
    · exact List.prefix_rfl
    · exact List.nil_prefix
  · rintro ⟨entry, hentry, sockId, buf, hcall⟩
    obtain ⟨-, -, -, -, hsocks⟩ := h.ok hentry hcall
    rw [List.append_eq_nil_iff, Option.toList_eq_nil_iff] at hsocks
    exact hsocks.symm

/-- Whatever the socket takes and yields, and whatever the order of the handlers, their
callbacks, `Fini` and the destructor. -/
theorem settles_of_handshake_run {data : HandshakeData β} {env : HandshakeEnv β}
    {h : TcpHandshaker β} (hinit : TcpHandshaker.init data env = some h)
    {es : List (HandshakeEvent β)} {w : HandshakeRun β} (hrun : run step (start h) es = some w) :
    w.Settles data env.sendAlloc := by
  have hinv : w.Inv data (TcpHandshaker.filled data env) :=
    run_preserves (fun v e next hv _ hstep => hv.step e hstep) (inv_start hinit)
      (guarded_true (start h) es) hrun
  exact hinv.settles

/-- The bytes 1, 2 and 3 are sent once 7 and 8 have arrived. -/
def threeForTwo : HandshakeData UInt8 := ⟨5, [1, 2, 3], 2, true⟩

def roomy : HandshakeEnv UInt8 := ⟨true, true, fun _ => 0, true, 1⟩

def threeForTwoStart : TcpHandshaker UInt8 := (TcpHandshaker.init threeForTwo roomy).get (by decide)

def inPieces : List (HandshakeEvent UInt8) :=
  [.onInput 5 (.received [7]) true, .onInput 5 (.failed ewouldblock) true,
    .onInput 5 (.received [8]) true, .onOutput 5 (.sent 1) true,
    .onOutput 5 (.failed ewouldblock) true, .onOutput 5 (.sent 2) true, .upcall, .fini, .destroy]

theorem settles_of_handshake_run_inPieces :
    ∃ w, TcpHandshaker.init threeForTwo roomy = some threeForTwoStart ∧
      run step (start threeForTwoStart) inPieces = some w ∧ w.Settles threeForTwo true := by
  have hinit : TcpHandshaker.init threeForTwo roomy = some threeForTwoStart :=
    (Option.some_get _).symm
  have hsome : (run step (start threeForTwoStart) inPieces).isSome = true := by decide
  obtain ⟨w, hw⟩ := Option.isSome_iff_exists.mp hsome
  exact ⟨w, hinit, hw, settles_of_handshake_run hinit hw⟩

/-- `Fini` runs between the section of `OnError` and its callback. -/
def stoppedLate : List (HandshakeEvent UInt8) := [.onError 5 (-1), .fini, .upcall]

/-- The environment that has no memory for the data to send. -/
def cramped : HandshakeEnv UInt8 := ⟨false, true, fun _ => 0, true, 1⟩

def crampedStart : TcpHandshaker UInt8 := (TcpHandshaker.init threeForTwo cramped).get (by decide)

def nothingSent : List (HandshakeEvent UInt8) :=
  [.onInput 5 (.received [7, 8]) true, .onOutput 5 (.sent 0) true, .upcall]

/-- A callback is made after `Fini`, and another handshake succeeds without its data. -/
theorem not_settles_stoppedLate :
    ((run step (start threeForTwoStart) stoppedLate).map HandshakeRun.made =
      some [⟨.onHandshakeError (-1), false, true⟩]) ∧
    TcpHandshaker.init threeForTwo cramped = some crampedStart ∧
    ((run step (start crampedStart) nothingSent).map fun w => (w.made, w.written)) =
      some ([⟨.onHandshakeOk 5 [7, 8], false, false⟩], []) := by
  refine ⟨by decide, (Option.some_get _).symm, by decide⟩

end HandshakeRun

end Pronet.Net
