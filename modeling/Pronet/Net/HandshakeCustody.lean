import Pronet.Net.ServiceHandshake

/-! Who has the socket of a handshake, and what its bytes say. A handshaker gives its
socket away once, with all that it has received, or it closes it. -/
namespace Pronet.Net

open Std Library Runs

namespace HandshakeRun

variable {β : Type*} {data : HandshakeData β} {toSend : List β} {w next : HandshakeRun β}

/-- Bytes are only added, and received ones only by `OnInput`. -/
theorem step_bytes {e : HandshakeEvent β} (hstep : w.step e = some next) :
    w.written <+: next.written ∧
      next.received = w.received ++ (match e with
        | .onInput sockId result _ => w.handshaker.inputBytes sockId result
        | _ => []) := by
  unfold HandshakeRun.step at hstep
  split at hstep
  · cases hstep
  cases e with
  | onInput sockId result added =>
    cases hstep
    exact ⟨List.prefix_rfl, rfl⟩
  | onOutput sockId result alloc =>
    simp only [perform] at hstep
    split at hstep
    · cases hstep
    · cases hstep
      exact ⟨List.prefix_append _ _, (List.append_nil _).symm⟩
  | onError sockId errorCode =>
    cases hstep
    exact ⟨List.prefix_rfl, (List.append_nil _).symm⟩
  | onTimer timerId =>
    cases hstep
    exact ⟨List.prefix_rfl, (List.append_nil _).symm⟩
  | upcall =>
    obtain ⟨entry, -, rfl⟩ := Option.map_eq_some_iff.mp hstep
    exact ⟨List.prefix_rfl, (List.append_nil _).symm⟩
  | fini =>
    cases hstep
    exact ⟨List.prefix_rfl, (List.append_nil _).symm⟩
  | destroy =>
    simp only [perform] at hstep
    split at hstep
    · cases hstep
    · cases hstep
      exact ⟨List.prefix_rfl, (List.append_nil _).symm⟩

/-- Without an observer no byte moves. -/
theorem step_bytes_closed {e : HandshakeEvent β} (hstep : w.step e = some next)
    (hclosed : w.handshaker.hasObserver = false) :
    next.written = w.written ∧ next.received = w.received := by
  unfold HandshakeRun.step at hstep
  split at hstep
  · cases hstep
  cases e with
  | onInput sockId result added =>
    cases hstep
    refine ⟨rfl, ?_⟩
    have hnone : w.handshaker.inputBytes sockId result = [] := by
      cases result <;> simp [TcpHandshaker.inputBytes, hclosed]
    simp [HandshakeRun.enter, hnone]
  | onOutput sockId result alloc =>
    simp only [perform] at hstep
    split at hstep
    · cases hstep
    · cases hstep
      refine ⟨?_, rfl⟩
      have hnone : w.handshaker.outputBytes sockId result = [] := by
        cases result <;> simp [TcpHandshaker.outputBytes, hclosed]
      simp [HandshakeRun.enter, hnone]
  | upcall =>
    obtain ⟨entry, -, rfl⟩ := Option.map_eq_some_iff.mp hstep
    exact ⟨rfl, rfl⟩
  | destroy =>
    simp only [perform] at hstep
    split at hstep
    · cases hstep
    · cases hstep
      exact ⟨rfl, rfl⟩
  | _ =>
    cases hstep
    exact ⟨rfl, rfl⟩

/-- The callbacks that are made are the ones that are delivered. -/
theorem step_made {e : HandshakeEvent UInt8} {w next : HandshakeRun UInt8}
    (hstep : w.step e = some next) :
    next.made.map HandshakeMade.call = w.made.map HandshakeMade.call ++ (w.delivers e).toList := by
  unfold HandshakeRun.step at hstep
  split at hstep
  · cases hstep
  cases e with
  | onOutput sockId result alloc =>
    simp only [perform] at hstep
    split at hstep
    · cases hstep
    · cases hstep
      exact (List.append_nil _).symm
  | upcall =>
    obtain ⟨entry, hchosen, rfl⟩ := Option.map_eq_some_iff.mp hstep
    simp [delivers, hchosen]
  | destroy =>
    simp only [perform] at hstep
    split at hstep
    · cases hstep
    · cases hstep
      exact (List.append_nil _).symm
  | _ =>
    cases hstep
    exact (List.append_nil _).symm

theorem succeeded_iff {w : HandshakeRun β} :
    w.Succeeded ↔ ∃ sockId buf, .onHandshakeOk sockId buf ∈ w.made.map HandshakeMade.call := by
  constructor
  · rintro ⟨entry, hentry, sockId, buf, hcall⟩
    exact ⟨sockId, buf, List.mem_map.mpr ⟨entry, hentry, hcall⟩⟩
  · rintro ⟨sockId, buf, hmem⟩
    obtain ⟨entry, hentry, hcall⟩ := List.mem_map.mp hmem
    exact ⟨entry, hentry, sockId, buf, hcall⟩

theorem Inv.succeeded (h : w.Inv data toSend) (hok : w.Succeeded) :
    w.received.length = data.recvDataSize ∧ w.written = toSend ∧ w.handshaker.hasObserver = false := by
  obtain ⟨entry, hentry, sockId, buf, hcall⟩ := hok
  obtain ⟨-, -, hlength, hsent, -⟩ := h.ok hentry hcall
  refine ⟨hlength, hsent, ?_⟩
  by_contra hopen
  rw [Bool.not_eq_false] at hopen
  have hmem := call_mem hentry
  rw [(h.opened hopen).2.1] at hmem
  cases hmem

/-- What an event tells the owner of the handshaker. -/
inductive Delivery (data : HandshakeData UInt8) (w next : HandshakeRun UInt8) :
    Option (HandshakeCall UInt8) → Prop
  | none (hsame : next.Succeeded ↔ w.Succeeded) : Delivery data w next none
  | ok (hbefore : ¬ w.Succeeded) (hafter : next.Succeeded)
      (hlength : next.received.length = data.recvDataSize) :
      Delivery data w next (some (.onHandshakeOk data.sockId next.received))
  | error (hbefore : ¬ w.Succeeded) (hafter : ¬ next.Succeeded) (errorCode : Int) :
      Delivery data w next (some (.onHandshakeError errorCode))

theorem Inv.delivery {w next : HandshakeRun UInt8} {data : HandshakeData UInt8} {toSend : List UInt8}
    (h : w.Inv data toSend) {e : HandshakeEvent UInt8} (hstep : w.step e = some next) :
    Delivery data w next (w.delivers e) := by
  have hmade := step_made hstep
  cases hdelivers : w.delivers e with
  | none =>
    rw [hdelivers, Option.toList_none, List.append_nil] at hmade
    exact .none (by rw [succeeded_iff, succeeded_iff, hmade])
  | some call =>
    rw [hdelivers, Option.toList_some] at hmade
    -- The callback was still to be made, so that none has been made before.
    have hfirst : w.made = [] := by
      cases e with
      | upcall =>
        obtain ⟨entry, hchosen, -⟩ := Option.map_eq_some_iff.mp hdelivers
        have hlength := h.length_calls
        rw [calls, hchosen] at hlength
        simp only [Option.toList_some, List.map_cons, List.map_nil, List.length_append,
          List.length_map, List.length_cons, List.length_nil] at hlength
        exact List.eq_nil_of_length_eq_zero (by omega)
      | _ => cases hdelivers
    have hbefore : ¬ w.Succeeded := by
      rintro ⟨entry, hentry, -⟩
      rw [hfirst] at hentry
      cases hentry
    rw [hfirst, List.map_nil, List.nil_append] at hmade
    cases call with
    | onHandshakeError errorCode =>
      refine .error hbefore ?_ errorCode
      rw [succeeded_iff, hmade]
      rintro ⟨sockId, buf, hmem⟩
      cases List.mem_singleton.mp hmem
    | onHandshakeOk sockId buf =>
      have hmem : HandshakeCall.onHandshakeOk sockId buf ∈ next.made.map HandshakeMade.call := by
        rw [hmade]
        exact List.mem_singleton_self _
      obtain ⟨entry, hentry, hcall⟩ := List.mem_map.mp hmem
      obtain ⟨hsock, hbuf, hlength, -, -⟩ := (h.step e hstep).ok hentry hcall
      subst hsock hbuf
      exact .ok hbefore (succeeded_iff.mpr ⟨_, _, hmem⟩) hlength

theorem Inv.succeeded_step {w next : HandshakeRun UInt8} {data : HandshakeData UInt8}
    {toSend : List UInt8} (h : w.Inv data toSend) {e : HandshakeEvent UInt8}
    (hstep : w.step e = some next) (hok : w.Succeeded) : next.Succeeded := by
  have hdelivery := h.delivery hstep
  generalize w.delivers e = call at hdelivery
  cases hdelivery with
  | none hsame => exact hsame.mpr hok
  | ok hbefore => exact absurd hok hbefore
  | error hbefore => exact absurd hok hbefore

/-- The handshaker receives what the other end has sent. -/
theorem received_prefix {w next : HandshakeRun UInt8} {stream : List UInt8} {doomed : Bool}
    {e : HandshakeEvent UInt8} (hstep : w.step e = some next)
    (hpermits : w.permits stream doomed e = true) (hbefore : w.received <+: stream) :
    next.received <+: stream := by
  rw [(step_bytes hstep).2]
  cases e with
  | onInput sockId result added => exact List.isPrefixOf_iff_prefix.mp hpermits
  | _ =>
    rw [List.append_nil]
    exact hbefore

/-- What an application adds does not move. -/
theorem Inv.written_step {w next : HandshakeRun UInt8} {data : HandshakeData UInt8}
    {toSend said : List UInt8} (h : w.Inv data toSend) {e : HandshakeEvent UInt8}
    (hstep : w.step e = some next) (hsaid : said ≠ [] → w.Succeeded) :
    w.written ++ said <+: next.written ++ said := by
  by_cases hnone : said = []
  · rw [hnone, List.append_nil, List.append_nil]
    exact (step_bytes hstep).1
  · rw [(step_bytes_closed hstep (h.succeeded (hsaid hnone)).2.2).1]

end HandshakeRun

/-- Who has the socket of an end: nobody yet, the end itself, its handshaker, or the
application; or it is closed. The end closes and passes on `closed` and `passed`. What is
valid are the data of the handshaker with what it has to send. -/
inductive Custody (valid : HandshakeData UInt8 → List UInt8 → Prop) :
    Option Nat → Option Nat → Option (HandshakeRun UInt8) → List Nat → List Nat → Prop
  | unopened : Custody valid none none none [] []
  | own (sockId : Nat) : Custody valid (some sockId) (some sockId) none [] []
  | closed (sockId : Nat) : Custody valid (some sockId) none none [sockId] []
  | handed {data : HandshakeData UInt8} {toSend : List UInt8} {run : HandshakeRun UInt8}
      (hvalid : valid data toSend) (hinv : run.Inv data toSend) (hnot : ¬ run.Succeeded) :
      Custody valid (some data.sockId) none (some run) [] []
  | dropped {data : HandshakeData UInt8} {toSend : List UInt8} {run : HandshakeRun UInt8}
      (hvalid : valid data toSend) (hinv : run.Inv data toSend) (hok : run.Succeeded) :
      Custody valid (some data.sockId) none (some run) [data.sockId] []
  | passed {data : HandshakeData UInt8} {toSend : List UInt8} {run : HandshakeRun UInt8}
      (hvalid : valid data toSend) (hinv : run.Inv data toSend) (hok : run.Succeeded) :
      Custody valid (some data.sockId) none (some run) [] [data.sockId]

namespace HandshakeRun

/-- The socket as long as the handshaker has it, or once it has closed it. -/
def holds (w : HandshakeRun UInt8) : List Nat :=
  w.handshaker.sockId.toList ++ w.closed ++ (w.chosen.map Prod.fst).toList.filterMap fun
    | .onHandshakeOk sockId _ => some sockId
    | .onHandshakeError _ => none

theorem Inv.holds {w : HandshakeRun UInt8} {data : HandshakeData UInt8} {toSend : List UInt8}
    (h : w.Inv data toSend) : (w.Succeeded → w.holds = []) ∧ (¬ w.Succeeded → w.holds = [data.sockId]) := by
  have hcalls : w.calls = w.made.map HandshakeMade.call ++ (w.chosen.map Prod.fst).toList := by
    rw [calls]
    cases w.chosen <;> rfl
  unfold HandshakeRun.holds
  cases hobserver : w.handshaker.hasObserver with
  | true =>
    obtain ⟨hopen, hnone, -, hclosed⟩ := h.opened hobserver
    rw [hcalls, List.append_eq_nil_iff] at hnone
    rw [hopen.sockId, hclosed, hnone.2]
    refine ⟨?_, fun _ => rfl⟩
    rw [succeeded_iff, hnone.1]
    rintro ⟨sockId, buf, hmem⟩
    cases hmem
  | false =>
    cases h.ended hobserver with
    | stopped hnone _ hsock =>
      rw [hcalls, List.append_eq_nil_iff] at hnone
      rw [hsock, hnone.2]
      refine ⟨?_, fun _ => rfl⟩
      rw [succeeded_iff, hnone.1]
      rintro ⟨sockId, buf, hmem⟩
      cases hmem
    | failed errorCode hfailed hsock =>
      rw [hcalls] at hfailed
      rw [hsock]
      refine ⟨?_, fun _ => ?_⟩
      · rw [succeeded_iff]
        rintro ⟨sockId, buf, hmem⟩
        have := List.mem_append_left (w.chosen.map Prod.fst).toList hmem
        rw [hfailed] at this
        cases List.mem_singleton.mp this
      · cases hchosen : w.chosen.map Prod.fst with
        | none => rfl
        | some call =>
          have hmem : call ∈ w.made.map HandshakeMade.call ++ (w.chosen.map Prod.fst).toList := by
            rw [hchosen]
            simp
          rw [hfailed] at hmem
          rw [List.mem_singleton.mp hmem]
          rfl
    | succeeded hok hsock hsent hreceived =>
      rw [hcalls] at hok
      rw [hsock]
      rcases List.append_eq_singleton_iff.mp hok with ⟨hmade, hchosen⟩ | ⟨hmade, hchosen⟩
      · refine ⟨?_, fun _ => ?_⟩
        · rw [succeeded_iff, hmade]
          rintro ⟨sockId, buf, hmem⟩
          cases hmem
        · rw [hchosen]
          rfl
      · refine ⟨fun _ => ?_, fun hnot => ?_⟩
        · rw [hchosen]
          rfl
        · exact absurd (succeeded_iff.mpr ⟨_, _, hmade ▸ List.mem_singleton_self _⟩) hnot

end HandshakeRun

/-- Somebody has the socket, and only one. -/
theorem Custody.holds {valid : HandshakeData UInt8 → List UInt8 → Prop} {opened own : Option Nat}
    {run : Option (HandshakeRun UInt8)} {closed passed : List Nat}
    (h : Custody valid opened own run closed passed) :
    own.toList ++ run.elim [] HandshakeRun.holds ++ passed ++ closed = opened.toList := by
  cases h with
  | unopened => rfl
  | own sockId => rfl
  | closed sockId => rfl
  | handed hvalid hinv hnot =>
    simp [hinv.holds.2 hnot]
  | dropped hvalid hinv hok =>
    simp [hinv.holds.1 hok]
  | passed hvalid hinv hok =>
    simp [hinv.holds.1 hok]

namespace Custody

variable {valid : HandshakeData UInt8 → List UInt8 → Prop} {opened own : Option Nat}
  {run next : HandshakeRun UInt8} {closed passed : List Nat} {e : HandshakeEvent UInt8}

theorem inv (h : Custody valid opened own (some run) closed passed) :
    ∃ data toSend, valid data toSend ∧ run.Inv data toSend := by
  cases h with
  | handed hvalid hinv => exact ⟨_, _, hvalid, hinv⟩
  | dropped hvalid hinv => exact ⟨_, _, hvalid, hinv⟩
  | passed hvalid hinv => exact ⟨_, _, hvalid, hinv⟩

/-- The handshaker makes no callback, or reports an error. -/
theorem goesOn (h : Custody valid opened own (some run) closed passed)
    (hstep : run.step e = some next)
    (hquiet : ∀ sockId buf, run.delivers e ≠ some (.onHandshakeOk sockId buf)) :
    Custody valid opened own (some next) closed passed := by
  have hsame : ∀ {data : HandshakeData UInt8} {toSend : List UInt8}, run.Inv data toSend →
      (next.Succeeded ↔ run.Succeeded) := by
    intro data toSend hinv
    have hdelivery := hinv.delivery hstep
    generalize run.delivers e = call at hdelivery hquiet
    cases hdelivery with
    | none hsame => exact hsame
    | ok => exact absurd rfl (hquiet _ _)
    | error hbefore hafter => exact iff_of_false hafter hbefore
  cases h with
  | handed hvalid hinv hnot =>
    exact .handed hvalid (hinv.step e hstep) (fun hok => hnot ((hsame hinv).mp hok))
  | dropped hvalid hinv hok => exact .dropped hvalid (hinv.step e hstep) ((hsame hinv).mpr hok)
  | passed hvalid hinv hok => exact .passed hvalid (hinv.step e hstep) ((hsame hinv).mpr hok)

/-- The handshaker gives its socket away. -/
theorem given (h : Custody valid opened own (some run) closed passed)
    (hstep : run.step e = some next) {sockId : Nat} {buf : List UInt8}
    (hok : run.delivers e = some (.onHandshakeOk sockId buf)) :
    closed = [] ∧ passed = [] ∧ buf = next.received ∧ next.Succeeded ∧
      Custody valid opened own (some next) [sockId] [] ∧
      Custody valid opened own (some next) [] [sockId] := by
  obtain ⟨data, toSend, -, hinv⟩ := h.inv
  have hbefore : ¬ run.Succeeded := by
    have hdelivery := hinv.delivery hstep
    rw [hok] at hdelivery
    cases hdelivery with
    | ok hbefore => exact hbefore
  cases h with
  | dropped _ _ hsucceeded => exact absurd hsucceeded hbefore
  | passed _ _ hsucceeded => exact absurd hsucceeded hbefore
  | handed hvalid hinv hnot =>
    have hdelivery := hinv.delivery hstep
    rw [hok] at hdelivery
    cases hdelivery with
    | ok _ hafter hlength =>
      have hnext := hinv.step e hstep
      exact ⟨rfl, rfl, rfl, hafter, .dropped hvalid hnext hafter, .passed hvalid hnext hafter⟩

theorem none_of_own {sockId : Nat} {run : Option (HandshakeRun UInt8)}
    (h : Custody valid opened (some sockId) run closed passed) :
    opened = some sockId ∧ run = none ∧ closed = [] ∧ passed = [] := by
  cases h
  exact ⟨rfl, rfl, rfl, rfl⟩

theorem none_of_unopened {run : Option (HandshakeRun UInt8)}
    (h : Custody valid none own run closed passed) :
    own = none ∧ run = none ∧ closed = [] ∧ passed = [] := by
  cases h
  exact ⟨rfl, rfl, rfl, rfl⟩

end Custody

/-- A stream that is the beginning of some data, or that begins with it. -/
def Speaks (data sent : List UInt8) : Prop := sent <+: data ∨ data <+: sent

theorem speaks_nil (data : List UInt8) : Speaks data [] := .inl List.nil_prefix

/-- Whoever has heard as many bytes as the data has, has heard the data. -/
theorem Speaks.heard {data sent received : List UInt8} (h : Speaks data sent)
    (hpre : received <+: sent) (hlength : received.length = data.length) : received = data := by
  rcases h with hsent | hsent
  · exact (hpre.trans hsent).eq_of_length hlength
  · exact (List.prefix_of_prefix_length_le hpre hsent (Nat.le_of_eq hlength)).eq_of_length hlength

theorem HandshakeRun.Inv.speaks {run : HandshakeRun UInt8} {data : HandshakeData UInt8}
    {toSend said : List UInt8} (h : run.Inv data toSend) (hsaid : said ≠ [] → run.Succeeded) :
    Speaks toSend (run.written ++ said) := by
  by_cases hnone : said = []
  · rw [hnone, List.append_nil]
    exact .inl h.written
  · rw [(h.succeeded (hsaid hnone)).2.1]
    exact .inr (List.prefix_append _ _)

/-- A handshaker that hears nothing has nothing to say. -/
theorem HandshakeRun.Inv.not_succeeded {run : HandshakeRun UInt8} {data : HandshakeData UInt8}
    {toSend : List UInt8} (h : run.Inv data toSend) (hsize : 0 < data.recvDataSize)
    (hnone : run.received = []) : ¬ run.Succeeded := by
  intro hok
  have hlength := (h.succeeded hok).1
  rw [hnone, List.length_nil] at hlength
  omega

end Pronet.Net
