import Pronet.Library.Deferred
import Pronet.Library.Runs
import Pronet.Net.ServiceHub

/-! `CProServiceHost` from `Init` on, on the platform where its pipe receives descriptors. Every
handler decides in a section under `m_lock`; it deletes connectors and pipes, answers the hub
and calls its observer behind the section. -/
namespace Pronet.Net

open Library Runs

/-- A descriptor that goes to the observer, the packet it has come with, and its pipe. -/
structure HostAccept where
  pipe : Nat
  fd : Nat
  unixSocket : Bool
  packet : ServicePacket
  deriving DecidableEq, Repr

/-- `arrive` marks a descriptor that has come into the hands of the host. -/
inductive HostEffect
  | arrive (sockId : Nat)
  | connect (tick : Int) (connector : Option Nat)
  | createPipe (pipe sockId : Nat)
  | send (pipe : Nat) (packet : AckPacket)
  | closeSock (sockId : Nat)
  | deleteConnector (connector : Nat)
  | deletePipe (pipe : Nat)
  | onServiceAccept (accept : HostAccept)
  | fini
  deriving DecidableEq, Repr

/-- `hasObserver` says that `m_observer` and `m_reactor` are there. -/
structure ServiceHost where
  hasObserver : Bool
  connector : Option Nat
  pipe : Option Nat
  timerId : Nat
  serviceId : UInt8
  connectTick : Int
  deriving DecidableEq, Repr

namespace ServiceHost

def reconnectInterval : Int := 5 * 1000

/-- The packet that registers the service, and keeps it registered. -/
def hello (serviceId : UInt8) : AckPacket := ⟨serviceId, 0, ⟨0, -1⟩⟩

/-- The packet that tells the hub that a descriptor has come. -/
def ackOf (packet : ServicePacket) : AckPacket := ⟨packet.serviceId, 0, packet.oldSock⟩

/-- `Init`, with the connector that it has created. -/
def init (serviceId : UInt8) (connector timerId : Nat) (tick : Int) : ServiceHost :=
  ⟨true, some connector, none, timerId, serviceId, tick⟩

/-- The host, the effects of a section and those behind it. -/
abbrev Section := ServiceHost × List HostEffect × List HostEffect

/-- `pipe` is what `ProCreateServicePipe` returns. -/
def onConnectOk (h : ServiceHost) (connector sockId : Nat) (pipe : Option Nat) : Section :=
  if !h.hasObserver || h.connector.isNone then (h, [.arrive sockId, .closeSock sockId], [])
  else if h.connector ≠ some connector then (h, [.arrive sockId, .closeSock sockId], [])
  else
    let inside := match pipe with
      | none => [.arrive sockId, .closeSock sockId]
      | some pipe => [.arrive sockId, .createPipe pipe sockId, .send pipe (hello h.serviceId)]
    ({ h with pipe := pipe, connector := none }, inside, [.deleteConnector connector])

def onConnectError (h : ServiceHost) (connector : Nat) : Section :=
  if !h.hasObserver || h.connector.isNone then (h, [], [])
  else if h.connector ≠ some connector then (h, [], [])
  else ({ h with connector := none }, [], [.deleteConnector connector])

/-- `hasPeer` says that `pbsd_getpeername` succeeds. -/
def onRecvFd (h : ServiceHost) (accept : HostAccept) (hasPeer : Bool) : Section :=
  if !h.hasObserver || h.pipe.isNone then (h, [.arrive accept.fd, .closeSock accept.fd], [])
  else if h.pipe ≠ some accept.pipe || accept.packet.serviceId ≠ h.serviceId then
    (h, [.arrive accept.fd, .closeSock accept.fd], [])
  else if !accept.unixSocket && !hasPeer then (h, [.arrive accept.fd], [.closeSock accept.fd])
  else (h, [.arrive accept.fd], [.send accept.pipe (ackOf accept.packet), .onServiceAccept accept])

def onClose (h : ServiceHost) (pipe : Nat) : Section :=
  if !h.hasObserver || h.pipe.isNone then (h, [], [])
  else if h.pipe ≠ some pipe then (h, [], [])
  else ({ h with pipe := none }, [], [.deletePipe pipe])

/-- `connector` is what `ProCreateConnectorEx` returns. -/
def onTimer (h : ServiceHost) (timerId : Nat) (tick : Int) (connector : Option Nat) : Section :=
  if timerId = 0 || !h.hasObserver || timerId ≠ h.timerId then (h, [], [])
  else if h.pipe.isNone && h.connector.isNone && tick - h.connectTick ≥ reconnectInterval then
    ({ h with connectTick := tick, connector := connector }, [.connect tick connector], [])
  else
    match h.pipe with
    | some pipe => (h, [.send pipe (hello h.serviceId)], [])
    | none => (h, [], [])

def fini (h : ServiceHost) : Section :=
  if !h.hasObserver then (h, [], [])
  else
    ({ h with timerId := 0, pipe := none, connector := none, hasObserver := false }, [.fini],
      h.pipe.toList.map .deletePipe ++ h.connector.toList.map .deleteConnector)

end ServiceHost

inductive HostEvent
  | onConnectOk (connector sockId : Nat) (pipe : Option Nat)
  | onConnectError (connector : Nat)
  | onRecvFd (accept : HostAccept) (hasPeer : Bool)
  | onClose (pipe : Nat)
  | onTimer (timerId : Nat) (tick : Int) (connector : Option Nat)
  | fini
  | proceed (handler : Nat)
  deriving DecidableEq, Repr

structure HostRun where
  host : ServiceHost
  effects : Deferred HostEffect
  deriving DecidableEq, Repr

namespace HostRun

open ServiceHost

def start (serviceId : UInt8) (connector timerId : Nat) (tick : Int) : HostRun :=
  ⟨ServiceHost.init serviceId connector timerId tick, ⟨[.connect tick (some connector)], []⟩⟩

def enter (w : HostRun) (r : Section) : HostRun := ⟨r.1, w.effects.enter r.2.1 r.2.2⟩

def step (w : HostRun) : HostEvent → Option HostRun
  | .onConnectOk connector sockId pipe => some (w.enter (w.host.onConnectOk connector sockId pipe))
  | .onConnectError connector => some (w.enter (w.host.onConnectError connector))
  | .onRecvFd accept hasPeer => some (w.enter (w.host.onRecvFd accept hasPeer))
  | .onClose pipe => some (w.enter (w.host.onClose pipe))
  | .onTimer timerId tick connector => some (w.enter (w.host.onTimer timerId tick connector))
  | .fini => some (w.enter w.host.fini)
  | .proceed handler => (w.effects.proceed handler).map fun effects => { w with effects := effects }

end HostRun

/-! What the effects say of connectors, pipes and descriptors. -/
namespace HostEffect

def connected : HostEffect → Option Nat
  | .connect _ connector => connector
  | _ => none

def connectorGone : HostEffect → Option Nat
  | .deleteConnector connector => some connector
  | _ => none

def piped : HostEffect → Option Nat
  | .createPipe pipe _ => some pipe
  | _ => none

def pipeGone : HostEffect → Option Nat
  | .deletePipe pipe => some pipe
  | _ => none

def arrived : HostEffect → Option Nat
  | .arrive sockId => some sockId
  | _ => none

/-- A descriptor goes into a pipe, is closed, or goes to the observer. -/
def sockGone : HostEffect → Option Nat
  | .createPipe _ sockId => some sockId
  | .closeSock sockId => some sockId
  | .onServiceAccept accept => some accept.fd
  | _ => none

def attempt : HostEffect → Option Int
  | .connect tick _ => some tick
  | _ => none

/-- The observer is called behind the acknowledgement, and a pipe begins with the registration. -/
def needs (serviceId : UInt8) : HostEffect → Option HostEffect
  | .onServiceAccept accept => some (.send accept.pipe (ServiceHost.ackOf accept.packet))
  | .send pipe packet =>
      if packet = ServiceHost.hello serviceId then none else some (.send pipe (ServiceHost.hello serviceId))
  | _ => none

/-- What only a host with an observer does. -/
def begins : HostEffect → Bool
  | .connect _ _ | .createPipe _ _ => true
  | _ => false

/-- Descriptors are accepted for the service of the host only. -/
def Own (serviceId : UInt8) : HostEffect → Prop
  | .onServiceAccept accept => accept.packet.serviceId = serviceId
  | _ => True

/-- What stands behind a section. -/
def behind : HostEffect → Bool
  | .deleteConnector _ | .deletePipe _ | .closeSock _ | .onServiceAccept _ => true
  | .send _ _ => true
  | _ => false

end HostEffect

namespace HostRun

open ServiceHost HostEffect Deferred

variable {serviceId : UInt8} {w : HostRun}

/-- Attempts to connect are apart. -/
def Apart (ticks : List Int) : Prop := ticks.IsChain fun tick next => tick + reconnectInterval ≤ next

structure Inv (serviceId : UInt8) (w : HostRun) : Prop where
  service : w.host.serviceId = serviceId
  exclusive : w.host.connector = none ∨ w.host.pipe = none
  connectors : w.effects.Balanced connected connectorGone w.host.connector.toList
  pipes : w.effects.Balanced piped pipeGone w.host.pipe.toList
  socks : w.effects.Balanced arrived sockGone []
  ordered : w.effects.Ordered (needs serviceId)
  own : w.effects.Each (Own serviceId)
  registered : ∀ pipe ∈ w.host.pipe, .send pipe (hello serviceId) ∈ w.effects.done
  apart : Apart (w.effects.done.filterMap attempt)
  last : (w.effects.done.filterMap attempt).getLast? = some w.host.connectTick
  behind : ∀ l ∈ w.effects.pending, ∀ e ∈ l, e.behind = true
  finished : w.host.hasObserver = false → w.host.connector = none ∧ w.host.pipe = none ∧
    ∃ pre post, w.effects.done = pre ++ .fini :: post ∧ ∀ e ∈ post, e.begins = false

/-- What a section can do to a host. -/
structure Allowed (h : ServiceHost) (r : Section) : Prop where
  service : r.1.serviceId = h.serviceId
  exclusive : r.1.connector = none ∨ r.1.pipe = none
  connectors : ((r.2.1 ++ r.2.2).filterMap connected ++ h.connector.toList).Perm
    ((r.2.1 ++ r.2.2).filterMap connectorGone ++ r.1.connector.toList)
  pipes : ((r.2.1 ++ r.2.2).filterMap piped ++ h.pipe.toList).Perm
    ((r.2.1 ++ r.2.2).filterMap pipeGone ++ r.1.pipe.toList)
  socks : ((r.2.1 ++ r.2.2).filterMap arrived ++ []).Perm ((r.2.1 ++ r.2.2).filterMap sockGone ++ [])
  inside : ∀ before, (∀ pipe ∈ h.pipe, .send pipe (hello h.serviceId) ∈ before) →
    Follows (needs h.serviceId) before r.2.1
  behind : ∀ before, (∀ pipe ∈ h.pipe, .send pipe (hello h.serviceId) ∈ before) →
    Follows (needs h.serviceId) (before ++ r.2.1) r.2.2
  own : ∀ e ∈ r.2.1 ++ r.2.2, Own h.serviceId e
  registered : ∀ pipe ∈ r.1.pipe, h.pipe = some pipe ∨ .send pipe (hello h.serviceId) ∈ r.2.1
  attempts : r.2.1.filterMap attempt = [] ∧ r.1.connectTick = h.connectTick ∨
    r.2.1.filterMap attempt = [r.1.connectTick] ∧ h.connectTick + reconnectInterval ≤ r.1.connectTick
  left : ∀ e ∈ r.2.2, e.behind = true
  quiet : h.hasObserver = false → r.1 = h ∧ ∀ e ∈ r.2.1, e.begins = false
  stops : h.hasObserver = true → r.1.hasObserver = false →
    r.1.connector = none ∧ r.1.pipe = none ∧ r.2.1 = [.fini]

theorem inv_start (serviceId : UInt8) (connector timerId : Nat) (tick : Int) :
    (start serviceId connector timerId tick).Inv serviceId where
  service := rfl
  exclusive := .inr rfl
  connectors := List.Perm.refl _
  pipes := List.Perm.refl _
  socks := List.Perm.refl _
  ordered := by
    refine ⟨Follows.of_forall ?_, fun l hl => by cases hl⟩
    intro e he
    rw [List.mem_singleton.mp he]
    rfl
  own := by
    intro e he
    rw [List.mem_singleton.mp (show e ∈ [HostEffect.connect tick (some connector)] from he)]
    trivial
  registered pipe hpipe := by cases hpipe
  apart := List.isChain_singleton _
  last := rfl
  behind l hl := by cases hl
  finished hclosed := by cases hclosed

theorem Inv.enter (h : w.Inv serviceId) {r : Section} (hr : Allowed w.host r) : (w.enter r).Inv serviceId := by
  have hservice := h.service
  subst hservice
  refine ⟨hr.service, hr.exclusive, h.connectors.enter hr.connectors, h.pipes.enter hr.pipes,
    h.socks.enter hr.socks, ?_, ?_, ?_, ?_, ?_, ?_, ?_⟩
  · exact h.ordered.enter (hr.inside _ h.registered) (hr.behind _ h.registered)
  · exact h.own.enter (fun e he => hr.own e (List.mem_append_left _ he))
      (fun e he => hr.own e (List.mem_append_right _ he))
  · intro pipe hpipe
    rcases hr.registered pipe hpipe with hold | hnew
    · exact List.mem_append_left _ (h.registered pipe hold)
    · exact List.mem_append_right _ hnew
  · unfold HostRun.enter Deferred.enter
    dsimp only
    rw [List.filterMap_append]
    rcases hr.attempts with ⟨hnone, -⟩ | ⟨hone, hlater⟩
    · rw [hnone, List.append_nil]
      exact h.apart
    · rw [hone]
      refine List.isChain_append.mpr ⟨h.apart, List.isChain_singleton _, ?_⟩
      intro tick hlast next hnext
      rw [h.last, Option.mem_some_iff] at hlast
      rw [List.head?_cons, Option.mem_some_iff] at hnext
      rw [← hlast, ← hnext]
      exact hlater
  · unfold HostRun.enter Deferred.enter
    dsimp only
    rw [List.filterMap_append]
    rcases hr.attempts with ⟨hnone, hsame⟩ | ⟨hone, -⟩
    · rw [hnone, List.append_nil, hsame]
      exact h.last
    · rw [hone, List.getLast?_concat]
  · intro l hl
    unfold HostRun.enter Deferred.enter at hl
    dsimp only at hl
    split at hl
    · exact h.behind l hl
    · rcases List.mem_append.mp hl with hl | hl
      · exact h.behind l hl
      · rw [List.mem_singleton.mp hl]
        exact hr.left
  · intro hclosed
    cases hobserver : w.host.hasObserver with
    | false =>
      obtain ⟨hsame, hinside⟩ := hr.quiet hobserver
      obtain ⟨hconnector, hpipe, pre, post, hdone, hpost⟩ := h.finished hobserver
      refine ⟨(congrArg connector hsame).trans hconnector, (congrArg pipe hsame).trans hpipe, pre,
        post ++ r.2.1, ?_, ?_⟩
      · unfold HostRun.enter Deferred.enter
        dsimp only
        rw [hdone, List.append_assoc, List.cons_append]
      · intro e he
        rcases List.mem_append.mp he with he | he
        · exact hpost e he
        · exact hinside e he
    | true =>
      obtain ⟨hconnector, hpipe, hinside⟩ := hr.stops hobserver hclosed
      refine ⟨hconnector, hpipe, w.effects.done, [], ?_, fun e he => by cases he⟩
      unfold HostRun.enter Deferred.enter
      dsimp only
      rw [hinside]

theorem Inv.proceed (h : w.Inv serviceId) {handler : Nat} {effects : Deferred HostEffect}
    (hd : w.effects.proceed handler = some effects) : Inv serviceId { w with effects := effects } := by
  obtain ⟨e, rest, hi, heq⟩ := proceed_eq_some hd
  have hbehind : e.behind = true := h.behind _ (List.mem_of_getElem? hi) e List.mem_cons_self
  have hquiet : attempt e = none ∧ e.begins = false := by
    cases e <;> first | exact ⟨rfl, rfl⟩ | cases hbehind
  have hattempts : effects.done.filterMap attempt = w.effects.done.filterMap attempt := by
    rw [heq, List.filterMap_append, List.filterMap_cons_none hquiet.1, List.filterMap_nil, List.append_nil]
  refine ⟨h.service, h.exclusive, h.connectors.proceed hd, h.pipes.proceed hd, h.socks.proceed hd,
    h.ordered.proceed hd, h.own.proceed hd, ?_, ?_, ?_, ?_, ?_⟩
  · exact fun pipe hpipe => mem_done_proceed hd (h.registered pipe hpipe)
  · rw [hattempts]
    exact h.apart
  · rw [hattempts]
    exact h.last
  · rw [heq]
    intro l hl
    rcases List.mem_or_eq_of_mem_set hl with hl | rfl
    · exact h.behind l hl
    · exact fun e he => h.behind _ (List.mem_of_getElem? hi) e (List.mem_cons_of_mem _ he)
  · intro hclosed
    obtain ⟨hconnector, hpipe, pre, post, hdone, hpost⟩ := h.finished hclosed
    refine ⟨hconnector, hpipe, pre, post ++ [e], ?_, ?_⟩
    · rw [heq]
      dsimp only
      rw [hdone, List.append_assoc, List.cons_append]
    · intro e' he
      rcases List.mem_append.mp he with he | he
      · exact hpost e' he
      · rw [List.mem_singleton.mp he]
        exact hquiet.2

variable {h : ServiceHost}

/-- A section that leaves the host as it is, and closes at most what has arrived. -/
theorem allowed_still (hexclusive : h.connector = none ∨ h.pipe = none) {inside behind : List HostEffect}
    (hplain : ∀ e ∈ inside ++ behind, (∃ sockId, e = .arrive sockId) ∨ ∃ sockId, e = .closeSock sockId)
    (hsocks : ((inside ++ behind).filterMap arrived ++ []).Perm ((inside ++ behind).filterMap sockGone ++ []))
    (hleft : ∀ e ∈ behind, e.behind = true) : Allowed h (h, inside, behind) := by
  have hnone : ∀ {ι : Type} (f : HostEffect → Option ι), (∀ sockId, f (.arrive sockId) = none) →
      (∀ sockId, f (.closeSock sockId) = none) → ∀ l, l ⊆ inside ++ behind → l.filterMap f = [] := by
    intro ι f harrive hclose l hl
    refine List.filterMap_eq_nil_iff.mpr ?_
    intro e he
    rcases hplain e (hl he) with ⟨sockId, rfl⟩ | ⟨sockId, rfl⟩
    · exact harrive sockId
    · exact hclose sockId
  have hneeds : ∀ e ∈ inside ++ behind, needs h.serviceId e = none := by
    intro e he
    rcases hplain e he with ⟨sockId, rfl⟩ | ⟨sockId, rfl⟩ <;> rfl
  have hall := List.Subset.refl (inside ++ behind)
  have hinside := List.subset_append_left inside behind
  refine ⟨rfl, hexclusive, ?_, ?_, hsocks, ?_, ?_, ?_, fun pipe hpipe => .inl hpipe, .inl ⟨?_, rfl⟩, hleft, ?_, ?_⟩
  · rw [hnone connected (fun _ => rfl) (fun _ => rfl) _ hall,
      hnone connectorGone (fun _ => rfl) (fun _ => rfl) _ hall]
  · rw [hnone piped (fun _ => rfl) (fun _ => rfl) _ hall, hnone pipeGone (fun _ => rfl) (fun _ => rfl) _ hall]
  · exact fun before _ => Follows.of_forall fun e he => hneeds e (List.mem_append_left _ he)
  · exact fun before _ => Follows.of_forall fun e he => hneeds e (List.mem_append_right _ he)
  · intro e he
    rcases hplain e he with ⟨sockId, rfl⟩ | ⟨sockId, rfl⟩ <;> trivial
  · exact hnone attempt (fun _ => rfl) (fun _ => rfl) _ hinside
  · refine fun _ => ⟨rfl, ?_⟩
    intro e he
    rcases hplain e (hinside he) with ⟨sockId, rfl⟩ | ⟨sockId, rfl⟩ <;> rfl
  · exact fun hobserver hclosed => Bool.noConfusion (hobserver.symm.trans hclosed)

theorem allowed_nothing (hexclusive : h.connector = none ∨ h.pipe = none) : Allowed h (h, [], []) :=
  allowed_still hexclusive (fun e he => by cases he) (List.Perm.refl _) (fun e he => by cases he)

/-- A descriptor that is closed at once. -/
theorem allowed_close (hexclusive : h.connector = none ∨ h.pipe = none) (sockId : Nat) :
    Allowed h (h, [.arrive sockId, .closeSock sockId], []) := by
  refine allowed_still hexclusive ?_ (List.Perm.refl _) (fun e he => by cases he)
  intro e he
  simp only [List.append_nil, List.mem_cons, List.not_mem_nil, or_false] at he
  rcases he with rfl | rfl
  · exact .inl ⟨sockId, rfl⟩
  · exact .inr ⟨sockId, rfl⟩

/-- A section that no longer has the connector. -/
theorem allowed_onConnectOk (hexclusive : h.connector = none ∨ h.pipe = none) (connector sockId : Nat)
    (pipe : Option Nat) : Allowed h (h.onConnectOk connector sockId pipe) := by
  unfold ServiceHost.onConnectOk
  split
  · exact allowed_close hexclusive sockId
  · rename_i hopen
    split
    · exact allowed_close hexclusive sockId
    · rename_i hsame
      have hconnector : h.connector = some connector := not_not.mp hsame
      have hpipe : h.pipe = none := by
        rcases hexclusive with hnone | hnone
        · rw [hconnector] at hnone
          cases hnone
        · exact hnone
      have hobserver : h.hasObserver = true := by
        by_contra hclosed
        rw [Bool.not_eq_true] at hclosed
        rw [hclosed] at hopen
        exact hopen rfl
      cases pipe with
      | none =>
        refine ⟨rfl, .inl rfl, ?_, ?_, List.Perm.refl _, ?_, ?_, ?_, ?_, .inl ⟨rfl, rfl⟩, ?_, ?_, ?_⟩
        · rw [hconnector]
          exact List.Perm.refl _
        · rw [hpipe]
          exact List.Perm.refl _
        · refine fun before _ => Follows.of_forall ?_
          intro e he
          simp only [List.mem_cons, List.not_mem_nil, or_false] at he
          rcases he with rfl | rfl <;> rfl
        · refine fun before _ => Follows.of_forall ?_
          intro e he
          rw [List.mem_singleton.mp he]
          rfl
        · intro e he
          simp only [List.cons_append, List.nil_append, List.mem_cons, List.not_mem_nil, or_false] at he
          rcases he with rfl | rfl | rfl <;> trivial
        · intro pipe hnone
          cases hnone
        · intro e he
          rw [List.mem_singleton.mp he]
          rfl
        · exact fun hclosed => Bool.noConfusion (hobserver.symm.trans hclosed)
        · exact fun _ hclosed => Bool.noConfusion (hobserver.symm.trans hclosed)
      | some pipe =>
        refine ⟨rfl, .inl rfl, ?_, ?_, List.Perm.refl _, ?_, ?_, ?_, ?_, .inl ⟨rfl, rfl⟩, ?_, ?_, ?_⟩
        · rw [hconnector]
          exact List.Perm.refl _
        · rw [hpipe]
          exact List.Perm.refl _
        · refine fun before _ => Follows.of_forall ?_
          intro e he
          simp only [List.mem_cons, List.not_mem_nil, or_false] at he
          rcases he with rfl | rfl | rfl
          · rfl
          · rfl
          · exact if_pos rfl
        · refine fun before _ => Follows.of_forall ?_
          intro e he
          rw [List.mem_singleton.mp he]
          rfl
        · intro e he
          simp only [List.cons_append, List.nil_append, List.mem_cons, List.not_mem_nil, or_false] at he
          rcases he with rfl | rfl | rfl | rfl <;> trivial
        · intro other hother
          rw [Option.mem_some_iff] at hother
          rw [← hother]
          exact .inr (by simp)
        · intro e he
          rw [List.mem_singleton.mp he]
          rfl
        · exact fun hclosed => Bool.noConfusion (hobserver.symm.trans hclosed)
        · exact fun _ hclosed => Bool.noConfusion (hobserver.symm.trans hclosed)

theorem allowed_onConnectError (hexclusive : h.connector = none ∨ h.pipe = none) (connector : Nat) :
    Allowed h (h.onConnectError connector) := by
  unfold ServiceHost.onConnectError
  split
  · exact allowed_nothing hexclusive
  · rename_i hopen
    split
    · exact allowed_nothing hexclusive
    · rename_i hsame
      have hconnector : h.connector = some connector := not_not.mp hsame
      have hobserver : h.hasObserver = true := by
        by_contra hclosed
        rw [Bool.not_eq_true] at hclosed
        rw [hclosed] at hopen
        exact hopen rfl
      refine ⟨rfl, .inl rfl, ?_, List.Perm.refl _, List.Perm.refl _, fun before _ => Follows.nil before, ?_, ?_,
        fun pipe hpipe => .inl hpipe, .inl ⟨rfl, rfl⟩, ?_, ?_, ?_⟩
      · rw [hconnector]
        exact List.Perm.refl _
      · refine fun before _ => Follows.of_forall ?_
        intro e he
        rw [List.mem_singleton.mp he]
        rfl
      · intro e he
        rw [List.mem_singleton.mp he]
        trivial
      · intro e he
        rw [List.mem_singleton.mp he]
        rfl
      · exact fun hclosed => Bool.noConfusion (hobserver.symm.trans hclosed)
      · exact fun _ hclosed => Bool.noConfusion (hobserver.symm.trans hclosed)

/-- The hub is answered on the pipe of the host, which has been registered on it. -/
theorem allowed_onRecvFd (hexclusive : h.connector = none ∨ h.pipe = none) (accept : HostAccept)
    (hasPeer : Bool) : Allowed h (h.onRecvFd accept hasPeer) := by
  unfold ServiceHost.onRecvFd
  split
  · exact allowed_close hexclusive accept.fd
  · rename_i hopen
    split
    · exact allowed_close hexclusive accept.fd
    · rename_i hsame
      simp only [Bool.or_eq_true, decide_eq_true_eq, not_or, not_not] at hsame
      obtain ⟨hpipe, hservice⟩ := hsame
      have hobserver : h.hasObserver = true := by
        by_contra hclosed
        rw [Bool.not_eq_true] at hclosed
        rw [hclosed] at hopen
        exact hopen rfl
      split
      · refine allowed_still hexclusive ?_ (List.Perm.refl _) ?_
        · intro e he
          simp only [List.cons_append, List.nil_append, List.mem_cons, List.not_mem_nil, or_false] at he
          rcases he with rfl | rfl
          · exact .inl ⟨accept.fd, rfl⟩
          · exact .inr ⟨accept.fd, rfl⟩
        · intro e he
          rw [List.mem_singleton.mp he]
          rfl
      · refine ⟨rfl, hexclusive, List.Perm.refl _, List.Perm.refl _, List.Perm.refl _, ?_, ?_, ?_,
          fun pipe hpipe => .inl hpipe, .inl ⟨rfl, rfl⟩, ?_, ?_, ?_⟩
        · refine fun before _ => Follows.of_forall ?_
          intro e he
          rw [List.mem_singleton.mp he]
          rfl
        · intro before hhello
          have hfirst : HostEffect.send accept.pipe (hello h.serviceId) ∈ before := hhello _ hpipe
          have hack : Follows (needs h.serviceId) (before ++ [.arrive accept.fd])
              [.send accept.pipe (ackOf accept.packet)] := by
            refine Follows.singleton ?_
            intro first hneed
            unfold needs at hneed
            dsimp only at hneed
            split at hneed
            · cases hneed
            · rw [Option.mem_some_iff] at hneed
              rw [← hneed]
              exact List.mem_append_left _ hfirst
          refine hack.append (Follows.singleton ?_)
          intro first hneed
          rw [show needs h.serviceId (.onServiceAccept accept) =
            some (.send accept.pipe (ackOf accept.packet)) from rfl, Option.mem_some_iff] at hneed
          rw [← hneed]
          exact List.mem_append_right _ (List.mem_singleton_self _)
        · intro e he
          simp only [List.cons_append, List.nil_append, List.mem_cons, List.not_mem_nil, or_false] at he
          rcases he with rfl | rfl | rfl
          · trivial
          · trivial
          · exact hservice
        · intro e he
          simp only [List.mem_cons, List.not_mem_nil, or_false] at he
          rcases he with rfl | rfl <;> rfl
        · exact fun hclosed => Bool.noConfusion (hobserver.symm.trans hclosed)
        · exact fun _ hclosed => Bool.noConfusion (hobserver.symm.trans hclosed)

theorem allowed_onClose (hexclusive : h.connector = none ∨ h.pipe = none) (pipe : Nat) :
    Allowed h (h.onClose pipe) := by
  unfold ServiceHost.onClose
  split
  · exact allowed_nothing hexclusive
  · rename_i hopen
    split
    · exact allowed_nothing hexclusive
    · rename_i hsame
      have hpipe : h.pipe = some pipe := not_not.mp hsame
      have hobserver : h.hasObserver = true := by
        by_contra hclosed
        rw [Bool.not_eq_true] at hclosed
        rw [hclosed] at hopen
        exact hopen rfl
      refine ⟨rfl, .inr rfl, List.Perm.refl _, ?_, List.Perm.refl _, fun before _ => Follows.nil before, ?_, ?_, ?_,
        .inl ⟨rfl, rfl⟩, ?_, ?_, ?_⟩
      · rw [hpipe]
        exact List.Perm.refl _
      · refine fun before _ => Follows.of_forall ?_
        intro e he
        rw [List.mem_singleton.mp he]
        rfl
      · intro e he
        rw [List.mem_singleton.mp he]
        trivial
      · intro other hother
        cases hother
      · intro e he
        rw [List.mem_singleton.mp he]
        rfl
      · exact fun hclosed => Bool.noConfusion (hobserver.symm.trans hclosed)
      · exact fun _ hclosed => Bool.noConfusion (hobserver.symm.trans hclosed)

/-- A new attempt to connect, or a packet that keeps the registration. -/
theorem allowed_onTimer (hexclusive : h.connector = none ∨ h.pipe = none) (timerId : Nat) (tick : Int)
    (connector : Option Nat) : Allowed h (h.onTimer timerId tick connector) := by
  unfold ServiceHost.onTimer
  split
  · exact allowed_nothing hexclusive
  · rename_i hopen
    have hobserver : h.hasObserver = true := by
      by_contra hclosed
      rw [Bool.not_eq_true] at hclosed
      rw [hclosed] at hopen
      exact hopen (by simp)
    split
    · rename_i hlate
      simp only [Bool.and_eq_true, decide_eq_true_eq, Option.isNone_iff_eq_none] at hlate
      obtain ⟨⟨hpipe, hconnector⟩, htick⟩ := hlate
      refine ⟨rfl, .inr hpipe, ?_, List.Perm.refl _, List.Perm.refl _, ?_, fun before _ => Follows.nil _, ?_,
        fun pipe hsome => .inl hsome, .inr ⟨rfl, ?_⟩, fun e he => absurd he List.not_mem_nil, ?_, ?_⟩
      · rw [hconnector]
        cases connector <;> exact List.Perm.refl _
      · refine fun before _ => Follows.of_forall ?_
        intro e he
        rw [List.mem_singleton.mp he]
        rfl
      · intro e he
        rw [List.mem_singleton.mp he]
        trivial
      · dsimp only
        omega
      · exact fun hclosed => Bool.noConfusion (hobserver.symm.trans hclosed)
      · exact fun _ hclosed => Bool.noConfusion (hobserver.symm.trans hclosed)
    · split
      · rename_i pipe hpipe
        refine ⟨rfl, hexclusive, List.Perm.refl _, List.Perm.refl _, List.Perm.refl _, ?_,
          fun before _ => Follows.nil _, ?_, fun pipe hsome => .inl hsome, .inl ⟨rfl, rfl⟩, fun e he => absurd he List.not_mem_nil,
          ?_, ?_⟩
        · refine fun before _ => Follows.of_forall ?_
          intro e he
          rw [List.mem_singleton.mp he]
          exact if_pos rfl
        · intro e he
          rw [List.mem_singleton.mp he]
          trivial
        · exact fun hclosed => Bool.noConfusion (hobserver.symm.trans hclosed)
        · exact fun _ hclosed => Bool.noConfusion (hobserver.symm.trans hclosed)
      · exact allowed_nothing hexclusive

theorem allowed_fini (hexclusive : h.connector = none ∨ h.pipe = none) : Allowed h h.fini := by
  unfold ServiceHost.fini
  split
  · exact allowed_nothing hexclusive
  · rename_i hopen
    have hobserver : h.hasObserver = true := by
      by_contra hclosed
      rw [Bool.not_eq_true] at hclosed
      rw [hclosed] at hopen
      exact hopen rfl
    have hdeleted : ∀ e ∈ h.pipe.toList.map HostEffect.deletePipe ++
        h.connector.toList.map HostEffect.deleteConnector,
        e.behind = true ∧ needs h.serviceId e = none ∧ Own h.serviceId e := by
      intro e he
      rcases List.mem_append.mp he with he | he
      · obtain ⟨pipe, -, rfl⟩ := List.mem_map.mp he
        exact ⟨rfl, rfl, trivial⟩
      · obtain ⟨connector, -, rfl⟩ := List.mem_map.mp he
        exact ⟨rfl, rfl, trivial⟩
    refine ⟨rfl, .inl rfl, ?_, ?_, ?_, ?_, ?_, ?_, ?_, .inl ⟨rfl, rfl⟩, fun e he => (hdeleted e he).1, ?_, ?_⟩
    · cases h.pipe <;> cases h.connector <;> exact List.Perm.refl _
    · cases h.pipe <;> cases h.connector <;> exact List.Perm.refl _
    · cases h.pipe <;> cases h.connector <;> exact List.Perm.refl _
    · refine fun before _ => Follows.of_forall ?_
      intro e he
      rw [List.mem_singleton.mp he]
      rfl
    · exact fun before _ => Follows.of_forall fun e he => (hdeleted e he).2.1
    · intro e he
      rcases List.mem_cons.mp he with rfl | he
      · trivial
      · exact (hdeleted e he).2.2
    · intro pipe hnone
      cases hnone
    · exact fun hclosed => Bool.noConfusion (hobserver.symm.trans hclosed)
    · exact fun _ _ => ⟨rfl, rfl, rfl⟩

theorem Inv.step (h : w.Inv serviceId) (e : HostEvent) {next : HostRun} (hstep : w.step e = some next) :
    next.Inv serviceId := by
  cases e with
  | onConnectOk connector sockId pipe =>
    cases hstep
    exact h.enter (allowed_onConnectOk h.exclusive connector sockId pipe)
  | onConnectError connector =>
    cases hstep
    exact h.enter (allowed_onConnectError h.exclusive connector)
  | onRecvFd accept hasPeer =>
    cases hstep
    exact h.enter (allowed_onRecvFd h.exclusive accept hasPeer)
  | onClose pipe =>
    cases hstep
    exact h.enter (allowed_onClose h.exclusive pipe)
  | onTimer timerId tick connector =>
    cases hstep
    exact h.enter (allowed_onTimer h.exclusive timerId tick connector)
  | fini =>
    cases hstep
    exact h.enter (allowed_fini h.exclusive)
  | proceed handler =>
    obtain ⟨effects, heffects, rfl⟩ := Option.map_eq_some_iff.mp hstep
    exact h.proceed heffects

/-- What holds of a host in every state. The lists are of what has happened, and of what some
handler is about to do behind its section. -/
structure KeepsCustody (serviceId : UInt8) (w : HostRun) : Prop where
  exclusive : w.host.connector = none ∨ w.host.pipe = none
  connectors : (w.effects.done.filterMap connected).Perm
    (w.effects.done.filterMap connectorGone ++
      (w.effects.pending.flatten.filterMap connectorGone ++ w.host.connector.toList))
  pipes : (w.effects.done.filterMap piped).Perm
    (w.effects.done.filterMap pipeGone ++ (w.effects.pending.flatten.filterMap pipeGone ++ w.host.pipe.toList))
  socks : (w.effects.done.filterMap arrived).Perm
    (w.effects.done.filterMap sockGone ++ w.effects.pending.flatten.filterMap sockGone)
  acknowledged : ∀ pre accept post, w.effects.done = pre ++ .onServiceAccept accept :: post →
    accept.packet.serviceId = serviceId ∧ .send accept.pipe (ackOf accept.packet) ∈ pre
  registered : ∀ pre pipe packet post, w.effects.done = pre ++ .send pipe packet :: post →
    packet = hello serviceId ∨ .send pipe (hello serviceId) ∈ pre
  apart : Apart (w.effects.done.filterMap attempt)
  finished : w.host.hasObserver = false → w.host.connector = none ∧ w.host.pipe = none ∧
    ∃ pre post, w.effects.done = pre ++ .fini :: post ∧ ∀ e ∈ post, e.begins = false

theorem Inv.pending_none (h : w.Inv serviceId) {ι : Type} {f : HostEffect → Option ι}
    (hf : ∀ e : HostEffect, e.behind = true → f e = none) : w.effects.pending.flatten.filterMap f = [] := by
  refine List.filterMap_eq_nil_iff.mpr ?_
  intro e he
  obtain ⟨l, hl, he⟩ := List.mem_flatten.mp he
  exact hf e (h.behind l hl e he)

theorem Inv.keepsCustody (h : w.Inv serviceId) : w.KeepsCustody serviceId := by
  have hsplit : ∀ {ι : Type} {taken gone : HostEffect → Option ι} {held : List ι},
      (∀ e : HostEffect, e.behind = true → taken e = none) → w.effects.Balanced taken gone held →
      (w.effects.done.filterMap taken).Perm
        (w.effects.done.filterMap gone ++ (w.effects.pending.flatten.filterMap gone ++ held)) := by
    intro ι taken gone held htaken hbalanced
    unfold Deferred.Balanced total at hbalanced
    rw [List.filterMap_append, List.filterMap_append, h.pending_none htaken, List.append_nil,
      List.append_assoc] at hbalanced
    exact hbalanced
  refine ⟨h.exclusive, hsplit ?_ h.connectors, hsplit ?_ h.pipes, ?_, ?_, ?_, h.apart, h.finished⟩
  · intro e he
    cases e <;> first | rfl | cases he
  · intro e he
    cases e <;> first | rfl | cases he
  · have hsocks := hsplit (fun e he => by cases e <;> first | rfl | cases he) h.socks
    rw [List.append_nil] at hsocks
    exact hsocks
  · intro pre accept post hdone
    have hmem : HostEffect.onServiceAccept accept ∈ w.effects.total :=
      List.mem_append_left _ (by rw [hdone]; simp)
    exact ⟨h.own _ hmem, by simpa using h.ordered.done pre _ post hdone _ rfl⟩
  · intro pre pipe packet post hdone
    by_cases hsame : packet = hello serviceId
    · exact .inl hsame
    · refine .inr ?_
      have hneed : needs serviceId (.send pipe packet) = some (.send pipe (hello serviceId)) := if_neg hsame
      simpa using h.ordered.done pre _ post hdone _ hneed

/-- Whatever the connectors, the pipes and the timer do, and whatever the order of the sections
and of what is left behind them. -/
theorem keepsCustody_of_host_run {serviceId : UInt8} {connector timerId : Nat} {tick : Int} {es : List HostEvent}
    {w : HostRun} (hrun : run step (start serviceId connector timerId tick) es = some w) :
    w.KeepsCustody serviceId := by
  have hinv : w.Inv serviceId :=
    run_preserves (fun v e next hv _ hstep => hv.step e hstep) (inv_start serviceId connector timerId tick)
      (guarded_true _ es) hrun
  exact hinv.keepsCustody

/-- A descriptor comes for service 11, and another one for service 12. -/
def ownDescriptor : HostAccept := ⟨7, 30, false, ⟨11, 0, 5, ⟨9000, 4⟩, false, 0⟩⟩

def foreignDescriptor : HostAccept := ⟨7, 31, false, ⟨12, 0, 5, ⟨9000, 4⟩, false, 1⟩⟩

/-- The first connector fails and the next one succeeds; `Fini` comes before the observer is called. -/
def secondTry : List HostEvent :=
  [.onConnectError 1, .onTimer 3 4999 (some 2), .onTimer 3 5000 (some 2), .proceed 0, .onConnectOk 2 20 (some 7),
    .onRecvFd ownDescriptor true, .onRecvFd foreignDescriptor true, .proceed 2, .fini, .proceed 2, .proceed 3,
    .onConnectOk 2 21 (some 8)]

theorem keepsCustody_of_host_run_secondTry :
    ∃ w, run step (start 11 1 3 0) secondTry = some w ∧ w.KeepsCustody 11 ∧
      w.effects.done.filterMap sockGone = [20, 31, 30, 21] := by
  have hgone : (run step (start 11 1 3 0) secondTry).map (fun w => w.effects.done.filterMap sockGone) =
      some [20, 31, 30, 21] := by decide +kernel
  obtain ⟨w, hw, hsocks⟩ := Option.map_eq_some_iff.mp hgone
  exact ⟨w, hw, keepsCustody_of_host_run hw, hsocks⟩

end HostRun

end Pronet.Net
