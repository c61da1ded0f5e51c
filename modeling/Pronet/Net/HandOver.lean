import Pronet.Net.HubSockets
import Pronet.Net.TransportWrites

/-! A descriptor is handed over while it still denotes the accepted socket, as long
as the hub does not close a socket whose packet is still on its way, and behind its
entry in `m_expireSocks`, unless `OnOutput` comes between `SendFd` and that entry. -/
namespace Pronet.Net

open Std Library Runs

/-- The descriptor passed is the accepted socket of the packet it goes with, which
waits in `m_expireSocks` or is about to be entered there. -/
def HandOver.Genuine (h : HandOver) : Prop :=
  ∃ packet, h.packet = some packet ∧ h.fd = packet.oldSock.sockId ∧
    h.holder = some (.accepted packet.conn) ∧ (h.entry = true ∨ h.entering = true)

/-- The descriptor passed is the accepted socket of the packet it goes with, and the
socket still waits in `m_expireSocks`. -/
def HandOver.Right (h : HandOver) : Prop :=
  ∃ packet, h.packet = some packet ∧ h.fd = packet.oldSock.sockId ∧
    h.holder = some (.accepted packet.conn) ∧ h.entry = true

theorem HandOver.Genuine.right {h : HandOver} (hgenuine : h.Genuine) (hturn : h.entering = false) :
    h.Right := by
  obtain ⟨packet, hpacket, hfd, hholder, hentry | hentering⟩ := hgenuine
  · exact ⟨packet, hpacket, hfd, hholder, hentry⟩
  · rw [hturn] at hentering
    cases hentering

/-- The transport of a pipe has nothing to send, or one packet of the hub, whose
descriptor may still have to be passed. -/
inductive Loaded (t : TcpTransport (ServicePacket × Nat)) : Prop
  | nothing (hpool : t.sendPool = SendPool.empty) (hpending : t.pendingWr = false)
      (hfd : t.sendingFd = none)
  | packet (packet : ServicePacket) (pos : Nat) (hpool : t.sendPool = ⟨[packet.bytes], some pos⟩)
      (hpos : pos < sizeofServicePacket) (hpending : t.pendingWr = true)
      (hfd : t.sendingFd = none ∨ t.sendingFd = some packet.oldSock.sockId)

theorem ServicePacket.length_bytes (packet : ServicePacket) :
    packet.bytes.length = sizeofServicePacket := by
  unfold bytes
  rw [List.length_map, List.length_range]

theorem ServicePacket.head?_drop_bytes (packet : ServicePacket) {pos : Nat}
    (hpos : pos < sizeofServicePacket) : (packet.bytes.drop pos).head? = some (packet, pos) := by
  rw [List.head?_drop]
  unfold bytes
  rw [List.getElem?_map, List.getElem?_range hpos]
  rfl

namespace TcpTransport

theorem loaded_init : Loaded (init : TcpTransport (ServicePacket × Nat)) :=
  .nothing rfl rfl rfl

theorem Loaded.of_eq {t t' : TcpTransport (ServicePacket × Nat)} (h : Loaded t)
    (hpool : t'.sendPool = t.sendPool) (hpending : t'.pendingWr = t.pendingWr)
    (hfd : t'.sendingFd = t.sendingFd) : Loaded t' := by
  cases h with
  | nothing h₁ h₂ h₃ => exact .nothing (hpool.trans h₁) (hpending.trans h₂) (hfd.trans h₃)
  | packet packet pos h₁ h₂ h₃ h₄ =>
    exact .packet packet pos (hpool.trans h₁) h₂ (hpending.trans h₃) (by rw [hfd]; exact h₄)

theorem sendFd_cases (t : TcpTransport (ServicePacket × Nat)) (packet : ServicePacket) :
    t.sendFd packet.bytes packet.oldSock.sockId = (t, false) ∨
    (t.pendingWr = false ∧ t.sendFd packet.bytes packet.oldSock.sockId =
      ({ t.addWr with
        sendPool := t.sendPool.fill packet.bytes
        sendingFd := some packet.oldSock.sockId
        pendingWr := true }, true)) := by
  unfold sendFd
  by_cases hfd : packet.oldSock.sockId = -1
  · rw [if_pos hfd]
    exact Or.inl rfl
  · rw [if_neg hfd]
    cases hopen : t.hasObserver with
    | false => exact Or.inl rfl
    | true =>
      cases hpending : t.pendingWr with
      | true => exact Or.inl rfl
      | false =>
        right
        refine ⟨rfl, ?_⟩
        have hpool : t.addWr.sendPool = t.sendPool := by
          unfold addWr
          split <;> rfl
        simp [hpool]

/-- What the first section of `OnOutput` does to a loaded transport. -/
theorem loaded_outputLocked {t : TcpTransport (ServicePacket × Nat)} (h : Loaded t)
    (result : SendResult) :
    Loaded (t.outputLocked result) ∧ (t.outputLocked result).hasObserver = t.hasObserver ∧
      (t.hasObserver = true → (t.outputLocked result).sendingFd = none) := by
  unfold outputLocked
  cases hopen : t.hasObserver with
  | false => exact ⟨h, hopen, by simp⟩
  | true =>
    cases h with
    | nothing hpool hpending hfd =>
      have hempty : t.sendPool.preSend.isEmpty = true := by
        rw [hpool]
        rfl
      simp only [Bool.not_true, Bool.false_eq_true, if_false, hempty, if_true]
      split
      · split
        · exact ⟨.nothing hpool rfl hfd, rfl, fun _ => hfd⟩
        · exact ⟨.nothing hpool rfl hfd, rfl, fun _ => hfd⟩
      · exact ⟨.nothing hpool rfl hfd, rfl, fun _ => hfd⟩
    | packet packet pos hpool hpos hpending hfd =>
      have hrest : t.sendPool.preSend.isEmpty = false := by
        rw [hpool]
        simp [SendPool.preSend, packet.length_bytes, hpos]
      simp only [Bool.not_true, Bool.false_eq_true, if_false, hrest]
      by_cases hnone : t.sendingFd = none
      · rw [if_pos hnone]
        obtain ⟨error, hout, _⟩ | ⟨size, hsize, hout, _⟩ | ⟨hout, _⟩ := Wire.outputData_cases hpool result
        · rw [hout]
          exact ⟨.packet packet pos hpool hpos hpending (Or.inl hnone), hopen, fun _ => hnone⟩
        · rw [hout]
          rw [packet.length_bytes] at hsize
          exact ⟨.packet packet (pos + size) rfl hsize hpending (Or.inl hnone), hopen, fun _ => hnone⟩
        · rw [hout]
          exact ⟨.nothing rfl rfl hnone, hopen, fun _ => hnone⟩
      · rw [if_neg hnone]
        exact ⟨.packet packet pos hpool hpos hpending (Or.inl rfl), hopen, fun _ => rfl⟩

end TcpTransport

namespace PipeState

/-- The packet whose descriptor the transport passes at its next `OnOutput`. -/
def passing (p : PipeState) : Option ServicePacket :=
  if p.trans.hasObserver && p.trans.sendingFd.isSome then p.poolPacket else none

theorem mem_carried {p : PipeState} {packet : ServicePacket} :
    packet ∈ p.carried ↔ p.trans.hasObserver = true ∧
      ((p.trans.sendingFd.isSome = true ∧ p.poolPacket = some packet) ∨
        (p.hasTrans = true ∧ packet ∈ p.fdPackets)) := by
  unfold carried
  by_cases hopen : p.trans.hasObserver = true
  · by_cases hfd : p.trans.sendingFd.isSome = true
    · by_cases htrans : p.hasTrans = true <;> simp [hopen, hfd, htrans]
    · by_cases htrans : p.hasTrans = true <;> simp [hopen, hfd, htrans]
  · simp [hopen]

theorem poolPacket_eq {p : PipeState} {packet : ServicePacket} {pos : Nat}
    (hpool : p.trans.sendPool = ⟨[packet.bytes], some pos⟩) (hpos : pos < sizeofServicePacket) :
    p.poolPacket = some packet := by
  unfold poolPacket SendPool.preSend
  rw [hpool]
  simp only [Option.getD_some, packet.head?_drop_bytes hpos, Option.map_some]

/-- A function of the transport that adds nothing to what it carries. -/
theorem carried_trans {p : PipeState} {t : TcpTransport (ServicePacket × Nat)}
    (hopen : t.hasObserver = true → p.trans.hasObserver = true)
    (hfd : t.sendingFd = none ∨ t.sendingFd = p.trans.sendingFd ∧ t.sendPool = p.trans.sendPool)
    {packet : ServicePacket} (h : packet ∈ { p with trans := t }.carried) : packet ∈ p.carried := by
  rw [mem_carried] at h ⊢
  refine ⟨hopen h.1, ?_⟩
  cases h.2 with
  | inl hpool =>
    cases hfd with
    | inl hnone =>
      rw [hnone] at hpool
      cases hpool.1
    | inr heq =>
      left
      unfold poolPacket at hpool ⊢
      rw [← heq.1, ← heq.2]
      exact hpool
  | inr hwaiting => exact Or.inr hwaiting

/-- Trying to send moves the first waiting packet to the transport, or nothing. -/
theorem trySend_spec {p : PipeState} (h : Loaded p.trans) (htrans : p.hasTrans = true) :
    Loaded p.trySend.trans ∧ ∀ packet ∈ p.trySend.carried, packet ∈ p.carried := by
  unfold trySend
  cases hpackets : p.fdPackets with
  | nil => exact ⟨h, fun packet hpacket => hpacket⟩
  | cons first packets =>
    obtain hrefused | ⟨hpending, hsent⟩ := p.trans.sendFd_cases first
    · simp only [hrefused]
      refine ⟨h, ?_⟩
      intro packet hpacket
      rw [mem_carried] at hpacket ⊢
      rw [hpackets]
      exact hpacket
    · have hempty : p.trans.sendPool = SendPool.empty := by
        cases h with
        | nothing hpool _ _ => exact hpool
        | packet _ _ _ _ hbusy _ =>
          rw [hpending] at hbusy
          cases hbusy
      have hfill : p.trans.sendPool.fill first.bytes = ⟨[first.bytes], some 0⟩ := by
        rw [hempty]
        rfl
      have hobserver : p.trans.addWr.hasObserver = p.trans.hasObserver := by
        unfold TcpTransport.addWr
        split <;> rfl
      simp only [hsent, hfill]
      refine ⟨.packet first 0 rfl (by decide) rfl (Or.inr rfl), ?_⟩
      intro packet hpacket
      rw [mem_carried] at hpacket ⊢
      rw [hpackets]
      refine ⟨hobserver ▸ hpacket.1, Or.inr ⟨htrans, ?_⟩⟩
      cases hpacket.2 with
      | inl hpool =>
        have hfirst := hpool.2
        rw [poolPacket_eq rfl (by decide), Option.some.injEq] at hfirst
        rw [hfirst]
        exact List.mem_cons_self
      | inr hwaiting => exact List.mem_cons_of_mem first hwaiting.2

theorem onSend_spec {p : PipeState} (h : Loaded p.trans) :
    Loaded p.onSend.trans ∧ ∀ packet ∈ p.onSend.carried, packet ∈ p.carried := by
  unfold onSend
  cases htrans : p.hasTrans with
  | false => exact ⟨h, fun packet hpacket => hpacket⟩
  | true => exact trySend_spec h htrans

theorem sendFd_spec {p : PipeState} (h : Loaded p.trans) (new : ServicePacket) :
    Loaded (p.sendFd new).trans ∧
      ∀ packet ∈ (p.sendFd new).carried, packet ∈ p.carried ∨ packet = new := by
  unfold sendFd
  split
  · exact ⟨h, fun packet hpacket => Or.inl hpacket⟩
  · split
    · exact ⟨h, fun packet hpacket => Or.inl hpacket⟩
    · rename_i hclosed
      have htrans : p.hasTrans = true := by simpa using hclosed
      obtain ⟨hloaded, hcarried⟩ :=
        trySend_spec (p := { p with fdPackets := p.fdPackets ++ [new] }) h htrans
      refine ⟨hloaded, ?_⟩
      intro packet hpacket
      have hold := hcarried packet hpacket
      rw [mem_carried] at hold ⊢
      rw [List.mem_append, List.mem_singleton] at hold
      obtain ⟨hopen, hpool | ⟨_, hwaiting | hnew⟩⟩ := hold
      · exact Or.inl ⟨hopen, Or.inl hpool⟩
      · exact Or.inl ⟨hopen, Or.inr ⟨htrans, hwaiting⟩⟩
      · exact Or.inr hnew

end PipeState

namespace HubSystem

/-- The socket of the packet is still the accepted one and still waits, or is about
to be entered. -/
structure Holds (w : HubSystem) (packet : ServicePacket) : Prop where
  held : w.fds[packet.oldSock.sockId]? = some (.accepted packet.conn)
  waits : packet.oldSock ∈ w.hub.expireSocks ∨ w.entering = some packet
  arrived : packet.conn ∉ w.arriving ∧ packet.conn < w.nextConn

structure PipeInv (w : HubSystem) (p : PipeState) : Prop where
  loaded : Loaded p.trans
  holds : ∀ packet ∈ p.carried, w.Holds packet

structure HandInv (w : HubSystem) : Prop where
  pipes : ∀ (pipe : Nat) (p : PipeState), w.pipes[pipe]? = some p → w.PipeInv p
  arriving : ∀ (conn : Nat) (sockId : Int), w.arriving[conn]? = some sockId →
    w.fds[sockId]? = some (.accepted conn) ∧ conn < w.nextConn
  handed : ∀ h ∈ w.handed, h.Genuine

/-- The descriptor is needed: a packet of some pipe still has to pass it, or the hub is
still to be told of it. -/
def Needs (w : HubSystem) (sockId : Int) : Prop :=
  (∃ entry ∈ w.pipes.toList, ∃ packet ∈ entry.2.carried, packet.oldSock.sockId = sockId) ∨
    ∃ entry ∈ w.arriving.toList, entry.2 = sockId

/-- The hub closes no descriptor that is needed: neither does it expire, nor does an
acknowledgement name it. -/
def Undisturbed (w : HubSystem) : HubEvent → Prop
  | .timer tick => ∀ entry ∈ w.hub.expiredSocks tick, ¬ w.Needs entry.1.sockId
  | .recv pipe packet _ => ∀ key ∈ w.hub.ackedSock pipe packet, ¬ w.Needs key.sockId
  | _ => True

/-- No `OnOutput` passes the descriptor of a packet that `OnAcceptOther` has sent
and not entered in `m_expireSocks` yet. -/
def InTurn (w : HubSystem) : HubEvent → Prop
  | .output pipe _ => ∀ packet ∈ w.entering, ∀ p ∈ w.pipes[pipe]?, p.passing ≠ some packet
  | _ => True

theorem needs_of_mem {w : HubSystem} {pipe : Nat} {p : PipeState} {packet : ServicePacket}
    (hpipe : w.pipes[pipe]? = some p) (hpacket : packet ∈ p.carried) :
    w.Needs packet.oldSock.sockId :=
  Or.inl ⟨(pipe, p), ExtTreeMap.mem_toList_iff_getElem?_eq_some.mpr hpipe, packet, hpacket, rfl⟩

theorem needs_of_arriving {w : HubSystem} {conn : Nat} {sockId : Int}
    (harriving : w.arriving[conn]? = some sockId) : w.Needs sockId :=
  Or.inr ⟨(conn, sockId), ExtTreeMap.mem_toList_iff_getElem?_eq_some.mpr harriving, rfl⟩

theorem handInv_init : init.HandInv := by
  refine ⟨?_, ?_, ?_⟩
  · intro pipe p hpipe
    simp [init] at hpipe
  · intro conn sockId harriving
    simp [init] at harriving
  · intro h hmem
    cases hmem

theorem PipeInv.mono {w w' : HubSystem} {p p' : PipeState} (h : w.PipeInv p)
    (hloaded : Loaded p'.trans) (hcarried : ∀ packet ∈ p'.carried, packet ∈ p.carried)
    (hholds : ∀ packet ∈ p.carried, w.Holds packet → w'.Holds packet) : w'.PipeInv p' := by
  refine ⟨hloaded, ?_⟩
  intro packet hpacket
  have hold := hcarried packet hpacket
  exact hholds packet hold (h.holds packet hold)

/-- A step that leaves the pipes alone and keeps the sockets of their packets. -/
theorem HandInv.of_holds {w w' : HubSystem} (h : w.HandInv) (hpipes : w'.pipes = w.pipes)
    (hhanded : w'.handed = w.handed)
    (harriving : ∀ (conn : Nat) (sockId : Int), w'.arriving[conn]? = some sockId →
      w'.fds[sockId]? = some (.accepted conn) ∧ conn < w'.nextConn)
    (hholds : ∀ packet, w.Needs packet.oldSock.sockId → w.Holds packet → w'.Holds packet) :
    w'.HandInv := by
  refine ⟨?_, harriving, hhanded ▸ h.handed⟩
  intro pipe p hpipe
  rw [hpipes] at hpipe
  have hinv := h.pipes pipe p hpipe
  exact hinv.mono hinv.loaded (fun _ hpacket => hpacket)
    (fun packet hpacket => hholds packet (needs_of_mem hpipe hpacket))

/-- A step that only opens or closes descriptors of others. -/
theorem HandInv.of_fds {w : HubSystem} (h : w.HandInv) {fds : ExtTreeMap Int Holder}
    (hfds : ∀ (fd : Int) (conn : Nat), w.fds[fd]? = some (.accepted conn) →
      fds[fd]? = some (Holder.accepted conn)) : HandInv { w with fds := fds } := by
  refine h.of_holds rfl rfl ?_ ?_
  · intro conn sockId hconn
    obtain ⟨hheld, hless⟩ := h.arriving conn sockId hconn
    exact ⟨hfds sockId conn hheld, hless⟩
  · intro packet _ hholds
    exact ⟨hfds _ _ hholds.held, hholds.waits, hholds.arrived⟩

/-- A step that replaces one pipe by one that carries no more. -/
theorem HandInv.insertPipe {w : HubSystem} (h : w.HandInv) {pipe : Nat} {p : PipeState}
    (p' : PipeState) (hpipe : w.pipes[pipe]? = some p) (hloaded : Loaded p'.trans)
    (hcarried : ∀ packet ∈ p'.carried, packet ∈ p.carried) :
    HandInv { w with pipes := w.pipes.insert pipe p' } := by
  refine ⟨?_, h.arriving, h.handed⟩
  intro other q hq
  dsimp only at hq
  rw [ExtTreeMap.getElem?_insert] at hq
  split at hq
  · cases hq
    exact (h.pipes pipe p hpipe).mono hloaded hcarried (fun _ _ hold => ⟨hold.held, hold.waits, hold.arrived⟩)
  · have hinv := h.pipes other q hq
    exact hinv.mono hinv.loaded (fun _ hpacket => hpacket)
      (fun _ _ hold => ⟨hold.held, hold.waits, hold.arrived⟩)

theorem HandInv.onPipe {w : HubSystem} (h : w.HandInv) {pipe : Nat}
    {f : PipeState → Option PipeState} {next : HubSystem} (hstep : w.onPipe pipe f = some next)
    (hf : ∀ p p', Loaded p.trans → f p = some p' →
      Loaded p'.trans ∧ ∀ packet ∈ p'.carried, packet ∈ p.carried) : next.HandInv := by
  unfold HubSystem.onPipe at hstep
  split at hstep
  · cases hstep
  · rename_i p hpipe
    rw [Option.map_eq_some_iff] at hstep
    obtain ⟨p', hp', rfl⟩ := hstep
    obtain ⟨hloaded, hcarried⟩ := hf p p' (h.pipes pipe p hpipe).loaded hp'
    exact h.insertPipe _ hpipe hloaded hcarried

theorem Holds.waits_of_unlocked {w : HubSystem} {packet : ServicePacket} (h : w.Holds packet)
    (hlock : w.entering = none) : packet.oldSock ∈ w.hub.expireSocks := by
  cases h.waits with
  | inl hwaits => exact hwaits
  | inr hentering =>
    rw [hlock] at hentering
    cases hentering

theorem getElem?_fds_expireSock {w : HubSystem} {key : SockKey} {fd : Int} (hne : fd ≠ key.sockId) :
    (w.expireSock key).fds[fd]? = w.fds[fd]? := by
  simp only [HubSystem.expireSock, closeSock]
  rw [ExtTreeMap.getElem?_erase, if_neg]
  intro heq
  exact hne (LawfulEqCmp.compare_eq_iff_eq.mp heq).symm

/-- A descriptor that is closed is not the one of a packet on its way. -/
theorem Holds.expireSock {w : HubSystem} {key : SockKey} {packet : ServicePacket}
    (h : w.Holds packet) (hlock : w.entering = none) (hne : packet.oldSock.sockId ≠ key.sockId) :
    (w.expireSock key).Holds packet := by
  refine ⟨?_, ?_, h.arrived⟩
  · rw [getElem?_fds_expireSock hne]
    exact h.held
  · left
    rw [ExtTreeMap.mem_iff_isSome_getElem?, getElem?_expireSock_ne,
      ← ExtTreeMap.mem_iff_isSome_getElem?]
    · exact h.waits_of_unlocked hlock
    · intro heq
      exact hne (congrArg SockKey.sockId heq)

/-- The first loop of `OnTimer`. -/
theorem Holds.expireSocks {entries : List (SockKey × ExpireSock)} {w : HubSystem}
    {packet : ServicePacket} (h : w.Holds packet) (hlock : w.entering = none)
    (hne : ∀ entry ∈ entries, packet.oldSock.sockId ≠ entry.1.sockId) :
    (entries.foldl (fun w entry => w.expireSock entry.1) w).Holds packet := by
  induction entries generalizing w with
  | nil => exact h
  | cons entry entries ih =>
    rw [List.foldl_cons]
    apply ih (h.expireSock hlock (hne entry List.mem_cons_self)) hlock
    intro other hother
    exact hne other (List.mem_cons_of_mem entry hother)

theorem getElem?_fds_expireSocks {entries : List (SockKey × ExpireSock)} {w : HubSystem} {fd : Int}
    (hne : ∀ entry ∈ entries, fd ≠ entry.1.sockId) :
    (entries.foldl (fun w entry => w.expireSock entry.1) w).fds[fd]? = w.fds[fd]? := by
  induction entries generalizing w with
  | nil => rfl
  | cons entry entries ih =>
    rw [List.foldl_cons, ih fun other hother => hne other (List.mem_cons_of_mem entry hother)]
    exact getElem?_fds_expireSock (hne entry List.mem_cons_self)

theorem foldl_expireSock_frame (entries : List (SockKey × ExpireSock)) (w : HubSystem) :
    (entries.foldl (fun w entry => w.expireSock entry.1) w).pipes = w.pipes ∧
      (entries.foldl (fun w entry => w.expireSock entry.1) w).handed = w.handed ∧
      (entries.foldl (fun w entry => w.expireSock entry.1) w).entering = w.entering ∧
      (entries.foldl (fun w entry => w.expireSock entry.1) w).arriving = w.arriving ∧
      (entries.foldl (fun w entry => w.expireSock entry.1) w).nextConn = w.nextConn := by
  induction entries generalizing w with
  | nil => exact ⟨rfl, rfl, rfl, rfl, rfl⟩
  | cons entry entries ih => exact ih (w.expireSock entry.1)

theorem HandInv.timer {w : HubSystem} (h : w.HandInv) (hlock : w.entering = none) (tick : Int)
    (hquiet : w.Undisturbed (.timer tick)) {next : HubSystem}
    (hstep : w.perform (.timer tick) = some next) : next.HandInv := by
  simp only [perform, Option.some.injEq] at hstep
  subst hstep
  obtain ⟨hpipes, hhanded, hentering, harriving, hnext⟩ :=
    foldl_expireSock_frame (w.hub.expiredSocks tick) w
  refine h.of_holds hpipes hhanded ?_ ?_
  · intro conn sockId hconn
    dsimp only at hconn ⊢
    rw [harriving] at hconn
    obtain ⟨hheld, hless⟩ := h.arriving conn sockId hconn
    rw [hnext, getElem?_fds_expireSocks fun entry hentry heq =>
      hquiet entry hentry (heq ▸ needs_of_arriving hconn)]
    exact ⟨hheld, hless⟩
  intro packet hneeds hholds
  have hkept : ((w.hub.expiredSocks tick).foldl (fun w entry => w.expireSock entry.1) w).Holds packet := by
    refine hholds.expireSocks hlock ?_
    intro entry hentry heq
    exact hquiet entry hentry (heq ▸ hneeds)
  refine ⟨hkept.held, Or.inl ?_, hkept.arrived⟩
  rw [expireSocks_erasePipes]
  exact hkept.waits_of_unlocked (hentering.trans hlock)

theorem HandInv.recv {w : HubSystem} (h : w.HandInv) (hlock : w.entering = none) (pipe : Nat)
    (ack : AckPacket) (tick : Int) (hquiet : w.Undisturbed (.recv pipe ack tick)) {next : HubSystem}
    (hstep : w.perform (.recv pipe ack tick) = some next) : next.HandInv := by
  have hexpire := expireSocks_onRecv w.hub pipe ack tick
  simp only [perform] at hstep
  cases hacked : w.hub.ackedSock pipe ack with
  | none =>
    rw [hacked] at hstep hexpire
    cases hstep
    refine h.of_holds rfl rfl h.arriving ?_
    intro packet _ hholds
    refine ⟨hholds.held, Or.inl ?_, hholds.arrived⟩
    rw [hexpire]
    exact hholds.waits_of_unlocked hlock
  | some key =>
    rw [hacked] at hstep hexpire
    cases hstep
    refine h.of_holds rfl rfl ?_ ?_
    · intro conn sockId hconn
      obtain ⟨hheld, hless⟩ := h.arriving conn sockId hconn
      refine ⟨(getElem?_fds_expireSock ?_).trans hheld, hless⟩
      intro heq
      exact hquiet key hacked (heq ▸ needs_of_arriving hconn)
    intro packet hneeds hholds
    have hkept : (w.expireSock key).Holds packet := by
      refine hholds.expireSock hlock ?_
      intro heq
      exact hquiet key hacked (heq ▸ hneeds)
    refine ⟨hkept.held, Or.inl ?_, hkept.arrived⟩
    dsimp only [closeSock]
    rw [hexpire]
    exact hkept.waits_of_unlocked hlock

/-- What `OnOutput` passes goes with the packet in the pool. -/
theorem mem_handOver {w : HubSystem} {p : PipeState} {hand : HandOver} (h : hand ∈ w.handOver p) :
    p.trans.hasObserver = true ∧ p.trans.sendingFd = some hand.fd ∧ hand.packet = p.poolPacket ∧
      hand.holder = w.fds[hand.fd]? ∧
      (∀ packet, p.poolPacket = some packet → hand.entry = decide (packet.oldSock ∈ w.hub.expireSocks)) ∧
      hand.entering = (w.entering.isSome && decide (w.entering = p.poolPacket)) := by
  unfold handOver at h
  split at h
  · rename_i hsends
    simp only [Bool.and_eq_true] at hsends
    split at h
    · cases h
    · rename_i fd hfd
      rw [List.mem_singleton] at h
      subst h
      refine ⟨hsends.1, hfd, rfl, rfl, ?_, rfl⟩
      intro packet hpacket
      simp only [hpacket]
  · cases h

theorem genuine_of_handOver {w : HubSystem} {p : PipeState} (h : w.PipeInv p) :
    ∀ hand ∈ w.handOver p, hand.Genuine := by
  intro hand hhand
  obtain ⟨hopen, hfd, hpool, hholder, hentry, hentering⟩ := mem_handOver hhand
  cases h.loaded with
  | nothing _ _ hnone =>
    rw [hnone] at hfd
    cases hfd
  | packet packet pos hbytes hpos _ hsending =>
    have hpacket := PipeState.poolPacket_eq hbytes hpos
    have hid : hand.fd = packet.oldSock.sockId := by
      cases hsending with
      | inl hnone =>
        rw [hnone] at hfd
        cases hfd
      | inr hsome =>
        rw [hsome, Option.some.injEq] at hfd
        exact hfd.symm
    have hcarried : packet ∈ p.carried := by
      rw [PipeState.mem_carried]
      exact ⟨hopen, Or.inl ⟨by rw [hfd]; rfl, hpacket⟩⟩
    have hholds := h.holds packet hcarried
    refine ⟨packet, hpool.trans hpacket, hid, ?_, ?_⟩
    · rw [hholder, hid]
      exact hholds.held
    · cases hholds.waits with
      | inl hwaits =>
        left
        rw [hentry packet hpacket, decide_eq_true hwaits]
      | inr hlock =>
        right
        rw [hentering, hlock, hpacket]
        simp

theorem HandInv.output {w : HubSystem} (h : w.HandInv) (pipe : Nat) (result : SendResult)
    {next : HubSystem} (hstep : w.perform (.output pipe result) = some next) : next.HandInv := by
  simp only [perform] at hstep
  split at hstep
  · cases hstep
  · rename_i p hpipe
    split at hstep
    · cases hstep
      have hinv := h.pipes pipe p hpipe
      obtain ⟨hloaded, hopen, hnone⟩ := TcpTransport.loaded_outputLocked hinv.loaded result
      have hnext := h.insertPipe { p with trans := p.trans.outputLocked result } hpipe hloaded (by
        intro packet hpacket
        have hobserver := (PipeState.mem_carried.mp hpacket).1
        exact PipeState.carried_trans (fun ho => hopen ▸ ho)
          (Or.inl (hnone (hopen ▸ hobserver))) hpacket)
      refine ⟨?_, h.arriving, ?_⟩
      · intro other q hq
        have hother := hnext.pipes other q hq
        exact hother.mono hother.loaded (fun _ hsent => hsent)
          (fun _ _ hold => ⟨hold.held, hold.waits, hold.arrived⟩)
      intro hand hhand
      rw [List.mem_append] at hhand
      cases hhand with
      | inl hold => exact h.handed hand hold
      | inr hnew => exact genuine_of_handOver hinv hand hnew
    · cases hstep

theorem HandInv.sendFd {w : HubSystem} (h : w.HandInv) (pipe : Nat) {packet : ServicePacket}
    (hholds : w.Holds packet) : (w.sendFd pipe packet).HandInv := by
  unfold HubSystem.sendFd
  split
  · exact h
  · rename_i p hpipe
    obtain ⟨hloaded, hcarried⟩ := PipeState.sendFd_spec (h.pipes pipe p hpipe).loaded packet
    refine ⟨?_, h.arriving, h.handed⟩
    intro other q hq
    dsimp only at hq
    rw [ExtTreeMap.getElem?_insert] at hq
    split at hq
    · cases hq
      refine ⟨hloaded, ?_⟩
      intro sent hsent
      cases hcarried sent hsent with
      | inl hold =>
        have hkept := (h.pipes pipe p hpipe).holds sent hold
        exact ⟨hkept.held, hkept.waits, hkept.arrived⟩
      | inr hnew =>
        rw [hnew]
        exact ⟨hholds.held, hholds.waits, hholds.arrived⟩
    · have hinv := h.pipes other q hq
      exact hinv.mono hinv.loaded (fun _ hsent => hsent) (fun _ _ hold => ⟨hold.held, hold.waits, hold.arrived⟩)

theorem HandInv.accept {w : HubSystem} (h : w.HandInv) (sockId : Int) {next : HubSystem}
    (hstep : w.perform (.accept sockId) = some next) : next.HandInv := by
  simp only [perform] at hstep
  split at hstep
  · cases hstep
  · rename_i hfree
    simp only [Bool.or_eq_true, decide_eq_true_eq, not_or] at hfree
    cases hstep
    refine h.of_holds rfl rfl ?_ ?_
    · intro conn fd hconn
      rcases Tables.getElem?_of_insert hconn with hold | ⟨rfl, rfl⟩
      · obtain ⟨hheld, hless⟩ := h.arriving conn fd hold
        exact ⟨Tables.getElem?_insert_of_free _ hfree.2 hheld, Nat.lt_succ_of_lt hless⟩
      · exact ⟨ExtTreeMap.getElem?_insert_self, Nat.lt_succ_self _⟩
    · intro packet _ hholds
      obtain ⟨hgone, hless⟩ := hholds.arrived
      refine ⟨Tables.getElem?_insert_of_free _ hfree.2 hholds.held, hholds.waits, ?_,
        Nat.lt_succ_of_lt hless⟩
      rw [ExtTreeMap.mem_insert, not_or]
      refine ⟨?_, hgone⟩
      intro heq
      rw [LawfulEqCmp.compare_eq_iff_eq.mp heq] at hless
      exact Nat.lt_irrefl _ hless

theorem HandInv.acceptOther {w : HubSystem} (h : w.HandInv) (hlock : w.entering = none)
    (conn : Nat) (unixSocket : Bool) (serviceId serviceOpt : UInt8) (nonce : UInt64) (tick : Int)
    {next : HubSystem}
    (hstep : w.perform (.acceptOther conn unixSocket serviceId serviceOpt nonce tick) = some next) :
    next.HandInv := by
  simp only [perform] at hstep
  cases harriving : w.arriving[conn]? with
  | none =>
    rw [harriving] at hstep
    cases hstep
  | some sockId =>
    rw [harriving] at hstep
    dsimp only at hstep
    obtain ⟨hconn, hless⟩ := h.arriving conn sockId harriving
    have hothers : ∀ (other : Nat) (fd : Int), (w.arriving.erase conn)[other]? = some fd →
        other ≠ conn ∧ w.fds[fd]? = some (.accepted other) ∧ other < w.nextConn := by
      intro other fd hother
      obtain ⟨hne, hold⟩ := Tables.getElem?_of_erase hother
      exact ⟨hne, h.arriving other fd hold⟩
    have hgone : ∀ packet, w.Holds packet →
        packet.conn ≠ conn ∧ packet.conn ∉ w.arriving.erase conn ∧ packet.conn < w.nextConn := by
      intro packet hholds
      obtain ⟨habsent, hbelow⟩ := hholds.arrived
      refine ⟨?_, ?_, hbelow⟩
      · intro heq
        rw [heq, ExtTreeMap.mem_iff_isSome_getElem?, harriving] at habsent
        exact habsent rfl
      · rw [ExtTreeMap.mem_erase]
        exact fun hmem => habsent hmem.2
    unfold ServiceHub.servicePacket at hstep
    cases hpipe : w.hub.serviceId2Pipe[serviceId]? with
    | none =>
      rw [hpipe] at hstep
      cases hstep
      -- the connection that the hub refuses is not one whose packet is on its way
      have hapart : ∀ other ≠ conn, w.fds[sockId]? ≠ some (.accepted other) := by
        intro other hne
        rw [hconn, Ne, Option.some.injEq, Holder.accepted.injEq]
        exact hne.symm
      refine h.of_holds rfl rfl ?_ ?_
      · intro other fd hother
        obtain ⟨hne, hheld, hbelow⟩ := hothers other fd hother
        exact ⟨Tables.getElem?_erase_of_apart hheld (hapart other hne), hbelow⟩
      · intro packet _ hholds
        obtain ⟨hne, harrived⟩ := hgone packet hholds
        exact ⟨Tables.getElem?_erase_of_apart hholds.held (hapart _ hne), hholds.waits, harrived⟩
    | some sp =>
      rw [hpipe] at hstep
      cases hstep
      have hself : conn ∉ w.arriving.erase conn := by
        rw [ExtTreeMap.mem_erase]
        exact fun hmem => hmem.1 (LawfulEqCmp.compare_eq_iff_eq.mpr rfl)
      refine HandInv.sendFd ?_ sp.pipe ⟨hconn, Or.inr rfl, hself, hless⟩
      refine h.of_holds rfl rfl (fun other fd hother => (hothers other fd hother).2) ?_
      intro packet _ hholds
      exact ⟨hholds.held, Or.inl (hholds.waits_of_unlocked hlock), (hgone packet hholds).2⟩

/-- The packet that was sent gets its entry. -/
theorem HandInv.acceptEnds {w : HubSystem} (h : w.HandInv) {next : HubSystem}
    (hstep : w.perform .acceptEnds = some next) : next.HandInv := by
  simp only [perform] at hstep
  cases hentering : w.entering with
  | none =>
    rw [hentering] at hstep
    cases hstep
  | some sent =>
    rw [hentering] at hstep
    cases hstep
    refine h.of_holds rfl rfl h.arriving ?_
    intro packet _ hholds
    refine ⟨hholds.held, Or.inl ?_, hholds.arrived⟩
    dsimp only [ServiceHub.awaitSock]
    cases hholds.waits with
    | inl hwaits =>
      rw [ExtTreeMap.mem_insertIfNew]
      exact Or.inr hwaits
    | inr hsame =>
      rw [hentering, Option.some.injEq] at hsame
      rw [hsame]
      exact ExtTreeMap.mem_insertIfNew_self

theorem loaded_upcallPipe {p p' : PipeState} (h : Loaded p.trans) (hp : upcallPipe p = some p') :
    Loaded p'.trans ∧ ∀ packet ∈ p'.carried, packet ∈ p.carried := by
  unfold upcallPipe at hp
  split at hp
  · rename_i locals hphase
    have hkept : (p.trans.outputUpcall locals).hasObserver = p.trans.hasObserver ∧
        (p.trans.outputUpcall locals).sendingFd = p.trans.sendingFd ∧
        (p.trans.outputUpcall locals).sendPool = p.trans.sendPool ∧
        (p.trans.outputUpcall locals).pendingWr = p.trans.pendingWr := by
      unfold TcpTransport.outputUpcall
      split <;> exact ⟨rfl, rfl, rfl, rfl⟩
    obtain ⟨hopen, hfd, hpool, hpending⟩ := hkept
    have hloaded : Loaded (p.trans.outputUpcall locals) :=
      TcpTransport.Loaded.of_eq h hpool hpending hfd
    have hcarried : ∀ packet ∈ { p with trans := p.trans.outputUpcall locals }.carried,
        packet ∈ p.carried := by
      intro packet hpacket
      exact PipeState.carried_trans (fun ho => hopen ▸ ho) (Or.inr ⟨hfd, hpool⟩) hpacket
    split at hp
    · cases hp
      obtain ⟨hsent, hmoved⟩ :=
        PipeState.onSend_spec (p := { p with trans := p.trans.outputUpcall locals }) hloaded
      exact ⟨hsent, fun packet hpacket => hcarried packet (hmoved packet hpacket)⟩
    · cases hp
      exact ⟨hloaded, hcarried⟩
  · cases hp

/-- The sections of `OnOutput` behind the upcall, and `Fini`. -/
theorem loaded_trans {p : PipeState} {t : TcpTransport (ServicePacket × Nat)} (h : Loaded p.trans)
    (hopen : t.hasObserver = true → p.trans.hasObserver = true)
    (hfd : t.sendingFd = p.trans.sendingFd) (hpool : t.sendPool = p.trans.sendPool)
    (hpending : t.pendingWr = p.trans.pendingWr) :
    Loaded t ∧ ∀ packet ∈ { p with trans := t }.carried, packet ∈ p.carried :=
  ⟨TcpTransport.Loaded.of_eq h hpool hpending hfd,
    fun _ hpacket => PipeState.carried_trans hopen (Or.inr ⟨hfd, hpool⟩) hpacket⟩

theorem HandInv.step {w next : HubSystem} (h : w.HandInv) (e : HubEvent) (hquiet : w.Undisturbed e)
    (hstep : w.step e = some next) : next.HandInv := by
  obtain ⟨hlock, hstep⟩ := step_cases hstep
  cases e with
  | acceptIpc pipe tick =>
    simp only [perform] at hstep
    split at hstep
    · cases hstep
    · cases hstep
      refine ⟨?_, h.arriving, h.handed⟩
      intro other q hq
      dsimp only at hq
      rw [ExtTreeMap.getElem?_insert] at hq
      split at hq
      · cases hq
        refine ⟨TcpTransport.loaded_init, ?_⟩
        intro packet hpacket
        cases hpacket
      · have hinv := h.pipes other q hq
        exact hinv.mono hinv.loaded (fun _ hsent => hsent) (fun _ _ hold => ⟨hold.held, hold.waits, hold.arrived⟩)
  | accept sockId => exact h.accept sockId hstep
  | acceptOther conn unixSocket serviceId serviceOpt nonce tick =>
    exact h.acceptOther (hlock rfl) conn unixSocket serviceId serviceOpt nonce tick hstep
  | acceptEnds => exact h.acceptEnds hstep
  | recv pipe packet tick => exact h.recv (hlock rfl) pipe packet tick hquiet hstep
  | closePipe pipe =>
    simp only [perform, Option.some.injEq] at hstep
    subst hstep
    refine h.of_holds rfl rfl h.arriving ?_
    intro packet _ hholds
    refine ⟨hholds.held, ?_, hholds.arrived⟩
    rw [expireSocks_erasePipe]
    exact hholds.waits
  | timer tick => exact h.timer (hlock rfl) tick hquiet hstep
  | output pipe result => exact h.output pipe result hstep
  | upcall pipe => exact h.onPipe hstep (fun p p' hloaded hp => loaded_upcallPipe hloaded hp)
  | deregister pipe =>
    refine h.onPipe hstep ?_
    intro p p' hloaded hp
    split at hp
    · cases hp
      apply loaded_trans hloaded <;> unfold TcpTransport.outputDeregister <;> dsimp only <;> split <;>
        first | rfl | exact id
    · cases hp
  | leave pipe =>
    refine h.onPipe hstep ?_
    intro p p' hloaded hp
    split at hp
    · cases hp
      apply loaded_trans hloaded <;> unfold TcpTransport.outputLeave TcpTransport.fini <;> dsimp only <;>
        split <;> try split
      all_goals first | rfl | simp
    · cases hp
  | finiPipe pipe =>
    refine h.onPipe hstep ?_
    intro p p' hloaded hp
    cases hp
    refine ⟨hloaded, ?_⟩
    intro packet hpacket
    rw [PipeState.mem_carried] at hpacket ⊢
    obtain ⟨hopen, hpool | ⟨hclosed, _⟩⟩ := hpacket
    · exact ⟨hopen, Or.inl hpool⟩
    · cases hclosed
  | finiTrans pipe =>
    refine h.onPipe hstep ?_
    intro p p' hloaded hp
    cases hp
    apply loaded_trans hloaded <;> unfold TcpTransport.fini <;> split
    all_goals first | rfl | simp
  | openOther sockId =>
    simp only [perform] at hstep
    split at hstep
    · cases hstep
    · rename_i hfree
      cases hstep
      exact h.of_fds (fun _ _ hheld => Tables.getElem?_insert_of_free _ hfree hheld)
  | closeOther sockId =>
    simp only [perform] at hstep
    split at hstep
    · rename_i hother
      cases hstep
      refine h.of_fds fun fd conn hheld => Tables.getElem?_erase_of_apart hheld ?_
      rw [hother]
      simp
    · cases hstep

theorem handed_onPipe {w next : HubSystem} {pipe : Nat} {f : PipeState → Option PipeState}
    (hstep : w.onPipe pipe f = some next) : next.handed = w.handed := by
  unfold HubSystem.onPipe at hstep
  split at hstep
  · cases hstep
  · rw [Option.map_eq_some_iff] at hstep
    obtain ⟨p, _, rfl⟩ := hstep
    rfl

/-- What an `OnOutput` in its turn passes has been entered. -/
theorem entering_handOver {w : HubSystem} {pipe : Nat} {p : PipeState} {result : SendResult}
    (hturn : w.InTurn (.output pipe result)) (hpipe : w.pipes[pipe]? = some p) :
    ∀ hand ∈ w.handOver p, hand.entering = false := by
  intro hand hhand
  obtain ⟨hopen, hfd, _, _, _, hentering⟩ := mem_handOver hhand
  rw [hentering]
  cases hlock : w.entering with
  | none => rfl
  | some packet =>
    have hpassing : p.passing = p.poolPacket := by
      unfold PipeState.passing
      rw [hopen, hfd]
      rfl
    have hother := hturn packet hlock p hpipe
    rw [hpassing] at hother
    simp [Ne.symm hother]

/-- Only `OnOutput` passes descriptors. -/
theorem entering_step {w next : HubSystem} (h : ∀ hand ∈ w.handed, hand.entering = false)
    {e : HubEvent} (hturn : w.InTurn e) (hstep : w.step e = some next) :
    ∀ hand ∈ next.handed, hand.entering = false := by
  obtain ⟨_, hstep⟩ := step_cases hstep
  cases e with
  | acceptIpc pipe tick =>
    simp only [perform] at hstep
    split at hstep
    · cases hstep
    · cases hstep
      exact h
  | accept sockId =>
    simp only [perform] at hstep
    split at hstep
    · cases hstep
    · cases hstep
      exact h
  | acceptOther conn unixSocket serviceId serviceOpt nonce tick =>
    simp only [perform] at hstep
    split at hstep
    · cases hstep
    · split at hstep
      · cases hstep
        exact h
      · cases hstep
        unfold HubSystem.sendFd
        split <;> exact h
  | acceptEnds =>
    simp only [perform] at hstep
    split at hstep
    · cases hstep
    · cases hstep
      exact h
  | recv pipe packet tick =>
    simp only [perform] at hstep
    split at hstep <;> cases hstep <;> exact h
  | closePipe pipe =>
    cases hstep
    exact h
  | timer tick =>
    cases hstep
    have hhanded := (foldl_expireSock_frame (w.hub.expiredSocks tick) w).2.1
    intro hand hhand
    exact h hand (hhanded ▸ hhand)
  | output pipe result =>
    simp only [perform] at hstep
    split at hstep
    · cases hstep
    · rename_i p hpipe
      split at hstep
      · cases hstep
        intro hand hhand
        rw [List.mem_append] at hhand
        cases hhand with
        | inl hold => exact h hand hold
        | inr hnew => exact entering_handOver hturn hpipe hand hnew
      · cases hstep
  | upcall pipe => exact handed_onPipe hstep ▸ h
  | deregister pipe => exact handed_onPipe hstep ▸ h
  | leave pipe => exact handed_onPipe hstep ▸ h
  | finiPipe pipe => exact handed_onPipe hstep ▸ h
  | finiTrans pipe => exact handed_onPipe hstep ▸ h
  | openOther sockId =>
    simp only [perform] at hstep
    split at hstep
    · cases hstep
    · cases hstep
      exact h
  | closeOther sockId =>
    simp only [perform] at hstep
    split at hstep
    · cases hstep
      exact h
    · cases hstep

/-- On every run on which the hub closes no descriptor that is still on its way,
`OnOutput` only passes accepted sockets, and they still wait if it also passes none
before its entry is made. -/
theorem right_of_run {es : List HubEvent} {w : HubSystem}
    (hguard : Guarded HubSystem.step Undisturbed init es)
    (hrun : run HubSystem.step init es = some w) :
    (∀ hand ∈ w.handed, hand.Genuine) ∧
      (Guarded HubSystem.step InTurn init es → ∀ hand ∈ w.handed, hand.Right) := by
  have hinv : w.HandInv :=
    run_preserves (fun w e next h hquiet hstep => h.step e hquiet hstep) handInv_init hguard hrun
  refine ⟨hinv.handed, ?_⟩
  intro hturns hand hhand
  have hnone : ∀ hand ∈ init.handed, hand.entering = false := by
    intro hand hhand
    cases hhand
  have hentered : ∀ hand ∈ w.handed, hand.entering = false :=
    run_preserves (fun w e next h hturn hstep => entering_step h hturn hstep) hnone hturns hrun
  exact (hinv.handed hand hhand).right (hentered hand hhand)

instance (w : HubSystem) (sockId : Int) : Decidable (w.Needs sockId) := by
  unfold Needs
  infer_instance

instance (w : HubSystem) : (e : HubEvent) → Decidable (w.Undisturbed e)
  | .timer tick =>
      inferInstanceAs (Decidable (∀ entry ∈ w.hub.expiredSocks tick, ¬ w.Needs entry.1.sockId))
  | .recv pipe packet _ =>
      inferInstanceAs (Decidable (∀ key ∈ w.hub.ackedSock pipe packet, ¬ w.Needs key.sockId))
  | .acceptIpc .. | .accept .. | .acceptOther .. | .acceptEnds | .closePipe .. | .output ..
  | .upcall .. | .deregister .. | .leave .. | .finiPipe .. | .finiTrans .. | .openOther .. | .closeOther .. =>
      inferInstanceAs (Decidable True)

instance (w : HubSystem) : (e : HubEvent) → Decidable (w.InTurn e)
  | .output pipe _ => inferInstanceAs
      (Decidable (∀ packet ∈ w.entering, ∀ p ∈ w.pipes[pipe]?, p.passing ≠ some packet))
  | .acceptIpc .. | .accept .. | .acceptOther .. | .acceptEnds | .recv .. | .closePipe ..
  | .timer .. | .upcall .. | .deregister .. | .leave .. | .finiPipe .. | .finiTrans .. | .openOther ..
  | .closeOther .. => inferInstanceAs (Decidable True)

/-- The packet goes out with its descriptor, the service acknowledges it, and the
next connection gets the same number. -/
def passedInTime : List HubEvent :=
  [.acceptIpc 1 0, .recv 1 ⟨3, 77, ⟨0, -1⟩⟩ 10, .accept 5, .acceptOther 0 false 3 0 9 100,
    .acceptEnds, .output 1 (.sent 96), .upcall 1, .leave 1, .recv 1 ⟨3, 77, ⟨5100, 5⟩⟩ 200,
    .accept 5, .acceptOther 1 false 3 0 9 300, .acceptEnds]

theorem right_of_run_passedInTime :
    ∃ w, run HubSystem.step init passedInTime = some w ∧ w.handed.length = 1 ∧
      ∀ hand ∈ w.handed, hand.Right := by
  have hany : ((run HubSystem.step init passedInTime).any
      fun w => decide (w.handed.length = 1)) = true := by decide +kernel
  have hguard : Guarded HubSystem.step Undisturbed init passedInTime := by decide +kernel
  have hturns : Guarded HubSystem.step InTurn init passedInTime := by decide +kernel
  obtain ⟨w, hw, hdecide⟩ := (Option.any_eq_true _ _).mp hany
  exact ⟨w, hw, of_decide_eq_true hdecide, (right_of_run hguard hw).2 hturns⟩

/-- The packet of the first connection waits in the transport until the connection
has expired and its number belongs to a second one. -/
def passedLate : List HubEvent :=
  [.acceptIpc 1 0, .recv 1 ⟨3, 77, ⟨0, -1⟩⟩ 10, .accept 5, .acceptOther 0 false 3 0 9 100,
    .acceptEnds, .timer 5100, .accept 5, .acceptOther 1 false 3 0 9 5200, .acceptEnds,
    .output 1 (.sent 96)]

/-- `OnOutput` of another thread comes between `SendFd` and the entry. -/
def passedEarly : List HubEvent :=
  [.acceptIpc 1 0, .recv 1 ⟨3, 77, ⟨0, -1⟩⟩ 10, .accept 5, .acceptOther 0 false 3 0 9 100,
    .output 1 (.sent 96)]

/-- The packet of connection 0 is sent with the socket of connection 1, or with its
own before the entry is made. -/
theorem not_right_passedLate :
    (∃ w, run HubSystem.step init passedLate = some w ∧
      w.handed = [⟨some ⟨3, 0, 9, ⟨5100, 5⟩, false, 0⟩, 5, some (.accepted 1), false, false⟩] ∧
      ¬ ∀ hand ∈ w.handed, hand.Right) ∧
    ∃ w, run HubSystem.step init passedEarly = some w ∧
      w.handed = [⟨some ⟨3, 0, 9, ⟨5100, 5⟩, false, 0⟩, 5, some (.accepted 0), false, true⟩] ∧
      ¬ ∀ hand ∈ w.handed, hand.Right := by
  constructor
  · have hany : ((run HubSystem.step init passedLate).any fun w => decide (w.handed =
        [⟨some ⟨3, 0, 9, ⟨5100, 5⟩, false, 0⟩, 5, some (.accepted 1), false, false⟩])) = true := by
      decide +kernel
    obtain ⟨w, hw, hdecide⟩ := (Option.any_eq_true _ _).mp hany
    have hhanded := of_decide_eq_true hdecide
    refine ⟨w, hw, hhanded, ?_⟩
    intro hright
    rw [hhanded] at hright
    obtain ⟨packet, _, _, _, hentry⟩ := hright _ (List.mem_singleton_self _)
    cases hentry
  · have hany : ((run HubSystem.step init passedEarly).any fun w => decide (w.handed =
        [⟨some ⟨3, 0, 9, ⟨5100, 5⟩, false, 0⟩, 5, some (.accepted 0), false, true⟩])) = true := by
      decide +kernel
    obtain ⟨w, hw, hdecide⟩ := (Option.any_eq_true _ _).mp hany
    have hhanded := of_decide_eq_true hdecide
    refine ⟨w, hw, hhanded, ?_⟩
    intro hright
    rw [hhanded] at hright
    obtain ⟨packet, _, _, _, hentry⟩ := hright _ (List.mem_singleton_self _)
    cases hentry

end HubSystem

end Pronet.Net
