import Pronet.Library.Tables
import Pronet.Net.ServiceHub

/-! The hub closes every socket it accepts once, as long as every acknowledgement
names a socket that is still waiting. -/
namespace Pronet.Net

open Std Library Runs

namespace HubSystem

/-- The connections that wait in `m_expireSocks` or are about to be entered there. -/
def waiting (w : HubSystem) : List Nat :=
  (w.entering.map ServicePacket.conn).toList ++
    w.hub.expireSocks.toList.map fun entry => entry.2.conn

/-- What the hub closed are connections it accepted, each of which it has closed
once or still keeps waiting, and every acknowledgement found its entry. -/
structure ClosesOnce (w : HubSystem) : Prop where
  closed : ∃ closed : List Nat, w.closes = closed.map (fun conn => some (.accepted conn)) ∧
    (closed ++ w.waiting).Perm w.accepted
  nodup : w.accepted.Nodup
  acks : ∀ found ∈ w.acks, found = true

structure SockInv (w : HubSystem) : Prop where
  held : ∀ (key : SockKey) (sock : ExpireSock), w.hub.expireSocks[key]? = some sock →
    w.fds[key.sockId]? = some (.accepted sock.conn)
  entering : ∀ packet ∈ w.entering, w.fds[packet.oldSock.sockId]? = some (.accepted packet.conn)
  arriving : ∀ (conn : Nat) (sockId : Int), w.arriving[conn]? = some sockId →
    w.fds[sockId]? = some (.accepted conn) ∧ conn ∉ w.accepted ∧ conn < w.nextConn
  closes : w.ClosesOnce
  fresh : ∀ conn ∈ w.accepted, conn < w.nextConn

theorem sockInv_init : init.SockInv := by
  refine ⟨?_, ?_, ?_, ⟨⟨[], rfl, by rfl⟩, List.nodup_nil, ?_⟩, ?_⟩
  · intro key sock h
    simp [init, ServiceHub.empty] at h
  · intro packet h
    cases h
  · intro conn sockId h
    simp [init] at h
  · intro found hfound
    cases hfound
  · intro conn hconn
    cases hconn

/-- Only the sockets matter, not the pipes, and of the descriptors only those of connections. -/
theorem SockInv.of_fds {w w' : HubSystem} (h : w.SockInv)
    (hfds : ∀ (fd : Int) (conn : Nat), w.fds[fd]? = some (.accepted conn) →
      w'.fds[fd]? = some (.accepted conn))
    (hentering : w'.entering = w.entering) (hexpire : w'.hub.expireSocks = w.hub.expireSocks)
    (hnext : w'.nextConn = w.nextConn) (harriving : w'.arriving = w.arriving)
    (haccepted : w'.accepted = w.accepted) (hcloses : w'.closes = w.closes)
    (hacks : w'.acks = w.acks) : w'.SockInv := by
  refine ⟨?_, ?_, ?_, ⟨?_, ?_, ?_⟩, ?_⟩
  · rw [hexpire]
    exact fun key sock hkey => hfds _ _ (h.held key sock hkey)
  · rw [hentering]
    exact fun packet hpacket => hfds _ _ (h.entering packet hpacket)
  · rw [harriving, haccepted, hnext]
    intro conn sockId hconn
    obtain ⟨hheld, hrest⟩ := h.arriving conn sockId hconn
    exact ⟨hfds _ _ hheld, hrest⟩
  · unfold waiting
    rw [hcloses, haccepted, hentering, hexpire]
    exact h.closes.closed
  · rw [haccepted]
    exact h.closes.nodup
  · rw [hacks]
    exact h.closes.acks
  · rw [haccepted, hnext]
    exact h.fresh

theorem SockInv.of_eq {w w' : HubSystem} (h : w.SockInv)
    (hentering : w'.entering = w.entering) (hexpire : w'.hub.expireSocks = w.hub.expireSocks)
    (hfds : w'.fds = w.fds) (hnext : w'.nextConn = w.nextConn) (harriving : w'.arriving = w.arriving)
    (haccepted : w'.accepted = w.accepted) (hcloses : w'.closes = w.closes)
    (hacks : w'.acks = w.acks) : w'.SockInv :=
  h.of_fds (fun _ _ hheld => hfds ▸ hheld) hentering hexpire hnext harriving haccepted hcloses hacks

/-- Two entries never have the same descriptor. -/
theorem SockInv.sockId_inj {w : HubSystem} (h : w.SockInv) {key key' : SockKey}
    {sock sock' : ExpireSock} (hkey : w.hub.expireSocks[key]? = some sock)
    (hkey' : w.hub.expireSocks[key']? = some sock') (hid : key.sockId = key'.sockId) :
    key = key' := by
  have hheld := h.held key sock hkey
  rw [hid, h.held key' sock' hkey', Option.some.injEq, Holder.accepted.injEq] at hheld
  obtain ⟨closed, _, hperm⟩ := h.closes.closed
  have hnodup : (w.hub.expireSocks.toList.map fun entry => entry.2.conn).Nodup :=
    ((hperm.nodup_iff).mpr h.closes.nodup).of_append_right.of_append_right
  have hmem := ExtTreeMap.mem_toList_iff_getElem?_eq_some.mpr hkey
  have hmem' := ExtTreeMap.mem_toList_iff_getElem?_eq_some.mpr hkey'
  have heq := List.inj_on_of_nodup_map hnodup hmem hmem' hheld.symm
  exact congrArg Prod.fst heq

/-- The connections that wait while no packet is being entered. -/
theorem waiting_of_unlocked {w : HubSystem} (hlock : w.entering = none) :
    w.waiting = w.hub.expireSocks.toList.map fun entry => entry.2.conn := by
  unfold waiting
  rw [hlock]
  rfl

/-- The connection of an entry has been accepted. -/
theorem SockInv.mem_accepted {w : HubSystem} (h : w.SockInv) {key : SockKey} {sock : ExpireSock}
    (hkey : w.hub.expireSocks[key]? = some sock) : sock.conn ∈ w.accepted := by
  obtain ⟨closed, _, hperm⟩ := h.closes.closed
  have hmem := ExtTreeMap.mem_toList_iff_getElem?_eq_some.mpr hkey
  apply hperm.subset
  apply List.mem_append_right
  apply List.mem_append_right
  exact List.mem_map_of_mem (f := fun entry => entry.2.conn) hmem

/-- A connection that arrives is none of those that wait. -/
theorem SockInv.apart {w : HubSystem} (h : w.SockInv) {key : SockKey} {sock : ExpireSock}
    (hkey : w.hub.expireSocks[key]? = some sock) {conn : Nat} {sockId : Int}
    (harriving : w.arriving[conn]? = some sockId) : sock.conn ≠ conn := by
  intro heq
  have hmem := h.mem_accepted hkey
  rw [heq] at hmem
  exact (h.arriving conn sockId harriving).2.1 hmem

/-- An entry that is there is closed with its connection. -/
theorem SockInv.expireSock {w : HubSystem} (h : w.SockInv) (hlock : w.entering = none)
    {key : SockKey} {sock : ExpireSock} (hkey : w.hub.expireSocks[key]? = some sock) :
    (w.expireSock key).SockInv := by
  obtain ⟨closed, hcloses, hperm⟩ := h.closes.closed
  have hlock' : (w.expireSock key).entering = none := hlock
  refine ⟨?_, ?_, ?_, ⟨⟨closed ++ [sock.conn], ?_, ?_⟩, h.closes.nodup, h.closes.acks⟩, h.fresh⟩
  · intro k s hk
    simp only [HubSystem.expireSock, closeSock] at hk ⊢
    obtain ⟨hne, hk⟩ := Tables.getElem?_of_erase hk
    rw [ExtTreeMap.getElem?_erase, if_neg]
    · exact h.held k s hk
    · intro hid
      exact hne (h.sockId_inj hkey hk (LawfulEqCmp.compare_eq_iff_eq.mp hid)).symm
  · intro packet hpacket
    rw [hlock'] at hpacket
    cases hpacket
  · intro conn sockId harriving
    obtain ⟨hconn, hrest⟩ := h.arriving conn sockId harriving
    refine ⟨Tables.getElem?_erase_of_apart hconn ?_, hrest⟩
    rw [h.held key sock hkey, Ne, Option.some.injEq, Holder.accepted.injEq]
    exact h.apart hkey harriving
  · simp only [HubSystem.expireSock, closeSock]
    rw [h.held key sock hkey, hcloses, List.map_append]
    rfl
  · have hentries := (Tables.toList_perm_erase hkey).map fun entry => entry.2.conn
    have hwaiting : w.waiting.Perm (sock.conn :: (w.expireSock key).waiting) := by
      rw [waiting_of_unlocked hlock, waiting_of_unlocked hlock']
      exact hentries
    have hmove : (closed ++ [sock.conn] ++ (w.expireSock key).waiting).Perm
        (closed ++ w.waiting) := by
      rw [List.append_assoc]
      exact (hwaiting.append_left closed).symm
    exact hmove.trans hperm

theorem getElem?_expireSock_ne {w : HubSystem} {key k : SockKey} (hne : k ≠ key) :
    (w.expireSock key).hub.expireSocks[k]? = w.hub.expireSocks[k]? := by
  simp only [HubSystem.expireSock, closeSock]
  rw [ExtTreeMap.getElem?_erase, if_neg]
  intro heq
  exact hne (LawfulEqCmp.compare_eq_iff_eq.mp heq).symm

/-- The first loop of `OnTimer`. -/
theorem SockInv.expireSocks {entries : List (SockKey × ExpireSock)} {w : HubSystem} (h : w.SockInv)
    (hlock : w.entering = none) (hnodup : (entries.map Prod.fst).Nodup)
    (hmem : ∀ entry ∈ entries, w.hub.expireSocks[entry.1]? = some entry.2) :
    (entries.foldl (fun w entry => w.expireSock entry.1) w).SockInv := by
  induction entries generalizing w with
  | nil => exact h
  | cons entry entries ih =>
    rw [List.map_cons, List.nodup_cons] at hnodup
    rw [List.foldl_cons]
    apply ih (h.expireSock hlock (hmem entry List.mem_cons_self)) hlock hnodup.2
    intro other hother
    rw [getElem?_expireSock_ne]
    · exact hmem other (List.mem_cons_of_mem entry hother)
    · intro heq
      exact hnodup.1 (heq ▸ List.mem_map_of_mem hother)

theorem expiredSocks_spec (hub : ServiceHub) (tick : Int) :
    ((hub.expiredSocks tick).map Prod.fst).Nodup ∧
      ∀ entry ∈ hub.expiredSocks tick, hub.expireSocks[entry.1]? = some entry.2 := by
  have hkeys : (hub.expireSocks.toList.map Prod.fst).Nodup := by
    rw [ExtTreeMap.map_fst_toList_eq_keys]
    exact ExtTreeMap.nodup_keys
  refine ⟨hkeys.sublist ((List.takeWhile_sublist _).map Prod.fst), ?_⟩
  intro entry hentry
  exact ExtTreeMap.mem_toList_iff_getElem?_eq_some.mp ((List.takeWhile_sublist _).subset hentry)

theorem expireSocks_erasePipe (hub : ServiceHub) (pipe : Nat) :
    (hub.erasePipe pipe).expireSocks = hub.expireSocks := by
  unfold ServiceHub.erasePipe
  split <;> rfl

theorem expireSocks_erasePipes (pipes : List Nat) (hub : ServiceHub) :
    (pipes.foldl ServiceHub.erasePipe hub).expireSocks = hub.expireSocks := by
  induction pipes generalizing hub with
  | nil => rfl
  | cons pipe pipes ih => rw [List.foldl_cons, ih, expireSocks_erasePipe]

/-- Every acknowledgement that makes the hub close a descriptor names an entry
that is still waiting. -/
def AcksWaiting (w : HubSystem) : HubEvent → Prop
  | .recv pipe packet _ => ∀ key ∈ w.hub.ackedSock pipe packet, key ∈ w.hub.expireSocks
  | _ => True

theorem expireSocks_onRecv (hub : ServiceHub) (pipe : Nat) (packet : AckPacket) (tick : Int) :
    (hub.onRecv pipe packet tick).expireSocks =
      match hub.ackedSock pipe packet with
      | none => hub.expireSocks
      | some key => hub.expireSocks.erase key := by
  unfold ServiceHub.onRecv ServiceHub.ackedSock
  cases hub.allPipes[pipe]? with
  | none => rfl
  | some sp =>
    dsimp only
    by_cases hpending : sp.pending = true
    · rw [if_pos hpending, if_pos hpending]
      split <;> rfl
    · rw [if_neg hpending, if_neg hpending]
      split
      · rfl
      · dsimp only
        split <;> rfl

theorem SockInv.recv {w : HubSystem} (h : w.SockInv) (hlock : w.entering = none) (pipe : Nat)
    (packet : AckPacket) (tick : Int) (hack : w.AcksWaiting (.recv pipe packet tick))
    {next : HubSystem} (hstep : w.perform (.recv pipe packet tick) = some next) : next.SockInv := by
  have hexpire := expireSocks_onRecv w.hub pipe packet tick
  simp only [perform] at hstep
  cases hacked : w.hub.ackedSock pipe packet with
  | none =>
    rw [hacked] at hstep hexpire
    cases hstep
    exact h.of_eq rfl hexpire rfl rfl rfl rfl rfl rfl
  | some key =>
    rw [hacked] at hstep hexpire
    cases hstep
    have hmem := hack key hacked
    have hmem' := hmem
    rw [ExtTreeMap.mem_iff_isSome_getElem?] at hmem'
    obtain ⟨sock, hsock⟩ := Option.isSome_iff_exists.mp hmem'
    have hclosed := h.expireSock hlock hsock
    refine ⟨?_, hclosed.entering, hclosed.arriving, ⟨?_, hclosed.closes.nodup, ?_⟩, hclosed.fresh⟩
    · dsimp only [closeSock]
      rw [hexpire]
      exact hclosed.held
    · unfold waiting
      dsimp only [closeSock]
      rw [hexpire]
      exact hclosed.closes.closed
    · intro found hfound
      rw [List.mem_append, List.mem_singleton] at hfound
      cases hfound with
      | inl hold => exact h.closes.acks found hold
      | inr hnew => rw [hnew, decide_eq_true hmem]

theorem SockInv.timer {w : HubSystem} (h : w.SockInv) (hlock : w.entering = none) (tick : Int)
    {next : HubSystem} (hstep : w.perform (.timer tick) = some next) : next.SockInv := by
  simp only [perform, Option.some.injEq] at hstep
  subst hstep
  obtain ⟨hnodup, hmem⟩ := expiredSocks_spec w.hub tick
  have hexpired := h.expireSocks hlock hnodup hmem
  exact hexpired.of_eq rfl (expireSocks_erasePipes _ _) rfl rfl rfl rfl rfl rfl

/-- The acceptor's connection has a number that was free. -/
theorem SockInv.accept {w : HubSystem} (h : w.SockInv) (sockId : Int) {next : HubSystem}
    (hstep : w.perform (.accept sockId) = some next) : next.SockInv := by
  simp only [perform] at hstep
  split at hstep
  · cases hstep
  · rename_i hfree
    simp only [Bool.or_eq_true, decide_eq_true_eq, not_or] at hfree
    cases hstep
    have hkept : ∀ (fd : Int) (conn : Nat), w.fds[fd]? = some (.accepted conn) →
        (w.fds.insert sockId (.accepted w.nextConn))[fd]? = some (.accepted conn) :=
      fun _ _ hheld => Tables.getElem?_insert_of_free _ hfree.2 hheld
    refine ⟨?_, ?_, ?_, ⟨h.closes.closed, h.closes.nodup, h.closes.acks⟩, ?_⟩
    · exact fun key sock hkey => hkept _ _ (h.held key sock hkey)
    · exact fun packet hpacket => hkept _ _ (h.entering packet hpacket)
    · intro conn fd hconn
      rcases Tables.getElem?_of_insert hconn with hold | ⟨rfl, rfl⟩
      · obtain ⟨hheld, hnew, hless⟩ := h.arriving conn fd hold
        exact ⟨hkept _ _ hheld, hnew, Nat.lt_succ_of_lt hless⟩
      · refine ⟨ExtTreeMap.getElem?_insert_self, ?_, Nat.lt_succ_self _⟩
        exact fun hmem => absurd (h.fresh _ hmem) (Nat.lt_irrefl _)
    · exact fun conn hconn => Nat.lt_succ_of_lt (h.fresh conn hconn)

/-- A connection that the hub has accepted and is about to enter. -/
def enter (w : HubSystem) (packet : ServicePacket) : HubSystem :=
  { w with
    arriving := w.arriving.erase packet.conn
    accepted := w.accepted ++ [packet.conn]
    entering := some packet }

theorem SockInv.acceptOther {w : HubSystem} (h : w.SockInv) (hlock : w.entering = none)
    (conn : Nat) (unixSocket : Bool) (serviceId serviceOpt : UInt8) (nonce : UInt64) (tick : Int)
    {next : HubSystem}
    (hstep : w.perform (.acceptOther conn unixSocket serviceId serviceOpt nonce tick) = some next) :
    next.SockInv := by
  simp only [perform] at hstep
  cases harriving : w.arriving[conn]? with
  | none =>
    rw [harriving] at hstep
    cases hstep
  | some sockId =>
    rw [harriving] at hstep
    dsimp only at hstep
    obtain ⟨hconn, hnew, hless⟩ := h.arriving conn sockId harriving
    obtain ⟨closed, hcloses, hperm⟩ := h.closes.closed
    have hnodup : (w.accepted ++ [conn]).Nodup := by
      rw [List.nodup_append]
      refine ⟨h.closes.nodup, List.nodup_singleton _, ?_⟩
      intro old hold conn' hconn' heq
      rw [List.mem_singleton] at hconn'
      exact hnew (hconn' ▸ heq ▸ hold)
    have hfresh : ∀ other ∈ w.accepted ++ [conn], other < w.nextConn := by
      intro other hother
      rw [List.mem_append, List.mem_singleton] at hother
      cases hother with
      | inl hold => exact h.fresh other hold
      | inr heq => exact heq ▸ hless
    have hothers : ∀ (other : Nat) (fd : Int), (w.arriving.erase conn)[other]? = some fd →
        other ≠ conn ∧ w.fds[fd]? = some (.accepted other) ∧ other ∉ w.accepted ++ [conn] ∧
          other < w.nextConn := by
      intro other fd hother
      obtain ⟨hne, hold⟩ := Tables.getElem?_of_erase hother
      obtain ⟨hheld, hunknown, hbelow⟩ := h.arriving other fd hold
      refine ⟨hne, hheld, ?_, hbelow⟩
      rw [List.mem_append, List.mem_singleton, not_or]
      exact ⟨hunknown, hne⟩
    have hfront : (closed ++ (conn :: w.waiting)).Perm (closed ++ w.waiting ++ [conn]) := by
      rw [List.append_assoc]
      exact (List.perm_append_singleton conn w.waiting).symm.append_left closed
    have haccepted := hfront.trans (hperm.append_right [conn])
    unfold ServiceHub.servicePacket at hstep
    cases hpipe : w.hub.serviceId2Pipe[serviceId]? with
    | none =>
      rw [hpipe] at hstep
      cases hstep
      refine ⟨?_, ?_, ?_, ⟨⟨closed ++ [conn], ?_, ?_⟩, hnodup, h.closes.acks⟩, hfresh⟩
      · intro key sock hkey
        refine Tables.getElem?_erase_of_apart (h.held key sock hkey) ?_
        rw [hconn, Ne, Option.some.injEq, Holder.accepted.injEq]
        exact (h.apart hkey harriving).symm
      · intro packet hpacket
        rw [show _ = none from hlock] at hpacket
        cases hpacket
      · intro other fd hother
        obtain ⟨hne, hheld, hrest⟩ := hothers other fd hother
        refine ⟨Tables.getElem?_erase_of_apart hheld ?_, hrest⟩
        rw [hconn, Ne, Option.some.injEq, Holder.accepted.injEq]
        exact hne.symm
      · dsimp only [closeSock]
        rw [hconn, hcloses, List.map_append]
        rfl
      · rw [List.append_assoc]
        exact haccepted
    | some sp =>
      rw [hpipe] at hstep
      cases hstep
      have hentered : SockInv (w.enter
          ⟨serviceId, serviceOpt, nonce, ⟨tick + sockTimeout, sockId⟩, unixSocket, conn⟩) := by
        refine ⟨h.held, ?_, ?_, ⟨⟨closed, hcloses, ?_⟩, hnodup, h.closes.acks⟩, hfresh⟩
        · intro packet hpacket
          cases hpacket
          exact hconn
        · exact fun other fd hother => (hothers other fd hother).2
        · rw [waiting_of_unlocked hlock] at haccepted
          exact haccepted
      refine hentered.of_eq ?_ ?_ ?_ ?_ ?_ ?_ ?_ ?_
      all_goals
        unfold sendFd
        split <;> rfl

/-- The packet that was sent is entered, under a key that is not there yet. -/
theorem SockInv.acceptEnds {w : HubSystem} (h : w.SockInv) {next : HubSystem}
    (hstep : w.perform .acceptEnds = some next) : next.SockInv := by
  simp only [perform] at hstep
  cases hentering : w.entering with
  | none =>
    rw [hentering] at hstep
    cases hstep
  | some packet =>
    rw [hentering] at hstep
    cases hstep
    have hpacket := h.entering packet hentering
    obtain ⟨closed, hcloses, hperm⟩ := h.closes.closed
    have hwaiting : w.waiting =
        packet.conn :: w.hub.expireSocks.toList.map fun entry => entry.2.conn := by
      unfold waiting
      rw [hentering]
      rfl
    have habsent : packet.oldSock ∉ w.hub.expireSocks := by
      intro hmem
      rw [ExtTreeMap.mem_iff_isSome_getElem?] at hmem
      obtain ⟨sock, hsock⟩ := Option.isSome_iff_exists.mp hmem
      have hsame := h.held packet.oldSock sock hsock
      rw [hpacket, Option.some.injEq, Holder.accepted.injEq] at hsame
      -- the connection would wait twice
      have hnodup := ((hperm.nodup_iff).mpr h.closes.nodup).of_append_right
      rw [hwaiting, List.nodup_cons, hsame] at hnodup
      exact hnodup.1 (List.mem_map_of_mem (ExtTreeMap.mem_toList_iff_getElem?_eq_some.mpr hsock))
    refine ⟨?_, ?_, h.arriving, ⟨⟨closed, hcloses, ?_⟩, h.closes.nodup, h.closes.acks⟩, h.fresh⟩
    · intro key sock hkey
      dsimp only [ServiceHub.awaitSock] at hkey ⊢
      rw [ExtTreeMap.getElem?_insertIfNew] at hkey
      split at hkey
      · rename_i hboth
        cases hkey
        rw [← LawfulEqCmp.compare_eq_iff_eq.mp hboth.1]
        exact hpacket
      · exact h.held key sock hkey
    · intro other hother
      cases hother
    · have hentries := (Tables.toList_insertIfNew_perm
        (⟨packet.unixSocket, packet.conn⟩ : ExpireSock) habsent).map fun entry => entry.2.conn
      rw [hwaiting] at hperm
      rw [waiting_of_unlocked rfl]
      exact (hentries.append_left closed).trans hperm

theorem SockInv.onPipe {w : HubSystem} (h : w.SockInv) {pipe : Nat}
    {f : PipeState → Option PipeState} {next : HubSystem} (hstep : w.onPipe pipe f = some next) :
    next.SockInv := by
  unfold HubSystem.onPipe at hstep
  split at hstep
  · cases hstep
  · rw [Option.map_eq_some_iff] at hstep
    obtain ⟨p, _, rfl⟩ := hstep
    exact h.of_eq rfl rfl rfl rfl rfl rfl rfl rfl

/-- A step is that of its function, which holds the lock if it takes it. -/
theorem step_cases {w next : HubSystem} {e : HubEvent} (hstep : w.step e = some next) :
    (e.locksHub = true → w.entering = none) ∧ w.perform e = some next := by
  unfold step at hstep
  split at hstep
  · cases hstep
  · rename_i hfree
    refine ⟨?_, hstep⟩
    intro hlocks
    simpa [hlocks] using hfree

theorem SockInv.step {w next : HubSystem} (h : w.SockInv) (e : HubEvent) (hack : w.AcksWaiting e)
    (hstep : w.step e = some next) : next.SockInv := by
  obtain ⟨hlock, hstep⟩ := step_cases hstep
  cases e with
  | acceptIpc pipe tick =>
    simp only [perform] at hstep
    split at hstep
    · cases hstep
    · cases hstep
      exact h.of_eq rfl rfl rfl rfl rfl rfl rfl rfl
  | accept sockId => exact h.accept sockId hstep
  | acceptOther conn unixSocket serviceId serviceOpt nonce tick =>
    exact h.acceptOther (hlock rfl) conn unixSocket serviceId serviceOpt nonce tick hstep
  | acceptEnds => exact h.acceptEnds hstep
  | recv pipe packet tick => exact h.recv (hlock rfl) pipe packet tick hack hstep
  | closePipe pipe =>
    simp only [perform, Option.some.injEq] at hstep
    subst hstep
    exact h.of_eq rfl (expireSocks_erasePipe w.hub pipe) rfl rfl rfl rfl rfl rfl
  | timer tick => exact h.timer (hlock rfl) tick hstep
  | output pipe result =>
    simp only [perform] at hstep
    split at hstep
    · cases hstep
    · split at hstep
      · cases hstep
        exact h.of_eq rfl rfl rfl rfl rfl rfl rfl rfl
      · cases hstep
  | upcall pipe => exact h.onPipe hstep
  | deregister pipe => exact h.onPipe hstep
  | leave pipe => exact h.onPipe hstep
  | finiPipe pipe => exact h.onPipe hstep
  | finiTrans pipe => exact h.onPipe hstep
  | openOther sockId =>
    simp only [perform] at hstep
    split at hstep
    · cases hstep
    · rename_i hfree
      cases hstep
      have hkept : ∀ (fd : Int) (conn : Nat), w.fds[fd]? = some (.accepted conn) →
          (w.fds.insert sockId .other)[fd]? = some (.accepted conn) :=
        fun _ _ hheld => Tables.getElem?_insert_of_free _ hfree hheld
      exact h.of_fds hkept rfl rfl rfl rfl rfl rfl rfl
  | closeOther sockId =>
    simp only [perform] at hstep
    split at hstep
    · rename_i hother
      cases hstep
      have hkept : ∀ (fd : Int) (conn : Nat), w.fds[fd]? = some (.accepted conn) →
          (w.fds.erase sockId)[fd]? = some (.accepted conn) := by
        intro fd conn hheld
        refine Tables.getElem?_erase_of_apart hheld ?_
        rw [hother]
        simp
      exact h.of_fds hkept rfl rfl rfl rfl rfl rfl rfl
    · cases hstep

/-- On every run whose acknowledgements all name a waiting socket, the hub closes
each socket it accepted once and no other. -/
theorem closesOnce_of_run {es : List HubEvent} {w : HubSystem}
    (hguard : Guarded HubSystem.step AcksWaiting init es) (hrun : run HubSystem.step init es = some w) :
    w.ClosesOnce := by
  have hinv : w.SockInv :=
    run_preserves (fun w e next h hack hstep => h.step e hack hstep) sockInv_init hguard hrun
  exact hinv.closes

instance (w : HubSystem) (e : HubEvent) : Decidable (w.AcksWaiting e) := by
  cases e <;> unfold AcksWaiting <;> infer_instance

/-- A service on pipe 1 takes one connection and acknowledges it; another one expires. -/
def ackedAndExpired : List HubEvent :=
  [.acceptIpc 1 0, .recv 1 ⟨3, 77, ⟨0, -1⟩⟩ 10, .accept 5, .acceptOther 0 false 3 0 9 100,
    .acceptEnds, .recv 1 ⟨3, 77, ⟨5100, 5⟩⟩ 200, .accept 5, .acceptOther 1 false 3 0 9 300,
    .acceptEnds, .timer 6000]

theorem closesOnce_of_run_ackedAndExpired :
    ∃ w, run HubSystem.step init ackedAndExpired = some w ∧ w.ClosesOnce := by
  have hsome : (run HubSystem.step init ackedAndExpired).isSome = true := by decide +kernel
  have hguard : Guarded HubSystem.step AcksWaiting init ackedAndExpired := by decide +kernel
  obtain ⟨w, hw⟩ := Option.isSome_iff_exists.mp hsome
  exact ⟨w, hw, closesOnce_of_run hguard hw⟩

/-- The first connection expires, its number goes to a second one, and then the
acknowledgement of the first arrives. -/
def lateAck : List HubEvent :=
  [.acceptIpc 1 0, .recv 1 ⟨3, 77, ⟨0, -1⟩⟩ 10, .accept 5, .acceptOther 0 false 3 0 9 100,
    .acceptEnds, .timer 5100, .accept 5, .acceptOther 1 false 3 0 9 5200, .acceptEnds,
    .recv 1 ⟨3, 77, ⟨5100, 5⟩⟩ 5300]

/-- The late acknowledgement closes the second connection, which is still waiting. -/
theorem not_closesOnce_lateAck :
    ∃ w, run HubSystem.step init lateAck = some w ∧ w.acks = [false] ∧
      w.closes = [some (.accepted 0), some (.accepted 1)] ∧ w.waiting = [1] ∧ ¬ w.ClosesOnce := by
  have hany : ((run HubSystem.step init lateAck).any fun w => decide (w.acks = [false] ∧
      w.closes = [some (.accepted 0), some (.accepted 1)] ∧ w.waiting = [1])) = true := by
    decide +kernel
  obtain ⟨w, hw, hdecide⟩ := (Option.any_eq_true _ _).mp hany
  have hfacts := of_decide_eq_true hdecide
  refine ⟨w, hw, hfacts.1, hfacts.2.1, hfacts.2.2, ?_⟩
  intro honce
  have hack := honce.acks false (by rw [hfacts.1]; exact List.mem_singleton_self _)
  cases hack

end HubSystem

end Pronet.Net
