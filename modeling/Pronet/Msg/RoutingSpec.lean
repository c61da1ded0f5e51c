import Pronet.Msg.Routing

/-! A message reaches the users it names, each as often as it is listed. The packets
between two nodes are followed one hop at a time: what a hop delivers is a list of
users, and the lists of all hops together are the destination list. -/
namespace Pronet.Msg

open Std Rtp Library

/-- What is known of some arrivals: the users they reach, in order, and how often
they call the observer and reach the server. -/
structure Outcome (msg : Received) (users : List MsgUser) (observed hops : Nat)
    (arrivals : List Arrival) : Prop where
  users : arrivals.filterMap Arrival.user? = users
  observed : arrivals.countP Arrival.isObserver = observed
  hops : arrivals.count .serverHop = hops
  fits : ∀ arrival ∈ arrivals, arrival.Fits msg

namespace Outcome

variable {msg : Received}

theorem nil : Outcome msg [] 0 0 [] := ⟨rfl, rfl, rfl, by simp⟩

theorem append {users users' : List MsgUser} {observed observed' hops hops' : Nat}
    {arrivals arrivals' : List Arrival} (h : Outcome msg users observed hops arrivals)
    (h' : Outcome msg users' observed' hops' arrivals') :
    Outcome msg (users ++ users') (observed + observed') (hops + hops') (arrivals ++ arrivals') := by
  refine ⟨?_, ?_, ?_, ?_⟩
  · rw [List.filterMap_append, h.users, h'.users]
  · rw [List.countP_append, h.observed, h'.observed]
  · rw [List.count_append, h.hops, h'.hops]
  · intro arrival harrival
    rcases List.mem_append.mp harrival with harrival | harrival
    · exact h.fits arrival harrival
    · exact h'.fits arrival harrival

theorem forwarded {users : List MsgUser} {observed hops : Nat} {arrivals : List Arrival}
    (h : Outcome msg users observed hops arrivals) {received sent sessionCount dstUserCount : Nat}
    (hsize : sent ≤ received) (hsessions : sessionCount ≤ 255) (husers : dstUserCount ≤ 255) :
    Outcome msg users observed hops
      (.forwarded received sent sessionCount dstUserCount :: arrivals) := by
  refine ⟨h.users, ?_, ?_, ?_⟩
  · rw [List.countP_cons_of_neg (by simp [Arrival.isObserver]), h.observed]
  · rw [List.count_cons_of_ne (by simp), h.hops]
  · intro arrival harrival
    rcases List.mem_cons.mp harrival with rfl | harrival
    · exact ⟨hsize, hsessions, husers⟩
    · exact h.fits arrival harrival

theorem flatMap {α : Type*} {items : List α} {arrivals : α → List Arrival}
    {users : α → List MsgUser} (h : ∀ item ∈ items, Outcome msg (users item) 0 0 (arrivals item)) :
    Outcome msg (items.flatMap users) 0 0 (items.flatMap arrivals) := by
  induction items with
  | nil => exact .nil
  | cons item items ih =>
    have hfirst := h item (List.mem_cons_self)
    have hrest := ih fun other hother => h other (List.mem_cons_of_mem item hother)
    simpa only [List.flatMap_cons, Nat.add_zero] using hfirst.append hrest

theorem client (user : MsgUser) : Outcome msg [user] 0 0 [.client user msg] :=
  ⟨rfl, rfl, rfl, by simp [Arrival.Fits]⟩

theorem c2s (c2sUser : MsgUser) : Outcome msg [] 0 0 [.c2s c2sUser msg] :=
  ⟨rfl, rfl, rfl, by simp [Arrival.Fits]⟩

theorem observer : Outcome msg [] 1 0 [.observer msg] := ⟨rfl, rfl, rfl, by simp [Arrival.Fits]⟩

theorem serverHop : Outcome msg [] 0 1 [.serverHop] := ⟨rfl, rfl, rfl, by simp [Arrival.Fits]⟩

end Outcome

/-- The message `body` of `srcUser`, as it is to arrive. -/
def sent (body : List UInt8) (charset : UInt32) (srcUser : MsgUser) : Received :=
  ⟨body, charset.toNat, srcUser⟩

section Hops

variable {body : List UInt8} {charset : UInt32} {srcUser : MsgUser} {dstUsers : List MsgUser}
  {p : Payload}

theorem Encodes.received (h : Encodes p charset srcUser dstUsers body) :
    (⟨p.slice p.body, p.charset, p.srcUser⟩ : Received) = sent body charset srcUser := by
  rw [h.body, h.charset, h.srcUser, sent]

theorem clientReceive_of_encodes (h : Encodes p charset srcUser dstUsers body)
    (hsrc : srcUser.valid = true) {clients : ExtTreeMap Session Client} {session : Session}
    {user : MsgUser} (hclient : clients[session]? = some (Client.loggedIn session user false)) :
    clientReceive clients session p = [.client user (sent body charset srcUser)] := by
  have hok : p.headerOk = true := h.headerOk.trans hsrc
  unfold clientReceive
  rw [hclient, ← h.received]
  simp [Client.onRecvSession, Client.loggedIn, hok]

variable {node : Node} {ctx : LinkCtx}

/-- The clients behind a node get one copy for each time they are listed. -/
theorem Node.Agrees.sendMsgToDownlink (h : node.Agrees ctx) (hbody : body ≠ [])
    (hsrc : srcUser.valid = true) (users : List MsgUser) {received dstUserCount : Nat}
    (hreceived : 24 + body.length ≤ received) (hmax : received ≤ maxPayloadSize)
    (husers : users.length ≤ 255) (hcount : dstUserCount ≤ 255) :
    Outcome (sent body charset srcUser) (users.filter (· ∈ node.c2s.user2Session)) 0 0
      (node.sendMsgToDownlink received dstUserCount
        (users.filterMap fun user => node.c2s.user2Session[user]?) (sent body charset srcUser)) := by
  obtain ⟨packet, hpacket, henc⟩ := encodes_withoutUsers charset hbody hsrc (by omega)
  have hsize : packet.size.toNat = 24 + body.length := henc.size
  unfold Node.sendMsgToDownlink
  simp only [sent, UInt32.ofNat_toNat, hpacket]
  refine Outcome.forwarded ?_ (by omega) ?_ hcount
  · induction users with
    | nil => exact .nil
    | cons user users ih =>
      have hrest := ih (by simp at husers; omega)
      cases hsession : node.c2s.user2Session[user]? with
      | none =>
        have hnot : ¬ user ∈ node.c2s.user2Session := by
          rw [ExtTreeMap.mem_iff_isSome_getElem?, hsession]
          simp
        rw [List.filterMap_cons_none hsession, List.filter_cons_of_neg (by simpa using hnot)]
        exact hrest
      | some session =>
        have hmem : user ∈ node.c2s.user2Session := by
          rw [ExtTreeMap.mem_iff_isSome_getElem?, hsession]
          rfl
        rw [List.filterMap_cons_some hsession, List.filter_cons_of_pos (by simpa using hmem),
          List.flatMap_cons, clientReceive_of_encodes henc hsrc (h.clients user session hsession)]
        exact (Outcome.client user).append hrest
  · exact (List.length_filterMap_le _ _).trans husers

theorem filter_local_eq_nil {users : List MsgUser}
    (h : (users.filterMap fun user => node.c2s.user2Session[user]?).isEmpty = true) :
    users.filter (· ∈ node.c2s.user2Session) = [] := by
  rw [List.isEmpty_iff, List.filterMap_eq_nil_iff] at h
  rw [List.filter_eq_nil_iff]
  intro user huser
  rw [decide_eq_true_eq, ExtTreeMap.mem_iff_isSome_getElem?, h user huser]
  simp

theorem Node.Agrees.onTransferMsg (h : node.Agrees ctx) (hbody : body ≠ [])
    (hsrc : srcUser.valid = true) (users : List MsgUser) {received : Nat}
    (hreceived : 24 + body.length ≤ received) (hmax : received ≤ maxPayloadSize)
    (husers : users.length ≤ 255) :
    Outcome (sent body charset srcUser) (users.filter (· ∈ node.c2s.user2Session)) 0 0
      (node.onTransferMsg received (sent body charset srcUser) users) := by
  unfold Node.onTransferMsg
  dsimp only
  split
  · rename_i hempty
    rw [h.msgClient, Bool.not_true, Bool.or_false] at hempty
    rw [filter_local_eq_nil hempty]
    exact .nil
  · exact h.sendMsgToDownlink hbody hsrc users hreceived hmax husers husers

/-- A packet on the uplink goes to the users of the node that it names. -/
theorem Node.Agrees.receive (h : node.Agrees ctx) (hctx : ctx.WellFormed) (hbody : body ≠ [])
    (hsrc : srcUser.valid = true) (henc : Encodes p charset srcUser dstUsers body)
    (hcount : dstUsers.length ≤ 255) (hmax : p.size.toNat ≤ maxPayloadSize) :
    Outcome (sent body charset srcUser) (dstUsers.filter (· ∈ ctx.subUsers)) 0 0
      (node.receive ctx.session p) := by
  have hok : p.headerOk = true := henc.headerOk.trans hsrc
  have hsize := henc.size
  have hpos : 0 < dstUsers.length := henc.dstUserCount ▸ p.dstUserCount_pos
  have hread : (p.dstEntries.map MsgAccess.readDstUser).flatMap (node.access p) = [] := by
    simp [List.flatMap_map, Node.access]
  have haccess : (node.client.onRecvSession ctx.session p).2 =
      p.dstEntries.map .readDstUser ++
        ((if (node.client.transferUsers p).length ≠ p.dstUserCount - Client.badUserCount p then
          [.onRecvMsg p.body p.charset p.srcUser] else []) ++
        (if (node.client.transferUsers p).isEmpty then []
          else [.onTransferMsg p.body p.charset p.srcUser (node.client.transferUsers p)])) := by
    rw [h.client]
    simp [Client.onRecvSession, Client.loggedIn, hok]
  -- The node itself is not one of its users, and its users are all well formed.
  have hsame : (node.client.transferUsers p).filter (· ∈ node.c2s.user2Session) =
      dstUsers.filter (· ∈ ctx.subUsers) := by
    unfold Client.transferUsers
    rw [henc.dstUsers, h.client, List.filter_filter]
    apply List.filter_congr
    intro user _
    simp only [h.users, Client.loggedIn]
    by_cases hsub : user ∈ ctx.subUsers
    · have hne : user ≠ ctx.baseUser := fun heq => hctx.base_not_sub (heq ▸ hsub)
      simp [hsub, hctx.sub_valid user hsub, hne]
    · simp [hsub]
  have hlength : (node.client.transferUsers p).length ≤ 255 := by
    have hle : (node.client.transferUsers p).length ≤ p.dstUsers.length := List.length_filter_le _ _
    rw [henc.dstUsers] at hle
    omega
  have hself : Outcome (sent body charset srcUser) [] 0 0
      ((if (node.client.transferUsers p).length ≠ p.dstUserCount - Client.badUserCount p then
        [MsgAccess.onRecvMsg p.body p.charset p.srcUser] else []).flatMap (node.access p)) := by
    split
    · simpa [Node.access, henc.received] using Outcome.c2s node.c2s.c2sUser
    · exact .nil
  have htransfer : Outcome (sent body charset srcUser) (dstUsers.filter (· ∈ ctx.subUsers)) 0 0
      ((if (node.client.transferUsers p).isEmpty then []
        else [MsgAccess.onTransferMsg p.body p.charset p.srcUser (node.client.transferUsers p)]).flatMap
          (node.access p)) := by
    rw [← hsame]
    split
    · rename_i hempty
      rw [List.isEmpty_iff.mp hempty]
      exact .nil
    · simp only [List.flatMap_cons, List.flatMap_nil, List.append_nil, Node.access, henc.received]
      exact h.onTransferMsg hbody hsrc _ (by omega) hmax hlength
  unfold Node.receive
  rw [haccess, List.flatMap_append, List.flatMap_append, hread]
  simpa using hself.append htransfer

/-- A packet of the server at the other end of a link. -/
theorem Network.Agrees.receive {n : Network} (h : n.Agrees) {ptr : CtxPtr}
    (hptr : n.server.heap[ptr]? = some ctx) (hbody : body ≠ []) (hsrc : srcUser.valid = true)
    (henc : Encodes p charset srcUser dstUsers body) (hcount : dstUsers.length ≤ 255)
    (hmax : p.size.toNat ≤ maxPayloadSize) :
    Outcome (sent body charset srcUser)
      (if ctx.isC2s then dstUsers.filter (· ∈ ctx.subUsers) else [ctx.baseUser]) 0 0
      (n.receive ctx.session p) := by
  unfold Network.receive
  cases hc2s : ctx.isC2s with
  | true =>
    obtain ⟨node, hnode, hagrees⟩ := h.c2s ptr ctx hptr hc2s
    rw [hnode]
    exact hagrees.receive (h.tables.ctx_wellFormed ptr ctx hptr) hbody hsrc henc hcount hmax
  | false =>
    obtain ⟨hnode, hclient⟩ := h.direct ptr ctx hptr hc2s
    rw [hnode]
    dsimp only
    rw [clientReceive_of_encodes henc hsrc hclient]
    exact Outcome.client ctx.baseUser

end Hops

theorem valid_of_isRoot {user : MsgUser} (h : user.isRoot = true) : user.valid = true := by
  simp only [MsgUser.isRoot, Bool.and_eq_true, beq_iff_eq] at h
  simp [MsgUser.valid, h.1, h.2]

namespace Server

/-- The context that the server looks up for a destination. -/
def dstCtx? (s : Server) (dstUser : MsgUser) : Option LinkCtx :=
  if dstUser.valid && !dstUser.isRoot then
    (s.user2Ctx[dstUser]?).bind fun ptr => s.heap[ptr]?
  else none

def baseSession? (s : Server) (dstUser : MsgUser) : Option Session :=
  (s.dstCtx? dstUser).bind fun ctx => if dstUser = ctx.baseUser then some ctx.session else none

def subSession? (s : Server) (dstUser : MsgUser) : Option Session :=
  (s.dstCtx? dstUser).bind fun ctx => if dstUser = ctx.baseUser then none else some ctx.session

/-- What the destination loop has made of `dstUsers`. -/
structure Routed (s : Server) (dstUsers : List MsgUser) (routing : Routing) : Prop where
  toRoot : routing.toRoot = dstUsers.any toRoot
  sessions : routing.sessions = dstUsers.filterMap s.baseSession?
  groups : ∀ link : Session, (routing.session2Users[link]?).getD [] =
    dstUsers.filter fun dstUser => s.subSession? dstUser = some link
  nonempty : ∀ link : Session, routing.session2Users[link]? ≠ some []

/-- The loop passes over a user without a context. -/
theorem Routed.skip {s : Server} {dstUsers : List MsgUser} {routing : Routing}
    (h : s.Routed dstUsers routing) {dstUser : MsgUser} (hnone : s.dstCtx? dstUser = none)
    {next : Routing} (hroot : next.toRoot = (routing.toRoot || Msg.toRoot dstUser))
    (hsessions : next.sessions = routing.sessions)
    (hgroups : next.session2Users = routing.session2Users) :
    s.Routed (dstUsers ++ [dstUser]) next := by
  refine ⟨?_, ?_, ?_, ?_⟩
  · rw [hroot, h.toRoot]
    simp
  · rw [hsessions, h.sessions, List.filterMap_append]
    simp [baseSession?, hnone]
  · intro link
    rw [hgroups, h.groups, List.filter_append]
    simp [subSession?, hnone]
  · rw [hgroups]
    exact h.nonempty

theorem TableInv.routed_routeUser {s : Server} (hinv : s.TableInv) {dstUsers : List MsgUser}
    {routing : Routing} (h : s.Routed dstUsers routing) (dstUser : MsgUser) :
    ∃ next, s.routeUser routing dstUser = some next ∧ s.Routed (dstUsers ++ [dstUser]) next := by
  have hinvalid : dstUser.valid = false → Msg.toRoot dstUser = false := by
    intro hvalid
    have hroot : dstUser.isRoot = false := by
      by_contra hroot
      exact absurd (hvalid.symm.trans (valid_of_isRoot (by simpa using hroot))) (by simp)
    simp [Msg.toRoot, hroot]
  unfold Server.routeUser
  split
  · rename_i hvalid
    have hvalid : dstUser.valid = false := by simpa using hvalid
    exact ⟨routing, rfl, h.skip (by simp [dstCtx?, hvalid]) (by simp [hinvalid hvalid]) rfl rfl⟩
  · rename_i hvalid
    have hvalid : dstUser.valid = true := by simpa using hvalid
    split
    · rename_i hroot
      refine ⟨_, rfl, h.skip (by simp [dstCtx?, hroot]) ?_ ?_ ?_⟩
      · unfold Msg.toRoot
        split
        · rename_i hport
          simp [hport]
        · rename_i hport
          simp [hroot, hport]
      · split <;> rfl
      · split <;> rfl
    · rename_i hroot
      have hnotRoot : Msg.toRoot dstUser = false := by simp [Msg.toRoot, hroot]
      split
      · rename_i ptr hptr
        obtain ⟨ctx, hctx, -⟩ := hinv.user_ctx dstUser ptr hptr
        have hdst : s.dstCtx? dstUser = some ctx := by simp [dstCtx?, hvalid, hroot, hptr, hctx]
        simp only [hctx, Option.bind_eq_bind, Option.bind_some]
        split
        · rename_i hbase
          refine ⟨_, rfl, ?_, ?_, ?_, h.nonempty⟩
          · simp [h.toRoot, hnotRoot]
          · simp [h.sessions, baseSession?, hdst, ← hbase]
          · intro link
            simp [h.groups, subSession?, hdst, ← hbase]
        · rename_i hbase
          refine ⟨_, rfl, ?_, ?_, ?_, ?_⟩
          · simp [h.toRoot, hnotRoot]
          · simp [h.sessions, baseSession?, hdst, hbase]
          · intro link
            rw [List.filter_append, ← h.groups link, ExtTreeMap.getElem?_insert]
            by_cases hlink : ctx.session = link
            · simp [hlink, subSession?, hdst, hbase]
            · simp [hlink, subSession?, hdst, hbase]
          · intro link
            rw [ExtTreeMap.getElem?_insert]
            split
            · simp
            · exact h.nonempty link
      · rename_i hptr
        have hnone : s.user2Ctx[dstUser]? = none := Option.eq_none_iff_forall_ne_some.mpr hptr
        exact ⟨routing, rfl, h.skip (by simp [dstCtx?, hnone]) (by simp [hnotRoot]) rfl rfl⟩

theorem TableInv.routed {s : Server} (hinv : s.TableInv) (rest : List MsgUser)
    {dstUsers : List MsgUser} {routing : Routing} (h : s.Routed dstUsers routing) :
    ∃ final, rest.foldlM s.routeUser routing = some final ∧ s.Routed (dstUsers ++ rest) final := by
  induction rest generalizing dstUsers routing with
  | nil => exact ⟨routing, rfl, by simpa using h⟩
  | cons dstUser rest ih =>
    obtain ⟨next, hnext, hrouted⟩ := hinv.routed_routeUser h dstUser
    obtain ⟨final, hfinal, hall⟩ := ih hrouted
    refine ⟨final, ?_, by simpa using hall⟩
    rw [List.foldlM_cons, hnext]
    exact hfinal

theorem TableInv.dstCtx? {s : Server} (h : s.TableInv) {dstUser : MsgUser} {ctx : LinkCtx}
    (hctx : s.dstCtx? dstUser = some ctx) :
    ∃ ptr : CtxPtr, s.heap[ptr]? = some ctx ∧ dstUser ∈ ctx.users := by
  unfold Server.dstCtx? at hctx
  split at hctx
  · obtain ⟨ptr, hptr, hheap⟩ := Option.bind_eq_some_iff.mp hctx
    obtain ⟨dtx, hdtx, hmem⟩ := h.user_ctx dstUser ptr hptr
    rw [hheap, Option.some.injEq] at hdtx
    subst hdtx
    exact ⟨ptr, hheap, hmem⟩
  · cases hctx

theorem TableInv.subSession? {s : Server} (h : s.TableInv) {dstUser : MsgUser} {link : Session}
    (hlink : s.subSession? dstUser = some link) :
    ∃ (ptr : CtxPtr) (ctx : LinkCtx), s.heap[ptr]? = some ctx ∧ ctx.session = link ∧
      dstUser ∈ ctx.subUsers := by
  obtain ⟨ctx, hctx, hsession⟩ := Option.bind_eq_some_iff.mp hlink
  obtain ⟨ptr, hptr, hmem⟩ := h.dstCtx? hctx
  split at hsession
  · cases hsession
  · rename_i hbase
    rw [LinkCtx.mem_users] at hmem
    exact ⟨ptr, ctx, hptr, Option.some.inj hsession, hmem.resolve_left hbase⟩

/-- A session has one context. -/
theorem TableInv.ctx_of_session {s : Server} (h : s.TableInv) {p q : CtxPtr} {ctx dtx : LinkCtx}
    (hp : s.heap[p]? = some ctx) (hq : s.heap[q]? = some dtx) (hsame : ctx.session = dtx.session) :
    ctx = dtx := by
  have hptr := h.ctx_session p ctx hp
  rw [hsame, h.ctx_session q dtx hq, Option.some.injEq] at hptr
  subst hptr
  exact Option.some.inj (hp.symm.trans hq)

/-- The server accepts what a link sends for one of its users. -/
theorem TableInv.onRecvSession_eq {s : Server} (h : s.TableInv) {session : Session} {ctx : LinkCtx}
    (hctx : LoginSystem.linkCtx? session s = some ctx) {p : Payload} (hok : p.headerOk = true)
    (hsrc : p.srcUser ∈ ctx.users) :
    ∃ fromC2s routing, s.onRecvSession session p =
      some (p.dstEntries.map .readDstUser ++ forward p fromC2s routing) ∧
      s.Routed p.dstUsers routing := by
  have hstart : s.Routed [] ⟨false, false, [], ∅⟩ := ⟨rfl, rfl, by simp, by simp⟩
  obtain ⟨ptr, hsession, hheap⟩ := LoginSystem.linkCtx?_eq_some.mp hctx
  obtain ⟨routing, hfold, hrouted⟩ := h.routed p.dstUsers hstart
  have hspeaks : ¬ (p.srcUser ≠ ctx.baseUser && p.srcUser ∉ ctx.subUsers) = true := by
    rw [LinkCtx.mem_users] at hsrc
    simpa using fun hne => hsrc.resolve_left hne
  refine ⟨ctx.isC2s && p.srcUser.classId = serverCid && p.srcUser = ctx.baseUser, routing, ?_,
    by simpa using hrouted⟩
  unfold Server.onRecvSession
  simp only [hok, hsession, hheap, Bool.not_true, Bool.false_eq_true, if_false, hspeaks, hfold,
    Option.bind_eq_bind, Option.bind_some, Option.pure_def]

end Server

namespace Network

/-- A destination that gets its copy from the server itself. -/
def isBase (n : Network) (dstUser : MsgUser) : Bool :=
  match n.server.dstCtx? dstUser with
  | none => false
  | some ctx => dstUser = ctx.baseUser && !ctx.isC2s

section ServerHop

variable {n : Network} {body : List UInt8} {charset : UInt32} {srcUser : MsgUser}
  {dstUsers : List MsgUser} {p : Payload}

/-- The packet without destinations, for the base users. -/
theorem Agrees.receive_bases (h : n.Agrees) (hbody : body ≠ []) (hsrc : srcUser.valid = true)
    (henc : Encodes p charset srcUser [zeroUser] body) (hmax : p.size.toNat ≤ maxPayloadSize)
    (dstUsers : List MsgUser) :
    Outcome (sent body charset srcUser) (dstUsers.filter n.isBase) 0 0
      ((dstUsers.filterMap n.server.baseSession?).flatMap fun session => n.receive session p) := by
  induction dstUsers with
  | nil => exact .nil
  | cons dstUser dstUsers ih =>
    cases hctx : n.server.dstCtx? dstUser with
    | none =>
      have hnone : n.server.baseSession? dstUser = none := by simp [Server.baseSession?, hctx]
      rw [List.filterMap_cons_none hnone, List.filter_cons_of_neg (by simp [isBase, hctx])]
      exact ih
    | some ctx =>
      by_cases hbase : dstUser = ctx.baseUser
      · obtain ⟨ptr, hptr, -⟩ := h.tables.dstCtx? hctx
        have hsome : n.server.baseSession? dstUser = some ctx.session := by
          simp [Server.baseSession?, hctx, ← hbase]
        have hfirst := h.receive hptr hbody hsrc henc (by simp) hmax
        have hzero : [zeroUser].filter (· ∈ ctx.subUsers) = [] := by
          have hnot : zeroUser ∉ ctx.subUsers := fun hmem =>
            absurd ((h.tables.ctx_wellFormed ptr ctx hptr).sub_valid zeroUser hmem) (by decide)
          simp [hnot]
        rw [hzero] at hfirst
        have husers : (dstUser :: dstUsers).filter n.isBase =
            (if ctx.isC2s then [] else [ctx.baseUser]) ++ dstUsers.filter n.isBase := by
          cases hc2s : ctx.isC2s with
          | true => exact List.filter_cons_of_neg (by simp [isBase, hctx, hc2s])
          | false =>
            rw [List.filter_cons_of_pos (by simp [isBase, hctx, hc2s, ← hbase]), ← hbase]
            rfl
        rw [List.filterMap_cons_some hsome, husers, List.flatMap_cons]
        exact hfirst.append ih
      · have hnone : n.server.baseSession? dstUser = none := by
          simp [Server.baseSession?, hctx, hbase]
        rw [List.filterMap_cons_none hnone, List.filter_cons_of_neg (by simp [isBase, hctx, hbase])]
        exact ih

/-- A group of the server is made of users of one node. -/
theorem Agrees.receive_group (h : n.Agrees) {link : Session} {users : List MsgUser}
    (hne : users ≠ []) (hlink : ∀ user ∈ users, n.server.subSession? user = some link)
    (hbody : body ≠ []) (hsrc : srcUser.valid = true)
    (henc : Encodes p charset srcUser users body) (hcount : users.length ≤ 255)
    (hmax : p.size.toNat ≤ maxPayloadSize) :
    Outcome (sent body charset srcUser) users 0 0 (n.receive link p) := by
  obtain ⟨first, hfirst⟩ := List.exists_mem_of_ne_nil users hne
  obtain ⟨ptr, ctx, hptr, rfl, hsub⟩ := h.tables.subSession? (hlink first hfirst)
  have hall : users.filter (· ∈ ctx.subUsers) = users := by
    rw [List.filter_eq_self]
    intro user huser
    obtain ⟨other, dtx, hother, hsame, hmem⟩ := h.tables.subSession? (hlink user huser)
    rw [h.tables.ctx_of_session hother hptr hsame] at hmem
    simpa using hmem
  have hc2s := ((h.tables.ctx_wellFormed ptr ctx hptr).sub_c2s first hsub).1
  have hreceive := h.receive hptr hbody hsrc henc hcount hmax
  rw [if_pos hc2s, hall] at hreceive
  exact hreceive

/-- What the server sends on is the message it got. -/
theorem serverAccess_send (henc : Encodes p charset srcUser dstUsers body) (sessions : List Session)
    {users : List MsgUser} {packet : Payload}
    (hpacket : Msg.sendMsgToDownlink body charset srcUser users none = some packet) :
    n.serverAccess p (.sendMsgToDownlink sessions p.body p.charset p.srcUser users) =
      .forwarded p.size.toNat packet.size.toNat sessions.length users.length ::
        sessions.flatMap fun session => n.receive session packet := by
  have hmsg : n.serverAccess p (.sendMsgToDownlink sessions p.body p.charset p.srcUser users) =
      n.sendMsgToDownlink p.size.toNat sessions (sent body charset srcUser) users := by
    rw [← henc.received, serverAccess]
  rw [hmsg, sendMsgToDownlink]
  simp only [sent, UInt32.ofNat_toNat, hpacket]

theorem Agrees.serverAccess_bases (h : n.Agrees) (hbody : body ≠ []) (hsrc : srcUser.valid = true)
    (henc : Encodes p charset srcUser dstUsers body) (hcount : dstUsers.length ≤ 255)
    (hmax : p.size.toNat ≤ maxPayloadSize) {sessions : List Session}
    (hsessions : sessions = dstUsers.filterMap n.server.baseSession?) :
    Outcome (sent body charset srcUser) (dstUsers.filter n.isBase) 0 0
      ((if sessions.isEmpty then []
        else [.sendMsgToDownlink sessions p.body p.charset p.srcUser []]).flatMap
          (n.serverAccess p)) := by
  have hsize := henc.size
  have hpos : 0 < dstUsers.length := henc.dstUserCount ▸ p.dstUserCount_pos
  obtain ⟨packet, hpacket, hpacketEnc⟩ := encodes_withoutUsers charset hbody hsrc (by omega)
  have hpacketSize : packet.size.toNat = 24 + body.length := hpacketEnc.size
  have hbases := h.receive_bases hbody hsrc hpacketEnc (by omega) dstUsers
  rw [← hsessions] at hbases
  split
  · rename_i hempty
    rw [List.isEmpty_iff.mp hempty] at hbases
    exact hbases
  · rw [List.flatMap_cons, List.flatMap_nil, List.append_nil, serverAccess_send henc sessions hpacket]
    refine hbases.forwarded (by omega) ?_ (by simp)
    rw [hsessions]
    exact (List.length_filterMap_le _ _).trans hcount

theorem Agrees.serverAccess_groups (h : n.Agrees) (hbody : body ≠ []) (hsrc : srcUser.valid = true)
    (henc : Encodes p charset srcUser dstUsers body) (hcount : dstUsers.length ≤ 255)
    (hmax : p.size.toNat ≤ maxPayloadSize) {routing : Routing}
    (hrouted : n.server.Routed dstUsers routing) :
    Outcome (sent body charset srcUser) (routing.session2Users.toList.flatMap Prod.snd) 0 0
      ((routing.session2Users.toList.map fun (session, users) =>
        .sendMsgToDownlink [session] p.body p.charset p.srcUser users).flatMap
          (n.serverAccess p)) := by
  have hsize := henc.size
  rw [List.flatMap_map]
  apply Outcome.flatMap
  rintro ⟨link, users⟩ hentry
  rw [ExtTreeMap.mem_toList_iff_getElem?_eq_some] at hentry
  have hgroup : users = dstUsers.filter fun dstUser => n.server.subSession? dstUser = some link := by
    rw [← hrouted.groups link, hentry]
    rfl
  have hne : users ≠ [] := by
    rintro rfl
    exact hrouted.nonempty link hentry
  have hlength : users.length ≤ dstUsers.length := by
    rw [hgroup]
    exact List.length_filter_le _ _
  have hpos : 0 < users.length := List.length_pos_iff.mpr hne
  obtain ⟨packet, hpacket, hpacketEnc⟩ := encodes_sendMsgToDownlink charset hbody hsrc
    (hlength.trans hcount) (by omega)
  rw [if_neg (by simpa using hne)] at hpacketEnc
  have hpacketSize := hpacketEnc.size
  dsimp only
  rw [serverAccess_send henc [link] hpacket, List.flatMap_cons, List.flatMap_nil, List.append_nil]
  have hlink : ∀ user ∈ users, n.server.subSession? user = some link := by
    rw [hgroup]
    simp
  have hreceive := h.receive_group hne hlink hbody hsrc hpacketEnc (by omega) (by omega)
  exact hreceive.forwarded (by omega) (by simp) (by omega)

/-- One hop through the server. -/
theorem Agrees.serverReceive (h : n.Agrees) (hbody : body ≠ []) {session : Session} {ctx : LinkCtx}
    (hctx : LoginSystem.linkCtx? session n.server = some ctx) (hsrc : srcUser ∈ ctx.users)
    (henc : Encodes p charset srcUser dstUsers body) (hcount : dstUsers.length ≤ 255)
    (hmax : p.size.toNat ≤ maxPayloadSize) :
    ∃ arrivals routing, n.serverReceive session p = some arrivals ∧
      n.server.Routed dstUsers routing ∧
      Outcome (sent body charset srcUser)
        (dstUsers.filter n.isBase ++ routing.session2Users.toList.flatMap Prod.snd)
        (if dstUsers.any toRoot then 1 else 0) 1 arrivals := by
  have hvalid : srcUser.valid = true := by
    obtain ⟨ptr, -, hptr⟩ := LoginSystem.linkCtx?_eq_some.mp hctx
    have hwell := h.tables.ctx_wellFormed ptr ctx hptr
    rcases LinkCtx.mem_users.mp hsrc with rfl | hsub
    · exact hwell.base_valid
    · exact hwell.sub_valid srcUser hsub
  obtain ⟨fromC2s, routing, haccesses, hrouted⟩ := h.tables.onRecvSession_eq hctx
    (henc.headerOk.trans hvalid) (henc.srcUser ▸ hsrc)
  rw [henc.dstUsers] at hrouted
  refine ⟨_, routing, by rw [Network.serverReceive, haccesses]; rfl, hrouted, ?_⟩
  have hread : (p.dstEntries.map MsgAccess.readDstUser).flatMap (n.serverAccess p) = [] := by
    simp [List.flatMap_map, serverAccess]
  have hbases := h.serverAccess_bases hbody hvalid henc hcount hmax hrouted.sessions
  have hgroups := h.serverAccess_groups hbody hvalid henc hcount hmax hrouted
  have hconfigs : (if routing.toC2sPort && fromC2s then
      [MsgAccess.stringToConfigs ⟨p.msgHeaderSize, p.msgBodySize⟩] else []).flatMap
        (n.serverAccess p) = [] := by
    split <;> rfl
  have hroot : Outcome (sent body charset srcUser) [] (if dstUsers.any toRoot then 1 else 0) 0
      ((if routing.toRoot then [MsgAccess.onRecvMsg p.body p.charset p.srcUser] else []).flatMap
        (n.serverAccess p)) := by
    rw [hrouted.toRoot]
    split
    · simpa [serverAccess, henc.received] using Outcome.observer
    · exact .nil
  rw [List.flatMap_append, hread, Server.forward, List.flatMap_append, List.flatMap_append,
    List.flatMap_append, hconfigs]
  simpa using Outcome.serverHop.append ((hbases.append hgroups).append hroot)

end ServerHop

section NodeHop

variable {n : Network} {body : List UInt8} {charset : UInt32} {srcUser : MsgUser}
  {dstUsers : List MsgUser} {p : Payload} {ctx : LinkCtx} {node : Node} {ptr : CtxPtr}

end NodeHop

end Network

end Pronet.Msg
