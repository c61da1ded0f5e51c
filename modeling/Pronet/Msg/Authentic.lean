import Pronet.Msg.LoginAgreement
import Pronet.Msg.LoginFirst

/-! Nobody speaks for another user, and nobody but the server sends control messages, as
long as the login responses come first. The observer of the server keeps the reserved
ids to itself and answers `isC2s` for c2s nodes only. -/
namespace Pronet.Msg

open Std Library Runs

/-- A message of a user, found on a session of this user by the first node. -/
def Vouched (srcUser : MsgUser) (origin : Origin) : Prop :=
  ∃ node session, origin = .session node session srcUser

def upTrust : Trust := fun srcUser origin =>
  (origin = .server ∧ srcUser.isRoot = true) ∨ (srcUser.isRoot = false ∧ Vouched srcUser origin)

def downTrust : Trust := fun srcUser origin =>
  (origin = .server ∧ srcUser.isRoot = true) ∨ Vouched srcUser origin

theorem downTrust_of_upTrust (srcUser : MsgUser) (origin : Origin) (h : upTrust srcUser origin) :
    downTrust srcUser origin := by
  rcases h with h | h
  · exact Or.inl h
  · exact Or.inr h.2

/-- The user that `OnCheckUser` has let in. -/
def Task.checked? (check : Option CheckResult) : Task → Option MsgUser
  | .onAcceptSession _ asked _ => check.map fun result => result.apply asked
  | .onRecvSession _ _ (.clientLogin _ clientId _ _ _) => check.map fun result => result.apply clientId
  | _ => none

theorem Downlink.same_read {d next : Downlink} {session : Session} {reports : List Report}
    (h : d.read session = some (next, reports)) : next.user = d.user ∧ next.peer = d.peer := by
  unfold Downlink.read at h
  split at h
  · cases h
  · simp only [Option.some.injEq, Prod.mk.injEq] at h
    obtain ⟨rfl, -⟩ := h
    exact ⟨rfl, rfl⟩

namespace NodeState

/-- The node passes on what its users have said. -/
def OutboxOk (node : NodeState) : Prop :=
  ∀ item ∈ node.outbox, ∀ srcUser origin, item.source = some (srcUser, origin) →
    Vouched srcUser origin

theorem OutboxOk.withCalls {node : NodeState} (h : node.OutboxOk) (t : Texts) (asked : MsgUser)
    (r : C2s × List C2sCall) : (node.withCalls t asked r).OutboxOk := by
  obtain ⟨c2s, calls⟩ := r
  unfold NodeState.withCalls
  have hstart : OutboxOk { node with c2s := c2s } := h
  dsimp only
  generalize ({ node with c2s := c2s } : NodeState) = start at hstart
  induction calls generalizing start with
  | nil => exact hstart
  | cons call calls ih =>
    rw [List.foldl_cons]
    apply ih
    cases call with
    | sendMsg msg =>
      intro item hitem srcUser origin hsource
      rcases List.mem_append.mp hitem with hitem | hitem
      · exact hstart item hitem srcUser origin hsource
      · rw [List.mem_singleton.mp hitem] at hsource
        cases hsource
    | _ => exact hstart

theorem OutboxOk.handle (t : Texts) (user : MsgUser) (packet : Packet)
    (created : Option (Session × String)) (sent : Bool) (asked : MsgUser)
    (accesses : List MsgAccess) {r : NodeState × List Report} (h : r.1.OutboxOk) :
    (accesses.foldl (NodeState.handle t user packet created sent asked) r).1.OutboxOk := by
  induction accesses generalizing r with
  | nil => exact h
  | cons access accesses ih =>
    rw [List.foldl_cons]
    apply ih
    cases access with
    | onRecvMsg body charset srcUser =>
      simp only [NodeState.handle]
      split
      · exact h
      · split
        · exact h
        · exact h.withCalls t asked _
    | onTransferMsg body charset srcUser dstUsers =>
      simp only [NodeState.handle]
      split <;> exact h
    | _ => exact h

theorem OutboxOk.userSend {node : NodeState} (h : node.OutboxOk) (id : Nat) (session : Session)
    (p : Payload) : (node.userSend id session p).OutboxOk := by
  intro item hitem srcUser origin hsource
  rcases List.mem_append.mp hitem with hitem | hitem
  · exact h item hitem srcUser origin hsource
  · obtain ⟨access, haccess, hsome⟩ := List.mem_filterMap.mp hitem
    obtain ⟨huser, hfrom⟩ := node.c2s.from_onRecvSession haccess
    split at hsome
    · cases hsome
      cases hfrom
      cases hsource
      rw [huser, Option.getD_some]
      exact ⟨_, _, rfl⟩
    · cases hsome

end NodeState

/-- Only a login that is arriving makes a user connected. -/
theorem arriving_of_settled {user : MsgUser} {msgs : List DownMsg}
    (h : settled user false msgs = true) : arriving user msgs = true := by
  by_contra hnot
  rw [Bool.not_eq_true] at hnot
  rw [settled_of_not_arriving hnot] at h
  cases h

theorem Task.checked?_of_admits? {task : Task} {check : Option CheckResult}
    {c2sUser user : MsgUser} (h : task.admits? check c2sUser = some user) :
    task.checked? check = some user := by
  unfold Task.admits? at h
  split at h
  · split at h
    · exact h
    · cases h
  · cases h

/-- A task that opens no link does nothing, or it needs no new session. -/
theorem runTask_of_unopened {s : Server} {input : TaskInput} {task : Task}
    {r : Server × List ServerCall} (hr : s.runTask input task = some r) (hnone : opened r.2 = none) :
    r = (s, []) ∨ s.runTask { input with newSession := none } task = some r := by
  cases task with
  | onAcceptSession sessionType asked remoteIp =>
    left
    simp only [Server.runTask, Server.asyncOnAcceptSession] at hr
    split at hr
    · exact (Option.some.inj hr).symm
    · split at hr
      · split at hr
        · exact (Option.some.inj hr).symm
        · unfold Server.addBaseUser at hr
          split at hr
          · exact (Option.some.inj hr).symm
          · split at hr
            · obtain ⟨old, hold, hr⟩ := Option.bind_eq_some_iff.mp hr
              cases hr
              simp only [opened_append, opened_removeOld hold, opened_closeUsers,
                Option.none_or] at hnone
              cases hnone
            · exact (Option.some.inj hr).symm
      · exact (Option.some.inj hr).symm
  | onRecvSession session c2sUser msg =>
    right
    cases msg <;> exact hr
  | kickoutUser user => exact Or.inr hr
  | onCloseSession session errorCode sslCode => exact Or.inr hr

/-- The link was there before a task, and only the user that the task has let in is new. -/
structure Task.Keeps (task : Task) (check : Option CheckResult) (ctx ctx' : LinkCtx) : Prop where
  base : ctx'.baseUser = ctx.baseUser
  isC2s : ctx'.isC2s = ctx.isC2s
  sub : ∀ user ∈ ctx'.subUsers, user ∈ ctx.subUsers ∨ task.checked? check = some user

namespace LoginSystem

theorem TaskFrame.keeps {link : Session} {s next : Server} {check : Option CheckResult}
    {task : Task} {msgs : List DownMsg} (h : TaskFrame link s next check task msgs) {ctx' : LinkCtx}
    (hctx' : linkCtx? link next = some ctx') :
    ∃ ctx, linkCtx? link s = some ctx ∧ task.Keeps check ctx ctx' := by
  obtain ⟨ctx, hctx, hbase, hc2s, hsub, hannounces⟩ := h.linked ctx' hctx'
  refine ⟨ctx, hctx, hbase, hc2s, fun user huser => ?_⟩
  by_cases hold : user ∈ ctx.subUsers
  · exact Or.inl hold
  · have hsettled := ((hsub user).mp huser).1
    rw [decide_eq_false hold] at hsettled
    obtain ⟨msg, hmsg, hlogin⟩ := List.any_eq_true.mp (arriving_of_settled hsettled)
    have hannounce := hannounces msg hmsg
    cases msg with
    | clientLoginOk clientIndex clientId =>
      simp only [decide_eq_true_eq] at hlogin
      subst hlogin
      exact Or.inr (Task.checked?_of_admits? hannounce)
    | clientLoginError clientIndex => cases hlogin
    | clientKickout clientId => cases hlogin

/-- A link after a task is the one the task has opened, or it was there before. -/
theorem linkCtx?_runTask {s : Server} (h : s.TableInv) {input : TaskInput} {task : Task}
    {r : Server × List ServerCall} (hr : s.runTask input task = some r) (hptr : input.ptr ∉ s.heap)
    (hnew : ∀ created ∈ input.newSession, created ∉ s.session2Ctx) {session : Session}
    {ctx' : LinkCtx} (hctx' : linkCtx? session r.1 = some ctx') :
    (opened r.2).map Pending.session = some session ∨
      (opened r.2).map Pending.session ≠ some session ∧
        ∃ ctx, linkCtx? session s = some ctx ∧ task.Keeps input.check ctx ctx' := by
  by_cases hopens : (opened r.2).map Pending.session = some session
  · exact Or.inl hopens
  refine Or.inr ⟨hopens, ?_⟩
  cases hopened : opened r.2 with
  | none =>
    rcases runTask_of_unopened hr hopened with rfl | hrun
    · exact ⟨ctx', hctx', rfl, rfl, fun _ huser => Or.inl huser⟩
    · have hfresh : FreshInput session s { input with newSession := none } := ⟨hptr, by simp⟩
      exact (taskFrame_runTask h hfresh hrun).2.keeps hctx'
  | some pending =>
    have hfresh : FreshInput session s input := by
      refine ⟨hptr, fun created hcreated => ⟨hnew created hcreated, ?_⟩⟩
      rw [(opening_runTask hr hopened).newSession, Option.mem_some_iff] at hcreated
      rintro rfl
      exact hopens (by rw [hopened, Option.map_some, hcreated])
    exact (taskFrame_runTask h hfresh hr).2.keeps hctx'

end LoginSystem

/-- The context of a link that has been opened. -/
theorem Opening.linkCtx? {s : Server} {input : TaskInput} {task : Task}
    {r : Server × List ServerCall} {pending : Pending} (h : Opening s input task r pending)
    {ctx : LinkCtx} (hctx : LoginSystem.linkCtx? pending.session r.1 = some ctx) :
    ctx.baseUser = pending.user ∧ ctx.subUsers = ∅ ∧
      task.checked? input.check = some pending.user ∧
      ∃ result ∈ input.check, ctx.isC2s = result.isC2s := by
  obtain ⟨sessionType, asked, result, old, rfl, hcheck, happly, -, hserver⟩ := h.accepts
  rw [hserver] at hctx
  simp only [LoginSystem.linkCtx?, Server.insertLink, ExtTreeMap.getElem?_insert_self,
    Option.bind_some, Option.some.injEq] at hctx
  subst hctx
  refine ⟨rfl, rfl, ?_, result, hcheck, rfl⟩
  rw [Task.checked?, hcheck, Option.map_some, happly]

namespace MsgSystem

/-- What the environment has promised: no reserved id, and `isC2s` for nodes only. -/
def Checked (_ : MsgSystem) : SystemEvent → Prop
  | .task input task peer =>
      (∀ user ∈ task.checked? input.check, user.isRoot = false) ∧
        ∀ result ∈ input.check, result.isC2s = true → peer ≠ none
  | _ => True

instance (w : MsgSystem) (e : SystemEvent) : Decidable (w.Checked e) := by
  unfold Checked
  split <;> infer_instance

/-- What the tables of the server say about the other ends. -/
structure AuthInv (w : MsgSystem) : Prop where
  tables : w.server.TableInv
  notRoot : ∀ (session : Session) (ctx : LinkCtx), LoginSystem.linkCtx? session w.server = some ctx →
    ∀ user ∈ ctx.users, user.isRoot = false
  bound : ∀ (session : Session) (ctx : LinkCtx), LoginSystem.linkCtx? session w.server = some ctx →
    ∃ d, w.links[session]? = some d ∧ d.user = ctx.baseUser ∧ (d.peer = none → ctx.isC2s = false)
  outbox : ∀ (id : Nat) (node : NodeState), w.nodes[id]? = some node → node.OutboxOk

variable {w : MsgSystem}

theorem boundUser_eq {session : Session} {ctx : LinkCtx}
    (h : LoginSystem.linkCtx? session w.server = some ctx) : w.boundUser session = ctx.baseUser := by
  unfold boundUser
  rw [h]
  rfl

/-- A plain client speaks for its own user only, and a node for those of its users. -/
theorem AuthInv.routedFits (h : w.AuthInv) (hinv : w.Inv upTrust downTrust) (e : SystemEvent) :
    w.RoutedFits upTrust downTrust e := by
  apply MsgSystem.routedFits (Or.inl ⟨rfl, by decide⟩)
  · intro session d p r hd hpeer hr
    refine fits_serverReceive hr fun ctx hctx hsrc => ?_
    obtain ⟨e, he, huser, hplain⟩ := h.bound session ctx hctx
    rw [hd, Option.some.injEq] at he
    subst he
    have hbase : p.srcUser = ctx.baseUser := by
      rcases LinkCtx.mem_users.mp hsrc with hbase | hsub
      · exact hbase
      · obtain ⟨ptr, -, hptr⟩ := LoginSystem.linkCtx?_eq_some.mp hctx
        have hc2s := ((h.tables.ctx_wellFormed ptr ctx hptr).sub_c2s _ hsub).1
        rw [hplain hpeer] at hc2s
        cases hc2s
    refine Or.inr ⟨h.notRoot session ctx hctx _ hsrc, none, session, ?_⟩
    rw [Option.getD_none, boundUser_eq hctx, hbase]
  · intro id r hr
    obtain rfl | ⟨node, session, item, d, p, hnode, -, hitem, hd, hok, hsrc, hreceive⟩ :=
      nodeSend_cases hr
    · exact fits_nothing
    refine fits_serverReceive hreceive fun ctx hctx hmem => ?_
    refine Or.inr ⟨h.notRoot session ctx hctx _ hmem, ?_⟩
    cases hsource : item.source with
    | none =>
      obtain ⟨e, he, huser, -⟩ := h.bound session ctx hctx
      rw [hd, Option.some.injEq] at he
      subst he
      have hown := hinv.responseFirst.user session d hd hok
      rw [hsource, Option.map_none, Option.getD_none, hown, huser] at hsrc
      refine ⟨none, session, ?_⟩
      rw [Option.map_none, Option.getD_none, boundUser_eq hctx, hsrc]
    | some source =>
      obtain ⟨srcUser, origin⟩ := source
      rw [hsource, Option.map_some, Option.getD_some] at hsrc
      rw [Option.map_some, Option.getD_some, hsrc]
      exact h.outbox id node hnode item hitem srcUser origin hsource

/-- Packets that are queued change neither the tables nor who has a session. -/
theorem AuthInv.push (h : w.AuthInv) (packets : Queued) {next : MsgSystem}
    (hserver : next.server = w.server) (hlinks : next.links = pushAll w.links packets)
    (hnodes : ∀ (id : Nat) (node : NodeState), next.nodes[id]? = some node → node.OutboxOk) :
    next.AuthInv := by
  refine ⟨hserver ▸ h.tables, hserver ▸ h.notRoot, ?_, hnodes⟩
  intro session ctx hctx
  rw [hserver] at hctx
  obtain ⟨d, hd, huser, hpeer⟩ := h.bound session ctx hctx
  obtain ⟨next, hnext, huser', hpeer', -⟩ := same_pushAll packets hd
  rw [hlinks]
  exact ⟨next, hnext, huser'.trans huser, hpeer' ▸ hpeer⟩

/-- A session that has been read from belongs to the same user. -/
theorem AuthInv.insert (h : w.AuthInv) {session : Session} {d : Downlink} (next : Downlink)
    (hd : w.links[session]? = some d) (huser : next.user = d.user) (hpeer : next.peer = d.peer)
    {nodes : ExtTreeMap Nat NodeState} {reports : List Report}
    (hnodes : ∀ (id : Nat) (node : NodeState), nodes[id]? = some node → node.OutboxOk) :
    AuthInv { w with links := w.links.insert session next, nodes := nodes, reports := reports } := by
  refine ⟨h.tables, h.notRoot, ?_, hnodes⟩
  intro other ctx hctx
  obtain ⟨e, he, hsame⟩ := h.bound other ctx hctx
  rw [ExtTreeMap.getElem?_insert]
  split
  · rename_i heq
    rw [Std.compare_eq_iff_eq] at heq
    subst heq
    rw [hd, Option.some.injEq] at he
    subst he
    exact ⟨next, rfl, huser.trans hsame.1, hpeer ▸ hsame.2⟩
  · exact ⟨e, he, hsame⟩

theorem AuthInv.modifyNode (h : w.AuthInv) (id : Nat) {f : NodeState → NodeState}
    (hf : ∀ node, node.OutboxOk → (f node).OutboxOk) : (w.modifyNode id f).AuthInv := by
  refine ⟨h.tables, h.notRoot, h.bound, ?_⟩
  intro other node hnode
  simp only [MsgSystem.modifyNode, ExtTreeMap.getElem?_modify, Std.compare_eq_iff_eq] at hnode
  split at hnode
  · obtain ⟨before, hbefore, rfl⟩ := Option.map_eq_some_iff.mp hnode
    exact hf before (h.outbox id before hbefore)
  · exact h.outbox other node hnode

/-- A task lets in the users that `OnCheckUser` has named, and links only nodes as c2s. -/
theorem AuthInv.runTask (h : w.AuthInv) (t : Texts) {input : TaskInput} {task : Task}
    {peer : Option Nat} (hchecked : w.Checked (.task input task peer))
    (hptr : input.ptr ∉ w.server.heap)
    (hnew : ∀ created ∈ input.newSession, created ∉ w.server.session2Ctx)
    {next : MsgSystem} (hstep : w.runTask t input task peer = some next) : next.AuthInv := by
  obtain ⟨⟨server, calls⟩, hr, hstep⟩ := Option.bind_eq_some_iff.mp hstep
  obtain ⟨hadmitted, hpeers⟩ := hchecked
  have hother : LoginSystem.FreshInput (input.newSession.getD 0 + 1) w.server input := by
    refine ⟨hptr, fun created hcreated => ⟨hnew created hcreated, ?_⟩⟩
    rw [Option.mem_def.mp hcreated, Option.getD_some]
    exact (Nat.succ_ne_self created).symm
  have htables : server.TableInv := (LoginSystem.taskFrame_runTask h.tables hother hr).1
  have hnotRoot : ∀ (session : Session) (ctx : LinkCtx),
      LoginSystem.linkCtx? session server = some ctx → ∀ user ∈ ctx.users, user.isRoot = false := by
    intro session ctx' hctx' user huser
    rw [LinkCtx.mem_users] at huser
    rcases LoginSystem.linkCtx?_runTask h.tables hr hptr hnew hctx' with hopens | ⟨-, ctx, hctx, hkeeps⟩
    · obtain ⟨pending, hopened, rfl⟩ := Option.map_eq_some_iff.mp hopens
      obtain ⟨hbase, hsub, hcheck, -⟩ := (opening_runTask hr hopened).linkCtx? hctx'
      rcases huser with rfl | huser
      · rw [hbase]
        exact hadmitted _ hcheck
      · rw [hsub] at huser
        exact absurd huser ExtTreeSet.not_mem_empty
    · have hold := h.notRoot session ctx hctx
      rcases huser with rfl | huser
      · rw [hkeeps.base]
        exact hold _ (LinkCtx.mem_users.mpr (Or.inl rfl))
      · rcases hkeeps.sub user huser with huser | hcheck
        · exact hold user (LinkCtx.mem_users.mpr (Or.inr huser))
        · exact hadmitted user hcheck
  have hbound : ∀ (session : Session) (ctx : LinkCtx),
      LoginSystem.linkCtx? session server = some ctx →
      (opened calls).map Pending.session ≠ some session →
      ∃ d, (pushAll w.links (controls t calls))[session]? = some d ∧ d.user = ctx.baseUser ∧
        (d.peer = none → ctx.isC2s = false) := by
    intro session ctx' hctx' hne
    rcases LoginSystem.linkCtx?_runTask h.tables hr hptr hnew hctx' with hopens | ⟨-, ctx, hctx, hkeeps⟩
    · exact absurd hopens hne
    · obtain ⟨d, hd, huser, hpeer⟩ := h.bound session ctx hctx
      obtain ⟨after, hafter, huser', hpeer', -⟩ :=
        same_pushAll (controls t calls) hd
      refine ⟨after, hafter, ?_, ?_⟩
      · rw [huser', huser, hkeeps.base]
      · rw [hpeer', hkeeps.isC2s]
        exact hpeer
  dsimp only at hstep
  cases hopened : opened calls with
  | none =>
    rw [hopened] at hbound
    simp only [hopened] at hstep
    cases hstep
    exact ⟨htables, hnotRoot, fun session ctx hctx => hbound session ctx hctx (by simp), h.outbox⟩
  | some pending =>
    have hopening := opening_runTask hr hopened
    obtain ⟨sessionType, asked, result, old, rfl, -⟩ := hopening.accepts
    rw [hopened] at hbound
    simp only [hopened] at hstep
    cases hstep
    refine ⟨htables, hnotRoot, ?_, ?_⟩
    · intro session ctx hctx
      rw [ExtTreeMap.getElem?_insert]
      split
      · rename_i heq
        rw [Std.compare_eq_iff_eq] at heq
        subst heq
        obtain ⟨hbase, -, -, result, hresult, hc2s⟩ := hopening.linkCtx? hctx
        refine ⟨_, rfl, hbase.symm, fun hnone => ?_⟩
        rw [hc2s, ← Bool.not_eq_true]
        exact fun htrue => hpeers result hresult htrue hnone
      · rename_i hne
        apply hbound session ctx hctx
        rw [Option.map_some]
        exact fun heq => hne (by rw [Option.some.inj heq]; exact Std.ReflCmp.compare_self)
    · intro id node hnode
      cases peer with
      | none => exact h.outbox id node hnode
      | some own =>
        simp only [Option.elim_some, ExtTreeMap.getElem?_modify, Std.compare_eq_iff_eq] at hnode
        split at hnode
        · obtain ⟨before, hbefore, rfl⟩ := Option.map_eq_some_iff.mp hnode
          exact h.outbox own before hbefore
        · exact h.outbox id node hnode

theorem AuthInv.step (h : w.AuthInv) (t : Texts) {e : SystemEvent} (hchecked : w.Checked e)
    {next : MsgSystem} (hstep : w.step t e = some next) : next.AuthInv := by
  cases e with
  | task input task peer =>
    simp only [MsgSystem.step] at hstep
    split at hstep
    · rename_i hmay
      simp only [mayRun, Bool.and_eq_true, decide_eq_true_eq, Option.all_eq_true] at hmay
      exact h.runTask t hchecked hmay.1.1.2 hmay.1.2 hstep
    · cases hstep
  | respond =>
    obtain ⟨pending, hpending, rfl⟩ := Option.map_eq_some_iff.mp hstep
    exact h.push _ rfl rfl h.outbox
  | serverSend body charset dstUsers refused =>
    obtain ⟨r, hr, rfl⟩ := Option.map_eq_some_iff.mp hstep
    exact h.push _ rfl rfl h.outbox
  | clientSend session p refused =>
    obtain ⟨r, hr, rfl⟩ := Option.map_eq_some_iff.mp hstep
    exact h.push _ rfl rfl h.outbox
  | nodeSend id refused =>
    obtain ⟨r, hr, rfl⟩ := Option.map_eq_some_iff.mp hstep
    have hrouted : (w.withRouted r).AuthInv := h.push _ rfl rfl h.outbox
    exact hrouted.modifyNode id fun node hnode item hitem => hnode item (List.mem_of_mem_tail hitem)
  | clientRead session =>
    simp only [MsgSystem.step, Option.bind_eq_bind] at hstep
    obtain ⟨d, hd, hstep⟩ := Option.bind_eq_some_iff.mp hstep
    split at hstep
    · cases hstep
    · obtain ⟨⟨after, reports⟩, hread, heq⟩ := Option.bind_eq_some_iff.mp hstep
      cases heq
      obtain ⟨huser, hpeer⟩ := Downlink.same_read hread
      exact h.insert after hd huser hpeer h.outbox
  | nodeRead id created sent asked =>
    simp only [MsgSystem.step, Option.bind_eq_bind] at hstep
    obtain ⟨node, hnode, hstep⟩ := Option.bind_eq_some_iff.mp hstep
    obtain ⟨session, -, hstep⟩ := Option.bind_eq_some_iff.mp hstep
    obtain ⟨d, hd, hstep⟩ := Option.bind_eq_some_iff.mp hstep
    split at hstep
    · cases hstep
    · rename_i packet rest hunread
      cases hstep
      let after : Downlink :=
        { d with unread := rest, client := (d.client.onRecvSession session packet.payload).1 }
      refine h.insert after hd rfl rfl ?_
      intro other after hafter
      rw [ExtTreeMap.getElem?_insert] at hafter
      split at hafter
      · cases hafter
        exact NodeState.OutboxOk.handle t _ _ created sent asked _ (h.outbox id node hnode)
      · exact h.outbox other after hafter
  | userSend id session p =>
    simp only [MsgSystem.step] at hstep
    split at hstep
    · cases hstep
      exact h.modifyNode id fun node hnode => hnode.userSend id session p
    · cases hstep
  | userRead id session =>
    simp only [MsgSystem.step, Option.bind_eq_bind] at hstep
    obtain ⟨node, hnode, hstep⟩ := Option.bind_eq_some_iff.mp hstep
    obtain ⟨d, hd, hstep⟩ := Option.bind_eq_some_iff.mp hstep
    obtain ⟨⟨after, reports⟩, hread, heq⟩ := Option.bind_eq_some_iff.mp hstep
    cases heq
    refine ⟨h.tables, h.notRoot, h.bound, ?_⟩
    intro other before hbefore
    rw [ExtTreeMap.getElem?_insert] at hbefore
    split at hbefore
    · cases hbefore
      exact h.outbox id node hnode
    · exact h.outbox other before hbefore
  | nodeOp id op =>
    cases hstep
    exact h.modifyNode id fun node hnode => hnode.withCalls t zeroUser (op.run node.c2s)
  | nodeClose id errorCode sslCode tcpConnected =>
    cases hstep
    refine h.modifyNode id fun node hnode item hitem => ?_
    cases hitem
  | nodeReconnect id connected =>
    cases hstep
    exact h.modifyNode id fun node hnode => hnode

theorem authInv_init (sslConfig sslForced : Bool) (nodes : ExtTreeMap Nat C2s) :
    (init sslConfig sslForced nodes).AuthInv := by
  have hnone : ∀ session, LoginSystem.linkCtx? session (Server.init sslConfig sslForced) = none := by
    intro session
    simp [LoginSystem.linkCtx?, Server.init]
  refine ⟨Server.tableInv_init sslConfig sslForced, ?_, ?_, ?_⟩
  · intro session ctx hctx
    rw [init, hnone session] at hctx
    cases hctx
  · intro session ctx hctx
    rw [init, hnone session] at hctx
    cases hctx
  · intro id node hnode
    simp only [init, ExtTreeMap.getElem?_map] at hnode
    obtain ⟨c2s, -, rfl⟩ := Option.map_eq_some_iff.mp hnode
    intro item hitem
    cases hitem

/-- Who is told what: messages of users come from their sessions, and control messages
from the server. -/
structure Authentic (w : MsgSystem) : Prop where
  clients : ∀ srcUser origin, .onRecvMsg srcUser origin ∈ w.reports → srcUser.isRoot = false →
    Vouched srcUser origin
  observer : ∀ srcUser origin, .observer srcUser origin ∈ w.reports → srcUser.isRoot = false →
    Vouched srcUser origin
  control : ∀ origin, .control origin ∈ w.reports → origin = .server

theorem Inv.authentic (h : w.Inv upTrust downTrust) : w.Authentic := by
  refine ⟨?_, ?_, ?_⟩
  · intro srcUser origin hreport hroot
    rcases h.reports _ hreport with ⟨-, htrue⟩ | hvouched
    · rw [hroot] at htrue
      cases htrue
    · exact hvouched
  · intro srcUser origin hreport hroot
    rcases h.reports _ hreport with ⟨-, htrue⟩ | ⟨-, hvouched⟩
    · rw [hroot] at htrue
      cases htrue
    · exact hvouched
  · intro origin hreport
    rcases h.reports _ hreport with ⟨hserver, -⟩ | ⟨hfalse, -⟩
    · exact hserver
    · exact absurd hfalse (by decide)

/-- Nobody is impersonated in a run in which no message is routed to a session that waits
for its response. -/
theorem authentic_of_run (t : Texts) {sslConfig sslForced : Bool} {nodes : ExtTreeMap Nat C2s}
    {es : List SystemEvent} {w : MsgSystem}
    (hguard : Guarded (step t) (fun v e => v.Quiet e ∧ v.Checked e)
      (init sslConfig sslForced nodes) es)
    (hrun : run (step t) (init sslConfig sslForced nodes) es = some w) : w.Authentic := by
  have hinit : (init sslConfig sslForced nodes).AuthInv ∧
      (init sslConfig sslForced nodes).Inv upTrust downTrust :=
    ⟨authInv_init sslConfig sslForced nodes, inv_init upTrust downTrust sslConfig sslForced nodes⟩
  have hpreserved : ∀ (v : MsgSystem) (e : SystemEvent) (next : MsgSystem),
      v.AuthInv ∧ v.Inv upTrust downTrust → v.Quiet e ∧ v.Checked e → v.step t e = some next →
      next.AuthInv ∧ next.Inv upTrust downTrust := by
    rintro v e next ⟨hauth, hv⟩ ⟨hquiet, hchecked⟩ hstep
    refine ⟨hauth.step t hchecked hstep, ?_⟩
    exact Inv.step downTrust_of_upTrust (Or.inl ⟨rfl, by decide⟩)
      (fun id session user => Or.inr ⟨some id, session, rfl⟩) t hv hquiet (hauth.routedFits hv e) hstep
  exact (run_preserves hpreserved hinit hguard hrun).2.authentic

theorem authentic_of_run_answered :
    Guarded (step noTexts) (fun v e => v.Quiet e ∧ v.Checked e) (init false false noNodes)
        answeredEvents ∧
      run (step noTexts) (init false false noNodes) answeredEvents = some answeredState ∧
      answeredState.Authentic := by
  have hguard : Guarded (step noTexts) (fun v e => v.Quiet e ∧ v.Checked e)
      (init false false noNodes) answeredEvents := by
    decide +kernel
  have hrun : run (step noTexts) (init false false noNodes) answeredEvents = some answeredState :=
    (Option.some_get _).symm
  exact ⟨hguard, hrun, authentic_of_run noTexts hguard hrun⟩

/-- The response that was overtaken is delivered as a message of 2-7 that nobody has sent. -/
theorem not_authentic_overtaken :
    Guarded (step noTexts) Checked (init false false noNodes) overtakenEvents ∧
      run (step noTexts) (init false false noNodes) overtakenEvents = some overtakenState ∧
      ¬ overtakenState.Authentic := by
  refine ⟨by decide +kernel, (Option.some_get _).symm, fun h => ?_⟩
  have hreported : .onRecvMsg (.ofIds 2 7 0) (.response (.ofIds 2 7 0)) ∈ overtakenState.reports := by
    decide +kernel
  obtain ⟨node, session, heq⟩ := h.clients _ _ hreported (by decide)
  cases heq

end MsgSystem

end Pronet.Msg
