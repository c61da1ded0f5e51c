import Pronet.Msg.System

/-! The first packet of a session is the response to its login, as long as no message is
routed to the session before `AddBaseUser` answers. What is trusted of the source of a
message is a parameter: nothing is needed for the order of the packets. -/
namespace Pronet.Msg

open Std Library Runs

/-- What is believed of a message with a source and an origin. -/
abbrev Trust := MsgUser → Origin → Prop

theorem srcUser_ofBytes (charset : UInt32) (srcUser : MsgUser) (dstUserCount : UInt8)
    (dstUsers : List MsgUser) (body : List UInt8) :
    (Payload.ofBytes (msgBytes charset srcUser dstUserCount dstUsers body)).srcUser = srcUser := by
  apply userAt_eq
  intro k hk
  interval_cases k <;> rfl

theorem srcUser_createMsgPacket {charset : UInt32} {srcUser : MsgUser} {dstUserCount : UInt8}
    {dstUsers : List MsgUser} {body : List UInt8} {p : Payload}
    (h : createMsgPacket (msgBytes charset srcUser dstUserCount dstUsers body) = some p) :
    p.srcUser = srcUser := by
  unfold createMsgPacket at h
  split at h
  · cases h
  · cases h
    exact srcUser_ofBytes charset srcUser dstUserCount dstUsers body

theorem srcUser_sendMsgToDownlink {body : List UInt8} {charset : UInt32} {srcUser : MsgUser}
    {dstUsers : List MsgUser} {publicIp : Option UInt32} {p : Payload}
    (h : sendMsgToDownlink body charset srcUser dstUsers publicIp = some p) : p.srcUser = srcUser := by
  unfold sendMsgToDownlink at h
  split at h
  · cases h
  · split at h <;> exact srcUser_createMsgPacket h

theorem srcUser_pushMsg {body : List UInt8} {charset : UInt32} {dstUsers : List MsgUser}
    {srcUser : Option MsgUser} {user : MsgUser} {p : Payload}
    (h : pushMsg body charset dstUsers srcUser user = some p) : p.srcUser = srcUser.getD user := by
  unfold pushMsg at h
  split at h
  · cases h
  · exact srcUser_createMsgPacket h

/-- The response to the login of `user`. -/
structure Packet.Responds (packet : Packet) (user : MsgUser) : Prop where
  origin : packet.origin = .response user
  srcUser : packet.payload.srcUser = user
  headerOk : packet.payload.headerOk = true

def Packet.Trusted (trust : Trust) (packet : Packet) : Prop :=
  trust packet.payload.srcUser packet.origin

theorem response_eq (t : Texts) (session : Session) {user : MsgUser} (h : user.valid = true)
    (publicIp : String) :
    ∃ packet : Packet, response t session user publicIp = [(session, packet)] ∧
      packet.Responds user := by
  have hsize : 16 + 8 * [zeroUser].length + ([0] : List UInt8).length ≤ Rtp.maxPayloadSize := by decide
  have hpacket : sendMsgToDownlink [0] 0 user [] (some (t.inetAton publicIp)) =
      some (.ofBytes (msgBytes (t.inetAton publicIp) user 0 [zeroUser] [0])) := by
    simp only [sendMsgToDownlink, h, List.isEmpty_cons, Bool.not_true, Bool.or_self,
      Bool.false_eq_true, if_false, List.isEmpty_nil, if_true, Option.getD_some]
    exact createMsgPacket_eq hsize
  have henc : Encodes (.ofBytes (msgBytes (t.inetAton publicIp) user 0 [zeroUser] [0]))
      (t.inetAton publicIp) user [zeroUser] [0] :=
    encodes_ofBytes rfl (by simp) (by decide)
  refine ⟨⟨_, .response user⟩, ?_, rfl, henc.srcUser, henc.headerOk.trans h⟩
  unfold response
  rw [hpacket]
  rfl

namespace Downlink

/-- The session of a client that waits for `AddBaseUser`. -/
structure Awaits (session : Session) (d : Downlink) : Prop where
  session : d.client.session = session
  canUpcall : d.client.canUpcall = true
  onOkCalled : d.client.onOkCalled = false
  log : d.log = []
  unread : d.unread = []

/-- Its first packet is the response, and the others are trusted. -/
structure Ready (trust : Trust) (session : Session) (d : Downlink) : Prop where
  session : d.client.session = session
  canUpcall : d.client.canUpcall = true
  first : ∃ first rest, d.log = first :: rest ∧ first.Responds d.user
  unread : (d.client.onOkCalled = false ∧ ∃ first rest, d.unread = first :: rest ∧
      first.Responds d.user ∧ ∀ packet ∈ rest, packet.Trusted trust) ∨
    (d.client.onOkCalled = true ∧ d.client.user = d.user ∧
      ∀ packet ∈ d.unread, packet.Trusted trust)

variable {trust : Trust} {session : Session} {d : Downlink}

theorem awaits_new (session : Session) (user asked : MsgUser) (peer : Option Nat) :
    (new session user asked peer).Awaits session := ⟨rfl, rfl, rfl, rfl, rfl⟩

theorem Awaits.push (h : d.Awaits session) {packet : Packet} (hpacket : packet.Responds d.user) :
    (d.push packet).Ready trust session := by
  refine ⟨h.session, h.canUpcall, ⟨packet, [], ?_, hpacket⟩,
    Or.inl ⟨h.onOkCalled, packet, [], ?_, hpacket, by simp⟩⟩
  · simp [Downlink.push, h.log]
  · simp [Downlink.push, h.unread]

theorem Ready.push (h : d.Ready trust session) {packet : Packet} (hpacket : packet.Trusted trust) :
    (d.push packet).Ready trust session := by
  obtain ⟨first, rest, hlog, hfirst⟩ := h.first
  refine ⟨h.session, h.canUpcall, ⟨first, rest ++ [packet], ?_, hfirst⟩, ?_⟩
  · simp [Downlink.push, hlog]
  · rcases h.unread with ⟨hok, first, rest, hunread, hfirst, htrust⟩ | ⟨hok, huser, htrust⟩
    · refine Or.inl ⟨hok, first, rest ++ [packet], ?_, hfirst, ?_⟩
      · simp [Downlink.push, hunread]
      · intro other hother
        rcases List.mem_append.mp hother with hother | hother
        · exact htrust other hother
        · exact List.mem_singleton.mp hother ▸ hpacket
    · refine Or.inr ⟨hok, huser, ?_⟩
      intro other hother
      rcases List.mem_append.mp hother with hother | hother
      · exact htrust other hother
      · exact List.mem_singleton.mp hother ▸ hpacket

end Downlink

/-- What a client may do with a packet on the session of `user`. -/
def MsgAccess.Fits (trust : Trust) (user : MsgUser) (packet : Packet) : MsgAccess → Prop
  | .onOkMsg srcUser _ => srcUser = user ∧ packet.origin = .response user
  | .onRecvMsg _ _ srcUser => trust srcUser packet.origin
  | .onTransferMsg _ _ srcUser _ => trust srcUser packet.origin
  | _ => True

/-- A client that has logged in looks at a packet. -/
theorem Client.fits_onRecvSession {trust : Trust} {client : Client} (hok : client.onOkCalled = true)
    (user : MsgUser) (session : Session) {packet : Packet} (hpacket : packet.Trusted trust) :
    (client.onRecvSession session packet.payload).1 = client ∧
      ∀ access ∈ (client.onRecvSession session packet.payload).2, access.Fits trust user packet := by
  have hread : ∀ access ∈ packet.payload.dstEntries.map MsgAccess.readDstUser,
      access.Fits trust user packet := by
    intro access haccess
    obtain ⟨entry, -, rfl⟩ := List.mem_map.mp haccess
    trivial
  unfold Client.onRecvSession
  split
  · exact ⟨rfl, by simp⟩
  · rw [hok]
    simp only [Bool.not_true, Bool.false_eq_true, if_false]
    split
    · refine ⟨rfl, ?_⟩
      split
      · intro access haccess
        rw [List.mem_singleton.mp haccess]
        exact hpacket
      · simp
    · refine ⟨rfl, ?_⟩
      intro access haccess
      rcases List.mem_append.mp haccess with haccess | haccess
      · exact hread access haccess
      · split at haccess
        · rcases List.mem_append.mp haccess with haccess | haccess
          · split at haccess
            · rw [List.mem_singleton.mp haccess]
              exact hpacket
            · cases haccess
          · split at haccess
            · cases haccess
            · rw [List.mem_singleton.mp haccess]
              exact hpacket
        · cases haccess

/-- The next packet of a session, whoever its client belongs to. -/
theorem Downlink.Ready.receive {trust : Trust} {session : Session} {d : Downlink}
    (h : d.Ready trust session) {packet : Packet} {rest : List Packet}
    (hunread : d.unread = packet :: rest) :
    Ready trust session
      { d with unread := rest, client := (d.client.onRecvSession session packet.payload).1 } ∧
    ∀ access ∈ (d.client.onRecvSession session packet.payload).2,
      access.Fits trust d.user packet := by
  rcases h.unread with ⟨hok, first, others, hunread', hfirst, htrust⟩ | ⟨hok, huser, htrust⟩
  · -- The first packet is taken as the response, and it is the response.
    rw [hunread, List.cons.injEq] at hunread'
    obtain ⟨rfl, rfl⟩ := hunread'
    have haccess : d.client.onRecvSession session packet.payload =
        ({ d.client with user := packet.payload.srcUser, onOkCalled := true },
          [.onOkMsg packet.payload.srcUser packet.payload.charset]) := by
      simp [Client.onRecvSession, hfirst.headerOk, h.session, hok, h.canUpcall]
    rw [haccess]
    refine ⟨⟨h.session, h.canUpcall, h.first, Or.inr ⟨rfl, hfirst.srcUser, htrust⟩⟩, ?_⟩
    intro access hmem
    rw [List.mem_singleton.mp hmem]
    exact ⟨hfirst.srcUser, hfirst.origin⟩
  · have hpacket : packet.Trusted trust := htrust packet (by rw [hunread]; exact List.mem_cons_self)
    obtain ⟨hclient, hfits⟩ := Client.fits_onRecvSession hok d.user session hpacket
    rw [hclient]
    refine ⟨⟨h.session, h.canUpcall, h.first, Or.inr ⟨hok, huser, ?_⟩⟩, hfits⟩
    intro other hother
    exact htrust other (by rw [hunread]; exact List.mem_cons_of_mem _ hother)

/-- What may be reported if control messages and messages at the server are trusted by
`up` and messages at the clients by `down`. -/
def Report.Fits (up down : Trust) : Report → Prop
  | .onOkMsg user srcUser origin => srcUser = user ∧ origin = .response user
  | .onRecvMsg srcUser origin => down srcUser origin
  | .observer srcUser origin => up srcUser origin
  | .control origin => up rootIdC2s origin

theorem Downlink.Ready.read (up : Trust) {down trust : Trust} (hweak : ∀ user origin, trust user origin → down user origin)
    {session : Session} {d next : Downlink} {reports : List Report} (h : d.Ready trust session)
    (hread : d.read session = some (next, reports)) :
    next.Ready trust session ∧ next.user = d.user ∧ next.peer = d.peer ∧
      ∀ report ∈ reports, report.Fits up down := by
  unfold Downlink.read at hread
  split at hread
  · cases hread
  · rename_i packet rest hunread
    obtain ⟨hready, hfits⟩ := h.receive hunread
    simp only [Option.some.injEq, Prod.mk.injEq] at hread
    obtain ⟨rfl, rfl⟩ := hread
    refine ⟨hready, rfl, rfl, ?_⟩
    intro report hreport
    obtain ⟨access, haccess, hsome⟩ := List.mem_filterMap.mp hreport
    have hfit := hfits access haccess
    unfold Downlink.report at hsome
    split at hsome
    · cases hsome
      exact hfit
    · cases hsome
      exact hweak _ _ hfit
    · cases hsome

/-- All sessions but one that is still waiting. -/
def AllReady (trust : Trust) (waiting : Option Session) (links : ExtTreeMap Session Downlink) : Prop :=
  ∀ (session : Session) (d : Downlink), links[session]? = some d → waiting ≠ some session →
    d.Ready trust session

section Links

variable {trust : Trust} {waiting : Option Session} {links : ExtTreeMap Session Downlink}

theorem getElem?_push (links : ExtTreeMap Session Downlink) (entry : Session × Packet)
    (session : Session) :
    (links.modify entry.1 fun d => d.push entry.2)[session]? =
      if entry.1 = session then (links[session]?).map fun d : Downlink => d.push entry.2
      else links[session]? := by
  rw [ExtTreeMap.getElem?_modify]
  simp only [Std.compare_eq_iff_eq]
  split
  · rename_i heq
    subst heq
    rfl
  · rfl

theorem pushAll_cons (links : ExtTreeMap Session Downlink) (entry : Session × Packet)
    (packets : Queued) : pushAll links (entry :: packets) =
      pushAll (links.modify entry.1 fun d => d.push entry.2) packets := rfl

theorem AllReady.push (h : AllReady trust waiting links) {packets : Queued}
    (htrust : ∀ entry ∈ packets, entry.2.Trusted trust) :
    AllReady trust waiting (pushAll links packets) := by
  induction packets generalizing links with
  | nil => exact h
  | cons entry packets ih =>
    rw [pushAll_cons]
    apply ih
    · intro session d hd hne
      rw [getElem?_push] at hd
      split at hd
      · obtain ⟨before, hbefore, rfl⟩ := Option.map_eq_some_iff.mp hd
        exact (h session before hbefore hne).push (htrust entry List.mem_cons_self)
      · exact h session d hd hne
    · exact fun other hother => htrust other (List.mem_cons_of_mem _ hother)

/-- A session nothing is queued for is left alone. -/
theorem getElem?_pushAll_of_ne {packets : Queued} {session : Session}
    (hne : ∀ entry ∈ packets, entry.1 ≠ session) :
    (pushAll links packets)[session]? = links[session]? := by
  induction packets generalizing links with
  | nil => rfl
  | cons entry packets ih =>
    rw [pushAll_cons, ih fun other hother => hne other (List.mem_cons_of_mem _ hother),
      getElem?_push, if_neg (hne entry List.mem_cons_self)]

/-- A packet does not change who has the session. -/
theorem same_pushAll (packets : Queued) {session : Session} {d : Downlink}
    (h : links[session]? = some d) :
    ∃ next, (pushAll links packets)[session]? = some next ∧ next.user = d.user ∧
      next.peer = d.peer ∧ next.client = d.client := by
  induction packets generalizing links d with
  | nil => exact ⟨d, h, rfl, rfl, rfl⟩
  | cons entry packets ih =>
    rw [pushAll_cons]
    by_cases heq : entry.1 = session
    · have hpush : (links.modify entry.1 fun d => d.push entry.2)[session]? =
          some (d.push entry.2) := by
        rw [getElem?_push, if_pos heq, h]
        rfl
      obtain ⟨next, hnext, hsame⟩ := ih hpush
      exact ⟨next, hnext, hsame⟩
    · have hkeep : (links.modify entry.1 fun d => d.push entry.2)[session]? = some d := by
        rw [getElem?_push, if_neg heq, h]
      exact ih hkeep

theorem AllReady.insert (h : AllReady trust waiting links) {session : Session} {d : Downlink}
    (hd : d.Ready trust session) : AllReady trust waiting (links.insert session d) := by
  intro other e he hne
  rw [ExtTreeMap.getElem?_insert] at he
  split at he
  · rename_i heq
    rw [Std.compare_eq_iff_eq] at heq
    subst heq
    cases he
    exact hd
  · exact h other e he hne

/-- The response makes a new session ready. -/
theorem AllReady.respond (h : AllReady trust (some session) links) {d : Downlink}
    (hd : links[session]? = some d) (hawaits : d.Awaits session) (hvalid : d.user.valid = true)
    (t : Texts) (publicIp : String) :
    AllReady trust none (pushAll links (response t session d.user publicIp)) := by
  obtain ⟨packet, hpacket, hresponds⟩ := response_eq t session hvalid publicIp
  rw [hpacket]
  intro other e he _
  rw [pushAll, List.foldl_cons, List.foldl_nil, getElem?_push] at he
  split at he
  · rename_i heq
    dsimp only at heq
    subst heq
    rw [hd, Option.map_some, Option.some.injEq] at he
    subst he
    exact hawaits.push hresponds
  · rename_i hne
    exact h other e he fun heq => hne (Option.some.inj heq)

end Links

/-- A packet for all sessions is trusted if its source is. -/
theorem trusted_queuedFor {trust : Trust} {sessions : List Session} {origin : Origin}
    {body : List UInt8} {charset : UInt32} {srcUser : MsgUser} {dstUsers : List MsgUser}
    {publicIp : Option UInt32} (h : trust srcUser origin) :
    ∀ entry ∈ queuedFor sessions origin (sendMsgToDownlink body charset srcUser dstUsers publicIp),
      entry.2.Trusted trust := by
  intro entry hentry
  cases hpacket : sendMsgToDownlink body charset srcUser dstUsers publicIp with
  | none =>
    rw [hpacket] at hentry
    cases hentry
  | some payload =>
    rw [hpacket] at hentry
    obtain ⟨session, -, rfl⟩ := List.mem_map.mp hentry
    unfold Packet.Trusted
    dsimp only
    rw [srcUser_sendMsgToDownlink hpacket]
    exact h

theorem trusted_controls {trust : Trust} (h : trust rootIdC2s .server) (t : Texts)
    (calls : List ServerCall) : ∀ entry ∈ controls t calls, entry.2.Trusted trust := by
  intro entry hentry
  obtain ⟨call, -, hcall⟩ := List.mem_flatMap.mp hentry
  cases call with
  | sendToC2s session c2sUser msg => exact trusted_queuedFor h entry hcall
  | _ => cases hcall

/-- The login responses among the calls of a node are for users. -/
def C2sCall.Answers : C2sCall → Prop
  | .sendResponse _ user _ => user.valid = true
  | _ => True

theorem answers_reportLogout (user : MsgUser) : ∀ call ∈ C2s.reportLogout user, call.Answers := by
  intro call hcall
  unfold C2s.reportLogout at hcall
  split at hcall
  · rw [List.mem_singleton.mp hcall]
    trivial
  · cases hcall

theorem answers_dropPending (s : C2s) (timerId : Nat) :
    ∀ call ∈ (s.dropPending timerId).2, call.Answers := by
  unfold C2s.dropPending
  split <;> simp [C2sCall.Answers, C2s.closeInfo]

theorem answers_processMsgClientLoginOk (s : C2s) (clientIndex : Nat) (user : MsgUser)
    (created : Option (Session × String)) (sent : Bool) :
    ∀ call ∈ (s.processMsgClientLoginOk clientIndex user created sent).2, call.Answers := by
  have hlogout := answers_reportLogout user
  unfold C2s.processMsgClientLoginOk
  split
  · simp
  · rename_i hcheck
    have hvalid : user.valid = true := by
      simp only [Bool.or_eq_true, not_or, Bool.not_eq_true, Bool.not_eq_false'] at hcheck
      exact hcheck.1
    split
    · exact hlogout
    · dsimp only
      split
      · intro call hcall
        rcases List.mem_append.mp hcall with hcall | hcall
        · simp only [List.mem_cons, List.not_mem_nil, or_false] at hcall
          rcases hcall with rfl | rfl <;> trivial
        · exact hlogout call hcall
      · rename_i newSession publicIp
        have hfirst : ∀ call ∈ [C2sCall.cancelTimer clientIndex,
            .sendResponse newSession user publicIp], call.Answers := by
          simp [C2sCall.Answers, hvalid]
        have hclosed : ∀ call ∈ (if (s.user2Session[user]?).isSome then
            [C2sCall.onCloseUser user (-1) 0] else []), call.Answers := by
          split <;> simp [C2sCall.Answers]
        have hold : ∀ call ∈ (s.user2Session[user]?).toList.map C2sCall.deleteSession,
            call.Answers := by
          simp [C2sCall.Answers]
        split
        · intro call hcall
          simp only [List.mem_append] at hcall
          rcases hcall with ((hcall | hcall) | hcall) | hcall
          · exact hfirst call hcall
          · exact hclosed call hcall
          · rw [List.mem_singleton.mp hcall]
            trivial
          · exact hold call hcall
        · intro call hcall
          simp only [List.mem_append] at hcall
          rcases hcall with (((hcall | hcall) | hcall) | hcall) | hcall
          · exact hfirst call hcall
          · exact hclosed call hcall
          · exact hlogout call hcall
          · rw [List.mem_singleton.mp hcall]
            trivial
          · exact hold call hcall

theorem answers_onRecvMsg (s : C2s) (created : Option (Session × String)) (sent : Bool)
    (msg : DownMsg) : ∀ call ∈ (s.onRecvMsg created sent msg).2, call.Answers := by
  cases msg with
  | clientLoginOk clientIndex user =>
    exact answers_processMsgClientLoginOk s clientIndex user created sent
  | clientLoginError clientIndex =>
    simp only [C2s.onRecvMsg, C2s.processMsgClientLoginError]
    split
    · simp
    · exact answers_dropPending s clientIndex
  | clientKickout user =>
    simp only [C2s.onRecvMsg, C2s.processMsgClientKickout]
    split
    · simp
    · split <;> simp [C2sCall.Answers]

theorem answers_run (s : C2s) (op : NodeOp) : ∀ call ∈ (op.run s).2, call.Answers := by
  cases op with
  | accept info timerId sent =>
    simp only [NodeOp.run, C2s.acceptSession]
    split
    · simp [C2sCall.Answers, C2s.closeInfo]
    · split <;> simp [C2sCall.Answers, C2s.closeInfo]
  | timer timerId =>
    simp only [NodeOp.run, C2s.onTimer]
    split
    · simp
    · exact answers_dropPending s timerId
  | kickout user =>
    simp only [NodeOp.run, C2s.asyncKickoutUser]
    split
    · simp
    · intro call hcall
      rcases List.mem_append.mp hcall with hcall | hcall
      · split at hcall
        · exact answers_reportLogout user call hcall
        · cases hcall
      · simp only [List.mem_cons, List.not_mem_nil, or_false] at hcall
        rcases hcall with rfl | rfl <;> trivial
  | close session errorCode sslCode =>
    simp only [NodeOp.run, C2s.onCloseSession]
    split
    · simp
    · rename_i user _
      intro call hcall
      rcases List.mem_append.mp hcall with hcall | hcall
      · split at hcall
        · exact answers_reportLogout user call hcall
        · cases hcall
      · simp only [List.mem_cons, List.not_mem_nil, or_false] at hcall
        rcases hcall with rfl | rfl <;> trivial

theorem answers_onCloseMsg (s : C2s) (errorCode sslCode : Int) (tcpConnected : Bool) :
    ∀ call ∈ (s.onCloseMsg errorCode sslCode tcpConnected).2, call.Answers := by
  unfold C2s.onCloseMsg
  split
  · simp
  · intro call hcall
    simp only [List.mem_append, List.mem_flatMap, List.mem_map, List.mem_singleton] at hcall
    rcases hcall with (⟨entry, -, hcall⟩ | ⟨session, -, rfl⟩) | rfl
    · simp only [List.mem_cons, List.not_mem_nil, or_false] at hcall
      rcases hcall with rfl | rfl <;> trivial
    · trivial
    · trivial

/-- The calls of a node keep the sessions of its users ready. -/
theorem AllReady.withCalls {trust : Trust} {node : NodeState} (t : Texts) (asked : MsgUser)
    {r : C2s × List C2sCall} (h : AllReady trust none node.downlinks)
    (hanswers : ∀ call ∈ r.2, call.Answers) :
    AllReady trust none (node.withCalls t asked r).downlinks := by
  obtain ⟨c2s, calls⟩ := r
  unfold NodeState.withCalls
  dsimp only at hanswers ⊢
  have hstart : AllReady trust none ({ node with c2s := c2s } : NodeState).downlinks := h
  generalize ({ node with c2s := c2s } : NodeState) = start at hstart
  induction calls generalizing start with
  | nil => exact hstart
  | cons call calls ih =>
    rw [List.foldl_cons]
    apply ih (fun other hother => hanswers other (List.mem_cons_of_mem _ hother))
    have hanswer := hanswers call List.mem_cons_self
    cases call with
    | sendResponse session user publicIp =>
      have hnew := Downlink.awaits_new session user asked none
      have hwaiting : AllReady trust (some session)
          (start.downlinks.insert session (.new session user asked none)) := by
        intro other d hd hne
        rw [ExtTreeMap.getElem?_insert] at hd
        split at hd
        · rename_i heq
          exact absurd (congrArg some (Std.compare_eq_iff_eq.mp heq)) hne
        · exact hstart other d hd (by simp)
      exact hwaiting.respond (by simp) hnew hanswer t publicIp
    | deleteSession session =>
      intro other d hd hne
      simp only [NodeState.call, ExtTreeMap.getElem?_erase] at hd
      split at hd
      · cases hd
      · exact hstart other d hd hne
    | _ => exact hstart

/-- The messages that are sent on are those of `srcUser`. -/
def MsgAccess.From (srcUser : MsgUser) : MsgAccess → Prop
  | .sendMsgToDownlink _ _ _ source _ => source = srcUser
  | .transferMsg _ _ _ source => source = srcUser
  | .onRecvMsg _ _ source => source = srcUser
  | _ => True

theorem trusted_queuedBy {trust : Trust} {p : Payload} {srcUser : MsgUser} {origin : Origin}
    {access : MsgAccess} (hfrom : access.From srcUser) (h : trust srcUser origin) :
    ∀ entry ∈ queuedBy p origin access, entry.2.Trusted trust := by
  cases access with
  | sendMsgToDownlink sessions body charset source dstUsers =>
    cases hfrom
    exact trusted_queuedFor h
  | _ => exact fun _ hentry => nomatch hentry

theorem C2s.from_onRecvSession (s : C2s) {session : Session} {p : Payload} {access : MsgAccess}
    (h : access ∈ s.onRecvSession session p) :
    s.session2User[session]? = some p.srcUser ∧ access.From p.srcUser := by
  unfold C2s.onRecvSession at h
  split at h
  · cases h
  · rename_i hcheck
    simp only [Bool.or_eq_true, decide_eq_true_eq, not_or, ne_eq, not_not] at hcheck
    refine ⟨hcheck.2, ?_⟩
    simp only [List.mem_append] at h
    rcases h with (h | h) | h
    · obtain ⟨entry, -, rfl⟩ := List.mem_map.mp h
      trivial
    · split at h
      · cases h
      · rw [List.mem_singleton.mp h]
        rfl
    · split at h
      · cases h
      · rw [List.mem_singleton.mp h]
        rfl

/-- What a node does with the packets on its uplink. -/
theorem handle_fits {up down : Trust} (hweak : ∀ user origin, up user origin → down user origin)
    (t : Texts) (user : MsgUser) (packet : Packet) (created : Option (Session × String)) (sent : Bool)
    (asked : MsgUser) {accesses : List MsgAccess} {r : NodeState × List Report}
    (hfits : ∀ access ∈ accesses, access.Fits up user packet)
    (hready : AllReady down none r.1.downlinks) (hreports : ∀ report ∈ r.2, report.Fits up down) :
    AllReady down none
      (accesses.foldl (NodeState.handle t user packet created sent asked) r).1.downlinks ∧
    ∀ report ∈ (accesses.foldl (NodeState.handle t user packet created sent asked) r).2,
      report.Fits up down := by
  induction accesses generalizing r with
  | nil => exact ⟨hready, hreports⟩
  | cons access accesses ih =>
    have hfit := hfits access List.mem_cons_self
    have hmore : ∀ report : Report, report.Fits up down → ∀ other ∈ r.2 ++ [report],
        other.Fits up down := by
      intro report hreport other hother
      rcases List.mem_append.mp hother with hother | hother
      · exact hreports other hother
      · exact List.mem_singleton.mp hother ▸ hreport
    rw [List.foldl_cons]
    apply ih fun other hother => hfits other (List.mem_cons_of_mem _ hother)
    · cases access with
      | onRecvMsg body charset srcUser =>
        simp only [NodeState.handle]
        split
        · exact hready
        · split
          · exact hready
          · exact hready.withCalls t asked (answers_onRecvMsg _ created sent _)
      | onTransferMsg body charset srcUser dstUsers =>
        simp only [NodeState.handle]
        split
        · exact hready
        · exact hready.push (trusted_queuedFor (hweak _ _ hfit))
      | _ => exact hready
    · cases access with
      | onOkMsg srcUser publicIp => exact hmore (.onOkMsg user srcUser packet.origin) hfit
      | onRecvMsg body charset srcUser =>
        simp only [NodeState.handle]
        split
        · exact hreports
        · rename_i hroot
          simp only [ne_eq, Decidable.not_not] at hroot
          subst hroot
          split
          · exact hreports
          · exact hmore (.control packet.origin) hfit
      | onTransferMsg body charset srcUser dstUsers =>
        simp only [NodeState.handle]
        split <;> exact hreports
      | _ => exact hreports

section Opened

theorem opened_append (calls more : List ServerCall) :
    opened (calls ++ more) = (opened calls).or (opened more) :=
  List.findSome?_append

theorem opened_closeUsers (users : UserSet) (errorCode sslCode : Int) :
    opened (Server.closeUsers users errorCode sslCode) = none := by
  simp [opened, Server.closeUsers, ServerCall.opens?]

theorem opened_deleteSession (session : Option Session) :
    opened (Server.deleteSession session) = none := by
  simp [opened, Server.deleteSession, ServerCall.opens?]

theorem opened_removeOld {s : Server} {user : MsgUser} {keeper : Option MsgUser}
    {old : Server.Removed} (hold : s.removeOld user keeper = some old) : opened old.calls = none := by
  simp only [Server.removeOld] at hold
  split at hold
  · cases hold
    rfl
  · split at hold
    · cases hold
    · split at hold
      · cases hold
        rfl
      · cases hold
        dsimp only
        split
        · rfl
        · unfold Server.notifyKickout
          split <;> rfl

theorem opened_addSubUser {s : Server} {c2sUser subUser : MsgUser} {publicIp : String} {msg : DownMsg}
    {appData : Int} {r : Server × List ServerCall}
    (hr : s.addSubUser c2sUser subUser publicIp msg appData = some r) : opened r.2 = none := by
  unfold Server.addSubUser at hr
  split at hr
  · cases hr
    rfl
  · split at hr
    · obtain ⟨newCtx, -, hr⟩ := Option.bind_eq_some_iff.mp hr
      split at hr
      · cases hr
        rfl
      · obtain ⟨old, hold, hr⟩ := Option.bind_eq_some_iff.mp hr
        obtain ⟨ctx, -, hr⟩ := Option.bind_eq_some_iff.mp hr
        cases hr
        have hredline : opened (if (ctx.subUsers.insert subUser).size = 1 then
            [ServerCall.setOutputRedline ctx.session s.redlineBytes] else []) = none := by
          split <;> rfl
        have hwelcome : opened [.suspendRecv ctx.session, .sendToC2s ctx.session c2sUser msg,
            .onOkUser subUser publicIp (some c2sUser) appData, .resumeRecv ctx.session] = none := rfl
        simp only [opened_append, opened_removeOld hold, opened_closeUsers, opened_deleteSession,
          hredline, hwelcome, Option.or_none]
    · cases hr
      rfl

/-- A new link: what `AddBaseUser` has done when it is still to answer. -/
structure Opening (s : Server) (input : TaskInput) (task : Task) (r : Server × List ServerCall)
    (pending : Pending) : Prop where
  accepts : ∃ sessionType asked result old, task = .onAcceptSession sessionType asked pending.publicIp ∧
    input.check = some result ∧ result.apply asked = pending.user ∧
    s.removeOld pending.user none = some old ∧
    r.1 = old.server.insertLink pending.session input.ptr pending.user result.isC2s
  newSession : input.newSession = some pending.session
  valid : pending.user.valid = true

theorem opening_runTask {s : Server} {input : TaskInput} {task : Task} {r : Server × List ServerCall}
    (hr : s.runTask input task = some r) {pending : Pending} (hopened : opened r.2 = some pending) :
    Opening s input task r pending := by
  have hquiet : opened r.2 = none → Opening s input task r pending := by
    intro hnone
    rw [hnone] at hopened
    cases hopened
  cases task with
  | onAcceptSession sessionType asked remoteIp =>
    simp only [Server.runTask, Server.asyncOnAcceptSession] at hr
    split at hr
    · cases hr
      exact hquiet rfl
    · split at hr
      · rename_i result hcheck
        split at hr
        · cases hr
          exact hquiet rfl
        · unfold Server.addBaseUser at hr
          split at hr
          · cases hr
            exact hquiet rfl
          · rename_i hvalid
            split at hr
            · rename_i session hsession
              obtain ⟨old, hold, hr⟩ := Option.bind_eq_some_iff.mp hr
              cases hr
              simp only [opened_append, opened_removeOld hold, opened_closeUsers, Option.none_or] at hopened
              have hpending : pending = ⟨session, result.apply asked, remoteIp⟩ := by
                cases hopened
                rfl
              subst hpending
              exact ⟨⟨sessionType, asked, result, old, rfl, hcheck, rfl, hold, rfl⟩, hsession,
                by simpa using hvalid⟩
            · cases hr
              exact hquiet rfl
      · cases hr
        exact hquiet rfl
  | onRecvSession session c2sUser msg =>
    apply hquiet
    cases msg with
    | clientLogin clientIndex clientId publicIp hash nonce =>
      simp only [Server.runTask, Server.processMsgClientLogin] at hr
      split at hr
      · cases hr
        rfl
      · split at hr
        · cases hr
          rfl
        · split at hr
          · split at hr
            · cases hr
              rfl
            · exact opened_addSubUser hr
          · cases hr
            rfl
    | clientLogout clientId =>
      simp only [Server.runTask, Server.processMsgClientLogout] at hr
      split at hr
      · cases hr
        rfl
      · split at hr
        · obtain ⟨ctx, -, hr⟩ := Option.bind_eq_some_iff.mp hr
          split at hr <;>
          · cases hr
            rfl
        · cases hr
          rfl
  | kickoutUser user =>
    obtain ⟨old, hold, heq⟩ := Option.bind_eq_some_iff.mp hr
    cases heq
    apply hquiet
    simp only [opened_append, opened_removeOld hold, opened_closeUsers, opened_deleteSession,
      Option.or_none]
  | onCloseSession session errorCode sslCode =>
    apply hquiet
    simp only [Server.runTask, Server.asyncOnCloseSession] at hr
    split at hr
    · obtain ⟨ctx, -, hr⟩ := Option.bind_eq_some_iff.mp hr
      cases hr
      simp only [opened_append, opened_closeUsers]
      rfl
    · cases hr
      rfl

end Opened

namespace MsgSystem

structure Inv (up down : Trust) (w : MsgSystem) : Prop where
  links : AllReady up (w.pending.map Pending.session) w.links
  waiting : ∀ pending, w.pending = some pending → pending.user.valid = true ∧
    ∃ d, w.links[pending.session]? = some d ∧ d.user = pending.user ∧ d.Awaits pending.session
  downlinks : ∀ (id : Nat) (node : NodeState), w.nodes[id]? = some node →
    AllReady down none node.downlinks
  reports : ∀ report ∈ w.reports, report.Fits up down

/-- No message is routed to the session that waits for its response. -/
def Quiet (w : MsgSystem) (e : SystemEvent) : Prop :=
  ∀ r ∈ w.routed e, ∀ pending ∈ w.pending, ∀ entry ∈ r.1, entry.1 ≠ pending.session

/-- What is routed is trusted. -/
def RoutedFits (up down : Trust) (w : MsgSystem) (e : SystemEvent) : Prop :=
  ∀ r ∈ w.routed e, (∀ entry ∈ r.1, entry.2.Trusted up) ∧ ∀ report ∈ r.2, report.Fits up down

variable {up down : Trust} {w : MsgSystem}

theorem Inv.withRouted (h : w.Inv up down) {e : SystemEvent} (hquiet : w.Quiet e)
    (hfits : w.RoutedFits up down e) {r : Queued × List Report} (hr : w.routed e = some r) :
    (w.withRouted r).Inv up down := by
  obtain ⟨htrusted, hreports⟩ := hfits r hr
  refine ⟨h.links.push htrusted, ?_, h.downlinks, ?_⟩
  · intro pending hpending
    obtain ⟨hvalid, d, hd, huser, hawaits⟩ := h.waiting pending hpending
    refine ⟨hvalid, d, ?_, huser, hawaits⟩
    rw [← hd]
    exact getElem?_pushAll_of_ne (hquiet r hr pending hpending)
  · intro report hreport
    rcases List.mem_append.mp hreport with hreport | hreport
    · exact h.reports report hreport
    · exact hreports report hreport

theorem Inv.modifyNode (h : w.Inv up down) (id : Nat) {f : NodeState → NodeState}
    (hf : ∀ node, AllReady down none node.downlinks → AllReady down none (f node).downlinks) :
    (w.modifyNode id f).Inv up down := by
  refine ⟨h.links, h.waiting, ?_, h.reports⟩
  intro other node hnode
  simp only [MsgSystem.modifyNode, ExtTreeMap.getElem?_modify, Std.compare_eq_iff_eq] at hnode
  split at hnode
  · obtain ⟨before, hbefore, rfl⟩ := Option.map_eq_some_iff.mp hnode
    exact hf before (h.downlinks id before hbefore)
  · exact h.downlinks other node hnode

/-- A task of the server, up to the response. -/
theorem Inv.runTask (h : w.Inv up down) (hserver : up rootIdC2s .server) (t : Texts)
    {input : TaskInput} {task : Task} {peer : Option Nat} (hnone : w.pending = none)
    {next : MsgSystem} (hstep : w.runTask t input task peer = some next) : next.Inv up down := by
  obtain ⟨⟨server, calls⟩, hr, hstep⟩ := Option.bind_eq_some_iff.mp hstep
  have hlinks : AllReady up none (pushAll w.links (controls t calls)) := by
    have hbefore := h.links
    rw [hnone] at hbefore
    exact hbefore.push (trusted_controls hserver t calls)
  dsimp only at hr hstep
  cases hopened : opened calls with
  | none =>
    simp only [hopened] at hstep
    cases hstep
    refine ⟨?_, ?_, h.downlinks, h.reports⟩
    · dsimp only
      rw [hnone]
      exact hlinks
    · intro pending hpending
      rw [show w.pending = some pending from hpending] at hnone
      cases hnone
  | some pending =>
    have hopening := opening_runTask hr hopened
    obtain ⟨sessionType, asked, result, old, rfl, -⟩ := hopening.accepts
    simp only [hopened] at hstep
    cases hstep
    refine ⟨?_, ?_, ?_, h.reports⟩
    · intro other d hd hne
      rw [ExtTreeMap.getElem?_insert] at hd
      split at hd
      · rename_i heq
        exact absurd (congrArg some (Std.compare_eq_iff_eq.mp heq)) hne
      · exact hlinks other d hd (by simp)
    · intro other hother
      cases hother
      refine ⟨hopening.valid, _, ExtTreeMap.getElem?_insert_self, rfl, ?_⟩
      exact Downlink.awaits_new pending.session pending.user asked peer
    · intro id node hnode
      cases peer with
      | none => exact h.downlinks id node hnode
      | some own =>
        simp only [Option.elim_some, ExtTreeMap.getElem?_modify, Std.compare_eq_iff_eq] at hnode
        split at hnode
        · obtain ⟨before, hbefore, rfl⟩ := Option.map_eq_some_iff.mp hnode
          exact h.downlinks own before hbefore
        · exact h.downlinks id node hnode

theorem Inv.respond (h : w.Inv up down) (t : Texts) {pending : Pending}
    (hpending : w.pending = some pending) :
    Inv up down { w with
      pending := none
      links := pushAll w.links (response t pending.session pending.user pending.publicIp) } := by
  obtain ⟨hvalid, d, hd, huser, hawaits⟩ := h.waiting pending hpending
  have hlinks := h.links
  rw [hpending] at hlinks
  refine ⟨?_, (fun _ hother => nomatch hother), h.downlinks, h.reports⟩
  rw [← huser]
  exact hlinks.respond hd hawaits (huser ▸ hvalid) t pending.publicIp

/-- A session with a client that has been read from does not wait for its response. -/
theorem Inv.ready_of_unread (h : w.Inv up down) {session : Session} {d : Downlink}
    (hd : w.links[session]? = some d) (hunread : d.unread ≠ []) : d.Ready up session := by
  apply h.links session d hd
  intro heq
  obtain ⟨pending, hpending, rfl⟩ := Option.map_eq_some_iff.mp heq
  obtain ⟨-, e, he, -, hawaits⟩ := h.waiting pending hpending
  rw [hd, Option.some.injEq] at he
  subst he
  exact hunread hawaits.unread

/-- A packet has been read: its session is ready, and the others are as they were. -/
theorem Inv.read (h : w.Inv up down) {session : Session} {d next : Downlink}
    (hd : w.links[session]? = some d) (hunread : d.unread ≠ []) (hnext : next.Ready up session)
    {nodes : ExtTreeMap Nat NodeState} {reports : List Report}
    (hnodes : ∀ (id : Nat) (node : NodeState), nodes[id]? = some node →
      AllReady down none node.downlinks)
    (hreports : ∀ report ∈ reports, report.Fits up down) :
    Inv up down { w with
      links := w.links.insert session next
      nodes := nodes
      reports := w.reports ++ reports } := by
  refine ⟨h.links.insert hnext, ?_, hnodes, ?_⟩
  · intro pending hpending
    obtain ⟨hvalid, e, he, huser, hawaits⟩ := h.waiting pending hpending
    refine ⟨hvalid, e, ?_, huser, hawaits⟩
    rw [ExtTreeMap.getElem?_insert, if_neg, he]
    intro heq
    rw [Std.compare_eq_iff_eq] at heq
    subst heq
    rw [hd, Option.some.injEq] at he
    subst he
    exact hunread hawaits.unread
  · intro report hreport
    rcases List.mem_append.mp hreport with hreport | hreport
    · exact h.reports report hreport
    · exact hreports report hreport

theorem Inv.step (hweak : ∀ user origin, up user origin → down user origin)
    (hserver : up rootIdC2s .server)
    (hbound : ∀ id session user, down user (.session (some id) session user)) (t : Texts)
    (h : w.Inv up down) {e : SystemEvent} (hquiet : w.Quiet e) (hfits : w.RoutedFits up down e)
    {next : MsgSystem} (hstep : w.step t e = some next) : next.Inv up down := by
  cases e with
  | task input task peer =>
    simp only [MsgSystem.step] at hstep
    split at hstep
    · rename_i hmay
      simp only [mayRun, Bool.and_eq_true, Option.isNone_iff_eq_none] at hmay
      exact h.runTask hserver t hmay.1.1.1 hstep
    · cases hstep
  | respond =>
    obtain ⟨pending, hpending, rfl⟩ := Option.map_eq_some_iff.mp hstep
    exact h.respond t hpending
  | serverSend body charset dstUsers refused =>
    obtain ⟨r, hr, rfl⟩ := Option.map_eq_some_iff.mp hstep
    exact h.withRouted hquiet hfits hr
  | clientSend session p refused =>
    obtain ⟨r, hr, rfl⟩ := Option.map_eq_some_iff.mp hstep
    exact h.withRouted hquiet hfits hr
  | nodeSend id refused =>
    obtain ⟨r, hr, rfl⟩ := Option.map_eq_some_iff.mp hstep
    exact (h.withRouted hquiet hfits hr).modifyNode id fun _ hnode => hnode
  | clientRead session =>
    simp only [MsgSystem.step, Option.bind_eq_bind] at hstep
    obtain ⟨d, hd, hstep⟩ := Option.bind_eq_some_iff.mp hstep
    split at hstep
    · cases hstep
    · obtain ⟨⟨after, reports⟩, hread, heq⟩ := Option.bind_eq_some_iff.mp hstep
      cases heq
      have hunread : d.unread ≠ [] := by
        intro hempty
        simp [Downlink.read, hempty] at hread
      have hready := h.ready_of_unread hd hunread
      obtain ⟨hnext, -, -, hreports⟩ := hready.read up hweak hread
      exact h.read hd hunread hnext h.downlinks hreports
  | nodeRead id created sent asked =>
    simp only [MsgSystem.step, Option.bind_eq_bind] at hstep
    obtain ⟨node, hnode, hstep⟩ := Option.bind_eq_some_iff.mp hstep
    obtain ⟨session, -, hstep⟩ := Option.bind_eq_some_iff.mp hstep
    obtain ⟨d, hd, hstep⟩ := Option.bind_eq_some_iff.mp hstep
    split at hstep
    · cases hstep
    · rename_i packet rest hunread
      cases hstep
      have hne : d.unread ≠ [] := by
        rw [hunread]
        simp
      obtain ⟨hnext, haccesses⟩ := (h.ready_of_unread hd hne).receive hunread
      obtain ⟨hready, hreports⟩ := handle_fits (r := (node, [])) hweak t d.user packet created sent
        asked haccesses (h.downlinks id node hnode) (by simp)
      refine h.read hd hne hnext ?_ hreports
      intro other after hafter
      rw [ExtTreeMap.getElem?_insert] at hafter
      split at hafter
      · cases hafter
        exact hready
      · exact h.downlinks other after hafter
  | userSend id session p =>
    simp only [MsgSystem.step] at hstep
    split at hstep
    · cases hstep
      apply h.modifyNode
      intro node hnode
      apply hnode.push
      intro entry hentry
      obtain ⟨access, haccess, hentry⟩ := List.mem_flatMap.mp hentry
      obtain ⟨huser, hfrom⟩ := node.c2s.from_onRecvSession haccess
      apply trusted_queuedBy hfrom _ entry hentry
      rw [huser]
      exact hbound id session p.srcUser
    · cases hstep
  | userRead id session =>
    simp only [MsgSystem.step, Option.bind_eq_bind] at hstep
    obtain ⟨node, hnode, hstep⟩ := Option.bind_eq_some_iff.mp hstep
    obtain ⟨d, hd, hstep⟩ := Option.bind_eq_some_iff.mp hstep
    obtain ⟨⟨after, reports⟩, hread, heq⟩ := Option.bind_eq_some_iff.mp hstep
    cases heq
    have hready := h.downlinks id node hnode session d hd (by simp)
    obtain ⟨hnext, -, -, hreports⟩ := hready.read up (fun _ _ hdown => hdown) hread
    refine ⟨h.links, h.waiting, ?_, ?_⟩
    · intro other before hbefore
      rw [ExtTreeMap.getElem?_insert] at hbefore
      split at hbefore
      · cases hbefore
        exact (h.downlinks id node hnode).insert hnext
      · exact h.downlinks other before hbefore
    · intro report hreport
      rcases List.mem_append.mp hreport with hreport | hreport
      · exact h.reports report hreport
      · exact hreports report hreport
  | nodeOp id op =>
    cases hstep
    exact h.modifyNode id fun node hnode => hnode.withCalls t zeroUser (answers_run node.c2s op)
  | nodeClose id errorCode sslCode tcpConnected =>
    cases hstep
    exact h.modifyNode id fun node hnode =>
      hnode.withCalls t zeroUser (answers_onCloseMsg node.c2s errorCode sslCode tcpConnected)
  | nodeReconnect id connected =>
    cases hstep
    exact h.modifyNode id fun node hnode => hnode

section Routed

theorem from_forward {p : Payload} {fromC2s : Bool} {routing : Routing} {access : MsgAccess}
    (h : access ∈ Server.forward p fromC2s routing) : access.From p.srcUser := by
  unfold Server.forward at h
  simp only [List.mem_append] at h
  rcases h with ((h | h) | h) | h
  · split at h
    · cases h
    · rw [List.mem_singleton.mp h]
      rfl
  · obtain ⟨entry, -, rfl⟩ := List.mem_map.mp h
    rfl
  · split at h
    · rw [List.mem_singleton.mp h]
      trivial
    · cases h
  · split at h
    · rw [List.mem_singleton.mp h]
      rfl
    · cases h

/-- The server acts on a message only for a user of the link it comes from. -/
theorem from_onRecvSession {s : Server} {session : Session} {p : Payload}
    {accesses : List MsgAccess} (h : s.onRecvSession session p = some accesses) {access : MsgAccess}
    (haccess : access ∈ accesses) :
    access.From p.srcUser ∧
      ∃ ctx, LoginSystem.linkCtx? session s = some ctx ∧ p.srcUser ∈ ctx.users := by
  unfold Server.onRecvSession at h
  split at h
  · cases h
    cases haccess
  · split at h
    · rename_i ptr hptr
      obtain ⟨ctx, hctx, h⟩ := Option.bind_eq_some_iff.mp h
      split at h
      · cases h
        cases haccess
      · rename_i hspeaks
        obtain ⟨routing, -, h⟩ := Option.bind_eq_some_iff.mp h
        cases h
        refine ⟨?_, ctx, LoginSystem.linkCtx?_eq_some.mpr ⟨ptr, hptr, hctx⟩, ?_⟩
        · rcases List.mem_append.mp haccess with haccess | haccess
          · obtain ⟨entry, -, rfl⟩ := List.mem_map.mp haccess
            trivial
          · exact from_forward haccess
        · rw [LinkCtx.mem_users]
          by_contra hnot
          rw [not_or] at hnot
          exact hspeaks (by simp [hnot.1, hnot.2])
    · cases h
      cases haccess

/-- Both parts of what the server routes. -/
def Fits (up down : Trust) (r : Queued × List Report) : Prop :=
  (∀ entry ∈ r.1, entry.2.Trusted up) ∧ ∀ report ∈ r.2, report.Fits up down

theorem fits_nothing : Fits up down ([], []) :=
  ⟨fun _ hentry => absurd hentry List.not_mem_nil, fun _ hreport => absurd hreport List.not_mem_nil⟩

theorem fits_serverReceive {session : Session} {p : Payload} {source : Option Origin}
    {r : Queued × List Report} (hr : w.serverReceive session p source = some r)
    (htrust : ∀ ctx, LoginSystem.linkCtx? session w.server = some ctx → p.srcUser ∈ ctx.users →
      up p.srcUser (source.getD (.session none session (w.boundUser session)))) :
    Fits up down r := by
  obtain ⟨accesses, haccesses, hr⟩ := Option.bind_eq_some_iff.mp hr
  cases hr
  refine ⟨?_, ?_⟩
  · intro entry hentry
    obtain ⟨access, haccess, hentry⟩ := List.mem_flatMap.mp hentry
    obtain ⟨hfrom, ctx, hctx, hmem⟩ := from_onRecvSession haccesses haccess
    exact trusted_queuedBy hfrom (htrust ctx hctx hmem) entry hentry
  · intro report hreport
    obtain ⟨access, haccess, hsome⟩ := List.mem_filterMap.mp hreport
    obtain ⟨hfrom, ctx, hctx, hmem⟩ := from_onRecvSession haccesses haccess
    split at hsome
    · cases hsome
      cases hfrom
      exact htrust ctx hctx hmem
    · cases hsome

theorem trusted_sendMsg (hserver : up rootId .server) {s : Server} {body : List UInt8}
    {charset : UInt32} {dstUsers : List MsgUser} {packets : Queued}
    (h : s.sendMsg body charset dstUsers = some packets) :
    ∀ entry ∈ packets, entry.2.Trusted up := by
  unfold Server.sendMsg at h
  split at h
  · cases h
    exact fun _ hentry => nomatch hentry
  · obtain ⟨routing, -, h⟩ := Option.bind_eq_some_iff.mp h
    cases h
    intro entry hentry
    rcases List.mem_append.mp hentry with hentry | hentry
    · exact trusted_queuedFor hserver entry hentry
    · obtain ⟨group, -, hentry⟩ := List.mem_flatMap.mp hentry
      exact trusted_queuedFor hserver entry hentry

theorem nodeSend_cases {id : Nat} {r : Queued × List Report} (hr : w.nodeSend id = some r) :
    r = ([], []) ∨ ∃ node session item d p, w.nodes[id]? = some node ∧ node.uplink = some session ∧
      item ∈ node.outbox ∧ w.links[session]? = some d ∧ d.client.onOkCalled = true ∧
      p.srcUser = (item.source.map Prod.fst).getD d.client.user ∧
      w.serverReceive session p (item.source.map Prod.snd) = some r := by
  unfold MsgSystem.nodeSend at hr
  obtain ⟨node, hnode, hr⟩ := Option.bind_eq_some_iff.mp hr
  obtain ⟨session, hsession, hr⟩ := Option.bind_eq_some_iff.mp hr
  obtain ⟨item, hitem, hr⟩ := Option.bind_eq_some_iff.mp hr
  obtain ⟨d, hd, hr⟩ := Option.bind_eq_some_iff.mp hr
  split at hr
  · cases hr
  · rename_i hok
    split at hr
    · exact Or.inl (Option.some.inj hr).symm
    · rename_i p hp
      refine Or.inr ⟨node, session, item, d, p, hnode, hsession, List.mem_of_head? hitem, hd, ?_,
        srcUser_pushMsg hp, hr⟩
      simpa using hok

/-- What the server routes is trusted if what it receives is. -/
theorem routedFits (hserver : up rootId .server) (e : SystemEvent)
    (hclient : ∀ (session : Session) (d : Downlink) (p : Payload) (r : Queued × List Report),
      w.links[session]? = some d → d.peer = none → w.serverReceive session p none = some r →
      Fits up down r)
    (hnode : ∀ (id : Nat) (r : Queued × List Report), w.nodeSend id = some r → Fits up down r) :
    w.RoutedFits up down e := by
  have hfilter : ∀ {r : Queued × List Report} (refused : List Session), Fits up down r →
      Fits up down (r.1.filter fun entry => entry.1 ∉ refused, r.2) :=
    fun refused hfits => ⟨fun entry hentry => hfits.1 entry (List.mem_filter.mp hentry).1, hfits.2⟩
  intro r hr
  rw [Option.mem_def] at hr
  cases e with
  | serverSend body charset dstUsers refused =>
    obtain ⟨packets, hpackets, rfl⟩ := Option.map_eq_some_iff.mp hr
    exact ⟨fun entry hentry => trusted_sendMsg hserver hpackets entry (List.mem_filter.mp hentry).1,
      fits_nothing.2⟩
  | clientSend session p refused =>
    simp only [MsgSystem.routed] at hr
    split at hr
    · rename_i hcheck
      obtain ⟨before, hbefore, rfl⟩ := Option.map_eq_some_iff.mp hr
      simp only [Bool.and_eq_true, Option.any_eq_true, decide_eq_true_eq] at hcheck
      obtain ⟨⟨d, hd, hpeer⟩, -⟩ := hcheck
      exact hfilter refused (hclient session d p before hd hpeer hbefore)
    · cases hr
  | nodeSend id refused =>
    obtain ⟨before, hbefore, rfl⟩ := Option.map_eq_some_iff.mp hr
    exact hfilter refused (hnode id before hbefore)
  | _ =>
    cases hr
    exact fits_nothing

end Routed

/-- The login response is what a session begins with, and what its client takes for it. -/
structure ResponseFirst (w : MsgSystem) : Prop where
  first : ∀ (session : Session) (d : Downlink), w.links[session]? = some d → ∀ packet,
    d.log.head? = some packet → packet.origin = .response d.user ∧ packet.payload.srcUser = d.user
  user : ∀ (session : Session) (d : Downlink), w.links[session]? = some d →
    d.client.onOkCalled = true → d.client.user = d.user
  reported : ∀ user srcUser origin, .onOkMsg user srcUser origin ∈ w.reports →
    srcUser = user ∧ origin = .response user

theorem inv_init (up down : Trust) (sslConfig sslForced : Bool) (nodes : ExtTreeMap Nat C2s) :
    (init sslConfig sslForced nodes).Inv up down := by
  refine ⟨?_, (fun _ h => nomatch h), ?_, by simp [init]⟩
  · intro session d hd
    simp [init] at hd
  · intro id node hnode
    simp only [init, ExtTreeMap.getElem?_map] at hnode
    obtain ⟨c2s, -, rfl⟩ := Option.map_eq_some_iff.mp hnode
    intro session d hd
    simp at hd

theorem Inv.responseFirst (h : w.Inv up down) : w.ResponseFirst := by
  have hwaiting : ∀ (session : Session) (d : Downlink), w.links[session]? = some d →
      d.Ready up session ∨ d.Awaits session := by
    intro session d hd
    by_cases heq : w.pending.map Pending.session = some session
    · obtain ⟨pending, hpending, rfl⟩ := Option.map_eq_some_iff.mp heq
      obtain ⟨-, e, he, -, hawaits⟩ := h.waiting pending hpending
      rw [hd, Option.some.injEq] at he
      exact Or.inr (he ▸ hawaits)
    · exact Or.inl (h.links session d hd heq)
  refine ⟨?_, ?_, ?_⟩
  · intro session d hd packet hpacket
    rcases hwaiting session d hd with hready | hawaits
    · obtain ⟨first, rest, hlog, hfirst⟩ := hready.first
      rw [hlog, List.head?_cons, Option.some.injEq] at hpacket
      subst hpacket
      exact ⟨hfirst.origin, hfirst.srcUser⟩
    · rw [hawaits.log] at hpacket
      cases hpacket
  · intro session d hd hok
    rcases hwaiting session d hd with hready | hawaits
    · rcases hready.unread with ⟨hnot, -⟩ | ⟨-, huser, -⟩
      · rw [hok] at hnot
        cases hnot
      · exact huser
    · rw [hawaits.onOkCalled] at hok
      cases hok
  · intro user srcUser origin hreport
    exact h.reports _ hreport

instance (w : MsgSystem) (e : SystemEvent) : Decidable (w.Quiet e) := by
  unfold Quiet
  infer_instance

/-- Texts for runs without control messages, at the address 0.0.0.0. -/
def noTexts : Texts where
  downText _ := []
  parseDown _ := none
  upText _ := []
  inetAton _ := 0
  inetNtoa _ := "0.0.0.0"

def noNodes : ExtTreeMap Nat C2s := ∅

/-- The user 2-7 logs in on session 10. -/
def acceptEvent : SystemEvent :=
  .task ⟨some ⟨7, 0, 0, false⟩, some 10, 100⟩ (.onAcceptSession .tcpClientEx (.ofIds 2 7 0) "0.0.0.0")
    none

/-- The server sends the byte 1 to the user 2-7. -/
def helloEvent : SystemEvent := .serverSend [1] 0 [.ofIds 2 7 0] []

def answeredEvents : List SystemEvent := [acceptEvent, .respond, helloEvent, .clientRead 10, .clientRead 10]

def answeredState : MsgSystem :=
  (run (step noTexts) (init false false noNodes) answeredEvents).get (by decide +kernel)

def overtakenEvents : List SystemEvent := [acceptEvent, helloEvent, .respond, .clientRead 10, .clientRead 10]

def overtakenState : MsgSystem :=
  (run (step noTexts) (init false false noNodes) overtakenEvents).get (by decide +kernel)

end MsgSystem

end Pronet.Msg
