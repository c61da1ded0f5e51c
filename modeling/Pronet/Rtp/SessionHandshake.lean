import Pronet.Rtp.InPlace
import Pronet.Rtp.RtpServiceRun
import Pronet.Rtp.SendReceive
import Pronet.Rtp.SessionEvents
import Pronet.Util.Scanf

/-! The packets of the handshake between the EX sessions: a client introduces itself to the service
with its info and the hash of its password, and the session of the server answers with its
version. -/
namespace Pronet.Rtp

open Library Runs Std

namespace RtpSessionInfo

/-- The fields in the order of the network. -/
def parts (info : RtpSessionInfo) : List (List UInt8) :=
  [be16 info.localVersion, be16 info.remoteVersion, [info.sessionType], [info.mmType], info.passwordHash.toList,
    info.reserved.toList, be32 info.someId, be32 info.mmId, be32 info.inSrcMmId, be32 info.outSrcMmId,
    info.userData.toList]

def bytes (info : RtpSessionInfo) : List UInt8 := info.parts.flatten

end RtpSessionInfo

/-- `GetRtpSessionVersion`. -/
def getRtpSessionVersion : UInt16 := 1

/-- `RTP_ST_TCPCLIENT_EX`, `RTP_ST_SSLCLIENT_EX` and `RTP_ST_TCPSERVER_EX`. -/
def tcpclientEx : UInt8 := 7
def sslclientEx : UInt8 := 9
def tcpserverEx : UInt8 := 8

/-- `m_info` of the EX clients, and of `CRtpSessionTcpserverEx`. -/
def clientInfo (localInfo : RtpSessionInfo) (hasSslConfig : Bool) : RtpSessionInfo :=
  { localInfo with
    localVersion := getRtpSessionVersion
    remoteVersion := 0
    sessionType := if hasSslConfig then sslclientEx else tcpclientEx }

def serverInfo (localInfo : RtpSessionInfo) : RtpSessionInfo :=
  { localInfo with localVersion := getRtpSessionVersion, sessionType := tcpserverEx }

/-- `ProCalcPasswordHash`, where `sha256` is `ProSha256All`. -/
def calcPasswordHash (sha256 : List UInt8 → Vector UInt8 32) (nonce : UInt64) (password : List UInt8) :
    Vector UInt8 32 :=
  sha256 (Util.sprintfU nonce.toNat ++ password)

def checkRtpServiceData (sha256 : List UInt8 → Vector UInt8 32) (nonce : UInt64) (password : List UInt8)
    (passwordHash : Vector UInt8 32) : Bool :=
  calcPasswordHash sha256 nonce password = passwordHash

/-- The bytes of a packet of the session, with its extension and header. -/
def packetData (info : RtpSessionInfo) (payload : List UInt8) : Option (List UInt8) := do
  let packet ← RtpPacket.createInstance payload
  let packet := (packet.setMmId info.mmId).setMmType info.mmType
  some (packet.bytes.take (packet.getPayloadSize.toNat + sizeofHeader + sizeofExt))

/-- What `DoHandshake` of a client gives to its handshaker. -/
def clientHello (sha256 : List UInt8 → Vector UInt8 32) (info : RtpSessionInfo) (password : List UInt8)
    (nonce : UInt64) : Option (List UInt8) :=
  packetData info { info with passwordHash := calcPasswordHash sha256 nonce password }.bytes

/-- What `DoHandshake` of a server gives to its transport. -/
def serverHello (info : RtpSessionInfo) : Option (List UInt8) := packetData info (be16 info.localVersion)

theorem parts_at {parts : List (List UInt8)} {n : Nat} {part : List UInt8} (h : parts[n]? = some part) :
    parts.flatten = (parts.take n).flatten ++ part ++ (parts.drop (n + 1)).flatten := by
  obtain ⟨hn, hpart⟩ := List.getElem?_eq_some_iff.mp h
  conv_lhs => rw [← List.take_append_drop n parts, List.drop_eq_getElem_cons hn, hpart]
  rw [List.flatten_append, List.flatten_cons, List.append_assoc]

theorem byteAt_append (front back : List UInt8) (i : Nat) : byteAt (front ++ back) (front.length + i) = byteAt back i := by
  unfold byteAt
  rw [List.getD_append_right _ _ _ _ (Nat.le_add_right _ _), Nat.add_sub_cancel_left]

theorem be16At_append (front back : List UInt8) (i : Nat) : be16At (front ++ back) (front.length + i) = be16At back i := by
  unfold be16At
  rw [byteAt_append, Nat.add_assoc, byteAt_append]

theorem be32At_append (front back : List UInt8) (i : Nat) : be32At (front ++ back) (front.length + i) = be32At back i := by
  unfold be32At
  simp only [Nat.add_assoc, byteAt_append]

theorem vectorAt_append {n : Nat} (front back : List UInt8) (values : Vector UInt8 n) :
    vectorAt (front ++ (values.toList ++ back)) front.length n = values := by
  apply Vector.ext
  intro i hi
  unfold vectorAt
  rw [Vector.getElem_ofFn, byteAt_append]
  unfold byteAt
  have hlength : i < values.toList.length := by simpa using hi
  rw [List.getD_append _ _ _ _ hlength, List.getD_eq_getElem _ _ hlength]
  simp

/-- A part of the bytes, behind those of the parts in front of it. -/
theorem RtpSessionInfo.bytes_at (info : RtpSessionInfo) {n offset : Nat} {part : List UInt8}
    (hpart : info.parts[n]? = some part) (hoffset : (info.parts.take n).flatten.length = offset) :
    ∃ front back, info.bytes = front ++ (part ++ back) ∧ front.length = offset := by
  refine ⟨_, (info.parts.drop (n + 1)).flatten, ?_, hoffset⟩
  rw [← List.append_assoc]
  exact parts_at hpart

section Fields

variable {info : RtpSessionInfo} {n offset : Nat}

theorem be16At_bytes {value : UInt16} (hpart : info.parts[n]? = some (be16 value))
    (hoffset : (info.parts.take n).flatten.length = offset) : be16At info.bytes offset = value := by
  obtain ⟨front, back, hbytes, rfl⟩ := info.bytes_at hpart hoffset
  rw [hbytes, ← Nat.add_zero front.length, be16At_append]
  exact be16At_be16 value [] back

theorem be32At_bytes {value : UInt32} (hpart : info.parts[n]? = some (be32 value))
    (hoffset : (info.parts.take n).flatten.length = offset) : be32At info.bytes offset = value := by
  obtain ⟨front, back, hbytes, rfl⟩ := info.bytes_at hpart hoffset
  rw [hbytes, ← Nat.add_zero front.length, be32At_append]
  exact be32At_be32 value back

theorem byteAt_bytes {value : UInt8} (hpart : info.parts[n]? = some [value])
    (hoffset : (info.parts.take n).flatten.length = offset) : byteAt info.bytes offset = value := by
  obtain ⟨front, back, hbytes, rfl⟩ := info.bytes_at hpart hoffset
  rw [hbytes, ← Nat.add_zero front.length, byteAt_append]
  rfl

theorem vectorAt_bytes {k : Nat} {values : Vector UInt8 k} (hpart : info.parts[n]? = some values.toList)
    (hoffset : (info.parts.take n).flatten.length = offset) : vectorAt info.bytes offset k = values := by
  obtain ⟨front, back, hbytes, rfl⟩ := info.bytes_at hpart hoffset
  rw [hbytes]
  exact vectorAt_append front back values

end Fields

/-- The offsets of `RTP_SESSION_INFO`. -/
theorem RtpSessionInfo.offset_part (info : RtpSessionInfo) (n : Nat) :
    (info.parts.take n).flatten.length = ([2, 2, 1, 1, 32, 34, 4, 4, 4, 4, 64].take n).sum := by
  have hlengths : info.parts.map List.length = [2, 2, 1, 1, 32, 34, 4, 4, 4, 4, 64] := by
    simp [parts, be16, be32]
  rw [List.length_flatten, List.map_take, hlengths]

/-- The info that the service reads is the one that the client has sent. -/
theorem ofBytes_bytes (info : RtpSessionInfo) : RtpSessionInfo.ofBytes info.bytes = info := by
  have hlocalVersion : be16At info.bytes 0 = info.localVersion :=
    be16At_bytes rfl (info.offset_part 0)
  have hremoteVersion : be16At info.bytes 2 = info.remoteVersion :=
    be16At_bytes rfl (info.offset_part 1)
  have hsessionType : byteAt info.bytes 4 = info.sessionType :=
    byteAt_bytes rfl (info.offset_part 2)
  have hmmType : byteAt info.bytes 5 = info.mmType :=
    byteAt_bytes rfl (info.offset_part 3)
  have hpasswordHash : vectorAt info.bytes 6 32 = info.passwordHash :=
    vectorAt_bytes rfl (info.offset_part 4)
  have hreserved : vectorAt info.bytes 38 34 = info.reserved :=
    vectorAt_bytes rfl (info.offset_part 5)
  have hsomeId : be32At info.bytes 72 = info.someId :=
    be32At_bytes rfl (info.offset_part 6)
  have hmmId : be32At info.bytes 76 = info.mmId :=
    be32At_bytes rfl (info.offset_part 7)
  have hinSrcMmId : be32At info.bytes 80 = info.inSrcMmId :=
    be32At_bytes rfl (info.offset_part 8)
  have houtSrcMmId : be32At info.bytes 84 = info.outSrcMmId :=
    be32At_bytes rfl (info.offset_part 9)
  have huserData : vectorAt info.bytes 88 64 = info.userData :=
    vectorAt_bytes rfl (info.offset_part 10)
  unfold RtpSessionInfo.ofBytes
  rw [hlocalVersion, hremoteVersion, hsessionType, hmmType, hpasswordHash, hreserved, hsomeId,
    hmmId, hinSrcMmId, houtSrcMmId, huserData]

theorem length_bytes (info : RtpSessionInfo) : info.bytes.length = sizeofSessionInfo := info.offset_part 11

/-- A packet of the session is one that the other side parses, and has the payload behind its header. -/
theorem packetData_spec (info : RtpSessionInfo) {payload : List UInt8} (hpos : 0 < payload.length)
    (hmax : payload.length ≤ maxPayloadSize) :
    ∃ data, packetData info payload = some data ∧ data.length = sizeofExt + sizeofHeader + payload.length ∧
      parseExtBuffer data (UInt16.ofNat data.length) = true ∧ data.drop (sizeofExt + sizeofHeader) = payload := by
  cases hcreate : RtpPacket.createInstance payload with
  | none =>
    rw [RtpPacket.createInstance_eq_none_iff] at hcreate
    omega
  | some packet =>
    have hcarries := ((RtpPacket.carries_createInstance hcreate).1.apply (.mmId info.mmId)).apply (.mmType info.mmType)
    have hlength := hcarries.length
    have hwhole : ∀ p : RtpPacket, p.Carries payload →
        p.bytes.take (p.getPayloadSize.toNat + sizeofHeader + sizeofExt) = p.bytes := by
      intro p hp
      apply List.take_of_length_le
      rw [hp.length, hp.payloadSize hmax]
      unfold sizeofHeader sizeofExt
      omega
    have hsmall : payload.length ≤ 1024 * 63 := hmax
    refine ⟨((packet.setMmId info.mmId).setMmType info.mmType).bytes, ?_, hlength, ?_, hcarries.payload_eq⟩
    · unfold packetData
      rw [hcreate, Option.bind_eq_bind, Option.bind_some]
      exact congrArg some (hwhole _ hcarries)
    · have hsize16 : (UInt16.ofNat ((packet.setMmId info.mmId).setMmType info.mmType).bytes.length).toNat =
          20 + payload.length := by
        rw [show ((packet.setMmId info.mmId).setMmType info.mmType).bytes.length = 20 + payload.length from hlength,
          UInt16.toNat_ofNat']
        omega
      have hword : (be16At ((packet.setMmId info.mmId).setMmType info.mmType).bytes 6).toNat = 12 + payload.length := by
        rw [show be16At ((packet.setMmId info.mmId).setMmType info.mmType).bytes 6 = _ from hcarries.size,
          UInt16.toNat_ofNat']
        omega
      have hfirst : byteAt ((packet.setMmId info.mmId).setMmType info.mmType).bytes 8 = 128 := hcarries.first
      unfold parseExtBuffer sizeofExt sizeofHeader
      rw [hsize16, hword, hfirst, if_neg (by omega), if_neg (by omega)]
      rfl

/-- The info that a client sends. -/
def RtpSessionInfo.hashed (info : RtpSessionInfo) (sha256 : List UInt8 → Vector UInt8 32) (nonce : UInt64)
    (password : List UInt8) : RtpSessionInfo :=
  { info with passwordHash := calcPasswordHash sha256 nonce password }

theorem clientHello_spec (sha256 : List UInt8 → Vector UInt8 32) (info : RtpSessionInfo) (password : List UInt8)
    (nonce : UInt64) : ∃ hello, clientHello sha256 info password nonce = some hello ∧
      hello.length = RtpService.recvDataSize ∧ parseExtBuffer hello (UInt16.ofNat hello.length) = true ∧
      RtpSessionInfo.ofBytes (hello.drop (sizeofExt + sizeofHeader)) = info.hashed sha256 nonce password := by
  have hlength := length_bytes (info.hashed sha256 nonce password)
  have hpos : 0 < (info.hashed sha256 nonce password).bytes.length := by
    rw [hlength]
    decide
  have hmax : (info.hashed sha256 nonce password).bytes.length ≤ maxPayloadSize := by
    rw [hlength]
    decide
  obtain ⟨hello, hsome, hsize, hparse, hpayload⟩ := packetData_spec info hpos hmax
  refine ⟨hello, hsome, ?_, hparse, ?_⟩
  · rw [hsize, hlength]
    rfl
  · rw [hpayload, ofBytes_bytes]

theorem serverHello_spec (info : RtpSessionInfo) : ∃ hello, serverHello info = some hello ∧
    hello.length = sizeofExt + sizeofHeader + 2 ∧ parseExtBuffer hello (UInt16.ofNat hello.length) = true ∧
    be16At hello (sizeofExt + sizeofHeader) = info.localVersion := by
  have hpos : 0 < (be16 info.localVersion).length := Nat.zero_lt_two
  have hmax : (be16 info.localVersion).length ≤ maxPayloadSize := (by decide : 2 ≤ maxPayloadSize)
  obtain ⟨hello, hsome, hsize, hparse, hpayload⟩ := packetData_spec info hpos hmax
  refine ⟨hello, hsome, hsize, hparse, ?_⟩
  have hdrop : be16At hello (sizeofExt + sizeofHeader) = be16At (hello.drop (sizeofExt + sizeofHeader)) 0 := by
    unfold be16At
    rw [byteAt_drop, byteAt_drop]
    rfl
  rw [hdrop, hpayload]
  simpa using be16At_be16 info.localVersion [] []

/-- The section of a service for a client that has introduced itself. -/
theorem handshakeOk_of_hello {s : RtpService} {table : HandshakerTable} {store : HandshakerTable → RtpService}
    {handshaker : Nat} {nonce : UInt64} (hopen : s.serviceHost ≠ none) (hentry : table[handshaker]? = some nonce)
    {hello : List UInt8} (hsize : hello.length = RtpService.recvDataSize)
    (hparse : parseExtBuffer hello (UInt16.ofNat hello.length) = true) {sock : HandshakeSock} {hasPeer : Bool}
    (hpeer : sock.unixSocket = true ∨ hasPeer = true) :
    s.handshakeOk table store handshaker sock hello hasPeer =
      (store (table.erase handshaker), [.handBack handshaker sock],
        [.deleteHandshaker handshaker,
          .onAcceptSession ⟨handshaker, sock, .ofBytes (hello.drop (sizeofExt + sizeofHeader)), nonce⟩]) := by
  have hfound : (!sock.unixSocket && !hasPeer) = false := by
    rcases hpeer with hpeer | hpeer <;> simp [hpeer]
  unfold RtpService.handshakeOk
  rw [if_neg (by simpa using hopen), hentry, hfound]
  simp [hsize, hsize ▸ hparse]

/-- What a client, the service and the session of the server make of the two packets. -/
structure AcceptsOwnInfo (sha256 : List UInt8 → Vector UInt8 32) (info : RtpSessionInfo) (password : List UInt8)
    (nonce : UInt64) (w : ServiceRun) (hello : List UInt8) : Prop where
  size : hello.length = RtpService.recvDataSize
  accepted : ∀ pre a post s, w.effects.done = pre ++ .onAcceptSession a :: post →
    w.shakers[a.handshaker]? = some s → s.result = some (some hello) →
    a.info = info.hashed sha256 nonce password ∧
      ∀ password', checkRtpServiceData sha256 a.nonce password' a.info.passwordHash = true ↔
        sha256 (Util.sprintfU a.nonce.toNat ++ password') = sha256 (Util.sprintfU nonce.toNat ++ password)
  accepts : ∀ (ssl : Bool) (i : Nat) (s : Shaker) (offered : UInt64) (hasPeer : Bool),
    (w.service.table ssl)[i]? = some offered → w.shakers[i]? = some s → s.result = some (some hello) →
    s.sock.unixSocket = true ∨ hasPeer = true →
    ∃ next, w.step (.report i hasPeer) = some next ∧ next.effects.pending = w.effects.pending ++
      [[.deleteHandshaker i, .onAcceptSession ⟨i, s.sock, info.hashed sha256 nonce password, offered⟩]]
  answered : ∀ localInfo : RtpSessionInfo, ∃ answer, serverHello (serverInfo localInfo) = some answer ∧
    ∀ (s : Session) (trans : NewTrans), (s.handshaken answer (some trans)).2 = true ∧
      (s.handshaken answer (some trans)).1.handshakeOk = true ∧
      (s.handshaken answer (some trans)).1.remoteVersion = getRtpSessionVersion

theorem handshaken_of_serverHello {info : RtpSessionInfo} {answer : List UInt8}
    (hanswer : serverHello info = some answer) (s : Session) (trans : NewTrans) :
    (s.handshaken answer (some trans)).2 = true ∧ (s.handshaken answer (some trans)).1.handshakeOk = true ∧
      (s.handshaken answer (some trans)).1.remoteVersion = info.localVersion := by
  obtain ⟨answer', hsome, hsize, hparse, hversion⟩ := serverHello_spec info
  cases hanswer.symm.trans hsome
  rw [hsize] at hparse
  unfold Session.handshaken
  simp only [hsize, hparse, hversion, ne_eq, not_true_eq_false, Bool.not_true, Bool.false_eq_true, if_false,
    Option.isSome_some, if_true, true_and]
  rfl

/-- Whatever else the service does, and whoever else comes: a client that has introduced itself is
accepted with its own info, and its password is checked against the nonce that it was offered. -/
theorem acceptsOwnInfo_of_service_run (sha256 : List UInt8 → Vector UInt8 32) (localInfo : RtpSessionInfo)
    (hasSslConfig : Bool) (password : List UInt8) (nonce : UInt64) {serviceHost : Nat} {mmType : UInt8}
    {sslService : Bool} {es : List ServiceEvent} {w : ServiceRun}
    (hrun : run ServiceRun.step (ServiceRun.start serviceHost mmType sslService) es = some w) :
    ∃ hello, clientHello sha256 (clientInfo localInfo hasSslConfig) password nonce = some hello ∧
      AcceptsOwnInfo sha256 (clientInfo localInfo hasSslConfig) password nonce w hello := by
  obtain ⟨hello, hsome, hsize, hparse, hinfo⟩ :=
    clientHello_spec sha256 (clientInfo localInfo hasSslConfig) password nonce
  have hinv := ServiceRun.inv_of_run hrun
  refine ⟨hello, hsome, hsize, ?_, ?_, ?_⟩
  · intro pre a post s hdone hs hresult
    obtain ⟨-, -, s', buf, hs', hresult', hgenuine⟩ := hinv.serves.accepted pre a post hdone
    cases hs.symm.trans hs'
    cases hresult.symm.trans hresult'
    have hsame := hgenuine.info.trans hinfo
    refine ⟨hsame, ?_⟩
    intro password'
    rw [hsame]
    unfold checkRtpServiceData RtpSessionInfo.hashed calcPasswordHash
    exact decide_eq_true_iff
  · intro ssl i s offered hasPeer hentry hs hresult hpeer
    obtain ⟨s', hs', hkind, -, hcalled, -⟩ := hinv.entries ssl i offered hentry
    cases hs.symm.trans hs'
    have hopen : w.service.serviceHost ≠ none := by
      intro hclosed
      rw [ServiceRun.empty_of_closed hinv ssl hclosed] at hentry
      simp at hentry
    have hsection : (w.reportSection i s (some hello) hasPeer).2.2 = [.deleteHandshaker i,
        .onAcceptSession ⟨i, s.sock, (clientInfo localInfo hasSslConfig).hashed sha256 nonce password, offered⟩] := by
      unfold ServiceRun.reportSection
      rw [← hinfo]
      cases hctx : s.sock.ctx with
      | none =>
        rw [hctx] at hkind
        subst hkind
        exact congrArg (fun r => r.2.2) (handshakeOk_of_hello hopen hentry hsize hparse hpeer)
      | some ctx =>
        rw [hctx] at hkind
        subst hkind
        exact congrArg (fun r => r.2.2) (handshakeOk_of_hello hopen hentry hsize hparse hpeer)
    refine ⟨(w.put i { s with called := true }).enter (w.reportSection i s (some hello) hasPeer), ?_, ?_⟩
    · show (w.shakers[i]?).bind _ = _
      rw [hs, Option.bind_some, hresult]
      show (if s.called = true then none else _) = _
      rw [hcalled]
      rfl
    · unfold ServiceRun.enter Deferred.enter
      rw [hsection]
      rfl
  · intro serverLocal
    obtain ⟨answer, hanswer, -⟩ := serverHello_spec (serverInfo serverLocal)
    exact ⟨answer, hanswer, fun s trans => handshaken_of_serverHello hanswer s trans⟩

/-- A digest for the example: the length of the text, and its last bytes. -/
def shortDigest (text : List UInt8) : Vector UInt8 32 :=
  vectorAt (UInt8.ofNat text.length :: text.reverse) 0 32

def exampleInfo : RtpSessionInfo :=
  ⟨0, 0, 0, 11, Vector.replicate 32 0, Vector.replicate 34 0, 5, 6, 0, 0, Vector.replicate 64 9⟩

def oneClient (hello : List UInt8) : List ServiceEvent :=
  [.onServiceAccept ⟨1, 20, false, 11, 0, 900⟩ none true, .decide 0 (some hello), .report 0 true, .proceed 0,
    .proceed 0]

theorem acceptsOwnInfo_of_service_run_oneClient :
    ∃ hello w, run ServiceRun.step (ServiceRun.start 1 11 false) (oneClient hello) = some w ∧
      AcceptsOwnInfo shortDigest (clientInfo exampleInfo false) [112, 119] 900 w hello ∧
      w.effects.done.filterMap ServiceEffect.sockGone = [20] := by
  have hgone : (clientHello shortDigest (clientInfo exampleInfo false) [112, 119] 900).bind (fun hello =>
      (run ServiceRun.step (ServiceRun.start 1 11 false) (oneClient hello)).map fun w =>
        w.effects.done.filterMap ServiceEffect.sockGone) = some [20] := by decide +kernel
  obtain ⟨hello, hhello, hrun⟩ := Option.bind_eq_some_iff.mp hgone
  obtain ⟨w, hw, hsocks⟩ := Option.map_eq_some_iff.mp hrun
  obtain ⟨hello', hhello', haccepts⟩ := acceptsOwnInfo_of_service_run shortDigest exampleInfo false [112, 119] 900 hw
  cases hhello.symm.trans hhello'
  exact ⟨hello, w, hw, haccepts, hsocks⟩

end Pronet.Rtp
