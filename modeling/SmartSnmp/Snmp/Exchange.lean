import SmartSnmp.Snmp.Accept
import SmartSnmp.Snmp.Global
import SmartSnmp.Snmp.Lengths
import SmartSnmp.Snmp.RoundTrip

/-!
# Exchanges

A request on the wire and the response to it on the wire: the bytes that are received, decoded,
dispatched, answered and encoded again, read by the peer. The response can be matched with its request,
and says what the request function has put in it.
-/

namespace SmartSnmp

/-! ### What the request functions keep -/

section Requests

variable {handlers : Handlers} {root : MibNode} {mv : MibViews} {I : ProcState → Prop}
  (hadd : ∀ s ret vbOut oid valueType value, I s →
    responseVarBind oid valueType value = some vbOut → I (s.add ret vbOut))
  (hin : ∀ s vbs, I s → I { s with sdg := { s.sdg with vbInList := vbs } })

lemma getVarBind_eq_some {vbOut : VarBind} {ret : OidSearchRes}
    (h : getVarBind ret = some vbOut) :
    ∃ oid valueType value, responseVarBind oid valueType value = some vbOut := by
  obtain ⟨_, _, h⟩ := Option.bind_eq_some_iff.mp h
  obtain ⟨_, _, h⟩ := Option.bind_eq_some_iff.mp h
  exact ⟨_, _, _, h⟩

lemma setVarBind_eq_some {vbIn vbOut : VarBind} {ret : OidSearchRes}
    (h : setVarBind vbIn ret = some vbOut) :
    ∃ oid valueType value, responseVarBind oid valueType value = some vbOut := by
  obtain ⟨_, _, h⟩ := Option.bind_eq_some_iff.mp h
  obtain ⟨_, _, h⟩ := Option.bind_eq_some_iff.mp h
  exact ⟨_, _, _, h⟩

include hadd

/-- An iteration adds a varbind of a response. -/
lemma keeps_processVarBind {search : SnmpDatagram → VarBind → OidSearchRes → Traced Call OidSearchRes}
    {encode : VarBind → OidSearchRes → Option VarBind}
    (hencode : ∀ vbIn ret vbOut, encode vbIn ret = some vbOut →
      ∃ oid valueType value, responseVarBind oid valueType value = some vbOut)
    (status : OidSearchRes → OidSearchRes) {s : ProcState} (hs : I s) (vbIn : VarBind) :
    Traced.Returns I (processVarBind search encode status s vbIn) := by
  rw [processVarBind]
  cases decodeValue vbIn s.ret with
  | none => exact Traced.returns_crash
  | some ret =>
    refine (Traced.returns_true _).bind fun ret' _ => ?_
    cases hout : encode vbIn ret' with
    | none => exact Traced.returns_crash
    | some vbOut =>
      obtain ⟨oid, valueType, value, hvb⟩ := hencode vbIn ret' vbOut hout
      exact Traced.returns_pure (hadd s _ vbOut oid valueType value hs hvb)

lemma keeps_bulkRound {vbs : List VarBind} {s : ProcState} (hs : I s) :
    Traced.Returns (fun x => I x.2) (bulkRound handlers root mv vbs s) := by
  induction vbs generalizing s with
  | nil => exact Traced.returns_pure hs
  | cons vbIn vbs ih =>
    refine (keeps_processVarBind hadd (fun _ _ _ => getVarBind_eq_some) id hs vbIn).bind fun s' hs' => ?_
    exact (ih hs').bind fun x hx => Traced.returns_pure hx

include hin

lemma keeps_bulkRounds (rep : Nat) {s : ProcState} (hs : I s) :
    Traced.Returns I (bulkRounds handlers root mv rep s) := by
  induction rep generalizing s with
  | zero => exact Traced.returns_pure hs
  | succ rep ih => exact (keeps_bulkRound hadd hs).bind fun x hx => ih (hin _ _ hx)

/-- What holds at the start of a request function, and is kept by each varbind that it adds, holds when
it responds. -/
lemma keeps_snmpRequestDispatch {sdg : SnmpDatagram} (hinit : ∀ request, I (.init request sdg.start)) :
    Traced.Returns (fun x => ∀ s r, x = some (s, r) → I s) (snmpRequestDispatch handlers root mv sdg) := by
  have hsome : ∀ {request : Traced Call (ProcState × Response)},
      Traced.Returns (fun x => I x.1 ∧ snmpResponse x.1.sdg = some x.2) request →
      Traced.Returns (fun x => ∀ s r, x = some (s, r) → I s) (request >>= fun r => pure (some r)) := by
    refine fun h => h.bind fun x hx => Traced.returns_pure fun s r heq => ?_
    obtain rfl := Option.some.inj heq
    exact hx.1
  have hfold : ∀ (step : ProcState → VarBind → Traced Call ProcState) (request : MibReq),
      (∀ s vbIn, I s → Traced.Returns I (step s vbIn)) → sdg.pduHdr.pduType ≠ mibReqBulkget →
      Traced.Returns (fun x => I x.1 ∧ snmpResponse x.1.sdg = some x.2)
        (sdg.setResponse.vbInList.foldlM step (.init request sdg.setResponse) >>= respond) := by
    intro step request hstep hbulk
    refine (Traced.returns_foldlM hstep _ ?_).bind fun s hs => returns_respond hs
    have h := hinit request
    rwa [SnmpDatagram.start, if_neg hbulk] at h
  simp only [snmpRequestDispatch, requestFunction]
  split_ifs with hget hnext hset hbulk
  · exact hsome (hfold _ .get (fun s vbIn hs => keeps_processVarBind hadd
      (fun _ _ _ => getVarBind_eq_some) id hs vbIn) (by rw [hget]; decide))
  · exact hsome (hfold _ .getNext (fun s vbIn hs => keeps_processVarBind hadd
      (fun _ _ _ => getVarBind_eq_some) id hs vbIn) (by rw [hnext]; decide))
  · exact hsome (hfold _ .set (fun s vbIn hs => keeps_processVarBind hadd
      (fun _ _ _ => setVarBind_eq_some) setStatus hs vbIn) (by rw [hset]; decide))
  · refine hsome (Traced.Returns.bind (keeps_bulkRounds hadd hin _ ?_) fun s hs => returns_respond hs)
    have h := hinit .getNext
    rwa [SnmpDatagram.start, if_pos hbulk] at h
  · exact Traced.returns_pure (by simp)

end Requests

/-! ### Lengths of the varbinds -/

/-- The lengths of the varbinds of the response are those of their OIDs and values, and that of the
list is their sum. -/
structure Ledger (sdg : SnmpDatagram) : Prop where
  vbLen : ∀ vb ∈ sdg.vbOutList, ∃ oidLen, berOidEncTry vb.oid = some oidLen ∧
    vb.vbLen = responseVbLen oidLen vb.value.length
  vbListLen : sdg.vbListLen = (sdg.vbOutList.map VarBind.vbLen).foldl addVarBindLen 0

lemma Ledger.add {s : ProcState} (h : Ledger s.sdg) (ret : OidSearchRes) {vbOut : VarBind} {oid : Oid}
    {valueType : UInt8} {value : List UInt8} (hvb : responseVarBind oid valueType value = some vbOut) :
    Ledger (s.add ret vbOut).sdg := by
  obtain ⟨oidLen, hoid, rfl⟩ := Option.map_eq_some_iff.mp hvb
  constructor
  · intro vb hmem
    simp only [ProcState.add, SnmpDatagram.addVarBind, List.mem_append, List.mem_singleton] at hmem
    rcases hmem with hmem | rfl
    · exact h.vbLen vb hmem
    · exact ⟨oidLen, hoid, rfl⟩
  · simp only [ProcState.add, SnmpDatagram.addVarBind, List.map_append, List.map_cons, List.map_nil,
      List.foldl_append, List.foldl_cons, List.foldl_nil, ← h.vbListLen]

lemma ledger_snmpRequestDispatch {handlers : Handlers} {root : MibNode} {mv : MibViews}
    {sdg : SnmpDatagram} (hout : sdg.vbOutList = []) (hlen : sdg.vbListLen = 0) {l l' : List Call}
    {s : ProcState} {r : Response}
    (hrun : snmpRequestDispatch handlers root mv sdg l = (.ok (some (s, r)), l')) : Ledger s.sdg := by
  have hstart : ∀ request, Ledger (ProcState.init request sdg.start).sdg := by
    intro request
    have hsdg : (ProcState.init request sdg.start).sdg.vbOutList = [] ∧
        (ProcState.init request sdg.start).sdg.vbListLen = 0 := by
      simp only [ProcState.init, SnmpDatagram.start, SnmpDatagram.setResponse]
      split_ifs <;> exact ⟨hout, hlen⟩
    exact ⟨by simp [hsdg.1], by simp [hsdg.1, hsdg.2]⟩
  exact keeps_snmpRequestDispatch (I := fun s => Ledger s.sdg)
    (fun s ret vbOut oid valueType value hs hvb => hs.add ret hvb) (fun s vbs hs => ⟨hs.vbLen, hs.vbListLen⟩)
    hstart l _ l' hrun s r rfl

/-- An OID that is read as it was sent: the encoding of the first two sub-identifiers and the 8 bits
of its length keep it. -/
structure PortableOid (oid : Oid) : Prop where
  two_le : 2 ≤ oid.length
  length_le : oid.length ≤ mibOidMaxLen
  second_lt : (oid.getD 1 0).toNat < 40
  packed_lt : 40 * (oid.getD 0 0).toNat + (oid.getD 1 0).toNat < 256
  encoded_le : (berOidEnc oid).length ≤ 255

/-- A varbind that is read as it was sent. -/
structure VarBind.Portable (vb : VarBind) : Prop where
  oid : PortableOid vb.oid
  value_le : vb.value.length ≤ mibValueMaxLen

lemma Ledger.sized {sdg : SnmpDatagram} (h : Ledger sdg) {vb : VarBind} (hmem : vb ∈ sdg.vbOutList)
    (hport : vb.Portable) : vb.Sized :=
  ⟨hport.oid.two_le, hport.oid.length_le, hport.oid.second_lt, hport.oid.packed_lt,
    hport.oid.encoded_le, hport.value_le, h.vbLen vb hmem⟩

/-! ### The response of a request -/

/-- What `snmp_decode` does not read is as it was cleared: the list of the response, and before version 3
the strings of the security parameters. -/
structure Untouched (sdg : SnmpDatagram) : Prop where
  vbOutList : sdg.vbOutList = []
  strings : ¬ 3 ≤ sdg.version → sdg.userName = [] ∧ sdg.authPara = [] ∧ sdg.privPara = []

lemma untouched_v3Decode {sdg sdg' : SnmpDatagram} (h : Reader.Yields (v3Decode sdg) sdg')
    (hsdg : Untouched sdg) : Untouched sdg' := by
  rw [v3Decode] at h
  split_ifs at h with h3
  · obtain ⟨msgLen, _, h⟩ := h.of_bind
    obtain ⟨sdg₁, h₁, h⟩ := h.of_bind
    obtain ⟨_, _, _, _, _, _, _, rfl⟩ := GlobalDatagram.frame_globalDataDecode h₁
    obtain ⟨sdg₂, h₂, h⟩ := h.of_bind
    obtain ⟨_, _, _, _, _, _, _, _, _, _, rfl⟩ := GlobalDatagram.frame_securityParameterDecode h₂
    obtain ⟨scopeLen, _, h⟩ := h.of_bind
    obtain ⟨contextId, _, h⟩ := h.of_bind
    obtain rfl := h.of_pure
    exact ⟨hsdg.vbOutList, fun hold => absurd h3 hold⟩
  · obtain rfl := h.of_pure
    exact hsdg

lemma untouched_datagramDecode {buffer rest : List UInt8} {sdg : SnmpDatagram}
    (h : datagramDecode buffer = .ok (.ok (sdg, rest))) : Untouched sdg := by
  obtain ⟨sdg₁, h₁, h₂⟩ := Reader.Yields.of_bind ⟨buffer, rest, h⟩
  have hmessage : Untouched sdg₁ := by
    obtain ⟨_, _, h⟩ := h₁.of_bind
    obtain ⟨_, _, h⟩ := h.of_bind
    obtain ⟨_, _, h⟩ := h.of_bind
    obtain ⟨sdg₀, h₀, h⟩ := h.of_bind
    have hclear := untouched_v3Decode h₀ ⟨rfl, fun _ => ⟨rfl, rfl, rfl⟩⟩
    obtain ⟨_, _, h⟩ := h.of_bind
    obtain ⟨_, _, h⟩ := h.of_bind
    obtain ⟨_, _, h⟩ := h.of_bind
    obtain ⟨_, _, h⟩ := h.of_bind
    obtain ⟨_, _, h⟩ := h.of_bind
    obtain ⟨_, _, h⟩ := h.of_bind
    obtain rfl := h.of_pure
    exact ⟨hclear.vbOutList, hclear.strings⟩
  obtain ⟨_, _, h⟩ := h₂.of_bind
  obtain ⟨_, _, h⟩ := h.of_bind
  obtain rfl := h.of_pure
  exact ⟨hmessage.vbOutList, hmessage.strings⟩

/-! ### The size of a response -/

lemma length_headerEnc_le (tag : UInt8) (len : Nat) : (headerEnc tag len).length ≤ 6 := by
  have := berLengthEncTry_le (UInt32.ofNat len)
  rw [length_headerEnc]
  omega

lemma length_intFieldEnc_le (len : Nat) (value : Int32) : (intFieldEnc len value).length ≤ 10 := by
  have hhdr := length_headerEnc_le asn1TagInt len
  have hint := (berIntEnc_spec value).2.1
  rw [intFieldEnc, List.length_append]
  omega

lemma length_strFieldEnc_le (value : List UInt8) :
    (strFieldEnc value).length ≤ 6 + value.length := by
  have hhdr := length_headerEnc_le asn1TagOctstr value.length
  rw [strFieldEnc, List.length_append]
  omega

lemma length_varBindEncode_le {vb : VarBind} (h : vb.Sized) {part : List UInt8}
    (hpart : varBindEncode vb = some part) : part.length ≤ 1536 := by
  obtain ⟨oidLen, -, rfl⟩ := Option.map_eq_some_iff.mp hpart
  have hseq := length_headerEnc_le asn1TagSeq vb.vbLen
  have hoid := length_headerEnc_le asn1TagObjid oidLen
  have hvalue := length_headerEnc_le vb.valueType vb.value.length
  have henc := h.encoded_le
  have hle : vb.value.length ≤ 1024 := h.value_le
  simp only [List.length_append]
  omega

lemma length_varBinds_le {vbs : List VarBind} (h : ∀ vb ∈ vbs, vb.Sized) {parts : List (List UInt8)}
    (hparts : vbs.mapM varBindEncode = some parts) : parts.flatten.length ≤ 1536 * vbs.length := by
  induction vbs generalizing parts with
  | nil =>
    obtain rfl : [] = parts := by simpa using hparts
    simp
  | cons vb vbs ih =>
    rw [List.mapM_cons] at hparts
    obtain ⟨part, hpart, hparts⟩ := Option.bind_eq_some_iff.mp hparts
    obtain ⟨rest, hrest, hparts⟩ := Option.bind_eq_some_iff.mp hparts
    obtain rfl := Option.some.inj hparts
    have hone := length_varBindEncode_le (h vb List.mem_cons_self) hpart
    have hall := ih (fun vb hvb => h vb (List.mem_cons_of_mem _ hvb)) hrest
    rw [List.flatten_cons, List.length_append, List.length_cons]
    omega

/-- What comes before the varbinds. -/
lemma SnmpDatagram.Sized.length_asn1Encode_le {sdg : SnmpDatagram} (h : sdg.Sized) :
    (asn1Encode (asn1Lengths sdg)).length ≤ 512 := by
  have hbytes := asn1Encode_append sdg []
  rw [List.append_nil] at hbytes
  have hdata := length_headerEnc_le asn1TagSeq (asn1Lengths sdg).dataLen
  have hver := length_intFieldEnc_le sdg.verLen sdg.version
  have hscope : (scopeContent sdg []).length ≤ 88 := by
    have hname := length_strFieldEnc_le sdg.contextName
    have hpdu := length_headerEnc_le sdg.pduHdr.pduType (pduEncodeTry sdg)
    have hreqId := length_intFieldEnc_le sdg.pduHdr.reqIdLen sdg.pduHdr.reqId
    have herrStat := length_intFieldEnc_le sdg.pduHdr.errStatLen sdg.pduHdr.errStat
    have herrIdx := length_intFieldEnc_le sdg.pduHdr.errIdxLen sdg.pduHdr.errIdx
    have hlist := length_headerEnc_le asn1TagSeq sdg.vbListLen
    have := h.contextName
    simp only [scopeContent, pduContent, List.length_append, List.length_nil]
    omega
  rw [hbytes, List.length_append, dataContent, List.length_append]
  split_ifs with h3
  · have hglobal : (headerEnc asn1TagSeq (globalDataEncodeTry sdg) ++ globalContent sdg).length ≤ 43 := by
      have hseq := length_headerEnc_le asn1TagSeq (globalDataEncodeTry sdg)
      have hid := length_intFieldEnc_le sdg.msgIdLen sdg.msgId
      have hsize := length_intFieldEnc_le sdg.msgSizeLen sdg.msgMaxSize
      have hflags := length_strFieldEnc_le sdg.msgFlags
      have hmodel := length_intFieldEnc_le sdg.msgModelLen sdg.msgSecurityModel
      have := h.msgFlags h3
      simp only [globalContent, List.length_append, length_strFieldEnc_clearFlags]
      omega
    have hid : (strFieldEnc snmpv3EngineId).length ≤ 20 := length_strFieldEnc_le snmpv3EngineId
    have hsecurity : (securityContent sdg).length ≤ 178 := by
      have hboots := length_intFieldEnc_le sdg.engineBootsLen sdg.engineBoots
      have htime := length_intFieldEnc_le sdg.engineTimeLen sdg.engineTime
      have huser := length_strFieldEnc_le sdg.userName
      have hauth := length_strFieldEnc_le sdg.authPara
      have hpriv := length_strFieldEnc_le sdg.privPara
      have := h.userName
      have := h.authPara
      have := h.privPara
      simp only [securityContent, List.length_append]
      omega
    have hstr := length_headerEnc_le asn1TagOctstr (tlvLen (securityParameterEncodeTry sdg))
    have hseq := length_headerEnc_le asn1TagSeq (securityParameterEncodeTry sdg)
    have hpdu := length_headerEnc_le asn1TagSeq (asn1Lengths sdg).scopeLen
    rw [List.length_append] at hglobal
    simp only [v3Content, List.length_append]
    omega
  · omega

/-- The bytes of a response are read by the peer as what the response was made of. -/
lemma SnmpDatagram.Sized.decoded {sdg : SnmpDatagram} (h : sdg.Sized) {r : Response}
    (hr : snmpResponse sdg = some r) (hcount : sdg.vbOutList.length ≤ 2 ^ 21) :
    r.written.length = r.alloc ∧ r.len = r.alloc ∧
      ∃ sdg', datagramDecode r.written = .ok (.ok (sdg', [])) ∧ Carries sdg' h.message ∧
        sdg'.vbInList = sdg.vbOutList.map fun vb => { vb with vbLen := 0 } := by
  obtain ⟨parts, hmap, hall, hsum⟩ := encode_varBinds h.varBinds
  have hout : (asn1Lengths sdg).vbOutList = sdg.vbOutList := by
    simp only [asn1Lengths]
    split_ifs <;> rfl
  obtain rfl : ⟨tlvLen (asn1Lengths sdg).dataLen, asn1Encode (asn1Lengths sdg) ++ parts.flatten,
      tlvLen (asn1Lengths sdg).dataLen⟩ = r := by
    simpa [snmpResponse, hout, hmap] using hr
  have hhead := h.length_asn1Encode_le
  have hbody := length_varBinds_le h.varBinds hmap
  have hlt : (asn1Encode (asn1Lengths sdg) ++ parts.flatten).length < 2 ^ 32 := by
    rw [List.length_append]
    omega
  have hlist : sdg.vbListLen = parts.flatten.length := by
    rw [h.vbListLen, hsum 0 (by norm_num), Nat.zero_add, Nat.mod_eq_of_lt (by omega)]
  obtain ⟨sdg', hdecode, hcarries⟩ := (h.serialises hall hlist hlt).datagramDecode hlt
  refine ⟨h.inSync.length_asn1Encode hlist hlt, rfl, sdg', hdecode, hcarries, ?_⟩
  rw [hcarries.vbInList]
  simp only [SnmpDatagram.Sized.message, List.map_pmap]
  exact List.pmap_eq_map (f := fun vb : VarBind => { vb with vbLen := 0 }) h.varBinds

/-- From version 3 on the response has the identifiers, the user and the time of its request, the engine
of the agent and no flags. -/
structure RespondsV3 (h : V3Header) (sdg' : SnmpDatagram) : Prop where
  msgId : sdg'.msgId = h.msgId
  msgMaxSize : sdg'.msgMaxSize = h.msgMaxSize
  msgFlags : sdg'.msgFlags = [0]
  msgSecurityModel : sdg'.msgSecurityModel = h.msgSecurityModel
  engineId : sdg'.engineId = snmpv3EngineId
  engineBoots : sdg'.engineBoots = h.engineBoots
  engineTime : sdg'.engineTime = h.engineTime
  userName : sdg'.userName = h.userName.val
  authPara : sdg'.authPara = h.authPara.val
  privPara : sdg'.privPara = h.privPara.val
  contextId : sdg'.contextId = snmpv3EngineId

/-- What the peer reads belongs to its request: the version, the name and the identifiers are those of
the request, and the errors and the varbinds are those of the request function. -/
structure Responds (m : SnmpMessage) (s : ProcState) (sdg' : SnmpDatagram) : Prop where
  version : sdg'.version = m.version
  v3 : ∀ h ∈ m.v3, RespondsV3 h sdg'
  contextName : sdg'.contextName = m.contextName.val
  pduType : sdg'.pduHdr.pduType = if m.bindings = [] then mibRepo else mibResp
  reqId : sdg'.pduHdr.reqId = m.reqId
  errStat : sdg'.pduHdr.errStat = s.sdg.pduHdr.errStat
  errIdx : sdg'.pduHdr.errIdx = s.sdg.pduHdr.errIdx
  vbInList : sdg'.vbInList = s.sdg.vbOutList.map fun vb => { vb with vbLen := 0 }

section Exchange

variable {handlers : Handlers} {root : MibNode} {mv : MibViews} {m : SnmpMessage}
  {buffer : List UInt8}

variable (handlers root mv) in
/-- A request that arrives is dispatched with what it says. -/
lemma snmpdRecv_of_serialises (hser : Serialises m buffer) (hbuf : buffer.length < 2 ^ 31) :
    ∃ sdg, snmpDecode buffer = .ok sdg ∧ Carries sdg m ∧ Untouched sdg ∧
      snmpdRecv handlers root mv buffer = snmpRequestDispatch handlers root mv sdg := by
  obtain ⟨content, htlv⟩ := hser.tlv
  obtain ⟨sdg, hdecode, hcarries⟩ := hser.datagramDecode (by omega)
  have hsnmp : snmpDecode buffer = .ok sdg := by rw [snmpDecode, hdecode]
  refine ⟨sdg, hsnmp, hcarries, untouched_datagramDecode hdecode, ?_⟩
  rw [snmpdRecv, htlv.recvCheck (by omega), hsnmp]

/-- The strings of a request that was read fit the arrays they are stored in. -/
lemma Carries.strings_le {sdg : SnmpDatagram} (h : Carries sdg m) (huntouched : Untouched sdg) :
    sdg.userName.length ≤ 40 ∧ sdg.authPara.length ≤ 40 ∧ sdg.privPara.length ≤ 40 := by
  cases hm : m.v3 with
  | none =>
    have hold : ¬ 3 ≤ sdg.version := by
      rw [h.version, ← m.v3_isSome, hm]
      simp
    obtain ⟨huser, hauth, hpriv⟩ := huntouched.strings hold
    simp [huser, hauth, hpriv]
  | some h3 =>
    have hv3 := h.v3 h3 hm
    rw [hv3.userName, hv3.authPara, hv3.privPara]
    exact ⟨h3.userName.property, h3.authPara.property, h3.privPara.property⟩

variable {sdg : SnmpDatagram} {l l' : List Call} {s : ProcState} {r : Response}

/-- What the request functions leave of the request. -/
lemma answered_eq
    (hrun : snmpRequestDispatch handlers root mv sdg l = (.ok (some (s, r)), l')) :
    s.sdg = { sdg with
      pduHdr := s.sdg.pduHdr
      vbListLen := s.sdg.vbListLen
      vbInList := s.sdg.vbInList
      vbOutCnt := s.sdg.vbOutCnt
      vbOutList := s.sdg.vbOutList } := by
  obtain ⟨hprogress, -⟩ := returns_snmpRequestDispatch sdg l _ l' hrun s r rfl
  have heq := hprogress.sdg_eq
  rw [SnmpDatagram.start, SnmpDatagram.setResponse] at heq
  split_ifs at heq <;> exact heq

/-- The datagram of a request that has been answered can be encoded. -/
lemma sized_of_answered (hcarries : Carries sdg m) (huntouched : Untouched sdg)
    (hrun : snmpRequestDispatch handlers root mv sdg l = (.ok (some (s, r)), l'))
    (hfits : RequestFits sdg (s.reports.map fun e => e.1.errStat))
    (hport : ∀ vb ∈ s.sdg.vbOutList, vb.Portable) : s.sdg.Sized := by
  obtain ⟨hprogress, -⟩ := returns_snmpRequestDispatch sdg l _ l' hrun s r rfl
  have hsync := hprogress.inSync_iff.mpr hfits
  have hledger := ledger_snmpRequestDispatch huntouched.vbOutList hcarries.vbListLen hrun
  obtain ⟨huser, hauth, hpriv⟩ := hcarries.strings_le huntouched
  have heq := answered_eq hrun
  have hversion : s.sdg.version = sdg.version := by rw [heq]
  exact {
    verLen := minimalLength_iff.mpr hsync.verLen
    reqIdLen := minimalLength_iff.mpr hsync.reqIdLen
    errStatLen := minimalLength_iff.mpr hsync.errStatLen
    errIdxLen := minimalLength_iff.mpr hsync.errIdxLen
    msgIdLen := fun h3 => minimalLength_iff.mpr (hsync.msgIdLen h3)
    msgSizeLen := fun h3 => minimalLength_iff.mpr (hsync.msgSizeLen h3)
    msgModelLen := fun h3 => minimalLength_iff.mpr (hsync.msgModelLen h3)
    engineBootsLen := fun h3 => minimalLength_iff.mpr (hsync.engineBootsLen h3)
    engineTimeLen := fun h3 => minimalLength_iff.mpr (hsync.engineTimeLen h3)
    msgFlags := by
      intro h3
      rw [hversion, hcarries.version, ← m.v3_isSome] at h3
      obtain ⟨v3, hv3⟩ := Option.isSome_iff_exists.mp h3
      rw [heq]
      change sdg.msgFlags.length = 1
      rw [(hcarries.v3 v3 hv3).msgFlags]
      rfl
    userName := by rw [heq]; exact huser
    authPara := by rw [heq]; exact hauth
    privPara := by rw [heq]; exact hpriv
    contextName := by
      rw [heq]
      change sdg.contextName.length ≤ 40
      rw [hcarries.contextName]
      exact m.contextName.property
    varBinds := fun vb hmem => hledger.sized hmem (hport vb hmem)
    vbListLen := hledger.vbListLen }

/-- What the peer reads of the response belongs to the request. -/
lemma responds_of_answered (hcarries : Carries sdg m)
    (hrun : snmpRequestDispatch handlers root mv sdg l = (.ok (some (s, r)), l')) (hsized : s.sdg.Sized)
    {sdg' : SnmpDatagram} (hread : Carries sdg' hsized.message)
    (hlist : sdg'.vbInList = s.sdg.vbOutList.map fun vb => { vb with vbLen := 0 }) :
    Responds m s sdg' := by
  obtain ⟨hprogress, -⟩ := returns_snmpRequestDispatch sdg l _ l' hrun s r rfl
  have heq := answered_eq hrun
  have hversion : s.sdg.version = sdg.version := by rw [heq]
  have hpdu := hprogress.pduHdr_eq
  constructor
  · rw [hread.version]
    change s.sdg.version = _
    rw [hversion, hcarries.version]
  · intro h3 hm
    have hle : 3 ≤ s.sdg.version := by
      rw [hversion, hcarries.version, ← m.v3_isSome, hm]
      rfl
    obtain ⟨h1, h2, h3', h4, h5, h6, h7, h8, h9, h10, h11⟩ := hread.v3 hsized.v3Header (if_pos hle)
    have hv3 := hcarries.v3 h3 hm
    have hmsg : s.sdg.msgId = h3.msgId ∧ s.sdg.msgMaxSize = h3.msgMaxSize ∧
        s.sdg.msgSecurityModel = h3.msgSecurityModel := by
      rw [heq]
      exact ⟨hv3.msgId, hv3.msgMaxSize, hv3.msgSecurityModel⟩
    have hengine : s.sdg.engineBoots = h3.engineBoots ∧ s.sdg.engineTime = h3.engineTime := by
      rw [heq]
      exact ⟨hv3.engineBoots, hv3.engineTime⟩
    have hstrings : s.sdg.userName = h3.userName.val ∧ s.sdg.authPara = h3.authPara.val ∧
        s.sdg.privPara = h3.privPara.val := by
      rw [heq]
      exact ⟨hv3.userName, hv3.authPara, hv3.privPara⟩
    exact ⟨h1.trans hmsg.1, h2.trans hmsg.2.1, h3', h4.trans hmsg.2.2, h5, h6.trans hengine.1,
      h7.trans hengine.2, h8.trans hstrings.1, h9.trans hstrings.2.1, h10.trans hstrings.2.2, h11⟩
  · rw [hread.contextName]
    change s.sdg.contextName = _
    rw [heq]
    exact hcarries.contextName
  · rw [hread.pduType]
    change s.sdg.pduHdr.pduType = _
    rw [hpdu]
    change (if sdg.vbInCnt = 0 then mibRepo else mibResp) = _
    simp only [hcarries.vbInCnt, List.length_eq_zero_iff]
  · rw [hread.reqId]
    change s.sdg.pduHdr.reqId = _
    rw [hpdu]
    exact hcarries.reqId
  · exact hread.errStat
  · exact hread.errIdx
  · exact hlist

end Exchange

/-- A request on the wire that is answered, before or from version 3 on: the response fills the buffer
that is allocated and sent for it, and the peer reads from it a message that belongs to the request,
with the error and the varbinds of the request function. -/
theorem snmpdRecv_responds {handlers : Handlers} {root : MibNode} {mv : MibViews} {m : SnmpMessage}
    {buffer : List UInt8} (hser : Serialises m buffer) (hbuf : buffer.length < 2 ^ 31)
    {l l' : List Call} {s : ProcState} {r : Response}
    (hrun : snmpdRecv handlers root mv buffer l = (.ok (some (s, r)), l'))
    (hfits : ∀ sdg, snmpDecode buffer = .ok sdg → RequestFits sdg (s.reports.map fun e => e.1.errStat))
    (hport : ∀ vb ∈ s.sdg.vbOutList, vb.Portable) (hcount : s.sdg.vbOutList.length ≤ 2 ^ 21) :
    r.written.length = r.alloc ∧ r.len = r.alloc ∧
      ∃ sdg', datagramDecode r.written = .ok (.ok (sdg', [])) ∧ Responds m s sdg' := by
  obtain ⟨sdg, hdecode, hcarries, huntouched, heq⟩ :=
    snmpdRecv_of_serialises handlers root mv hser hbuf
  rw [heq] at hrun
  obtain ⟨-, hr⟩ := returns_snmpRequestDispatch sdg l _ l' hrun s r rfl
  have hsized := sized_of_answered hcarries huntouched hrun (hfits sdg hdecode) hport
  obtain ⟨halloc, hlen, sdg', hread, hcarries', hlist⟩ := hsized.decoded hr hcount
  exact ⟨halloc, hlen, sdg', hread, responds_of_answered hcarries hrun hsized hcarries' hlist⟩

lemma length_noValue : ([] : List UInt8).length ≤ mibValueMaxLen := by decide

lemma version_sampleAsk : (none : Option V3Header).isSome = true ↔ (3 : Int32) ≤ 1 := by decide

/-- A GETNEXT request of version 2c from 0.0 on. -/
def sampleAsk : SnmpMessage where
  version := 1
  v3 := none
  contextName := ⟨[112], by decide⟩
  pduType := mibReqGetnext
  reqId := 7
  errStat := 0
  errIdx := 0
  bindings := [⟨[0, 0], asn1TagNul, ⟨[], length_noValue⟩, by decide, by decide, by decide, by decide⟩]
  v3_isSome := version_sampleAsk

def sampleAskBytes : List UInt8 :=
  [0x30, 26] ++ ([2, 1, 1] ++ ([4, 1, 112] ++
    ([0xa1, 18] ++ ([2, 1, 7] ++ ([2, 1, 0] ++ ([2, 1, 0] ++
      ([0x30, 7] ++ ([0x30, 5] ++ ([6, 1, 0] ++ [5, 0])))))))))

lemma sampleAsk_serialises : Serialises sampleAsk sampleAskBytes := by
  refine ⟨[2, 1, 1], [4, 1, 112], [0xa1, 18] ++ ([2, 1, 7] ++ ([2, 1, 0] ++ ([2, 1, 0] ++
    ([0x30, 7] ++ ([0x30, 5] ++ ([6, 1, 0] ++ [5, 0])))))), ?_, ?_, ?_, ?_⟩
  · exact ⟨[1], by decide, by decide, by decide, [1], isLength_short (by decide), rfl⟩
  · exact ⟨[1], isLength_short (by decide), rfl⟩
  · refine ⟨[2, 1, 7], [2, 1, 0], [2, 1, 0], [[0x30, 5] ++ ([6, 1, 0] ++ [5, 0])],
      [0x30, 7] ++ ([0x30, 5] ++ ([6, 1, 0] ++ [5, 0])), ?_, ?_, ?_, ?_, ?_, ?_⟩
    · exact ⟨[7], by decide, by decide, by decide, [1], isLength_short (by decide), rfl⟩
    · exact ⟨[0], by decide, by decide, by decide, [1], isLength_short (by decide), rfl⟩
    · exact ⟨[0], by decide, by decide, by decide, [1], isLength_short (by decide), rfl⟩
    · refine .cons ⟨[0], [6, 1, 0], [5, 0], ?_, ?_, ?_, ?_⟩ .nil
      · exact ⟨0, 0, [], [], rfl, .nil, rfl⟩
      · exact ⟨[1], isLength_short (by decide), rfl⟩
      · exact ⟨[0], isLength_short (by decide), rfl⟩
      · exact ⟨[5], isLength_short (by decide), rfl⟩
    · exact ⟨[7], isLength_short (by decide), rfl⟩
    · exact ⟨[18], isLength_short (by decide), rfl⟩
  · exact ⟨[26], isLength_short (by decide), rfl⟩

/-- What is read of it. -/
def sampleAskRead : SnmpDatagram := { sampleGetnext with
  dataLen := 26
  verLen := 1
  pduHdr := { sampleGetnext.pduHdr with pduLen := 18 }
  vbInList := [⟨[0, 0], 0, asn1TagNul, []⟩] }

lemma snmpDecode_sampleAskBytes : snmpDecode sampleAskBytes = .ok sampleAskRead := by decide +kernel

lemma requestFits_sampleAskRead : RequestFits sampleAskRead [0] := by
  have hold : ¬ 3 ≤ sampleAskRead.version := by decide
  exact ⟨minimalLength_iff.mpr (by decide), minimalLength_iff.mpr (by decide),
    minimalLength_iff.mpr (by decide), minimalLength_iff.mpr (by decide), fun h3 => absurd h3 hold,
    fun h3 => absurd h3 hold, fun h3 => absurd h3 hold, fun h3 => absurd h3 hold,
    fun h3 => absurd h3 hold⟩

theorem snmpdRecv_responds_sampleAsk : ∃ s r l',
    snmpdRecv scalarHandlers oneInstance sampleViews sampleAskBytes [] = (.ok (some (s, r)), l') ∧
    ∃ sdg', datagramDecode r.written = .ok (.ok (sdg', [])) ∧ Responds sampleAsk s sdg' := by
  obtain ⟨sdg, hdecode, -, -, heq⟩ := snmpdRecv_of_serialises scalarHandlers oneInstance sampleViews
    sampleAsk_serialises (by decide)
  obtain rfl := Outcome.ok.inj (snmpDecode_sampleAskBytes.symm.trans hdecode)
  obtain ⟨s, r, l', hrun, hstatuses, hout⟩ : ∃ s r l',
      snmpRequestDispatch scalarHandlers oneInstance sampleViews sampleAskRead [] =
        (.ok (some (s, r)), l') ∧ (s.reports.map fun e => e.1.errStat) = [0] ∧
      s.sdg.vbOutList.map (fun vb => (vb.oid, vb.value)) = [([1, 0], [0])] :=
    ⟨_, _, _, rfl, rfl, rfl⟩
  rw [heq]
  refine ⟨s, r, l', hrun, ?_⟩
  refine (snmpdRecv_responds sampleAsk_serialises (by decide) (heq ▸ hrun) ?_ ?_ ?_).2.2
  · intro sdg hsdg
    obtain rfl := Outcome.ok.inj (snmpDecode_sampleAskBytes.symm.trans hsdg)
    rw [hstatuses]
    exact requestFits_sampleAskRead
  · intro vb hmem
    have hvb := List.mem_map_of_mem (f := fun vb : VarBind => (vb.oid, vb.value)) hmem
    rw [hout, List.mem_singleton, Prod.mk.injEq] at hvb
    refine ⟨?_, by rw [hvb.2]; decide⟩
    rw [hvb.1]
    exact ⟨by decide, by decide, by decide, by decide, by decide⟩
  · have hlen := congrArg List.length hout
    rw [List.length_map] at hlen
    rw [hlen]
    decide

end SmartSnmp
