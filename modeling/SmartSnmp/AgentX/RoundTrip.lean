import SmartSnmp.AgentX.Wire

/-!
# Round trip of AgentX responses

What `agentx_response_pdu` writes in the byte order of the host is read back by `pdu_hdr_parse` and
`var_bind_parse`, as long as the length of the PDU fits its field.
-/

namespace SmartSnmp

open Bytes Reader

/-! ### OIDs -/

/-- The OIDs that the compressed form of AgentX can express. -/
inductive CompactOid : Oid → Prop
  | empty : CompactOid []
  | internet {p : UInt32} {rest : Oid} : 1 ≤ p → p ≤ 255 → rest.length + 5 ≤ mibOidMaxLen →
      CompactOid (1 :: 3 :: 6 :: 1 :: p :: rest)

lemma length_objidEncode (oid : Oid) : (objidEncode oid).length = 4 + 4 * (oid.length - 5) := by
  simp [objidEncode]
  omega

/-- The prefix of an OID is not lost in its byte. -/
lemma toUInt8_toUInt32 {p : UInt32} (h : p ≤ 255) : p.toUInt8.toUInt32 = p := by
  have hp : p.toNat < 256 := Nat.lt_succ_of_le (UInt32.le_iff_toNat_le.mp h)
  apply UInt32.toNat_inj.mp
  simp only [UInt8.toNat_toUInt32, UInt32.toNat_toUInt8]
  exact Nat.mod_eq_of_lt hp

lemma map_seen32_false (oid : Oid) : oid.map (seen32 false) = oid := List.map_id oid

lemma CompactOid.exists_wire {oid : Oid} (h : CompactOid oid) :
    ∃ o : WireOid, objidEncode oid = o.bytes false ∧ o.read false = oid := by
  cases h with
  | empty => exact ⟨⟨0, 0, [], by decide⟩, rfl, rfl⟩
  | @internet p rest h1 h2 hlen =>
    refine ⟨⟨p.toUInt8, 0, rest, hlen⟩, rfl, ?_⟩
    have hne : p.toUInt8 ≠ 0 := by
      intro h
      rw [← toUInt8_toUInt32 h2, h] at h1
      exact absurd h1 (by decide)
    rw [WireOid.read, if_neg (fun h => hne h.2), toUInt8_toUInt32 h2, map_seen32_false]

/-! ### Values -/

/-- The values of a response that the decoder can take. -/
inductive ResponseValue : XVarBind → Prop
  | word {oid : Oid} {type : UInt8} {valLen : Nat} {value tail : List UInt8} :
      isWordType type → value.length = 4 → ResponseValue ⟨oid, type.toUInt16, valLen, value, tail⟩
  | cnt64 {oid : Oid} {valLen : Nat} {value tail : List UInt8} :
      value.length = 8 → ResponseValue ⟨oid, asn1TagCnt64.toUInt16, valLen, value, tail⟩
  | str {oid : Oid} {type : UInt8} {value tail : List UInt8} :
      isStringType type → value.length ≤ mibValueMaxLen →
      ResponseValue ⟨oid, type.toUInt16, value.length, value, tail⟩
  | objid {oid val : Oid} {tail : List UInt8} : CompactOid val →
      ResponseValue ⟨oid, asn1TagObjid.toUInt16, 4 * val.length, val.flatMap bytes32, tail⟩
  | none {oid : Oid} {type : UInt16} {valLen : Nat} {tail : List UInt8} :
      ¬ carriesValue type.toUInt8 → ResponseValue ⟨oid, type, valLen, [], tail⟩

/-- The number of elements of a value, as the decoder counts them. -/
def elemCount (vb : XVarBind) : Nat :=
  if isStringType vb.valType.toUInt8 then vb.value.length
  else if vb.valType.toUInt8 = asn1TagObjid then vb.value.length / 4
  else if carriesValue vb.valType.toUInt8 then 1
  else 0

/-- A varbind of a response as it is received: `val_len` counts elements. -/
def received (vb : XVarBind) : XVarBind := { vb with valLen := elemCount vb, tail := [] }

/-- What is written for a value is a value on the wire. -/
structure Written (vb : XVarBind) (v : WireValue) : Prop where
  encode : valueEncode vb = some (v.bytes false)
  length : (v.bytes false).length = valueSize vb
  type : v.type = vb.valType
  count : v.count false = elemCount vb
  read : v.read false = vb.value

lemma valueBytes_all {vb : XVarBind} {n : Nat} (h : vb.value.length = n) :
    valueBytes vb n = some vb.value := by
  subst h
  simp [valueBytes]

lemma toUInt16_lt (type : UInt8) : type.toUInt16 < 256 := by
  rw [UInt16.lt_iff_toNat_lt]
  exact type.toNat_lt

lemma toUInt16_ne {type tag : UInt8} (h : type ≠ tag) : type.toUInt16 ≠ tag.toUInt16 := by
  intro he
  apply h
  simpa using congrArg UInt16.toUInt8 he

lemma written_word {type : UInt8} {oid : Oid} {valLen : Nat} {value tail : List UInt8}
    (ht : isWordType type) (hv : value.length = 4) :
    Written ⟨oid, type.toUInt16, valLen, value, tail⟩ (.word type value ht hv) := by
  have hcond : type.toUInt16 < 256 ∧ isWordType type.toUInt16.toUInt8 := ⟨toUInt16_lt type, by simpa⟩
  obtain ⟨hstr, hobj, hval⟩ := WireValue.isWordType_cases ht
  refine ⟨?_, ?_, rfl, ?_, rfl⟩
  · rw [valueEncode, if_pos hcond]
    exact valueBytes_all hv
  · rw [valueSize, if_pos hcond]
    exact hv
  · simp [elemCount, hstr, hobj, hval, WireValue.count]

lemma written_str {type : UInt8} {oid : Oid} {value tail : List UInt8} (ht : isStringType type)
    (hv : value.length ≤ mibValueMaxLen) :
    Written ⟨oid, type.toUInt16, value.length, value, tail⟩ (.str type value ht hv) := by
  have hcond : type.toUInt16 < 256 ∧ isStringType type.toUInt16.toUInt8 :=
    ⟨toUInt16_lt type, by simpa⟩
  obtain ⟨hword, hcnt⟩ := WireValue.isStringType_cases ht
  have hpad := WireValue.le_uintSizeof value.length
  refine ⟨?_, ?_, rfl, ?_, rfl⟩
  · rw [valueEncode, if_neg (by simp [hword]), if_neg (toUInt16_ne hcnt), if_pos hcond,
      valueBytes_all rfl]
    rfl
  · rw [valueSize, if_neg (by simp [hword]), if_neg (toUInt16_ne hcnt), if_pos hcond]
    simp [WireValue.bytes]
    omega
  · simp [elemCount, ht, WireValue.count]

/-- What is written for a value that is an OID. -/
lemma valueEncode_objid (oid val : Oid) (tail : List UInt8) :
    valueEncode ⟨oid, asn1TagObjid.toUInt16, 4 * val.length, val.flatMap bytes32, tail⟩ =
      some (objidEncode val) := by
  have hall : valueBytes ⟨oid, asn1TagObjid.toUInt16, 4 * val.length, val.flatMap bytes32, tail⟩
      (4 * val.length / 4 * 4) = some (val.flatMap bytes32) := valueBytes_all (by simp)
  change (valueBytes _ (4 * val.length / 4 * 4)).map _ = _
  rw [hall]
  change some (objidEncode (wordsOf (val.flatMap bytes32))) = _
  rw [wordsOf_flatMap]

lemma written_objid {oid val : Oid} {o : WireOid} (hbytes : objidEncode val = o.bytes false)
    (hread : o.read false = val) :
    Written ⟨oid, asn1TagObjid.toUInt16, 4 * val.length, val.flatMap bytes32, tail⟩ (.objid o) := by
  refine ⟨?_, ?_, rfl, ?_, ?_⟩
  · rw [valueEncode_objid, hbytes]
    rfl
  · change (o.bytes false).length = 4 + (4 * val.length - 20)
    rw [← hbytes, length_objidEncode]
    omega
  · change (o.read false).length = (val.flatMap bytes32).length / 4
    rw [hread, length_flatMap_bytes32, Nat.mul_div_cancel_left _ (by decide)]
  · change (o.read false).flatMap bytes32 = val.flatMap bytes32
    rw [hread]

lemma written_none {oid : Oid} {type : UInt16} {valLen : Nat} {tail : List UInt8}
    (ht : ¬ carriesValue type.toUInt8) :
    Written ⟨oid, type, valLen, [], tail⟩ (.none type ht) := by
  obtain ⟨hword, hcnt, hstr, hobj⟩ := WireValue.carriesValue_cases ht
  have hcnt' : type ≠ asn1TagCnt64.toUInt16 := by
    rintro rfl
    exact hcnt rfl
  have hobj' : type ≠ asn1TagObjid.toUInt16 := by
    rintro rfl
    exact hobj rfl
  refine ⟨?_, ?_, rfl, ?_, rfl⟩
  · simp only [valueEncode, hword, hcnt', hstr, hobj', Bool.false_eq_true, and_false, if_false]
    rfl
  · simp only [valueSize, hword, hcnt', hstr, hobj', Bool.false_eq_true, and_false, if_false]
    rfl
  · simp only [elemCount, hstr, hobj, ht, Bool.false_eq_true, if_false]
    rfl

lemma ResponseValue.exists_wire {vb : XVarBind} (h : ResponseValue vb) :
    ∃ v : WireValue, Written vb v := by
  cases h with
  | word ht hv => exact ⟨_, written_word ht hv⟩
  | cnt64 hv => exact ⟨.cnt64 _ hv, valueBytes_all hv, hv, rfl, rfl, rfl⟩
  | str ht hv => exact ⟨_, written_str ht hv⟩
  | objid h =>
    obtain ⟨o, hbytes, hread⟩ := h.exists_wire
    exact ⟨_, written_objid hbytes hread⟩
  | none ht => exact ⟨_, written_none ht⟩

/-! ### Varbinds -/

/-- The varbinds of a response that the decoder can take. -/
structure ResponseVarBind (vb : XVarBind) : Prop where
  oid : CompactOid vb.oid
  value : ResponseValue vb

lemma ResponseVarBind.exists_wire {vb : XVarBind} (h : ResponseVarBind vb) :
    ∃ w : WireVarBind, xVarBindEncode vb = some (w.bytes false) ∧
      (w.bytes false).length = varBindSize vb ∧ w.read false = received vb := by
  obtain ⟨o, hbytes, hread⟩ := h.oid.exists_wire
  obtain ⟨v, hv⟩ := h.value.exists_wire
  refine ⟨⟨o, v⟩, ?_, ?_, ?_⟩
  · simp only [xVarBindEncode, hv.encode, Option.map_some, WireVarBind.bytes, ordered_false, hbytes,
      hv.type]
  · simp only [WireVarBind.bytes, List.length_append, length_ordered, length_bytes16,
      List.length_cons, List.length_nil, ← hbytes, length_objidEncode, hv.length, varBindSize]
    omega
  · simp only [WireVarBind.read, hread, hv.type, hv.count, hv.read]
    rfl

/-! ### Responses -/

/-- The bytes of a varbind. -/
def varBindBytes (vb : XVarBind) : List UInt8 := (xVarBindEncode vb).getD []

lemma ResponseVarBind.encode {vb : XVarBind} (h : ResponseVarBind vb) :
    xVarBindEncode vb = some (varBindBytes vb) := by
  obtain ⟨w, hw, _, _⟩ := h.exists_wire
  rw [varBindBytes, hw, Option.getD_some]

lemma ResponseVarBind.length_eq {vb : XVarBind} (h : ResponseVarBind vb) :
    (varBindBytes vb).length = varBindSize vb := by
  obtain ⟨w, hw, hlen, _⟩ := h.exists_wire
  rw [varBindBytes, hw, Option.getD_some, hlen]

lemma ResponseVarBind.parses {flag : UInt8} (hflag : hasFlag flag networkByteOrder = false)
    {vb : XVarBind} (h : ResponseVarBind vb) :
    Parses (xVarBindAlloc flag) (varBindBytes vb) (received vb, (varBindBytes vb).length) := by
  obtain ⟨w, hw, _, hread⟩ := h.exists_wire
  have hreadable : w.value.Readable false := by
    cases w.value <;> simp [WireValue.Readable]
  rw [varBindBytes, hw, Option.getD_some, ← hread]
  exact WireVarBind.parses_alloc hflag hreadable

lemma mapM_encode {vbs : List XVarBind} (h : ∀ vb ∈ vbs, ResponseVarBind vb) :
    vbs.mapM xVarBindEncode = some (vbs.map varBindBytes) := by
  induction vbs with
  | nil => rfl
  | cons vb vbs ih =>
    rw [List.mapM_cons, (h vb List.mem_cons_self).encode,
      ih fun w hw => h w (List.mem_cons_of_mem vb hw)]
    rfl

lemma length_flatMap_varBindBytes {vbs : List XVarBind} (h : ∀ vb ∈ vbs, ResponseVarBind vb) :
    (vbs.flatMap varBindBytes).length = (vbs.map varBindSize).sum := by
  rw [List.length_flatMap]
  congr 1
  exact List.map_congr_left fun vb hvb => (h vb hvb).length_eq

/-- `agentx_response_pdu` on varbinds that it can express. -/
lemma agentxResponsePdu_eq {xdg : AgentxDatagram} (h : ∀ vb ∈ xdg.vbOutList, ResponseVarBind vb) :
    agentxResponsePdu xdg = some
      { len := responseLen xdg.vbOutList
        written := responseHdrEncode xdg (responseLen xdg.vbOutList) ++
          xdg.vbOutList.flatMap varBindBytes } := by
  simp [agentxResponsePdu, mapM_encode h, List.flatMap_def]

lemma length_responseHdrEncode (xdg : AgentxDatagram) (len : Nat) :
    (responseHdrEncode xdg len).length = 28 := by
  simp [responseHdrEncode, XPduHdr.encode]

lemma parses_fixedHdr {ph : XPduHdr} (hflag : hasFlag ph.flags networkByteOrder = false) :
    Parses fixedHdrParse ph.encode ph := by
  refine (parses_byte ph.version).bind ((parses_byte ph.type).bind ((parses_byte ph.flags).bind
    ((parses_byte ph.reserved).bind ?_)))
  refine (parses_field32 hflag ph.sessionId).bind ((parses_field32 hflag ph.transactionId).bind
    ((parses_field32 hflag ph.packetId).bind ((parses_field32 hflag ph.payloadLength).bind_nil ?_)))
  exact parses_pure _

/-- What `pdu_hdr_parse` returns for a response of `len` bytes. -/
def responseHead (xdg : AgentxDatagram) (len : Nat) : AgentxDatagram :=
  { AgentxDatagram.clear
      { responseHdr xdg.pduHdr len with payloadLength := UInt32.ofNat len - 20 - 8 } with
    error := xdg.error
    index := xdg.index }

lemma parses_responseHdr {xdg : AgentxDatagram} {len : Nat}
    (hflag : hasFlag xdg.pduHdr.flags networkByteOrder = false)
    (hctx : hasFlag xdg.pduHdr.flags nonDefaultContext = false) :
    Parses xPduHdrParse (responseHdrEncode xdg len) (responseHead xdg len) := by
  have hfixed : Parses fixedHdrParse (responseHdr xdg.pduHdr len).encode (responseHdr xdg.pduHdr len) :=
    parses_fixedHdr hflag
  apply hfixed.bind
  have hcontext : contextParse (.clear (responseHdr xdg.pduHdr len)) =
      pure (.clear (responseHdr xdg.pduHdr len)) :=
    if_neg (by simpa [responseHdr, AgentxDatagram.clear] using hctx)
  rw [hcontext]
  apply (parses_pure _).nil_bind
  have hzero : ([0, 0, 0, 0] : List UInt8) = bytes32 0 := rfl
  rw [hzero]
  refine (parses_field32 hflag 0).bind ((parses_field16 hflag xdg.error).bind
    ((parses_field16 hflag xdg.index).bind_nil ?_))
  exact parses_pure _

/-- `var_bind_parse` takes a payload that holds varbinds and nothing else. -/
lemma parses_varBinds {xdg : AgentxDatagram} {vbs : List XVarBind}
    (hflag : hasFlag xdg.pduHdr.flags networkByteOrder = false)
    (hvbs : ∀ vb ∈ vbs, ResponseVarBind vb) (hlen : (vbs.flatMap varBindBytes).length < 2 ^ 32)
    (hpayload : xdg.pduHdr.payloadLength = UInt32.ofNat (vbs.flatMap varBindBytes).length) :
    Parses (xVarBindParse xdg) (vbs.flatMap varBindBytes)
      { xdg.setPayload 0 with vbInList := vbs.map received } := by
  have hpos : ∀ vb ∈ vbs, 0 < (varBindBytes vb).length := by
    intro vb hvb
    rw [(hvbs vb hvb).length_eq, varBindSize]
    omega
  rw [xVarBindParse, hpayload]
  refine (payloadParse_parses hpos (fun vb hvb => (hvbs vb hvb).parses hflag) hlen).bind_nil ?_
  exact parses_pure _

/-- The header announces the length of the rest. -/
lemma responseHdr_announces {xdg : AgentxDatagram} {len : Nat} (hmin : 20 ≤ len) (hmax : len < 2 ^ 32)
    (hflag : hasFlag xdg.pduHdr.flags networkByteOrder = false) (bs : List UInt8) :
    ∃ ph rest, fixedHdrParse (responseHdrEncode xdg len ++ bs) = .ok (.ok (ph, rest)) ∧
      ph.payloadLength.toNat = len - 20 := by
  have hfixed : Parses fixedHdrParse (responseHdr xdg.pduHdr len).encode (responseHdr xdg.pduHdr len) :=
    parses_fixedHdr hflag
  refine ⟨responseHdr xdg.pduHdr len, [0, 0, 0, 0] ++ (bytes16 xdg.error ++ bytes16 xdg.index) ++ bs,
    ?_, ?_⟩
  · rw [responseHdrEncode, List.append_assoc]
    exact hfixed _
  · have hlen : (UInt32.ofNat len).toNat = len := by
      rw [UInt32.toNat_ofNat', Nat.mod_eq_of_lt hmax]
    have hle : (20 : UInt32) ≤ UInt32.ofNat len := by
      rw [UInt32.le_iff_toNat_le, hlen]
      exact hmin
    change (UInt32.ofNat len - 20).toNat = len - 20
    rw [UInt32.toNat_sub_of_le _ _ hle, hlen]
    rfl

/-- What a response says of itself and what is read back from it. -/
structure RoundTrips (xdg : AgentxDatagram) (pdu : XPduBuf) (xdg' : AgentxDatagram) : Prop where
  response : agentxResponsePdu xdg = some pdu
  written : pdu.written.length = pdu.len
  announced : ∃ ph rest, fixedHdrParse pdu.written = .ok (.ok (ph, rest)) ∧
    ph.payloadLength.toNat = pdu.len - 20
  parse : (xPduHdrParse >>= xVarBindParse) pdu.written = .ok (.ok (xdg', []))
  payload : xdg'.pduHdr.payloadLength = 0
  sessionId : xdg'.pduHdr.sessionId = xdg.pduHdr.sessionId
  transactionId : xdg'.pduHdr.transactionId = xdg.pduHdr.transactionId
  packetId : xdg'.pduHdr.packetId = xdg.pduHdr.packetId
  error : xdg'.error = xdg.error
  index : xdg'.index = xdg.index
  varBinds : xdg'.vbInList = xdg.vbOutList.map received

/-- A response shorter than `2 ^ 32` bytes survives the way to the decoder. -/
theorem agentxResponsePdu_roundTrips {xdg : AgentxDatagram}
    (hflag : hasFlag xdg.pduHdr.flags networkByteOrder = false)
    (hctx : hasFlag xdg.pduHdr.flags nonDefaultContext = false)
    (hvbs : ∀ vb ∈ xdg.vbOutList, ResponseVarBind vb)
    (hlen : 28 + (xdg.vbOutList.map varBindSize).sum < 2 ^ 32) :
    ∃ pdu xdg', RoundTrips xdg pdu xdg' := by
  have hsum := length_flatMap_varBindBytes hvbs
  have hresp : responseLen xdg.vbOutList = 28 + (xdg.vbOutList.flatMap varBindBytes).length := by
    rw [responseLen, hsum, Nat.mod_eq_of_lt hlen]
  have hpayload : UInt32.ofNat (responseLen xdg.vbOutList) - 20 - 8 =
      UInt32.ofNat (xdg.vbOutList.flatMap varBindBytes).length := by
    have hadd : 28 + (xdg.vbOutList.flatMap varBindBytes).length =
        (xdg.vbOutList.flatMap varBindBytes).length + 8 + 20 := by omega
    rw [hresp, hadd, UInt32.ofNat_add, UInt32.ofNat_add]
    exact (congrArg (· - 8) (UInt32.add_sub_cancel _ _)).trans (UInt32.add_sub_cancel _ _)
  have hparse := (parses_responseHdr hflag hctx).bind
    (parses_varBinds hflag hvbs (by omega) hpayload :
      Parses (xVarBindParse (responseHead xdg (responseLen xdg.vbOutList))) _ _)
  refine ⟨_, { (responseHead xdg (responseLen xdg.vbOutList)).setPayload 0 with
    vbInList := xdg.vbOutList.map received }, agentxResponsePdu_eq hvbs, ?_, ?_, ?_, rfl, rfl, rfl, rfl,
    rfl, rfl, rfl⟩
  · rw [List.length_append, length_responseHdrEncode, hresp]
  · exact responseHdr_announces (by omega) (by omega) hflag _
  · simpa using hparse []

/-- The header of a response to packet 3 of transaction 2 in session 1. -/
def sampleXHdr : XPduHdr where
  version := 1
  type := agentxPduGet
  flags := 0
  reserved := 0
  sessionId := 1
  transactionId := 2
  packetId := 3
  payloadLength := 0

/-- A string, a counter of 64 bits, an OID and nothing. -/
def sampleXResponse : AgentxDatagram :=
  { AgentxDatagram.clear sampleXHdr with
    error := 5
    index := 1
    vbOutList :=
      [⟨[1, 3, 6, 1, 2, 1, 1, 1, 0], 4, 3, [97, 98, 99], [0, 0, 0, 0]⟩,
        ⟨[1, 3, 6, 1, 4, 70000], 70, 8, [1, 2, 3, 4, 5, 6, 7, 8], [0, 0, 0, 0]⟩,
        ⟨[], 6, 24, [1, 3, 6, 1, 255, 9].flatMap bytes32, [0, 0, 0, 0]⟩,
        ⟨[1, 3, 6, 1, 2], 128, 0, [], [0, 0, 0, 0]⟩] }

theorem sampleXResponse_roundTrips :
    sampleXResponse.vbOutList.length = 4 ∧ ∃ pdu xdg', RoundTrips sampleXResponse pdu xdg' := by
  refine ⟨rfl, agentxResponsePdu_roundTrips rfl rfl ?_ (by decide)⟩
  intro vb hvb
  simp only [sampleXResponse, List.mem_cons, List.not_mem_nil, or_false] at hvb
  obtain rfl | rfl | rfl | rfl := hvb
  · have hstr : isStringType 4 := by decide
    have hlen : [(97 : UInt8), 98, 99].length ≤ mibValueMaxLen := by decide
    exact ⟨.internet (by decide) (by decide) (by decide), .str hstr hlen⟩
  · exact ⟨.internet (by decide) (by decide) (by decide), .cnt64 rfl⟩
  · have hval : CompactOid [1, 3, 6, 1, 255, 9] := .internet (by decide) (by decide) (by decide)
    exact ⟨.empty, .objid hval⟩
  · exact ⟨.internet (by decide) (by decide) (by decide), .none (by decide)⟩

/-- A varbind without a name and a value, of which `2 ^ 29` overflow the length. -/
def bareVarBind : XVarBind := ⟨[], asn1TagNul.toUInt16, 0, [], []⟩

/-- A response that is longer than its length. -/
def longXResponse : AgentxDatagram :=
  { AgentxDatagram.clear sampleXHdr with vbOutList := List.replicate (2 ^ 29) bareVarBind }

theorem longXResponse_not_roundTrips :
    ¬ ∀ xdg : AgentxDatagram, hasFlag xdg.pduHdr.flags networkByteOrder = false →
      hasFlag xdg.pduHdr.flags nonDefaultContext = false →
      (∀ vb ∈ xdg.vbOutList, ResponseVarBind vb) → ∃ pdu xdg', RoundTrips xdg pdu xdg' := by
  intro h
  have hvbs : ∀ vb ∈ longXResponse.vbOutList, ResponseVarBind vb := by
    intro vb hvb
    obtain rfl := List.eq_of_mem_replicate hvb
    exact ⟨.empty, .none (by decide)⟩
  obtain ⟨pdu, xdg', hround⟩ := h longXResponse rfl rfl hvbs
  have hpdu := hround.response
  rw [agentxResponsePdu_eq hvbs, Option.some.injEq] at hpdu
  subst hpdu
  have hsum : (longXResponse.vbOutList.map varBindSize).sum = 2 ^ 29 * 8 := by
    change ((List.replicate (2 ^ 29) bareVarBind).map varBindSize).sum = _
    rw [List.map_replicate, List.sum_replicate_nat]
    rfl
  have hwritten := hround.written
  rw [List.length_append, length_responseHdrEncode, length_flatMap_varBindBytes hvbs, responseLen,
    hsum] at hwritten
  exact absurd hwritten (by decide)

end SmartSnmp
