import SmartSnmp.Snmp.Accept
import SmartSnmp.Snmp.Size

/-!
# The response is a message

When the stored lengths are those of the values, what `snmp_response` writes is a serialisation of
the response as a message: the two passes of the encoder agree, and the decoder reads it back.
-/

namespace SmartSnmp

open Bytes Reader

/-! ### Fields -/

/-- A header with the length of what follows makes a TLV. -/
lemma headerEnc_tlv (tag : UInt8) {len : Nat} {content : List UInt8} (hlen : len = content.length)
    (hlt : content.length < 2 ^ 32) : Tlv tag content (headerEnc tag len ++ content) := by
  subst hlen
  refine ⟨berLengthEnc (UInt32.ofNat content.length), ?_, rfl⟩
  have h := isLength_berLengthEnc (UInt32.ofNat content.length)
  rwa [UInt32.toNat_ofNat', Nat.mod_eq_of_lt hlt] at h

lemma intFieldEnc_tlv {len : Nat} {value : Int32} (hlen : len = (berIntEnc value).length) :
    IntTlv value (intFieldEnc len value) := by
  obtain ⟨h1, h4, hval⟩ := berIntEnc_spec value
  exact ⟨_, h1, h4, hval, headerEnc_tlv asn1TagInt hlen (by omega)⟩

lemma strFieldEnc_tlv {value : List UInt8} (h : value.length ≤ 40) :
    Tlv asn1TagOctstr value (strFieldEnc value) := headerEnc_tlv asn1TagOctstr rfl (by omega)

/-! ### Responses -/

/-- The smallest number of content bytes for an integer. -/
def MinimalLength (value : Int32) (len : Nat) : Prop :=
  IsLeast { n | ∃ content : List UInt8, content ≠ [] ∧ content.length = n ∧
    beInt content = value.toInt } len

lemma minimalLength_berIntEnc (value : Int32) : MinimalLength value (berIntEnc value).length := by
  obtain ⟨h1, _, hval⟩ := berIntEnc_spec value
  refine ⟨⟨_, List.ne_nil_of_length_pos h1, rfl, hval⟩, ?_⟩
  rintro n ⟨content, hne, rfl, hcontent⟩
  exact (shortest_berIntEnc value).2 content hne (hcontent.trans hval.symm)

lemma MinimalLength.eq {value : Int32} {len : Nat} (h : MinimalLength value len) :
    len = (berIntEnc value).length := IsLeast.unique h (minimalLength_berIntEnc value)

/-- A response varbind with its length as `snmp_get` computes it, and an OID that BER can carry. -/
structure VarBind.Sized (vb : VarBind) : Prop where
  two_le : 2 ≤ vb.oid.length
  length_le : vb.oid.length ≤ mibOidMaxLen
  second_lt : (vb.oid.getD 1 0).toNat < 40
  packed_lt : 40 * (vb.oid.getD 0 0).toNat + (vb.oid.getD 1 0).toNat < 256
  encoded_le : (berOidEnc vb.oid).length ≤ 255
  value_le : vb.value.length ≤ mibValueMaxLen
  vbLen : ∃ oidLen, berOidEncTry vb.oid = some oidLen ∧
    vb.vbLen = responseVbLen oidLen vb.value.length

/-- A datagram that is ready for a response: the length of each integer is the smallest one, the
strings fit their arrays, and the lengths of the varbinds are those of `snmp_get`. -/
structure SnmpDatagram.Sized (sdg : SnmpDatagram) : Prop where
  verLen : MinimalLength sdg.version sdg.verLen
  reqIdLen : MinimalLength sdg.pduHdr.reqId sdg.pduHdr.reqIdLen
  errStatLen : MinimalLength sdg.pduHdr.errStat sdg.pduHdr.errStatLen
  errIdxLen : MinimalLength sdg.pduHdr.errIdx sdg.pduHdr.errIdxLen
  msgIdLen : 3 ≤ sdg.version → MinimalLength sdg.msgId sdg.msgIdLen
  msgSizeLen : 3 ≤ sdg.version → MinimalLength sdg.msgMaxSize sdg.msgSizeLen
  msgModelLen : 3 ≤ sdg.version → MinimalLength sdg.msgSecurityModel sdg.msgModelLen
  engineBootsLen : 3 ≤ sdg.version → MinimalLength sdg.engineBoots sdg.engineBootsLen
  engineTimeLen : 3 ≤ sdg.version → MinimalLength sdg.engineTime sdg.engineTimeLen
  msgFlags : 3 ≤ sdg.version → sdg.msgFlags.length = 1
  userName : sdg.userName.length ≤ 40
  authPara : sdg.authPara.length ≤ 40
  privPara : sdg.privPara.length ≤ 40
  contextName : sdg.contextName.length ≤ 40
  varBinds : ∀ vb ∈ sdg.vbOutList, vb.Sized
  vbListLen : sdg.vbListLen = (sdg.vbOutList.map VarBind.vbLen).foldl addVarBindLen 0

/-- A response varbind as a variable of a message. -/
def VarBind.Sized.binding {vb : VarBind} (h : vb.Sized) : Binding :=
  ⟨vb.oid, vb.valueType, ⟨vb.value, h.value_le⟩, h.two_le, h.length_le, h.second_lt, h.packed_lt⟩

/-- The header of a response from version 3 on: the engine is the agent's own, and the flags are
cleared. -/
def SnmpDatagram.Sized.v3Header {sdg : SnmpDatagram} (h : sdg.Sized) : V3Header where
  msgId := sdg.msgId
  msgMaxSize := sdg.msgMaxSize
  msgFlags := 0
  msgSecurityModel := sdg.msgSecurityModel
  engineId := ⟨snmpv3EngineId, by decide⟩
  engineBoots := sdg.engineBoots
  engineTime := sdg.engineTime
  userName := ⟨sdg.userName, h.userName⟩
  authPara := ⟨sdg.authPara, h.authPara⟩
  privPara := ⟨sdg.privPara, h.privPara⟩
  contextId := ⟨snmpv3EngineId, by decide⟩

/-- The response as a message. -/
def SnmpDatagram.Sized.message {sdg : SnmpDatagram} (h : sdg.Sized) : SnmpMessage where
  version := sdg.version
  v3 := if 3 ≤ sdg.version then some h.v3Header else none
  contextName := ⟨sdg.contextName, h.contextName⟩
  pduType := sdg.pduHdr.pduType
  reqId := sdg.pduHdr.reqId
  errStat := sdg.pduHdr.errStat
  errIdx := sdg.pduHdr.errIdx
  bindings := sdg.vbOutList.pmap (fun _ h => VarBind.Sized.binding h) h.varBinds
  v3_isSome := by split_ifs with h3 <;> simp [h3]

/-! ### Varbinds -/

lemma isOid_berOidEnc {oid : Oid} (h2 : 2 ≤ oid.length) (hsecond : (oid.getD 1 0).toNat < 40)
    (hpacked : 40 * (oid.getD 0 0).toNat + (oid.getD 1 0).toNat < 256) :
    IsOid oid (berOidEnc oid) := by
  obtain ⟨a, oid, rfl⟩ := List.exists_cons_of_length_pos (by omega : 0 < oid.length)
  obtain ⟨b, ids, rfl⟩ := List.exists_cons_of_length_pos (by simp at h2; omega : 0 < oid.length)
  refine ⟨a, b, ids, _, rfl, isOidTail_flatMap ids, ?_⟩
  have hab : 40 * a.toNat + b.toNat < 256 := by simpa using hpacked
  have hbyte : (a * 40 + b).toUInt8 = UInt8.ofNat (40 * a.toNat + b.toNat) := by
    apply UInt8.toNat_inj.mp
    simp
    omega
  rw [berOidEnc, hbyte]

/-- The dry run announces what is written, as long as it fits its 8 bits. -/
lemma berOidEncTry_eq {oid : Oid} (h2 : 2 ≤ oid.length) (h255 : oid.length ≤ 255)
    (hencoded : (berOidEnc oid).length ≤ 255) :
    berOidEncTry oid = some (berOidEnc oid).length := by
  apply (berOidEncTry_eq_iff (Nat.lt_succ_of_le h255)).mpr
  obtain ⟨a, oid, rfl⟩ := List.exists_cons_of_length_pos (by omega : 0 < oid.length)
  obtain ⟨b, ids, rfl⟩ := List.exists_cons_of_length_pos (by simp at h2; omega : 0 < oid.length)
  rw [berOidEnc, List.length_cons, length_flatMap_subIdEnc] at hencoded
  exact Nat.le_of_succ_le_succ hencoded

lemma VarBind.Sized.encode {vb : VarBind} (h : vb.Sized) :
    ∃ part, varBindEncode vb = some part ∧ BindingTlv h.binding part ∧
      part.length = tlvLen vb.vbLen := by
  have htry := berOidEncTry_eq h.two_le (h.length_le.trans (by decide)) h.encoded_le
  obtain ⟨oidLen, hoidLen, hvbLen⟩ := h.vbLen
  obtain rfl : (berOidEnc vb.oid).length = oidLen := Option.some.inj (htry.symm.trans hoidLen)
  have henc := h.encoded_le
  have hval : vb.value.length ≤ 1024 := h.value_le
  have h1 := berLengthEncTry_le (UInt32.ofNat (berOidEnc vb.oid).length)
  have h2 := berLengthEncTry_le (UInt32.ofNat vb.value.length)
  have h3 := berLengthEncTry_le (UInt32.ofNat vb.vbLen)
  have hnameLen := length_headerEnc_append asn1TagObjid (rfl : (berOidEnc vb.oid).length = _) (by
    rw [List.length_append, length_headerEnc]
    omega)
  have hvalueLen := length_headerEnc_append vb.valueType (rfl : vb.value.length = _) (by
    rw [List.length_append, length_headerEnc]
    omega)
  have hcontent : vb.vbLen = (headerEnc asn1TagObjid (berOidEnc vb.oid).length ++ berOidEnc vb.oid ++
      (headerEnc vb.valueType vb.value.length ++ vb.value)).length := by
    rw [hvbLen, responseVbLen, ← hnameLen, ← hvalueLen]
    simp only [List.length_append, length_headerEnc]
    omega
  have hlen := hcontent
  simp only [List.length_append, length_headerEnc] at hlen
  have hsize := length_headerEnc_append asn1TagSeq hcontent (by
    simp only [List.length_append, length_headerEnc]
    omega)
  refine ⟨_, by rw [varBindEncode, htry]; rfl, ?_, by simpa only [List.append_assoc] using hsize⟩
  have hname := headerEnc_tlv asn1TagObjid (rfl : (berOidEnc vb.oid).length = _) (by omega)
  have hvalue := headerEnc_tlv vb.valueType (rfl : vb.value.length = _) (by omega)
  have hseq := headerEnc_tlv asn1TagSeq hcontent (by omega)
  exact ⟨_, _, _, isOid_berOidEnc h.two_le h.second_lt h.packed_lt, hname, hvalue,
    by simpa only [List.append_assoc] using hseq⟩

/-- The varbinds of a response, and the length that `snmp_get` collects for them. -/
lemma encode_varBinds {vbs : List VarBind} (h : ∀ vb ∈ vbs, vb.Sized) :
    ∃ parts, vbs.mapM varBindEncode = some parts ∧
      List.Forall₂ BindingTlv (vbs.pmap (fun _ h => VarBind.Sized.binding h) h) parts ∧
      ∀ n < 2 ^ 32, (vbs.map VarBind.vbLen).foldl addVarBindLen n =
        (n + parts.flatten.length) % 2 ^ 32 := by
  induction vbs with
  | nil => exact ⟨[], rfl, .nil, fun n hn => (Nat.mod_eq_of_lt hn).symm⟩
  | cons vb vbs ih =>
    obtain ⟨part, hpart, htlv, hlen⟩ := (h vb (by simp)).encode
    obtain ⟨parts, hparts, hall, hsum⟩ := ih fun vb hvb => h vb (by simp [hvb])
    refine ⟨part :: parts, by simp [hpart, hparts], .cons htlv hall, ?_⟩
    intro n _
    have hlt : addVarBindLen n vb.vbLen < 2 ^ 32 := Nat.mod_lt _ (by norm_num)
    rw [List.map_cons, List.foldl_cons, hsum _ hlt, addVarBindLen, ← hlen, List.flatten_cons,
      List.length_append, Nat.mod_add_mod, Nat.add_assoc]

/-! ### Parts of a response -/

section Parts

variable {sdg : SnmpDatagram} (h : sdg.Sized)

include h in
lemma SnmpDatagram.Sized.inSync : LengthsInSync sdg where
  verLen := h.verLen.eq
  reqIdLen := h.reqIdLen.eq
  errStatLen := h.errStatLen.eq
  errIdxLen := h.errIdxLen.eq
  msgIdLen h3 := (h.msgIdLen h3).eq
  msgSizeLen h3 := (h.msgSizeLen h3).eq
  msgModelLen h3 := (h.msgModelLen h3).eq
  engineBootsLen h3 := (h.engineBootsLen h3).eq
  engineTimeLen h3 := (h.engineTimeLen h3).eq

lemma SnmpDatagram.Sized.globalData (h3 : 3 ≤ sdg.version)
    (hlt : (globalContent sdg).length < 2 ^ 32) : GlobalDataTlv h.v3Header
      (headerEnc asn1TagSeq (globalDataEncodeTry sdg) ++ globalContent sdg) := by
  have hflags : clearFlags sdg.msgFlags = [0] := by
    obtain ⟨b, hb⟩ := List.length_eq_one_iff.mp (h.msgFlags h3)
    rw [hb]
    rfl
  refine ⟨_, _, _, _, intFieldEnc_tlv (h.inSync.msgIdLen h3), intFieldEnc_tlv (h.inSync.msgSizeLen h3),
    ?_, intFieldEnc_tlv (h.inSync.msgModelLen h3),
    headerEnc_tlv asn1TagSeq (h.inSync.globalData h3 hlt) hlt⟩
  rw [hflags]
  exact strFieldEnc_tlv (by simp)

lemma SnmpDatagram.Sized.security (h3 : 3 ≤ sdg.version)
    (hlt : (headerEnc asn1TagSeq (securityParameterEncodeTry sdg) ++ securityContent sdg).length <
      2 ^ 32) :
    SecurityTlv h.v3Header (headerEnc asn1TagOctstr (tlvLen (securityParameterEncodeTry sdg)) ++
      (headerEnc asn1TagSeq (securityParameterEncodeTry sdg) ++ securityContent sdg)) := by
  have hlt' : (securityContent sdg).length < 2 ^ 32 := by
    rw [List.length_append] at hlt
    omega
  have hcontent := h.inSync.security h3 hlt'
  have hseq := length_headerEnc_append asn1TagSeq hcontent hlt
  exact ⟨_, _, _, _, _, _, _, strFieldEnc_tlv (show snmpv3EngineId.length ≤ 40 by decide),
    intFieldEnc_tlv (h.inSync.engineBootsLen h3), intFieldEnc_tlv (h.inSync.engineTimeLen h3),
    strFieldEnc_tlv h.userName, strFieldEnc_tlv h.authPara, strFieldEnc_tlv h.privPara,
    headerEnc_tlv asn1TagSeq hcontent hlt', headerEnc_tlv asn1TagOctstr hseq.symm hlt⟩

variable {parts : List (List UInt8)} (hparts : List.Forall₂ BindingTlv h.message.bindings parts)
  (hlist : sdg.vbListLen = parts.flatten.length)

include hparts hlist

lemma SnmpDatagram.Sized.pdu (hlt : (pduContent sdg parts.flatten).length < 2 ^ 32) :
    PduTlv h.message (headerEnc sdg.pduHdr.pduType (pduEncodeTry sdg) ++
      pduContent sdg parts.flatten) := by
  have hlt' := hlt
  simp only [pduContent, List.length_append] at hlt'
  exact ⟨_, _, _, parts, _, intFieldEnc_tlv h.inSync.reqIdLen, intFieldEnc_tlv h.inSync.errStatLen,
    intFieldEnc_tlv h.inSync.errIdxLen, hparts, headerEnc_tlv asn1TagSeq hlist (by omega),
    headerEnc_tlv sdg.pduHdr.pduType (h.inSync.pdu hlist hlt) hlt⟩

/-- What is written is a serialisation of the response. -/
lemma SnmpDatagram.Sized.serialises
    (hlt : (asn1Encode (asn1Lengths sdg) ++ parts.flatten).length < 2 ^ 32) :
    Serialises h.message (asn1Encode (asn1Lengths sdg) ++ parts.flatten) := by
  rw [asn1Encode_append] at hlt ⊢
  have hdata : (dataContent sdg parts.flatten).length < 2 ^ 32 := by
    rw [List.length_append] at hlt
    omega
  have htlv := headerEnc_tlv asn1TagSeq (h.inSync.data hlist hdata) hdata
  have hver := intFieldEnc_tlv h.inSync.verLen
  have hname := strFieldEnc_tlv h.contextName
  by_cases h3 : 3 ≤ sdg.version
  · -- the global data, the security parameters and the scoped PDU
    simp only [dataContent, h3, if_true, v3Content, List.length_append] at hdata
    have hscope : (strFieldEnc snmpv3EngineId ++ scopeContent sdg parts.flatten).length < 2 ^ 32 := by
      rw [List.length_append]
      omega
    have hpdu := h.pdu hparts hlist (by
      simp only [scopeContent, List.length_append] at hdata
      omega)
    simp only [dataContent, h3, if_true, v3Content] at htlv ⊢
    refine ⟨_, _, _, hver, hname, hpdu, ?_⟩
    rw [show h.message.v3 = some h.v3Header from if_pos h3]
    exact ⟨_, _, _, _, h.globalData h3 (by omega), h.security h3 (by rw [List.length_append]; omega),
      strFieldEnc_tlv (show snmpv3EngineId.length ≤ 40 by decide),
      headerEnc_tlv asn1TagSeq (h.inSync.scopeLen_of_le h3 hlist hscope) hscope, htlv⟩
  · have hpdu := h.pdu hparts hlist (by
      simp only [dataContent, h3, if_false, scopeContent, List.length_append] at hdata
      omega)
    simp only [dataContent, h3, if_false, scopeContent] at htlv ⊢
    refine ⟨_, _, _, hver, hname, hpdu, ?_⟩
    rw [show h.message.v3 = none from if_neg h3]
    exact htlv

end Parts

/-- For every datagram with the lengths of its values, before and from version 3 on: a response of
less than `2 ^ 32` bytes fills exactly the buffer that was allocated and announced for it, is a
serialisation of the response as a message, and is decoded to what it was made from. -/
theorem snmpResponse_roundTrip (sdg : SnmpDatagram) (h : sdg.Sized) :
    ∃ r, snmpResponse sdg = some r ∧ (r.written.length < 2 ^ 32 →
      r.written.length = r.alloc ∧ r.len = r.alloc ∧
      r.alloc = 1 + berLengthEncTry (UInt32.ofNat (asn1Lengths sdg).dataLen) +
        (asn1Lengths sdg).dataLen ∧
      Serialises h.message r.written ∧
      ∃ sdg', datagramDecode r.written = .ok (.ok (sdg', [])) ∧ Carries sdg' h.message ∧
        sdg'.vbInList = sdg.vbOutList.map fun vb => { vb with vbLen := 0 }) := by
  obtain ⟨parts, hmap, hall, hsum⟩ := encode_varBinds h.varBinds
  have hout : (asn1Lengths sdg).vbOutList = sdg.vbOutList := by
    simp only [asn1Lengths]
    split_ifs <;> rfl
  refine ⟨⟨tlvLen (asn1Lengths sdg).dataLen, asn1Encode (asn1Lengths sdg) ++ parts.flatten,
    tlvLen (asn1Lengths sdg).dataLen⟩, by simp [snmpResponse, hout, hmap], fun hlt => ?_⟩
  have hflat := hlt
  rw [List.length_append] at hflat
  have hlist : sdg.vbListLen = parts.flatten.length := by
    rw [h.vbListLen, hsum 0 (by norm_num), Nat.zero_add, Nat.mod_eq_of_lt (by omega)]
  have hser := h.serialises hall hlist hlt
  have hsize := h.inSync.length_asn1Encode hlist hlt
  obtain ⟨sdg', hdecode, hcarries⟩ := hser.datagramDecode hlt
  refine ⟨hsize, rfl, ?_, hser, sdg', hdecode, hcarries, ?_⟩
  · -- the header alone is longer than what a wrapped size would leave
    have hdata : (asn1Lengths sdg).dataLen < 2 ^ 32 := by
      simp only [asn1Lengths]
      split_ifs <;> exact Nat.mod_lt _ (by norm_num)
    have hhdr : 1 + berLengthEncTry (UInt32.ofNat (asn1Lengths sdg).dataLen) ≤
        (asn1Encode (asn1Lengths sdg) ++ parts.flatten).length := by
      rw [← length_headerEnc asn1TagSeq, asn1Encode, List.append_assoc, List.length_append]
      omega
    rw [hsize, tlvLen] at hhdr
    show tlvLen _ = _
    rw [tlvLen]
    omega
  · rw [hcarries.vbInList]
    simp only [SnmpDatagram.Sized.message, List.map_pmap]
    exact List.pmap_eq_map (f := fun vb : VarBind => { vb with vbLen := 0 }) h.varBinds

/-- A response of version 2c to a GET of 1.3.6.1. -/
def sampleResponse : SnmpDatagram := { SnmpDatagram.clear with
  version := 1
  verLen := 1
  contextName := [0x70, 0x75]
  pduHdr := ⟨0xa2, 0, 2, -200, 1, 0, 1, 0⟩
  vbListLen := 10
  vbOutList := [⟨[1, 3, 6, 1], 8, asn1TagInt, [5]⟩] }

lemma sampleResponse_sized : sampleResponse.Sized := by
  have hmin : ∀ (value : Int32) (len : Nat), (berIntEnc value).length = len →
      MinimalLength value len := fun value len h => h ▸ minimalLength_berIntEnc value
  have hold : ¬ 3 ≤ sampleResponse.version := by decide
  refine ⟨hmin _ _ (by decide), hmin _ _ (by decide), hmin _ _ (by decide), hmin _ _ (by decide),
    fun h3 => absurd h3 hold, fun h3 => absurd h3 hold, fun h3 => absurd h3 hold,
    fun h3 => absurd h3 hold, fun h3 => absurd h3 hold, fun h3 => absurd h3 hold, by decide,
    by decide, by decide, by decide, ?_, by decide⟩
  intro vb hvb
  obtain rfl := List.mem_singleton.mp hvb
  exact ⟨by decide, by decide, by decide, by decide, by decide, by decide, 3, by decide, by decide⟩

theorem snmpResponse_roundTrip_sampleResponse : sampleResponse.Sized ∧
    ∃ r, snmpResponse sampleResponse = some r ∧ r.written.length = 33 ∧ r.alloc = 33 ∧
      ∃ sdg, datagramDecode r.written = .ok (.ok (sdg, [])) ∧ sdg.pduHdr.reqId = -200 := by
  obtain ⟨r, hr, h⟩ := snmpResponse_roundTrip sampleResponse sampleResponse_sized
  have hlen : (snmpResponse sampleResponse).map (fun r => r.written.length) = some 33 := by decide
  rw [hr, Option.map_some, Option.some.injEq] at hlen
  obtain ⟨halloc, _, _, _, sdg, hdecode, hcarries, _⟩ := h (by omega)
  exact ⟨sampleResponse_sized, r, hr, hlen, halloc.symm.trans hlen, sdg, hdecode, hcarries.reqId⟩

end SmartSnmp
