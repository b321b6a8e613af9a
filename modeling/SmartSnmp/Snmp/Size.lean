import SmartSnmp.Snmp.Codec
import SmartSnmp.Snmp.MsgOut

/-!
# The size of a response

`asn1_encode` computes the lengths from those stored for the integers. If these are the numbers of
bytes that are written of the integers, each computed length is the number of bytes it announces.
-/

namespace SmartSnmp

/-- The length that is stored for each integer is the number of bytes that are written of it. -/
structure LengthsInSync (sdg : SnmpDatagram) : Prop where
  verLen : sdg.verLen = (berIntEnc sdg.version).length
  reqIdLen : sdg.pduHdr.reqIdLen = (berIntEnc sdg.pduHdr.reqId).length
  errStatLen : sdg.pduHdr.errStatLen = (berIntEnc sdg.pduHdr.errStat).length
  errIdxLen : sdg.pduHdr.errIdxLen = (berIntEnc sdg.pduHdr.errIdx).length
  msgIdLen : 3 ≤ sdg.version → sdg.msgIdLen = (berIntEnc sdg.msgId).length
  msgSizeLen : 3 ≤ sdg.version → sdg.msgSizeLen = (berIntEnc sdg.msgMaxSize).length
  msgModelLen : 3 ≤ sdg.version → sdg.msgModelLen = (berIntEnc sdg.msgSecurityModel).length
  engineBootsLen : 3 ≤ sdg.version → sdg.engineBootsLen = (berIntEnc sdg.engineBoots).length
  engineTimeLen : 3 ≤ sdg.version → sdg.engineTimeLen = (berIntEnc sdg.engineTime).length

/-! ### Fields -/

lemma length_headerEnc (tag : UInt8) (len : Nat) :
    (headerEnc tag len).length = 1 + berLengthEncTry (UInt32.ofNat len) := by
  rw [headerEnc, List.length_cons, length_berLengthEnc, Nat.add_comm]

lemma berLengthEncTry_le (value : UInt32) :
    1 ≤ berLengthEncTry value ∧ berLengthEncTry value ≤ 5 := by
  have := trimIndex_le 0 (wordBytes value) 3
  simp only [berLengthEncTry]
  split_ifs <;> constructor <;> omega

/-- A header with the length of what follows has the computed size with it. -/
lemma length_headerEnc_append (tag : UInt8) {len : Nat} {content : List UInt8}
    (hlen : len = content.length) (hlt : (headerEnc tag len ++ content).length < 2 ^ 32) :
    (headerEnc tag len ++ content).length = tlvLen len := by
  rw [List.length_append, length_headerEnc, ← hlen] at hlt ⊢
  rw [tlvLen, Nat.mod_eq_of_lt hlt]

lemma length_intFieldEnc {len : Nat} {value : Int32} (hlen : len = (berIntEnc value).length) :
    (intFieldEnc len value).length = tlvLen len := by
  have h1 := (berIntEnc_spec value).2.1
  have h2 := berLengthEncTry_le (UInt32.ofNat len)
  apply length_headerEnc_append asn1TagInt hlen
  rw [List.length_append, length_headerEnc]
  omega

lemma length_strFieldEnc {value : List UInt8} (hlt : (strFieldEnc value).length < 2 ^ 32) :
    (strFieldEnc value).length = tlvLen value.length :=
  length_headerEnc_append asn1TagOctstr rfl hlt

lemma length_strFieldEnc_clearFlags (flags : List UInt8) :
    (strFieldEnc (clearFlags flags)).length = (strFieldEnc flags).length := by
  cases flags <;> simp [strFieldEnc, clearFlags]

/-! ### Contents -/

/-- What follows the header of the PDU, the bytes of the varbinds being `vbs`. -/
def pduContent (sdg : SnmpDatagram) (vbs : List UInt8) : List UInt8 :=
  intFieldEnc sdg.pduHdr.reqIdLen sdg.pduHdr.reqId ++
    (intFieldEnc sdg.pduHdr.errStatLen sdg.pduHdr.errStat ++
      (intFieldEnc sdg.pduHdr.errIdxLen sdg.pduHdr.errIdx ++
        (headerEnc asn1TagSeq sdg.vbListLen ++ vbs)))

def globalContent (sdg : SnmpDatagram) : List UInt8 :=
  intFieldEnc sdg.msgIdLen sdg.msgId ++ (intFieldEnc sdg.msgSizeLen sdg.msgMaxSize ++
    (strFieldEnc (clearFlags sdg.msgFlags) ++ intFieldEnc sdg.msgModelLen sdg.msgSecurityModel))

def securityContent (sdg : SnmpDatagram) : List UInt8 :=
  strFieldEnc snmpv3EngineId ++ (intFieldEnc sdg.engineBootsLen sdg.engineBoots ++
    (intFieldEnc sdg.engineTimeLen sdg.engineTime ++ (strFieldEnc sdg.userName ++
      (strFieldEnc sdg.authPara ++ strFieldEnc sdg.privPara))))

/-- The context name and the PDU. -/
def scopeContent (sdg : SnmpDatagram) (vbs : List UInt8) : List UInt8 :=
  strFieldEnc sdg.contextName ++
    (headerEnc sdg.pduHdr.pduType (pduEncodeTry sdg) ++ pduContent sdg vbs)

/-- The global data, the security parameters and the scoped PDU. -/
def v3Content (sdg : SnmpDatagram) (vbs : List UInt8) : List UInt8 :=
  (headerEnc asn1TagSeq (globalDataEncodeTry sdg) ++ globalContent sdg) ++
    ((headerEnc asn1TagOctstr (tlvLen (securityParameterEncodeTry sdg)) ++
      (headerEnc asn1TagSeq (securityParameterEncodeTry sdg) ++ securityContent sdg)) ++
    (headerEnc asn1TagSeq (asn1Lengths sdg).scopeLen ++
      (strFieldEnc snmpv3EngineId ++ scopeContent sdg vbs)))

def dataContent (sdg : SnmpDatagram) (vbs : List UInt8) : List UInt8 :=
  intFieldEnc sdg.verLen sdg.version ++
    if 3 ≤ sdg.version then v3Content sdg vbs else scopeContent sdg vbs

lemma asn1Encode_append (sdg : SnmpDatagram) (vbs : List UInt8) :
    asn1Encode (asn1Lengths sdg) ++ vbs =
      headerEnc asn1TagSeq (asn1Lengths sdg).dataLen ++ dataContent sdg vbs := by
  by_cases h3 : 3 ≤ sdg.version
  · simp [asn1Encode, asn1Lengths, h3, dataContent, v3Content, v3HeaderEncode, globalDataEncode,
      globalContent, securityParameterEncode, securityContent, scopeContent, pduHdrEncode, pduContent]
  · simp [asn1Encode, asn1Lengths, h3, dataContent, scopeContent, pduHdrEncode, pduContent]

namespace LengthsInSync

variable {sdg : SnmpDatagram} {vbs : List UInt8} (h : LengthsInSync sdg)

include h

lemma pdu (hvbs : sdg.vbListLen = vbs.length) (hlt : (pduContent sdg vbs).length < 2 ^ 32) :
    pduEncodeTry sdg = (pduContent sdg vbs).length := by
  simp only [pduContent, List.length_append] at hlt ⊢
  have hlist := length_headerEnc_append asn1TagSeq hvbs (by rw [List.length_append]; omega)
  rw [List.length_append] at hlist
  rw [pduEncodeTry, ← length_intFieldEnc h.reqIdLen, ← length_intFieldEnc h.errStatLen,
    ← length_intFieldEnc h.errIdxLen, ← hlist]
  omega

lemma globalData (h3 : 3 ≤ sdg.version) (hlt : (globalContent sdg).length < 2 ^ 32) :
    globalDataEncodeTry sdg = (globalContent sdg).length := by
  simp only [globalContent, List.length_append, length_strFieldEnc_clearFlags] at hlt ⊢
  rw [globalDataEncodeTry, ← length_intFieldEnc (h.msgIdLen h3),
    ← length_intFieldEnc (h.msgSizeLen h3), ← length_intFieldEnc (h.msgModelLen h3),
    ← length_strFieldEnc (by omega : (strFieldEnc sdg.msgFlags).length < 2 ^ 32)]
  omega

lemma security (h3 : 3 ≤ sdg.version) (hlt : (securityContent sdg).length < 2 ^ 32) :
    securityParameterEncodeTry sdg = (securityContent sdg).length := by
  simp only [securityContent, List.length_append] at hlt ⊢
  have hid := length_strFieldEnc (by omega : (strFieldEnc snmpv3EngineId).length < 2 ^ 32)
  have huser := length_strFieldEnc (by omega : (strFieldEnc sdg.userName).length < 2 ^ 32)
  have hauth := length_strFieldEnc (by omega : (strFieldEnc sdg.authPara).length < 2 ^ 32)
  have hpriv := length_strFieldEnc (by omega : (strFieldEnc sdg.privPara).length < 2 ^ 32)
  rw [securityParameterEncodeTry, ← hid, ← huser, ← hauth, ← hpriv,
    ← length_intFieldEnc (h.engineBootsLen h3), ← length_intFieldEnc (h.engineTimeLen h3)]
  omega

/-- `scope_len`, before the engine ID is added to it. -/
lemma scope (hvbs : sdg.vbListLen = vbs.length) (hlt : (scopeContent sdg vbs).length < 2 ^ 32) :
    (tlvLen (pduEncodeTry sdg) + tlvLen sdg.contextName.length) % 2 ^ 32 =
      (scopeContent sdg vbs).length := by
  simp only [scopeContent, List.length_append] at hlt ⊢
  have hname := length_strFieldEnc (by omega : (strFieldEnc sdg.contextName).length < 2 ^ 32)
  have hpdu := length_headerEnc_append sdg.pduHdr.pduType (h.pdu hvbs (by omega)) (by
    rw [List.length_append]
    omega)
  rw [List.length_append] at hpdu
  rw [← hname, ← hpdu]
  omega

lemma data_of_lt (h3 : ¬ 3 ≤ sdg.version) (hvbs : sdg.vbListLen = vbs.length)
    (hlt : (dataContent sdg vbs).length < 2 ^ 32) :
    (asn1Lengths sdg).dataLen = (dataContent sdg vbs).length := by
  simp only [dataContent, h3, if_false, List.length_append] at hlt ⊢
  have hscope := h.scope hvbs (by omega)
  have hdata : (asn1Lengths sdg).dataLen = ((tlvLen (pduEncodeTry sdg) +
      tlvLen sdg.contextName.length) % 2 ^ 32 + tlvLen sdg.verLen) % 2 ^ 32 := by
    simp [asn1Lengths, h3]
  rw [hdata, hscope, ← length_intFieldEnc h.verLen]
  omega

lemma scopeLen_of_le (h3 : 3 ≤ sdg.version) (hvbs : sdg.vbListLen = vbs.length)
    (hlt : (strFieldEnc snmpv3EngineId ++ scopeContent sdg vbs).length < 2 ^ 32) :
    (asn1Lengths sdg).scopeLen = (strFieldEnc snmpv3EngineId ++ scopeContent sdg vbs).length := by
  rw [List.length_append] at hlt ⊢
  have hid := length_strFieldEnc (by omega : (strFieldEnc snmpv3EngineId).length < 2 ^ 32)
  have hlen : (asn1Lengths sdg).scopeLen = ((tlvLen (pduEncodeTry sdg) +
      tlvLen sdg.contextName.length) % 2 ^ 32 + tlvLen snmpv3EngineId.length) % 2 ^ 32 := by
    simp [asn1Lengths, h3]
  rw [hlen, h.scope hvbs (by omega), ← hid]
  omega

lemma data_of_le (h3 : 3 ≤ sdg.version) (hvbs : sdg.vbListLen = vbs.length)
    (hlt : (dataContent sdg vbs).length < 2 ^ 32) :
    (asn1Lengths sdg).dataLen = (dataContent sdg vbs).length := by
  simp only [dataContent, h3, if_true, v3Content, List.length_append] at hlt ⊢
  have hglobal := length_headerEnc_append asn1TagSeq (h.globalData h3 (by omega)) (by
    rw [List.length_append]
    omega)
  have hseq := length_headerEnc_append asn1TagSeq (h.security h3 (by omega)) (by
    rw [List.length_append]
    omega)
  have hsecur := length_headerEnc_append asn1TagOctstr hseq.symm (by
    simp only [List.length_append]
    omega)
  have hscope := length_headerEnc_append asn1TagSeq (h.scopeLen_of_le h3 hvbs (by
    rw [List.length_append]
    omega)) (by
    simp only [List.length_append]
    omega)
  have hdata : (asn1Lengths sdg).dataLen = (tlvLen (globalDataEncodeTry sdg) +
      tlvLen (tlvLen (securityParameterEncodeTry sdg)) + tlvLen (asn1Lengths sdg).scopeLen +
      tlvLen sdg.verLen) % 2 ^ 32 := by
    simp [asn1Lengths, h3]
  simp only [List.length_append] at hglobal hsecur hscope
  rw [hdata, ← hglobal, ← hsecur, ← hscope, ← length_intFieldEnc h.verLen]
  omega

lemma data (hvbs : sdg.vbListLen = vbs.length) (hlt : (dataContent sdg vbs).length < 2 ^ 32) :
    (asn1Lengths sdg).dataLen = (dataContent sdg vbs).length := by
  by_cases h3 : 3 ≤ sdg.version
  · exact h.data_of_le h3 hvbs hlt
  · exact h.data_of_lt h3 hvbs hlt

/-- The whole response has the size that is allocated and announced. -/
lemma length_asn1Encode (hvbs : sdg.vbListLen = vbs.length)
    (hlt : (asn1Encode (asn1Lengths sdg) ++ vbs).length < 2 ^ 32) :
    (asn1Encode (asn1Lengths sdg) ++ vbs).length = tlvLen (asn1Lengths sdg).dataLen := by
  rw [asn1Encode_append] at hlt ⊢
  refine length_headerEnc_append asn1TagSeq (h.data hvbs ?_) hlt
  rw [List.length_append] at hlt
  omega

end LengthsInSync

/-! ### Announced and written -/

/-- The lengths that are stored for the integers of a message. -/
def SnmpDatagram.storedLens (sdg : SnmpDatagram) : Nat :=
  sdg.verLen + sdg.pduHdr.reqIdLen + sdg.pduHdr.errStatLen + sdg.pduHdr.errIdxLen +
    if 3 ≤ sdg.version then sdg.msgIdLen + sdg.msgSizeLen + sdg.msgModelLen + sdg.engineBootsLen +
      sdg.engineTimeLen else 0

/-- The bytes that their values take. -/
def SnmpDatagram.valueLens (sdg : SnmpDatagram) : Nat :=
  (berIntEnc sdg.version).length + (berIntEnc sdg.pduHdr.reqId).length +
    (berIntEnc sdg.pduHdr.errStat).length + (berIntEnc sdg.pduHdr.errIdx).length +
    if 3 ≤ sdg.version then (berIntEnc sdg.msgId).length + (berIntEnc sdg.msgMaxSize).length +
      (berIntEnc sdg.msgSecurityModel).length + (berIntEnc sdg.engineBoots).length +
      (berIntEnc sdg.engineTime).length else 0

section Announced

variable {sdg : SnmpDatagram} {vbs : List UInt8} {gap : Nat}

/-- A length is announced in 32 bits, with a header that has the size it is computed with. -/
lemma tlvLen_mod (tag : UInt8) (len : Nat) : tlvLen len % 2 ^ 32 =
    ((headerEnc tag len).length + len) % 2 ^ 32 := by
  rw [tlvLen, length_headerEnc, Nat.mod_mod]

lemma tlvLen_intField (len : Nat) (value : Int32) :
    (tlvLen len + (berIntEnc value).length) % 2 ^ 32 =
      ((intFieldEnc len value).length + len) % 2 ^ 32 := by
  have h := tlvLen_mod asn1TagInt len
  rw [intFieldEnc, List.length_append]
  omega

lemma tlvLen_strField (value : List UInt8) :
    tlvLen value.length % 2 ^ 32 = (strFieldEnc value).length % 2 ^ 32 := by
  rw [tlvLen_mod asn1TagOctstr, strFieldEnc, List.length_append]

/-- The PDU, where the bytes of the varbinds are `gap` more than their list is announced with. -/
lemma pduEncodeTry_mod (hvbs : (sdg.vbListLen + gap) % 2 ^ 32 = vbs.length % 2 ^ 32) :
    (pduEncodeTry sdg + ((berIntEnc sdg.pduHdr.reqId).length + (berIntEnc sdg.pduHdr.errStat).length +
      (berIntEnc sdg.pduHdr.errIdx).length + gap)) % 2 ^ 32 =
    ((pduContent sdg vbs).length +
      (sdg.pduHdr.reqIdLen + sdg.pduHdr.errStatLen + sdg.pduHdr.errIdxLen)) % 2 ^ 32 := by
  have hreqId := tlvLen_intField sdg.pduHdr.reqIdLen sdg.pduHdr.reqId
  have herrStat := tlvLen_intField sdg.pduHdr.errStatLen sdg.pduHdr.errStat
  have herrIdx := tlvLen_intField sdg.pduHdr.errIdxLen sdg.pduHdr.errIdx
  have hlist := tlvLen_mod asn1TagSeq sdg.vbListLen
  simp only [pduContent, List.length_append, pduEncodeTry]
  omega

/-- The context name and the PDU: `scope_len`, before the engine ID is added to it. -/
lemma scopeLen_mod (hvbs : (sdg.vbListLen + gap) % 2 ^ 32 = vbs.length % 2 ^ 32) :
    ((tlvLen (pduEncodeTry sdg) + tlvLen sdg.contextName.length) % 2 ^ 32 +
      ((berIntEnc sdg.pduHdr.reqId).length + (berIntEnc sdg.pduHdr.errStat).length +
        (berIntEnc sdg.pduHdr.errIdx).length + gap)) % 2 ^ 32 =
    ((scopeContent sdg vbs).length +
      (sdg.pduHdr.reqIdLen + sdg.pduHdr.errStatLen + sdg.pduHdr.errIdxLen)) % 2 ^ 32 := by
  have hname := tlvLen_strField sdg.contextName
  have hhdr := tlvLen_mod sdg.pduHdr.pduType (pduEncodeTry sdg)
  have hpdu := pduEncodeTry_mod hvbs
  simp only [scopeContent, List.length_append]
  omega

lemma globalDataEncodeTry_mod (sdg : SnmpDatagram) :
    (globalDataEncodeTry sdg + ((berIntEnc sdg.msgId).length + (berIntEnc sdg.msgMaxSize).length +
      (berIntEnc sdg.msgSecurityModel).length)) % 2 ^ 32 =
    ((globalContent sdg).length + (sdg.msgIdLen + sdg.msgSizeLen + sdg.msgModelLen)) % 2 ^ 32 := by
  have hid := tlvLen_intField sdg.msgIdLen sdg.msgId
  have hsize := tlvLen_intField sdg.msgSizeLen sdg.msgMaxSize
  have hflags := tlvLen_strField sdg.msgFlags
  have hmodel := tlvLen_intField sdg.msgModelLen sdg.msgSecurityModel
  simp only [globalContent, List.length_append, length_strFieldEnc_clearFlags, globalDataEncodeTry]
  omega

lemma securityParameterEncodeTry_mod (sdg : SnmpDatagram) :
    (securityParameterEncodeTry sdg +
      ((berIntEnc sdg.engineBoots).length + (berIntEnc sdg.engineTime).length)) % 2 ^ 32 =
    ((securityContent sdg).length + (sdg.engineBootsLen + sdg.engineTimeLen)) % 2 ^ 32 := by
  have hid := tlvLen_strField snmpv3EngineId
  have hboots := tlvLen_intField sdg.engineBootsLen sdg.engineBoots
  have htime := tlvLen_intField sdg.engineTimeLen sdg.engineTime
  have huser := tlvLen_strField sdg.userName
  have hauth := tlvLen_strField sdg.authPara
  have hpriv := tlvLen_strField sdg.privPara
  simp only [securityContent, List.length_append, securityParameterEncodeTry]
  omega

/-- The content of the message, before and from version 3 on. -/
lemma dataLen_mod (hvbs : (sdg.vbListLen + gap) % 2 ^ 32 = vbs.length % 2 ^ 32) :
    ((asn1Lengths sdg).dataLen + (sdg.valueLens + gap)) % 2 ^ 32 =
      ((dataContent sdg vbs).length + sdg.storedLens) % 2 ^ 32 := by
  have hver := tlvLen_intField sdg.verLen sdg.version
  have hscope := scopeLen_mod hvbs
  by_cases h3 : 3 ≤ sdg.version
  · have hglobal := globalDataEncodeTry_mod sdg
    have hsecurity := securityParameterEncodeTry_mod sdg
    have hmsg := tlvLen_mod asn1TagSeq (globalDataEncodeTry sdg)
    have hseq := tlvLen_mod asn1TagSeq (securityParameterEncodeTry sdg)
    have hstr := tlvLen_mod asn1TagOctstr (tlvLen (securityParameterEncodeTry sdg))
    have hid := tlvLen_strField snmpv3EngineId
    have hpdu := tlvLen_mod asn1TagSeq (asn1Lengths sdg).scopeLen
    have hscopeLen : (asn1Lengths sdg).scopeLen = ((tlvLen (pduEncodeTry sdg) +
        tlvLen sdg.contextName.length) % 2 ^ 32 + tlvLen snmpv3EngineId.length) % 2 ^ 32 := by
      simp [asn1Lengths, h3]
    have hdata : (asn1Lengths sdg).dataLen = (tlvLen (globalDataEncodeTry sdg) +
        tlvLen (tlvLen (securityParameterEncodeTry sdg)) + tlvLen (asn1Lengths sdg).scopeLen +
        tlvLen sdg.verLen) % 2 ^ 32 := by
      simp [asn1Lengths, h3]
    simp only [hdata, dataContent, v3Content, SnmpDatagram.valueLens, SnmpDatagram.storedLens, h3,
      if_true, List.length_append]
    omega
  · have hdata : (asn1Lengths sdg).dataLen = ((tlvLen (pduEncodeTry sdg) +
        tlvLen sdg.contextName.length) % 2 ^ 32 + tlvLen sdg.verLen) % 2 ^ 32 := by
      simp [asn1Lengths, h3]
    simp only [hdata, dataContent, SnmpDatagram.valueLens, SnmpDatagram.storedLens, h3, if_false,
      List.length_append]
    omega

/-- What is announced differs from what is written by the stored lengths that are too great or too
small, as far as 32 bits count. -/
lemma tlvLen_asn1Lengths_mod (hvbs : (sdg.vbListLen + gap) % 2 ^ 32 = vbs.length % 2 ^ 32) :
    (tlvLen (asn1Lengths sdg).dataLen + (sdg.valueLens + gap)) % 2 ^ 32 =
      ((asn1Encode (asn1Lengths sdg) ++ vbs).length + sdg.storedLens) % 2 ^ 32 := by
  have hdata := dataLen_mod hvbs
  have hhdr := tlvLen_mod asn1TagSeq (asn1Lengths sdg).dataLen
  rw [asn1Encode_append, List.length_append]
  omega

/-- The values are part of what is written. -/
lemma valueLens_le (sdg : SnmpDatagram) (vbs : List UInt8) :
    sdg.valueLens + vbs.length ≤ (asn1Encode (asn1Lengths sdg) ++ vbs).length := by
  rw [asn1Encode_append, List.length_append, SnmpDatagram.valueLens, dataContent]
  split_ifs with h3
  · simp only [v3Content, globalContent, securityContent, scopeContent, pduContent, intFieldEnc,
      List.length_append]
    omega
  · simp only [scopeContent, pduContent, intFieldEnc, List.length_append]
    omega

end Announced

end SmartSnmp
