import SmartSnmp.Snmp.Bounds
import SmartSnmp.Snmp.Exchange

/-!
# What is sent of the memory

`snmp_response` sends as many bytes as it has announced. Where the lengths that the request came with
announce more than is written, the last bytes that are sent are what stood in the memory of the buffer,
and they depend on what was received before. Nothing else does.
-/

namespace SmartSnmp

open Reader

/-! ### A response in memory -/

lemma Response.sent_of_le {r : Response} (h : r.len ≤ r.written.length) (memory : Nat → UInt8) :
    r.sent memory = r.written.take r.len := by
  rw [Response.sent, List.take_append_of_le_length h]

/-- The first byte behind what is written is that of the memory. -/
lemma Response.sent_of_lt {r : Response} (halloc : r.alloc = r.len) (h : r.written.length < r.len)
    (memory : Nat → UInt8) : (r.sent memory)[r.written.length]? = some (memory r.written.length) := by
  rw [Response.sent, List.getElem?_take_of_lt h, List.getElem?_append_right le_rfl, Nat.sub_self,
    List.getElem?_map, List.getElem?_drop, Nat.add_zero, List.getElem?_range (halloc ▸ h)]
  rfl

/-- The bytes that are sent are those of the response if and only if as many are written. -/
lemma Response.sent_eq_iff {r : Response} (halloc : r.alloc = r.len) :
    (∀ memory first, r.sent memory = r.sent first) ↔ r.len ≤ r.written.length := by
  constructor
  · intro h
    by_contra hlt
    have hzero := Response.sent_of_lt halloc (not_le.mp hlt) fun _ => 0
    rw [h (fun _ => 0) fun _ => 1, Response.sent_of_lt halloc (not_le.mp hlt) fun _ => 1] at hzero
    exact absurd hzero (by decide)
  · intro hle memory first
    rw [Response.sent_of_le hle, Response.sent_of_le hle]

/-! ### The size of a response -/

/-- The bytes of an OID that its length of 8 bits does not count. -/
def uncounted (oid : Oid) : Nat := (berOidEnc oid).length / 256 * 256

lemma berOidEncTry_add_uncounted {oid : Oid} {oidLen : Nat} (h : berOidEncTry oid = some oidLen) :
    oidLen + uncounted oid = (berOidEnc oid).length := by
  match oid with
  | [] =>
    obtain rfl := Option.some.inj h
    rfl
  | [a] =>
    obtain rfl := Option.some.inj h
    simp [uncounted, berOidEnc]
  | a :: b :: ids =>
    have hlen : (fun id => (subIdTmp 10 id).length) = subIdLen := funext length_subIdTmp
    rw [berOidEncTry, if_neg (by simp), hlen] at h
    split_ifs at h
    obtain rfl := Option.some.inj h
    rw [uncounted, berOidEnc, List.length_cons, length_flatMap_subIdEnc, List.drop_succ_cons,
      List.drop_succ_cons, List.drop_zero]
    omega

/-- A varbind is announced with the bytes that it takes, but those of its OID that are not counted. -/
lemma tlvLen_varBind {vb : VarBind} {oidLen : Nat} (hoid : berOidEncTry vb.oid = some oidLen)
    (hlen : vb.vbLen = responseVbLen oidLen vb.value.length) {part : List UInt8}
    (hpart : varBindEncode vb = some part) :
    (tlvLen vb.vbLen + uncounted vb.oid) % 2 ^ 32 = part.length % 2 ^ 32 := by
  obtain ⟨oidLen', hoid', rfl⟩ := Option.map_eq_some_iff.mp hpart
  obtain rfl : oidLen' = oidLen := Option.some.inj (hoid'.symm.trans hoid)
  have hcount := berOidEncTry_add_uncounted hoid
  have hseq := tlvLen_mod asn1TagSeq vb.vbLen
  have hname := tlvLen_mod asn1TagObjid oidLen'
  have hvalue := tlvLen_mod vb.valueType vb.value.length
  have hvb : vb.vbLen = (tlvLen oidLen' + tlvLen vb.value.length) % 2 ^ 32 := hlen
  simp only [List.length_append]
  omega

/-- The list is announced with the bytes of its varbinds, but those that are not counted. -/
lemma foldl_addVarBindLen_mod {vbs : List VarBind} {parts : List (List UInt8)}
    (hlen : ∀ vb ∈ vbs, ∃ oidLen, berOidEncTry vb.oid = some oidLen ∧
      vb.vbLen = responseVbLen oidLen vb.value.length)
    (hparts : vbs.mapM varBindEncode = some parts) (n : Nat) :
    ((vbs.map VarBind.vbLen).foldl addVarBindLen n + (vbs.map fun vb => uncounted vb.oid).sum) %
      2 ^ 32 = (n + parts.flatten.length) % 2 ^ 32 := by
  induction vbs generalizing n parts with
  | nil =>
    obtain rfl : [] = parts := by simpa using hparts
    rfl
  | cons vb vbs ih =>
    rw [List.mapM_cons] at hparts
    obtain ⟨part, hpart, hparts⟩ := Option.bind_eq_some_iff.mp hparts
    obtain ⟨rest, hrest, hparts⟩ := Option.bind_eq_some_iff.mp hparts
    obtain rfl := Option.some.inj hparts
    obtain ⟨oidLen, hoid, hvb⟩ := hlen vb List.mem_cons_self
    have hone := tlvLen_varBind hoid hvb hpart
    have hall := ih (fun vb hmem => hlen vb (List.mem_cons_of_mem _ hmem)) hrest
      (addVarBindLen n vb.vbLen)
    simp only [List.map_cons, List.foldl_cons, List.sum_cons, List.flatten_cons, List.length_append]
    have hadd : addVarBindLen n vb.vbLen = (n + tlvLen vb.vbLen) % 2 ^ 32 := rfl
    omega

/-- The bytes that are not counted are part of the varbinds. -/
lemma sum_uncounted_le {vbs : List VarBind} {parts : List (List UInt8)}
    (hparts : vbs.mapM varBindEncode = some parts) :
    (vbs.map fun vb => uncounted vb.oid).sum ≤ parts.flatten.length := by
  induction vbs generalizing parts with
  | nil => simp
  | cons vb vbs ih =>
    rw [List.mapM_cons] at hparts
    obtain ⟨part, hpart, hparts⟩ := Option.bind_eq_some_iff.mp hparts
    obtain ⟨rest, hrest, hparts⟩ := Option.bind_eq_some_iff.mp hparts
    obtain rfl := Option.some.inj hparts
    obtain ⟨oidLen, -, rfl⟩ := Option.map_eq_some_iff.mp hpart
    have hall := ih hrest
    have hle : uncounted vb.oid ≤ (berOidEnc vb.oid).length := Nat.div_mul_le_self _ _
    simp only [List.map_cons, List.sum_cons, List.flatten_cons, List.length_append]
    omega

/-- As many bytes are written as are announced, or more, if and only if the stored lengths are no
greater than what is written of their values, or the announced length does not fit 32 bits. -/
lemma snmpResponse_len_le_iff {sdg : SnmpDatagram} (h : Ledger sdg) {r : Response}
    (hr : snmpResponse sdg = some r) (hstored : sdg.storedLens < 2 ^ 32) :
    r.alloc = r.len ∧ (r.len ≤ r.written.length ↔
      sdg.storedLens ≤ sdg.valueLens + (sdg.vbOutList.map fun vb => uncounted vb.oid).sum ∨
      2 ^ 32 + (sdg.valueLens + (sdg.vbOutList.map fun vb => uncounted vb.oid).sum) ≤
        r.written.length + sdg.storedLens) := by
  have hout : (asn1Lengths sdg).vbOutList = sdg.vbOutList := by
    simp only [asn1Lengths]
    split_ifs <;> rfl
  rw [snmpResponse, hout] at hr
  obtain ⟨parts, hparts, rfl⟩ := Option.map_eq_some_iff.mp hr
  refine ⟨rfl, ?_⟩
  have hlist := foldl_addVarBindLen_mod h.vbLen hparts 0
  rw [← h.vbListLen, Nat.zero_add] at hlist
  have hmod := tlvLen_asn1Lengths_mod hlist
  have hle := valueLens_le sdg parts.flatten
  have hgap := sum_uncounted_le hparts
  have hlt : tlvLen (asn1Lengths sdg).dataLen < 2 ^ 32 := Nat.mod_lt _ (by norm_num)
  dsimp only
  omega

/-! ### The lengths that are stored -/

lemma forward_header (tag : UInt8) (err : SnmpErrCode) : Forward (header tag err) :=
  (forward_byte.bind fun _ => forward_failIf _ _).bind fun _ =>
    forward_berLengthDec.bind fun _ => forward_pure _

lemma forward_strField (size : Nat) (err errLen : SnmpErrCode) :
    Forward (strField size err errLen) := by
  refine (forward_header _ _).bind fun len => (forward_failIf _ _).bind fun _ => ?_
  split_ifs
  · exact forward_crash
  · exact forward_bytes len

lemma forward_flagsField (err : SnmpErrCode) : Forward (flagsField err) := by
  refine (forward_header _ _).bind fun len => ?_
  split_ifs
  · exact forward_crash
  · exact forward_bytes len

/-- The length that is stored for an integer is of bytes that the message has. -/
lemma takes_intField (err : SnmpErrCode) : Takes (intField err) fun r => r.1 := by
  refine Forward.bind_takes (forward_header _ _) fun len => (takes_bytes len).bind fun content => ?_
  split_ifs
  · exact takes_pure (Nat.sub_self len)
  · cases berIntDec content with
    | none => exact fun bs a rest h => by simp at h
    | some value => exact takes_pure (Nat.sub_self len)

/-- What a part of a message adds to the stored lengths, it takes of the bytes. -/
lemma takes_globalDataDecode (sdg : SnmpDatagram) :
    Takes (globalDataDecode sdg) fun sdg' => sdg'.storedLens - sdg.storedLens := by
  refine (takes_intField _).bind fun id => (takes_intField _).bind fun size => ?_
  refine (forward_flagsField _).bind_takes fun flags => (takes_intField _).bind fun model => ?_
  apply takes_pure
  simp only [SnmpDatagram.storedLens]
  split_ifs <;> omega

lemma takes_securityParameterDecode (sdg : SnmpDatagram) :
    Takes (securityParameterDecode sdg) fun sdg' => sdg'.storedLens - sdg.storedLens := by
  refine (forward_header _ _).bind_takes fun _ => (forward_header _ _).bind_takes fun _ => ?_
  refine (forward_strField _ _ _).bind_takes fun _ => ?_
  refine (takes_intField _).bind fun boots => (takes_intField _).bind fun time => ?_
  refine (forward_strField _ _ _).bind_takes fun _ => (forward_strField _ _ _).bind_takes fun _ => ?_
  refine (forward_strField _ _ _).bind_takes fun _ => takes_pure ?_
  simp only [SnmpDatagram.storedLens]
  split_ifs <;> omega

lemma takes_v3Decode (sdg : SnmpDatagram) :
    Takes (v3Decode sdg) fun sdg' => sdg'.storedLens - sdg.storedLens := by
  rw [v3Decode]
  split_ifs
  · refine (forward_header _ _).bind_takes fun msgLen => ?_
    refine (takes_globalDataDecode _).bind fun sdg₁ => (takes_securityParameterDecode _).bind fun sdg₂ => ?_
    refine (forward_header _ _).bind_takes fun _ => (forward_strField _ _ _).bind_takes fun _ => ?_
    apply takes_pure
    have h₂ : ({ sdg₂ with scopeLen := ‹_›, contextId := ‹_› } : SnmpDatagram).storedLens =
      sdg₂.storedLens := rfl
    have h : ({ sdg with msgLen } : SnmpDatagram).storedLens = sdg.storedLens := rfl
    omega
  · exact takes_pure (Nat.sub_self _)

lemma takes_pduHdrParse (sdg : SnmpDatagram) :
    Takes (pduHdrParse sdg) fun sdg' => sdg'.storedLens - sdg.storedLens := by
  refine forward_byte.bind_takes fun _ => forward_berLengthDec.bind_takes fun _ => ?_
  refine (takes_intField _).bind fun reqId => (takes_intField _).bind fun errStat => ?_
  refine (takes_intField _).bind fun errIdx => takes_pure ?_
  simp only [SnmpDatagram.storedLens]
  split_ifs <;> omega

lemma takes_v3Decode_clear (dataLen verLen : Nat) (version : Int32) :
    Takes (v3Decode { SnmpDatagram.clear with dataLen, verLen, version })
      fun sdg => sdg.storedLens - verLen := by
  have hclear : ({ SnmpDatagram.clear with dataLen, verLen, version } : SnmpDatagram).storedLens =
      verLen := by
    simp [SnmpDatagram.storedLens, SnmpDatagram.clear]
  have h := takes_v3Decode { SnmpDatagram.clear with dataLen, verLen, version }
  rwa [hclear] at h

lemma takes_messageDecode : Takes messageDecode fun sdg => sdg.storedLens := by
  refine (forward_skip 1).bind_takes fun _ => forward_berLengthDec.bind_takes fun len => ?_
  refine (takes_intField _).bind fun version => ?_
  refine (takes_v3Decode_clear len.2 version.1 version.2).bind fun sdg => ?_
  refine (forward_strField _ _ _).bind_takes fun contextName => ?_
  intro bs sdg' rest h
  have hpdu : rest.length + (sdg'.storedLens - sdg.storedLens) ≤ bs.length :=
    takes_pduHdrParse { sdg with contextName } h
  dsimp only
  omega

/-- The loop ends when nothing is left of the list. -/
lemma left_varBindLoop {fuel n : Nat} {vbs : List VarBind} {left : Nat}
    (h : Yields (varBindLoop fuel n) (vbs, left)) : left = 0 := by
  induction fuel generalizing n vbs with
  | zero =>
    cases n with
    | zero => exact (Prod.mk.inj h.of_pure).2.symm
    | succ n =>
      obtain ⟨bs, rest, h⟩ := h
      simp [varBindLoop, outOfFuel] at h
  | succ fuel ih =>
    cases n with
    | zero => exact (Prod.mk.inj h.of_pure).2.symm
    | succ n =>
      obtain ⟨x, _, h⟩ := h.of_bind
      obtain ⟨y, hy, h⟩ := h.of_bind
      obtain rfl := (Prod.mk.inj h.of_pure).2
      exact ih hy

/-- Of a message that is decoded, the stored lengths are no greater than its size, and the length of its
varbinds has been counted down. -/
lemma datagramDecode_lengths {buffer rest : List UInt8} {sdg : SnmpDatagram}
    (h : datagramDecode buffer = .ok (.ok (sdg, rest))) :
    sdg.storedLens ≤ buffer.length ∧ sdg.vbListLen = 0 := by
  obtain ⟨sdg₁, mid, h₁, h₂⟩ := bind_eq_ok h
  have hmessage : mid.length + sdg₁.storedLens ≤ buffer.length := takes_messageDecode h₁
  obtain ⟨len, mid₂, hlen, h₂⟩ := bind_eq_ok h₂
  obtain ⟨r, rest, hr, h₂⟩ := bind_eq_ok h₂
  obtain ⟨rfl, _⟩ : { sdg₁ with vbListLen := r.2, vbInList := r.1, vbInCnt := r.1.length } = sdg ∧ _ := by
    simpa using h₂
  refine ⟨?_, left_varBindLoop ⟨_, _, hr⟩⟩
  change sdg₁.storedLens ≤ _
  omega

/-- A buffer that passes the checks has a length of 32 bits. -/
lemma recvCheck_length_lt {buffer : List UInt8} {r : Unit × List UInt8}
    (h : recvCheck buffer.length buffer = .ok (.ok r)) : buffer.length < 2 ^ 32 := by
  obtain ⟨_, _, _, h⟩ := bind_eq_ok h
  obtain ⟨len, _, _, h⟩ := bind_eq_ok h
  have hlen := Yields.of_failIf ⟨_, _, h⟩
  rw [← not_not.mp hlen]
  exact Nat.mod_lt _ (by norm_num)

/-! ### No trace -/

/-- The request as it is answered, after searches that end with the given statuses. -/
def SnmpDatagram.withErrors (sdg : SnmpDatagram) (statuses : List Int32) : SnmpDatagram :=
  { sdg with pduHdr := { sdg.pduHdr with
      errStat := (sdg.responseErrors statuses).1
      errIdx := (sdg.responseErrors statuses).2 } }

/-- The integers of a request came with no more bytes, together, than are written of their values in the
response and of its OIDs without being counted; or the size that is announced does not fit 32 bits. -/
def SnmpDatagram.NotLonger (sdg : SnmpDatagram) (statuses : List Int32) (oids : List Oid)
    (size : Nat) : Prop :=
  let written := (sdg.withErrors statuses).valueLens + (oids.map uncounted).sum
  sdg.storedLens ≤ written ∨ 2 ^ 32 + written ≤ size + sdg.storedLens

/-- A datagram that has been decoded, with what `snmpd_recv` has checked. -/
lemma snmpDecode_lengths {buffer : List UInt8} {r : Unit × List UInt8}
    (hcheck : recvCheck buffer.length buffer = .ok (.ok r)) {sdg : SnmpDatagram}
    (hdecode : snmpDecode buffer = .ok sdg) :
    sdg.storedLens < 2 ^ 32 ∧ sdg.vbListLen = 0 ∧ sdg.vbOutList = [] := by
  rw [snmpDecode] at hdecode
  rcases hmsg : datagramDecode buffer with (e | ⟨sdg', rest⟩) | _ | _ <;> rw [hmsg] at hdecode
  · obtain rfl : SnmpDatagram.clear = sdg := by simpa using hdecode
    exact ⟨by decide, rfl, rfl⟩
  · obtain rfl : sdg' = sdg := by simpa using hdecode
    obtain ⟨hstored, hlist⟩ := datagramDecode_lengths hmsg
    exact ⟨hstored.trans_lt (recvCheck_length_lt hcheck), hlist,
      (untouched_datagramDecode hmsg).vbOutList⟩
  · simp at hdecode
  · simp at hdecode

section Recv

variable {handlers : Handlers} {root : MibNode} {mv : MibViews}

/-- A message that is answered has passed the checks and has been decoded. -/
lemma snmpdRecv_eq_some {buffer : List UInt8} {l l' : List Call} {x : ProcState × Response}
    (h : snmpdRecv handlers root mv buffer l = (.ok (some x), l')) :
    ∃ check sdg, recvCheck buffer.length buffer = .ok (.ok check) ∧ snmpDecode buffer = .ok sdg ∧
      snmpRequestDispatch handlers root mv sdg l = (.ok (some x), l') := by
  rw [snmpdRecv] at h
  rcases hcheck : recvCheck buffer.length buffer with (e | check) | _ | _ <;>
    rcases hdecode : snmpDecode buffer with sdg | _ | _ <;> simp only [hcheck, hdecode] at h
  all_goals first | exact ⟨check, sdg, rfl, rfl, h⟩ | simp at h

/-- What is sent of a response does not depend on the memory if and only if the request is not longer. -/
lemma sent_eq_iff_notLonger {buffer : List UInt8} {r : Unit × List UInt8}
    (hcheck : recvCheck buffer.length buffer = .ok (.ok r)) {sdg : SnmpDatagram}
    (hdecode : snmpDecode buffer = .ok sdg) {l l' : List Call} {s : ProcState} {response : Response}
    (hrun : snmpRequestDispatch handlers root mv sdg l = (.ok (some (s, response)), l')) :
    (∀ memory first, response.sent memory = response.sent first) ↔
      sdg.NotLonger (s.reports.map fun e => e.1.errStat) (s.sdg.vbOutList.map fun vb => vb.oid)
        response.written.length := by
  obtain ⟨hstored, hlist, hout⟩ := snmpDecode_lengths hcheck hdecode
  obtain ⟨hprogress, hresponse⟩ := returns_snmpRequestDispatch sdg l _ l' hrun s response rfl
  have hledger := ledger_snmpRequestDispatch hout hlist hrun
  have heq := answered_eq hrun
  rw [hprogress.pduHdr_eq] at heq
  have hlens : s.sdg.storedLens = sdg.storedLens := by
    rw [heq]
    rfl
  have hvalues : s.sdg.valueLens =
      (sdg.withErrors (s.reports.map fun e => e.1.errStat)).valueLens := by
    rw [heq]
    rfl
  obtain ⟨halloc, hiff⟩ := snmpResponse_len_le_iff hledger hresponse (hlens ▸ hstored)
  rw [Response.sent_eq_iff halloc, hiff, hlens, hvalues, SnmpDatagram.NotLonger, List.map_map]
  rfl

end Recv

namespace GlobalDatagram

lemma four_le_valueLens (sdg : SnmpDatagram) : 4 ≤ sdg.valueLens := by
  have hversion := (berIntEnc_spec sdg.version).1
  have hreqId := (berIntEnc_spec sdg.pduHdr.reqId).1
  have herrStat := (berIntEnc_spec sdg.pduHdr.errStat).1
  have herrIdx := (berIntEnc_spec sdg.pduHdr.errIdx).1
  rw [SnmpDatagram.valueLens]
  omega

/-- A datagram that is no message, one that fails at its version, and a request. -/
def sampleHistory : List (List UInt8) := [[0x31], [0x30, 0x02, 0x04, 0x00], sampleAskBytes]

/-- A GETBULK request as `sampleBulkget`, with a request identifier of three bytes. -/
def earlierBulkget : List UInt8 :=
  [0x30, 0x1f, 0x02, 0x01, 0x01, 0x04, 0x01, 0x70, 0xa5, 0x17, 0x02, 0x03, 0x01, 0x00, 0x00, 0x02, 0x01,
    0x00, 0x02, 0x02, 0x00, 0x80, 0x30, 0x09, 0x30, 0x07, 0x06, 0x03, 0x2b, 0x06, 0x01, 0x05, 0x00]

/-- The last byte that is sent. -/
def lastSent (run : Outcome (Option (List UInt8)) × List Call) : Option UInt8 :=
  match run with
  | (.ok (some bytes), _) => bytes.getLast?
  | _ => none

/-- The last bytes that are sent for `second`: behind `first` where the bytes of the response to it still
stand in the memory, and as a first message where there are zeros. -/
def lastBytes (first second : List UInt8) : Option (Option UInt8 × Option UInt8) :=
  match snmpdRecvSent scalarHandlers oneInstance sampleViews (of SnmpDatagram.clear) first (fun _ => 0) [],
    recvAll scalarHandlers oneInstance sampleViews [first] [] with
  | (.ok (some earlier), _), (.ok g, l) => some
    (lastSent (snmpdRecvSent scalarHandlers oneInstance sampleViews g second (earlier.getD · 0) l),
      lastSent (snmpdRecvSent scalarHandlers oneInstance sampleViews (of SnmpDatagram.clear) second
        (fun _ => 0) l))
  | _, _ => none

end GlobalDatagram

end SmartSnmp
