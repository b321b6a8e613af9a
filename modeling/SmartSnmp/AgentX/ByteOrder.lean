import SmartSnmp.AgentX.RoundTrip

/-!
# Byte order of AgentX

A request in either byte order, what the decoder makes of it, and the order in which the response is
written. The flag is honoured in the headers, in the context and in the types of varbinds, but not
inside of OIDs and values, and not at all in responses.
-/

namespace SmartSnmp

open Bytes Reader

/-! ### Headers -/

/-- The flags of a PDU in a byte order. -/
def orderFlags (nbo : Bool) (flags : UInt8) : UInt8 := if nbo then flags ||| networkByteOrder else flags

lemma hasFlag_order {flags : UInt8} (h : hasFlag flags networkByteOrder = false) (nbo : Bool) :
    hasFlag (orderFlags nbo flags) networkByteOrder = nbo := by
  cases nbo with
  | false => exact h
  | true =>
    obtain ⟨b⟩ := flags
    revert b
    decide

lemma hasFlag_context (nbo : Bool) (flags : UInt8) :
    hasFlag (orderFlags nbo flags) nonDefaultContext = hasFlag flags nonDefaultContext := by
  cases nbo with
  | false => rfl
  | true =>
    obtain ⟨b⟩ := flags
    revert b
    decide

/-- `struct x_pdu_hdr` in a byte order. -/
def XPduHdr.bytes (nbo : Bool) (ph : XPduHdr) : List UInt8 :=
  [ph.version, ph.type, ph.flags, ph.reserved] ++ (ordered nbo (bytes32 ph.sessionId) ++
    (ordered nbo (bytes32 ph.transactionId) ++ (ordered nbo (bytes32 ph.packetId) ++
      ordered nbo (bytes32 ph.payloadLength))))

lemma XPduHdr.parses {nbo : Bool} {ph : XPduHdr} (hflag : hasFlag ph.flags networkByteOrder = nbo) :
    Parses fixedHdrParse (ph.bytes nbo) ph := by
  refine (parses_byte ph.version).bind ((parses_byte ph.type).bind ((parses_byte ph.flags).bind
    ((parses_byte ph.reserved).bind ?_)))
  refine (parses_field32 hflag ph.sessionId).bind ((parses_field32 hflag ph.transactionId).bind
    ((parses_field32 hflag ph.packetId).bind ((parses_field32 hflag ph.payloadLength).bind_nil ?_)))
  exact parses_pure _

/-! ### Requests -/

/-- The requests with search ranges. -/
inductive SearchKind where
  | get
  | getnext
  | getbulk (nonRep maxRep : UInt16)

/-- The requests without a body, which end a TestSet. -/
def isPhasePdu (type : UInt8) : Bool :=
  type = agentxPduCommitset || type = agentxPduUndoset || type = agentxPduCleanupset

/-- What follows the header and the context. -/
inductive WireBody where
  | search (kind : SearchKind) (srs : List WireRange)
  | testset (vbs : List WireVarBind)
  | phase (type : UInt8) : isPhasePdu type → WireBody

namespace SearchKind

def type : SearchKind → UInt8
  | get => agentxPduGet
  | getnext => agentxPduGetnext
  | getbulk .. => agentxPduGetbulk

/-- The fields that belong to the type of the PDU. -/
def bytes (nbo : Bool) : SearchKind → List UInt8
  | getbulk nonRep maxRep => ordered nbo (bytes16 nonRep) ++ ordered nbo (bytes16 maxRep)
  | _ => []

/-- What the decoder makes of the fields, in a datagram that holds the header. -/
def read (xdg : AgentxDatagram) : SearchKind → AgentxDatagram
  | getbulk nonRep maxRep => { xdg with nonRep := nonRep, maxRep := maxRep }
  | _ => xdg

end SearchKind

namespace WireBody

def type : WireBody → UInt8
  | search kind _ => kind.type
  | testset _ => agentxPduTestset
  | phase type _ => type

def fields (nbo : Bool) : WireBody → List UInt8
  | search kind _ => kind.bytes nbo
  | _ => []

/-- The search ranges or varbinds. -/
def elems (nbo : Bool) : WireBody → List UInt8
  | search _ srs => srs.flatMap (WireRange.bytes nbo)
  | testset vbs => vbs.flatMap (WireVarBind.bytes nbo)
  | phase .. => []

def bytes (nbo : Bool) (body : WireBody) : List UInt8 := body.fields nbo ++ body.elems nbo

def readFields (xdg : AgentxDatagram) : WireBody → AgentxDatagram
  | search kind _ => kind.read xdg
  | _ => xdg

/-- What the decoder makes of the search ranges or varbinds. -/
def readElems (nbo : Bool) (xdg : AgentxDatagram) : WireBody → AgentxDatagram
  | search _ srs => { xdg with srInList := srs.map (WireRange.read nbo) }
  | testset vbs => { xdg with vbInList := vbs.map (WireVarBind.read nbo) }
  | phase .. => xdg

def read (nbo : Bool) (xdg : AgentxDatagram) (body : WireBody) : AgentxDatagram :=
  body.readElems nbo (body.readFields xdg)

/-- Every string is empty if its length is in network byte order. -/
def Readable (nbo : Bool) : WireBody → Prop
  | testset vbs => ∀ vb ∈ vbs, vb.value.Readable nbo
  | _ => True

end WireBody

/-- A request that the decoder can take. Its flags are those of the byte order of the host. -/
structure WireRequest where
  version : UInt8
  flags : UInt8
  reserved : UInt8
  sessionId : UInt32
  transactionId : UInt32
  packetId : UInt32
  context : List UInt8
  body : WireBody
  hostOrder : hasFlag flags networkByteOrder = false
  contextShort : context.length ≤ 40
  bodyShort : 4 + uintSizeof context.length + (body.bytes false).length < 2 ^ 32

namespace WireRequest

variable (nbo : Bool) (r : WireRequest)

def contextBytes : List UInt8 :=
  if hasFlag r.flags nonDefaultContext then
    ordered nbo (bytes32 (UInt32.ofNat r.context.length)) ++
      (r.context ++ List.replicate (uintSizeof r.context.length - r.context.length) 0)
  else []

def payload : List UInt8 := r.contextBytes nbo ++ r.body.bytes nbo

def hdr : XPduHdr where
  version := r.version
  type := r.body.type
  flags := orderFlags nbo r.flags
  reserved := r.reserved
  sessionId := r.sessionId
  transactionId := r.transactionId
  packetId := r.packetId
  payloadLength := UInt32.ofNat (r.payload nbo).length

/-- The request in a byte order. -/
def bytes : List UInt8 := (r.hdr nbo).bytes nbo ++ r.payload nbo

/-- The datagram that the decoder makes of it. -/
def read : AgentxDatagram :=
  r.body.read nbo
    { AgentxDatagram.clear { r.hdr nbo with payloadLength := 0 } with
      context := if hasFlag r.flags nonDefaultContext then r.context else [] }

end WireRequest

/-! ### Lengths -/

lemma WireValue.length_bytes_order (nbo : Bool) (v : WireValue) :
    (v.bytes nbo).length = (v.bytes false).length := by
  cases v <;> simp [WireValue.bytes]

lemma WireVarBind.length_bytes_order (nbo : Bool) (vb : WireVarBind) :
    (vb.bytes nbo).length = (vb.bytes false).length := by
  simp [WireVarBind.bytes, vb.value.length_bytes_order nbo]

lemma WireRange.length_bytes_order (nbo : Bool) (sr : WireRange) :
    (sr.bytes nbo).length = (sr.bytes false).length := by
  simp [WireRange.bytes]

lemma SearchKind.length_bytes_order (nbo : Bool) (kind : SearchKind) :
    (kind.bytes nbo).length = (kind.bytes false).length := by
  cases kind <;> simp [SearchKind.bytes]

lemma WireBody.length_bytes_order (nbo : Bool) (body : WireBody) :
    (body.bytes nbo).length = (body.bytes false).length := by
  cases body <;>
    simp [WireBody.bytes, WireBody.fields, WireBody.elems, List.length_flatMap,
      WireRange.length_bytes_order nbo, WireVarBind.length_bytes_order nbo,
      SearchKind.length_bytes_order nbo]

namespace WireRequest

variable (nbo : Bool) (r : WireRequest)

/-! ### Decoding -/

/-- The datagram behind the context. -/
def head : AgentxDatagram :=
  { AgentxDatagram.clear
      { r.hdr nbo with payloadLength := UInt32.ofNat (r.body.bytes nbo).length } with
    context := if hasFlag r.flags nonDefaultContext then r.context else [] }

lemma parses_context :
    Parses (contextParse (.clear (r.hdr nbo))) (r.contextBytes nbo) (r.head nbo) := by
  have hflags : hasFlag (AgentxDatagram.clear (r.hdr nbo)).pduHdr.flags nonDefaultContext =
      hasFlag r.flags nonDefaultContext := hasFlag_context nbo r.flags
  rw [contextParse, hflags, contextBytes, head]
  split_ifs with hctx
  · have hshort := r.contextShort
    have hpad := WireValue.le_uintSizeof r.context.length
    have hnat : (UInt32.ofNat r.context.length).toNat = r.context.length := by
      rw [UInt32.toNat_ofNat']
      exact Nat.mod_eq_of_lt (hshort.trans_lt (by decide))
    have hlen : (r.payload nbo).length =
        (r.body.bytes nbo).length + (4 + uintSizeof r.context.length) := by
      simp [payload, contextBytes, hctx]
      omega
    refine (parses_field32 (hasFlag_order r.hostOrder nbo) _).bind ((parses_failIf ?_ _).nil_bind ?_)
    · rw [UInt32.toNat_add, hnat]
      simp
      omega
    · rw [hnat]
      refine (parses_bytes rfl).bind ((parses_skip List.length_replicate).bind_nil ?_)
      have hsub : UInt32.ofNat (r.payload nbo).length -
          UInt32.ofNat (4 + uintSizeof r.context.length) = UInt32.ofNat (r.body.bytes nbo).length := by
        rw [hlen, UInt32.ofNat_add]
        exact UInt32.add_sub_cancel _ _
      rw [← hsub]
      exact parses_pure _
  · have hlen : r.payload nbo = r.body.bytes nbo := by simp [payload, contextBytes, hctx]
    rw [← hlen]
    exact parses_pure _

end WireRequest

/-- `search_range_parse` takes search ranges in any byte order. -/
lemma parses_ranges {xdg : AgentxDatagram} {nbo : Bool} {srs : List WireRange}
    (hshort : (srs.flatMap (WireRange.bytes nbo)).length < 2 ^ 32)
    (hlen : xdg.pduHdr.payloadLength = UInt32.ofNat (srs.flatMap (WireRange.bytes nbo)).length) :
    Parses (searchRangeParse xdg) (srs.flatMap (WireRange.bytes nbo))
      { xdg.setPayload 0 with srInList := srs.map (WireRange.read nbo) } := by
  rw [searchRangeParse, hlen]
  refine (payloadParse_parses (fun sr _ => sr.length_bytes_pos nbo)
    (fun sr _ => sr.parses_alloc xdg.pduHdr.flags nbo) hshort).bind_nil ?_
  exact parses_pure _

/-- `var_bind_parse` takes varbinds whose strings it can read. -/
lemma parses_wireVarBinds {xdg : AgentxDatagram} {nbo : Bool} {vbs : List WireVarBind}
    (hflag : hasFlag xdg.pduHdr.flags networkByteOrder = nbo)
    (hread : ∀ vb ∈ vbs, vb.value.Readable nbo)
    (hshort : (vbs.flatMap (WireVarBind.bytes nbo)).length < 2 ^ 32)
    (hlen : xdg.pduHdr.payloadLength = UInt32.ofNat (vbs.flatMap (WireVarBind.bytes nbo)).length) :
    Parses (xVarBindParse xdg) (vbs.flatMap (WireVarBind.bytes nbo))
      { xdg.setPayload 0 with vbInList := vbs.map (WireVarBind.read nbo) } := by
  rw [xVarBindParse, hlen]
  refine (payloadParse_parses (fun vb _ => vb.length_bytes_pos)
    (fun vb hvb => WireVarBind.parses_alloc hflag (hread vb hvb)) hshort).bind_nil ?_
  exact parses_pure _

/-- `var_bind_parse` fails at the first string that it cannot read. -/
lemma rejects_wireVarBinds {xdg : AgentxDatagram} {nbo : Bool} {vbs : List WireVarBind}
    (hflag : hasFlag xdg.pduHdr.flags networkByteOrder = nbo)
    (hread : ¬ ∀ vb ∈ vbs, vb.value.Readable nbo)
    (hshort : (vbs.flatMap (WireVarBind.bytes nbo)).length < 2 ^ 32)
    (hlen : xdg.pduHdr.payloadLength = UInt32.ofNat (vbs.flatMap (WireVarBind.bytes nbo)).length) :
    Rejects (xVarBindParse xdg) (vbs.flatMap (WireVarBind.bytes nbo)) .vbValueLen := by
  rw [xVarBindParse, hlen]
  exact (payloadParse_rejects (fun vb _ => vb.length_bytes_pos)
    (fun vb _ => ⟨WireVarBind.parses_alloc hflag, WireVarBind.rejects_alloc hflag⟩) hread hshort).bind

/-- What `agentx_decode` does behind the header. -/
def payloadDecode (xdg : AgentxDatagram) : Reader AgentxErrCode AgentxDatagram :=
  if isSearchPdu xdg.pduHdr.type then searchRangeParse xdg
  else if isVarBindPdu xdg.pduHdr.type then xVarBindParse xdg
  else pure xdg

lemma agentxDatagramDecode_eq : agentxDatagramDecode =
    fixedHdrParse >>= fun ph => contextParse (.clear ph) >>= fun xdg =>
      additionalParse xdg >>= payloadDecode := by
  rw [agentxDatagramDecode, xPduHdrParse, bind_bind]
  simp only [bind_bind]
  rfl

section Body

variable {xdg : AgentxDatagram} {nbo : Bool} {body : WireBody}

lemma setPayload_self {n : UInt32} (h : xdg.pduHdr.payloadLength = n) : xdg.setPayload n = xdg := by
  subst h
  rfl

lemma setPayload_type (n : UInt32) : (xdg.setPayload n).pduHdr.type = xdg.pduHdr.type := rfl

lemma SearchKind.read_setPayload (kind : SearchKind) (n : UInt32) :
    kind.read (xdg.setPayload n) = (kind.read xdg).setPayload n := by
  cases kind <;> rfl

lemma SearchKind.read_pduHdr (kind : SearchKind) : (kind.read xdg).pduHdr = xdg.pduHdr := by
  cases kind <;> rfl

lemma WireBody.readFields_hdr : (body.readFields xdg).pduHdr = xdg.pduHdr := by
  cases body with
  | search kind srs => exact kind.read_pduHdr
  | testset vbs => rfl
  | phase type h => rfl

lemma WireBody.readFields_setPayload (n : UInt32) :
    body.readFields (xdg.setPayload n) = (body.readFields xdg).setPayload n := by
  cases body with
  | search kind srs => exact kind.read_setPayload n
  | testset vbs => rfl
  | phase type h => rfl

lemma isPhasePdu_cases {type : UInt8} (h : isPhasePdu type) :
    type = agentxPduCommitset ∨ type = agentxPduUndoset ∨ type = agentxPduCleanupset := by
  simpa [isPhasePdu, or_assoc] using h

/-- Most PDUs have no fields of their own. -/
lemma parses_additional_none {t : UInt8} (htype : xdg.pduHdr.type = t)
    (ht : t ≠ agentxPduClose ∧ t ≠ agentxPduGetbulk ∧ t ≠ agentxPduResponse) {n : UInt32}
    (hlen : xdg.pduHdr.payloadLength = n) : Parses (additionalParse xdg) [] (xdg.setPayload n) := by
  obtain ⟨hclose, hbulk, hresp⟩ := ht
  rw [setPayload_self hlen, additionalParse, htype, if_neg hclose, if_neg hbulk, if_neg hresp]
  exact parses_pure xdg

/-- The fields of GetBulk are read in their byte order. -/
lemma parses_additional_getbulk (hflag : hasFlag xdg.pduHdr.flags networkByteOrder = nbo)
    (htype : xdg.pduHdr.type = agentxPduGetbulk) {n : Nat}
    (hlen : xdg.pduHdr.payloadLength = UInt32.ofNat (4 + n)) (nonRep maxRep : UInt16) :
    Parses (additionalParse xdg) (ordered nbo (bytes16 nonRep) ++ ordered nbo (bytes16 maxRep))
      { xdg.setPayload (UInt32.ofNat n) with nonRep := nonRep, maxRep := maxRep } := by
  have hsub : xdg.pduHdr.payloadLength - 4 = UInt32.ofNat n := by
    rw [hlen]
    exact ofNat_add_sub 4 n
  rw [additionalParse, htype, ← hsub]
  refine (parses_field16 hflag nonRep).bind ((parses_field16 hflag maxRep).bind_nil ?_)
  exact parses_pure _

lemma parses_additional (hflag : hasFlag xdg.pduHdr.flags networkByteOrder = nbo)
    (htype : xdg.pduHdr.type = body.type)
    (hlen : xdg.pduHdr.payloadLength = UInt32.ofNat (body.bytes nbo).length) :
    Parses (additionalParse xdg) (body.fields nbo)
      ((body.readFields xdg).setPayload (UInt32.ofNat (body.elems nbo).length)) := by
  cases body with
  | search kind srs =>
    cases kind with
    | get => exact parses_additional_none (t := agentxPduGet) htype (by decide) hlen
    | getnext => exact parses_additional_none (t := agentxPduGetnext) htype (by decide) hlen
    | getbulk nonRep maxRep =>
      refine parses_additional_getbulk hflag htype ?_ nonRep maxRep
      rw [hlen, WireBody.bytes, List.length_append]
      simp [WireBody.fields, SearchKind.bytes]
  | testset vbs => exact parses_additional_none (t := agentxPduTestset) htype (by decide) hlen
  | phase type h =>
    refine parses_additional_none (t := type) htype ?_ hlen
    obtain rfl | rfl | rfl := isPhasePdu_cases h <;> decide

lemma length_elems_lt (hshort : (body.bytes nbo).length < 2 ^ 32) :
    (body.elems nbo).length < 2 ^ 32 := by
  rw [WireBody.bytes, List.length_append] at hshort
  omega

lemma parses_body (hflag : hasFlag xdg.pduHdr.flags networkByteOrder = nbo)
    (htype : xdg.pduHdr.type = body.type)
    (hlen : xdg.pduHdr.payloadLength = UInt32.ofNat (body.bytes nbo).length)
    (hshort : (body.bytes nbo).length < 2 ^ 32) (hread : body.Readable nbo) :
    Parses (additionalParse xdg >>= payloadDecode) (body.bytes nbo)
      (body.read nbo (xdg.setPayload 0)) := by
  have hflag' : hasFlag (body.readFields xdg).pduHdr.flags networkByteOrder = nbo := by
    rw [WireBody.readFields_hdr, hflag]
  have htype' : (body.readFields xdg).pduHdr.type = body.type := by
    rw [WireBody.readFields_hdr, htype]
  have helems := length_elems_lt hshort
  apply (parses_additional hflag htype hlen).bind
  rw [WireBody.read, WireBody.readFields_setPayload, payloadDecode, setPayload_type, htype']
  cases body with
  | search kind srs =>
    cases kind <;> exact parses_ranges helems rfl
  | testset vbs => exact parses_wireVarBinds hflag' hread helems rfl
  | phase type h =>
    obtain rfl | rfl | rfl := isPhasePdu_cases h <;> exact parses_pure _

/-- A body is rejected for its first string that cannot be read. -/
lemma rejects_body (hflag : hasFlag xdg.pduHdr.flags networkByteOrder = nbo)
    (htype : xdg.pduHdr.type = body.type)
    (hlen : xdg.pduHdr.payloadLength = UInt32.ofNat (body.bytes nbo).length)
    (hshort : (body.bytes nbo).length < 2 ^ 32) (hread : ¬ body.Readable nbo) :
    Rejects (additionalParse xdg >>= payloadDecode) (body.bytes nbo) .vbValueLen := by
  have htype' : (body.readFields xdg).pduHdr.type = body.type := by
    rw [WireBody.readFields_hdr, htype]
  have helems := length_elems_lt hshort
  apply (parses_additional hflag htype hlen).bind_rejects
  rw [payloadDecode, setPayload_type, htype']
  cases body with
  | search kind srs => exact absurd trivial hread
  | testset vbs => exact rejects_wireVarBinds hflag hread helems rfl
  | phase type h => exact absurd trivial hread

end Body

namespace WireRequest

variable {nbo : Bool} {r : WireRequest}

lemma payloadShort (r : WireRequest) (nbo : Bool) : (r.body.bytes nbo).length < 2 ^ 32 := by
  have h := r.bodyShort
  rw [r.body.length_bytes_order]
  omega

/-- The header and the context are read in their byte order. -/
lemma decode_eq (r : WireRequest) (nbo : Bool) (rest : List UInt8) :
    agentxDatagramDecode (r.bytes nbo ++ rest) =
      (additionalParse (r.head nbo) >>= payloadDecode) (r.body.bytes nbo ++ rest) := by
  have hhdr : Parses fixedHdrParse ((r.hdr nbo).bytes nbo) (r.hdr nbo) :=
    XPduHdr.parses (hasFlag_order r.hostOrder nbo)
  calc agentxDatagramDecode (r.bytes nbo ++ rest)
      = (fixedHdrParse >>= fun ph => contextParse (.clear ph) >>= fun xdg =>
          additionalParse xdg >>= payloadDecode)
            ((r.hdr nbo).bytes nbo ++ (r.contextBytes nbo ++ (r.body.bytes nbo ++ rest))) := by
        rw [agentxDatagramDecode_eq, bytes, payload]
        simp only [List.append_assoc]
    _ = (contextParse (.clear (r.hdr nbo)) >>= fun xdg => additionalParse xdg >>= payloadDecode)
          (r.contextBytes nbo ++ (r.body.bytes nbo ++ rest)) := bind_apply_ok (hhdr _) _
    _ = (additionalParse (r.head nbo) >>= payloadDecode) (r.body.bytes nbo ++ rest) :=
        bind_apply_ok (r.parses_context nbo _) _

/-- What the decoder makes of a request, whatever follows it. -/
lemma parses_decode (h : r.body.Readable nbo) :
    Parses agentxDatagramDecode (r.bytes nbo) (r.read nbo) := by
  have hbody : Parses (additionalParse (r.head nbo) >>= payloadDecode) (r.body.bytes nbo) _ :=
    parses_body (hasFlag_order r.hostOrder nbo) rfl rfl (r.payloadShort nbo) h
  intro rest
  rw [r.decode_eq, hbody]
  rfl

lemma rejects_decode (h : ¬ r.body.Readable nbo) :
    Rejects agentxDatagramDecode (r.bytes nbo) .vbValueLen := by
  have hbody : Rejects (additionalParse (r.head nbo) >>= payloadDecode) (r.body.bytes nbo) _ :=
    rejects_body (hasFlag_order r.hostOrder nbo) rfl rfl (r.payloadShort nbo) h
  intro rest
  rw [r.decode_eq, hbody]

lemma agentxDecode_bytes (h : r.body.Readable nbo) (rest : List UInt8) :
    agentxDecode (r.bytes nbo ++ rest) = .ok (.ok (r.read nbo)) := by
  rw [agentxDecode, parses_decode h]

lemma agentxDecode_bytes_error (h : ¬ r.body.Readable nbo) (rest : List UInt8) :
    agentxDecode (r.bytes nbo ++ rest) = .ok (.error .vbValueLen) := by
  rw [agentxDecode, rejects_decode h]

end WireRequest

/-! ### Symmetric requests -/

/-- Every sub-identifier is its own reversal. -/
def WireOid.Symmetric (o : WireOid) : Prop := ∀ x ∈ o.subIds, ntoh32 x = x

/-- Every number is its own reversal, and there is no string. -/
def WireValue.Symmetric : WireValue → Prop
  | .word _ value _ _ => value.reverse = value
  | .cnt64 value _ => value.reverse = value
  | .str _ value _ _ => value = []
  | .objid o => o.Symmetric
  | .none _ _ => True

def WireVarBind.Symmetric (vb : WireVarBind) : Prop := vb.name.Symmetric ∧ vb.value.Symmetric

def WireRange.Symmetric (sr : WireRange) : Prop := sr.start.Symmetric ∧ sr.stop.Symmetric

def WireBody.Symmetric : WireBody → Prop
  | .search _ srs => ∀ sr ∈ srs, sr.Symmetric
  | .testset vbs => ∀ vb ∈ vbs, vb.Symmetric
  | .phase _ _ => True

lemma WireOid.read_true_iff (o : WireOid) : o.read true = o.read false ↔ o.Symmetric := by
  rw [WireOid.read, WireOid.read, WireOid.Symmetric]
  split_ifs with h
  · simp [h.1]
  · simp only [List.cons.injEq, true_and, List.map_inj_left]
    exact Iff.rfl

lemma flatMap_bytes32_inj {a b : Oid} : a.flatMap bytes32 = b.flatMap bytes32 ↔ a = b := by
  refine ⟨fun h => ?_, fun h => by rw [h]⟩
  rw [← wordsOf_flatMap a, h, wordsOf_flatMap]

lemma WireValue.read_true_iff (v : WireValue) :
    (v.Readable true ∧ v.count true = v.count false ∧ v.read true = v.read false) ↔ v.Symmetric := by
  cases v with
  | word type value ht hv => simp [Readable, count, read, Symmetric]
  | cnt64 value hv => simp [Readable, count, read, Symmetric]
  | str type value ht hv => simp [Readable, count, read, Symmetric]
  | objid o =>
    simp only [Readable, count, read, Symmetric, flatMap_bytes32_inj, o.read_true_iff, true_and]
    refine ⟨And.right, fun h => ⟨?_, h⟩⟩
    rw [o.read_true_iff.mpr h]
  | none type ht => simp [Readable, count, read, Symmetric]

lemma WireVarBind.read_true_iff (vb : WireVarBind) :
    (vb.value.Readable true ∧ vb.read true = vb.read false) ↔ vb.Symmetric := by
  rw [Symmetric, ← vb.name.read_true_iff, ← vb.value.read_true_iff, read, read]
  simp only [XVarBind.mk.injEq, true_and, and_true]
  tauto

lemma WireRange.read_true_iff (sr : WireRange) : sr.read true = sr.read false ↔ sr.Symmetric := by
  rw [Symmetric, ← sr.start.read_true_iff, ← sr.stop.read_true_iff, read, read]
  simp only [XSearchRange.mk.injEq, and_true]

/-- A datagram with other flags. -/
def AgentxDatagram.setFlags (xdg : AgentxDatagram) (flags : UInt8) : AgentxDatagram :=
  { xdg with pduHdr := { xdg.pduHdr with flags := flags } }

/-- A request in network byte order is decoded as in the byte order of the host, apart from the
flag. -/
def DecodesAlike (r : WireRequest) : Prop :=
  ∃ host net, agentxDecode (r.bytes false) = .ok (.ok host) ∧
    agentxDecode (r.bytes true) = .ok (.ok net) ∧
    net = host.setFlags (host.pduHdr.flags ||| networkByteOrder)

lemma readable_false (body : WireBody) : body.Readable false := by
  cases body with
  | testset vbs =>
    intro vb _
    cases vb.value <;> simp [WireValue.Readable]
  | search kind srs => trivial
  | phase type h => trivial

/-- Equal lists make equal bodies. -/
lemma WireBody.readElems_congr {xdg : AgentxDatagram} {body : WireBody} (h : body.Symmetric) :
    body.readElems true xdg = body.readElems false xdg := by
  cases body with
  | search kind srs =>
    have hsrs : srs.map (WireRange.read true) = srs.map (WireRange.read false) :=
      List.map_congr_left fun sr hsr => sr.read_true_iff.mpr (h sr hsr)
    rw [readElems, readElems, hsrs]
  | testset vbs =>
    have hvbs : vbs.map (WireVarBind.read true) = vbs.map (WireVarBind.read false) :=
      List.map_congr_left fun vb hvb => (vb.read_true_iff.mpr (h vb hvb)).2
    rw [readElems, readElems, hvbs]
  | phase type h => rfl

/-- Equal bodies have equal lists. -/
lemma WireBody.symmetric_of_lists {x y : AgentxDatagram} {body : WireBody}
    (hread : body.Readable true)
    (hsrs : (body.readElems true x).srInList = (body.readElems false y).srInList)
    (hvbs : (body.readElems true x).vbInList = (body.readElems false y).vbInList) :
    body.Symmetric := by
  cases body with
  | search kind srs => exact fun sr hsr => sr.read_true_iff.mp (List.map_inj_left.mp hsrs sr hsr)
  | testset vbs =>
    intro vb hvb
    exact vb.read_true_iff.mp ⟨hread vb hvb, List.map_inj_left.mp hvbs vb hvb⟩
  | phase type h => trivial

lemma WireBody.readable_of_symmetric {body : WireBody} (h : body.Symmetric) : body.Readable true := by
  cases body with
  | testset vbs => exact fun vb hvb => (vb.read_true_iff.mpr (h vb hvb)).1
  | search kind srs => trivial
  | phase type h => trivial

lemma WireRequest.read_true_of_symmetric {r : WireRequest} (h : r.body.Symmetric) :
    r.read true = (r.read false).setFlags ((r.read false).pduHdr.flags ||| networkByteOrder) := by
  rw [WireRequest.read, WireBody.read, WireBody.readElems_congr h]
  rw [WireRequest.read, WireBody.read]
  cases r.body with
  | search kind srs => cases kind <;> rfl
  | testset vbs => rfl
  | phase type h => rfl

/-- The two forms of a request are decoded alike if and only if nothing in its body has a byte
order. -/
lemma decodesAlike_iff (r : WireRequest) : DecodesAlike r ↔ r.body.Symmetric := by
  constructor
  · rintro ⟨host, net, hhost, hnet, heq⟩
    have hread : r.body.Readable true := by
      by_contra h
      rw [← List.append_nil (r.bytes true), WireRequest.agentxDecode_bytes_error h] at hnet
      simp at hnet
    rw [← List.append_nil (r.bytes false),
      WireRequest.agentxDecode_bytes (readable_false r.body)] at hhost
    rw [← List.append_nil (r.bytes true), WireRequest.agentxDecode_bytes hread] at hnet
    simp only [Outcome.ok.injEq, Except.ok.injEq] at hhost hnet
    subst hhost hnet
    have hsrs : (r.read true).srInList = (r.read false).srInList := by rw [heq]; rfl
    have hvbs : (r.read true).vbInList = (r.read false).vbInList := by rw [heq]; rfl
    exact WireBody.symmetric_of_lists hread hsrs hvbs
  · intro h
    have hhost := WireRequest.agentxDecode_bytes (readable_false r.body) []
    have hnet := WireRequest.agentxDecode_bytes (WireBody.readable_of_symmetric h) []
    rw [List.append_nil] at hhost hnet
    exact ⟨_, _, hhost, hnet, WireRequest.read_true_of_symmetric h⟩

/-! ### Responses -/

/-- Nothing stands in the bytes that a response leaves out. -/
def WireVarBind.Plain (vb : WireVarBind) : Prop :=
  vb.name.incl = 0 ∧ ∀ o, vb.value = .objid o → o.incl = 0

/-- A varbind of a response in the memory of the host. -/
def WireVarBind.toXVarBind (vb : WireVarBind) : XVarBind :=
  ⟨vb.name.read false, vb.value.type, (vb.value.read false).length, vb.value.read false, []⟩

/-- What a request is answered with. -/
structure WireReply where
  error : UInt16
  index : UInt16
  vbs : List WireVarBind
  plain : ∀ vb ∈ vbs, vb.Plain

namespace WireReply

def elems (nbo : Bool) (p : WireReply) : List UInt8 := p.vbs.flatMap (WireVarBind.bytes nbo)

/-- The header of the response. -/
def hdr (p : WireReply) (ph : XPduHdr) : XPduHdr :=
  { ph with
    type := agentxPduResponse
    reserved := 0
    payloadLength := UInt32.ofNat (8 + (p.elems false).length) }

/-- The response in a byte order. -/
def bytes (nbo : Bool) (p : WireReply) (ph : XPduHdr) : List UInt8 :=
  (p.hdr ph).bytes nbo ++ (ordered nbo (bytes32 0) ++ (ordered nbo (bytes16 p.error) ++
    (ordered nbo (bytes16 p.index) ++ p.elems nbo)))

/-- The datagram from which `agentx_response_pdu` makes the response. -/
def respond (p : WireReply) (xdg : AgentxDatagram) : AgentxDatagram :=
  { xdg with error := p.error, index := p.index, vbOutList := p.vbs.map WireVarBind.toXVarBind }

/-- The response is written in the byte order that its flags announce. -/
def InOrder (p : WireReply) (xdg : AgentxDatagram) : Prop :=
  ∃ pdu, agentxResponsePdu (p.respond xdg) = some pdu ∧
    pdu.written = p.bytes (hasFlag xdg.pduHdr.flags networkByteOrder) xdg.pduHdr

end WireReply

lemma WireOid.objidEncode_read {o : WireOid} (h : o.incl = 0) :
    objidEncode (o.read false) = o.bytes false := by
  rw [WireOid.read, WireOid.bytes, h]
  split_ifs with hempty
  · rw [hempty.1, hempty.2]
    rfl
  · rw [map_seen32_false]
    simp [objidEncode, ordered]

lemma WireVarBind.written {vb : WireVarBind} (h : vb.Plain) : Written vb.toXVarBind vb.value := by
  obtain ⟨name, value⟩ := vb
  cases value with
  | word type value ht hv => exact written_word ht hv
  | cnt64 value hv => exact ⟨valueBytes_all hv, hv, rfl, rfl, rfl⟩
  | str type value ht hv => exact written_str ht hv
  | objid o =>
    have hw : Written ⟨name.read false, _, 4 * (o.read false).length, _, []⟩ _ :=
      written_objid (WireOid.objidEncode_read (h.2 o rfl)) rfl
    rwa [← length_flatMap_bytes32] at hw
  | none type ht => exact written_none ht

lemma WireVarBind.encode {vb : WireVarBind} (h : vb.Plain) :
    xVarBindEncode vb.toXVarBind = some (vb.bytes false) := by
  rw [xVarBindEncode, (WireVarBind.written h).encode, Option.map_some]
  simp only [toXVarBind, WireOid.objidEncode_read h.1]
  rfl

lemma WireVarBind.size {vb : WireVarBind} (h : vb.Plain) :
    varBindSize vb.toXVarBind = (vb.bytes false).length := by
  have hname : (vb.name.bytes false).length = 4 + 4 * ((vb.name.read false).length - 5) := by
    rw [← WireOid.objidEncode_read h.1, length_objidEncode]
  rw [varBindSize, ← (WireVarBind.written h).length]
  simp only [toXVarBind, bytes, List.length_append, length_ordered, length_bytes16, List.length_cons,
    List.length_nil, hname]
  omega

namespace WireReply

variable {p : WireReply}

lemma mapM_encode : (p.vbs.map WireVarBind.toXVarBind).mapM xVarBindEncode =
    some (p.vbs.map (WireVarBind.bytes false)) := by
  have h : ∀ vbs : List WireVarBind, (∀ vb ∈ vbs, vb.Plain) →
      (vbs.map WireVarBind.toXVarBind).mapM xVarBindEncode =
        some (vbs.map (WireVarBind.bytes false)) := by
    intro vbs hvbs
    induction vbs with
    | nil => rfl
    | cons vb vbs ih =>
      rw [List.map_cons, List.mapM_cons, WireVarBind.encode (hvbs vb List.mem_cons_self),
        ih fun w hw => hvbs w (List.mem_cons_of_mem vb hw)]
      rfl
  exact h p.vbs p.plain

/-- The payload that is announced is right even where the length is not. -/
lemma announced : UInt32.ofNat (responseLen (p.vbs.map WireVarBind.toXVarBind)) - 20 =
    UInt32.ofNat (8 + (p.elems false).length) := by
  have hsum : ((p.vbs.map WireVarBind.toXVarBind).map varBindSize).sum = (p.elems false).length := by
    rw [elems, List.length_flatMap, List.map_map]
    exact congrArg List.sum (List.map_congr_left fun vb hvb => WireVarBind.size (p.plain vb hvb))
  have hadd : 28 + (p.elems false).length = 20 + (8 + (p.elems false).length) := by omega
  rw [responseLen, hsum, hadd]
  have hmod : UInt32.ofNat ((20 + (8 + (p.elems false).length)) % 2 ^ 32) =
      UInt32.ofNat (20 + (8 + (p.elems false).length)) := by
    apply UInt32.toNat_inj.mp
    simp
  rw [hmod]
  exact ofNat_add_sub 20 _

/-- A response is written in the byte order of the host. -/
lemma agentxResponsePdu_respond (p : WireReply) (xdg : AgentxDatagram) :
    ∃ len, agentxResponsePdu (p.respond xdg) = some ⟨len, p.bytes false xdg.pduHdr⟩ := by
  refine ⟨responseLen (p.vbs.map WireVarBind.toXVarBind), ?_⟩
  have hhdr : responseHdr xdg.pduHdr (responseLen (p.vbs.map WireVarBind.toXVarBind)) =
      p.hdr xdg.pduHdr := by
    rw [responseHdr, announced]
    rfl
  simp only [agentxResponsePdu, respond, mapM_encode, Option.map_some, responseHdrEncode, hhdr,
    List.append_assoc]
  rfl

end WireReply

/-! ### Symmetric responses -/

section Symmetric

variable {α : Type}

lemma append_eq_iff {a b c d : List α} (h : a.length = c.length) :
    a ++ b = c ++ d ↔ a = c ∧ b = d := by
  refine ⟨fun heq => List.append_inj heq h, ?_⟩
  rintro ⟨rfl, rfl⟩
  rfl

lemma flatMap_eq_iff {β : Type} {l : List β} {f g : β → List α}
    (h : ∀ x, (f x).length = (g x).length) :
    l.flatMap f = l.flatMap g ↔ ∀ x ∈ l, f x = g x := by
  induction l with
  | nil => simp
  | cons x l ih => rw [List.flatMap_cons, List.flatMap_cons, append_eq_iff (h x), ih,
      List.forall_mem_cons]

lemma bytes16_inj {x y : UInt16} : bytes16 x = bytes16 y ↔ x = y := by
  refine ⟨fun h => ?_, fun h => by rw [h]⟩
  have hx : x.toNat < 256 ^ 2 := x.toNat_lt
  have hy : y.toNat < 256 ^ 2 := y.toNat_lt
  have hnat := congrArg leNat h
  rw [bytes16, bytes16, leNat_leBytes, leNat_leBytes, Nat.mod_eq_of_lt hx, Nat.mod_eq_of_lt hy] at hnat
  exact UInt16.toNat_inj.mp hnat

lemma bytes32_inj {x y : UInt32} : bytes32 x = bytes32 y ↔ x = y := by
  refine ⟨fun h => ?_, fun h => by rw [h]⟩
  have hx : x.toNat < 256 ^ 4 := x.toNat_lt
  have hy : y.toNat < 256 ^ 4 := y.toNat_lt
  have hnat := congrArg leNat h
  rw [bytes32, bytes32, leNat_leBytes, leNat_leBytes, Nat.mod_eq_of_lt hx, Nat.mod_eq_of_lt hy] at hnat
  exact UInt32.toNat_inj.mp hnat

lemma ordered_bytes16_iff {x : UInt16} :
    ordered false (bytes16 x) = ordered true (bytes16 x) ↔ ntoh16 x = x := by
  rw [ordered_bytes16, ordered_bytes16, bytes16_inj]
  exact eq_comm

lemma ordered_bytes32_iff {x : UInt32} :
    ordered false (bytes32 x) = ordered true (bytes32 x) ↔ ntoh32 x = x := by
  rw [ordered_bytes32, ordered_bytes32, bytes32_inj]
  exact eq_comm

end Symmetric

lemma WireOid.bytes_iff (o : WireOid) : o.bytes false = o.bytes true ↔ o.Symmetric := by
  rw [bytes, bytes, List.append_cancel_left_eq, flatMap_eq_iff (by simp)]
  simp only [ordered_bytes32_iff, Symmetric]

lemma WireValue.bytes_iff (v : WireValue) : v.bytes false = v.bytes true ↔ v.Symmetric := by
  cases v with
  | word type value ht hv => simp [bytes, Symmetric, eq_comm]
  | cnt64 value hv => simp [bytes, Symmetric, eq_comm]
  | str type value ht hv =>
    rw [bytes, bytes, List.append_cancel_right_eq, ordered_bytes32_iff, Symmetric]
    constructor
    · intro h
      by_contra hne
      have hswap := lt_swap (List.length_pos_iff.mpr hne) hv
      have hlen := congrArg UInt32.toNat h
      rw [toNat_ntoh32, toNat_length hv] at hlen
      omega
    · rintro rfl
      rfl
  | objid o => exact o.bytes_iff
  | none type ht => simp [bytes, Symmetric]

/-- The type of a varbind and everything behind it are their own reversal. -/
def WireVarBind.Palindromic (vb : WireVarBind) : Prop :=
  ntoh16 vb.value.type = vb.value.type ∧ vb.Symmetric

lemma WireVarBind.bytes_iff (vb : WireVarBind) : vb.bytes false = vb.bytes true ↔ vb.Palindromic := by
  rw [bytes, bytes, append_eq_iff (by simp), append_eq_iff rfl,
    append_eq_iff (by simp), ordered_bytes16_iff, vb.name.bytes_iff, vb.value.bytes_iff]
  simp only [true_and, Palindromic, Symmetric]

/-- Every number of a response is its own reversal, from the header on. -/
structure WireReply.Palindromic (p : WireReply) (ph : XPduHdr) : Prop where
  sessionId : ntoh32 ph.sessionId = ph.sessionId
  transactionId : ntoh32 ph.transactionId = ph.transactionId
  packetId : ntoh32 ph.packetId = ph.packetId
  payloadLength : ntoh32 (p.hdr ph).payloadLength = (p.hdr ph).payloadLength
  error : ntoh16 p.error = p.error
  index : ntoh16 p.index = p.index
  varBinds : ∀ vb ∈ p.vbs, vb.Palindromic

lemma XPduHdr.bytes_iff (ph : XPduHdr) : ph.bytes false = ph.bytes true ↔
    ntoh32 ph.sessionId = ph.sessionId ∧ ntoh32 ph.transactionId = ph.transactionId ∧
      ntoh32 ph.packetId = ph.packetId ∧ ntoh32 ph.payloadLength = ph.payloadLength := by
  rw [bytes, bytes, List.append_cancel_left_eq, append_eq_iff (by simp), append_eq_iff (by simp),
    append_eq_iff (by simp)]
  simp only [ordered_bytes32_iff]

lemma WireReply.bytes_iff (p : WireReply) (ph : XPduHdr) :
    p.bytes false ph = p.bytes true ph ↔ p.Palindromic ph := by
  rw [bytes, bytes, append_eq_iff (by simp [XPduHdr.bytes]), append_eq_iff (by simp),
    append_eq_iff (by simp), append_eq_iff (by simp), XPduHdr.bytes_iff, elems, elems,
    flatMap_eq_iff fun vb => (vb.length_bytes_order true).symm]
  simp only [ordered_bytes32_iff, ordered_bytes16_iff, WireVarBind.bytes_iff]
  constructor
  · rintro ⟨⟨hs, ht, hp, hl⟩, -, he, hi, hvbs⟩
    exact ⟨hs, ht, hp, hl, he, hi, hvbs⟩
  · rintro ⟨hs, ht, hp, hl, he, hi, hvbs⟩
    exact ⟨⟨hs, ht, hp, hl⟩, rfl, he, hi, hvbs⟩

/-- The response to a request in the byte order of the host is in order; that to one in network byte
order is only where there is no order. -/
lemma WireReply.inOrder_iff (p : WireReply) (xdg : AgentxDatagram) :
    p.InOrder xdg ↔ hasFlag xdg.pduHdr.flags networkByteOrder = false ∨ p.Palindromic xdg.pduHdr := by
  obtain ⟨len, hpdu⟩ := p.agentxResponsePdu_respond xdg
  rw [InOrder, hpdu, ← p.bytes_iff]
  cases hasFlag xdg.pduHdr.flags networkByteOrder <;> simp

/-- Byte order does not change the meaning of a request, and the responses to both of its forms are
in the order that they announce. -/
def ByteOrderFree (r : WireRequest) (p : WireReply) : Prop :=
  DecodesAlike r ∧ ∀ nbo, p.InOrder (r.read nbo)

lemma WireRequest.read_pduHdr (r : WireRequest) (nbo : Bool) :
    (r.read nbo).pduHdr = { r.hdr nbo with payloadLength := 0 } := by
  rw [read, WireBody.read]
  cases r.body with
  | search kind srs => cases kind <;> rfl
  | testset vbs => rfl
  | phase type h => rfl

lemma palindromic_read_iff {r : WireRequest} {p : WireReply} {nbo : Bool} :
    p.Palindromic (r.read nbo).pduHdr ↔ p.Palindromic (r.hdr false) := by
  rw [r.read_pduHdr]
  constructor <;> rintro ⟨hs, ht, hp, hl, he, hi, hvbs⟩ <;> exact ⟨hs, ht, hp, hl, he, hi, hvbs⟩

/-- Byte order does not matter exactly where nothing has one: every sub-identifier and number of the
request is its own reversal, no string is there but the empty one, and the same holds of the response
and of the ids in its header. -/
theorem byteOrderFree_iff_symmetric (r : WireRequest) (p : WireReply) :
    ByteOrderFree r p ↔ r.body.Symmetric ∧ p.Palindromic (r.hdr false) := by
  have hflag : ∀ nbo, hasFlag (r.read nbo).pduHdr.flags networkByteOrder = nbo := by
    intro nbo
    rw [r.read_pduHdr]
    exact hasFlag_order r.hostOrder nbo
  rw [ByteOrderFree, decodesAlike_iff]
  refine and_congr_right fun _ => ⟨fun h => ?_, fun h nbo => ?_⟩
  · have htrue := (p.inOrder_iff (r.read true)).mp (h true)
    rw [hflag true, palindromic_read_iff] at htrue
    simpa using htrue
  · exact (p.inOrder_iff (r.read nbo)).mpr (.inr (palindromic_read_iff.mpr h))

/-- A Get request for `1.3.6.1.2.1`. -/
def orderedGet : WireRequest where
  version := 1
  flags := 0
  reserved := 0
  sessionId := 0
  transactionId := 0
  packetId := 0
  context := []
  body := .search .get [⟨⟨2, 0, [1], by decide⟩, ⟨0, 0, [], by decide⟩⟩]
  hostOrder := rfl
  contextShort := by decide
  bodyShort := by decide

/-- It is decoded to another OID in network byte order. -/
theorem orderedGet_not_byteOrderFree : ¬ ∀ r p, ByteOrderFree r p := by
  intro h
  have hsym := (decodesAlike_iff orderedGet).mp (h orderedGet ⟨0, 0, [], by simp⟩).1
  have hsub : ntoh32 1 = 1 := (hsym _ List.mem_cons_self).1 1 List.mem_cons_self
  exact absurd hsub (by decide)

end SmartSnmp
