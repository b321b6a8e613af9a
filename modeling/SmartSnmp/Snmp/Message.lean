import SmartSnmp.Snmp.Codec
import SmartSnmp.Snmp.MsgIn

/-!
# Messages and their serialisations

The messages that a peer may send, as trees, and the byte strings that are definite-length BER
serialisations of them. Nothing in here refers to the decoder: `Tlv` leaves the form of every length
open, and an integer may be padded.
-/

namespace SmartSnmp

open Bytes

/-! ### Trees -/

/-- An octet string of at most `n` bytes. -/
abbrev Octets (n : Nat) := { s : List UInt8 // s.length ≤ n }

/-- A variable of a message with the content bytes of its value. -/
structure Binding where
  oid : Oid
  valueType : UInt8
  value : Octets mibValueMaxLen
  two_le : 2 ≤ oid.length
  length_le : oid.length ≤ mibOidMaxLen
  second_lt : (oid.getD 1 0).toNat < 40
  packed_lt : 40 * (oid.getD 0 0).toNat + (oid.getD 1 0).toNat < 256

/-- What stands between the version and the context name from version 3 on. -/
structure V3Header where
  msgId : Int32
  msgMaxSize : Int32
  msgFlags : UInt8
  msgSecurityModel : Int32
  engineId : Octets 32
  engineBoots : Int32
  engineTime : Int32
  userName : Octets 40
  authPara : Octets 40
  privPara : Octets 40
  contextId : Octets 32

structure SnmpMessage where
  version : Int32
  v3 : Option V3Header
  contextName : Octets 40
  pduType : UInt8
  reqId : Int32
  errStat : Int32
  errIdx : Int32
  bindings : List Binding
  v3_isSome : v3.isSome = true ↔ 3 ≤ version

/-! ### Serialisations -/

/-- A tag, the length of the content in some form, and the content. -/
def Tlv (tag : UInt8) (content bytes : List UInt8) : Prop :=
  ∃ octets, IsLength content.length octets ∧ bytes = tag :: (octets ++ content)

/-- An integer in one to four bytes of content. -/
def IntTlv (value : Int32) (bytes : List UInt8) : Prop :=
  ∃ content, 1 ≤ content.length ∧ content.length ≤ 4 ∧ beInt content = value.toInt ∧
    Tlv asn1TagInt content bytes

/-- The content of an OID: the first two sub-identifiers in one byte, then a group for each. -/
def IsOid (oid : Oid) (content : List UInt8) : Prop :=
  ∃ a b ids tail, oid = a :: b :: ids ∧ IsOidTail ids tail ∧
    content = UInt8.ofNat (40 * a.toNat + b.toNat) :: tail

def BindingTlv (binding : Binding) (bytes : List UInt8) : Prop :=
  ∃ content name value, IsOid binding.oid content ∧ Tlv asn1TagObjid content name ∧
    Tlv binding.valueType binding.value.val value ∧ Tlv asn1TagSeq (name ++ value) bytes

def PduTlv (m : SnmpMessage) (bytes : List UInt8) : Prop :=
  ∃ reqId errStat errIdx parts list, IntTlv m.reqId reqId ∧ IntTlv m.errStat errStat ∧
    IntTlv m.errIdx errIdx ∧ List.Forall₂ BindingTlv m.bindings parts ∧
    Tlv asn1TagSeq parts.flatten list ∧
    Tlv m.pduType (reqId ++ (errStat ++ (errIdx ++ list))) bytes

def GlobalDataTlv (h : V3Header) (bytes : List UInt8) : Prop :=
  ∃ msgId msgMaxSize msgFlags msgSecurityModel, IntTlv h.msgId msgId ∧
    IntTlv h.msgMaxSize msgMaxSize ∧ Tlv asn1TagOctstr [h.msgFlags] msgFlags ∧
    IntTlv h.msgSecurityModel msgSecurityModel ∧
    Tlv asn1TagSeq (msgId ++ (msgMaxSize ++ (msgFlags ++ msgSecurityModel))) bytes

/-- The security parameters: a sequence inside of an octet string. -/
def SecurityTlv (h : V3Header) (bytes : List UInt8) : Prop :=
  ∃ engineId engineBoots engineTime userName authPara privPara seq,
    Tlv asn1TagOctstr h.engineId.val engineId ∧ IntTlv h.engineBoots engineBoots ∧
    IntTlv h.engineTime engineTime ∧ Tlv asn1TagOctstr h.userName.val userName ∧
    Tlv asn1TagOctstr h.authPara.val authPara ∧ Tlv asn1TagOctstr h.privPara.val privPara ∧
    Tlv asn1TagSeq (engineId ++ (engineBoots ++ (engineTime ++ (userName ++ (authPara ++ privPara)))))
      seq ∧
    Tlv asn1TagOctstr seq bytes

/-- `bytes` is a serialisation of the message. -/
def Serialises (m : SnmpMessage) (bytes : List UInt8) : Prop :=
  ∃ version contextName pdu, IntTlv m.version version ∧
    Tlv asn1TagOctstr m.contextName.val contextName ∧ PduTlv m pdu ∧
    match m.v3 with
    | none => Tlv asn1TagSeq (version ++ (contextName ++ pdu)) bytes
    | some h => ∃ globalData security contextId scope, GlobalDataTlv h globalData ∧
        SecurityTlv h security ∧ Tlv asn1TagOctstr h.contextId.val contextId ∧
        Tlv asn1TagSeq (contextId ++ (contextName ++ pdu)) scope ∧
        Tlv asn1TagSeq (version ++ (globalData ++ (security ++ scope))) bytes

end SmartSnmp
