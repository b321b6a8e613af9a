import SmartSnmp.Snmp.Exchange
import SmartSnmp.Snmp.Walk

/-!
# Walks on the wire

A manager walks over the agent with the bytes of its requests, and takes the answers from the bytes of
the responses. It decodes them as the agent decodes requests.
-/

namespace SmartSnmp

open PrefixOrder MibNode Jump Run

/-! ### The manager -/

/-- What a manager takes from a response: it belongs to the request, has no error and has one
varbind. -/
def readNext (m : SnmpMessage) (bytes : List UInt8) : Option (Option Oid) :=
  match datagramDecode bytes with
  | .ok (.ok (sdg, [])) =>
    match sdg.vbInList with
    | [vb] =>
      if sdg.version = m.version ∧ sdg.contextName = m.contextName.val ∧
          sdg.pduHdr.pduType = mibResp ∧ sdg.pduHdr.reqId = m.reqId ∧ sdg.pduHdr.errStat = 0 then
        some vb.next
      else none
    | _ => none
  | _ => none

/-- The message is a GETNEXT request for an OID, and its requester is that of the datagram. -/
structure Asks (sdg : SnmpDatagram) (m : SnmpMessage) (oid : Oid) : Prop where
  version : m.version = sdg.version
  contextName : m.contextName.val = sdg.contextName
  userName : ∀ h ∈ m.v3, h.userName.val = sdg.userName
  pduType : m.pduType = mibReqGetnext
  errStat : m.errStat = 0
  bindings : m.bindings.map Binding.varBind = [askVarBind oid]

lemma Asks.requester {sdg sdg' : SnmpDatagram} {m : SnmpMessage} {oid : Oid} (h : Asks sdg m oid)
    (hcarries : Carries sdg' m) (mv : MibViews) : requester mv sdg' = requester mv sdg := by
  simp only [SmartSnmp.requester, hcarries.version, h.version, hcarries.contextName, h.contextName]
  split_ifs with h3
  · obtain ⟨v3, hv3⟩ := Option.isSome_iff_exists.mp (m.v3_isSome.mpr (h.version.symm ▸ h3))
    rw [(hcarries.v3 v3 hv3).userName, h.userName v3 hv3]
  · rfl

/-- The datagram that is read is a request of one varbind. -/
lemma Asks.only {sdg sdg' : SnmpDatagram} {m : SnmpMessage} {oid : Oid} (h : Asks sdg m oid)
    (hcarries : Carries sdg' m) : sdg'.only (askVarBind oid) = sdg' := by
  have hlist : sdg'.vbInList = [askVarBind oid] := hcarries.vbInList.trans h.bindings
  have hcnt : sdg'.vbInCnt = 1 := by
    rw [hcarries.vbInCnt, ← List.length_map Binding.varBind, h.bindings]
    rfl
  rw [SnmpDatagram.only, ← hlist, ← hcnt]

lemma Moment.congr {a : Agent} {sdg sdg' : SnmpDatagram} {handlers : Handlers} {S : Int → Set Oid}
    (h : Moment a sdg handlers S) (heq : requester a.mv sdg' = requester a.mv sdg) :
    Moment a sdg' handlers S := by
  refine ⟨?_, h.handled, h.small⟩
  rw [heq]
  exact h.known

lemma readable_congr {a : Agent} {sdg sdg' : SnmpDatagram} {S : Int → Set Oid}
    (heq : requester a.mv sdg' = requester a.mv sdg) : Readable a sdg' S = Readable a sdg S := by
  simp only [Readable, Covered, heq]

/-! ### One exchange -/

/-- A request of the walk on the wire is answered with bytes that the manager reads, and they say what
is next. -/
lemma Moment.exchange {a : Agent} {sdg : SnmpDatagram} {handlers : Handlers} {S : Int → Set Oid}
    (ha : a.Ok) (h : Moment a sdg handlers S) {oid : Oid} (hsmall : SmallOid oid)
    (hoid : PortableOid oid) (hport : ∀ x, Existing a.root S x → PortableOid x) {m : SnmpMessage}
    (hasks : Asks sdg m oid) {buffer : List UInt8} (hser : Serialises m buffer)
    (hbuf : buffer.length < 2 ^ 31)
    (hfits : ∀ sdg', snmpDecode buffer = .ok sdg' → RequestFits sdg' [0]) :
    ∃ s r l' next, snmpdRecv handlers a.root a.mv buffer [] = (.ok (some (s, r)), l') ∧
      readNext m r.written = some next ∧ Finds (above (Readable a sdg S) oid) next := by
  obtain ⟨sdg', hdecode, hcarries, huntouched, hrecv⟩ :=
    snmpdRecv_of_serialises handlers a.root a.mv hser hbuf
  have hreq := hasks.requester hcarries a.mv
  obtain ⟨s, r, l', vbOut, hrun, hout, hstatuses, hvb, hvbOid, hnext⟩ :=
    (h.congr hreq).request ha (hcarries.pduType.trans hasks.pduType) huntouched.vbOutList hsmall
      hoid.length_le []
  rw [hasks.only hcarries] at hrun
  rw [readable_congr hreq] at hnext
  refine ⟨s, r, l', vbOut.next, by rw [hrecv, hrun], ?_, hnext⟩
  -- the varbind of the response is that of the request, or is an instance
  have hportOut : PortableOid vbOut.oid := by
    rw [hvbOid]
    cases hn : vbOut.next with
    | none => exact hoid
    | some x =>
      rw [hn] at hnext
      exact hport x hnext.1.1.1
  have hsized := sized_of_answered hcarries huntouched hrun (hstatuses ▸ hfits sdg' hdecode) (by
    rw [hout]
    simpa using ⟨hportOut, hvb.value⟩)
  obtain ⟨-, hr⟩ := returns_snmpRequestDispatch sdg' [] _ l' hrun s r rfl
  obtain ⟨-, -, sdg'', hread, hcarries', hlist⟩ := hsized.decoded hr (by simp [hout])
  have hresp := responds_of_answered hcarries hrun hsized hcarries' hlist
  have herr : sdg''.pduHdr.errStat = 0 := by
    obtain ⟨hprogress, -⟩ := returns_snmpRequestDispatch sdg' [] _ l' hrun s r rfl
    rw [hresp.errStat, hprogress.pduHdr_eq, hstatuses]
    exact hcarries.errStat.trans hasks.errStat
  have hne : m.bindings ≠ [] := by
    intro hnil
    have := hasks.bindings
    rw [hnil] at this
    cases this
  have htype : sdg''.pduHdr.pduType = mibResp := by rw [hresp.pduType, if_neg hne]
  have hone : sdg''.vbInList = [{ vbOut with vbLen := 0 }] := by rw [hresp.vbInList, hout]; rfl
  simp only [readNext, hread, hone, hresp.version, hresp.contextName, htype, hresp.reqId, herr,
    and_self, if_true]
  rfl

/-! ### Runs -/

/-- What happens next: a call on the agent, or a request of the manager. -/
inductive WireInput where
  | change (op : AgentOp)
  | ask (handlers : Handlers) (instances : Int → Set Oid) (m : SnmpMessage) (buffer : List UInt8)

/-- The same without the bytes. -/
def WireInput.plain : WireInput → WalkInput
  | .change op => .change op
  | .ask handlers instances _ _ => .ask handlers instances

/-- The agent receives the bytes of a request, and the manager the bytes of the response. -/
def wireStep (w : ManagedWalk) : WireInput → Option ManagedWalk
  | .change op => (w.agent.apply op).map fun agent => { w with agent }
  | .ask handlers _ m buffer =>
    if w.walk.ended then some w
    else
      match snmpdRecv handlers w.agent.root w.agent.mv buffer [] with
      | (.ok (some (_, r)), _) =>
        (readNext m r.written).map fun next => { w with walk := w.walk.answer next }
      | _ => none

/-- The questions are as `Fair` says, the instances have OIDs that BER can carry, and the bytes of a
question are any serialisation of a GETNEXT request for the position of the walk whose integers take
no more bytes than they need. -/
def WireFair (sdg : SnmpDatagram) (w : ManagedWalk) (i : WireInput) : Prop :=
  Fair sdg w i.plain ∧
    match i with
    | .change _ => True
    | .ask _ instances m buffer => (∀ x, Existing w.agent.root instances x → PortableOid x) ∧
        Asks sdg m w.walk.position ∧ Serialises m buffer ∧ buffer.length < 2 ^ 31 ∧
        ∀ sdg', snmpDecode buffer = .ok sdg' → RequestFits sdg' [0]

section Runs

variable {sdg : SnmpDatagram} (hsdg : sdg.pduHdr.pduType = mibReqGetnext)
  (hout : sdg.vbOutList = [])

include hsdg hout

/-- A step on the wire is the step without the bytes. -/
lemma wireStep_plain {w : ManagedWalk} (hw : w.Ok) (hpos : PortableOid w.walk.position) {i : WireInput}
    (h : WireFair sdg w i) : ∃ w', wireStep w i = some w' ∧ walkStep sdg w i.plain = some w' ∧
      w'.Ok ∧ PortableOid w'.walk.position := by
  obtain ⟨hfair, hwire⟩ := h
  cases i with
  | change op =>
    obtain ⟨w', hstep, hok, hwalk⟩ := walkStep_change hw hfair
    exact ⟨w', hstep, hstep, hok, hwalk ▸ hpos⟩
  | ask handlers S m buffer =>
    cases hgo : w.walk.ended with
    | true => exact ⟨w, by simp [wireStep, hgo], walkStep_ended hgo handlers S, hw, hpos⟩
    | false =>
      obtain ⟨hport, hasks, hser, hbuf, hfits⟩ := hwire
      obtain ⟨r, hstep, hfinds, hok⟩ := walkStep_ask hsdg hout hw hfair hgo
      obtain ⟨s, resp, l', next, hrecv, hread, hnext⟩ :=
        Moment.exchange hw.agent hfair hw.small hpos hport hasks hser hbuf hfits
      obtain rfl := Walk.Finds.unique hnext hfinds
      refine ⟨_, ?_, hstep, hok, ?_⟩
      · simp only [wireStep, hgo, hrecv, hread]
        rfl
      · cases next with
        | none => exact hpos
        | some x => simpa using hport x hfinds.1.1.1

end Runs

/-- A walk on the wire. Whatever serialisations the manager sends and whatever calls come between its
requests, every request is answered with bytes that it can read and match, and the walk goes as it
does without the bytes. -/
theorem wireWalk_refines {sdg : SnmpDatagram} (hsdg : sdg.pduHdr.pduType = mibReqGetnext)
    (hout : sdg.vbOutList = []) {start : Oid} (hsmall : SmallOid start) (hstart : PortableOid start)
    {inputs : List WireInput} (hfair : EachStep wireStep (WireFair sdg) ⟨.init, .begin start⟩ inputs) :
    EachStep (walkStep sdg) (Fair sdg) ⟨.init, .begin start⟩ (inputs.map WireInput.plain) ∧
    ∃ w, run wireStep ⟨.init, .begin start⟩ inputs = some w ∧
      run (walkStep sdg) ⟨.init, .begin start⟩ (inputs.map WireInput.plain) = some w := by
  obtain ⟨heach, w, w', hrun, hrun', rfl, -⟩ := run_simulates
    (R := fun w w' => w = w' ∧ w.Ok ∧ PortableOid w.walk.position) (D := Fair sdg) WireInput.plain
    (fun w w' i hR hi => by
      obtain ⟨rfl, hok, hpos⟩ := hR
      obtain ⟨w₁, hwire, hwalk, hok₁, hpos₁⟩ := wireStep_plain hsdg hout hok hpos hi
      exact ⟨hi.1, w₁, w₁, hwire, hwalk, rfl, hok₁, hpos₁⟩)
    (s := ⟨.init, .begin start⟩) ⟨rfl, ⟨Agent.ok_init, hsmall, hstart.length_le⟩, hstart⟩ hfair
  exact ⟨heach, w, hrun, hrun'⟩

/-- The scalar is registered, then the community, and a manager asks for what comes after 0.0. -/
def sampleWireWalk : List WireInput :=
  [.change (.node (.reg [1] 7)), .change (.view (.reg .community [1] [112] .write)),
    .ask scalarHandlers scalarInstances sampleAsk sampleAskBytes]

lemma wireFair_sampleAsk : WireFair sampleGetnext ⟨scalarAgent, .begin [0, 0]⟩
    (.ask scalarHandlers scalarInstances sampleAsk sampleAskBytes) := by
  refine ⟨moment_scalar, ?_, ?_, sampleAsk_serialises, by decide, ?_⟩
  · intro x hx
    obtain rfl := existing_scalar.mp hx
    exact ⟨by decide, by decide, by decide, by decide, by decide⟩
  · exact ⟨rfl, rfl, by simp [sampleAsk], rfl, rfl, rfl⟩
  · intro sdg hsdg
    obtain rfl := Outcome.ok.inj (snmpDecode_sampleAskBytes.symm.trans hsdg)
    exact requestFits_sampleAskRead

theorem wireWalk_refines_sampleWireWalk : ∃ w,
    run wireStep ⟨.init, .begin [0, 0]⟩ sampleWireWalk = some w ∧
    run (walkStep sampleGetnext) ⟨.init, .begin [0, 0]⟩ (sampleWireWalk.map WireInput.plain) =
      some w := by
  have hsmall : SmallOid [0, 0] := by simp [SmallOid]
  have hreg : (AgentOp.view (.reg .community [1] [112] .write)).Small := by
    simp [AgentOp.Small, SmallOid]
  have hfair : EachStep wireStep (WireFair sampleGetnext) ⟨.init, .begin [0, 0]⟩ sampleWireWalk := by
    refine ⟨⟨⟨trivial, Agent.apply_node_ne_none Agent.ok_init _⟩, trivial⟩, fun w hw => ?_⟩
    obtain rfl := Option.some.inj hw
    refine ⟨⟨⟨hreg, by simp [Agent.apply, MibViews.apply]⟩, trivial⟩, fun w hw => ?_⟩
    obtain rfl := Option.some.inj hw
    exact ⟨wireFair_sampleAsk, fun _ _ => trivial⟩
  exact (wireWalk_refines rfl rfl hsmall ⟨by decide, by decide, by decide, by decide, by decide⟩ hfair).2

end SmartSnmp
