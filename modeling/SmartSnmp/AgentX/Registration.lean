import SmartSnmp.Mib.Tree.Basic
import SmartSnmp.Transport.Tcp

/-!
# Registration with the master

`agentx_mib_node_reg` and `agentx_mib_node_unreg` of `core/agentx.c`. Each sends its PDU and takes the
next message on the connection for the answer, which it checks for nothing but that it can be decoded.
-/

namespace SmartSnmp

open Run

/-! ### The agent -/

/-- What `recv` returns to a caller that waits for an answer. -/
inductive RecvAnswer where
  | failed
  | message (data rest : List UInt8) : data.length + rest.length = transBufSiz → RecvAnswer

/-- A call that changes the tree. -/
inductive RegCall where
  | reg (grpId : Oid) (grpCb : Int)
  | unreg (grpId : Oid)

/-- A call that has changed the tree, with the id of its packet and what was taken for the answer. -/
structure Carried where
  call : RegCall
  packetId : UInt32
  answer : AgentxDatagram

/-- The header of the datagram and the tree. The last field is not the program's: it records the calls
that have changed the tree. -/
structure AgentxAgent where
  pduHdr : XPduHdr
  tree : MibNode
  carried : List Carried

/-- The header of the datagram once a PDU could not be decoded, apart from its payload length, which
nothing reads. -/
def failedHdr (ph : XPduHdr) (buffer : List UInt8) : XPduHdr :=
  match fixedHdrParse buffer with
  | .ok (.ok (ph, _)) => ph
  | _ => ph

/-- Whether `mib_node_unreg` finds nodes to remove. -/
def removesNodes (root : MibNode) (oid : Oid) : Bool :=
  match mibTreeNodeSearch root oid with
  | (.null, _) => false
  | (_, pair) => pair.childPos ≠ []

namespace RegCall

def grpId : RegCall → Oid
  | reg grpId _ => grpId
  | unreg grpId => grpId

/-- The PDU that is sent, and the header of the datagram afterwards. -/
def pdu (ph : XPduHdr) : RegCall → Option (XPduHdr × XPduBuf)
  | reg grpId _ => agentxRegisterPdu ph grpId 0 127 0 0
  | unreg grpId => agentxUnregisterPdu ph grpId 0 127 0 0

/-- What is done to the tree once there is an answer. -/
def apply (tree : MibNode) : RegCall → Outcome (MibNode × Int)
  | reg grpId grpCb => mibNodeReg tree grpId grpCb
  | unreg grpId =>
    match mibNodeUnreg tree grpId with
    | .ok tree => .ok (tree, 0)
    | .crash => .crash
    | .fuel => .fuel

/-- Whether a call that returns `ret` has added its OID or removed nodes. -/
def changes (tree : MibNode) (ret : Int) : RegCall → Bool
  | reg _ _ => ret = 0
  | unreg grpId => removesNodes tree grpId

/-- The call adds its OID and returns 0, or it removes nodes. -/
def Changes (tree : MibNode) (call : RegCall) : Prop :=
  ∃ tree' ret, call.apply tree = .ok (tree', ret) ∧ call.changes tree ret = true

end RegCall

/-- What both calls do once they have an answer. -/
def RegCall.carryOut (call : RegCall) (a : AgentxAgent) (xdg : AgentxDatagram) :
    Option (AgentxAgent × Int) :=
  match call.apply a.tree with
  | .ok (tree, ret) =>
    let carried := if call.changes a.tree ret then [⟨call, a.pduHdr.packetId + 1, xdg⟩] else []
    some (⟨xdg.pduHdr, tree, a.carried ++ carried⟩, ret)
  | .crash => none
  | .fuel => none

/-- What both calls do: check the prefix `.1.3.6.1`, send the PDU, receive, and decode. The requests
among what is received are also dispatched, which changes neither the header nor the tree. -/
def RegCall.run (call : RegCall) (a : AgentxAgent) (sendOk : Bool) (answer : RecvAnswer) :
    Option (AgentxAgent × Int) :=
  if call.grpId.take 4 = [1, 3, 6, 1] then
    (call.pdu a.pduHdr).bind fun (ph, _) =>
      match sendOk, answer with
      | true, .message data rest _ =>
        (agentxRecv (data ++ rest) data.length).bind fun
          | .ok xdg => call.carryOut a xdg
          | .error _ => some ({ a with pduHdr := failedHdr ph (data ++ rest) }, -1)
      | _, _ => some ({ a with pduHdr := ph }, -1)
  else some (a, -1)

def agentxMibNodeReg (a : AgentxAgent) (grpId : Oid) (grpCb : Int) (sendOk : Bool)
    (answer : RecvAnswer) : Option (AgentxAgent × Int) :=
  (RegCall.reg grpId grpCb).run a sendOk answer

def agentxMibNodeUnreg (a : AgentxAgent) (grpId : Oid) (sendOk : Bool) (answer : RecvAnswer) :
    Option (AgentxAgent × Int) :=
  (RegCall.unreg grpId).run a sendOk answer

/-! ### Runs -/

/-- What happens to the agent: it registers or unregisters a group, for which it is given whether its
PDU is sent and what it then receives, or its loop receives. -/
inductive AgentxInput where
  | reg (grpId : Oid) (grpCb : Int) (sendOk : Bool) (answer : RecvAnswer)
  | unreg (grpId : Oid) (sendOk : Bool) (answer : RecvAnswer)
  | receive (recv : Recv)

def agentxStep (a : AgentxAgent) : AgentxInput → Option AgentxAgent
  | .reg grpId grpCb sendOk answer => (agentxMibNodeReg a grpId grpCb sendOk answer).map Prod.fst
  | .unreg grpId sendOk answer => (agentxMibNodeUnreg a grpId sendOk answer).map Prod.fst
  | .receive recv =>
    (agentxRecv (recv.data ++ recv.rest) recv.data.length).map fun
      | .ok xdg => { a with pduHdr := xdg.pduHdr }
      | .error _ => { a with pduHdr := failedHdr a.pduHdr (recv.data ++ recv.rest) }

/-- A Response PDU that answers the packet and accepts it. -/
def Accepts (xdg : AgentxDatagram) (packetId : UInt32) : Prop :=
  xdg.pduHdr.type = agentxPduResponse ∧ xdg.pduHdr.packetId = packetId ∧ xdg.error = 0

/-- The tree was changed only with the consent of the master. -/
def Agreement (a : AgentxAgent) : Prop := ∀ c ∈ a.carried, Accepts c.answer c.packetId

/-- The message that a call reads after its PDU has been sent is the Response that accepts it, unless
it cannot be decoded or the call would not change the tree. -/
def RegCall.AnsweredFirst (call : RegCall) (a : AgentxAgent) (sendOk : Bool) : RecvAnswer → Prop
  | .failed => True
  | .message data rest _ =>
    call.grpId.take 4 = [1, 3, 6, 1] → (call.pdu a.pduHdr).isSome → sendOk = true → data ≠ [] →
      call.Changes a.tree → ∀ xdg, agentxDecode (data ++ rest) = .ok (.ok xdg) →
        Accepts xdg (a.pduHdr.packetId + 1)

def AnsweredFirst (a : AgentxAgent) : AgentxInput → Prop
  | .reg grpId grpCb sendOk answer => (RegCall.reg grpId grpCb).AnsweredFirst a sendOk answer
  | .unreg grpId sendOk answer => (RegCall.unreg grpId).AnsweredFirst a sendOk answer
  | .receive _ => True

/-! ### Agreement -/

/-- An answer that is carried out keeps the agreement exactly if it accepts, or changes nothing. -/
lemma RegCall.carryOut_spec (call : RegCall) (a : AgentxAgent) (xdg : AgentxDatagram) :
    (∃ a' ret, call.carryOut a xdg = some (a', ret) ∧
      (Agreement a → (Agreement a' ↔ (call.Changes a.tree → Accepts xdg (a.pduHdr.packetId + 1))))) ∨
    (call.carryOut a xdg = none ∧ ¬ call.Changes a.tree) := by
  unfold carryOut Changes
  rcases call.apply a.tree with ⟨tree, ret⟩ | _ | _
  · left
    refine ⟨_, ret, rfl, ?_⟩
    intro hagree
    cases hchanges : call.changes a.tree ret with
    | false =>
      have hnone : ¬ ∃ tree' ret', Outcome.ok (tree, ret) = .ok (tree', ret') ∧
          call.changes a.tree ret' = true := by
        rintro ⟨tree', ret', heq, hret'⟩
        simp only [Outcome.ok.injEq, Prod.mk.injEq] at heq
        rw [← heq.2, hchanges] at hret'
        simp at hret'
      refine iff_of_true ?_ fun h => absurd h hnone
      intro c hc
      exact hagree c (by simpa using hc)
    | true =>
      have hsome : ∃ tree' ret', Outcome.ok (tree, ret) = .ok (tree', ret') ∧
          call.changes a.tree ret' = true := ⟨tree, ret, rfl, hchanges⟩
      constructor
      · intro h _
        exact h ⟨call, a.pduHdr.packetId + 1, xdg⟩ (by simp)
      · intro h c hc
        rcases List.mem_append.mp hc with hc | hc
        · exact hagree c hc
        · obtain rfl : c = ⟨call, a.pduHdr.packetId + 1, xdg⟩ := by simpa using hc
          exact h hsome
  · exact .inr ⟨rfl, by simp⟩
  · exact .inr ⟨rfl, by simp⟩

lemma agentxRecv_eq_some_iff {buffer : List UInt8} {len : Nat}
    {ret : Except AgentxErrCode AgentxDatagram} :
    agentxRecv buffer len = some ret ↔ 0 < len ∧ agentxDecode buffer = .ok ret := by
  unfold agentxRecv
  split_ifs with h
  · have hlen : 0 < len := by exact_mod_cast h
    cases agentxDecode buffer <;> simp [hlen]
  · have hlen : ¬ 0 < len := by exact_mod_cast h
    simp [hlen]

/-- What is received is carried out if it can be decoded. -/
lemma RegCall.received_spec (call : RegCall) (a : AgentxAgent) (ph : XPduHdr) {data rest : List UInt8} :
    let run := (agentxRecv (data ++ rest) data.length).bind fun
      | .ok xdg => call.carryOut a xdg
      | .error _ => some ({ a with pduHdr := failedHdr ph (data ++ rest) }, -1)
    let first := data ≠ [] → call.Changes a.tree → ∀ xdg,
      agentxDecode (data ++ rest) = .ok (.ok xdg) → Accepts xdg (a.pduHdr.packetId + 1)
    (∃ a' ret, run = some (a', ret) ∧ (Agreement a → (Agreement a' ↔ first))) ∨ (run = none ∧ first) := by
  intro run first
  rcases hrecv : agentxRecv (data ++ rest) data.length with _ | ret
  · -- the assertion on the length fails, or the decoder reads past the buffer
    refine .inr ⟨by simp [run, hrecv], fun hne _ xdg hdecode => ?_⟩
    have hsome : agentxRecv (data ++ rest) data.length = some (.ok xdg) :=
      agentxRecv_eq_some_iff.mpr ⟨List.length_pos_iff.mpr hne, hdecode⟩
    rw [hrecv] at hsome
    cases hsome
  · obtain ⟨hlen, hdecode⟩ := agentxRecv_eq_some_iff.mp hrecv
    have hne : data ≠ [] := List.length_pos_iff.mp hlen
    cases ret with
    | error e =>
      left
      refine ⟨{ a with pduHdr := failedHdr ph (data ++ rest) }, -1, by simp [run, hrecv], ?_⟩
      intro h
      apply iff_of_true (fun c hc => h c hc)
      intro _ _ xdg hxdg
      rw [hdecode] at hxdg
      simp at hxdg
    | ok xdg =>
      have hrun : run = call.carryOut a xdg := by simp [run, hrecv]
      have hfirst : first ↔ (call.Changes a.tree → Accepts xdg (a.pduHdr.packetId + 1)) := by
        simp [first, hne, hdecode]
      rw [hrun, hfirst]
      rcases call.carryOut_spec a xdg with hspec | ⟨hnone, hchanges⟩
      · exact .inl hspec
      · exact .inr ⟨hnone, fun h => absurd h hchanges⟩

/-- A call keeps the agreement exactly if what it reads is the answer that accepts it. -/
lemma RegCall.run_spec (call : RegCall) (a : AgentxAgent) (sendOk : Bool) (answer : RecvAnswer) :
    (∃ a' ret, call.run a sendOk answer = some (a', ret) ∧
      (Agreement a → (Agreement a' ↔ call.AnsweredFirst a sendOk answer))) ∨
    (call.run a sendOk answer = none ∧ call.AnsweredFirst a sendOk answer) := by
  have hkeep : ∀ ph : XPduHdr, Agreement a → Agreement { a with pduHdr := ph } := fun _ h => h
  unfold RegCall.run
  split_ifs with hprefix
  · rcases hpdu : call.pdu a.pduHdr with _ | ⟨ph, buf⟩
    · -- the assertion fails
      right
      refine ⟨rfl, ?_⟩
      cases answer with
      | failed => trivial
      | message data rest size => exact fun _ h => by simp [hpdu] at h
    · rw [Option.bind_some]
      cases answer with
      | failed =>
        left
        refine ⟨{ a with pduHdr := ph }, -1, by cases sendOk <;> rfl, ?_⟩
        intro h
        exact iff_of_true (hkeep ph h) trivial
      | message data rest size =>
        cases sendOk with
        | false =>
          left
          refine ⟨{ a with pduHdr := ph }, -1, rfl, ?_⟩
          intro h
          exact iff_of_true (hkeep ph h) fun _ _ h => by simp at h
        | true =>
          have hfirst : call.AnsweredFirst a true (.message data rest size) ↔
              (data ≠ [] → call.Changes a.tree → ∀ xdg, agentxDecode (data ++ rest) = .ok (.ok xdg) →
                Accepts xdg (a.pduHdr.packetId + 1)) := by
            simp [AnsweredFirst, hprefix, hpdu]
          rw [hfirst]
          exact call.received_spec a ph
  · left
    refine ⟨a, -1, rfl, fun h => iff_of_true h ?_⟩
    cases answer with
    | failed => trivial
    | message data rest size => exact fun h => absurd h hprefix

lemma agentxStep_spec (a : AgentxAgent) (input : AgentxInput) :
    (∃ a', agentxStep a input = some a' ∧ True ∧
      (Agreement a → (Agreement a' ↔ AnsweredFirst a input))) ∨
    (agentxStep a input = none ∧ AnsweredFirst a input) := by
  have hcall : ∀ (call : RegCall) (sendOk : Bool) (answer : RecvAnswer),
      (∃ a', (call.run a sendOk answer).map Prod.fst = some a' ∧ True ∧
        (Agreement a → (Agreement a' ↔ call.AnsweredFirst a sendOk answer))) ∨
      ((call.run a sendOk answer).map Prod.fst = none ∧ call.AnsweredFirst a sendOk answer) := by
    intro call sendOk answer
    rcases call.run_spec a sendOk answer with ⟨a', ret, hrun, hagree⟩ | ⟨hrun, hfirst⟩
    · exact .inl ⟨a', by rw [hrun]; rfl, trivial, hagree⟩
    · exact .inr ⟨by rw [hrun]; rfl, hfirst⟩
  cases input with
  | reg grpId grpCb sendOk answer => exact hcall (.reg grpId grpCb) sendOk answer
  | unreg grpId sendOk answer => exact hcall (.unreg grpId) sendOk answer
  | receive recv =>
    rcases hrecv : agentxRecv (recv.data ++ recv.rest) recv.data.length with _ | ret
    · exact .inr ⟨by simp [agentxStep, hrecv], trivial⟩
    · left
      refine ⟨_, by rw [agentxStep, hrecv, Option.map_some], trivial, fun h => iff_of_true ?_ trivial⟩
      cases ret with
      | ok xdg => exact h
      | error e => exact h

/-- Throughout a run the tree is changed only with the consent of the master if and only if the first
message that each call reads is the Response that accepts it. -/
theorem agreement_iff_answeredFirst (ph : XPduHdr) (tree : MibNode) (inputs : List AgentxInput) :
    Always agentxStep Agreement ⟨ph, tree, []⟩ inputs ↔
      EachStep agentxStep AnsweredFirst ⟨ph, tree, []⟩ inputs :=
  always_iff_eachStep (fun _ => True) (fun a input _ => agentxStep_spec a input) trivial
    (by simp [Agreement]) inputs

/-- A Get request arrives before the answer to a Register PDU. -/
def requestFirst : AgentxInput :=
  .reg [1, 3, 6, 1, 2] 7 true (.message (orderedGet.bytes false)
    (List.replicate (transBufSiz - (orderedGet.bytes false).length) 0)
    (by rw [List.length_replicate]; decide))

/-- It is taken for the answer. -/
theorem requestFirst_not_agreement :
    ¬ ∀ ph tree inputs, Always agentxStep Agreement ⟨ph, tree, []⟩ inputs := by
  intro h
  have hfirst : ¬ AnsweredFirst ⟨sampleXHdr, mibInit, []⟩ requestFirst := by
    intro h
    have haccepts := h rfl rfl rfl (by decide) ⟨_, 0, rfl, rfl⟩ _
      (WireRequest.agentxDecode_bytes (readable_false orderedGet.body) _)
    exact absurd haccepts.1 (by decide)
  have halways := h sampleXHdr mibInit [requestFirst]
  rcases agentxStep_spec ⟨sampleXHdr, mibInit, []⟩ requestFirst with ⟨a', hstep, -, hagree⟩ | ⟨_, h⟩
  · exact hfirst ((hagree halways.1).mp (halways.2 a' hstep))
  · exact hfirst h

end SmartSnmp
