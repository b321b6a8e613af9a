import SmartSnmp.Lua.Serving
import SmartSnmp.Snmp.WireWalk

/-!
# Walks over a running program

The agent with the groups of its Lua program behind it. A manager walks over the instances of the groups
with the bytes of its requests, while the program registers and unregisters groups and views, and while
other datagrams are received, that may set variables of the groups.
-/

namespace SmartSnmp

namespace Lua

open PrefixOrder MibNode Run

/-- The tree with its handlers, the views, the state of the Lua program, and a walk over its
instances. -/
structure GroupWalk (σ τ : Type) where
  mib : LuaMib τ
  mv : MibViews
  lua : σ
  walk : Walk.State Oid

namespace GroupWalk

variable {σ τ : Type} [RefTable τ (Group σ × String)]

/-- Before the first call of the program. -/
def init (s : σ) (start : Oid) : GroupWalk σ τ := ⟨.init, .empty, s, .begin start⟩

def agent (w : GroupWalk σ τ) : Agent := ⟨w.mib.root, w.mv⟩

/-- The groups by callback. -/
def groups (w : GroupWalk σ τ) : Registered σ := fun cb => RefTable.get w.mib.env cb

@[simp] lemma groups_init (s : σ) (start : Oid) (cb : Int) :
    (init s start : GroupWalk σ τ).groups cb = none :=
  RefTable.get_empty cb

/-- The instances that a requester can read. -/
def readable (w : GroupWalk σ τ) (sdg : SnmpDatagram) : Set Oid :=
  SmartSnmp.Readable w.agent sdg (luaInstances w.groups)

end GroupWalk

/-- What happens next: a call of the program on the nodes or the views, a datagram of somebody, or a
request of the manager. -/
inductive GroupInput (σ : Type) where
  | node (call : NodeCall (Group σ × String))
  | view (op : ViewOp)
  | recv (buffer : List UInt8)
  | ask (m : SnmpMessage) (buffer : List UInt8)

section Program

variable {σ τ : Type} [RefTable τ (Group σ × String)] (fuel : Nat)

/-- The calls of a request are made one after the other on the state of the program. -/
def groupStep (w : GroupWalk σ τ) : GroupInput σ → Option (GroupWalk σ τ)
  | .node call =>
    match call.apply w.mib with
    | .ok (mib, _) => some { w with mib }
    | _ => none
  | .view op => (w.mv.apply op).map fun mv => { w with mv }
  | .recv buffer =>
    match snmpdRecv (luaHandlers w.groups fuel w.lua) w.mib.root w.mv buffer [] with
    | (.ok _, calls) => some { w with lua := stateAfter w.groups fuel w.lua calls }
    | _ => none
  | .ask m buffer =>
    if w.walk.ended then some w
    else
      match snmpdRecv (luaHandlers w.groups fuel w.lua) w.mib.root w.mv buffer [] with
      | (.ok (some (_, r)), calls) => (readNext m r.written).map fun next =>
        { w with lua := stateAfter w.groups fuel w.lua calls, walk := w.walk.answer next }
      | _ => none

/-- What a question asks from. -/
def GroupInput.asked (sdg : SnmpDatagram) (w : GroupWalk σ τ) : GroupInput σ → Option (Set Oid)
  | .ask _ _ => some (w.readable sdg)
  | _ => none

/-- The groups that the program registers can be served, and its calls on the views return and register
small views. The datagrams of others are processed to an end. A question is any serialisation of a
GETNEXT request for the position of the walk, whose requester is known and whose integers take no more
bytes than they need; then no view is an instance, and the OIDs of the instances can be carried. -/
def GroupFair (sdg : SnmpDatagram) (w : GroupWalk σ τ) : GroupInput σ → Prop
  | .node call => ∀ ids p, call = .reg ids (some p) → p.1.Served
  | .view op => (AgentOp.view op).Small ∧ w.mv.apply op ≠ none
  | .recv buffer => ∃ r calls,
      snmpdRecv (luaHandlers w.groups fuel w.lua) w.mib.root w.mv buffer [] = (.ok r, calls)
  | .ask m buffer => (∃ e, requester w.mv sdg = some e ∧
        ∀ v ∈ e.views .read, ¬ Existing w.mib.root (luaInstances w.groups) v) ∧
      (∀ x, Existing w.mib.root (luaInstances w.groups) x → SmallOid x ∧ PortableOid x) ∧
      Asks sdg m w.walk.position ∧ Serialises m buffer ∧ buffer.length < 2 ^ 31 ∧
      ∀ sdg', snmpDecode buffer = .ok sdg' → RequestFits sdg' [0]

/-- The tree, the references and the views keep their invariants, every group can be served, and the
manager asks for OIDs that can be carried. -/
structure GroupWalk.Ok (w : GroupWalk σ τ) : Prop where
  agent : w.agent.Ok
  holds : ∃ bound lost, w.mib.Holds bound lost
  served : w.groups.Served
  small : SmallOid w.walk.position
  portable : PortableOid w.walk.position

lemma GroupWalk.ok_init (s : σ) {start : Oid} (hsmall : SmallOid start) (hstart : PortableOid start) :
    (GroupWalk.init s start : GroupWalk σ τ).Ok where
  agent := Agent.ok_init
  holds := ⟨_, _, holds_init⟩
  served := fun cb p h => by simp at h
  small := hsmall
  portable := hstart

variable {sdg : SnmpDatagram}

/-- A call of the program on the nodes returns, and keeps the invariant. -/
lemma groupStep_node {w : GroupWalk σ τ} (hw : w.Ok)
    {call : NodeCall (Group σ × String)} (h : GroupFair (fuel + 1) sdg w (.node call)) :
    ∃ mib, groupStep (fuel + 1) w (.node call) = some { w with mib } ∧
      GroupWalk.Ok { w with mib } := by
  obtain ⟨bound, lost, hholds⟩ := hw.holds
  obtain ⟨mib, result, hrun, hholds'⟩ := hholds.apply call
  have heffect := NodeCall.effect_of_apply hrun
  refine ⟨mib, by simp only [groupStep, hrun], ⟨⟨?_, hw.agent.viewRun⟩, ⟨_, _, hholds'⟩, ?_, hw.small,
    hw.portable⟩⟩
  · rcases heffect.root with heq | ⟨op, hop⟩
    · exact (congrArg Reachable heq).mpr hw.agent.reachable
    · exact hw.agent.reachable.apply hop
  · intro cb p hp
    rcases heffect.get hp with hold | ⟨ids, hcall⟩
    · exact hw.served cb p hold
    · exact h ids p hcall

/-- A question takes the next instance that the requester may read. -/
lemma groupStep_ask {w : GroupWalk σ τ} (hw : w.Ok) {m : SnmpMessage} {buffer : List UInt8}
    (h : GroupFair (fuel + 1) sdg w (.ask m buffer)) (hgo : w.walk.ended = false) :
    ∃ next lua, groupStep (fuel + 1) w (.ask m buffer) =
        some { w with lua, walk := w.walk.answer next } ∧
      Jump.Finds (Jump.above (w.readable sdg) w.walk.position) next := by
  obtain ⟨hknown, hinst, hasks, hser, hbuf, hfits⟩ := h
  have hfit : InstancesFit w.mib.root w.groups := fun x hx => ⟨(hinst x hx).1, (hinst x hx).2.length_le⟩
  obtain ⟨hleast, henc⟩ := leastHandlers_lua fuel hw.served hfit w.lua
  have hmoment : Moment w.agent sdg (readHandlers w.groups (fuel + 1) w.lua) (luaInstances w.groups) :=
    ⟨hknown, ⟨_, hleast, henc⟩, fun x hx => (hinst x hx).1⟩
  obtain ⟨s, r, calls, next, hrecv, hread, hfinds⟩ := hmoment.exchange hw.agent hw.small hw.portable
    (fun x hx => (hinst x hx).2) hasks hser hbuf hfits
  -- the groups answer the request as they do in one state
  have hset : ∀ sdg', snmpDecode buffer = .ok sdg' → sdg'.pduHdr.pduType ≠ mibReqSet := by
    intro sdg' hdecode
    obtain ⟨sdg₁, hdecode₁, hcarries, -, -⟩ :=
      snmpdRecv_of_serialises (readHandlers w.groups (fuel + 1) w.lua) w.mib.root w.mv hser hbuf
    obtain rfl := Outcome.ok.inj (hdecode₁.symm.trans hdecode)
    rw [hcarries.pduType, hasks.pduType]
    decide
  obtain ⟨hsame, -⟩ := agree_snmpdRecv (sameReads_luaHandlers (fuel + 1) hw.served w.lua) w.mib.root
    w.mv hset [] (by simp)
  rw [GroupWalk.agent] at hrecv
  refine ⟨next, stateAfter w.groups (fuel + 1) w.lua calls, ?_, hfinds⟩
  simp only [groupStep, hgo, hsame, hrecv, hread]
  rfl

/-- A step goes on with the walk. -/
lemma groupStep_goes {w : GroupWalk σ τ} (hw : w.Ok)
    {i : GroupInput σ} (h : GroupFair (fuel + 1) sdg w i) :
    ∃ w', groupStep (fuel + 1) w i = some w' ∧ w'.Ok ∧
      Walk.Goes w.walk (i.asked sdg w) w'.walk := by
  cases i with
  | node call =>
    obtain ⟨mib, hstep, hok⟩ := groupStep_node fuel hw h
    exact ⟨_, hstep, hok, .rests⟩
  | view op =>
    obtain ⟨hsmall, hne⟩ := h
    obtain ⟨mv, hmv⟩ := Option.ne_none_iff_exists'.mp hne
    have hagent : w.agent.apply (.view op) = some ⟨w.mib.root, mv⟩ := by
      simp [Agent.apply, GroupWalk.agent, hmv]
    refine ⟨{ w with mv }, by simp [groupStep, hmv], ?_, .rests⟩
    exact ⟨hw.agent.apply hsmall hagent, hw.holds, hw.served, hw.small, hw.portable⟩
  | recv buffer =>
    obtain ⟨r, calls, hrecv⟩ := h
    exact ⟨{ w with lua := stateAfter w.groups (fuel + 1) w.lua calls },
      by simp only [groupStep, hrecv], ⟨hw.agent, hw.holds, hw.served, hw.small, hw.portable⟩, .rests⟩
  | ask m buffer =>
    cases hgo : w.walk.ended with
    | true => exact ⟨w, by simp [groupStep, hgo], hw, .ended hgo⟩
    | false =>
      obtain ⟨next, lua, hstep, hfinds⟩ := groupStep_ask fuel hw h hgo
      have hnext : ∀ x, next = some x → SmallOid x ∧ PortableOid x := by
        rintro x rfl
        exact h.2.1 x hfinds.1.1.1
      refine ⟨_, hstep, ⟨hw.agent, hw.holds, hw.served, ?_, ?_⟩, .takes hfinds⟩
      · cases next with
        | none => exact hw.small
        | some x => simpa using (hnext x rfl).1
      · cases next with
        | none => exact hw.portable
        | some x => simpa using (hnext x rfl).2

end Program

/-- A walk of a manager over the groups of a running program. Whatever groups that can be served the
program registers and unregisters, whatever it does to the views, and whatever datagrams are received
between its requests: every request is answered with bytes that the manager can read, the answers
ascend from the start, each is an instance of a group that was registered when it was asked for and that
the requester could read, and an instance that it can read at every question is an answer or still
ahead. -/
theorem groupWalk_changes {σ τ : Type} [RefTable τ (Group σ × String)] (fuel : Nat)
    {sdg : SnmpDatagram} (s : σ) {start : Oid} (hsmall : SmallOid start) (hstart : PortableOid start)
    {inputs : List (GroupInput σ)}
    (hfair : EachStep (groupStep (fuel + 1)) (GroupFair (fuel + 1) sdg)
      (.init s start : GroupWalk σ τ) inputs) :
    ∃ w : GroupWalk σ τ, run (groupStep (fuel + 1)) (.init s start) inputs = some w ∧
      (start :: w.walk.answers).Pairwise (· < ·) ∧
      (∀ x ∈ w.walk.answers, ∃ before m buffer after w₁, inputs = before ++ .ask m buffer :: after ∧
        run (groupStep (fuel + 1)) (.init s start : GroupWalk σ τ) before = some w₁ ∧
        x ∈ w₁.readable sdg) ∧
      ∀ y, start < y → EachStep (groupStep (fuel + 1))
          (fun w i => ∀ S, i.asked sdg w = some S → y ∈ S) (.init s start : GroupWalk σ τ) inputs →
        y ∈ w.walk.answers ∨ w.walk.ended = false ∧ w.walk.position < y := by
  obtain ⟨w, hrun, -, hwalked⟩ := Walk.run_walked
    (fun w i => GroupInput.asked sdg w i) GroupWalk.walk
    (fun w i hw hi => groupStep_goes fuel hw hi) (GroupWalk.ok_init s hsmall hstart)
    (Walk.State.ascending_begin start) hfair
  refine ⟨w, hrun, ?_, ?_, fun y hlt => hwalked.meets y (Walk.State.meets_begin hlt)⟩
  · have hasc := hwalked.ascending
    rwa [Walk.State.Ascending, hwalked.start] at hasc
  · intro x hx
    obtain ⟨before, i, after, w₁, S, hinputs, hrun₁, hasked, hxS⟩ :=
      (hwalked.sound x hx).resolve_left (by simp [GroupWalk.init, Walk.State.begin])
    cases i with
    | node call => cases hasked
    | view op => cases hasked
    | recv buffer => cases hasked
    | ask m buffer =>
      obtain rfl := Option.some.inj hasked
      exact ⟨before, m, buffer, after, w₁, hinputs, hrun₁, hxS⟩

/-! ### A program with one scalar -/

def scalarGroup : Group Unit := AList.singleton 1 (.scalar (constInt sampleGet))

lemma scalarGroup_lookup {objNo : Int} {obj : Object Unit} (h : scalarGroup.lookup objNo = some obj) :
    objNo = 1 ∧ obj = .scalar (constInt sampleGet) := by
  have hmem := AList.mem_lookup_iff.mp h
  rw [scalarGroup, AList.singleton_entries, List.mem_singleton] at hmem
  cases hmem
  exact ⟨rfl, rfl⟩

lemma scalarGroup_variable {v : Variable Unit} (h : VariableIn scalarGroup v) :
    v = constInt sampleGet := by
  cases h with
  | scalar hobj =>
    cases (scalarGroup_lookup hobj).2
    rfl
  | column hobj _ => cases (scalarGroup_lookup hobj).2

lemma scalarGroup_instance {oid : List Int} {v : Variable Unit} {inst : Option InstNo}
    (h : InstanceAt scalarGroup oid v inst) : oid = [1, 0] ∧ v = constInt sampleGet := by
  cases h with
  | scalar hobj =>
    obtain ⟨rfl, hv⟩ := scalarGroup_lookup hobj
    cases hv
    exact ⟨rfl, rfl⟩
  | column hobj _ _ _ => cases (scalarGroup_lookup hobj).2

lemma scalarGroup_served : scalarGroup.Served where
  wellFormed := by
    intro objNo entry h
    cases (scalarGroup_lookup h).2
  sideEffectFree := by
    intro v hv inst s
    rw [scalarGroup_variable hv]
  readable := by
    intro oid v inst hinst
    rw [(scalarGroup_instance hinst).2]
    exact ⟨by decide, fun s => ⟨.num 7, none, s, rfl, by decide, asn1TagInt, _, rfl, rfl⟩⟩
  noError := by
    intro oid v inst hinst s val errStat s' hget
    rw [(scalarGroup_instance hinst).2] at hget
    cases hget
    rfl
  storable := by
    intro v hv inst s val errStat s' tag hget htag _ _
    rw [scalarGroup_variable hv] at hget htag
    cases hget
    cases htag
    exact ⟨1, _, rfl, by decide, fun htag => absurd htag (by decide)⟩
  numbers := by
    rintro oid ⟨v, inst, hinst⟩ id hid
    rw [(scalarGroup_instance hinst).1] at hid
    rcases List.mem_pair.mp hid with rfl | rfl
    · decide
    · decide

/-- The tree and the environment table with the group. -/
def scalarMib : LuaMib (FreeList (Group Unit × String)) :=
  ⟨.group 1 1 [1] [.inst 1], (RefTable.ref RefTable.empty (scalarGroup, "sample")).1⟩

lemma reachable_scalarMib : Reachable scalarMib.root := ⟨[.reg [1] 1], rfl⟩

lemma get_scalarMib {cb : Int} {p : Group Unit × String}
    (h : RefTable.get scalarMib.env cb = some p) : p = (scalarGroup, "sample") := by
  by_cases hcb : cb = (1 : Int)
  · subst hcb
    cases h
    rfl
  · have hnone : RefTable.get scalarMib.env cb = none :=
      RefTable.get_ref_ne RefTable.empty (scalarGroup, "sample") cb hcb
    rw [hnone] at h
    cases h

lemma occurs_scalarMib {p : Oid} {cb : Int} (h : Occurs scalarMib.root p (.inst cb)) :
    p = [1] ∧ cb = 1 := by
  have hmem := (reachable_scalarMib.rootOk.1.mem_leaves_iff p cb).mpr h
  simpa [scalarMib, MibNode.leaves, MibNode.leavesList, under] using hmem

lemma existing_scalarMib {x : Oid}
    (h : Existing scalarMib.root (luaInstances fun cb => RefTable.get scalarMib.env cb) x) :
    x = [1, 1, 0] := by
  obtain ⟨p, cb, a, hocc, ⟨q, hq, v, inst, hinst⟩, rfl⟩ := h
  obtain ⟨rfl, rfl⟩ := occurs_scalarMib hocc
  cases get_scalarMib hq
  have hnumbers : idNumbers a = idNumbers [1, 0] := (scalarGroup_instance hinst).1
  rw [idNumbers_injective hnumbers]
  rfl

/-- The group and a community are registered, a datagram that is no message is received, and a manager
asks for what comes after 0.0. -/
def sampleGroupWalk : List (GroupInput Unit) :=
  [.node (.reg [1] (some (scalarGroup, "sample"))), .view (.reg .community [1] [112] .write), .recv [0],
    .ask sampleAsk sampleAskBytes]

lemma groupFair_sampleAsk : GroupFair 1 sampleGetnext ⟨scalarMib, sampleViews, (), .begin [0, 0]⟩
    (.ask sampleAsk sampleAskBytes) := by
  refine ⟨⟨⟨[112], [[1]], [[1]]⟩, by decide, ?_⟩, ?_, ?_, sampleAsk_serialises, by decide, ?_⟩
  · intro v hv
    obtain rfl : v = [1] := by simpa [ViewEntry.views] using hv
    exact fun h => absurd (existing_scalarMib h) (by decide)
  · intro x hx
    rw [existing_scalarMib hx]
    exact ⟨by simp [SmallOid], by decide, by decide, by decide, by decide, by decide⟩
  · exact ⟨rfl, rfl, by simp [sampleAsk], rfl, rfl, rfl⟩
  · intro sdg hsdg
    obtain rfl := Outcome.ok.inj (snmpDecode_sampleAskBytes.symm.trans hsdg)
    exact requestFits_sampleAskRead

theorem groupWalk_changes_sampleGroupWalk : ∃ w : GroupWalk Unit (FreeList (Group Unit × String)),
    run (groupStep 1) (.init () [0, 0]) sampleGroupWalk = some w ∧
    ([0, 0] :: w.walk.answers).Pairwise (· < ·) := by
  have hsmall : SmallOid [0, 0] := by simp [SmallOid]
  have hreg : (AgentOp.view (.reg .community [1] [112] .write)).Small := by
    simp [AgentOp.Small, SmallOid]
  have hfair : EachStep (groupStep 1) (GroupFair 1 sampleGetnext)
      (.init () [0, 0] : GroupWalk Unit (FreeList (Group Unit × String))) sampleGroupWalk := by
    refine ⟨fun ids p hp => ?_, fun w hw => ?_⟩
    · cases hp
      exact scalarGroup_served
    obtain rfl := Option.some.inj hw
    refine ⟨⟨hreg, by simp [MibViews.apply]⟩, fun w hw => ?_⟩
    obtain rfl := Option.some.inj hw
    refine ⟨⟨none, [], rfl⟩, fun w hw => ?_⟩
    obtain rfl := Option.some.inj hw
    exact ⟨groupFair_sampleAsk, fun _ _ => trivial⟩
  obtain ⟨w, hrun, hasc, -⟩ := groupWalk_changes 0 () hsmall
    ⟨by decide, by decide, by decide, by decide, by decide⟩ hfair
  exact ⟨w, hrun, hasc⟩

end Lua

end SmartSnmp
