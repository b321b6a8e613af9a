import SmartSnmp.Lua.Walk

/-!
# What nobody may write

What is observed of the state of a program depends on some of its variables. It changes only if one of
these is set, and then a write view of the requester covers its OID. So it stays as it is through every
run in which no datagram comes from a requester with such a view.
-/

namespace SmartSnmp

/-! ### The calls of a datagram -/

section Calls

variable {root : MibNode} {ops : List ViewOp} {mv : MibViews}

/-- Each call for SET is for an OID that a write view covers. -/
lemma SetCalls.covered {sdg : SnmpDatagram} {vbs : List VarBind} {new : List Call}
    (h : SetCalls root mv sdg vbs (new.filter fun c => c.op = .set)) {c : Call} (hc : c ∈ new)
    (hop : c.op = .set) : ∃ x, c.IsFor root x ∧ Covered mv sdg .write x := by
  obtain ⟨called, -, hall⟩ := h
  have hmem : c ∈ new.filter fun c => c.op = .set := List.mem_filter.mpr ⟨hc, by simp [hop]⟩
  obtain ⟨i, hi, rfl⟩ := List.mem_iff_getElem.mp hmem
  have hi' : i < called.length := hall.length_eq ▸ hi
  obtain ⟨-, hfor, hcov⟩ := hall.get hi hi'
  exact ⟨_, hfor, hcov⟩

/-- A handler is called for SET at OIDs that a write view of the requester of the datagram covers. -/
lemma snmpdRecv_setCalls (hroot : RootOk root) (hrun : ViewRun ops mv) (handlers : Handlers)
    (buffer : List UInt8) : Traced.Spec (snmpdRecv handlers root mv buffer) [] fun _ new =>
      ∀ c ∈ new, c.op = .set → ∃ sdg x, snmpDecode buffer = .ok sdg ∧ c.IsFor root x ∧
        Covered mv sdg .write x := by
  rw [snmpdRecv]
  rcases recvCheck buffer.length buffer with (_ | _) | _ | _
  · exact Traced.spec_pure (by simp)
  · cases hdec : snmpDecode buffer with
    | crash => exact Traced.spec_crash (by simp)
    | fuel => exact Traced.spec_outOfFuel (by simp)
    | ok sdg =>
      by_cases hset : sdg.pduHdr.pduType = mibReqSet
      · have hcalls : ∀ new : List Call, SetCalls root mv sdg.setResponse sdg.setResponse.vbInList
              (new.filter fun c => c.op = .set) →
            ∀ c ∈ new, c.op = .set → ∃ sdg' x, Outcome.ok sdg = .ok sdg' ∧ c.IsFor root x ∧
              Covered mv sdg' .write x := by
          intro new hnew c hc hop
          obtain ⟨x, hfor, hcov⟩ := hnew.covered hc hop
          exact ⟨sdg, x, rfl, hfor, hcov⟩
        simp only [snmpRequestDispatch, requestFunction, hset]
        refine Traced.spec_bind (snmpSet_calls hroot hrun sdg.setResponse []) ?_ ?_ ?_
        · intro r new hnew
          refine Traced.spec_pure ?_
          rw [List.append_nil]
          exact hcalls new hnew
        · exact hcalls
        · exact hcalls
      · have hself : SameReads handlers handlers := fun _ _ _ _ => rfl
        have hreads := agree_snmpRequestDispatch hself root mv hset
        refine (hreads [] (by simp)).2.mono fun out new hnew c hc hop => ?_
        exact absurd hop (hnew.1 c hc)
  · exact Traced.spec_crash (by simp)
  · exact Traced.spec_outOfFuel (by simp)

end Calls

namespace Lua

open MibNode Run

/-! ### Calls of SET -/

section Set

variable {σ : Type}

/-- After its checks a SET does to the state what `set_f` does, whatever becomes of the result. -/
lemma finalState_mibNodeSearch_set {group : Group σ} {name : String} {oid : List Int}
    {valType : Option UInt8} {v : Variable σ} {inst : Option InstNo}
    (h : groupTarget group name oid valType = some (v, inst)) (fuel : Nat) (val : LuaValue) (s : σ) :
    finalState (mibNodeSearch group name fuel .set oid val valType s) =
      finalState (callSet v inst val s) := by
  rw [groupTarget] at h
  rw [mibNodeSearch]
  cases hgen : groupIndexTableGenerator group name with
  | error e => simp [hgen] at h
  | ok tab =>
    simp only [hgen] at h
    rw [ofExcept_ok_bind, handleSet]
    rcases htarget : setTarget group tab oid valType with e | errStat | target
    · simp [htarget] at h
    · simp [htarget] at h
    · obtain rfl : target = (v, inst) := by simpa [htarget] using h
      rw [ofExcept_ok_bind]
      cases hrun : callSet v inst val s with
      | error e s' =>
        simp only [bind_error hrun]
        rfl
      | ok errStat s' =>
        simp only [bind_ok hrun]
        exact ((still_ofExcept _).bind fun _ => still_pure _) s'

/-- A call of SET does to the state what `set_f` does, or nothing. -/
lemma finalState_setCall {groups : Registered σ} {call : Call} (hset : call.op = .set) (fuel : Nat)
    (s : σ) : finalState (mibSearchHandler groups fuel call s) = s ∨
      ∃ v inst, setCallTarget groups call = some (v, inst) ∧
        finalState (mibSearchHandler groups fuel call s) = finalState (callSet v inst call.val s) := by
  cases htarget : setCallTarget groups call with
  | none => exact .inl (mibSearchHandler_refused hset fuel s htarget)
  | some target =>
    obtain ⟨v, inst⟩ := target
    obtain ⟨p, hgroup, hp⟩ := Option.bind_eq_some_iff.mp htarget
    refine .inr ⟨v, inst, rfl, ?_⟩
    rw [mibSearchHandler, hgroup]
    simp only [hset]
    exact finalState_mibNodeSearch_set hp fuel call.val s

end Set

/-! ### What is observed -/

section Observed

variable {σ τ β : Type} [RefTable τ (Group σ × String)] (obs : σ → β) (R : Set Oid)

/-- What is observed depends on the variables with these OIDs: the methods `set_f` of the others leave it
as it is. -/
def DependsOn (root : MibNode) (groups : Registered σ) : Prop :=
  ∀ p c v inst, Occurs root p (.inst c.callback) → setCallTarget groups c = some (v, inst) →
    p ++ c.subOid ∉ R → ∀ val s, obs (finalState (callSet v inst val s)) = obs s

/-- The sender of the datagram may not write these OIDs, on which what is observed depends. -/
def Harmless (w : GroupWalk σ τ) (buffer : List UInt8) : Prop :=
  (∀ sdg, snmpDecode buffer = .ok sdg → ∀ x ∈ R, ¬ Covered w.mv sdg .write x) ∧
    DependsOn obs R w.mib.root w.groups

/-- The methods `get_f` of the groups that are registered have no effect, and the datagrams are
harmless. -/
def Confined (w : GroupWalk σ τ) : GroupInput σ → Prop
  | .node call => ∀ ids p, call = .reg ids (some p) → SideEffectFree p.1
  | .view _ => True
  | .recv buffer => Harmless obs R w buffer
  | .ask _ buffer => Harmless obs R w buffer

/-- What every run keeps of the tree, the views and the groups. -/
structure GroupWalk.Sound (w : GroupWalk σ τ) : Prop where
  root : RootOk w.mib.root
  viewRun : ∃ ops, ViewRun ops w.mv
  sideEffectFree : ∀ cb p, w.groups cb = some p → SideEffectFree p.1

variable {obs R} (fuel : Nat) {w w' : GroupWalk σ τ}

/-- A harmless datagram has no effect on what is observed. -/
lemma GroupWalk.Sound.obs_stateAfter (h : w.Sound) {buffer : List UInt8}
    (hharm : Harmless obs R w buffer) :
    obs (stateAfter w.groups fuel w.lua
      (snmpdRecv (luaHandlers w.groups fuel w.lua) w.mib.root w.mv buffer []).2) = obs w.lua := by
  obtain ⟨ops, hrun⟩ := h.viewRun
  obtain ⟨new, hnew, hset⟩ :=
    snmpdRecv_setCalls h.root hrun (luaHandlers w.groups fuel w.lua) buffer
  rw [hnew, List.nil_append]
  -- each call keeps it, in every state
  have hcall : ∀ c ∈ new, ∀ s, obs (finalState (mibSearchHandler w.groups fuel c s)) = obs s := by
    intro c hc s
    by_cases hop : c.op = .set
    · rcases finalState_setCall hop fuel s with heq | ⟨v, inst, htarget, heq⟩
      · rw [heq]
      · obtain ⟨sdg, x, hdec, ⟨p, hocc, rfl⟩, hcov⟩ := hset c hc hop
        rw [heq]
        exact hharm.2 p c v inst hocc htarget (fun hR => hharm.1 sdg hdec _ hR hcov) c.val s
    · have hstill : finalState (mibSearchHandler w.groups fuel c s) = s := by
        rw [mibSearchHandler]
        cases hgroup : w.groups c.callback with
        | none => rfl
        | some p => exact still_mibNodeSearch (h.sideEffectFree c.callback p hgroup) p.2 fuel hop _ _ _ s
      rw [hstill]
  generalize w.lua = s
  clear hset hnew
  induction new generalizing s with
  | nil => rfl
  | cons c new ih =>
    rw [stateAfter_cons, ih (fun c' hc' => hcall c' (List.mem_cons_of_mem c hc'))]
    exact hcall c List.mem_cons_self s

/-- A step keeps what is observed. -/
lemma GroupWalk.Sound.step (h : w.Sound) {i : GroupInput σ} (hi : Confined obs R w i)
    (hstep : groupStep fuel w i = some w') : w'.Sound ∧ obs w'.lua = obs w.lua := by
  cases i with
  | node call =>
    simp only [groupStep] at hstep
    cases hrun : call.apply w.mib with
    | ok r =>
      rw [hrun] at hstep
      obtain rfl := Option.some.inj hstep
      have heffect := NodeCall.effect_of_apply hrun
      refine ⟨⟨?_, h.viewRun, fun cb p hp => ?_⟩, rfl⟩
      · rcases heffect.root with heq | ⟨op, hop⟩
        · exact (congrArg RootOk heq).mpr h.root
        · obtain ⟨root', hop', hroot'⟩ := h.root.apply op
          obtain rfl := Outcome.ok.inj (hop.symm.trans hop')
          exact hroot'
      · rcases heffect.get hp with hold | ⟨ids, hcall⟩
        · exact h.sideEffectFree cb p hold
        · exact hi ids p hcall
    | crash => simp [hrun] at hstep
    | fuel => simp [hrun] at hstep
  | view op =>
    obtain ⟨mv, hmv, rfl⟩ := Option.map_eq_some_iff.mp hstep
    obtain ⟨ops, hrun⟩ := h.viewRun
    exact ⟨⟨h.root, ⟨op :: ops, hrun.snoc (MibViews.viewStep_of_apply hmv)⟩, h.sideEffectFree⟩, rfl⟩
  | recv buffer =>
    have hobs := h.obs_stateAfter fuel hi
    simp only [groupStep] at hstep
    rcases hrun : snmpdRecv (luaHandlers w.groups fuel w.lua) w.mib.root w.mv buffer [] with ⟨out, calls⟩
    rw [hrun] at hstep hobs
    cases out with
    | ok r =>
      obtain rfl := Option.some.inj hstep
      exact ⟨⟨h.root, h.viewRun, h.sideEffectFree⟩, hobs⟩
    | crash => cases hstep
    | fuel => cases hstep
  | ask m buffer =>
    have hobs := h.obs_stateAfter fuel hi
    simp only [groupStep] at hstep
    split_ifs at hstep
    · obtain rfl := Option.some.inj hstep
      exact ⟨h, rfl⟩
    · rcases hrun : snmpdRecv (luaHandlers w.groups fuel w.lua) w.mib.root w.mv buffer [] with
        ⟨out, calls⟩
      rw [hrun] at hstep hobs
      rcases out with (_ | ⟨s, r⟩) | _ | _
      · cases hstep
      · obtain ⟨next, -, rfl⟩ := Option.map_eq_some_iff.mp hstep
        exact ⟨⟨h.root, h.viewRun, h.sideEffectFree⟩, hobs⟩
      · cases hstep
      · cases hstep

end Observed

lemma sideEffectFree_storedScalar : SideEffectFree (storedScalar asn1TagInt).group := by
  have hlookup : ∀ objNo obj, (storedScalar asn1TagInt).group.lookup objNo = some obj →
      obj = .scalar (storedScalar asn1TagInt).scalar := by
    intro objNo obj h
    have hmem := AList.mem_lookup_iff.mp h
    rw [storedScalar, AList.singleton_entries, List.mem_singleton] at hmem
    cases hmem
    rfl
  intro v hv inst s
  cases hv with
  | scalar hobj =>
    cases hlookup _ _ hobj
    rfl
  | column hobj _ => cases hlookup _ _ hobj

/-- The request of a community to set 1.1.0. -/
def sampleSetBytes : List UInt8 :=
  [0x30, 28] ++ ([2, 1, 1] ++ ([4, 1, 112] ++
    ([0xa3, 20] ++ ([2, 1, 7] ++ ([2, 1, 0] ++ ([2, 1, 0] ++
      ([0x30, 9] ++ ([0x30, 7] ++ ([6, 2, 41, 0] ++ [2, 1, 5])))))))))

lemma snmpDecode_sampleSetBytes {sdg : SnmpDatagram} (h : snmpDecode sampleSetBytes = .ok sdg) :
    sdg.version = 1 ∧ cString sdg.contextName = [112] := by
  have hdec : (snmpDecode sampleSetBytes).map (fun sdg => (sdg.version, cString sdg.contextName)) =
      .ok (1, [112]) := by decide +kernel
  rw [h] at hdec
  exact Prod.mk.inj (Outcome.ok.inj hdec)

/-- The scalar is registered at 1, and the community may write below 2. -/
def sampleSetRun : List (GroupInput LuaValue) :=
  [.node (.reg [1] (some ((storedScalar asn1TagInt).group, "stored"))),
    .view (.reg .community [2] [112] .write), .recv sampleSetBytes]

end Lua

end SmartSnmp
