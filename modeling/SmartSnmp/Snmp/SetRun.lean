import SmartSnmp.Lua.Callbacks
import SmartSnmp.Snmp.Lengths

/-!
# What a SET request does to the variables

The varbinds of a SET request are processed one after the other, and nothing is undone. A varbind by
itself is all or nothing: if it ends with an error status, no call for it has succeeded.
-/

namespace SmartSnmp

/-! ### The calls for a varbind -/

/-- None of the calls `new` made after `l` succeeds. -/
def NoneSucceeds (handlers : Handlers) : List Call → List Call → Prop
  | _, [] => True
  | l, c :: new => ¬ (handlers l c).Succeeds ∧ NoneSucceeds handlers (l ++ [c]) new

lemma NoneSucceeds.append {handlers : Handlers} {l new new' : List Call}
    (h : NoneSucceeds handlers l new) (h' : NoneSucceeds handlers (l ++ new) new') :
    NoneSucceeds handlers l (new ++ new') := by
  induction new generalizing l with
  | nil => simpa using h'
  | cons c new ih => exact ⟨h.1, ih h.2 (by simpa using h')⟩

/-- How the search for an OID of a SET request ends, and the calls it has made. -/
structure SearchCalls (handlers : Handlers) (oid : Oid) (l : List Call) (out : Outcome OidSearchRes)
    (new : List Call) : Prop where
  calls : ∀ c ∈ new, c.op = .set ∧ c.subOid <:+ oid
  request : ∀ ret, out = .ok ret → ret.request = .set
  result : ∀ ret, out = .ok ret → ret.Succeeded ∨ NoneSucceeds handlers l new

section Search

variable {handlers : Handlers} {root : MibNode} {mv : MibViews} {ret : OidSearchRes}

/-- No calls. -/
lemma searchCalls_nil {oid : Oid} {l : List Call} {out : Outcome OidSearchRes}
    (h : ∀ ret, out = .ok ret → ret.request = .set) : SearchCalls handlers oid l out [] :=
  ⟨by simp, h, fun _ _ => .inr trivial⟩

lemma searchCalls_pure {oid : Oid} {l : List Call} (hset : ret.request = .set) :
    Traced.Spec (pure ret) l (SearchCalls handlers oid l) := by
  refine Traced.spec_pure (searchCalls_nil fun ret' h => ?_)
  rw [← Outcome.ok.inj h]
  exact hset

lemma searchCalls_mibInstanceSearch (hset : ret.request = .set) {oid : Oid} (hsuffix : ret.instId <:+ oid)
    (l : List Call) :
    Traced.Spec (mibInstanceSearch handlers ret) l (SearchCalls handlers oid l) := by
  have hcall : ∀ c ∈ [ret.call], c.op = .set ∧ c.subOid <:+ oid := by
    intro c hc
    rw [List.mem_singleton.mp hc, OidSearchRes.call, if_pos hset]
    exact ⟨rfl, hsuffix⟩
  refine ⟨[ret.call], by rw [mibInstanceSearch_apply], ?_⟩
  rw [mibInstanceSearch_apply]
  cases hrec : ret.receive (handlers l ret.call) with
  | none => exact ⟨hcall, by simp, by simp⟩
  | some ret' =>
    refine ⟨hcall, fun r hr => ?_, fun r hr => ?_⟩
    · rw [← Outcome.ok.inj hr]
      exact (OidSearchRes.receive_frame hrec).1.trans hset
    · rw [← Outcome.ok.inj hr]
      by_cases hreply : (handlers l ret.call).Succeeds
      · exact .inl (OidSearchRes.succeeded_of_receive hset hrec hreply)
      · exact .inr ⟨hreply, trivial⟩

lemma searchCalls_mibTreeSearchLoop (hset : ret.request = .set) (pos : Nat) (node : MibNode)
    {oid orig : Oid} (hsuffix : oid <:+ orig) (l : List Call) :
    Traced.Spec (do
      let r ← mibTreeSearchLoop handlers ret pos node oid
      pure r.2) l (SearchCalls handlers orig l) := by
  induction oid generalizing pos node with
  | nil => cases node <;> exact searchCalls_pure hset
  | cons x xs ih =>
    cases node with
    | null => exact searchCalls_pure hset
    | inst cb =>
      have hask : ({ ret with instPos := pos, instId := x :: xs, callback := cb } :
          OidSearchRes).request = .set := hset
      simp only [mibTreeSearchLoop, Traced.bind_assoc, Traced.pure_bind, Traced.bind_pure]
      exact searchCalls_mibInstanceSearch hask hsuffix l
    | group cap cnt subId subPtr =>
      rw [mibTreeSearchLoop]
      by_cases hi : 0 ≤ oidBinarySearch subId cnt x
      · rw [if_pos hi]
        cases subPtr[(oidBinarySearch subId cnt x).toNat]? with
        | none => exact Traced.spec_crash ⟨by simp, by simp, by simp⟩
        | some child => exact ih (pos + 1) child ((List.suffix_cons x xs).trans hsuffix)
      · rw [if_neg hi]
        exact searchCalls_pure hset

lemma searchCalls_searchAt (hset : ret.request = .set) (oid view : Oid) (l : List Call) :
    Traced.Spec (searchAt handlers root oid view ret) l (SearchCalls handlers oid l) := by
  rw [searchAt, mibTreeSearch]
  by_cases hcover : oidCover view oid ≤ 0
  · simp only [if_pos hcover, Traced.pure_bind]
    exact searchCalls_pure hset
  · simp only [if_neg hcover]
    have hstart : ({ ret with oid := oid, errStat := 0 } : OidSearchRes).request = .set := hset
    exact searchCalls_mibTreeSearchLoop hstart 0 root (List.suffix_refl oid) l

/-- A result that is not final is not a success, so no call before the next view has succeeded. -/
lemma searchCalls_viewLoop (next : Option Oid → Option Oid) (oid : Oid) (hset : ret.request = .set)
    (fuel : Nat) (view : Option Oid) (l : List Call) :
    Traced.Spec (viewLoop next (searchAt handlers root oid) (getFinal oid) oid fuel view ret) l
      (SearchCalls handlers oid l) := by
  induction fuel generalizing view ret l with
  | zero => exact Traced.spec_outOfFuel ⟨by simp, by simp, by simp⟩
  | succ fuel ih =>
    rw [viewLoop]
    cases next view with
    | none => exact searchCalls_pure hset
    | some v =>
      refine Traced.spec_bind (searchCalls_searchAt hset oid v l) ?_ ?_ ?_
      · intro ret' new h
        by_cases hfinal : getFinal oid v ret' = true
        · rw [if_pos hfinal]
          apply Traced.spec_pure
          rw [List.append_nil]
          exact h
        · rw [if_neg hfinal]
          have hnone : NoneSucceeds handlers l new := by
            refine (h.result ret' rfl).resolve_left fun hok => hfinal ?_
            simp [getFinal, hok.1, hok.2]
          refine (ih (h.request ret' rfl) (some v) (l ++ new)).mono fun out new' h' =>
            ⟨fun c hc => ?_, h'.request, fun r hr => (h'.result r hr).imp_right hnone.append⟩
          exact (List.mem_append.mp hc).elim (h.calls c) (h'.calls c)
      · intro new h
        exact ⟨h.calls, by simp, by simp⟩
      · intro new h
        exact ⟨h.calls, by simp, by simp⟩

lemma searchCalls_mibSet (hset : ret.request = .set) (sdg : SnmpDatagram) (vb : VarBind)
    (l : List Call) :
    Traced.Spec (mibSet handlers root mv sdg vb ret) l (SearchCalls handlers vb.oid l) := by
  have hcheck : ∀ e, (checkAccess e ret).request = .set := by
    intro e
    rw [checkAccess]
    split_ifs
    · exact hset
    · exact hset
  exact searchCalls_viewLoop _ vb.oid (hcheck _) _ none l

lemma not_succeeded_of_setStatus (h : (setStatus ret).errStat ≠ 0) : ¬ ret.Succeeded := by
  rintro ⟨herr, htag⟩
  rw [setStatus, if_neg (by simp [htag])] at h
  exact h herr

/-- How an iteration of `snmp_set` ends, and the calls it has made. If the varbind ends with an error
status, none of its calls has succeeded. -/
structure StepCalls (handlers : Handlers) (vb : VarBind) (s : ProcState) (l : List Call)
    (out : Outcome ProcState) (new : List Call) : Prop where
  calls : ∀ c ∈ new, c.op = .set ∧ c.subOid <:+ vb.oid
  result : ∀ s', out = .ok s' → s'.ret.request = .set ∧ ∃ e, s'.reports = s.reports ++ [e] ∧
    (e.1.errStat ≠ 0 → NoneSucceeds handlers l new)

lemma stepCalls_setStep {s : ProcState} (hset : s.ret.request = .set) (vb : VarBind) (l : List Call) :
    Traced.Spec (setStep handlers root mv s vb) l (StepCalls handlers vb s l) := by
  rw [setStep, processVarBind]
  cases hdec : decodeValue vb s.ret with
  | none => exact Traced.spec_crash ⟨by simp, by simp⟩
  | some ret₁ =>
    have hset₁ : ret₁.request = .set := (decodeValue_request hdec).trans hset
    refine Traced.spec_bind (searchCalls_mibSet hset₁ s.sdg vb l) ?_ ?_ ?_
    · intro ret new h
      cases hout : setVarBind vb ret with
      | none =>
        refine Traced.spec_crash ?_
        rw [List.append_nil]
        exact ⟨h.calls, by simp⟩
      | some vbOut =>
        refine Traced.spec_pure ?_
        rw [List.append_nil]
        refine ⟨h.calls, ?_⟩
        rintro s' ⟨⟩
        refine ⟨(setStatus_request ret).trans (h.request ret rfl), (setStatus ret, vbOut), rfl, ?_⟩
        exact fun herr => (h.result ret rfl).resolve_left (not_succeeded_of_setStatus herr)
    · exact fun new h => ⟨h.calls, by simp⟩
    · exact fun new h => ⟨h.calls, by simp⟩

end Search

/-! ### Runs -/

section Run

open Lua

variable {σ : Type}

/-- What a call for a varbind does to the variables: nothing if the object, the access, the instance
or the type is refused, else what `set_f` does. If the varbind has `failed`, then so has `set_f`. The
value has to have the type of its tag. -/
structure CallEffect (groups : Registered σ) (failed : Prop) (c : Call) (s s' : σ) : Prop where
  refused : setCallTarget groups c = none → s' = s
  applied : ∀ v inst, setCallTarget groups c = some (v, inst) → HasTagType c.val c.valType →
    s' = finalState (callSet v inst c.val s) ∧ (failed → SetFails (callSet v inst c.val s))

/-- The calls for a varbind take the variables from one state to another. -/
inductive VarBindRun (groups : Registered σ) (vb : VarBind) (failed : Prop) :
    List Call → σ → σ → Prop
  | done (s : σ) : VarBindRun groups vb failed [] s s
  | call {c : Call} {cs : List Call} {s s₁ s' : σ} : c.op = .set → c.subOid <:+ vb.oid →
      CallEffect groups failed c s s₁ → VarBindRun groups vb failed cs s₁ s' →
      VarBindRun groups vb failed (c :: cs) s s'

/-- The varbinds, each with its error status and its calls, take the variables one after the other
from one state to another. -/
inductive SetRun (groups : Registered σ) : List VarBind → List Int32 → List Call → σ → σ → Prop
  | nil (s : σ) : SetRun groups [] [] [] s s
  | cons {vb : VarBind} {vbs : List VarBind} {e : Int32} {es : List Int32} {cs cs' : List Call}
      {s s₁ s' : σ} : VarBindRun groups vb (e ≠ 0) cs s s₁ → SetRun groups vbs es cs' s₁ s' →
      SetRun groups (vb :: vbs) (e :: es) (cs ++ cs') s s'

/-- The varbinds up to one of them, within which the process may have stopped. -/
inductive SetPart (groups : Registered σ) : List VarBind → List Call → σ → σ → Prop
  | stop (vbs : List VarBind) (s : σ) : SetPart groups vbs [] s s
  | last {vb : VarBind} {vbs : List VarBind} {cs : List Call} {s s' : σ} :
      VarBindRun groups vb False cs s s' → SetPart groups (vb :: vbs) cs s s'
  | cons {vb : VarBind} {vbs : List VarBind} {e : Int32} {cs cs' : List Call} {s s₁ s' : σ} :
      VarBindRun groups vb (e ≠ 0) cs s s₁ → SetPart groups vbs cs' s₁ s' →
      SetPart groups (vb :: vbs) (cs ++ cs') s s'

variable {groups : Registered σ} {fuel : Nat} {st : σ}

lemma varBindRun_of_calls {vb : VarBind} {failed : Prop} {new : List Call}
    (hcalls : ∀ c ∈ new, c.op = .set ∧ c.subOid <:+ vb.oid) {l : List Call}
    (hfailed : failed → NoneSucceeds (luaHandlers groups fuel st) l new) :
    VarBindRun groups vb failed new (stateAfter groups fuel st l)
      (stateAfter groups fuel st (l ++ new)) := by
  induction new generalizing l with
  | nil =>
    rw [List.append_nil]
    exact .done _
  | cons c new ih =>
    obtain ⟨⟨hset, hsuffix⟩, hcalls⟩ := List.forall_mem_cons.mp hcalls
    have hrest := @ih hcalls (l ++ [c]) fun h => (hfailed h).2
    rw [List.append_assoc, List.singleton_append] at hrest
    refine .call hset hsuffix ⟨fun htarget => ?_, fun v inst htarget htype => ⟨?_, fun h => ?_⟩⟩ hrest
    · rw [stateAfter_append, stateAfter_cons, stateAfter_nil]
      exact mibSearchHandler_refused hset fuel _ htarget
    · rw [stateAfter_append, stateAfter_cons, stateAfter_nil]
      exact finalState_applied hset fuel _ htarget htype
    · exact setFails_of_not_succeeds hset fuel _ htarget htype (hfailed h).1

/-- How the loop over the varbinds ends, and what it has made of the variables. -/
structure LoopRun (groups : Registered σ) (vbs : List VarBind) (s : ProcState) (out : Outcome ProcState)
    (new : List Call) (st st' : σ) : Prop where
  whole : ∀ s', out = .ok s' → ∃ es, s'.reports.map (fun e => e.1.errStat) =
    s.reports.map (fun e => e.1.errStat) ++ es ∧ SetRun groups vbs es new st st'
  part : SetPart groups vbs new st st'

lemma foldlM_setStep_run {root : MibNode} {mv : MibViews} (vbs : List VarBind) {s : ProcState}
    (hset : s.ret.request = .set) (l : List Call) :
    Traced.Spec (vbs.foldlM (setStep (luaHandlers groups fuel st) root mv) s) l fun out new =>
      LoopRun groups vbs s out new (stateAfter groups fuel st l) (stateAfter groups fuel st (l ++ new)) := by
  induction vbs generalizing s l with
  | nil =>
    refine Traced.spec_pure ?_
    rw [List.append_nil]
    refine ⟨?_, .stop [] _⟩
    rintro s' ⟨⟩
    exact ⟨[], by simp, .nil _⟩
  | cons vb vbs ih =>
    rw [List.foldlM_cons]
    have hstopped : ∀ {out new}, StepCalls (luaHandlers groups fuel st) vb s l out new →
        SetPart groups (vb :: vbs) new (stateAfter groups fuel st l)
          (stateAfter groups fuel st (l ++ new)) :=
      fun h => .last (varBindRun_of_calls h.calls False.elim)
    refine Traced.spec_bind (stepCalls_setStep hset vb l) ?_ ?_ ?_
    · intro s₁ new h
      obtain ⟨hset₁, e, hreports, hfailed⟩ := h.result s₁ rfl
      have hvb := varBindRun_of_calls h.calls hfailed
      refine (ih hset₁ (l ++ new)).mono fun out new' h' => ?_
      rw [← List.append_assoc]
      refine ⟨fun s' hs' => ?_, .cons hvb h'.part⟩
      obtain ⟨es, hes, hrest⟩ := h'.whole s' hs'
      refine ⟨e.1.errStat :: es, ?_, .cons hvb hrest⟩
      rw [hes, hreports, List.map_append, List.append_assoc]
      rfl
    · exact fun new h => ⟨by simp, hstopped h⟩
    · exact fun new h => ⟨by simp, hstopped h⟩

lemma VarBindRun.eq_of_refused {vb : VarBind} {failed : Prop} {cs : List Call} {s s' : σ}
    (h : VarBindRun groups vb failed cs s s') (hcs : ∀ c ∈ cs, setCallTarget groups c = none) :
    s' = s := by
  induction h with
  | done s => rfl
  | call _ _ heffect _ ih =>
    obtain ⟨hc, hcs⟩ := List.forall_mem_cons.mp hcs
    rw [ih hcs, heffect.refused hc]

/-- Calls that are refused change nothing. -/
lemma SetPart.eq_of_refused {vbs : List VarBind} {cs : List Call} {s s' : σ}
    (h : SetPart groups vbs cs s s') (hcs : ∀ c ∈ cs, setCallTarget groups c = none) : s' = s := by
  induction h with
  | stop vbs s => rfl
  | last hvb => exact hvb.eq_of_refused hcs
  | cons hvb _ ih =>
    rw [ih fun c hc => hcs c (List.mem_append_right _ hc),
      hvb.eq_of_refused fun c hc => hcs c (List.mem_append_left _ hc)]

end Run

/-! ### A request that is partly applied -/

section Sample

open Lua

/-- An integer variable. -/
def integerVariable : Lua.Variable Int :=
  Lua.int (fun _ => do pure (.num (← get), none)) fun _ val =>
    match val with
    | .num n => do
      set n
      pure none
    | _ => pure (some 5)

/-- A group with one integer, for the callback of `oneInstance`. -/
def integerGroups : Registered Int := fun callback =>
  if callback = 7 then some (AList.singleton 1 (.scalar integerVariable), "integer") else none

/-- A request that sets the integer to five, and an object that the group does not have. -/
def setKnownAndUnknown : SnmpDatagram := { sampleGetnext with
  pduHdr := { sampleGetnext.pduHdr with pduType := mibReqSet }
  vbInList := [⟨[1, 1, 0], 0, asn1TagInt, [5]⟩, ⟨[1, 2, 0], 0, asn1TagInt, [6]⟩]
  vbInCnt := 2 }

/-- The error status of each varbind and of the response, and the integer after the request. -/
def integerSummary (run : Outcome (Option (ProcState × Response)) × List Call) :
    Option (List Int32 × Int32 × Int) :=
  match run with
  | (.ok (some (s, _)), l') => some (s.reports.map fun e => e.1.errStat, s.sdg.pduHdr.errStat,
      stateAfter integerGroups 0 0 l')
  | _ => none

lemma integerSummary_eq_some {run : Outcome (Option (ProcState × Response)) × List Call}
    {statuses : List Int32} {errStat : Int32} {n : Int}
    (h : integerSummary run = some (statuses, errStat, n)) : ∃ s r l',
      run = (.ok (some (s, r)), l') ∧ s.reports.map (fun e => e.1.errStat) = statuses ∧
        s.sdg.pduHdr.errStat = errStat ∧ stateAfter integerGroups 0 0 l' = n := by
  match run, h with
  | (.ok (some (s, r)), l'), h =>
    simp only [integerSummary, Option.some.injEq, Prod.mk.injEq] at h
    exact ⟨s, r, l', rfl, h⟩

lemma setKnownAndUnknown_run : ∃ s r l',
    snmpRequestDispatch (luaHandlers integerGroups 0 0) oneInstance sampleViews
      setKnownAndUnknown [] = (.ok (some (s, r)), l') ∧
    s.reports.map (fun e => e.1.errStat) = [0, snmpErrStatNotWritable] ∧
    s.sdg.pduHdr.errStat = snmpErrStatNotWritable ∧ stateAfter integerGroups 0 0 l' = 5 :=
  integerSummary_eq_some (by decide +kernel)

end Sample

end SmartSnmp
