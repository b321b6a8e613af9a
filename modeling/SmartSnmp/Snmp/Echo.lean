import SmartSnmp.Snmp.Independent

/-!
# Requests of nobody

A requester that is not known has no view to search in, and each varbind is echoed: its value is
decoded to the union that all of them share, and encoded again. Only a number without content, for
which nothing is decoded, is encoded from what the values before it have left.
-/

namespace SmartSnmp

open Bytes

/-! ### One varbind -/

/-- A result with this OID and variable. -/
def resultOf (oid : Oid) (var : Variable) : OidSearchRes :=
  { OidSearchRes.init .get with oid := oid, var := var }

lemma getVarBind_number {tag : UInt8} (h : wordTag tag = true) (oid : Oid) (len : Nat)
    (mem : List UInt8) : getVarBind (resultOf oid ⟨tag, len, mem⟩) =
      responseVarBind oid tag (numberEnc tag (wordAt mem)) := by
  obtain ⟨htry, henc⟩ := berValueEnc_number h len mem
  have hvalue : encodeValue ⟨tag, len, mem⟩ (numberEnc tag (wordAt mem)).length len =
      some (numberEnc tag (wordAt mem)) := by
    rw [encodeValue, henc, Option.filter_some, if_pos (decide_eq_true (Nat.le_add_left _ _))]
  simp only [getVarBind, resultOf, htry, hvalue, Option.bind_some]

/-- The union after the value of the varbind has been decoded to it. -/
def VarBind.leaves (vb : VarBind) (mem : List UInt8) : Option (List UInt8) :=
  (berValueDec vb.value vb.valueType).bind fun v => (⟨0, 0, mem⟩ : Variable).write v.2

/-- The varbind that is sent for one whose value is decoded to this memory. -/
def VarBind.echo (vb : VarBind) (mem : List UInt8) : Option VarBind :=
  (decodeValue vb (resultOf vb.oid ⟨0, 0, mem⟩)).bind getVarBind

/-- The value can be decoded to the union, and encoded again. -/
def VarBind.Echoes (vb : VarBind) : Prop := vb.echo Variable.zero.value ≠ none

/-- What a search of nobody leaves. -/
def OidSearchRes.unread (ret : OidSearchRes) (oid : Oid) : OidSearchRes :=
  { ret with oid := oid, errStat := snmpErrStatNoAccess }

/-- The result of decoding, by the memory that was there. -/
lemma decodeValue_eq (vb : VarBind) (ret : OidSearchRes) :
    decodeValue vb ret = (berValueDec vb.value vb.valueType).bind fun v =>
      ((⟨0, 0, ret.var.value⟩ : Variable).write v.2).map fun value =>
        { ret with var := ⟨vb.valueType, v.1, value⟩ } := rfl

lemma leaves_eq (vb : VarBind) (ret : OidSearchRes) :
    vb.leaves ret.var.value = (decodeValue vb ret).map fun ret' => ret'.var.value := by
  rw [decodeValue_eq, VarBind.leaves]
  cases berValueDec vb.value vb.valueType with
  | none => rfl
  | some v =>
    rw [Option.bind_some, Option.bind_some]
    cases Variable.write _ v.2 <;> rfl

lemma echo_eq (vb : VarBind) (ret : OidSearchRes) :
    vb.echo ret.var.value = (decodeValue vb ret).bind fun ret' => getVarBind (ret'.unread vb.oid) := by
  rw [VarBind.echo, decodeValue_eq, decodeValue_eq]
  cases berValueDec vb.value vb.valueType with
  | none => rfl
  | some v =>
    show ((Variable.write ⟨0, 0, ret.var.value⟩ v.2).map _).bind _ =
      ((Variable.write ⟨0, 0, ret.var.value⟩ v.2).map _).bind _
    cases Variable.write ⟨0, 0, ret.var.value⟩ v.2 <;> rfl

/-- What is echoed is what the decoded value leaves. -/
lemma echo_eq_sent (vb : VarBind) (mem : List UInt8) :
    vb.echo mem = vb.decoded.bind fun o => sent (o, vb.oid) mem := by
  rw [VarBind.echo, decodeValue_decoded]
  cases vb.decoded with
  | none => rfl
  | some o =>
    have hleft : LeftAs .get mem (resultOf vb.oid (o.over mem)) (o, vb.oid) := ⟨rfl, rfl, rfl⟩
    exact getVarBind_eq_sent hleft

lemma decodeValue_emptyNumber {vb : VarBind} (h : vb.EmptyNumber) (ret : OidSearchRes) :
    decodeValue vb ret = some { ret with var := ⟨vb.valueType, 0, ret.var.value⟩ } := by
  have hdec : berValueDec [] vb.valueType = some (0, []) := rfl
  have hwrite : ret.var.write [] = some ret.var.value := by simp [Variable.write]
  simp only [decodeValue, h.2, hdec, Option.bind_some, hwrite, Option.map_some]

lemma echo_emptyNumber {vb : VarBind} (h : vb.EmptyNumber) (mem : List UInt8) :
    vb.echo mem = responseVarBind vb.oid vb.valueType (numberEnc vb.valueType (wordAt mem)) := by
  rw [VarBind.echo, decodeValue_emptyNumber h, Option.bind_some]
  exact getVarBind_number h.1 vb.oid 0 mem

/-- What is echoed does not depend on the memory, but for a number without content that does not meet
a zero there. -/
lemma echo_eq_zero {vb : VarBind} {mem : List UInt8} (hmem : mem.length = mibValueMaxLen)
    (h : vb.EmptyNumber → wordAt mem = 0) : vb.echo mem = vb.echo Variable.zero.value := by
  by_cases hempty : vb.EmptyNumber
  · rw [echo_emptyNumber hempty, echo_emptyNumber hempty, h hempty]
    rfl
  · have hzero : Variable.zero.value.length = mibValueMaxLen := List.length_replicate
    rw [echo_eq_sent, echo_eq_sent]
    cases hdec : vb.decoded with
    | none => rfl
    | some o =>
      exact sent_eq_of_covered (VarBind.covered_decoded hdec hempty) (VarBind.fits_decoded hdec) hmem hzero

/-- If there is something else than a zero then it shows. -/
lemma echo_ne_zero {vb : VarBind} (hempty : vb.EmptyNumber) (hoid : vb.oid.length ≤ mibOidMaxLen)
    {mem : List UInt8} (h : wordAt mem ≠ 0) : vb.echo mem ≠ vb.echo Variable.zero.value := by
  obtain ⟨oidLen, hlen⟩ := Option.ne_none_iff_exists'.mp (berOidEncTry_ne_none hoid)
  rw [echo_emptyNumber hempty, echo_emptyNumber hempty, responseVarBind, responseVarBind, hlen]
  intro heq
  have hvalue := congrArg (Option.map VarBind.value) heq
  exact h (numberEnc_injective vb.valueType (Option.some.inj hvalue))

lemma length_leaves {vb : VarBind} {mem mem' : List UInt8} (hmem : mem.length = mibValueMaxLen)
    (h : vb.leaves mem = some mem') : mem'.length = mibValueMaxLen := by
  obtain ⟨v, _, hwrite⟩ := Option.bind_eq_some_iff.mp h
  rw [Variable.write] at hwrite
  split_ifs at hwrite with hlen
  obtain rfl := Option.some.inj hwrite
  rw [List.length_append, List.length_drop, hmem]
  omega

/-! ### A list of varbinds -/

/-- The union after the values of these varbinds have been decoded to it one after the other. -/
def leftBy (vbs : List VarBind) (mem : List UInt8) : Option (List UInt8) :=
  vbs.foldlM (fun mem vb => vb.leaves mem) mem

/-- Values that are all decoded to what is there already. -/
lemma leftBy_of_fixed {vbs : List VarBind} {mem : List UInt8}
    (h : ∀ vb ∈ vbs, vb.leaves mem = some mem) : leftBy vbs mem = some mem := by
  induction vbs with
  | nil => rfl
  | cons vb vbs ih =>
    obtain ⟨hvb, hvbs⟩ := List.forall_mem_cons.mp h
    rw [leftBy, List.foldlM_cons, hvb]
    exact ih hvbs

/-- From a union that is cleared, each number without content meets a zero. -/
def NothingLeft (vbs : List VarBind) : Prop :=
  ∀ (j : Nat) vb mem, vbs[j]? = some vb → vb.EmptyNumber →
    leftBy (vbs.take j) Variable.zero.value = some mem → wordAt mem = 0

/-- An iteration for nobody. -/
def echoStep (s : ProcState) (vb : VarBind) : Option ProcState :=
  (decodeValue vb s.ret).bind fun ret =>
    (getVarBind (ret.unread vb.oid)).map fun vbOut => s.add (ret.unread vb.oid) vbOut

/-- What an iteration does. -/
structure Echoed (s s' : ProcState) (vb vbOut : VarBind) : Prop where
  echo : vb.echo s.ret.var.value = some vbOut
  leaves : vb.leaves s.ret.var.value = some s'.ret.var.value
  oid : s'.ret.oid = vb.oid
  out : s'.sdg.vbOutList = s.sdg.vbOutList ++ [vbOut]
  vbs : s'.sdg.vbInList = s.sdg.vbInList
  same : s'.sdg.SameRequester s.sdg
  request : s'.ret.request = s.ret.request

lemma echoStep_cases (s : ProcState) (vb : VarBind) :
    (echoStep s vb = none ∧ vb.echo s.ret.var.value = none) ∨
      ∃ s' vbOut, echoStep s vb = some s' ∧ Echoed s s' vb vbOut := by
  have hecho := echo_eq vb s.ret
  have hleaves := leaves_eq vb s.ret
  rw [echoStep]
  cases hdec : decodeValue vb s.ret with
  | none =>
    rw [hdec] at hecho
    exact .inl ⟨rfl, hecho⟩
  | some ret =>
    have hreq : ret.request = s.ret.request := by
      obtain ⟨_, _, hval⟩ := Option.bind_eq_some_iff.mp hdec
      obtain ⟨_, _, rfl⟩ := Option.map_eq_some_iff.mp hval
      rfl
    rw [hdec, Option.bind_some] at hecho
    rw [hdec] at hleaves
    rw [Option.bind_some]
    cases hout : getVarBind (ret.unread vb.oid) with
    | none => exact .inl ⟨rfl, hecho.trans hout⟩
    | some vbOut =>
      exact .inr ⟨_, vbOut, rfl, hecho.trans hout, hleaves, rfl, rfl, rfl, ⟨rfl, rfl, rfl⟩, hreq⟩

section Steps

variable {handlers : Handlers} {root : MibNode} {mv : MibViews}

lemma mibGetnext_unknown {sdg : SnmpDatagram} (hnone : requester mv sdg = none) (vb : VarBind)
    (ret : OidSearchRes) : mibGetnext handlers root mv sdg vb ret = pure (ret.unread vb.oid) := by
  rw [mibGetnext, hnone, viewLoop_requester sdg none List.nodup_nil]
  rfl

lemma getnextStep_unknown {s : ProcState} (hnone : requester mv s.sdg = none) (vb : VarBind) :
    getnextStep handlers root mv s vb = Traced.ofOption (echoStep s vb) := by
  rw [getnextStep, processVarBind, echoStep]
  cases decodeValue vb s.ret with
  | none => rfl
  | some ret =>
    simp only [mibGetnext_unknown hnone, Traced.pure_bind, Option.bind_some]
    cases getVarBind (ret.unread vb.oid) <;> rfl

end Steps

lemma echo_eq_none_iff {vb : VarBind} (hoid : vb.oid.length ≤ mibOidMaxLen) {mem : List UInt8}
    (hmem : mem.length = mibValueMaxLen) : vb.echo mem = none ↔ ¬ vb.Echoes := by
  rw [VarBind.Echoes, not_not]
  by_cases hempty : vb.EmptyNumber
  · obtain ⟨oidLen, hlen⟩ := Option.ne_none_iff_exists'.mp (berOidEncTry_ne_none hoid)
    simp [echo_emptyNumber hempty, responseVarBind, hlen]
  · rw [echo_eq_zero hmem fun h => absurd h hempty]

/-- What a loop of such iterations does. -/
structure EchoedAll (s s' : ProcState) (vbs : List VarBind) (outs : List VarBind) : Prop where
  out : s'.sdg.vbOutList = s.sdg.vbOutList ++ outs
  length : outs.length = vbs.length
  echo : ∀ (j : Nat) vb, vbs[j]? = some vb → ∃ mem, leftBy (vbs.take j) s.ret.var.value = some mem ∧
    mem.length = mibValueMaxLen ∧ outs[j]? = vb.echo mem
  whole : s'.ret.var.Whole
  vbs : s'.sdg.vbInList = s.sdg.vbInList
  same : s'.sdg.SameRequester s.sdg
  request : s'.ret.request = s.ret.request

/-- The loop goes on as long as the values can be echoed. -/
lemma foldlM_echoStep (vbs : List VarBind) (hoid : ∀ vb ∈ vbs, vb.oid.length ≤ mibOidMaxLen)
    {s : ProcState} (hs : s.ret.var.Whole) :
    (vbs.foldlM echoStep s = none ∧ ∃ vb ∈ vbs, ¬ vb.Echoes) ∨
      ∃ s' outs, vbs.foldlM echoStep s = some s' ∧ EchoedAll s s' vbs outs ∧
        ∀ vb ∈ vbs, vb.Echoes := by
  induction vbs generalizing s with
  | nil =>
    exact .inr ⟨s, [], rfl, ⟨by simp, rfl, by simp, hs, rfl, ⟨rfl, rfl, rfl⟩, rfl⟩, by simp⟩
  | cons vb vbs ih =>
    obtain ⟨hvb, hvbs⟩ := List.forall_mem_cons.mp hoid
    rw [List.foldlM_cons]
    rcases echoStep_cases s vb with ⟨hnone, hecho⟩ | ⟨s₁, vbOut, hstep, hechoed⟩
    · rw [hnone]
      exact .inl ⟨rfl, vb, List.mem_cons_self, (echo_eq_none_iff hvb hs).mp hecho⟩
    · have hs₁ : s₁.ret.var.Whole := length_leaves hs hechoed.leaves
      have hself : vb.Echoes := by
        by_contra hnot
        have hnone := (echo_eq_none_iff hvb hs).mpr hnot
        rw [hechoed.echo] at hnone
        cases hnone
      rw [hstep]
      rcases ih hvbs hs₁ with ⟨hnone, u, hu, hnot⟩ | ⟨s', outs, hrest, hall, hechoes⟩
      · exact .inl ⟨hnone, u, List.mem_cons_of_mem _ hu, hnot⟩
      · refine .inr ⟨s', vbOut :: outs, hrest, ⟨?_, ?_, ?_, hall.whole, hall.vbs.trans hechoed.vbs,
          hall.same.trans hechoed.same, hall.request.trans hechoed.request⟩,
          List.forall_mem_cons.mpr ⟨hself, hechoes⟩⟩
        · rw [hall.out, hechoed.out, List.append_assoc, List.singleton_append]
        · rw [List.length_cons, List.length_cons, hall.length]
        · intro j u hu
          cases j with
          | zero =>
            obtain rfl : vb = u := by simpa using hu
            exact ⟨s.ret.var.value, rfl, hs, hechoed.echo.symm⟩
          | succ j =>
            obtain ⟨mem, hmem, hlen, hout⟩ := hall.echo j u (by simpa using hu)
            refine ⟨mem, ?_, hlen, hout⟩
            rw [List.take_succ_cons, leftBy, List.foldlM_cons, hechoed.leaves]
            exact hmem

/-- What is echoed can be sent. -/
lemma EchoedAll.reading {s s' : ProcState} {vbs outs : List VarBind} (h : EchoedAll s s' vbs outs)
    {req : MibReq} {sdg : SnmpDatagram} (hs : Reading req sdg s) : Reading req sdg s' where
  request := h.request.trans hs.request
  whole := h.whole
  same := h.same.trans hs.same
  sendable := by
    intro vbOut hmem
    rw [h.out] at hmem
    rcases List.mem_append.mp hmem with hmem | hmem
    · exact hs.sendable vbOut hmem
    · obtain ⟨j, hj⟩ := List.mem_iff_getElem?.mp hmem
      have hlt : j < vbs.length := h.length ▸ (List.getElem?_eq_some_iff.mp hj).1
      obtain ⟨mem, _, _, hecho⟩ := h.echo j _ (List.getElem?_eq_getElem hlt)
      obtain ⟨ret, _, hout⟩ := Option.bind_eq_some_iff.mp (hecho.symm.trans hj)
      exact getVarBind_sendable hout

end SmartSnmp
