import SmartSnmp.Snmp.Integers

/-!
# The error status of a response

The four loops mark the first varbind with an error in the header of the request, which is that of
the response. The header still holds the integers of the request: an error status there stops every
mark, and an error index stays if there is no mark. For `snmp_bulkget` the two integers are
the number of the varbinds not to repeat and the repetitions, and only the second one is cleared.
The response announces the integers with the lengths that the request had for them, so what is marked
may not be what a peer reads.
-/

namespace SmartSnmp

/-! ### The first error of a list -/

/-- An error status and an error index name the first error of the statuses that were reported:
both are zero if there is none. -/
structure NamesFirst (statuses : List Int32) (errStat errIdx : Int32) : Prop where
  clear : (∀ e ∈ statuses, e = 0) → errStat = 0 ∧ errIdx = 0
  first : ∀ before e after, statuses = before ++ e :: after → (∀ x ∈ before, x = 0) → e ≠ 0 →
    errStat = e ∧ errIdx.toInt = before.length + 1

/-- A list of statuses without errors, or split at its first error. -/
lemma split_first_error (statuses : List Int32) :
    (∀ e ∈ statuses, e = 0) ∨
      ∃ before e after, statuses = before ++ e :: after ∧ (∀ x ∈ before, x = 0) ∧ e ≠ 0 := by
  induction statuses with
  | nil => exact .inl (by simp)
  | cons a statuses ih =>
    by_cases ha : a = 0
    · obtain hall | ⟨before, e, after, rfl, hbefore, he⟩ := ih
      · exact .inl (by simpa [ha] using hall)
      · exact .inr ⟨a :: before, e, after, rfl, by simpa [ha] using hbefore, he⟩
    · exact .inr ⟨[], a, statuses, rfl, by simp, ha⟩

lemma first_error_unique {before before' : List Int32} (hbefore : ∀ x ∈ before, x = 0) {e e' : Int32}
    (he : e ≠ 0) (hbefore' : ∀ x ∈ before', x = 0) (he' : e' ≠ 0) {after after' : List Int32}
    (heq : before ++ e :: after = before' ++ e' :: after') : before = before' ∧ e = e' := by
  have hidx : ∀ (b : List Int32) (x : Int32) (a : List Int32), (∀ y ∈ b, y = 0) → x ≠ 0 →
      (b ++ x :: a).findIdx (· ≠ 0) = b.length := by
    intro b x a hb hx
    rw [List.findIdx_append, if_neg]
    · rw [List.findIdx_cons, decide_eq_true hx, cond_true, Nat.zero_add]
    · simpa using hb
  have hlen : before.length = before'.length := by
    rw [← hidx before e after hbefore he, heq, hidx before' e' after' hbefore' he']
  obtain ⟨rfl, htail⟩ := List.append_inj heq hlen
  exact ⟨rfl, (List.cons.inj htail).1⟩

lemma firstError_eq_none {statuses : List Int32} (hall : ∀ e ∈ statuses, e = 0) (cnt : UInt32) :
    firstError cnt statuses = none := by
  induction statuses generalizing cnt with
  | nil => rfl
  | cons a statuses ih =>
    rw [List.forall_mem_cons] at hall
    rw [firstError, if_pos hall.1, ih hall.2]

lemma firstError_eq_some {before : List Int32} (hbefore : ∀ x ∈ before, x = 0) {e : Int32}
    (he : e ≠ 0) (after : List Int32) (cnt : UInt32) :
    firstError cnt (before ++ e :: after) = some (e, cnt + UInt32.ofNat (before.length + 1)) := by
  induction before generalizing cnt with
  | nil => rw [List.nil_append, firstError, if_neg he]; rfl
  | cons a before ih =>
    rw [List.forall_mem_cons] at hbefore
    rw [List.cons_append, firstError, if_pos hbefore.1, ih hbefore.2, UInt32.add_assoc,
      List.length_cons, UInt32.ofNat_add (before.length + 1), UInt32.add_comm 1]
    rfl

lemma namesFirst_of_clear {statuses : List Int32} (hall : ∀ e ∈ statuses, e = 0)
    (errStat errIdx : Int32) : NamesFirst statuses errStat errIdx ↔ errStat = 0 ∧ errIdx = 0 := by
  refine ⟨fun h => h.clear hall, fun h => ⟨fun _ => h, ?_⟩⟩
  rintro before e after rfl _ he
  exact absurd (hall e (by simp)) he

lemma namesFirst_of_error {before : List Int32} (hbefore : ∀ x ∈ before, x = 0) {e : Int32}
    (he : e ≠ 0) (after : List Int32) (errStat errIdx : Int32) :
    NamesFirst (before ++ e :: after) errStat errIdx ↔
      errStat = e ∧ errIdx.toInt = before.length + 1 := by
  refine ⟨fun h => h.first before e after rfl hbefore he, fun h => ⟨fun hall => ?_, ?_⟩⟩
  · exact absurd (hall e (by simp)) he
  · intro before' e' after' heq hbefore' he'
    obtain ⟨rfl, rfl⟩ := first_error_unique hbefore he hbefore' he' heq
    exact h

/-- A position is exact as an index as long as it is positive in 32 bits. -/
lemma toInt_toInt32_ofNat (n : Nat) : (UInt32.ofNat n).toInt32.toInt = n ↔ n < 2 ^ 31 := by
  rw [UInt32.toInt32_ofNat', Int32.toInt_ofNat']
  constructor
  · intro h
    have := Int.bmod_lt (x := (n : Int)) (m := Int32.size) (by decide)
    have hsize : ((Int32.size : Int) + 1) / 2 = 2 ^ 31 := by decide
    omega
  · intro h
    refine Int.bmod_eq_of_le ?_ ?_ <;> simp only [Int32.size] <;> omega

/-! ### The fields of a response -/

/-- When the error fields of a request name the first error of its response. Either the request has
no error status, and the position of the first error fits the index or there is no error and no
index; or the fields are not those of GETBULK and name this error already. -/
def ErrorFieldsOk (sdg : SnmpDatagram) (statuses : List Int32) : Prop :=
  (sdg.pduHdr.errStat = 0 ∧
    ((∀ e ∈ statuses, e = 0) ∧ (sdg.pduHdr.pduType = mibReqBulkget ∨ sdg.pduHdr.errIdx = 0) ∨
      ∃ e ∈ statuses.take (2 ^ 31 - 1), e ≠ 0)) ∨
  (sdg.pduHdr.errStat ≠ 0 ∧ sdg.pduHdr.pduType ≠ mibReqBulkget ∧
    NamesFirst statuses sdg.pduHdr.errStat sdg.pduHdr.errIdx)

lemma exists_mem_take_iff {before : List Int32} (hbefore : ∀ x ∈ before, x = 0) {e : Int32}
    (he : e ≠ 0) (after : List Int32) (n : Nat) :
    (∃ x ∈ (before ++ e :: after).take n, x ≠ 0) ↔ before.length < n := by
  rw [List.take_append]
  constructor
  · rintro ⟨x, hx, hne⟩
    by_contra hle
    rw [Nat.sub_eq_zero_of_le (by omega), List.take_zero, List.append_nil] at hx
    exact hne (hbefore x (List.mem_of_mem_take hx))
  · intro hlt
    obtain ⟨k, hk⟩ : ∃ k, n - before.length = k + 1 := ⟨n - before.length - 1, by omega⟩
    exact ⟨e, List.mem_append_right _ (by rw [hk, List.take_succ_cons]; exact .head _), he⟩

lemma namesFirst_responseErrors_iff (sdg : SnmpDatagram) (statuses : List Int32) :
    NamesFirst statuses (sdg.responseErrors statuses).1 (sdg.responseErrors statuses).2 ↔
      ErrorFieldsOk sdg statuses := by
  obtain hall | ⟨before, e, after, rfl, hbefore, he⟩ := split_first_error statuses
  · have hnone : ¬ ∃ e ∈ statuses.take (2 ^ 31 - 1), e ≠ 0 :=
      fun ⟨e, hmem, hne⟩ => hne (hall e (List.mem_of_mem_take hmem))
    simp only [SnmpDatagram.responseErrors, firstError_eq_none hall, ErrorFieldsOk,
      namesFirst_of_clear hall, hnone, or_false, eq_true hall, true_and]
    by_cases hbulk : sdg.pduHdr.pduType = mibReqBulkget <;>
      by_cases hstat : sdg.pduHdr.errStat = 0 <;> simp [hbulk, hstat]
  · have hsome : ¬ ∀ x ∈ before ++ e :: after, x = 0 := fun hall => he (hall e (by simp))
    have hidx := toInt_toInt32_ofNat (before.length + 1)
    simp only [SnmpDatagram.responseErrors, firstError_eq_some hbefore he, ErrorFieldsOk,
      namesFirst_of_error hbefore he, exists_mem_take_iff hbefore he, hsome, false_and, false_or]
    by_cases hstat : sdg.pduHdr.errStat = 0
    · rw [if_pos hstat, UInt32.zero_add]
      push_cast at hidx
      simp only [hidx, hstat, true_and, ne_eq, not_true_eq_false, false_and, or_false]
      omega
    · by_cases hbulk : sdg.pduHdr.pduType = mibReqBulkget
      · -- the cleared index is no position
        have hpos : ¬ (0 : Int) = before.length + 1 := by omega
        simp [hstat, hbulk, hpos]
      · simp [hstat, hbulk]

/-- The response to a request names the first error of the statuses: a peer reads from what is written the
integers of the header, and the error status and the error index among them name it. -/
structure Names (statuses : List Int32) (sdg : SnmpDatagram) (r : Response) : Prop where
  read : ∃ rest, messageIntegers sdg.pduHdr.pduType r.written = .ok (.ok (sdg.integers, rest))
  first : NamesFirst statuses sdg.pduHdr.errStat sdg.pduHdr.errIdx

/-- The response to a request, whatever its handlers do, names the first varbind with an error if
and only if the error fields of the request let it and its integers fit those of the response. -/
theorem snmpdRecv_names_iff {handlers : Handlers} {root : MibNode} {mv : MibViews}
    {buffer : List UInt8} {sdg : SnmpDatagram} (hdecode : snmpDecode buffer = .ok sdg)
    {l l' : List Call} {s : ProcState} {r : Response}
    (hrun : snmpdRecv handlers root mv buffer l = (.ok (some (s, r)), l')) :
    Names (s.reports.map fun e => e.1.errStat) s.sdg r ↔
      ErrorFieldsOk sdg (s.reports.map fun e => e.1.errStat) ∧
        RequestFits sdg (s.reports.map fun e => e.1.errStat) := by
  obtain ⟨check, sdg', hcheck, hdecode', hdispatch⟩ := snmpdRecv_eq_some hrun
  obtain rfl : sdg = sdg' := Outcome.ok.inj (hdecode.symm.trans hdecode')
  have hstored := stored_of_answered hcheck hdecode hdispatch
  obtain ⟨hprogress, hresponse⟩ := returns_snmpRequestDispatch sdg l _ l' hdispatch s r rfl
  have hfirst : NamesFirst (s.reports.map fun e => e.1.errStat) s.sdg.pduHdr.errStat
      s.sdg.pduHdr.errIdx ↔ ErrorFieldsOk sdg (s.reports.map fun e => e.1.errStat) := by
    rw [← namesFirst_responseErrors_iff, hprogress.pduHdr_eq]
  have hread : (∃ rest, messageIntegers s.sdg.pduHdr.pduType r.written =
      .ok (.ok (s.sdg.integers, rest))) ↔ RequestFits sdg (s.reports.map fun e => e.1.errStat) := by
    rw [← hprogress.inSync_iff]
    obtain ⟨parts, -, rfl⟩ := Option.map_eq_some_iff.mp hresponse
    exact messageIntegers_iff hstored
  rw [← hfirst, ← hread]
  exact ⟨fun h => ⟨h.first, h.read⟩, fun h => ⟨h.2, h.1⟩⟩

/-- The statuses that the varbinds report, and the error fields. -/
def errorFields (out : Outcome (Option (ProcState × Response))) :
    Option (List Int32 × Int32 × Int32) :=
  match out with
  | .ok (some (s, _)) =>
    some (s.reports.map fun e => e.1.errStat, s.sdg.pduHdr.errStat, s.sdg.pduHdr.errIdx)
  | _ => none

lemma errorFields_eq_some {out : Outcome (Option (ProcState × Response))} {statuses : List Int32}
    {errStat errIdx : Int32} (h : errorFields out = some (statuses, errStat, errIdx)) :
    ∃ s r, out = .ok (some (s, r)) ∧ (s.reports.map fun e => e.1.errStat) = statuses ∧
      s.sdg.pduHdr.errStat = errStat ∧ s.sdg.pduHdr.errIdx = errIdx := by
  match out, h with
  | .ok (some (s, r)), h =>
    simp only [errorFields, Option.some.injEq, Prod.mk.injEq] at h
    exact ⟨s, r, rfl, h⟩

/-- A SET request of version 2c for 1.0, which is written, and 2.5, which no view covers. -/
def sampleSetTwo : List UInt8 :=
  [0x30, 0x23, 0x02, 0x01, 0x01, 0x04, 0x01, 0x70, 0xa3, 0x1b, 0x02, 0x01, 0x07, 0x02, 0x01, 0x00, 0x02,
    0x01, 0x00, 0x30, 0x10, 0x30, 0x06, 0x06, 0x01, 0x28, 0x02, 0x01, 0x05, 0x30, 0x06, 0x06, 0x01, 0x55,
    0x02, 0x01, 0x05]

/-- The version of a request and its error status; the value of its request identifier, and the lengths
of its integers. -/
def storedIntegers (out : Outcome SnmpDatagram) : Option (Int32 × Int32 × Int32 × List Nat) :=
  match out with
  | .ok sdg => some (sdg.version, sdg.pduHdr.errStat, sdg.pduHdr.reqId,
      [sdg.verLen, sdg.pduHdr.reqIdLen, sdg.pduHdr.errStatLen, sdg.pduHdr.errIdxLen])
  | _ => none

lemma storedIntegers_eq_some {out : Outcome SnmpDatagram} {version errStat reqId : Int32}
    {verLen reqIdLen errStatLen errIdxLen : Nat}
    (h : storedIntegers out = some (version, errStat, reqId, [verLen, reqIdLen, errStatLen, errIdxLen])) :
    ∃ sdg, out = .ok sdg ∧ sdg.version = version ∧ sdg.pduHdr.errStat = errStat ∧
      sdg.pduHdr.reqId = reqId ∧ sdg.verLen = verLen ∧ sdg.pduHdr.reqIdLen = reqIdLen ∧
      sdg.pduHdr.errStatLen = errStatLen ∧ sdg.pduHdr.errIdxLen = errIdxLen := by
  match out, h with
  | .ok sdg, h =>
    simp only [storedIntegers, Option.some.injEq, Prod.mk.injEq, List.cons.injEq, and_true] at h
    exact ⟨sdg, rfl, h.1, h.2.1, h.2.2.1, h.2.2.2⟩

/-- The second varbind is named, with the status that it has no access. -/
theorem snmpdRecv_names_iff_sampleSetTwo : ∃ s r l',
    snmpdRecv scalarHandlers oneInstance sampleViews sampleSetTwo [] = (.ok (some (s, r)), l') ∧
      s.sdg.pduHdr.errStat = 6 ∧ s.sdg.pduHdr.errIdx = 2 ∧
      Names (s.reports.map fun e => e.1.errStat) s.sdg r := by
  have hfields : errorFields (snmpdRecv scalarHandlers oneInstance sampleViews sampleSetTwo []).1 =
      some ([0, 6], 6, 2) := by decide +kernel
  have hread : storedIntegers (snmpDecode sampleSetTwo) = some (1, 0, 7, [1, 1, 1, 1]) := by decide +kernel
  rcases hrun : snmpdRecv scalarHandlers oneInstance sampleViews sampleSetTwo [] with ⟨out, l'⟩
  rw [hrun] at hfields
  obtain ⟨s, r, rfl, hstatuses, hstat, hidx⟩ := errorFields_eq_some hfields
  obtain ⟨sdg, hdecode, hversion, hzero, hreqId, hlens⟩ := storedIntegers_eq_some hread
  have herrors : sdg.responseErrors [0, 6] = (6, 2) := by
    simp [SnmpDatagram.responseErrors, firstError, hzero]
  refine ⟨s, r, l', rfl, hstat, hidx, (snmpdRecv_names_iff hdecode hrun).mpr ?_⟩
  rw [hstatuses]
  have hold : ¬ 3 ≤ sdg.version := by rw [hversion]; decide
  have hsecond : (6 : Int32) ∈ [0, 6].take (2 ^ 31 - 1) := by
    rw [List.take_of_length_le (by simp)]
    simp
  refine ⟨.inl ⟨hzero, .inr ⟨6, hsecond, by decide⟩⟩, ?_⟩
  refine ⟨minimalLength_iff.mpr ?_, minimalLength_iff.mpr ?_, minimalLength_iff.mpr ?_,
    minimalLength_iff.mpr ?_, fun h3 => absurd h3 hold, fun h3 => absurd h3 hold,
    fun h3 => absurd h3 hold, fun h3 => absurd h3 hold, fun h3 => absurd h3 hold⟩
  · rw [hversion, hlens.1]
    decide
  · rw [hreqId, hlens.2.1]
    decide
  · rw [herrors, hlens.2.2.1]
    decide
  · rw [herrors, hlens.2.2.2]
    decide

/-- A GETBULK request of version 2c for 1.3.6.1 with `nonRepeaters` and one repetition. -/
def bulkgetFor (nonRepeaters : UInt8) : List UInt8 :=
  [0x30, 0x1c, 0x02, 0x01, 0x01, 0x04, 0x01, 0x70, 0xa5, 0x14, 0x02, 0x01, 0x07, 0x02, 0x01,
    nonRepeaters, 0x02, 0x01, 0x01, 0x30, 0x09, 0x30, 0x07, 0x06, 0x03, 0x2b, 0x06, 0x01, 0x05, 0x00]

/-- The response to a request with one varbind not to repeat has an error of status one, though
nothing has failed. -/
theorem snmpdRecv_nonRepeaters : ∃ s r,
    (snmpdRecv scalarHandlers oneInstance sampleViews (bulkgetFor 1) []).1 = .ok (some (s, r)) ∧
    (∀ e ∈ s.reports, e.1.errStat = 0) ∧ s.sdg.pduHdr.errStat = 1 ∧
    ¬ Names (s.reports.map fun e => e.1.errStat) s.sdg r := by
  have hrun : errorFields
      (snmpdRecv scalarHandlers oneInstance sampleViews (bulkgetFor 1) []).1 = some ([0], 1, 0) := by
    decide +kernel
  obtain ⟨s, r, hout, hstatuses, hstat, hidx⟩ := errorFields_eq_some hrun
  have hall : ∀ e ∈ s.reports.map fun e => e.1.errStat, e = 0 := by simp [hstatuses]
  refine ⟨s, r, hout, fun e he => hall _ (List.mem_map_of_mem he), hstat, ?_⟩
  intro h
  rw [(h.first.clear hall).1] at hstat
  exact absurd hstat (by decide)

end SmartSnmp
