import SmartSnmp.Mib.Oid

/-!
# The order of `oid_cmp`

`oid_cmp` with the types it has in `core/mib_tree.c`: lengths of 32 bits that count down, and a
signed result. The result tells the lexicographic order of two OIDs as long as the difference it is
made of does not wrap around.
-/

namespace SmartSnmp

/-- An OID whose length fits the `uint32_t` that is passed with it. -/
abbrev SpannedOid := { oid : Oid // oid.length < 2 ^ 32 }

/-- `oid_cmp` on what is left of the two OIDs and of their lengths. -/
def oidCmpLoop : Oid → UInt32 → Oid → UInt32 → Int32
  | x :: src, srcLen, y :: target, tarLen =>
    if srcLen ≠ 0 ∧ tarLen ≠ 0 then
      let ret := (x - y).toInt32
      if ret = 0 then oidCmpLoop src (srcLen - 1) target (tarLen - 1) else ret
    else (srcLen - tarLen).toInt32
  | _, srcLen, _, tarLen => (srcLen - tarLen).toInt32

/-- `oid_cmp`. -/
def SpannedOid.oidCmp (src target : SpannedOid) : Int32 :=
  oidCmpLoop src.1 (UInt32.ofNat src.1.length) target.1 (UInt32.ofNat target.1.length)

/-! ### Signed differences -/

/-- The difference of two unsigned numbers fits a signed word. -/
def Close (m n : Nat) : Prop := n ≤ m + 2 ^ 31 ∧ m < n + 2 ^ 31

/-- The sign of a difference of words is right exactly if the words are close. -/
lemma sign_sub_iff (x y : UInt32) :
    (((x - y).toInt32.toInt < 0 ↔ x.toNat < y.toNat) ∧
      (0 < (x - y).toInt32.toInt ↔ y.toNat < x.toNat)) ↔ Close x.toNat y.toNat := by
  have hx := x.toNat_lt
  have hy := y.toNat_lt
  rw [toInt_toInt32, UInt32.toNat_sub, Close]
  split_ifs <;> omega

lemma toNat_ofNat_length {a : Oid} (h : a.length < 2 ^ 32) :
    (UInt32.ofNat a.length).toNat = a.length := by
  rw [UInt32.toNat_ofNat']
  exact Nat.mod_eq_of_lt h

lemma ofNat_length_tail {x : UInt32} {xs : Oid} (h : (x :: xs).length < 2 ^ 32) :
    UInt32.ofNat (x :: xs).length ≠ 0 ∧
      UInt32.ofNat (x :: xs).length - 1 = UInt32.ofNat xs.length := by
  have hlen := toNat_ofNat_length h
  have htail := toNat_ofNat_length (Nat.lt_of_succ_lt h)
  constructor
  · intro h0
    rw [h0] at hlen
    cases hlen
  · apply UInt32.toNat_inj.mp
    rw [UInt32.toNat_sub, hlen, htail, UInt32.toNat_one, List.length_cons]
    rw [List.length_cons] at h
    omega

namespace SpannedOid

variable {x y : UInt32} {xs ys : Oid}

lemma oidCmp_cons (hx : (x :: xs).length < 2 ^ 32) (hy : (y :: ys).length < 2 ^ 32) :
    oidCmp ⟨x :: xs, hx⟩ ⟨y :: ys, hy⟩ =
      if x = y then oidCmp ⟨xs, Nat.lt_of_succ_lt hx⟩ ⟨ys, Nat.lt_of_succ_lt hy⟩
      else (x - y).toInt32 := by
  have hret : (x - y).toInt32 = 0 ↔ x = y := by
    rw [← toInt_sub_eq_zero, ← Int32.toInt_inj]
    rfl
  have hx' := ofNat_length_tail hx
  have hy' := ofNat_length_tail hy
  simp only [oidCmp]
  rw [oidCmpLoop, if_pos ⟨hx'.1, hy'.1⟩, hx'.2, hy'.2]
  simp only [hret]

/-- Where one OID ends, the lengths decide. -/
lemma oidCmp_end {a b : SpannedOid} (h : a.1 = [] ∨ b.1 = []) :
    a.oidCmp b = (UInt32.ofNat a.1.length - UInt32.ofNat b.1.length).toInt32 := by
  obtain ⟨a, ha⟩ := a
  obtain ⟨b, hb⟩ := b
  rcases h with rfl | rfl
  · rfl
  · cases a <;> rfl

end SpannedOid

/-! ### The order -/

/-- A comparison tells how two OIDs are ordered, a proper prefix being before its extensions. -/
structure Tells (a b : Oid) (ret : Int) : Prop where
  before : ret < 0 ↔ a < b
  equal : ret = 0 ↔ a = b
  after : 0 < ret ↔ b < a

/-- Where two OIDs first differ, the sub-identifiers are close; where one of them ends, the lengths
are. -/
def Near : Oid → Oid → Prop
  | x :: xs, y :: ys => if x = y then Near xs ys else Close x.toNat y.toNat
  | xs, ys => Close xs.length ys.length

lemma Tells.of_signs {a b : Oid} {ret : Int} (hlt : ret < 0 ↔ a < b) (hgt : 0 < ret ↔ b < a) :
    Tells a b ret := by
  refine ⟨hlt, ?_, hgt⟩
  constructor
  · intro h0
    rcases lt_trichotomy a b with h | h | h
    · exact absurd (hlt.mpr h) (by omega)
    · exact h
    · exact absurd (hgt.mpr h) (by omega)
  · rintro rfl
    have h1 : ¬ ret < 0 := fun h => lt_irrefl a (hlt.mp h)
    have h2 : ¬ 0 < ret := fun h => lt_irrefl a (hgt.mp h)
    omega

lemma lt_iff_length_lt {a b : Oid} (h : a = [] ∨ b = []) : a < b ↔ a.length < b.length := by
  rcases h with rfl | rfl
  · cases b <;> simp
  · simp

/-- The comparison of two OIDs is right exactly if they are near. -/
lemma SpannedOid.tells_iff (a b : SpannedOid) : Tells a.1 b.1 (a.oidCmp b).toInt ↔ Near a.1 b.1 := by
  have hends : ∀ a b : SpannedOid, a.1 = [] ∨ b.1 = [] →
      (Tells a.1 b.1 (a.oidCmp b).toInt ↔ Close a.1.length b.1.length) := by
    intro a b h
    have hsign := sign_sub_iff (UInt32.ofNat a.1.length) (UInt32.ofNat b.1.length)
    rw [toNat_ofNat_length a.2, toNat_ofNat_length b.2, ← lt_iff_length_lt h,
      ← lt_iff_length_lt h.symm] at hsign
    rw [oidCmp_end h, ← hsign]
    exact ⟨fun ht => ⟨ht.before, ht.after⟩, fun hs => .of_signs hs.1 hs.2⟩
  obtain ⟨a, ha⟩ := a
  obtain ⟨b, hb⟩ := b
  induction a generalizing b with
  | nil => exact hends ⟨[], ha⟩ ⟨b, hb⟩ (.inl rfl)
  | cons x xs ih =>
    cases b with
    | nil => exact hends ⟨x :: xs, ha⟩ ⟨[], hb⟩ (.inr rfl)
    | cons y ys =>
      simp only [Near]
      rw [oidCmp_cons ha hb]
      by_cases hxy : x = y
      · subst hxy
        rw [if_pos rfl, if_pos rfl]
        refine Iff.trans ?_ (ih (Nat.lt_of_succ_lt ha) ys (Nat.lt_of_succ_lt hb))
        constructor
        · intro h
          exact ⟨by simpa using h.before, by simpa using h.equal, by simpa using h.after⟩
        · intro h
          exact ⟨by simpa using h.before, by simpa using h.equal, by simpa using h.after⟩
      · rw [if_neg hxy, if_neg hxy, ← sign_sub_iff]
        have hlt : x :: xs < y :: ys ↔ x.toNat < y.toNat := by
          rw [List.cons_lt_cons_iff, or_iff_left (fun h => hxy h.1), UInt32.lt_iff_toNat_lt]
        have hgt : y :: ys < x :: xs ↔ y.toNat < x.toNat := by
          rw [List.cons_lt_cons_iff, or_iff_left (fun h => hxy h.1.symm), UInt32.lt_iff_toNat_lt]
        rw [← hlt, ← hgt]
        exact ⟨fun ht => ⟨ht.before, ht.after⟩, fun hs => .of_signs hs.1 hs.2⟩

/-- Unless the lengths are far apart, the comparison is the one in unbounded numbers. -/
theorem SpannedOid.toInt_oidCmp (a b : SpannedOid) (h : Close a.1.length b.1.length) :
    (a.oidCmp b).toInt = SmartSnmp.oidCmp a.1 b.1 := by
  have hends : ∀ a b : SpannedOid, a.1 = [] ∨ b.1 = [] → Close a.1.length b.1.length →
      (a.oidCmp b).toInt = SmartSnmp.oidCmp a.1 b.1 := by
    intro a b hend hclose
    have hcmp : SmartSnmp.oidCmp a.1 b.1 = (a.1.length : Int) - b.1.length := by
      rcases hend with h | h
      · rw [h, SmartSnmp.oidCmp]
        simp
      · rw [h]
        cases a.1 <;> rw [SmartSnmp.oidCmp] <;> simp
    have ha := a.2
    have hb := b.2
    rw [hcmp, oidCmp_end hend, toInt_toInt32, UInt32.toNat_sub, toNat_ofNat_length ha,
      toNat_ofNat_length hb]
    obtain ⟨h1, h2⟩ := hclose
    split_ifs <;> omega
  obtain ⟨a, ha⟩ := a
  obtain ⟨b, hb⟩ := b
  induction a generalizing b with
  | nil => exact hends ⟨[], ha⟩ ⟨b, hb⟩ (.inl rfl) h
  | cons x xs ih =>
    cases b with
    | nil => exact hends ⟨x :: xs, ha⟩ ⟨[], hb⟩ (.inr rfl) h
    | cons y ys =>
      rw [oidCmp_cons ha hb, SmartSnmp.oidCmp_cons]
      by_cases hxy : x = y
      · rw [if_pos hxy, if_pos hxy]
        apply ih
        simp only [Close, List.length_cons] at h ⊢
        omega
      · rw [if_neg hxy, if_neg hxy]

/-! ### Sets of OIDs -/

/-- On these OIDs the comparison is the lexicographic order: antisymmetric, transitive, and that of
the binary search between two slots of a group. -/
structure IsLexicographicOn (oids : Set SpannedOid) : Prop where
  tells : ∀ a ∈ oids, ∀ b ∈ oids, Tells a.1 b.1 (a.oidCmp b).toInt
  antisymm : ∀ a ∈ oids, ∀ b ∈ oids, (a.oidCmp b).toInt < 0 ↔ 0 < (b.oidCmp a).toInt
  trans : ∀ a ∈ oids, ∀ b ∈ oids, ∀ c ∈ oids, (a.oidCmp b).toInt < 0 → (b.oidCmp c).toInt < 0 →
    (a.oidCmp c).toInt < 0
  slots : ∀ a ∈ oids, ∀ b ∈ oids, ∀ p x s y t, a.1 = p ++ x :: s → b.1 = p ++ y :: t → x ≠ y →
    (0 < (a.oidCmp b).toInt ↔ y < x)

lemma append_cons_lt_iff (p : Oid) {x y : UInt32} (hne : x ≠ y) (s t : Oid) :
    p ++ x :: s < p ++ y :: t ↔ x < y := by
  rw [PrefixOrder.append_lt_append_left, List.cons_lt_cons_iff, or_iff_left (fun h => hne h.1)]

/-- A comparison of two OIDs tells their order exactly if they are near, and the comparisons of a set
of OIDs are the lexicographic order exactly if all of them are near. -/
theorem oidCmp_lexicographic_iff (a b : SpannedOid) (oids : Set SpannedOid) :
    (Tells a.1 b.1 (a.oidCmp b).toInt ↔ Near a.1 b.1) ∧
      (IsLexicographicOn oids ↔ ∀ a ∈ oids, ∀ b ∈ oids, Near a.1 b.1) := by
  refine ⟨SpannedOid.tells_iff a b, ?_⟩
  constructor
  · intro h a ha b hb
    exact (SpannedOid.tells_iff a b).mp (h.tells a ha b hb)
  · intro h
    have htells : ∀ a ∈ oids, ∀ b ∈ oids, Tells a.1 b.1 (a.oidCmp b).toInt := fun a ha b hb =>
      (SpannedOid.tells_iff a b).mpr (h a ha b hb)
    refine ⟨htells, ?_, ?_, ?_⟩
    · intro a ha b hb
      rw [(htells a ha b hb).before, (htells b hb a ha).after]
    · intro a ha b hb c hc hab hbc
      rw [(htells a ha b hb).before] at hab
      rw [(htells b hb c hc).before] at hbc
      exact (htells a ha c hc).before.mpr (hab.trans hbc)
    · intro a ha b hb p x s y t heqa heqb hne
      rw [(htells a ha b hb).after, heqa, heqb]
      exact append_cons_lt_iff p hne.symm t s

/-- The difference of `0` and `2147483649` is read as a positive number. -/
theorem oidCmp_wraps : ¬ ∀ a b : SpannedOid, Tells a.1 b.1 (a.oidCmp b).toInt := by
  intro h
  have hpos : 0 < (SpannedOid.oidCmp ⟨[0], by decide⟩ ⟨[2147483649], by decide⟩).toInt := by decide
  exact absurd ((h _ _).after.mp hpos) (by decide)

end SmartSnmp
