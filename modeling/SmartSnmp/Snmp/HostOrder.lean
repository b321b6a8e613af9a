import SmartSnmp.Lib.Scan
import SmartSnmp.Snmp.Codec

/-!
# The two branches of the encoders

Each integer and length encoder of `core/snmp_encoder.c` has a `LITTLE_ENDIAN` branch, which walks the
bytes of its word downwards, and a branch for other hosts, which walks them upwards. Here they are with
every index checked: `none` stands for an access outside of the four bytes of the union. The functions of
`Snmp.Encoder` are the first branches without the checks.
-/

namespace SmartSnmp

open Bytes Scan

/-- The bytes of a word on a big-endian host. -/
def wordBytesBe (w : UInt32) : List UInt8 := beBytes 4 w.toNat

/-! ### Branches for a little-endian host -/

def berIntEncTryLe (value : Int32) : Option Nat :=
  let buf := wordBytes value.toUInt32
  if 0 ≤ value then do
    let i ← down (· == 0) buf 3
    let b ← buf[i]?
    some ((if highBit b then 1 else 0) + (i + 1))
  else do
    let i ← down (· == 0xff) buf 3
    let b ← buf[i]?
    some ((if highBit b then 0 else 1) + (i + 1))

def berIntEncLe (value : Int32) : Option (List UInt8) :=
  let buf := wordBytes value.toUInt32
  if 0 ≤ value then do
    let i ← down (· == 0) buf 3
    let b ← buf[i]?
    let out ← copyDown buf i
    some ((if highBit b then [0] else []) ++ out)
  else do
    let i ← down (· == 0xff) buf 3
    let b ← buf[i]?
    let out ← copyDown buf i
    some ((if highBit b then [] else [0xff]) ++ out)

def berUintEncTryLe (value : UInt32) : Option Nat := do
  let buf := wordBytes value
  let i ← down (· == 0) buf 3
  let b ← buf[i]?
  some ((if highBit b then 1 else 0) + (i + 1))

def berUintEncLe (value : UInt32) : Option (List UInt8) := do
  let buf := wordBytes value
  let i ← down (· == 0) buf 3
  let b ← buf[i]?
  let out ← copyDown buf i
  some ((if highBit b then [0] else []) ++ out)

def berLengthEncTryLe (value : UInt32) : Option Nat := do
  let buf := wordBytes value
  let i ← down (· == 0) buf 3
  some ((if 127 < value then 1 else 0) + (i + 1))

def berLengthEncLe (value : UInt32) : Option (List UInt8) := do
  let buf := wordBytes value
  let i ← down (· == 0) buf 3
  let out ← copyDown buf i
  some ((if 127 < value then [0x80 ||| UInt8.ofNat (i + 1)] else []) ++ out)

lemma down_eq_trimIndex (pad : UInt8) {buf : List UInt8} {i : Nat} (h : i < buf.length) :
    down (· == pad) buf i = some (trimIndex pad buf i) := by
  induction i with
  | zero => rfl
  | succ i ih =>
    rw [down_succ h, trimIndex, List.getD_eq_getElem?_getD, List.getElem?_eq_getElem h, Option.getD_some]
    by_cases hpad : buf[i + 1] = pad
    · rw [if_pos (by simpa using hpad), if_pos hpad, ih (by omega)]
    · rw [if_neg (by simpa using hpad), if_neg hpad]

/-- The checks hold, and without them the branches are the functions of the encoder. -/
lemma branches_le :
    (∀ value, berIntEncTryLe value = some (berIntEncTry value) ∧
      berIntEncLe value = some (berIntEnc value)) ∧
    (∀ value, berUintEncTryLe value = some (berUintEncTry value) ∧
      berUintEncLe value = some (berUintEnc value)) ∧
    ∀ value, berLengthEncTryLe value = some (berLengthEncTry value) ∧
      berLengthEncLe value = some (berLengthEnc value) := by
  have hdown : ∀ pad w, down (· == pad) (wordBytes w) 3 = some (trimIndex pad (wordBytes w) 3) :=
    fun pad w => down_eq_trimIndex pad (by simp)
  have hget : ∀ pad w, (wordBytes w)[trimIndex pad (wordBytes w) 3]? =
      some ((wordBytes w).getD (trimIndex pad (wordBytes w) 3) 0) := by
    intro pad w
    have hlt := trimIndex_wordBytes_lt pad w
    rw [List.getD_eq_getElem?_getD, List.getElem?_eq_getElem hlt, Option.getD_some]
  have hcopy : ∀ pad w, copyDown (wordBytes w) (trimIndex pad (wordBytes w) 3) =
      some (bytesDown (wordBytes w) (trimIndex pad (wordBytes w) 3)) :=
    fun pad w => copyDown_eq (trimIndex_wordBytes_lt pad w)
  refine ⟨fun value => ?_, fun value => ?_, fun value => ?_⟩
  · simp only [berIntEncTryLe, berIntEncLe, hdown, hget, hcopy, Option.bind_eq_bind, Option.bind_some,
      ← apply_ite some]
    exact ⟨rfl, rfl⟩
  · simp only [berUintEncTryLe, berUintEncLe, hdown, hget, hcopy, Option.bind_eq_bind,
      Option.bind_some]
    exact ⟨rfl, rfl⟩
  · simp only [berLengthEncTryLe, berLengthEncLe, hdown, hcopy, Option.bind_eq_bind, Option.bind_some]
    exact ⟨rfl, rfl⟩

/-! ### Branches for a big-endian host -/

def berIntEncTryBe (value : Int32) : Option Nat :=
  let buf := wordBytesBe value.toUInt32
  if 0 ≤ value then do
    let i ← up (· == 0) buf 4 0
    let b ← buf[i]?
    some ((if highBit b then 1 else 0) + (4 - i))
  else do
    let i ← up (· == 0xff) buf 4 0
    let b ← buf[i]?
    some ((if highBit b then 0 else 1) + (4 - i))

def berIntEncBe (value : Int32) : Option (List UInt8) :=
  let buf := wordBytesBe value.toUInt32
  if 0 ≤ value then do
    let i ← up (· == 0) buf 4 0
    let b ← buf[i]?
    let out ← copyUp buf (4 - i) i
    some ((if highBit b then [0] else []) ++ out)
  else do
    let i ← up (· == 0xff) buf 4 0
    let b ← buf[i]?
    let out ← copyUp buf (4 - i) i
    some ((if highBit b then [] else [0xff]) ++ out)

def berUintEncTryBe (value : UInt32) : Option Nat := do
  let buf := wordBytesBe value
  let i ← up (· == 0) buf 4 0
  let b ← buf[i]?
  some ((if highBit b then 1 else 0) + (4 - i))

def berUintEncBe (value : UInt32) : Option (List UInt8) := do
  let buf := wordBytesBe value
  let i ← up (· == 0) buf 4 0
  let b ← buf[i]?
  let out ← copyUp buf (4 - i) i
  some ((if highBit b then [0] else []) ++ out)

def berLengthEncTryBe (value : UInt32) : Option Nat := do
  let buf := wordBytesBe value
  let i ← up (· == 0) buf 4 0
  some ((if 127 < value then 1 else 0) + (4 - i))

def berLengthEncBe (value : UInt32) : Option (List UInt8) := do
  let buf := wordBytesBe value
  let i ← up (· == 0) buf 4 0
  let out ← copyUp buf (4 - i) i
  some ((if 127 < value then [0x80 ||| UInt8.ofNat (4 - i)] else []) ++ out)

/-! ### Words of padding -/

lemma wordBytesBe_eq (w : UInt32) : wordBytesBe w = (wordBytes w).reverse := rfl

/-- The word whose bytes are all `pad`. -/
def padWord (pad : UInt8) : UInt32 := UInt32.ofNat (leNat (List.replicate 4 pad))

lemma wordBytes_padWord (pad : UInt8) : wordBytes (padWord pad) = List.replicate 4 pad := by
  have hlt := leNat_lt (List.replicate 4 pad)
  have hbytes := leBytes_leNat (List.replicate 4 pad)
  rw [List.length_replicate] at hlt hbytes
  rw [wordBytes, padWord, UInt32.toNat_ofNat_of_lt' hlt, hbytes]

lemma forall_wordBytes_iff (pad : UInt8) (w : UInt32) :
    (∀ x ∈ wordBytes w, (x == pad) = true) ↔ w = padWord pad := by
  simp only [beq_iff_eq]
  constructor
  · intro h
    have hrep : wordBytes w = List.replicate 4 pad := List.eq_replicate_iff.mpr ⟨length_wordBytes w, h⟩
    rw [padWord, ← hrep, leNat_wordBytes, UInt32.ofNat_toNat]
  · rintro rfl x hx
    rw [wordBytes_padWord] at hx
    exact List.eq_of_mem_replicate hx

/-- In a word with another byte, the two scans stop at the same byte, and the same bytes are left. -/
lemma scans_wordBytes (pad : UInt8) {w : UInt32} (h : w ≠ padWord pad) :
    ∃ i ≤ 3, ∃ b out, down (· == pad) (wordBytes w) 3 = some i ∧
      up (· == pad) (wordBytesBe w) 4 0 = some (3 - i) ∧ (wordBytes w)[i]? = some b ∧
      (wordBytesBe w)[3 - i]? = some b ∧ 4 - (3 - i) = i + 1 ∧ copyDown (wordBytes w) i = some out ∧
      copyUp (wordBytesBe w) (i + 1) (3 - i) = some out := by
  have hne : ∃ x ∈ wordBytes w, ¬ (x == pad) = true := by
    by_contra hall
    exact h ((forall_wordBytes_iff pad w).mp (by simpa using hall))
  obtain ⟨i, hi, hdown, hup, b, hb, hb', -⟩ := up_reverse_eq_down (n := 3) (length_wordBytes w) hne
  have hlt : i < (wordBytes w).length := by
    rw [length_wordBytes]
    omega
  have hcopy := copyUp_reverse hlt
  rw [length_wordBytes, ← wordBytesBe_eq] at hcopy
  refine ⟨i, hi, b, _, hdown, hup, hb, hb', by omega, copyDown_eq hlt, ?_⟩
  rw [hcopy, copyDown_eq hlt]

/-- In a word without another byte, the scan upwards leaves the word. -/
lemma scans_padWord (pad : UInt8) :
    down (· == pad) (wordBytes (padWord pad)) 3 = some 0 ∧
      up (· == pad) (wordBytesBe (padWord pad)) 4 0 = some 4 ∧
      (wordBytesBe (padWord pad))[4]? = none := by
  obtain ⟨hdown, hup⟩ := scans_of_forall (n := 3) (length_wordBytes _)
    ((forall_wordBytes_iff pad _).mpr rfl)
  refine ⟨hdown, hup, List.getElem?_eq_none ?_⟩
  rw [wordBytesBe_eq, List.length_reverse, length_wordBytes]

/-! ### Agreement -/

/-- The functions with two branches, each with its dry run. -/
inductive BerEncoder where
  | int
  | uint
  | length
  deriving DecidableEq

namespace BerEncoder

/-- What the branch for a little-endian host writes. -/
def encLe : BerEncoder → UInt32 → Option (List UInt8)
  | .int, w => berIntEncLe w.toInt32
  | .uint, w => berUintEncLe w
  | .length, w => berLengthEncLe w

/-- What the branch for a big-endian host writes. -/
def encBe : BerEncoder → UInt32 → Option (List UInt8)
  | .int, w => berIntEncBe w.toInt32
  | .uint, w => berUintEncBe w
  | .length, w => berLengthEncBe w

/-- What the dry run for a little-endian host returns. -/
def tryLe : BerEncoder → UInt32 → Option Nat
  | .int, w => berIntEncTryLe w.toInt32
  | .uint, w => berUintEncTryLe w
  | .length, w => berLengthEncTryLe w

/-- What the dry run for a big-endian host returns. -/
def tryBe : BerEncoder → UInt32 → Option Nat
  | .int, w => berIntEncTryBe w.toInt32
  | .uint, w => berUintEncTryBe w
  | .length, w => berLengthEncTryBe w

/-- The branches stay in the word, write the same bytes and announce the same length. -/
def BranchesAgree (f : BerEncoder) (w : UInt32) : Prop :=
  ∃ bytes len, f.encLe w = some bytes ∧ f.encBe w = some bytes ∧ f.tryLe w = some len ∧
    f.tryBe w = some len

variable {w : UInt32}

lemma branchesAgree_uint (h : w ≠ 0) : BranchesAgree .uint w := by
  obtain ⟨i, hi, b, out, hdown, hup, hb, hb', hleft, hcopy, hcopy'⟩ := scans_wordBytes 0 h
  refine ⟨(if highBit b then [0] else []) ++ out, (if highBit b then 1 else 0) + (i + 1), ?_, ?_, ?_, ?_⟩
  · simp only [encLe, berUintEncLe, hdown, hb, hcopy, Option.bind_eq_bind, Option.bind_some]
  · simp only [encBe, berUintEncBe, hup, hb', hleft, hcopy', Option.bind_eq_bind, Option.bind_some]
  · simp only [tryLe, berUintEncTryLe, hdown, hb, Option.bind_eq_bind, Option.bind_some]
  · simp only [tryBe, berUintEncTryBe, hup, hb', hleft, Option.bind_eq_bind, Option.bind_some]

lemma branchesAgree_length (h : w ≠ 0) : BranchesAgree .length w := by
  obtain ⟨i, hi, b, out, hdown, hup, -, -, hleft, hcopy, hcopy'⟩ := scans_wordBytes 0 h
  refine ⟨(if 127 < w then [0x80 ||| UInt8.ofNat (i + 1)] else []) ++ out,
    (if 127 < w then 1 else 0) + (i + 1), ?_, ?_, ?_, ?_⟩
  · simp only [encLe, berLengthEncLe, hdown, hcopy, Option.bind_eq_bind, Option.bind_some]
  · simp only [encBe, berLengthEncBe, hup, hleft, hcopy', Option.bind_eq_bind, Option.bind_some]
  · simp only [tryLe, berLengthEncTryLe, hdown, Option.bind_eq_bind, Option.bind_some]
  · simp only [tryBe, berLengthEncTryBe, hup, hleft, Option.bind_eq_bind, Option.bind_some]

lemma branchesAgree_int (h0 : w ≠ 0) (h1 : w ≠ 0xffffffff) : BranchesAgree .int w := by
  by_cases hv : 0 ≤ w.toInt32
  · obtain ⟨i, hi, b, out, hdown, hup, hb, hb', hleft, hcopy, hcopy'⟩ := scans_wordBytes 0 h0
    refine ⟨(if highBit b then [0] else []) ++ out, (if highBit b then 1 else 0) + (i + 1),
      ?_, ?_, ?_, ?_⟩
    · simp only [encLe, berIntEncLe, UInt32.toUInt32_toInt32, if_pos hv, hdown, hb, hcopy,
        Option.bind_eq_bind, Option.bind_some]
    · simp only [encBe, berIntEncBe, UInt32.toUInt32_toInt32, if_pos hv, hup, hb', hleft, hcopy',
        Option.bind_eq_bind, Option.bind_some]
    · simp only [tryLe, berIntEncTryLe, UInt32.toUInt32_toInt32, if_pos hv, hdown, hb,
        Option.bind_eq_bind, Option.bind_some]
    · simp only [tryBe, berIntEncTryBe, UInt32.toUInt32_toInt32, if_pos hv, hup, hb', hleft,
        Option.bind_eq_bind, Option.bind_some]
  · obtain ⟨i, hi, b, out, hdown, hup, hb, hb', hleft, hcopy, hcopy'⟩ := scans_wordBytes 0xff h1
    refine ⟨(if highBit b then [] else [0xff]) ++ out, (if highBit b then 0 else 1) + (i + 1),
      ?_, ?_, ?_, ?_⟩
    · simp only [encLe, berIntEncLe, UInt32.toUInt32_toInt32, if_neg hv, hdown, hb, hcopy,
        Option.bind_eq_bind, Option.bind_some]
    · simp only [encBe, berIntEncBe, UInt32.toUInt32_toInt32, if_neg hv, hup, hb', hleft, hcopy',
        Option.bind_eq_bind, Option.bind_some]
    · simp only [tryLe, berIntEncTryLe, UInt32.toUInt32_toInt32, if_neg hv, hdown, hb,
        Option.bind_eq_bind, Option.bind_some]
    · simp only [tryBe, berIntEncTryBe, UInt32.toUInt32_toInt32, if_neg hv, hup, hb', hleft,
        Option.bind_eq_bind, Option.bind_some]

/-- Behind four bytes of padding, the sign is read outside of the word. -/
lemma encBe_padding : encBe .int 0 = none ∧ encBe .int 0xffffffff = none ∧ encBe .uint 0 = none := by
  have h0 : (0 : UInt32) = padWord 0 := by decide
  have h1 : (0xffffffff : UInt32) = padWord 0xff := by decide
  obtain ⟨-, hup0, hget0⟩ := scans_padWord 0
  obtain ⟨-, hup1, hget1⟩ := scans_padWord 0xff
  rw [← h0] at hup0 hget0
  rw [← h1] at hup1 hget1
  refine ⟨?_, ?_, ?_⟩
  · rw [encBe, berIntEncBe, if_pos (by decide), UInt32.toUInt32_toInt32]
    simp only [hup0, hget0, Option.bind_eq_bind, Option.bind_some, Option.bind_none]
  · rw [encBe, berIntEncBe, if_neg (by decide), UInt32.toUInt32_toInt32]
    simp only [hup1, hget1, Option.bind_eq_bind, Option.bind_some, Option.bind_none]
  · simp only [encBe, berUintEncBe, hup0, hget0, Option.bind_eq_bind, Option.bind_some,
      Option.bind_none]

lemma not_branchesAgree_of_none {f : BerEncoder} (h : f.encBe w = none) : ¬ BranchesAgree f w := by
  rintro ⟨bytes, len, -, hbe, -⟩
  rw [h] at hbe
  cases hbe

/-- The branches agree on every word but 0, and but -1 where it is signed. -/
theorem branchesAgree_iff (f : BerEncoder) (w : UInt32) :
    BranchesAgree f w ↔ w ≠ 0 ∧ (f = .int → w ≠ 0xffffffff) := by
  obtain ⟨hint0, hint1, huint0⟩ := encBe_padding
  constructor
  · intro h
    constructor
    · rintro rfl
      cases f with
      | int => exact not_branchesAgree_of_none hint0 h
      | uint => exact not_branchesAgree_of_none huint0 h
      | length =>
        -- one zero byte is written, or none
        obtain ⟨bytes, len, hle, hbe, -⟩ := h
        have hnil : encLe .length 0 ≠ encBe .length 0 := by decide
        exact hnil (hle.trans hbe.symm)
    · rintro rfl rfl
      exact not_branchesAgree_of_none hint1 h
  · rintro ⟨h0, h1⟩
    cases f with
    | int => exact branchesAgree_int h0 (h1 rfl)
    | uint => exact branchesAgree_uint h0
    | length => exact branchesAgree_length h0

/-- On a big-endian host nothing is written of the length 0, and the sign of 0 and of -1 is read
outside of the word. -/
theorem branches_disagree :
    encLe .length 0 = some [0] ∧ encBe .length 0 = some [] ∧ encBe .int 0 = none ∧
      encBe .int 0xffffffff = none ∧ encBe .uint 0 = none ∧ ¬ ∀ f w, BranchesAgree f w := by
  obtain ⟨hint0, hint1, huint0⟩ := encBe_padding
  refine ⟨by decide, by decide, hint0, hint1, huint0, ?_⟩
  intro h
  exact not_branchesAgree_of_none huint0 (h .uint 0)

end BerEncoder

end SmartSnmp
