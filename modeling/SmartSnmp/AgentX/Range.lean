import SmartSnmp.AgentX.MsgProc
import SmartSnmp.Mib.Search.Lookup
import SmartSnmp.Mib.Search.View
import SmartSnmp.Snmp.Leftover

/-!
# GETNEXT in a search range

`mib_getnext` of `core/agentx_msg_proc.c` for a range of OIDs. It searches at the start if that is
included, then next to it, and compares what it found with the end of the range. The search at the
start asks the handler for the OID next to it.
-/

namespace SmartSnmp

open PrefixOrder MibNode

/-! ### Search ranges -/

namespace XSearchRange

/-- The OID is not past the end of the range. Without an end all OIDs are. -/
def UpTo (sr : XSearchRange) (oid : Oid) : Prop :=
  sr.stop = [] ∨ oid < sr.stop ∨ (sr.endInclude ≠ 0 ∧ oid = sr.stop)

/-- The OID is not ahead of the range. -/
def From (sr : XSearchRange) (oid : Oid) : Prop :=
  sr.start < oid ∨ (sr.startInclude ≠ 0 ∧ oid = sr.start)

/-- The OID `oid_cmp` takes to be in front of the end. -/
def Checked (sr : XSearchRange) (oid : Oid) : Prop :=
  sr.stop ≠ [] ∧ (oid < sr.stop → NearBelow oid sr.stop)

variable {sr : XSearchRange} {oid : Oid}

lemma UpTo.of_le (h : sr.UpTo oid) {oid' : Oid} (hle : oid' ≤ oid) : sr.UpTo oid' := by
  rcases h with h | h | ⟨hincl, rfl⟩
  · exact .inl h
  · exact .inr (.inl (lt_of_le_of_lt hle h))
  · rcases hle.lt_or_eq with hlt | rfl
    · exact .inr (.inl hlt)
    · exact .inr (.inr ⟨hincl, rfl⟩)

end XSearchRange

/-- A start of a range that is found to lie where it does relative to `1.3.6.1`. -/
def Placed (oid : Oid) : Prop := agentxDummyView <+: oid ∨ ∀ id ∈ oid, id.toNat < 2 ^ 31

/-- What `agentx_value_dec` reads of an OID is empty or lies below `1.3.6.1`. -/
lemma placed_of_oidDec {v : DecodedValue} (h : Reader.Yields (agentxOidDec : Reader AgentxErrCode _) v) :
    Placed (wordsOf v.value) := by
  obtain ⟨nSubid, -, h⟩ := h.of_bind
  obtain ⟨pre, -, h⟩ := h.of_bind
  obtain ⟨-, -, h⟩ := h.of_bind
  split_ifs at h
  · obtain rfl := h.of_pure
    exact .inr (by simp [wordsOf])
  · obtain ⟨subIds, -, h⟩ := h.of_bind
    obtain rfl := h.of_pure
    exact .inl ⟨wordsOf ([pre, 0, 0, 0] ++ subIds), rfl⟩

/-- The start of every range that is received is placed. -/
lemma placed_of_searchRangeAlloc {flag : UInt8} {sr : XSearchRange} {used : Nat}
    (h : Reader.Yields (searchRangeAlloc flag) (sr, used)) : Placed sr.start := by
  obtain ⟨startLen, -, h⟩ := h.of_bind
  obtain ⟨-, -, h⟩ := h.of_bind
  obtain ⟨startInclude, -, h⟩ := h.of_bind
  obtain ⟨start, hstart, h⟩ := h.of_bind
  obtain ⟨-, -, h⟩ := h.of_bind
  obtain ⟨endLen, -, h⟩ := h.of_bind
  obtain ⟨-, -, h⟩ := h.of_bind
  obtain ⟨endInclude, -, h⟩ := h.of_bind
  obtain ⟨stop, -, h⟩ := h.of_bind
  obtain ⟨rfl, -⟩ := Prod.mk.inj h.of_pure
  exact placed_of_oidDec hstart.of_peek

/-- The end is compared rightly if there is one and if it is not too far away. -/
lemma exceeds_iff (sr : XSearchRange) {oid : Oid} (hsmall : ∀ id ∈ oid, id.toNat < 2 ^ 31)
    (hne : oid ≠ []) : AgentX.exceeds sr oid = false ↔ sr.UpTo oid ∧ sr.Checked oid := by
  have hneg := oidCmp_neg_iff (b := sr.stop) hsmall
  have hzero := oidCmp_eq_zero_iff oid sr.stop
  have hexceeds : AgentX.exceeds sr oid = false ↔
      oidCmp oid sr.stop < 0 ∨ (sr.endInclude ≠ 0 ∧ oidCmp oid sr.stop = 0) := by
    by_cases hincl : sr.endInclude = 0
    · simp [AgentX.exceeds, hincl]
    · simp only [AgentX.exceeds, hincl, ne_eq, not_false_eq_true, decide_true, Bool.true_and, decide_false,
        Bool.false_and, Bool.or_false, decide_eq_false_iff_not, not_lt, true_and]
      exact Int.le_iff_lt_or_eq
  rw [hexceeds, hneg, hzero]
  constructor
  · rintro (⟨hlt, hnear⟩ | ⟨hincl, rfl⟩)
    · refine ⟨.inr (.inl hlt), fun hnil => ?_, fun _ => hnear⟩
      rw [hnil] at hlt
      exact absurd hlt (List.not_lt_nil _)
    · exact ⟨.inr (.inr ⟨hincl, rfl⟩), hne, fun hlt => absurd hlt (lt_irrefl _)⟩
  · rintro ⟨hnil | hlt | hend, hstop, hnear⟩
    · exact absurd hnil hstop
    · exact .inl ⟨hlt, hnear hlt⟩
    · exact .inr hend

/-! ### Handlers -/

/-- Two answers have the same type and the same value. -/
def Answer.Same (a b : Answer) : Prop := a.tag = b.tag ∧ a.stored = b.stored

/-- The handlers have the instances `S`, each with the value `own` gives it: GET is answered for these
alone, and GETNEXT with the least one above the suffix. -/
structure OwnHandlers (root : MibNode) (handlers : Handlers) (fam : HandlerFamily)
    (own : Int → Oid → Answer) (S : Int → Set Oid) : Prop extends LeastHandlers root handlers fam S where
  named : ∀ cb, ∀ a ∈ S cb, (own cb a).subOid = a
  next : ∀ cb s a, fam cb s = some a → a = own cb a.subOid
  getSome : ∀ l cb, ∀ a ∈ S cb, ∃ subOid,
    handlers l ⟨cb, .get, a, .nil, none⟩ = .results 0 subOid (own cb a).val (own cb a).tag
  getNone : ∀ l cb a, a ∉ S cb → ¬ (handlers l ⟨cb, .get, a, .nil, none⟩).Succeeds

lemma length_of_stored {a : Answer} {len : Nat} {bytes : List UInt8} (h : a.stored = some (len, bytes)) :
    extent a.tag len = bytes.length :=
  (extent_toVariable (Option.filter_eq_some_iff.mp h).1).2

/-- A result carries the answers that are the same as one it carries. -/
lemma Returned.iff_same {res : OidSearchRes} {oid : Oid} {a : Answer} (h : Returned res (oid, a))
    (b : Answer) : Returned res (oid, b) ↔ b.Same a := by
  obtain ⟨hoid, herr, htag, len, bytes, hstored, hlen, hbytes⟩ := h
  constructor
  · rintro ⟨-, -, htag', len', bytes', hstored', hlen', hbytes'⟩
    have heq : b.tag = a.tag := htag'.symm.trans htag
    obtain rfl : len' = len := hlen'.symm.trans hlen
    have hsize : bytes'.length = bytes.length := by
      rw [← length_of_stored hstored, ← length_of_stored hstored', heq]
    refine ⟨heq, ?_⟩
    rw [hstored, hstored', List.prefix_iff_eq_take.mp hbytes, List.prefix_iff_eq_take.mp hbytes', hsize]
  · rintro ⟨heq, hsame⟩
    exact ⟨hoid, herr, htag.trans heq.symm, len, bytes, hsame.trans hstored, hlen, hbytes⟩

/-! ### What a search should return -/

/-- The existing instances of a range. -/
def RangeTargets (root : MibNode) (S : Int → Set Oid) (sr : XSearchRange) : Set Oid :=
  {x | Existing root S x ∧ sr.From x ∧ sr.UpTo x}

/-- The existing instances behind an OID. -/
def Behind (root : MibNode) (S : Int → Set Oid) (oid : Oid) : Set Oid := {x | Existing root S x ∧ oid < x}

/-- The end of the view with the start of the range. -/
def EndOfRange (sr : XSearchRange) (out : Outcome OidSearchRes) : Prop :=
  ∃ res, out = .ok res ∧ res.oid = sr.start ∧ res.errStat = 0 ∧ res.var.tag = asn1TagEndOfMibView

/-- The search returns the least instance of the range with its value, or the end of the view if there
is none. -/
def HonoursRange (root : MibNode) (own : Int → Oid → Answer) (S : Int → Set Oid) (sr : XSearchRange)
    (out : Outcome OidSearchRes) : Prop :=
  (∃ p cb a res, Occurs root p (.inst cb) ∧ a ∈ S cb ∧ IsLeast (RangeTargets root S sr) (p ++ a) ∧
    out = .ok res ∧ Returned res (p ++ a, own cb a)) ∨
  (RangeTargets root S sr = ∅ ∧ EndOfRange sr out)

section Search

variable {root : MibNode} {handlers : Handlers} {fam : HandlerFamily} {own : Int → Oid → Answer}
  {S : Int → Set Oid} {sr : XSearchRange} {out : Outcome OidSearchRes}

/-- The end of the view is no instance. -/
lemma not_endOfRange {res : OidSearchRes} {hit : Oid × Answer} (hret : Returned res hit) :
    ¬ EndOfRange sr (.ok res) := by
  rintro ⟨res', heq, -, -, htag⟩
  obtain rfl := Outcome.ok.inj heq
  have hvalid := hit.2.valid
  rw [← hret.2.2.1, htag] at hvalid
  exact absurd hvalid (by decide)

lemma EndOfRange.honours_iff (hend : EndOfRange sr out) :
    HonoursRange root own S sr out ↔ RangeTargets root S sr = ∅ := by
  constructor
  · rintro (⟨p, cb, a, res, -, -, -, rfl, hret⟩ | ⟨hempty, -⟩)
    · exact absurd hend (not_endOfRange hret)
    · exact hempty
  · exact fun hempty => .inr ⟨hempty, hend⟩

/-- A result that carries an answer has to carry the one of the least instance. -/
lemma Returned.honours_iff {res : OidSearchRes} {oid : Oid} {a : Answer} (hret : Returned res (oid, a)) :
    HonoursRange root own S sr (.ok res) ↔ ∃ p cb a', Occurs root p (.inst cb) ∧ a' ∈ S cb ∧
      IsLeast (RangeTargets root S sr) (p ++ a') ∧ oid = p ++ a' ∧ (own cb a').Same a := by
  constructor
  · rintro (⟨p, cb, a', res', hocc, ha', hleast, heq, hret'⟩ | ⟨-, hend⟩)
    · obtain rfl := Outcome.ok.inj heq
      obtain rfl : oid = p ++ a' := hret.1.symm.trans hret'.1
      exact ⟨p, cb, a', hocc, ha', hleast, rfl, (hret.iff_same _).mp hret'⟩
    · exact absurd hend (not_endOfRange hret)
  · rintro ⟨p, cb, a', hocc, ha', hleast, rfl, hsame⟩
    exact .inl ⟨p, cb, a', res, hocc, ha', hleast, rfl, (hret.iff_same _).mpr hsame⟩

/-- An answer of GETNEXT is an instance with its own value. -/
lemma OwnHandlers.mem_of_answer (h : OwnHandlers root handlers fam own S) {cb : Int} {s : Oid} {a : Answer}
    (ha : fam cb s = some a) : a.subOid ∈ S cb ∧ s < a.subOid := by
  have hleast := h.least cb s
  rw [ha] at hleast
  exact hleast.1

lemma Returned.honours_iff_of_own (h : OwnHandlers root handlers fam own S) {res : OidSearchRes}
    {hit : Oid × Answer} (hret : Returned res hit) (hfrom : FromHandler root fam hit) :
    HonoursRange root own S sr (.ok res) ↔ IsLeast (RangeTargets root S sr) hit.1 := by
  rw [Returned.honours_iff (by exact hret)]
  constructor
  · rintro ⟨p, cb, a, -, -, hleast, heq, -⟩
    rwa [heq]
  · intro hleast
    obtain ⟨p, cb, s, hocc, ha, heq⟩ := hfrom
    refine ⟨p, cb, hit.2.subOid, hocc, (h.mem_of_answer ha).1, heq ▸ hleast, heq, ?_⟩
    rw [← h.next cb s hit.2 ha]
    exact ⟨rfl, rfl⟩

/-! ### The search next to the start -/

/-- What is found next to the start is compared with the end. -/
lemma mibGetBehind_apply (handlers : Handlers) (root : MibNode) (sr : XSearchRange) (ret : OidSearchRes)
    (l : List Call) : (AgentX.mibGetBehind handlers root sr ret l).1 =
      match (mibTreeSearchNext handlers agentxDummyView sr.start root ret l).1 with
      | .ok res => .ok (if !AgentX.failed res && AgentX.exceeds sr res.oid then
          { res with oid := sr.start, instPos := 0, instId := [] }.setTag asn1TagEndOfMibView else res)
      | .crash => .crash
      | .fuel => .fuel := by
  rw [AgentX.mibGetBehind, Traced.bind_apply]
  rcases mibTreeSearchNext handlers agentxDummyView sr.start root ret l with ⟨_ | _ | _, l'⟩
  · simp only
    split_ifs <;> rfl
  · rfl
  · rfl

/-- How the search behind the start ends whose first hit is given. -/
def RangeEnds (sr : XSearchRange) (out : Outcome OidSearchRes) : Option (Oid × Answer) → Prop
  | none => EndOfRange sr out
  | some hit =>
    if AgentX.exceeds sr hit.1 then EndOfRange sr out else ∃ res, out = .ok res ∧ Returned res hit

lemma mibGetBehind_ends {ret : OidSearchRes} {l : List Call} {hit : Option (Oid × Answer)}
    (hfit : ∀ x ∈ hit, fits x = true)
    (hends : SearchEnds sr.start (mibTreeSearchNext handlers agentxDummyView sr.start root ret l).1 hit) :
    RangeEnds sr (AgentX.mibGetBehind handlers root sr ret l).1 hit := by
  rw [mibGetBehind_apply]
  cases hit with
  | none =>
    obtain ⟨res, hout, hoid, herr, htag⟩ := hends
    have hfailed : AgentX.failed res = true := by
      rw [AgentX.failed, htag, herr]
      rfl
    simp only [hout, hfailed]
    exact ⟨res, rfl, hoid, herr, htag⟩
  | some x =>
    rw [SearchEnds, if_pos (hfit x rfl)] at hends
    obtain ⟨res, hout, hret⟩ := hends
    have hfailed : AgentX.failed res = false := by
      rw [AgentX.failed, hret.2.1, hret.2.2.1, x.2.valid]
      rfl
    simp only [hout, hfailed, hret.1, Bool.not_false, Bool.true_and]
    by_cases hexceeds : AgentX.exceeds sr x.1 = true
    · rw [RangeEnds, if_pos hexceeds, if_pos hexceeds]
      exact ⟨_, rfl, rfl, hret.2.1, rfl⟩
    · rw [RangeEnds, if_neg hexceeds, if_neg hexceeds]
      exact ⟨res, rfl, hret⟩

/-- The instances of the tree lie below `1.3.6.1`, and no sub-identifier is that large that a difference
wraps around. -/
structure InternetMib (root : MibNode) (S : Int → Set Oid) : Prop where
  under : ∀ p cb, Occurs root p (.inst cb) → agentxDummyView <+: p
  small : ∀ x, Existing root S x → ∀ id ∈ x, id.toNat < 2 ^ 31

lemma InternetMib.covered (hmib : InternetMib root S) {x : Oid} (hx : Existing root S x) :
    agentxDummyView <+: x := by
  obtain ⟨p, cb, a, hocc, -, rfl⟩ := hx
  exact (hmib.under p cb hocc).trans (List.prefix_append p a)

lemma InternetMib.targets_eq (hmib : InternetMib root S) (oid : Oid) :
    Targets root S agentxDummyView oid = Behind root S oid := by
  ext x
  exact ⟨fun hx => ⟨hx.1, hx.2.1⟩, fun hx => ⟨hx.1, hx.2, hmib.covered hx.1⟩⟩

lemma InternetMib.not_existing_view (hmib : InternetMib root S) (hsuffix : ∀ cb, [] ∉ S cb) :
    ¬ Existing root S agentxDummyView := by
  rintro ⟨p, cb, a, hocc, ha, heq⟩
  obtain ⟨t, rfl⟩ := hmib.under p cb hocc
  rw [List.append_assoc] at heq
  have hnil := List.append_eq_nil_iff.mp (List.self_eq_append_right.mp heq)
  rw [hnil.2] at ha
  exact hsuffix cb ha

/-- The search below `1.3.6.1` finds the least instance next to the start. -/
lemma search_behind (hok : RootOk root) (h : OwnHandlers root handlers fam own S)
    (hmib : InternetMib root S) {start : Oid} (hstart : Placed start) (ret : OidSearchRes)
    (l : List Call) :
    ∃ hit, SearchEnds start (mibTreeSearchNext handlers agentxDummyView start root ret l).1 hit ∧
      (∀ x ∈ hit, FromHandler root fam x) ∧ IsNext (Behind root S start) hit := by
  obtain ⟨hit, hends, hfrom, hnext⟩ := mibTreeSearchNext_hit agentxDummyView start hok h.toLeastHandlers
    (fun hv => oidCmp_neg_iff (hstart.resolve_left hv)) ret l
  refine ⟨hit, hends, hfrom, hmib.targets_eq start ▸ hnext.mpr ?_⟩
  by_cases hv : agentxDummyView <+: start
  · exact .inl hv
  · rcases lt_trichotomy agentxDummyView start with hlt | rfl | hlt
    · exact .inr (.inl hlt)
    · exact absurd (List.prefix_refl _) hv
    · exact .inr (.inr (.inr ⟨hmib.not_existing_view h.suffix, nearBelow_of_small start
        (by simp [agentxDummyView])⟩))

/-- All instances but the start are behind it. -/
lemma rangeTargets_eq (hnot : sr.start ∉ RangeTargets root S sr) :
    RangeTargets root S sr = {x | x ∈ Behind root S sr.start ∧ sr.UpTo x} := by
  ext x
  constructor
  · rintro ⟨hx, hlt | ⟨hincl, rfl⟩, hup⟩
    · exact ⟨⟨hx, hlt⟩, hup⟩
    · exact absurd ⟨hx, .inr ⟨hincl, rfl⟩, hup⟩ hnot
  · rintro ⟨⟨hx, hlt⟩, hup⟩
    exact ⟨hx, .inl hlt, hup⟩

lemma start_mem_rangeTargets : sr.start ∈ RangeTargets root S sr ↔
    sr.startInclude ≠ 0 ∧ Existing root S sr.start ∧ sr.UpTo sr.start := by
  constructor
  · rintro ⟨hx, hlt | ⟨hincl, -⟩, hup⟩
    · exact absurd hlt (lt_irrefl _)
    · exact ⟨hincl, hx, hup⟩
  · rintro ⟨hincl, hx, hup⟩
    exact ⟨hx, .inr ⟨hincl, rfl⟩, hup⟩

/-- What is next to the start is the least instance of the range if the start is none and the end is
behind it. -/
lemma isLeast_rangeTargets_iff {x : Oid} (hleast : IsLeast (Behind root S sr.start) x) :
    IsLeast (RangeTargets root S sr) x ↔ sr.start ∉ RangeTargets root S sr ∧ sr.UpTo x := by
  constructor
  · intro hx
    exact ⟨fun hmem => absurd (hx.2 hmem) (not_le.mpr hleast.1.2), hx.1.2.2⟩
  · rintro ⟨hnot, hup⟩
    rw [rangeTargets_eq hnot]
    exact ⟨⟨hleast.1, hup⟩, fun y hy => hleast.2 hy.1⟩

/-- The range is empty if the start is none of its instances and the end is ahead of what is next to
it. -/
lemma rangeTargets_eq_empty_iff {x : Oid} (hleast : IsLeast (Behind root S sr.start) x) :
    RangeTargets root S sr = ∅ ↔ sr.start ∉ RangeTargets root S sr ∧ ¬ sr.UpTo x := by
  constructor
  · intro hempty
    refine ⟨by simp [hempty], fun hup => ?_⟩
    have hmem : x ∈ RangeTargets root S sr := ⟨hleast.1.1, .inl hleast.1.2, hup⟩
    exact absurd hmem (by simp [hempty])
  · rintro ⟨hnot, hup⟩
    rw [rangeTargets_eq hnot, Set.eq_empty_iff_forall_notMem]
    exact fun y hy => hup (hy.2.of_le (hleast.2 hy.1))

lemma Existing.ne_nil (hsuffix : ∀ cb, [] ∉ S cb) {x : Oid} (hx : Existing root S x) : x ≠ [] := by
  obtain ⟨p, cb, a, -, ha, rfl⟩ := hx
  intro hnil
  rw [(List.append_eq_nil_iff.mp hnil).2] at ha
  exact hsuffix cb ha

/-- What is next to the start is right unless the start should have been returned, or what is next to it
is in the range and not found to be. -/
lemma mibGetBehind_honours_iff (hok : RootOk root) (h : OwnHandlers root handlers fam own S)
    (hmib : InternetMib root S) (hstart : Placed sr.start) (ret : OidSearchRes) (l : List Call) :
    HonoursRange root own S sr (AgentX.mibGetBehind handlers root sr ret l).1 ↔
      sr.start ∉ RangeTargets root S sr ∧
        ∀ x, IsLeast (Behind root S sr.start) x → sr.UpTo x → sr.Checked x := by
  obtain ⟨hit, hends, hfrom, hnext⟩ := search_behind hok h hmib hstart ret l
  have hend := mibGetBehind_ends (fun x hx => (hfrom x hx).fits h.toLeastHandlers) hends
  cases hit with
  | none =>
    have hnext : Behind root S sr.start = ∅ := hnext
    rw [EndOfRange.honours_iff hend]
    constructor
    · intro hempty
      refine ⟨by simp [hempty], fun x hx => ?_⟩
      rw [hnext] at hx
      exact absurd hx.1 (Set.notMem_empty x)
    · rintro ⟨hnot, -⟩
      rw [rangeTargets_eq hnot, hnext]
      simp
  | some x =>
    have hleast : IsLeast (Behind root S sr.start) x.1 := hnext
    have hexceeds := exceeds_iff sr (hmib.small x.1 hleast.1.1) (hleast.1.1.ne_nil h.suffix)
    have hunique : (∀ y, IsLeast (Behind root S sr.start) y → sr.UpTo y → sr.Checked y) ↔
        (sr.UpTo x.1 → sr.Checked x.1) := by
      constructor
      · exact fun hall => hall x.1 hleast
      · intro hx y hy
        rwa [hy.unique hleast]
    rw [hunique]
    by_cases hcase : AgentX.exceeds sr x.1 = true
    · have hno : ¬ (sr.UpTo x.1 ∧ sr.Checked x.1) := by
        rw [← hexceeds, hcase]
        exact Bool.noConfusion
      rw [RangeEnds, if_pos hcase] at hend
      rw [hend.honours_iff, rangeTargets_eq_empty_iff hleast]
      refine and_congr_right fun _ => ⟨fun hup h => absurd h hup, fun hchecked hup => ?_⟩
      exact hno ⟨hup, hchecked hup⟩
    · obtain ⟨hup, hchecked⟩ := hexceeds.mp (Bool.eq_false_iff.mpr hcase)
      rw [RangeEnds, if_neg hcase] at hend
      obtain ⟨res, hout, hret⟩ := hend
      rw [hout, hret.honours_iff_of_own h (hfrom x rfl), isLeast_rangeTargets_iff hleast]
      exact and_congr_right fun _ => iff_of_true hup fun _ => hchecked

/-! ### The search at the start -/

/-- The handler of an instance above the start has an answer to what is left of the start. -/
structure StartAnswer (root : MibNode) (fam : HandlerFamily) (sr : XSearchRange) (p : Oid) (cb : Int)
    (s : Oid) (a : Answer) : Prop where
  incl : sr.startInclude ≠ 0
  occurs : Occurs root p (.inst cb)
  start : sr.start = p ++ s
  suffix : s ≠ []
  answer : fam cb s = some a

lemma searchAt_ok {oid view : Oid} {ret res : OidSearchRes} {l l' : List Call} {n : MibNode}
    (h : mibTreeSearch handlers root view oid ret l = (.ok (n, res), l')) :
    searchAt handlers root oid view ret l = (.ok res, l') := by
  rw [searchAt, Traced.bind_apply_ok h]
  rfl

lemma Misses.searchAt_failed {oid : Oid} {ret : OidSearchRes} {l : List Call} {tag : UInt8}
    (htag : mibTagValid tag = false)
    (h : Misses oid tag (mibTreeSearch handlers root agentxDummyView oid ret l).1) :
    ∃ res l', searchAt handlers root oid agentxDummyView ret l = (.ok res, l') ∧
      AgentX.failed res = true := by
  obtain ⟨n, res, hout, -, -, hres⟩ := h
  refine ⟨res, (mibTreeSearch handlers root agentxDummyView oid ret l).2, ?_, ?_⟩
  · exact searchAt_ok (Prod.ext hout rfl)
  · rw [AgentX.failed, hres, htag]
    simp

variable (handlers) in
/-- An instance above the start: its handler is asked for what is next to the rest. -/
lemma searchAt_calls (hok : RootOk root) (hcover : agentxDummyView <+: sr.start) {p s : Oid} {cb : Int}
    (hocc : Occurs root p (.inst cb)) (hs : s ≠ []) (hstart : sr.start = p ++ s) {ret : OidSearchRes}
    (hreq : ret.request = .getNext) (l : List Call) :
    ∃ ask : OidSearchRes, ask.request = .getNext ∧ ask.oid = sr.start ∧ ask.instPos = p.length ∧
      searchAt handlers root sr.start agentxDummyView ret l =
        (match ask.receive (handlers l (getNextCall cb s)) with
          | some res => .ok res
          | none => .crash, l ++ [getNextCall cb s]) := by
  obtain ⟨ask, hcb, hid, hask, hoid, -, hpos, heq⟩ :=
    mibTreeSearch_calls handlers ret hok hcover hstart hs hocc
  have hnext : ask.request = .getNext := hask.trans hreq
  have hcall : ask.call = getNextCall cb s := by
    simp [OidSearchRes.call, hnext, hcb, hid, getNextCall]
  refine ⟨ask, hnext, hoid, hpos, ?_⟩
  rw [searchAt, heq, Traced.bind_assoc, Traced.bind_apply, mibInstanceSearch_apply, hcall]
  cases ask.receive (handlers l (getNextCall cb s)) <;> rfl

/-- Without an answer at the start the search goes on behind it. -/
lemma searchAt_start_failed (hok : RootOk root) (hfam : Realizes handlers fam)
    (hincl : sr.startInclude ≠ 0) (hno : ∀ p cb s a, ¬ StartAnswer root fam sr p cb s a)
    {ret : OidSearchRes} (hreq : ret.request = .getNext) (l : List Call) :
    ∃ res l', searchAt handlers root sr.start agentxDummyView ret l = (.ok res, l') ∧
      AgentX.failed res = true := by
  by_cases hcover : agentxDummyView <+: sr.start
  · by_cases hinst : ∀ p cb, p <+: sr.start → ¬ Occurs root p (.inst cb)
    · exact Misses.searchAt_failed rfl (mibTreeSearch_unknown handlers ret hok hcover hinst l).2
    · push Not at hinst
      obtain ⟨p, cb, ⟨s, hs⟩, hocc⟩ := hinst
      by_cases hnil : s = []
      · rw [hnil, List.append_nil] at hs
        exact Misses.searchAt_failed rfl
          (mibTreeSearch_exact handlers ret hok hcover (hs ▸ hocc) l).2
      · obtain ⟨ask, -, -, -, heq⟩ :=
          searchAt_calls handlers hok hcover hocc hnil hs.symm hreq l
        have hnone : fam cb s = none := by
          cases ha : fam cb s with
          | none => rfl
          | some a => exact absurd ⟨hincl, hocc, hs.symm, hnil, ha⟩ (hno p cb s a)
        have hreply := hfam l cb s
        simp only [hnone] at hreply
        rcases hreply with hreply | ⟨errStat, subOid, val, tag, htag, hreply⟩
        · rw [heq, hreply]
          exact ⟨_, _, rfl, by simp [AgentX.failed, mibTagValid]⟩
        · rw [heq, hreply, OidSearchRes.receive, if_neg (by simp [htag])]
          exact ⟨_, _, rfl, by simp [AgentX.failed, htag]⟩
  · exact Misses.searchAt_failed rfl (mibTreeSearch_not_covered handlers ret hcover l).2

lemma mibGetnext_of_failed (hincl : sr.startInclude ≠ 0) {ret res : OidSearchRes} {l l' : List Call}
    (h : searchAt handlers root sr.start agentxDummyView ret l = (.ok res, l'))
    (hfailed : AgentX.failed res = true) :
    AgentX.mibGetnext handlers root sr ret l = AgentX.mibGetBehind handlers root sr res l' := by
  rw [AgentX.mibGetnext, if_pos hincl, Traced.bind_apply_ok h, if_pos hfailed]

/-- An OID written over another one, of which the length stays. -/
def overwritten (s b : Oid) : Oid := (b ++ s.drop b.length).take s.length

lemma length_overwritten (s b : Oid) : (overwritten s b).length = s.length := by
  rw [overwritten, List.length_take, List.length_append, List.length_drop]
  omega

lemma overwritten_eq_right_iff (s b : Oid) : overwritten s b = b ↔ b.length = s.length := by
  constructor
  · intro h
    rw [← length_overwritten s b, h]
  · intro h
    rw [overwritten, ← h, List.take_left']
    rfl

/-- A greater OID leaves what it is written over only if it starts with it. -/
lemma overwritten_eq_left_iff {s b : Oid} (hlt : s < b) : overwritten s b = s ↔ s <+: b := by
  by_cases hle : s.length ≤ b.length
  · rw [overwritten, List.take_append_of_le_length hle, List.prefix_iff_eq_take, eq_comm]
  · constructor
    · intro h
      rw [overwritten, List.take_of_length_le (by simp; omega)] at h
      have hprefix : b <+: s := h ▸ List.prefix_append b _
      exact absurd (le_of_isPrefix hprefix) (not_le.mpr hlt)
    · intro h
      exact absurd h.length_le hle

lemma OidSearchRes.overwrite_eq {ret : OidSearchRes} {p s : Oid} (hoid : ret.oid = p ++ s)
    (hpos : ret.instPos = p.length) (hroom : p.length + ret.instId.length ≤ mibValueMaxLen) :
    ret.overwrite = some { ret with oid := p ++ overwritten s ret.instId } := by
  rw [OidSearchRes.overwrite, if_pos (by rwa [hpos]), hoid, hpos, List.take_left,
    List.drop_length_add_append, List.append_assoc, List.length_append, List.take_length_add_append]
  rfl

lemma mibGetnext_of_found (hincl : sr.startInclude ≠ 0) {ret res res' : OidSearchRes}
    {l l' : List Call} (h : searchAt handlers root sr.start agentxDummyView ret l = (.ok res, l'))
    (hfailed : AgentX.failed res = false) (hover : res.overwrite = some res') :
    AgentX.mibGetnext handlers root sr ret l = (.ok res', l') := by
  rw [AgentX.mibGetnext, if_pos hincl, Traced.bind_apply_ok h, if_neg (by simp [hfailed]), hover]
  rfl

/-- The result of a search at the start for which there is an answer, but for its OID. -/
lemma searchAt_answered (hok : RootOk root) (h : LeastHandlers root handlers fam S)
    (hcover : agentxDummyView <+: sr.start) {p s : Oid} {cb : Int} {a : Answer}
    (hans : StartAnswer root fam sr p cb s a) {ret : OidSearchRes} (hreq : ret.request = .getNext)
    (l : List Call) : ∃ res l', searchAt handlers root sr.start agentxDummyView ret l = (.ok res, l') ∧
      res.oid = p ++ s ∧ res.instPos = p.length ∧ res.instId = a.subOid ∧
      Returned { res with oid := p ++ overwritten s a.subOid } (p ++ overwritten s a.subOid, a) := by
  obtain ⟨ask, hask, hoid, hpos, heq⟩ :=
    searchAt_calls handlers hok hcover hans.occurs hans.suffix hans.start hreq l
  have hreply := h.realizes l cb s
  simp only [hans.answer] at hreply
  have hfits := h.returns p cb s a hans.occurs hans.answer
  simp only [fits, Bool.and_eq_true] at hfits
  obtain ⟨⟨len, bytes⟩, hstored⟩ := Option.isSome_iff_exists.mp hfits.1
  have hreceive : ask.receive (.results 0 a.subOid a.val a.tag) = some { ask with
      instId := a.subOid
      errStat := 0
      var := ⟨a.tag, len, bytes ++ ask.var.value.drop bytes.length⟩ } := by
    rw [OidSearchRes.receive, if_pos ⟨rfl, a.valid⟩, if_neg (by simp [hask]), a.store_eq, hstored, hask]
    rfl
  rw [hreply, hreceive] at heq
  exact ⟨_, _, heq, hoid.trans hans.start, hpos, rfl, rfl, rfl, rfl, len, bytes, hstored, rfl,
    List.prefix_append _ _⟩

/-- An answer at the start is written over the rest of the start. -/
lemma mibGetnext_answered (hok : RootOk root) (h : LeastHandlers root handlers fam S)
    (hcover : agentxDummyView <+: sr.start) {p s : Oid} {cb : Int} {a : Answer}
    (hans : StartAnswer root fam sr p cb s a) {ret : OidSearchRes} (hreq : ret.request = .getNext)
    (l : List Call) : ∃ res, (AgentX.mibGetnext handlers root sr ret l).1 = .ok res ∧
      Returned res (p ++ overwritten s a.subOid, a) := by
  obtain ⟨res, l', heq, hoid, hpos, hid, hret⟩ := searchAt_answered hok h hcover hans hreq l
  have hroom : p.length + res.instId.length ≤ mibValueMaxLen := by
    have hfits := h.returns p cb s a hans.occurs hans.answer
    simp only [fits, Bool.and_eq_true, decide_eq_true_eq, List.length_append] at hfits
    rw [hid]
    exact hfits.2.trans (by decide)
  have hfailed : AgentX.failed res = false := by
    have herr : res.errStat = 0 := hret.2.1
    have htag : res.var.tag = a.tag := hret.2.2.1
    rw [AgentX.failed, herr, htag, a.valid]
    rfl
  have hover := OidSearchRes.overwrite_eq hoid hpos hroom
  rw [hid] at hover
  exact ⟨_, congrArg Prod.fst (mibGetnext_of_found hans.incl heq hfailed hover), hret⟩

/-- The answer at the start is the least instance behind it. -/
lemma StartAnswer.isLeast_behind (hok : RootOk root) (h : OwnHandlers root handlers fam own S)
    {p s : Oid} {cb : Int} {a : Answer} (hans : StartAnswer root fam sr p cb s a) :
    IsLeast (Behind root S sr.start) (p ++ a.subOid) := by
  have hleast := h.least cb s
  rw [hans.answer] at hleast
  rw [hans.start]
  refine ⟨⟨⟨p, cb, a.subOid, hans.occurs, hleast.1.1, rfl⟩, (append_lt_append_left p).mpr hleast.1.2⟩, ?_⟩
  rintro _ ⟨⟨q, cb', b, hocc, hb, rfl⟩, hlt⟩
  rcases hok.1.inst_eq_or_before hans.occurs hocc with ⟨rfl, rfl⟩ | hbefore | hbefore
  · have hle := hleast.2 ⟨hb, (append_lt_append_left p).mp hlt⟩
    exact not_lt.mp fun hgt => absurd ((append_lt_append_left p).mp hgt) (not_lt.mpr hle)
  · exact (hbefore.append _ _).lt.le
  · exact absurd hlt (hbefore.append _ _).lt.not_gt

lemma StartAnswer.existing_iff (hok : RootOk root) {p s : Oid} {cb : Int} {a : Answer}
    (hans : StartAnswer root fam sr p cb s a) : Existing root S sr.start ↔ s ∈ S cb := by
  constructor
  · rintro ⟨q, cb', b, hocc, hb, heq⟩
    obtain ⟨rfl, rfl⟩ := hok.1.occurs_inst_eq hans.occurs hocc (hans.start.symm.trans heq)
    exact hb
  · intro hs
    exact ⟨p, cb, s, hans.occurs, hs, hans.start⟩

/-- The start is the least instance of its range, if it is one. -/
lemma isLeast_start (hmem : sr.start ∈ RangeTargets root S sr) :
    IsLeast (RangeTargets root S sr) sr.start := by
  refine ⟨hmem, ?_⟩
  rintro x ⟨-, hlt | ⟨-, rfl⟩, -⟩
  · exact hlt.le
  · exact le_rfl

/-- The start is an instance: it is returned if the one behind it has it as a prefix and the same
value. -/
lemma StartAnswer.honours_iff_of_mem (hok : RootOk root)
    {p s : Oid} {cb : Int} {a : Answer} (hans : StartAnswer root fam sr p cb s a)
    (hlt : s < a.subOid) (hs : s ∈ S cb) {res : OidSearchRes}
    (hret : Returned res (p ++ overwritten s a.subOid, a)) :
    HonoursRange root own S sr (.ok res) ↔
      sr.UpTo sr.start ∧ s <+: a.subOid ∧ (own cb s).Same a := by
  have hexisting : Existing root S sr.start := (hans.existing_iff hok).mpr hs
  rw [hret.honours_iff]
  constructor
  · rintro ⟨q, cb', b, hocc, -, hleast, heq, hsame⟩
    have hstart : sr.start ∈ RangeTargets root S sr := by
      refine start_mem_rangeTargets.mpr ⟨hans.incl, hexisting, hleast.1.2.2.of_le ?_⟩
      rcases hleast.1.2.1 with hlt' | ⟨-, heq'⟩
      · exact hlt'.le
      · exact heq'.ge
    have hb : p ++ s = q ++ b := hans.start.symm.trans ((isLeast_start hstart).unique hleast)
    obtain ⟨rfl, rfl⟩ := hok.1.occurs_inst_eq hans.occurs hocc hb
    have hover : overwritten s a.subOid = s := List.append_cancel_left (heq.trans hb.symm)
    exact ⟨hstart.2.2, (overwritten_eq_left_iff hlt).mp hover, hsame⟩
  · rintro ⟨hup, hprefix, hsame⟩
    have hstart : sr.start ∈ RangeTargets root S sr :=
      start_mem_rangeTargets.mpr ⟨hans.incl, hexisting, hup⟩
    refine ⟨p, cb, s, hans.occurs, hs, hans.start ▸ isLeast_start hstart, ?_, hsame⟩
    rw [(overwritten_eq_left_iff hlt).mpr hprefix]

/-- The start is no instance: the one behind it is returned if it is as long and in the range. -/
lemma StartAnswer.honours_iff_of_not_mem (hok : RootOk root) (h : OwnHandlers root handlers fam own S)
    {p s : Oid} {cb : Int} {a : Answer} (hans : StartAnswer root fam sr p cb s a)
    (hs : s ∉ S cb) {res : OidSearchRes} (hret : Returned res (p ++ overwritten s a.subOid, a)) :
    HonoursRange root own S sr (.ok res) ↔
      sr.UpTo (p ++ a.subOid) ∧ a.subOid.length = s.length := by
  have hnot : sr.start ∉ RangeTargets root S sr :=
    fun hmem => hs ((hans.existing_iff hok).mp hmem.1)
  have hbehind := hans.isLeast_behind hok h
  rw [hret.honours_iff, ← overwritten_eq_right_iff]
  constructor
  · rintro ⟨q, cb', b, -, -, hleast, heq, -⟩
    have hup : sr.UpTo (p ++ a.subOid) := by
      refine hleast.1.2.2.of_le (hbehind.2 ⟨hleast.1.1, hleast.1.2.1.resolve_right ?_⟩)
      exact fun hstart => hnot (hstart.2 ▸ hleast.1)
    have hb := hleast.unique ((isLeast_rangeTargets_iff hbehind).mpr ⟨hnot, hup⟩)
    exact ⟨hup, List.append_cancel_left (heq.trans hb)⟩
  · rintro ⟨hup, hover⟩
    refine ⟨p, cb, a.subOid, hans.occurs, (h.mem_of_answer hans.answer).1,
      (isLeast_rangeTargets_iff hbehind).mpr ⟨hnot, hup⟩, by rw [hover], ?_⟩
    rw [← h.next cb s a hans.answer]
    exact ⟨rfl, rfl⟩

/-! ### All ranges -/

/-- When the range is honoured: an answer at the start has to be right although it is meant for what is
behind the start, and where there is none the end has to be compared rightly. -/
structure RangeHonoured (root : MibNode) (fam : HandlerFamily) (own : Int → Oid → Answer)
    (S : Int → Set Oid) (sr : XSearchRange) : Prop where
  existing : ∀ p cb s a, StartAnswer root fam sr p cb s a → s ∈ S cb →
    sr.UpTo sr.start ∧ s <+: a.subOid ∧ (own cb s).Same a
  behind : ∀ p cb s a, StartAnswer root fam sr p cb s a → s ∉ S cb →
    sr.UpTo (p ++ a.subOid) ∧ a.subOid.length = s.length
  unanswered : (∀ p cb s a, ¬ StartAnswer root fam sr p cb s a) →
    ¬ (sr.startInclude ≠ 0 ∧ Existing root S sr.start ∧ sr.UpTo sr.start) ∧
      ∀ x, IsLeast (Behind root S sr.start) x → sr.UpTo x → sr.Checked x

/-- There is an answer at the start: it is right or wrong by whether the start is an instance. -/
lemma StartAnswer.answered_iff (hok : RootOk root) (hmib : InternetMib root S)
    (h : OwnHandlers root handlers fam own S) {sr : XSearchRange} {p s : Oid} {cb : Int} {a : Answer}
    (hans : StartAnswer root fam sr p cb s a) {ret : OidSearchRes} (hreq : ret.request = .getNext)
    (l : List Call) :
    (s ∈ S cb → (HonoursRange root own S sr (AgentX.mibGetnext handlers root sr ret l).1 ↔
      sr.UpTo sr.start ∧ s <+: a.subOid ∧ (own cb s).Same a)) ∧
    (s ∉ S cb → (HonoursRange root own S sr (AgentX.mibGetnext handlers root sr ret l).1 ↔
      sr.UpTo (p ++ a.subOid) ∧ a.subOid.length = s.length)) := by
  have hcover : agentxDummyView <+: sr.start := (hmib.under p cb hans.occurs).trans ⟨s, hans.start.symm⟩
  obtain ⟨res, hout, hret⟩ := mibGetnext_answered hok h.toLeastHandlers hcover hans hreq l
  rw [hout]
  exact ⟨fun hs => hans.honours_iff_of_mem hok (h.mem_of_answer hans.answer).2 hs hret,
    fun hs => hans.honours_iff_of_not_mem hok h hs hret⟩

/-- There is no answer at the start: what is behind it is searched. -/
lemma mibGetnext_unanswered_iff (hok : RootOk root) (hmib : InternetMib root S)
    (h : OwnHandlers root handlers fam own S) {sr : XSearchRange} (hstart : Placed sr.start)
    (hans : ∀ p cb s a, ¬ StartAnswer root fam sr p cb s a) {ret : OidSearchRes}
    (hreq : ret.request = .getNext) (l : List Call) :
    HonoursRange root own S sr (AgentX.mibGetnext handlers root sr ret l).1 ↔
      ¬ (sr.startInclude ≠ 0 ∧ Existing root S sr.start ∧ sr.UpTo sr.start) ∧
        ∀ x, IsLeast (Behind root S sr.start) x → sr.UpTo x → sr.Checked x := by
  have hbehind : ∃ ret' l', AgentX.mibGetnext handlers root sr ret l =
      AgentX.mibGetBehind handlers root sr ret' l' := by
    by_cases hincl : sr.startInclude = 0
    · exact ⟨ret, l, by rw [AgentX.mibGetnext, if_neg (not_not.mpr hincl)]⟩
    · obtain ⟨res, l', hsearch, hfailed⟩ := searchAt_start_failed hok h.realizes hincl hans hreq l
      exact ⟨res, l', mibGetnext_of_failed hincl hsearch hfailed⟩
  obtain ⟨ret', l', heq⟩ := hbehind
  rw [heq, mibGetBehind_honours_iff hok h hmib hstart, start_mem_rangeTargets]

lemma RangeHonoured.honours (hok : RootOk root) (hmib : InternetMib root S)
    (h : OwnHandlers root handlers fam own S) {sr : XSearchRange} (hstart : Placed sr.start)
    (hsr : RangeHonoured root fam own S sr) {ret : OidSearchRes} (hreq : ret.request = .getNext)
    (l : List Call) : HonoursRange root own S sr (AgentX.mibGetnext handlers root sr ret l).1 := by
  by_cases hans : ∃ p cb s a, StartAnswer root fam sr p cb s a
  · obtain ⟨p, cb, s, a, hans⟩ := hans
    obtain ⟨hmem, hnot⟩ := hans.answered_iff hok hmib h hreq l
    by_cases hs : s ∈ S cb
    · exact (hmem hs).mpr (hsr.existing p cb s a hans hs)
    · exact (hnot hs).mpr (hsr.behind p cb s a hans hs)
  · push Not at hans
    exact (mibGetnext_unanswered_iff hok hmib h hstart hans hreq l).mpr (hsr.unanswered hans)

/-- The search in a range returns the least instance of the range with its own value, or the end of the
view, exactly under these conditions. -/
theorem mibGetnext_honours_iff (hreach : Reachable root) (hmib : InternetMib root S)
    (h : OwnHandlers root handlers fam own S) (sr : XSearchRange) (hstart : Placed sr.start)
    {ret : OidSearchRes} (hreq : ret.request = .getNext) (l : List Call) :
    HonoursRange root own S sr (AgentX.mibGetnext handlers root sr ret l).1 ↔
      RangeHonoured root fam own S sr := by
  have hok := hreach.rootOk
  constructor
  · intro hhonours
    -- each of the conditions is about one kind of answer at the start
    refine ⟨fun p cb s a hans hs => ?_, fun p cb s a hans hs => ?_, fun hno => ?_⟩
    · exact ((hans.answered_iff hok hmib h hreq l).1 hs).mp hhonours
    · exact ((hans.answered_iff hok hmib h hreq l).2 hs).mp hhonours
    · exact (mibGetnext_unanswered_iff hok hmib h hstart hno hreq l).mp hhonours
  · exact fun hsr => hsr.honours hok hmib h hstart hreq l

end Search

/-! ### A tree with one instance below `1.3.6.1` -/

section Sample

def internetTree : MibNode :=
  .group 1 1 [1] [.group 1 1 [3] [.group 1 1 [6] [.group 1 1 [1] [.group 1 1 [5] [.inst 7]]]]]

lemma reachable_internetTree : Reachable internetTree := ⟨[.reg [1, 3, 6, 1, 5] 7], rfl⟩

/-- The handlers of scalars, which answer GET for their instance alone. -/
def exactHandlers : Handlers := fun _ call =>
  if (if call.op = .getNext then call.subOid < [0] else call.subOid = [0]) then
    .results 0 [0] (.num 0) asn1TagInt
  else .error

def scalarAnswer : Int → Oid → Answer := fun _ a => ⟨a, .num 0, asn1TagInt, mibTagValid_int⟩

lemma occurs_internetTree {p : Oid} {cb : Int} (h : Occurs internetTree p (.inst cb)) :
    p = [1, 3, 6, 1, 5] ∧ cb = 7 := by
  have hmem := (reachable_internetTree.rootOk.1.mem_leaves_iff p cb).mpr h
  simpa [internetTree, MibNode.leaves, MibNode.leavesList, under] using hmem

lemma internetMib_internetTree : InternetMib internetTree scalarInstances where
  under := by
    intro p cb hocc
    rw [(occurs_internetTree hocc).1]
    decide
  small := by
    rintro x ⟨p, cb, a, hocc, rfl, rfl⟩
    rw [(occurs_internetTree hocc).1]
    simp

lemma ownHandlers_exact :
    OwnHandlers internetTree exactHandlers scalarFamily scalarAnswer scalarInstances where
  realizes := by
    intro l cb s
    by_cases hs : s < [0]
    · simp [scalarFamily, exactHandlers, getNextCall, hs]
    · simp [scalarFamily, exactHandlers, getNextCall, hs]
  least := leastHandlers_scalar.least
  suffix := leastHandlers_scalar.suffix
  get := by
    intro l c hc
    rw [exactHandlers]
    split_ifs <;> decide
  returns := by
    intro p cb s a hocc ha
    rw [(occurs_internetTree hocc).1]
    by_cases hs : s < [0]
    · simp only [scalarFamily, hs, if_true, Option.some.injEq] at ha
      rw [← ha]
      decide
    · simp [scalarFamily, hs] at ha
  named := fun _ _ _ => rfl
  next := by
    intro cb s a ha
    by_cases hs : s < [0]
    · simp only [scalarFamily, hs, if_true, Option.some.injEq] at ha
      rw [← ha]
      rfl
    · simp [scalarFamily, hs] at ha
  getSome := by
    rintro l cb a rfl
    exact ⟨[0], by simp [exactHandlers, scalarAnswer]⟩
  getNone := by
    intro l cb a ha
    have hne : a ≠ [0] := ha
    simp [exactHandlers, hne, Reply.Succeeds]

theorem mibGetnext_honours_iff_internetTree :
    HonoursRange internetTree scalarAnswer scalarInstances ⟨[1, 3, 6, 1, 5], [1, 3, 6, 1, 6], 0, 0⟩
      (AgentX.mibGetnext exactHandlers internetTree ⟨[1, 3, 6, 1, 5], [1, 3, 6, 1, 6], 0, 0⟩
        (.init .getNext) []).1 := by
  refine (mibGetnext_honours_iff reachable_internetTree internetMib_internetTree ownHandlers_exact
    ⟨[1, 3, 6, 1, 5], [1, 3, 6, 1, 6], 0, 0⟩ (.inl (List.prefix_append _ [5])) rfl []).mpr ?_
  refine ⟨fun p cb s a hans => absurd rfl hans.incl, fun p cb s a hans => absurd rfl hans.incl, ?_⟩
  rintro -
  refine ⟨fun h => absurd rfl h.1, fun x _ _ => ⟨by simp, fun _ => ?_⟩⟩
  exact nearBelow_of_small x (by simp)

/-- Without an end nothing is found to be in the range. -/
theorem mibGetnext_not_honoured : ¬ ∀ sr : XSearchRange, Placed sr.start →
    HonoursRange internetTree scalarAnswer scalarInstances sr
      (AgentX.mibGetnext exactHandlers internetTree sr (.init .getNext) []).1 := by
  intro hall
  have hstart : Placed [1, 3, 6, 1, 5] := .inl (List.prefix_append _ [5])
  have hhonours := hall ⟨[1, 3, 6, 1, 5], [], 0, 0⟩ hstart
  have heq : AgentX.mibGetnext exactHandlers internetTree ⟨[1, 3, 6, 1, 5], [], 0, 0⟩ (.init .getNext) =
      AgentX.mibGetBehind exactHandlers internetTree ⟨[1, 3, 6, 1, 5], [], 0, 0⟩ (.init .getNext) := rfl
  rw [heq, mibGetBehind_honours_iff reachable_internetTree.rootOk ownHandlers_exact
    internetMib_internetTree hstart] at hhonours
  have hleast : IsLeast (Behind internetTree scalarInstances [1, 3, 6, 1, 5]) [1, 3, 6, 1, 5, 0] := by
    refine ⟨⟨⟨[1, 3, 6, 1, 5], 7, [0], ?_, rfl, rfl⟩, by decide⟩, ?_⟩
    · exact (reachable_internetTree.rootOk.1.mem_leaves_iff _ _).mp (List.mem_singleton.mpr rfl)
    · rintro y ⟨⟨p, cb, a, hocc, rfl, rfl⟩, -⟩
      rw [(occurs_internetTree hocc).1]
      exact le_rfl
  exact (hhonours.2 _ hleast (.inl rfl)).1 rfl

end Sample

end SmartSnmp
