import SmartSnmp.Lib.Reader

/-!
# How far a reader goes

An `Extent` says of a byte string what a reader finds at its front: the string ends before the
element does, the reader refuses the element, or the element has a size. Elements that stand one
behind the other add up to a number of bytes, or they do not.
-/

inductive Extent where
  | missing
  | refused
  | size (n : Nat)
  deriving DecidableEq

namespace Extent

/-- A second element behind the first one. -/
def followedBy : Extent → (Nat → Extent) → Extent
  | missing, _ => missing
  | refused, _ => refused
  | size n, rest =>
    match rest n with
    | missing => missing
    | refused => refused
    | size m => size (n + m)

@[simp] lemma missing_followedBy (rest : Nat → Extent) : missing.followedBy rest = missing := rfl

@[simp] lemma refused_followedBy (rest : Nat → Extent) : refused.followedBy rest = refused := rfl

@[simp] lemma followedBy_nothing (e : Extent) : (e.followedBy fun _ => size 0) = e := by
  cases e <;> rfl

lemma followedBy_eq_size {e : Extent} {rest : Nat → Extent} {j : Nat}
    (h : e.followedBy rest = size j) : ∃ n m, e = size n ∧ rest n = size m ∧ n + m = j := by
  cases e with
  | missing => simp at h
  | refused => simp at h
  | size n =>
    simp only [followedBy] at h
    cases hrest : rest n with
    | missing => simp [hrest] at h
    | refused => simp [hrest] at h
    | size m => exact ⟨n, m, rfl, hrest, by simpa [hrest] using h⟩

/-- What takes `n` bytes. -/
def ofLength (n : Nat) (bs : List UInt8) : Extent := if n ≤ bs.length then size n else missing

lemma ofLength_followedBy (n m : Nat) (bs : List UInt8) :
    ((ofLength n bs).followedBy fun k => ofLength m (bs.drop k)) = ofLength (n + m) bs := by
  simp only [ofLength]
  by_cases hn : n ≤ bs.length
  · simp only [if_pos hn, followedBy, List.length_drop]
    by_cases hm : n + m ≤ bs.length
    · rw [if_pos hm, if_pos (by omega)]
    · rw [if_neg hm, if_neg (by omega)]
  · rw [if_neg hn, if_neg (by omega)]
    rfl

/-- The elements at the front of `bs` take `n` bytes, or one of the elements that start before is
refused. -/
inductive AddsUp (elem : List UInt8 → Extent) : List UInt8 → Nat → Prop
  | done {bs : List UInt8} : AddsUp elem bs 0
  | refused {bs : List UInt8} {n : Nat} : n ≠ 0 → elem bs = refused → AddsUp elem bs n
  | elem {bs : List UInt8} {n k : Nat} : n ≠ 0 → elem bs = size k → k ≤ n →
      AddsUp elem (bs.drop k) (n - k) → AddsUp elem bs n

section AddsUp

variable {elem : List UInt8 → Extent} {bs : List UInt8} {n k : Nat}

lemma not_addsUp_of_missing (hn : n ≠ 0) (h : elem bs = missing) : ¬ AddsUp elem bs n := by
  intro hadd
  cases hadd with
  | done => exact hn rfl
  | refused _ h' => simp [h] at h'
  | elem _ h' => simp [h] at h'

lemma addsUp_iff_of_size (hn : n ≠ 0) (h : elem bs = size k) :
    AddsUp elem bs n ↔ k ≤ n ∧ AddsUp elem (bs.drop k) (n - k) := by
  constructor
  · intro hadd
    cases hadd with
    | done => exact absurd rfl hn
    | refused _ h' => simp [h] at h'
    | elem _ h' hle hrest =>
      obtain rfl : k = _ := by simpa [h] using h'
      exact ⟨hle, hrest⟩
  · rintro ⟨hle, hrest⟩
    exact .elem hn h hle hrest

end AddsUp

end Extent

namespace Reader

variable {ε α β : Type}

/-- `p` goes on `bs` as far as `e` says, and what it returns then satisfies `K`. -/
def Spans (p : Reader ε α) (bs : List UInt8) (K : α → Nat → Prop) : Extent → Prop
  | .missing => p bs = .crash
  | .refused => ∃ err, p bs = .ok (.error err)
  | .size n => ∃ a, K a n ∧ p bs = .ok (.ok (a, bs.drop n))

section Spans

variable {bs : List UInt8} {K K' : α → Nat → Prop} {e : Extent}

lemma Spans.mono {p : Reader ε α} (h : Spans p bs K e) (hK : ∀ a n, K a n → K' a n) :
    Spans p bs K' e := by
  cases e with
  | missing => exact h
  | refused => exact h
  | size n =>
    obtain ⟨a, ha, hp⟩ := h
    exact ⟨a, hK a n ha, hp⟩

lemma spans_pure {a : α} (h : K a 0) : Spans (pure a : Reader ε α) bs K (.size 0) := ⟨a, h, rfl⟩

lemma spans_bytes {K : List UInt8 → Nat → Prop} (n : Nat) (h : n ≤ bs.length → K (bs.take n) n) :
    Spans (bytes n : Reader ε _) bs K (.ofLength n bs) := by
  by_cases hn : n ≤ bs.length
  · rw [Extent.ofLength, if_pos hn]
    exact ⟨bs.take n, h hn, by rw [bytes, if_pos hn]⟩
  · rw [Extent.ofLength, if_neg hn]
    exact if_neg hn

/-- A sequence goes as far as its parts do. -/
lemma Spans.bind {p : Reader ε α} {f : α → Reader ε β} {L : β → Nat → Prop} {g : Nat → Extent}
    (hp : Spans p bs K e)
    (hf : ∀ a n, K a n → Spans (f a) (bs.drop n) (fun b m => L b (n + m)) (g n)) :
    Spans (p >>= f) bs L (e.followedBy g) := by
  cases e with
  | missing =>
    have h : p bs = .crash := hp
    exact bind_apply_crash h f
  | refused =>
    obtain ⟨err, h⟩ := hp
    exact ⟨err, by rw [bind_apply, h]⟩
  | size n =>
    obtain ⟨a, ha, h⟩ := hp
    have hrest := hf a n ha
    simp only [Extent.followedBy]
    cases hg : g n with
    | missing =>
      rw [hg] at hrest
      exact (bind_apply_ok h f).trans hrest
    | refused =>
      rw [hg] at hrest
      obtain ⟨err, hrest⟩ := hrest
      exact ⟨err, (bind_apply_ok h f).trans hrest⟩
    | size m =>
      rw [hg] at hrest
      obtain ⟨b, hb, hrest⟩ := hrest
      exact ⟨b, hb, by rw [bind_apply_ok h, hrest, List.drop_drop]⟩

lemma Spans.congr {p q : Reader ε α} (hq : Spans q bs K e) (h : p bs = q bs) : Spans p bs K e := by
  cases e with
  | missing => exact h.trans hq
  | refused =>
    obtain ⟨err, hq⟩ := hq
    exact ⟨err, h.trans hq⟩
  | size n =>
    obtain ⟨a, ha, hq⟩ := hq
    exact ⟨a, ha, h.trans hq⟩

/-- The first part of a sequence is known to move the cursor. -/
lemma Spans.ok_bind {p : Reader ε β} {f : β → Reader ε α} {b : β} {n : Nat} {g : Nat → Extent}
    (hf : Spans (f b) (bs.drop n) (fun a m => K a (n + m)) (g n))
    (hp : p bs = .ok (.ok (b, bs.drop n))) :
    Spans (p >>= f) bs K ((Extent.size n).followedBy g) := by
  have hspans : Spans p bs (fun c k => c = b ∧ k = n) (.size n) := ⟨b, ⟨rfl, rfl⟩, hp⟩
  apply hspans.bind
  rintro _ _ ⟨rfl, rfl⟩
  exact hf

/-- Parts of known lengths. -/
lemma Spans.bind_ofLength {p : Reader ε β} {f : β → Reader ε α} {L : β → Prop} {n m : Nat}
    (hp : Spans p bs (fun b k => L b ∧ k = n) (.ofLength n bs))
    (hf : ∀ b, L b → Spans (f b) (bs.drop n) (fun a k => K a (n + k)) (.ofLength m (bs.drop n))) :
    Spans (p >>= f) bs K (.ofLength (n + m) bs) := by
  rw [← Extent.ofLength_followedBy]
  apply hp.bind
  rintro b _ ⟨hb, rfl⟩
  exact hf b hb

lemma spans_byte : Spans (byte : Reader ε UInt8) bs (fun b n => b = bs.getD 0 0 ∧ n = 1)
    (.ofLength 1 bs) := by
  cases bs with
  | nil => rfl
  | cons b bs => exact ⟨b, ⟨rfl, rfl⟩, rfl⟩

lemma spans_skip_bind {f : Unit → Reader ε α} {n : Nat} {g : Nat → Extent}
    (h : Spans (f ()) (bs.drop n) (fun b m => K b (n + m)) (g n)) :
    Spans (skip n >>= f) bs K ((Extent.size n).followedBy g) := h.ok_bind rfl

lemma spans_peek_bind {p : Reader ε β} {f : β → Reader ε α} {b : β} {r : List UInt8}
    (hp : p bs = .ok (.ok (b, r))) (hf : Spans (f b) bs K e) : Spans (peek p >>= f) bs K e := by
  have hpeek : peek p bs = .ok (.ok (b, bs)) := by rw [peek, hp]
  exact hf.congr (bind_apply_ok hpeek f)

lemma spans_peek_crash {p : Reader ε β} {f : β → Reader ε α} (hp : p bs = .crash) :
    Spans (peek p >>= f) bs K .missing := by
  have hpeek : peek p bs = .crash := by rw [peek, hp]
  exact bind_apply_crash hpeek f

lemma spans_failIf_bind {c : Prop} [Decidable c] {err : ε} {f : Unit → Reader ε α} (hc : ¬ c)
    (hf : Spans (f ()) bs K e) : Spans (failIf c err >>= f) bs K e := by
  have h : (failIf c err >>= f) bs = f () bs := by rw [failIf, if_neg hc]; rfl
  exact hf.congr h

lemma spans_failIf {c : Prop} [Decidable c] {err : ε} {f : Unit → Reader ε α} (hc : c) :
    Spans (failIf c err >>= f) bs K .refused := by
  refine ⟨err, ?_⟩
  rw [failIf, if_pos hc]
  rfl

end Spans

end Reader
