import Mathlib.Data.List.Infix
import SmartSnmp.Lib.Traced

/-!
# Readers of a byte string

A `Reader ε α` program walks a cursor over a byte string that it does not know the end of. What it
is run on is the part of the memory from the cursor on that it may read: a read past it is a
`crash`, while moving the cursor is free. A reader may also `fail` with an error of type `ε`.

Three notions describe a reader. `Parses p bs a` says that `p` reads exactly `bs` and returns `a`,
whatever follows. `Inside p K bs` says that `p` stays inside of `bs` and ends, with `K` if it does
not fail. `Local p` says that bytes which such a run does not reach have no influence on it.
-/

def Reader (ε α : Type) := List UInt8 → Outcome (Except ε (α × List UInt8))

namespace Reader

variable {ε α β : Type}

def bind (p : Reader ε α) (f : α → Reader ε β) : Reader ε β := fun bs =>
  match p bs with
  | .ok (.ok (a, rest)) => f a rest
  | .ok (.error e) => .ok (.error e)
  | .crash => .crash
  | .fuel => .fuel

instance : Monad (Reader ε) where
  pure a := fun bs => .ok (.ok (a, bs))
  bind := bind

/-- Return an error. -/
def fail (e : ε) : Reader ε α := fun _ => .ok (.error e)

/-- Stop at undefined behaviour. -/
def crash : Reader ε α := fun _ => .crash

/-- Give up a loop that has used its fuel. -/
def outOfFuel : Reader ε α := fun _ => .fuel

/-- Read one byte. -/
def byte : Reader ε UInt8
  | [] => .crash
  | b :: bs => .ok (.ok (b, bs))

/-- Read `n` bytes. -/
def bytes (n : Nat) : Reader ε (List UInt8) := fun bs =>
  if n ≤ bs.length then .ok (.ok (bs.take n, bs.drop n)) else .crash

/-- Move the cursor `n` bytes on. -/
def skip (n : Nat) : Reader ε Unit := fun bs => .ok (.ok ((), bs.drop n))

/-- Return an error under a condition. -/
def failIf (c : Prop) [Decidable c] (e : ε) : Reader ε Unit := if c then fail e else pure ()

/-- A reader that depends on how many bytes are left. -/
def withRemaining (p : Nat → Reader ε α) : Reader ε α := fun bs => p bs.length bs

/-- Run a reader and put the cursor back. -/
def peek (p : Reader ε α) : Reader ε α := fun bs =>
  match p bs with
  | .ok (.ok (a, _)) => .ok (.ok (a, bs))
  | .ok (.error e) => .ok (.error e)
  | .crash => .crash
  | .fuel => .fuel

@[simp] lemma pure_apply (a : α) (bs : List UInt8) :
    (pure a : Reader ε α) bs = .ok (.ok (a, bs)) := rfl

@[simp] lemma fail_apply (e : ε) (bs : List UInt8) :
    (fail e : Reader ε α) bs = .ok (.error e) := rfl

@[simp] lemma crash_apply (bs : List UInt8) : (crash : Reader ε α) bs = .crash := rfl

@[simp] lemma byte_cons (b : UInt8) (bs : List UInt8) :
    (byte : Reader ε UInt8) (b :: bs) = .ok (.ok (b, bs)) := rfl

@[simp] lemma byte_nil : (byte : Reader ε UInt8) [] = .crash := rfl

@[simp] lemma skip_apply (n : Nat) (bs : List UInt8) :
    (skip n : Reader ε Unit) bs = .ok (.ok ((), bs.drop n)) := rfl

lemma bytes_append {n : Nat} {bs : List UInt8} (h : bs.length = n) (rest : List UInt8) :
    (bytes n : Reader ε _) (bs ++ rest) = .ok (.ok (bs, rest)) := by
  subst h
  simp [bytes]

lemma bind_apply (p : Reader ε α) (f : α → Reader ε β) (bs : List UInt8) :
    (p >>= f) bs = match p bs with
      | .ok (.ok (a, rest)) => f a rest
      | .ok (.error e) => .ok (.error e)
      | .crash => .crash
      | .fuel => .fuel := rfl

lemma bind_apply_ok {p : Reader ε α} {bs rest : List UInt8} {a : α}
    (h : p bs = .ok (.ok (a, rest))) (f : α → Reader ε β) : (p >>= f) bs = f a rest := by
  rw [bind_apply, h]

lemma bind_apply_crash {p : Reader ε α} {bs : List UInt8} (h : p bs = .crash)
    (f : α → Reader ε β) : (p >>= f) bs = .crash := by
  rw [bind_apply, h]

/-- The second part of a sequence crashes. -/
lemma bind_bind_crash {γ : Type} {p : Reader ε α} {q : Reader ε β} {bs rest : List UInt8} {a : α}
    (hp : p bs = .ok (.ok (a, rest))) (hq : q rest = .crash) (f : α → β → Reader ε γ) :
    (p >>= fun a => q >>= f a) bs = .crash := by
  rw [bind_apply_ok hp, bind_apply_crash hq]

lemma bind_bind {γ : Type} (p : Reader ε α) (f : α → Reader ε β) (g : β → Reader ε γ) :
    (p >>= f) >>= g = p >>= fun a => f a >>= g := by
  funext bs
  simp only [bind_apply]
  rcases p bs with (e | ⟨a, rest⟩) | _ | _ <;> rfl

/-- A sequence that returns has a first part that does. -/
lemma bind_eq_ok {p : Reader ε α} {f : α → Reader ε β} {bs rest : List UInt8} {b : β}
    (h : (p >>= f) bs = .ok (.ok (b, rest))) :
    ∃ a mid, p bs = .ok (.ok (a, mid)) ∧ f a mid = .ok (.ok (b, rest)) := by
  rw [bind_apply] at h
  rcases hp : p bs with (e | ⟨a, mid⟩) | _ | _ <;> rw [hp] at h
  · simp at h
  · exact ⟨a, mid, rfl, h⟩
  · simp at h
  · simp at h

lemma peek_bind_eq_ok {p : Reader ε α} {f : α → Reader ε β} {bs rest : List UInt8} {b : β}
    (h : (peek p >>= f) bs = .ok (.ok (b, rest))) :
    ∃ a r, p bs = .ok (.ok (a, r)) ∧ f a bs = .ok (.ok (b, rest)) := by
  rw [bind_apply, peek] at h
  rcases hp : p bs with (e | ⟨a, r⟩) | _ | _ <;> rw [hp] at h
  · simp at h
  · exact ⟨a, r, rfl, h⟩
  · simp at h
  · simp at h

lemma failIf_bind_eq_ok {c : Prop} [Decidable c] {e : ε} {f : Unit → Reader ε β}
    {bs rest : List UInt8} {b : β} (h : (failIf c e >>= f) bs = .ok (.ok (b, rest))) :
    ¬ c ∧ f () bs = .ok (.ok (b, rest)) := by
  rw [bind_apply, failIf] at h
  split_ifs at h with hc
  · simp at h
  · exact ⟨hc, h⟩

/-- The values that a reader can return. -/
def Yields (p : Reader ε α) (a : α) : Prop := ∃ bs rest, p bs = .ok (.ok (a, rest))

lemma Yields.of_pure {a b : α} (h : Yields (pure a : Reader ε α) b) : a = b := by
  obtain ⟨bs, rest, h⟩ := h
  simp only [pure_apply, Outcome.ok.injEq, Except.ok.injEq, Prod.mk.injEq] at h
  exact h.1

lemma Yields.of_bind {p : Reader ε α} {f : α → Reader ε β} {b : β} (h : Yields (p >>= f) b) :
    ∃ a, Yields p a ∧ Yields (f a) b := by
  obtain ⟨bs, rest, h⟩ := h
  obtain ⟨a, mid, hp, hf⟩ := bind_eq_ok h
  exact ⟨a, ⟨bs, mid, hp⟩, mid, rest, hf⟩

/-- A sequence that returns, if its second part keeps what the first one returns. -/
lemma bind_eq_ok_iff {p : Reader ε α} {f : α → Reader ε β} {bs rest : List UInt8} {a : α} {b : β}
    (hkeeps : ∀ x, Yields (f x) b → x = a) : (p >>= f) bs = .ok (.ok (b, rest)) ↔
      ∃ mid, p bs = .ok (.ok (a, mid)) ∧ f a mid = .ok (.ok (b, rest)) := by
  constructor
  · intro h
    obtain ⟨x, mid, hp, hf⟩ := bind_eq_ok h
    obtain rfl := hkeeps x ⟨mid, rest, hf⟩
    exact ⟨mid, hp, hf⟩
  · rintro ⟨mid, hp, hf⟩
    rw [bind_apply_ok hp, hf]

lemma Yields.of_failIf {c : Prop} [Decidable c] {e : ε} {u : Unit} (h : Yields (failIf c e) u) :
    ¬ c := by
  obtain ⟨bs, rest, h⟩ := h
  rw [failIf] at h
  split_ifs at h with hc
  · simp at h
  · exact hc

lemma Yields.of_peek {p : Reader ε α} {a : α} (h : Yields (peek p) a) : Yields p a := by
  obtain ⟨bs, rest, h⟩ := h
  rw [peek] at h
  rcases hp : p bs with (e | ⟨b, mid⟩) | _ | _ <;> rw [hp] at h
  · simp at h
  · simp only [Outcome.ok.injEq, Except.ok.injEq, Prod.mk.injEq] at h
    exact ⟨bs, mid, h.1 ▸ hp⟩
  · simp at h
  · simp at h

lemma Yields.length_of_bytes {n : Nat} {bs : List UInt8} (h : Yields (bytes n : Reader ε _) bs) :
    bs.length = n := by
  obtain ⟨cs, rest, h⟩ := h
  rw [bytes] at h
  split_ifs at h with hn
  · simp only [Outcome.ok.injEq, Except.ok.injEq, Prod.mk.injEq] at h
    rw [← h.1, List.length_take, min_eq_left (by omega)]

/-! ### What a reader accepts -/

/-- `p` reads the bytes `bs`, whatever follows them, and returns `a`. -/
def Parses (p : Reader ε α) (bs : List UInt8) (a : α) : Prop :=
  ∀ rest, p (bs ++ rest) = .ok (.ok (a, rest))

lemma parses_pure (a : α) : Parses (pure a : Reader ε α) [] a := fun _ => rfl

lemma parses_byte (b : UInt8) : Parses (byte : Reader ε UInt8) [b] b := fun _ => rfl

lemma parses_bytes {n : Nat} {bs : List UInt8} (h : bs.length = n) :
    Parses (bytes n : Reader ε _) bs bs := bytes_append h

lemma parses_failIf {c : Prop} [Decidable c] (h : ¬ c) (e : ε) : Parses (failIf c e) [] () := by
  intro rest
  simp [failIf, h]

lemma parses_skip {n : Nat} {bs : List UInt8} (h : bs.length = n) :
    Parses (skip n : Reader ε _) bs () := by
  intro rest
  simp [← h]

lemma Parses.bind {p : Reader ε α} {f : α → Reader ε β} {bs cs : List UInt8} {a : α} {b : β}
    (hp : Parses p bs a) (hf : Parses (f a) cs b) : Parses (p >>= f) (bs ++ cs) b := by
  intro rest
  rw [List.append_assoc, bind_apply_ok (hp (cs ++ rest)), hf]

/-- A first part that reads nothing. -/
lemma Parses.nil_bind {p : Reader ε α} {f : α → Reader ε β} {cs : List UInt8} {a : α} {b : β}
    (hp : Parses p [] a) (hf : Parses (f a) cs b) : Parses (p >>= f) cs b := hp.bind hf

/-- A second part that reads nothing. -/
lemma Parses.bind_nil {p : Reader ε α} {f : α → Reader ε β} {bs : List UInt8} {a : α} {b : β}
    (hp : Parses p bs a) (hf : Parses (f a) [] b) : Parses (p >>= f) bs b := by
  simpa using hp.bind hf

/-- Look ahead at bytes that are then skipped. -/
lemma Parses.peek_skip_nil {p : Reader ε α} {f : α → Reader ε β} {bs : List UInt8} {a : α} {b : β}
    {n : Nat} (hp : Parses p bs a) (hn : bs.length = n) (hf : Parses (f a) [] b) :
    Parses (do let x ← peek p; skip n; f x) bs b := by
  intro rest
  have hpeek : peek p (bs ++ rest) = .ok (.ok (a, bs ++ rest)) := by simp [peek, hp rest]
  rw [bind_apply_ok hpeek, bind_apply_ok (parses_skip hn rest)]
  exact hf rest

/-- `p` returns `a` on every input that starts with `bs`, wherever it leaves the cursor. -/
def Looks (p : Reader ε α) (bs : List UInt8) (a : α) : Prop :=
  ∀ rest, ∃ r, p (bs ++ rest) = .ok (.ok (a, r))

lemma Parses.looks {p : Reader ε α} {bs : List UInt8} {a : α} (h : Parses p bs a) : Looks p bs a :=
  fun rest => ⟨rest, h rest⟩

lemma Looks.append {p : Reader ε α} {bs : List UInt8} {a : α} (h : Looks p bs a)
    (cs : List UInt8) : Looks p (bs ++ cs) a := by
  intro rest
  rw [List.append_assoc]
  exact h (cs ++ rest)

lemma Parses.looks_bind {p : Reader ε α} {f : α → Reader ε β} {bs cs : List UInt8} {a : α} {b : β}
    (hp : Parses p bs a) (hf : Looks (f a) cs b) : Looks (p >>= f) (bs ++ cs) b := by
  intro rest
  rw [List.append_assoc, bind_apply_ok (hp (cs ++ rest))]
  exact hf rest

lemma Looks.peek_bind {p : Reader ε α} {f : α → Reader ε β} {bs : List UInt8} {a : α} {b : β}
    (hp : Looks p bs a) (hf : Parses (f a) bs b) : Parses (peek p >>= f) bs b := by
  intro rest
  obtain ⟨r, hr⟩ := hp rest
  have hpeek : peek p (bs ++ rest) = .ok (.ok (a, bs ++ rest)) := by simp [peek, hr]
  rw [bind_apply_ok hpeek]
  exact hf rest

/-- `p` fails with `e` on every input that starts with `bs`. -/
def Rejects (p : Reader ε α) (bs : List UInt8) (e : ε) : Prop :=
  ∀ rest, p (bs ++ rest) = .ok (.error e)

lemma rejects_failIf_bind {c : Prop} [Decidable c] {f : Unit → Reader ε α} (h : c) (e : ε)
    (bs : List UInt8) : Rejects (failIf c e >>= f) bs e := by
  intro rest
  simp [bind_apply, failIf, h]

lemma Rejects.append {p : Reader ε α} {bs : List UInt8} {e : ε} (h : Rejects p bs e)
    (cs : List UInt8) : Rejects p (bs ++ cs) e := by
  intro rest
  rw [List.append_assoc]
  exact h (cs ++ rest)

lemma Rejects.bind {p : Reader ε α} {f : α → Reader ε β} {bs : List UInt8} {e : ε}
    (h : Rejects p bs e) : Rejects (p >>= f) bs e := by
  intro rest
  rw [bind_apply, h rest]

lemma Parses.bind_rejects {p : Reader ε α} {f : α → Reader ε β} {bs cs : List UInt8} {a : α} {e : ε}
    (hp : Parses p bs a) (hf : Rejects (f a) cs e) : Rejects (p >>= f) (bs ++ cs) e := by
  intro rest
  rw [List.append_assoc, bind_apply_ok (hp (cs ++ rest)), hf]

lemma Parses.nil_bind_rejects {p : Reader ε α} {f : α → Reader ε β} {cs : List UInt8} {a : α} {e : ε}
    (hp : Parses p [] a) (hf : Rejects (f a) cs e) : Rejects (p >>= f) cs e := hp.bind_rejects hf

lemma Looks.peek_rejects {p : Reader ε α} {f : α → Reader ε β} {bs : List UInt8} {a : α} {e : ε}
    (hp : Looks p bs a) (hf : Rejects (f a) bs e) : Rejects (peek p >>= f) bs e := by
  intro rest
  obtain ⟨r, hr⟩ := hp rest
  have hpeek : peek p (bs ++ rest) = .ok (.ok (a, bs ++ rest)) := by simp [peek, hr]
  rw [bind_apply_ok hpeek]
  exact hf rest

/-! ### Where a reader stays inside -/

/-- `p` ends without reading past `bs`, and if it returns then with a value and a cursor of `K`. -/
def Inside (p : Reader ε α) (K : α → List UInt8 → Prop) (bs : List UInt8) : Prop :=
  match p bs with
  | .ok (.ok (a, rest)) => K a rest
  | .ok (.error _) => True
  | .crash => False
  | .fuel => False

section Inside

variable {K : α → List UInt8 → Prop} {L : β → List UInt8 → Prop} {bs : List UInt8}

@[simp] lemma inside_pure {a : α} : Inside (pure a : Reader ε α) K bs ↔ K a bs := Iff.rfl

@[simp] lemma inside_fail {e : ε} : Inside (fail e : Reader ε α) K bs := trivial

@[simp] lemma inside_crash : ¬ Inside (crash : Reader ε α) K bs := id

@[simp] lemma inside_failIf {c : Prop} [Decidable c] {e : ε} {K : Unit → List UInt8 → Prop} :
    Inside (failIf c e) K bs ↔ (¬ c → K () bs) := by
  by_cases h : c <;> simp [Inside, failIf, h]

@[simp] lemma inside_byte {K : UInt8 → List UInt8 → Prop} :
    Inside (byte : Reader ε UInt8) K bs ↔ ∃ b rest, bs = b :: rest ∧ K b rest := by
  cases bs <;> simp [Inside]

@[simp] lemma inside_bytes {n : Nat} {K : List UInt8 → List UInt8 → Prop} :
    Inside (bytes n : Reader ε _) K bs ↔ n ≤ bs.length ∧ K (bs.take n) (bs.drop n) := by
  by_cases h : n ≤ bs.length <;> simp [Inside, bytes, h]

@[simp] lemma inside_skip {n : Nat} {K : Unit → List UInt8 → Prop} :
    Inside (skip n : Reader ε _) K bs ↔ K () (bs.drop n) := Iff.rfl

lemma inside_bind {p : Reader ε α} {f : α → Reader ε β} :
    Inside (p >>= f) L bs ↔ Inside p (fun a rest => Inside (f a) L rest) bs := by
  simp only [Inside, bind_apply]
  rcases p bs with (e | ⟨a, rest⟩) | _ | _ <;> rfl

@[simp] lemma inside_peek {p : Reader ε α} :
    Inside (peek p) K bs ↔ Inside p (fun a _ => K a bs) bs := by
  simp only [Inside, peek]
  rcases p bs with (e | ⟨a, rest⟩) | _ | _ <;> rfl

lemma inside_congr {p : Reader ε α} {K' : α → List UInt8 → Prop}
    (h : ∀ a rest, K a rest ↔ K' a rest) : Inside p K bs ↔ Inside p K' bs := by
  obtain rfl : K = K' := funext fun a => funext fun rest => propext (h a rest)
  rfl

lemma Inside.exists_ok {p : Reader ε α} (h : Inside p K bs) : ∃ r, p bs = .ok r := by
  simp only [Inside] at h
  rcases hp : p bs with r | _ | _
  · exact ⟨r, rfl⟩
  · simp [hp] at h
  · simp [hp] at h

lemma inside_true_iff {p : Reader ε α} : Inside p (fun _ _ => True) bs ↔ ∃ r, p bs = .ok r := by
  refine ⟨Inside.exists_ok, ?_⟩
  rintro ⟨r, h⟩
  simp only [Inside, h]
  rcases r with e | ⟨a, rest⟩ <;> trivial

lemma Inside.mono {p : Reader ε α} {K' : α → List UInt8 → Prop} (h : Inside p K bs)
    (himp : ∀ a rest, p bs = .ok (.ok (a, rest)) → K a rest → K' a rest) : Inside p K' bs := by
  simp only [Inside] at h ⊢
  rcases hp : p bs with (e | ⟨a, rest⟩) | _ | _ <;> rw [hp] at h
  · trivial
  · exact himp a rest hp h
  · exact h
  · exact h

/-- What is inside and does not fail returns. -/
lemma Inside.exists_of_not {p : Reader ε α} (h : Inside p K bs)
    (hfail : ¬ Inside p (fun _ _ => False) bs) :
    ∃ a rest, p bs = .ok (.ok (a, rest)) ∧ K a rest := by
  simp only [Inside] at h hfail
  rcases hp : p bs with (e | ⟨a, rest⟩) | _ | _ <;> rw [hp] at h hfail
  · exact absurd trivial hfail
  · exact ⟨a, rest, rfl, h⟩
  · exact h.elim
  · exact h.elim

lemma inside_of_eq_ok {p : Reader ε α} {a : α} {rest : List UInt8}
    (h : p bs = .ok (.ok (a, rest))) : Inside p K bs ↔ K a rest := by
  simp [Inside, h]

end Inside

/-! ### What a reader leaves -/

/-- `p` does not move the cursor back. -/
def Forward (p : Reader ε α) : Prop :=
  ∀ ⦃bs a rest⦄, p bs = .ok (.ok (a, rest)) → rest.length ≤ bs.length

lemma forward_pure (a : α) : Forward (pure a : Reader ε α) := by
  intro bs a' rest h
  obtain ⟨_, rfl⟩ : a = a' ∧ bs = rest := by simpa using h
  exact le_rfl

lemma forward_failIf (c : Prop) [Decidable c] (e : ε) : Forward (failIf c e) := by
  intro bs a rest h
  by_cases hc : c
  · simp [failIf, hc] at h
  · obtain rfl : bs = rest := by simpa [failIf, hc] using h
    exact le_rfl

lemma forward_byte : Forward (byte : Reader ε UInt8) := by
  intro bs b rest h
  cases bs with
  | nil => simp at h
  | cons c bs =>
    obtain ⟨_, rfl⟩ : c = b ∧ bs = rest := by simpa using h
    simp

lemma forward_crash : Forward (crash : Reader ε α) := by
  intro bs a rest h
  simp at h

lemma forward_bytes (n : Nat) : Forward (bytes n : Reader ε _) := by
  intro bs a rest h
  by_cases hn : n ≤ bs.length
  · obtain ⟨_, rfl⟩ : bs.take n = a ∧ bs.drop n = rest := by simpa [bytes, hn] using h
    simp
  · simp [bytes, hn] at h

lemma forward_skip (n : Nat) : Forward (skip n : Reader ε _) := by
  intro bs a rest h
  obtain rfl : bs.drop n = rest := by simpa using h
  simp

lemma forward_peek (p : Reader ε α) : Forward (peek p) := by
  intro bs a rest h
  rcases hp : p bs with (e | ⟨a', rest'⟩) | _ | _ <;> simp only [peek, hp] at h
  · simp at h
  · obtain ⟨_, rfl⟩ : a' = a ∧ bs = rest := by simpa using h
    exact le_rfl
  · simp at h
  · simp at h

lemma Forward.bind {p : Reader ε α} {f : α → Reader ε β} (hp : Forward p) (hf : ∀ a, Forward (f a)) :
    Forward (p >>= f) := by
  intro bs b rest h
  obtain ⟨a, mid, h1, h2⟩ := bind_eq_ok h
  exact (hf a h2).trans (hp h1)

/-- A reader that starts with a byte moves the cursor. -/
lemma Forward.byte_bind {f : UInt8 → Reader ε β} (hf : ∀ b, Forward (f b)) {bs rest : List UInt8}
    {b : β} (h : (byte >>= f) bs = .ok (.ok (b, rest))) : rest.length < bs.length := by
  cases bs with
  | nil => simp [bind_apply] at h
  | cons c bs => exact Nat.lt_succ_of_le (hf c (by simpa [bind_apply] using h))

/-- `p` moves the cursor by as many bytes as the value has a weight, or more. -/
def Takes (p : Reader ε α) (weight : α → Nat) : Prop :=
  ∀ ⦃bs a rest⦄, p bs = .ok (.ok (a, rest)) → rest.length + weight a ≤ bs.length

lemma Forward.takes {p : Reader ε α} (h : Forward p) {weight : α → Nat} (hzero : ∀ a, weight a = 0) :
    Takes p weight := by
  intro bs a rest hp
  rw [hzero]
  exact h hp

lemma takes_pure {a : α} {weight : α → Nat} (h : weight a = 0) : Takes (pure a : Reader ε α) weight := by
  intro bs a' rest hp
  obtain ⟨rfl, rfl⟩ : a = a' ∧ bs = rest := by simpa using hp
  rw [h, Nat.add_zero]

lemma takes_bytes (n : Nat) : Takes (bytes n : Reader ε _) fun _ => n := by
  intro bs a rest hp
  by_cases hn : n ≤ bs.length
  · obtain ⟨_, rfl⟩ : bs.take n = a ∧ bs.drop n = rest := by simpa [bytes, hn] using hp
    simp only [List.length_drop]
    omega
  · simp [bytes, hn] at hp

/-- What the first part takes is taken off the weight for the second one. -/
lemma Takes.bind {p : Reader ε α} {f : α → Reader ε β} {weight : α → Nat} {total : β → Nat}
    (hp : Takes p weight) (hf : ∀ a, Takes (f a) fun b => total b - weight a) :
    Takes (p >>= f) total := by
  intro bs b rest h
  obtain ⟨a, mid, h1, h2⟩ := bind_eq_ok h
  have hle : mid.length + weight a ≤ bs.length := hp h1
  have hle' : rest.length + (total b - weight a) ≤ mid.length := hf a h2
  omega

lemma Forward.bind_takes {p : Reader ε α} {f : α → Reader ε β} {total : β → Nat} (hp : Forward p)
    (hf : ∀ a, Takes (f a) total) : Takes (p >>= f) total := by
  intro bs b rest h
  obtain ⟨a, mid, h1, h2⟩ := bind_eq_ok h
  exact (hf a h2).trans (hp h1)

/-! ### What a reader depends on -/

/-- A run that stays inside goes the same way on every longer input. -/
def Local (p : Reader ε α) : Prop :=
  ∀ ⦃bs bs' : List UInt8⦄, bs <+: bs' →
    (∀ e, p bs = .ok (.error e) → p bs' = .ok (.error e)) ∧
    ∀ a rest, p bs = .ok (.ok (a, rest)) → ∃ rest', rest <+: rest' ∧ p bs' = .ok (.ok (a, rest'))

lemma local_pure (a : α) : Local (pure a : Reader ε α) := by
  intro bs bs' h
  refine ⟨by simp, ?_⟩
  intro a' rest hp
  obtain ⟨rfl, rfl⟩ : a = a' ∧ bs = rest := by simpa using hp
  exact ⟨bs', h, rfl⟩

lemma local_fail (e : ε) : Local (fail e : Reader ε α) := by
  intro bs bs' _
  simp

lemma local_crash : Local (crash : Reader ε α) := by
  intro bs bs' _
  simp

lemma local_outOfFuel : Local (outOfFuel : Reader ε α) := by
  intro bs bs' _
  simp [outOfFuel]

lemma local_failIf (c : Prop) [Decidable c] (e : ε) : Local (failIf c e : Reader ε Unit) := by
  unfold failIf
  split_ifs
  · exact local_fail e
  · exact local_pure ()

lemma local_byte : Local (byte : Reader ε UInt8) := by
  intro bs bs' h
  obtain ⟨more, rfl⟩ := h
  cases bs with
  | nil => simp
  | cons b bs =>
    refine ⟨by simp, ?_⟩
    intro a rest hp
    obtain ⟨rfl, rfl⟩ : b = a ∧ bs = rest := by simpa using hp
    exact ⟨bs ++ more, List.prefix_append bs more, rfl⟩

lemma local_bytes (n : Nat) : Local (bytes n : Reader ε (List UInt8)) := by
  intro bs bs' h
  obtain ⟨more, rfl⟩ := h
  by_cases hn : n ≤ bs.length
  · refine ⟨by simp [bytes, hn], ?_⟩
    intro a rest hp
    obtain ⟨rfl, rfl⟩ : bs.take n = a ∧ bs.drop n = rest := by simpa [bytes, hn] using hp
    refine ⟨bs.drop n ++ more, List.prefix_append _ more, ?_⟩
    simp only [bytes, List.length_append]
    rw [if_pos (by omega), List.take_append_of_le_length hn, List.drop_append_of_le_length hn]
  · simp [bytes, hn]

lemma local_skip (n : Nat) : Local (skip n : Reader ε Unit) := by
  intro bs bs' h
  refine ⟨by simp, fun a rest hp => ⟨bs'.drop n, ?_, rfl⟩⟩
  obtain rfl : bs.drop n = rest := by simpa using hp
  exact h.drop n

lemma Local.bind {p : Reader ε α} {f : α → Reader ε β} (hp : Local p) (hf : ∀ a, Local (f a)) :
    Local (p >>= f) := by
  intro bs bs' h
  constructor
  · intro e he
    rw [bind_apply] at he
    rcases hbs : p bs with (e' | ⟨a, mid⟩) | _ | _ <;> rw [hbs] at he
    · obtain rfl : e' = e := by simpa using he
      rw [bind_apply, (hp h).1 e' hbs]
    · obtain ⟨mid', hmid, hbs'⟩ := (hp h).2 a mid hbs
      rw [bind_apply_ok hbs']
      exact (hf a hmid).1 e he
    · simp at he
    · simp at he
  · intro b rest hb
    obtain ⟨a, mid, hbs, hb⟩ := bind_eq_ok hb
    obtain ⟨mid', hmid, hbs'⟩ := (hp h).2 a mid hbs
    rw [bind_apply_ok hbs']
    exact (hf a hmid).2 b rest hb

lemma Local.peek {p : Reader ε α} (hp : Local p) : Local (peek p) := by
  intro bs bs' h
  constructor
  · intro e he
    rcases hbs : p bs with (e' | ⟨a, mid⟩) | _ | _ <;> simp only [Reader.peek, hbs] at he
    · obtain rfl : e' = e := by simpa using he
      simp [Reader.peek, (hp h).1 e' hbs]
    · simp at he
    · simp at he
    · simp at he
  · intro a rest ha
    rcases hbs : p bs with (e' | ⟨a', mid⟩) | _ | _ <;> simp only [Reader.peek, hbs] at ha
    · simp at ha
    · obtain ⟨rfl, rfl⟩ : a' = a ∧ bs = rest := by simpa using ha
      obtain ⟨mid', _, hbs'⟩ := (hp h).2 a' mid hbs
      exact ⟨bs', h, by simp [Reader.peek, hbs']⟩
    · simp at ha
    · simp at ha

lemma local_ite {c : Prop} [Decidable c] {p q : Reader ε α} (hp : Local p) (hq : Local q) :
    Local (if c then p else q) := by
  split_ifs
  · exact hp
  · exact hq

end Reader
