import SmartSnmp.Lib.Reader

/-!
# Readers that fill a structure

A `Filler γ ε α` program is a reader that stores what it reads in a structure of type `γ`. The
structure outlives the program: an error leaves it as far as it was filled.

`Fills s m p f` says that `m`, started on the structure `s`, reads what the pure reader `p` reads
and fails where it fails; where `p` returns `b`, `m` returns the value and leaves the structure that
`f b` gives. `Follows m p` says less, of every structure: that `m` reads and returns what `p` does.
-/

def Filler (γ ε α : Type) := γ → List UInt8 → Outcome (Except ε (α × List UInt8) × γ)

namespace Filler

variable {γ ε α α' β β' : Type}

def bind (m : Filler γ ε α) (k : α → Filler γ ε β) : Filler γ ε β := fun s bs =>
  match m s bs with
  | .ok (.ok (a, rest), s') => k a s' rest
  | .ok (.error e, s') => .ok (.error e, s')
  | .crash => .crash
  | .fuel => .fuel

instance : Monad (Filler γ ε) where
  pure a := fun s bs => .ok (.ok (a, bs), s)
  bind := bind

/-- Read without storing. -/
def lift (p : Reader ε α) : Filler γ ε α := fun s bs =>
  match p bs with
  | .ok r => .ok (r, s)
  | .crash => .crash
  | .fuel => .fuel

/-- Store. -/
def store (f : γ → γ) : Filler γ ε Unit := fun s bs => .ok (.ok ((), bs), f s)

/-- A program that depends on how many bytes are left. -/
def withRemaining (m : Nat → Filler γ ε α) : Filler γ ε α := fun s bs => m bs.length s bs

/-- The structure as it is. -/
def get : Filler γ ε γ := fun s bs => .ok (.ok (s, bs), s)

lemma bind_apply (m : Filler γ ε α) (k : α → Filler γ ε β) (s : γ) (bs : List UInt8) :
    (m >>= k) s bs = match m s bs with
      | .ok (.ok (a, rest), s') => k a s' rest
      | .ok (.error e, s') => .ok (.error e, s')
      | .crash => .crash
      | .fuel => .fuel := rfl

def Fills (s : γ) (m : Filler γ ε α) (p : Reader ε β) (f : β → α × γ) : Prop :=
  ∀ bs, match p bs with
    | .ok (.ok (b, rest)) => m s bs = .ok (.ok ((f b).1, rest), (f b).2)
    | .ok (.error e) => ∃ s', m s bs = .ok (.error e, s')
    | .crash => m s bs = .crash
    | .fuel => m s bs = .fuel

section Fills

variable {s : γ} {m : Filler γ ε α} {p : Reader ε β} {f : β → α × γ}

lemma fills_lift (p : Reader ε α) (s : γ) : Fills s (lift p) p fun a => (a, s) := by
  intro bs
  simp only [lift]
  rcases p bs with (e | ⟨a, rest⟩) | _ | _
  · exact ⟨s, rfl⟩
  · rfl
  · rfl
  · rfl

lemma fills_pure (a : α) (b : β) (h : f b = (a, s)) :
    Fills s (pure a : Filler γ ε α) (pure b) f := by
  intro bs
  simp [h, Pure.pure]

lemma fills_store {u : γ → γ} {b : β} {f : β → Unit × γ} (h : f b = ((), u s)) :
    Fills s (store u : Filler γ ε Unit) (pure b) f := by
  intro bs
  simp [h, store]

lemma Fills.bind {k : α → Filler γ ε α'} {q : β → Reader ε β'} {g : β' → α' × γ}
    (hm : Fills s m p f) (hk : ∀ b, Reader.Yields p b → Fills (f b).2 (k (f b).1) (q b) g) :
    Fills s (m >>= k) (p >>= q) g := by
  intro bs
  have hbs := hm bs
  rw [Reader.bind_apply, bind_apply]
  have hyields : ∀ b rest, p bs = .ok (.ok (b, rest)) → Reader.Yields p b :=
    fun b rest h => ⟨bs, rest, h⟩
  generalize p bs = r at hbs hyields ⊢
  rcases r with (e | ⟨b, rest⟩) | _ | _
  · obtain ⟨s', hs'⟩ := hbs
    exact ⟨s', by rw [hs']⟩
  · rw [show m s bs = _ from hbs]
    exact hk b (hyields b rest rfl) rest
  · rw [show m s bs = _ from hbs]
  · rw [show m s bs = _ from hbs]

/-- A store has no part in what is read. -/
lemma Fills.store_bind {u : γ → γ} {k : Unit → Filler γ ε α'} {q : Reader ε β'} {g : β' → α' × γ}
    (h : Fills (u s) (k ()) q g) : Fills s (store u >>= k) q g := h

lemma Fills.get_bind {k : γ → Filler γ ε α'} {q : Reader ε β'} {g : β' → α' × γ}
    (h : Fills s (k s) q g) : Fills s (get >>= k) q g := h

/-- The last part of a program returns what it returns. -/
lemma Fills.map {h : β → β'} {g : β' → α × γ} (hm : Fills s m p f) (hg : ∀ b, g (h b) = f b) :
    Fills s m (p >>= fun b => pure (h b)) g := by
  intro bs
  have hbs := hm bs
  rw [Reader.bind_apply]
  generalize p bs = r at hbs ⊢
  rcases r with (e | ⟨b, rest⟩) | _ | _
  · exact hbs
  · simpa only [Reader.pure_apply, hg b] using hbs
  · exact hbs
  · exact hbs

lemma fills_crash : Fills s (lift Reader.crash : Filler γ ε α) (Reader.crash : Reader ε β) f :=
  fun _ => rfl

lemma fills_withRemaining {m : Nat → Filler γ ε α} {p : Nat → Reader ε β}
    (h : ∀ n, Fills s (m n) (p n) f) :
    Fills s (withRemaining m) (Reader.withRemaining p) f :=
  fun bs => h bs.length bs

/-- Bytes that are stored; there are as many as were asked for. -/
lemma fills_bytes_store {n : Nat} {u : List UInt8 → γ → γ} {f : List UInt8 → Unit × γ}
    (h : ∀ bs : List UInt8, bs.length = n → f bs = ((), u bs s)) :
    Fills s (do let bs ← lift (Reader.bytes n); store (u bs) : Filler γ ε Unit) (Reader.bytes n) f := by
  intro bs
  simp only [bind_apply, lift, Reader.bytes]
  by_cases hn : n ≤ bs.length
  · have hlen : (bs.take n).length = n := by simp [hn]
    simp only [if_pos hn, h _ hlen, store]
  · simp only [if_neg hn]

lemma Fills.ite {c : Prop} [Decidable c] {m' : Filler γ ε α} {p' : Reader ε β}
    (h : c → Fills s m p f) (h' : ¬ c → Fills s m' p' f) :
    Fills s (if c then m else m') (if c then p else p') f := by
  split_ifs with hc
  · exact h hc
  · exact h' hc

end Fills

/-- `m` reads what `p` reads, on every structure. -/
def Follows (m : Filler γ ε α) (p : Reader ε α) : Prop :=
  ∀ s bs, match p bs with
    | .ok r => ∃ s', m s bs = .ok (r, s')
    | .crash => m s bs = .crash
    | .fuel => m s bs = .fuel

section Follows

lemma follows_lift (p : Reader ε α) : Follows (lift p : Filler γ ε α) p := by
  intro s bs
  simp only [lift]
  rcases p bs with r | _ | _
  · exact ⟨s, rfl⟩
  · rfl
  · rfl

lemma Follows.bind {m : Filler γ ε α} {p : Reader ε α} {k : α → Filler γ ε β} {q : α → Reader ε β}
    (hm : Follows m p) (hk : ∀ a, Follows (k a) (q a)) : Follows (m >>= k) (p >>= q) := by
  intro s bs
  have hbs := hm s bs
  rw [Reader.bind_apply, bind_apply]
  generalize p bs = r at hbs ⊢
  rcases r with (e | ⟨a, rest⟩) | _ | _
  · obtain ⟨s', hs'⟩ := hbs
    exact ⟨s', by rw [hs']⟩
  · obtain ⟨s', hs'⟩ := hbs
    rw [hs']
    exact hk a s' rest
  · rw [show m s bs = _ from hbs]
  · rw [show m s bs = _ from hbs]

lemma Follows.store_bind {u : γ → γ} {k : Unit → Filler γ ε β} {q : Reader ε β}
    (h : Follows (k ()) q) : Follows (store u >>= k) q := fun s bs => h (u s) bs

end Follows

end Filler
