import Mathlib.Tactic.Common

/-!
# Sequential servers

What a server answers that takes its requests one after the other: each request has a sender, and its
reply, if there is one, goes back to it. Implementations that queue and interleave are compared with
this one.
-/

namespace Serve

variable {Addr Req Resp σ : Type*}

/-- The replies to the requests, each with its receiver, and the state afterwards. -/
def serve (f : σ → Req → Option (Option Resp × σ)) : σ → List (Addr × Req) →
    Option (List (Addr × Resp) × σ)
  | s, [] => some ([], s)
  | s, (client, req) :: reqs =>
    (f s req).bind fun (reply, s) =>
      (serve f s reqs).map fun (replies, s) =>
        ((reply.map fun r => (client, r)).toList ++ replies, s)

variable (f : σ → Req → Option (Option Resp × σ))

@[simp] lemma serve_nil (s : σ) : serve f s ([] : List (Addr × Req)) = some ([], s) := rfl

lemma serve_append (s : σ) (xs ys : List (Addr × Req)) : serve f s (xs ++ ys) =
    (serve f s xs).bind fun p => (serve f p.2 ys).map fun q => (p.1 ++ q.1, q.2) := by
  induction xs generalizing s with
  | nil => simp
  | cons x xs ih =>
    simp only [List.cons_append, serve, ih]
    cases f s x.2 with
    | none => rfl
    | some p =>
      simp only [Option.bind_some]
      cases serve f p.2 xs with
      | none => rfl
      | some q =>
        simp only [Option.map_some, Option.bind_some]
        cases serve f q.2 ys with
        | none => rfl
        | some r => simp

/-- The state of a server that queues: of the requests that arrived, those before the queue have been
served, and the replies to them are there. -/
def Served (s₀ : σ) (arrived queue : List (Addr × Req)) (replies : List (Addr × Resp)) (s : σ) : Prop :=
  ∃ done, arrived = done ++ queue ∧ serve f s₀ done = some (replies, s)

variable {f} {s₀ s : σ} {arrived queue : List (Addr × Req)} {replies : List (Addr × Resp)}

lemma served_init (s₀ : σ) : Served f s₀ ([] : List (Addr × Req)) [] [] s₀ := ⟨[], rfl, rfl⟩

lemma Served.arrive (h : Served f s₀ arrived queue replies s) (x : Addr × Req) :
    Served f s₀ (arrived ++ [x]) (queue ++ [x]) replies s := by
  obtain ⟨done, rfl, hserve⟩ := h
  exact ⟨done, List.append_assoc done queue [x], hserve⟩

/-- The server takes the request at the front. -/
lemma Served.take {client : Addr} {req : Req} {s' : σ} {reply : Option Resp}
    (h : Served f s₀ arrived ((client, req) :: queue) replies s) (hreq : f s req = some (reply, s')) :
    Served f s₀ arrived queue (replies ++ (reply.map fun r => (client, r)).toList) s' := by
  obtain ⟨done, rfl, hserve⟩ := h
  exact ⟨done ++ [(client, req)], by simp, by simp [serve_append, hserve, serve, hreq]⟩

/-- With nothing left in the queue, all that arrived has been served. -/
lemma Served.all (h : Served f s₀ arrived [] replies s) : serve f s₀ arrived = some (replies, s) := by
  obtain ⟨done, rfl, hserve⟩ := h
  rwa [List.append_nil]

/-- The request at the front is answered, if all that arrived is. -/
lemma Served.next_ne_none {client : Addr} {req : Req}
    (h : Served f s₀ arrived ((client, req) :: queue) replies s) (hall : serve f s₀ arrived ≠ none) :
    f s req ≠ none := by
  obtain ⟨done, rfl, hserve⟩ := h
  intro hnone
  simp [serve_append, hserve, serve, hnone] at hall

end Serve
