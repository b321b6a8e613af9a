import Mathlib.Data.List.Forall2
import SmartSnmp.AgentX.ByteOrder
import SmartSnmp.Transport.Udp

/-!
# The TCP transport of AgentX

`agentx_read_handler` of `core/agentx_tcp_evloop_transport.c`. A connection is a stream of bytes, and
what `recv` returns is taken for one PDU: what follows the first PDU in it is dropped, and a PDU that
is not complete is decoded from what the buffer held before.
-/

namespace SmartSnmp

open Reader Run

/-! ### The handler -/

/-- A result of `recv`: what was received, and what the rest of the buffer holds. -/
structure Recv where
  data : List UInt8
  rest : List UInt8
  nonempty : data ≠ []
  short : data.length ≤ transBufSiz - 1
  size : data.length + rest.length = transBufSiz

/-- The calls of `agentx_request_dispatch` that reach a function, with their datagrams. -/
abbrev Dispatched := List (AgentxHandler × AgentxDatagram)

/-- `agentx_read_handler`, which adds to what has been dispatched so far. -/
def agentxReadHandler (dispatched : Dispatched) (recv : Recv) : Option Dispatched :=
  (agentxRecv (recv.data ++ recv.rest) recv.data.length).map fun
    | .ok xdg => dispatched ++ ((agentxRequestDispatch xdg.pduHdr.type).map (·, xdg)).toList
    | .error _ => dispatched

lemma agentxReadHandler_of_decode {recv : Recv} {xdg : AgentxDatagram}
    (h : agentxDecode (recv.data ++ recv.rest) = .ok (.ok xdg)) (dispatched : Dispatched) :
    agentxReadHandler dispatched recv =
      some (dispatched ++ ((agentxRequestDispatch xdg.pduHdr.type).map (·, xdg)).toList) := by
  have hlen : (0 : Int) < recv.data.length := by
    exact_mod_cast List.length_pos_iff.mpr recv.nonempty
  simp only [agentxReadHandler, agentxRecv, if_pos hlen, h, Option.map_some]

/-- A result of `recv` leads to one call at most. -/
lemma length_agentxReadHandler_le {dispatched dispatched' : Dispatched} {recv : Recv}
    (h : agentxReadHandler dispatched recv = some dispatched') :
    dispatched'.length ≤ dispatched.length + 1 := by
  obtain ⟨ret, -, rfl⟩ := Option.map_eq_some_iff.mp h
  cases ret with
  | ok xdg => cases agentxRequestDispatch xdg.pduHdr.type <;> simp
  | error e => simp

lemma length_run_le {dispatched dispatched' : Dispatched} {recvs : List Recv}
    (h : run agentxReadHandler dispatched recvs = some dispatched') :
    dispatched'.length ≤ dispatched.length + recvs.length := by
  induction recvs generalizing dispatched with
  | nil =>
    obtain rfl := Option.some.inj h
    simp
  | cons recv recvs ih =>
    obtain ⟨mid, hstep, hrun⟩ := Option.bind_eq_some_iff.mp h
    have h1 := length_agentxReadHandler_le hstep
    have h2 := ih hrun
    rw [List.length_cons]
    omega

/-! ### PDUs in a stream -/

/-- A request in a byte order. -/
structure StreamPdu where
  nbo : Bool
  request : WireRequest

namespace StreamPdu

def bytes (pdu : StreamPdu) : List UInt8 := pdu.request.bytes pdu.nbo

/-- The datagram that stands for the request, whatever its byte order. -/
def datagram (pdu : StreamPdu) : AgentxDatagram :=
  (pdu.request.read false).setFlags (orderFlags pdu.nbo pdu.request.flags)

/-- The function that has to be called for a request. -/
def handler (pdu : StreamPdu) : AgentxHandler :=
  match pdu.request.body with
  | .search .get _ => .agentxGet
  | .search _ _ => .agentxGetnext
  | .testset _ => .agentxSet
  | .phase _ _ => .agentxResponse

def dispatch (pdu : StreamPdu) : AgentxHandler × AgentxDatagram := (pdu.handler, pdu.datagram)

/-- A request that the decoder understands: it is in the byte order of the host, or it has none. -/
def Understood (pdu : StreamPdu) : Prop := pdu.nbo = false ∨ pdu.request.body.Symmetric

lemma decode_append {pdu : StreamPdu} (h : pdu.Understood) (rest : List UInt8) :
    agentxDecode (pdu.bytes ++ rest) = .ok (.ok pdu.datagram) := by
  obtain ⟨nbo, r⟩ := pdu
  have hflags : (r.read false).pduHdr.flags = r.flags := by
    rw [r.read_pduHdr]
    rfl
  cases nbo with
  | false =>
    have hset : (r.read false).setFlags (orderFlags false r.flags) = r.read false := by
      rw [orderFlags, if_neg (by simp), ← hflags]
      rfl
    rw [bytes, WireRequest.agentxDecode_bytes (readable_false r.body), datagram, hset]
  | true =>
    have hsym : r.body.Symmetric := h.resolve_left (by simp)
    rw [bytes, WireRequest.agentxDecode_bytes (WireBody.readable_of_symmetric hsym), datagram,
      WireRequest.read_true_of_symmetric hsym, hflags]
    rfl

lemma agentxRequestDispatch_type (pdu : StreamPdu) :
    agentxRequestDispatch pdu.datagram.pduHdr.type = some pdu.handler := by
  obtain ⟨nbo, r⟩ := pdu
  have htype : (r.read false).pduHdr.type = r.body.type := by
    rw [r.read_pduHdr]
    rfl
  change agentxRequestDispatch (r.read false).pduHdr.type = _
  rw [htype, handler]
  cases r.body with
  | search kind srs => cases kind <;> rfl
  | testset vbs => rfl
  | phase type h => obtain rfl | rfl | rfl := isPhasePdu_cases h <;> rfl

/-- A PDU that is received alone is dispatched. -/
lemma agentxReadHandler_eq {pdu : StreamPdu} {recv : Recv} (h : pdu.Understood)
    (hdata : recv.data = pdu.bytes) (dispatched : Dispatched) :
    agentxReadHandler dispatched recv = some (dispatched ++ [pdu.dispatch]) := by
  have hdecode : agentxDecode (recv.data ++ recv.rest) = .ok (.ok pdu.datagram) := by
    rw [hdata]
    exact decode_append h recv.rest
  rw [agentxReadHandler_of_decode hdecode, agentxRequestDispatch_type]
  rfl

end StreamPdu

/-! ### Framing -/

/-- The results of `recv` are a way to cut the stream of the PDUs. -/
def Segments (pdus : List StreamPdu) (recvs : List Recv) : Prop :=
  recvs.flatMap Recv.data = pdus.flatMap StreamPdu.bytes

/-- Each PDU has been dispatched once, complete and in order. -/
def Framed (pdus : List StreamPdu) (recvs : List Recv) : Prop :=
  run agentxReadHandler [] recvs = some (pdus.map StreamPdu.dispatch)

/-- Each result of `recv` is one PDU, in a byte order that the decoder understands. -/
def OnePduEach (pdus : List StreamPdu) (recvs : List Recv) : Prop :=
  List.Forall₂ (fun pdu recv => recv.data = pdu.bytes ∧ pdu.Understood) pdus recvs

lemma run_of_onePduEach {pdus : List StreamPdu} {recvs : List Recv} (h : OnePduEach pdus recvs)
    (dispatched : Dispatched) :
    run agentxReadHandler dispatched recvs = some (dispatched ++ pdus.map StreamPdu.dispatch) := by
  induction h generalizing dispatched with
  | nil => simp
  | cons hfirst _ ih =>
    rw [run_cons, StreamPdu.agentxReadHandler_eq hfirst.2 hfirst.1, Option.bind_some, ih,
      List.map_cons, List.append_assoc]
    rfl

lemma OnePduEach.segments {pdus : List StreamPdu} {recvs : List Recv} (h : OnePduEach pdus recvs) :
    Segments pdus recvs := by
  rw [Segments]
  induction h with
  | nil => rfl
  | cons hfirst _ ih => rw [List.flatMap_cons, List.flatMap_cons, hfirst.1, ih]

/-- If each result of `recv` is one PDU, then each PDU is dispatched as soon as it is received, once,
complete and in order. -/
theorem framed_of_onePduEach {pdus : List StreamPdu} {recvs : List Recv} (h : OnePduEach pdus recvs) :
    Segments pdus recvs ∧ ∀ k, Framed (pdus.take k) (recvs.take k) := by
  refine ⟨h.segments, ?_⟩
  intro k
  exact run_of_onePduEach (List.forall₂_take k h) []

/-- A result of `recv` in a buffer of zeros. -/
def recvZero (data : List UInt8) (nonempty : data ≠ []) (short : data.length ≤ transBufSiz - 1) :
    Recv where
  data := data
  rest := List.replicate (transBufSiz - data.length) 0
  nonempty := nonempty
  short := short
  size := by
    rw [List.length_replicate]
    omega

/-- Two Get requests, each received alone. -/
theorem framed_orderedGet :
    Segments [⟨false, orderedGet⟩, ⟨false, orderedGet⟩]
        (List.replicate 2 (recvZero (orderedGet.bytes false) (by decide) (by decide))) ∧
      ∀ k, Framed (List.take k [⟨false, orderedGet⟩, ⟨false, orderedGet⟩])
        (List.take k (List.replicate 2 (recvZero (orderedGet.bytes false) (by decide) (by decide)))) :=
  framed_of_onePduEach (.cons ⟨rfl, .inl rfl⟩ (.cons ⟨rfl, .inl rfl⟩ .nil))

/-- PDUs that are received together are lost but for the first of them. -/
lemma Framed.length_le {pdus : List StreamPdu} {recvs : List Recv} (h : Framed pdus recvs) :
    pdus.length ≤ recvs.length := by
  simpa using length_run_le h

/-- Two Get requests that are received together. -/
theorem not_framed_orderedGet_twice :
    ¬ ∀ pdus recvs, Segments pdus recvs → Framed pdus recvs := by
  intro h
  have hframed := h [⟨false, orderedGet⟩, ⟨false, orderedGet⟩]
    [recvZero (orderedGet.bytes false ++ orderedGet.bytes false) (by decide) (by decide)] rfl
  exact absurd hframed.length_le (by decide)

end SmartSnmp
