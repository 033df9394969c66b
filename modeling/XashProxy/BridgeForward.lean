import XashProxy.BridgeShutdown

/-!
# What the forwarder sends

The account of the write channel: `recv` takes the datagrams from the front
of the socket, each is copied out of the reused buffer, and the send of one is
awaited before the next is received. `forwarder_fidelity` is about every
state of a run, so about every way the loop ends.

A datagram is cut at `MAX_PACKET_SIZE`, which no datagram of UDP exceeds.
-/

namespace XashProxy

namespace Bridge

open Lts

/-! ## Datagrams -/

/-- What has reached the UDP socket in a run, in order. -/
def arrived (es : List Event) : List RecvResult :=
  es.filterMap fun e =>
    match e with
    | .datagram r => some r
    | _ => none

/-- How the sends of a run went, in order. -/
def outcomes (es : List Event) : List Bool :=
  es.filterMap fun e =>
    match e with
    | .forward (.sent ok) => some ok
    | _ => none

/-- What the browser is to get for a result of `recv`. -/
def toBrowser : RecvResult → Option Bytes
  | .ok datagram =>
      if datagram = [] then none
      else some (if datagram = hltvConnectAck then connectAck else datagram)
  | .err => none

/-- As much of a datagram as the buffer holds. -/
def fitted : RecvResult → RecvResult
  | .ok datagram => .ok (datagram.take maxPacketSize)
  | .err => .err

theorem arrived_cons (e : Event) (es : List Event) :
    arrived (e :: es) = arrived [e] ++ arrived es := by
  simp [arrived, ← List.filterMap_append]

theorem outcomes_cons (e : Event) (es : List Event) :
    outcomes (e :: es) = outcomes [e] ++ outcomes es := by
  simp [outcomes, ← List.filterMap_append]

/-- Of equal length and with the prefix: the ack, and nothing longer or
shorter, is rewritten. -/
theorem rewriteAck_eq (data : Bytes) :
    rewriteAck data = if data = hltvConnectAck then connectAck else data := by
  unfold rewriteAck
  by_cases hack : data = hltvConnectAck
  · have hlen : data.length = hltvConnectAck.length := congrArg List.length hack
    have hstart : hltvConnectAck <+: data := ⟨[], by rw [List.append_nil, hack]⟩
    rw [if_pos hack, if_pos ⟨hlen, hstart⟩]
  · rw [if_neg hack, if_neg ?_]
    rintro ⟨hlen, hstart⟩
    exact hack (hstart.eq_of_length hlen.symm).symm

/-- The bytes copied out of the buffer are the datagram's: what an earlier,
longer one left behind them is not read. -/
theorem take_recvInto (buf datagram : Bytes) :
    (recvInto buf datagram).1.take (recvInto buf datagram).2
      = datagram.take maxPacketSize := List.take_left' rfl

theorem toBrowser_fitted {datagram : Bytes} (h : datagram ≠ []) :
    toBrowser (fitted (.ok datagram))
      = some (rewriteAck (datagram.take maxPacketSize)) := by
  have hne : datagram.take maxPacketSize ≠ [] := by
    simp [maxPacketSize, h]
  rw [fitted, toBrowser, if_neg hne, rewriteAck_eq]

theorem map_fitted {results : List RecvResult}
    (h : ∀ datagram, .ok datagram ∈ results → datagram.length ≤ maxPacketSize) :
    results.map fitted = results := by
  induction results with
  | nil => rfl
  | cons r results ih =>
      have hrest := ih fun datagram hd => h datagram (List.mem_cons_of_mem _ hd)
      cases r with
      | ok datagram =>
          have hfits := h datagram (List.mem_cons_self ..)
          rw [List.map_cons, hrest, fitted, List.take_of_length_le hfits]
      | err => rw [List.map_cons, hrest, fitted]

/-! ## The account -/

/-- The points between two sends. -/
def ForwarderPc.between : ForwarderPc → Bool
  | .sending | .ended | .aborted => false
  | _ => true

/-- Sends are awaited one by one, and the loop ends with the first that
fails. -/
structure Delivered (pc : ForwarderPc) (sent : List Bytes) (results : List Bool) :
    Prop where
  sending : pc = .sending → sent.length = results.length + 1
  done : pc ≠ .sending → pc ≠ .aborted → sent.length = results.length
  aborted : pc = .aborted →
    results.length ≤ sent.length ∧ sent.length ≤ results.length + 1
  going : pc = .sending ∨ pc.between = true → false ∉ results
  failed : ∀ i, results[i]? = some false → i + 1 = sent.length

theorem between_of_selecting {pc : ForwarderPc} (h : selecting pc = true) :
    pc.between = true := by
  cases pc <;> first | rfl | cases h

theorem ne_of_between {pc : ForwarderPc} (h : pc.between = true) :
    pc ≠ .sending ∧ pc ≠ .aborted := by
  refine ⟨?_, ?_⟩ <;> rintro rfl <;> cases h

/-- The task goes on without a send. -/
theorem Delivered.move {pc pc' : ForwarderPc} {sent : List Bytes} {results : List Bool}
    (h : Delivered pc sent results) (hpc : pc.between = true) (hpc' : pc' ≠ .sending) :
    Delivered pc' sent results := by
  obtain ⟨hns, hna⟩ := ne_of_between hpc
  have hlen := h.done hns hna
  exact ⟨fun hs => absurd hs hpc', fun _ _ => hlen, fun _ => by omega,
    fun _ => h.going (Or.inr hpc), h.failed⟩

/-- A datagram is handed over. -/
theorem Delivered.send {pc : ForwarderPc} {sent : List Bytes} {results : List Bool}
    (h : Delivered pc sent results) (hpc : pc.between = true) (data : Bytes) :
    Delivered .sending (sent ++ [data]) results := by
  obtain ⟨hns, hna⟩ := ne_of_between hpc
  have hlen := h.done hns hna
  have hok := h.going (Or.inr hpc)
  refine ⟨fun _ => ?_, fun hs => absurd rfl hs, nofun, fun _ => hok, fun i hi => ?_⟩
  · rw [List.length_append, hlen]
    rfl
  · exact absurd (List.mem_of_getElem? hi) hok

/-- The send completes. -/
theorem Delivered.complete {sent : List Bytes} {results : List Bool}
    (h : Delivered .sending sent results) (ok : Bool) :
    Delivered (if ok then .select else .ended) sent (results ++ [ok]) := by
  have hlen := h.sending rfl
  have hok := h.going (Or.inl rfl)
  refine ⟨?_, fun _ _ => ?_, ?_, ?_, fun i hi => ?_⟩
  · cases ok <;> exact nofun
  · rw [List.length_append, hlen]
    rfl
  · cases ok <;> exact nofun
  · cases ok with
    | true => exact fun _ => by simpa using hok
    | false => rintro (h | h) <;> cases h
  · rw [hlen]
    by_cases hlt : i < results.length
    · rw [List.getElem?_append_left hlt] at hi
      exact absurd (List.mem_of_getElem? hi) hok
    · have hle := (List.getElem?_eq_some_iff.mp hi).1
      rw [List.length_append, List.length_singleton] at hle
      omega

theorem Delivered.length {pc : ForwarderPc} {sent : List Bytes} {results : List Bool}
    (h : Delivered pc sent results) :
    results.length ≤ sent.length ∧ sent.length ≤ results.length + 1 := by
  by_cases hs : pc = .sending
  · have hlen := h.sending hs
    omega
  · by_cases ha : pc = .aborted
    · exact h.aborted ha
    · have hlen := h.done hs ha
      omega

/-- The task is dropped at an await point. -/
theorem Delivered.abort {pc : ForwarderPc} {sent : List Bytes} {results : List Bool}
    (h : Delivered pc sent results) : Delivered .aborted sent results := by
  refine ⟨nofun, fun _ hna => absurd rfl hna, fun _ => h.length, ?_, h.failed⟩
  rintro (h | h) <;> cases h

/-- The datagrams received so far are accounted for, and so are the sends. -/
structure Forwarded (s : State) (results : List RecvResult) (oks : List Bool) :
    Prop where
  received : ∃ consumed, results = consumed ++ s.socket
    ∧ s.sent = (consumed.map fitted).filterMap toBrowser
  delivered : Delivered s.forwarderPc s.sent oks

theorem forwarded_init : Forwarded init [] [] :=
  ⟨⟨[], rfl, rfl⟩, nofun, fun _ _ => rfl, nofun, fun _ => List.not_mem_nil, nofun⟩

/-- A step that neither receives nor sends. -/
theorem Forwarded.quiet {s s' : State} {results : List RecvResult} {oks : List Bool}
    (h : Forwarded s results oks) (hsocket : s'.socket = s.socket) (hsent : s'.sent = s.sent)
    (hd : Delivered s'.forwarderPc s.sent oks) : Forwarded s' results oks := by
  refine ⟨?_, ?_⟩
  · rw [hsocket, hsent]
    exact h.received
  · rw [hsent]
    exact hd

/-- A result is taken from the socket, and `sent` is what the browser is to
get for it. -/
theorem Forwarded.recv {s s' : State} {r : RecvResult} {results : List RecvResult}
    {oks : List Bool} (h : Forwarded s results oks) (hsocket : s.socket = r :: s'.socket)
    (hsent : s'.sent = s.sent ++ (toBrowser (fitted r)).toList)
    (hd : Delivered s'.forwarderPc s'.sent oks) : Forwarded s' results oks := by
  obtain ⟨consumed, hresults, hrelayed⟩ := h.received
  refine ⟨⟨consumed ++ [r], ?_, ?_⟩, hd⟩
  · rw [hresults, hsocket, List.append_assoc]
    rfl
  · have hone : [fitted r].filterMap toBrowser = (toBrowser (fitted r)).toList := by
      cases hr : toBrowser (fitted r) <;> simp [hr]
    rw [hsent, hrelayed, List.map_append, List.filterMap_append, List.map_singleton, hone]

theorem forwarded_step {s s' : State} {e : Event} {results : List RecvResult}
    {oks : List Bool} (hwf : Wf s) (hf : Forwarded s results oks)
    (h : step s e = some s') :
    Forwarded s' (results ++ arrived [e]) (oks ++ outcomes [e]) := by
  have hd := hf.delivered
  have hnil : arrived [e] = [] → outcomes [e] = [] →
      Forwarded s' results oks → Forwarded s' (results ++ arrived [e]) (oks ++ outcomes [e]) := by
    intro ha ho hf'
    rw [ha, ho, List.append_nil, List.append_nil]
    exact hf'
  cases acts_of_step h with
  | spawn hpc =>
      have hbetween : s.forwarderPc.between = true := by
        rw [hwf.unspawned.mpr hpc]
        rfl
      exact hnil rfl rfl (hf.quiet rfl rfl (hd.move hbetween nofun))
  | park hpc hsock hpoll =>
      exact hnil rfl rfl (hf.quiet rfl rfl (hd.move (by rw [hpc]; rfl) nofun))
  | @recv datagram rest hsock hsel hne =>
      have hsent := hd.send (between_of_selecting hsel)
      refine hnil rfl rfl (hf.recv hsock ?_ (hsent _))
      rw [toBrowser_fitted hne, take_recvInto]
      rfl
  | recvEmpty hsock hsel =>
      refine hnil rfl rfl (hf.recv hsock (List.append_nil _).symm ?_)
      exact hd.move (between_of_selecting hsel) nofun
  | recvError hsock hsel =>
      refine hnil rfl rfl (hf.recv hsock (List.append_nil _).symm ?_)
      exact hd.move (between_of_selecting hsel) nofun
  | idle hpc hle =>
      exact hnil rfl rfl (hf.quiet rfl rfl (hd.move (by rw [hpc]; rfl) nofun))
  | notified hsel hpoll =>
      exact hnil rfl rfl (hf.quiet rfl rfl (hd.move (between_of_selecting hsel) nofun))
  | sent hpc =>
      rw [hpc] at hd
      exact ⟨by simpa [arrived] using hf.received, hd.complete true⟩
  | sendFailed hpc =>
      rw [hpc] at hd
      exact ⟨by simpa [arrived] using hf.received, hd.complete false⟩
  | writeClosed hpc =>
      exact hnil rfl rfl (hf.quiet rfl rfl (hd.move (by rw [hpc]; rfl) nofun))
  | readClosed hpc =>
      exact hnil rfl rfl (hf.quiet rfl rfl (hd.move (by rw [hpc]; rfl) nofun))
  | cancel hab hlive => exact hnil rfl rfl (hf.quiet rfl rfl hd.abort)
  | @datagram r =>
      obtain ⟨consumed, hresults, hrelayed⟩ := hf.received
      refine ⟨⟨consumed, ?_, hrelayed⟩, by simpa [outcomes] using hd⟩
      rw [hresults, List.append_assoc]
      rfl
  | readClose hopen =>
      refine hnil rfl rfl ?_
      rcases onReadEnd_cases { s with readOpen := false } with
        ⟨-, heq⟩ | ⟨-, heq⟩ <;> rw [heq] <;> exact hf.quiet rfl rfl hd
  | readError =>
      refine hnil rfl rfl ?_
      rcases onReadEnd_cases s with ⟨-, heq⟩ | ⟨-, heq⟩ <;> rw [heq] <;>
        exact hf.quiet rfl rfl hd
  | _ => exact hnil rfl rfl (hf.quiet rfl rfl hd)

theorem forwarded_run {s t : State} {es : List Event} {results : List RecvResult}
    {oks : List Bool} (hwf : Wf s) (hf : Forwarded s results oks)
    (h : run step s es = some t) :
    Forwarded t (results ++ arrived es) (oks ++ outcomes es) := by
  induction es generalizing s results oks with
  | nil =>
      obtain rfl := Option.some.inj h
      rw [arrived, outcomes, List.filterMap_nil, List.filterMap_nil, List.append_nil,
        List.append_nil]
      exact hf
  | cons e es ih =>
      obtain ⟨s', he, hr⟩ := run_cons_eq_some.mp h
      have hrest := ih (wf_step hwf he) (forwarded_step hwf hf he) hr
      rw [arrived_cons, outcomes_cons, ← List.append_assoc, ← List.append_assoc]
      exact hrest

/-- In every state of a run the browser has been sent the non-empty datagrams
received so far, in order and once each, with the ack rewritten; every send
but the last has succeeded. -/
theorem forwarder_fidelity {es : List Event} {s : State}
    (h : run step init es = some s) :
    ∃ consumed, arrived es = consumed ++ s.socket
      ∧ s.sent = (consumed.map fitted).filterMap toBrowser
      ∧ ((∀ datagram, .ok datagram ∈ consumed → datagram.length ≤ maxPacketSize) →
          s.sent = consumed.filterMap toBrowser)
      ∧ (outcomes es).length ≤ s.sent.length
      ∧ s.sent.length ≤ (outcomes es).length + 1
      ∧ ∀ i, (outcomes es)[i]? = some false → i + 1 = s.sent.length := by
  have hf := forwarded_run wf_init forwarded_init h
  rw [List.nil_append, List.nil_append] at hf
  obtain ⟨consumed, harrived, hsent⟩ := hf.received
  obtain ⟨hle, hge⟩ := hf.delivered.length
  refine ⟨consumed, harrived, hsent, fun hfits => ?_, hle, hge, hf.delivered.failed⟩
  rw [hsent, map_fitted hfits]

/-- The ack, with its look-alike still waiting and a datagram before it that
was longer than it. -/
def untilAck : List Event :=
  [.start, .datagram (.ok (hltvConnectAck ++ [0x30])), .datagram (.ok []),
    .datagram (.ok hltvConnectAck), .datagram (.ok (hltvConnectAck.take 20)),
    .forward .recv, .forward (.sent true), .forward .recv, .forward .recv,
    .forward (.sent false)]

/-- The forwarder rewrites the ack, and stops with it. -/
theorem forwarder_fidelity_ack :
    ∃ s, run step init untilAck = some s ∧ s.forwarderPc = .ended
      ∧ s.sent = [hltvConnectAck ++ [0x30], connectAck]
      ∧ ∃ consumed, arrived untilAck = consumed ++ s.socket
        ∧ s.sent = (consumed.map fitted).filterMap toBrowser := by
  obtain ⟨s, hs, hpc, hsent⟩ : ∃ s, run step init untilAck = some s
      ∧ s.forwarderPc = .ended ∧ s.sent = [hltvConnectAck ++ [0x30], connectAck] :=
    ⟨_, rfl, rfl, rfl⟩
  obtain ⟨consumed, harrived, hrelayed, -⟩ := forwarder_fidelity hs
  exact ⟨s, hs, hpc, hsent, consumed, harrived, hrelayed⟩

end Bridge

end XashProxy
