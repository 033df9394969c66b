import XashProxy.Transport

/-!
# What negotiation leaves alone

Offers, answers and candidates touch the operations of the peers, the
buffers of the client and the outboxes of the sockets, and nothing else:
`erase_step` says so once for all of these events. `Settles` lists the ways
an operation of a peer finishes.
-/

namespace XashProxy

namespace Transport

theorem peers_modifyPeer (s : State) (p : Nat) (f : Peer → Peer) (j : Nat) :
    (modifyPeer s p f).peers j = if j = p then f (s.peers p) else s.peers j := by
  simp only [modifyPeer, Function.update_apply]

theorem socket_modifyPeer {s : State} {p : Nat} {f : Peer → Peer}
    (hf : (f (s.peers p)).socket = (s.peers p).socket) (j : Nat) :
    ((modifyPeer s p f).peers j).socket = (s.peers j).socket := by
  rw [peers_modifyPeer]
  split
  · rename_i hj
    rw [hf, hj]
  · rfl

theorem sockets_modifySocket (s : State) (k : Nat) (f : Socket → Socket) (j : Nat) :
    (modifySocket s k f).sockets j = if j = k then f (s.sockets k) else s.sockets j := by
  simp only [modifySocket, Function.update_apply]

/-! ## The state without its negotiation -/

def Socket.erase (k : Socket) : Socket := { k with received := [], outbox := [] }

def Peer.erase (q : Peer) : Peer :=
  { q with
    ops := [], remote := none, haveRemoteOffer := false, lastAnswer := none
    localSet := false, added := [] }

def erase (s : State) : State :=
  { s with
    remoteDescription := none, candidates := [], wasRemote := false
    applied := [], lost := [], typeErrors := 0
    sockets := fun k => (s.sockets k).erase
    peers := fun p => (s.peers p).erase }

theorem erase_modifyPeer {s : State} {p : Nat} {f : Peer → Peer}
    (hf : (f (s.peers p)).erase = (s.peers p).erase) :
    erase (modifyPeer s p f) = erase s := by
  simp only [erase, modifyPeer]
  congr 1
  funext j
  by_cases hj : j = p
  · subst hj
    rw [Function.update_self, hf]
  · rw [Function.update_of_ne hj]

theorem erase_modifySocket {s : State} {k : Nat} {f : Socket → Socket}
    (hf : (f (s.sockets k)).erase = (s.sockets k).erase) :
    erase (modifySocket s k f) = erase s := by
  simp only [erase, modifySocket]
  congr 1
  funext j
  by_cases hj : j = k
  · subst hj
    rw [Function.update_self, hf]
  · rw [Function.update_of_ne hj]

/-- The two ways `handleDescription` starts. -/
theorem handleDescription_cases (s : State) :
    (∃ o p, s.remoteDescription = some o ∧ s.peer = some p
        ∧ handleDescription s = { modifyPeer s p fun q =>
            q.call [.setRemoteDescription o] with applied := s.applied ++ [o] })
      ∨ ((s.remoteDescription = none ∨ s.peer = none)
        ∧ handleDescription s = s) := by
  unfold handleDescription
  cases hr : s.remoteDescription with
  | none => exact Or.inr ⟨Or.inl rfl, rfl⟩
  | some o =>
      cases hp : s.peer with
      | none => exact Or.inr ⟨Or.inr rfl, rfl⟩
      | some p => exact Or.inl ⟨o, p, rfl, rfl, rfl⟩

theorem handleCandidates_cases (s : State) :
    (∃ p, s.peer = some p ∧ handleCandidates s = { modifyPeer s p fun q =>
        q.call (s.candidates.map .addIceCandidate) with candidates := [] })
      ∨ ((s.candidates = [] ∨ s.peer = none) ∧ handleCandidates s = s) := by
  unfold handleCandidates
  cases hc : s.candidates with
  | nil => exact Or.inr ⟨Or.inl rfl, rfl⟩
  | cons c cs =>
      cases hp : s.peer with
      | none => exact Or.inr ⟨Or.inr rfl, rfl⟩
      | some p => exact Or.inl ⟨p, rfl, rfl⟩

theorem callPeer_cases (s : State) (op : Op) :
    (∃ p, s.peer = some p ∧ callPeer s op = modifyPeer s p fun q => q.call [op])
      ∨ (s.peer = none ∧ callPeer s op = { s with typeErrors := s.typeErrors + 1 }) := by
  unfold callPeer
  cases hp : s.peer with
  | none => exact Or.inr ⟨rfl, rfl⟩
  | some p => exact Or.inl ⟨p, rfl, rfl⟩

theorem wsSend_eq_some {s s' : State} {msg : Signal} (h : wsSend s msg = some s') :
    s' = s ∨ ∃ k, s.ws = some k ∧ (s.sockets k).readyState = .opened
      ∧ s' = modifySocket s k fun k => k.send msg := by
  unfold wsSend at h
  split at h
  · rename_i k hk
    split at h
    · cases h
    · rename_i ho
      exact Or.inr ⟨k, hk, ho, (Option.some.inj h).symm⟩
    · exact Or.inl (Option.some.inj h).symm
    · exact Or.inl (Option.some.inj h).symm
  · exact Or.inl (Option.some.inj h).symm

theorem wsSend_of_opened {s : State} {k : Nat} (msg : Signal) (hws : s.ws = some k)
    (hopen : (s.sockets k).readyState = .opened) :
    wsSend s msg = some (modifySocket s k fun k => k.send msg) := by
  simp only [wsSend, hws, hopen]

@[simp] theorem erase_handleDescription (s : State) :
    erase (handleDescription s) = erase s := by
  rcases handleDescription_cases s with ⟨o, p, -, -, heq⟩ | ⟨-, heq⟩ <;> rw [heq]
  show erase (modifyPeer s p fun q => q.call [.setRemoteDescription o]) = erase s
  exact erase_modifyPeer rfl

@[simp] theorem erase_handleCandidates (s : State) :
    erase (handleCandidates s) = erase s := by
  rcases handleCandidates_cases s with ⟨p, -, heq⟩ | ⟨-, heq⟩ <;> rw [heq]
  show erase (modifyPeer s p fun q => q.call (s.candidates.map .addIceCandidate))
    = erase s
  exact erase_modifyPeer rfl

@[simp] theorem erase_callPeer (s : State) (op : Op) :
    erase (callPeer s op) = erase s := by
  rcases callPeer_cases s op with ⟨p, -, heq⟩ | ⟨-, heq⟩ <;> rw [heq]
  · exact erase_modifyPeer rfl
  · rfl

theorem erase_wsSend {s s' : State} {msg : Signal} (h : wsSend s msg = some s') :
    erase s' = erase s := by
  rcases wsSend_eq_some h with rfl | ⟨k, -, -, rfl⟩
  · rfl
  · exact erase_modifySocket rfl

/-- `onopen` of the socket, up to the negotiation it starts. -/
theorem erase_onOpen (s : State) :
    erase (onOpen s) = erase { startKeepalive { s with reconnectDelay := 1000 } with
      peers := Function.update s.peers s.nextPeer (.fresh s.ws)
      peer := some s.nextPeer
      nextPeer := s.nextPeer + 1 } := erase_handleDescription _

theorem timeouts_onOpen (s : State) : (onOpen s).timeouts = s.timeouts := by
  show (erase (onOpen s)).timeouts = s.timeouts
  rw [erase_onOpen]
  rfl

theorem sockets_onOpen (s : State) (k : Nat) :
    ((onOpen s).sockets k).erase = (s.sockets k).erase := by
  show (erase (onOpen s)).sockets k = _
  rw [erase_onOpen]
  rfl

theorem erase_afterSetLocal (s : State) (a : Answer) :
    erase (afterSetLocal s a) = erase s := by
  unfold afterSetLocal
  split
  · rename_i s' h
    rw [erase_handleCandidates, ← erase_wsSend h]
    rfl
  · rfl

/-! ## One operation of a peer -/

/-- What the peer records when its oldest operation finishes. -/
inductive Settles (s : State) (p : Nat) : Bool → State → Prop where
  | setRemote {o : Offer} {ops : List Op}
      (hops : (s.peers p).ops = .setRemoteDescription o :: ops) :
      Settles s p true (afterSetRemote (modifyPeer s p fun q =>
        { q with ops := ops, remote := some o, haveRemoteOffer := true }))
  | createAnswer {o : Offer} {ops : List Op}
      (hops : (s.peers p).ops = .createAnswer :: ops)
      (hremote : (s.peers p).remote = some o) :
      Settles s p true (afterCreateAnswer (modifyPeer s p fun q =>
        { q with ops := ops, lastAnswer := some ⟨p, o⟩ }) ⟨p, o⟩)
  | setLocal {a : Answer} {ops : List Op}
      (hops : (s.peers p).ops = .setLocalDescription a :: ops)
      (hlast : (s.peers p).lastAnswer = some a) :
      Settles s p true (afterSetLocal (modifyPeer s p fun q =>
        { q with ops := ops, haveRemoteOffer := false, localSet := true }) a)
  | added {c : RemoteCandidate} {ops : List Op}
      (hops : (s.peers p).ops = .addIceCandidate c :: ops)
      (hremote : (s.peers p).remote.isSome = true) :
      Settles s p true (modifyPeer s p fun q =>
        { q with ops := ops, added := q.added ++ [c] })
  | pushedBack {c : RemoteCandidate} {ops : List Op}
      (hops : (s.peers p).ops = .addIceCandidate c :: ops)
      (hremote : (s.peers p).remote = none) :
      Settles s p false { modifyPeer s p fun q => { q with ops := ops } with
        candidates := s.candidates ++ [c] }
  | rejected {op : Op} {ops : List Op} (hops : (s.peers p).ops = op :: ops)
      (hop : ∀ c, op ≠ .addIceCandidate c) :
      Settles s p false (modifyPeer s p fun q => { q with ops := ops })

theorem complete_eq_some {s s' : State} {p : Nat} {ok : Bool}
    (h : complete s p ok = some s') :
    (s.peers p).connectionState ≠ .closed ∧ Settles s p ok s' := by
  simp only [complete] at h
  split at h
  · cases h
  · rename_i hc
    refine ⟨hc, ?_⟩
    split at h
    · rename_i o ops hops
      obtain rfl := Option.some.inj h
      exact .setRemote hops
    · rename_i ops hops
      split at h
      · rename_i o hremote _
        obtain rfl := Option.some.inj h
        exact .createAnswer hops hremote
      · cases h
    · rename_i a ops hops
      rw [Option.ite_none_right_eq_some] at h
      obtain rfl := Option.some.inj h.2
      exact .setLocal hops h.1.2
    · rename_i c ops hops
      rw [Option.ite_none_right_eq_some] at h
      obtain rfl := Option.some.inj h.2
      exact .added hops h.1
    · rename_i c ops hops
      rw [Option.ite_none_left_eq_some] at h
      obtain rfl := Option.some.inj h.2
      exact .pushedBack hops (by simpa using h.1)
    · rename_i op ops hne hops
      obtain rfl := Option.some.inj h
      exact .rejected hops fun c hc => hne c hc
    · cases h

theorem Settles.erase_eq {s s' : State} {p : Nat} {ok : Bool}
    (h : Settles s p ok s') : erase s' = erase s := by
  cases h with
  | setRemote hops =>
      rename_i o ops
      unfold afterSetRemote
      rw [erase_callPeer]
      show erase (modifyPeer s p fun q =>
        { q with ops := ops, remote := some o, haveRemoteOffer := true }) = erase s
      exact erase_modifyPeer rfl
  | createAnswer hops hremote =>
      unfold afterCreateAnswer
      rw [erase_callPeer]
      exact erase_modifyPeer rfl
  | setLocal hops hlast =>
      rw [erase_afterSetLocal]
      exact erase_modifyPeer rfl
  | added hops hremote => exact erase_modifyPeer rfl
  | pushedBack hops hremote =>
      rename_i c ops
      show erase (modifyPeer s p fun q => { q with ops := ops }) = erase s
      exact erase_modifyPeer rfl
  | rejected hops hop => exact erase_modifyPeer rfl

/-! ## Negotiation events -/

def negotiates : Event → Bool
  | .keepalive _ | .offer .. | .candidate .. | .complete .. | .iceCandidate .. => true
  | _ => false

theorem erase_step {s s' : State} {e : Event} (he : negotiates e = true)
    (h : step s e = some s') : erase s' = erase s := by
  cases e with
  | keepalive id =>
      simp only [step, Option.ite_none_right_eq_some] at h
      obtain ⟨-, h⟩ := h
      split at h
      · split at h <;> obtain rfl := Option.some.inj h
        · exact erase_modifySocket rfl
        · rfl
      · obtain rfl := Option.some.inj h
        rfl
  | offer k id =>
      simp only [step, Option.ite_none_right_eq_some] at h
      obtain rfl := Option.some.inj h.2
      unfold onOffer
      rw [erase_handleDescription]
      rfl
  | candidate k id =>
      simp only [step, Option.ite_none_right_eq_some] at h
      obtain rfl := Option.some.inj h.2
      have hs : erase (modifySocket s k fun j =>
          { j with received := j.received ++ [⟨k, id⟩] }) = erase s :=
        erase_modifySocket rfl
      unfold onCandidate
      dsimp only
      split
      · rw [erase_handleCandidates]
        exact hs
      · exact hs
  | complete p ok => exact (complete_eq_some h).2.erase_eq
  | iceCandidate p id =>
      simp only [step, Option.ite_none_right_eq_some] at h
      obtain ⟨-, h⟩ := h
      split at h <;> obtain rfl := Option.some.inj h
      · rename_i id
        cases hs : wsSend s (.candidate ⟨p, id⟩) with
        | none => rfl
        | some s' => exact erase_wsSend hs
      · rfl
  | _ => cases he

end Transport

end XashProxy
