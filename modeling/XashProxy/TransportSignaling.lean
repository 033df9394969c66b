import XashProxy.TransportNegotiation

/-!
# Signaling across generations

After each `await` the negotiation reads `this.peer` and `this.ws` anew, and
a reconnect can replace both in between. `signaling_unmixed_iff` says what
keeps the generations apart. If a session starts without an offer or a
candidate left over from an older one, and no older peer pushes one back,
then answers, candidates and offers stay within their session in every state
of a run, exactly when each continuation finds a peer, and answers and
candidates are sent only while the open socket is that of their peer.
-/

namespace XashProxy

namespace Transport

open Lts

/-- Nothing of one session is used in another. -/
structure Unmixed (s : State) : Prop where
  answers : ∀ k a, .answer a ∈ (s.sockets k).outbox →
    (s.peers a.peer).socket = some k ∧ a.offer.socket = k
  gathered : ∀ k c, .candidate c ∈ (s.sockets k).outbox →
    (s.peers c.peer).socket = some k
  added : ∀ p, ∀ c ∈ (s.peers p).added, (s.peers p).socket = some c.socket
  lost : s.lost = []
  typeErrors : s.typeErrors = 0

/-- The signaling socket, if it is open, is the one peer `p` was started for. -/
def OwnSocket (s : State) (p : Nat) : Prop :=
  ∀ k ∈ s.ws, (s.sockets k).readyState = .opened → (s.peers p).socket = some k

/-- The peer whose `addIceCandidate` rejects. -/
def rejecter (s : State) : Event → Option Nat
  | .complete p false =>
      match (s.peers p).ops with
      | .addIceCandidate _ :: _ => some p
      | _ => none
  | _ => none

/-- No offer or candidate is left from an older session when a peer is
started, and only the current peer pushes candidates back. -/
def NoLeftovers (s : State) (e : Event) : Prop :=
  (∀ k ∈ openedSocket e, s.remoteDescription = none ∧ s.candidates = [])
    ∧ ∀ p ∈ rejecter s e, s.peer = none ∨ s.peer = some p

/-- The continuation calls a method of `this.peer!`. -/
def callsPeer (s : State) : Event → Bool
  | .complete p true =>
      match (s.peers p).ops with
      | .setRemoteDescription _ :: _ | .createAnswer :: _ => true
      | _ => false
  | _ => false

/-- The peer whose answer or candidate is sent on `this.ws`. -/
def sender (s : State) : Event → Option Nat
  | .complete p true =>
      match (s.peers p).ops with
      | .setLocalDescription _ :: _ => some p
      | _ => none
  | e => gatherer e

/-- What the continuation or the handler reads anew is what it needs. -/
def ReadsOwn (s : State) (e : Event) : Prop :=
  (callsPeer s e = true → s.peer ≠ none) ∧ ∀ p ∈ sender s e, OwnSocket s p

instance (s : State) (p : Nat) : Decidable (OwnSocket s p) :=
  inferInstanceAs (Decidable (∀ k ∈ s.ws,
    (s.sockets k).readyState = .opened → (s.peers p).socket = some k))

instance (s : State) (e : Event) : Decidable (NoLeftovers s e) :=
  inferInstanceAs (Decidable (
    (∀ k ∈ openedSocket e, s.remoteDescription = none ∧ s.candidates = [])
      ∧ ∀ p ∈ rejecter s e, s.peer = none ∨ s.peer = some p))

instance (s : State) (e : Event) : Decidable (ReadsOwn s e) :=
  inferInstanceAs (Decidable (
    (callsPeer s e = true → s.peer ≠ none) ∧ ∀ p ∈ sender s e, OwnSocket s p))

/-! ## What belongs to whom -/

/-- The argument of the operation arrived on this socket. -/
def Op.Owned (socket : Option Nat) : Op → Prop
  | .setRemoteDescription o => socket = some o.socket
  | .addIceCandidate c => socket = some c.socket
  | .createAnswer | .setLocalDescription _ => True

structure Peer.Owned (p : Nat) (q : Peer) : Prop where
  ops : ∀ op ∈ q.ops, op.Owned q.socket
  remote : ∀ o, q.remote = some o → q.socket = some o.socket
  lastAnswer : ∀ a, q.lastAnswer = some a →
    a.peer = p ∧ q.socket = some a.offer.socket
  added : ∀ c ∈ q.added, q.socket = some c.socket

/-- The message may be sent on socket `k`. -/
def Signal.Owned (peers : Nat → Peer) (k : Nat) : Signal → Prop
  | .answer a => (peers a.peer).socket = some k ∧ a.offer.socket = k
  | .candidate c => (peers c.peer).socket = some k
  | .ping => True

structure Sound (s : State) : Prop where
  unborn : ∀ p, s.nextPeer ≤ p → (s.peers p).socket = none
  peers : ∀ p, (s.peers p).Owned p
  outbox : ∀ k, ∀ msg ∈ (s.sockets k).outbox, msg.Owned s.peers k
  /-- The stored offer is the current peer's, and has been handed to it. -/
  description : ∀ o p, s.remoteDescription = some o → s.peer = some p →
    (s.peers p).socket = some o.socket ∧ o ∈ s.applied
  candidates : ∀ c ∈ s.candidates, ∀ p, s.peer = some p →
    (s.peers p).socket = some c.socket
  lost : s.lost = []
  typeErrors : s.typeErrors = 0

theorem Sound.unmixed {s : State} (h : Sound s) : Unmixed s where
  answers k _ hmem := h.outbox k _ hmem
  gathered k _ hmem := h.outbox k _ hmem
  added p := (h.peers p).added
  lost := h.lost
  typeErrors := h.typeErrors

theorem sound_init (onReconnected : Bool) {maxPackets : Nat} (pos : 0 < maxPackets) :
    Sound (init onReconnected maxPackets pos) where
  unborn _ _ := rfl
  peers _ := ⟨nofun, nofun, nofun, nofun⟩
  outbox := nofun
  description := nofun
  candidates := nofun
  lost := rfl
  typeErrors := rfl

theorem sound_negotiation {s : State} : Sound (negotiation s) ↔ Sound s := by
  constructor
  · intro h
    exact ⟨h.unborn,
      fun p => ⟨(h.peers p).ops, (h.peers p).remote, (h.peers p).lastAnswer,
        (h.peers p).added⟩,
      h.outbox, h.description, h.candidates, h.lost, h.typeErrors⟩
  · intro h
    exact ⟨h.unborn,
      fun p => ⟨(h.peers p).ops, (h.peers p).remote, (h.peers p).lastAnswer,
        (h.peers p).added⟩,
      h.outbox, h.description, h.candidates, h.lost, h.typeErrors⟩

theorem Sound.of_negotiation {s s' : State} (h : Sound s)
    (heq : negotiation s' = negotiation s) : Sound s' := by
  rw [← sound_negotiation, heq, sound_negotiation]
  exact h

theorem Signal.Owned.of_socket {peers peers' : Nat → Peer} {k : Nat} {msg : Signal}
    (h : msg.Owned peers k)
    (heq : ∀ p, (peers p).socket = some k → (peers' p).socket = some k) :
    msg.Owned peers' k := by
  cases msg with
  | answer a => exact ⟨heq a.peer h.1, h.2⟩
  | candidate c => exact heq c.peer h
  | ping => trivial

theorem sound_modifyPeer {s : State} (h : Sound s) {p : Nat} {f : Peer → Peer}
    (hsock : (f (s.peers p)).socket = (s.peers p).socket)
    (hp : (f (s.peers p)).Owned p) : Sound (modifyPeer s p f) := by
  have hall := socket_modifyPeer hsock
  refine ⟨?_, ?_, ?_, ?_, ?_, h.lost, h.typeErrors⟩
  · intro j hj
    rw [hall]
    exact h.unborn j hj
  · intro j
    rw [peers_modifyPeer]
    split
    · rename_i heq
      subst heq
      exact hp
    · exact h.peers j
  · intro k msg hmem
    refine (h.outbox k msg hmem).of_socket fun j hj => ?_
    rw [hall]
    exact hj
  · intro o j ho hj
    rw [hall]
    exact h.description o j ho hj
  · intro c hc j hj
    rw [hall]
    exact h.candidates c hc j hj

/-- Changes of a socket that send only what belongs there. -/
theorem sound_modifySocket {s : State} (h : Sound s) {k : Nat} {f : Socket → Socket}
    (hout : ∀ msg ∈ (f (s.sockets k)).outbox, msg.Owned s.peers k) :
    Sound (modifySocket s k f) := by
  refine ⟨h.unborn, h.peers, ?_, h.description, h.candidates, h.lost, h.typeErrors⟩
  intro j msg hmem
  rw [sockets_modifySocket] at hmem
  split at hmem
  · rename_i heq
    subst heq
    exact hout msg hmem
  · exact h.outbox j msg hmem

theorem sound_send {s : State} (h : Sound s) {k : Nat} {msg : Signal}
    (hmsg : msg.Owned s.peers k) : Sound (modifySocket s k fun j => j.send msg) := by
  refine sound_modifySocket h fun m hm => ?_
  rcases List.mem_append.mp hm with hm | hm
  · exact h.outbox k m hm
  · obtain rfl := List.mem_singleton.mp hm
    exact hmsg

theorem sound_call {s : State} (h : Sound s) {p : Nat} {ops : List Op}
    (hops : ∀ op ∈ ops, op.Owned (s.peers p).socket) :
    Sound (modifyPeer s p fun q => q.call ops) := by
  have hp := h.peers p
  refine sound_modifyPeer h rfl ⟨fun op hop => ?_, hp.remote, hp.lastAnswer, hp.added⟩
  rcases List.mem_append.mp hop with hop | hop
  · exact hp.ops op hop
  · exact hops op hop

/-! ## Reconnects -/

theorem sound_connectWs {s : State} (h : Sound s) : Sound (connectWs s) := by
  refine ⟨h.unborn, h.peers, ?_, h.description, h.candidates, h.lost, h.typeErrors⟩
  intro k msg hmem
  rw [sockets_connectWs, supersede_apply] at hmem
  split at hmem
  · cases hmem
  · split at hmem <;> exact h.outbox k msg hmem

/-- An offer that was handed to a peer is not lost. -/
theorem lost_resetDescription {s : State}
    (h : ∀ o, s.remoteDescription = some o → o ∈ s.applied) :
    (resetDescription s).lost = s.lost := by
  unfold resetDescription
  cases hr : s.remoteDescription with
  | none => rfl
  | some o => exact if_pos (h o hr)

theorem sound_dropPeer {s : State} {p : Nat} (h : Sound s) (hp : s.peer = some p) :
    Sound (dropPeer s) := by
  refine ⟨h.unborn, h.peers, h.outbox, nofun, nofun, ?_, h.typeErrors⟩
  have hlost : (resetDescription { s with peer := none }).lost = s.lost :=
    lost_resetDescription fun o ho => (h.description o p ho hp).2
  exact hlost.trans h.lost

/-- A peer that is started without leftovers has nothing to do. -/
theorem sound_startConnection {s : State} (h : Sound s)
    (hr : s.remoteDescription = none) (hc : s.candidates = []) :
    Sound (startConnection s) := by
  unfold startConnection handleDescription
  simp only [hr]
  refine ⟨?_, ?_, ?_, ?_, ?_, h.lost, h.typeErrors⟩
  · intro p hp
    dsimp only at hp ⊢
    rw [Function.update_of_ne (by omega)]
    exact h.unborn p (by omega)
  · intro p
    dsimp only
    rw [Function.update_apply]
    split
    · exact ⟨nofun, nofun, nofun, nofun⟩
    · exact h.peers p
  · intro k msg hmem
    refine (h.outbox k msg hmem).of_socket fun p hp => ?_
    have hne : p ≠ s.nextPeer := by
      rintro rfl
      rw [h.unborn _ (Nat.le_refl _)] at hp
      cases hp
    dsimp only
    rw [Function.update_of_ne hne]
    exact hp
  · intro o p ho
    cases ho
  · intro c hmem
    rw [hc] at hmem
    cases hmem

/-! ## Negotiation -/

/-- An offer on the open socket is the current peer's. -/
theorem sound_onOffer {s : State} {o : Offer} (h : Sound s)
    (ho : ∀ p, s.peer = some p → (s.peers p).socket = some o.socket) :
    Sound (onOffer s o) := by
  rcases handleDescription_cases { s with remoteDescription := some o } with
    ⟨o', p, ho', hp, heq⟩ | ⟨hnone, heq⟩
  · obtain rfl := Option.some.inj ho'
    have hcall : Sound (modifyPeer s p fun q => q.call [.setRemoteDescription o]) := by
      refine sound_call h fun op hop => ?_
      obtain rfl := List.mem_singleton.mp hop
      exact ho p hp
    have hsock : ((modifyPeer s p fun q =>
        q.call [.setRemoteDescription o]).peers p).socket = some o.socket :=
      (socket_modifyPeer (f := fun q => q.call [.setRemoteDescription o]) rfl p).trans
        (ho p hp)
    unfold onOffer
    rw [heq]
    refine ⟨hcall.unborn, hcall.peers, hcall.outbox, ?_, hcall.candidates, hcall.lost,
      hcall.typeErrors⟩
    intro o' p' ho' hp'
    obtain rfl := Option.some.inj ho'
    obtain rfl := Option.some.inj (hp.symm.trans hp')
    exact ⟨hsock, List.mem_append_right _ (List.mem_singleton_self _)⟩
  · have hpeer : s.peer = none := hnone.resolve_left nofun
    unfold onOffer
    rw [heq]
    refine ⟨h.unborn, h.peers, h.outbox, ?_, h.candidates, h.lost, h.typeErrors⟩
    intro o' p _ hp
    exact absurd (hpeer.symm.trans hp) nofun

theorem sound_handleCandidates {s : State} (h : Sound s) : Sound (handleCandidates s) := by
  rcases handleCandidates_cases s with ⟨p, hp, heq⟩ | ⟨-, heq⟩ <;> rw [heq]
  · have hcall : Sound (modifyPeer s p fun q =>
        q.call (s.candidates.map .addIceCandidate)) := by
      refine sound_call h fun op hop => ?_
      obtain ⟨c, hc, rfl⟩ := List.mem_map.mp hop
      exact h.candidates c hc p hp
    exact ⟨hcall.unborn, hcall.peers, hcall.outbox, hcall.description, nofun, hcall.lost,
      hcall.typeErrors⟩
  · exact h

/-- A candidate is buffered for the peer of its own session. -/
theorem sound_buffer {s : State} {c : RemoteCandidate} (h : Sound s)
    (hc : ∀ p, s.peer = some p → (s.peers p).socket = some c.socket) :
    Sound { s with candidates := s.candidates ++ [c] } := by
  refine ⟨h.unborn, h.peers, h.outbox, h.description, ?_, h.lost, h.typeErrors⟩
  intro d hd
  rcases List.mem_append.mp hd with hd | hd
  · exact h.candidates d hd
  · obtain rfl := List.mem_singleton.mp hd
    exact hc

theorem sound_onCandidate {s : State} {c : RemoteCandidate} (h : Sound s)
    (hc : ∀ p, s.peer = some p → (s.peers p).socket = some c.socket) :
    Sound (onCandidate s c) := by
  unfold onCandidate
  dsimp only
  split
  · exact sound_handleCandidates (sound_buffer h hc)
  · exact sound_buffer h hc

theorem sound_callPeer {s : State} {op : Op} (h : Sound s) (hp : s.peer ≠ none)
    (hop : ∀ p, s.peer = some p → op.Owned (s.peers p).socket) :
    Sound (callPeer s op) := by
  rcases callPeer_cases s op with ⟨p, hp, heq⟩ | ⟨hnone, -⟩
  · rw [heq]
    refine sound_call h fun op' hop' => ?_
    obtain rfl := List.mem_singleton.mp hop'
    exact hop p hp
  · exact absurd hnone hp

theorem sound_afterSetRemote {s : State} (h : Sound s) (hp : s.peer ≠ none) :
    Sound (afterSetRemote s) := by
  obtain ⟨p, hpeer⟩ := Option.ne_none_iff_exists'.mp hp
  have hlost := lost_resetDescription fun o ho => (h.description o p ho hpeer).2
  refine sound_callPeer ?_ hp fun _ _ => trivial
  exact ⟨h.unborn, h.peers, h.outbox, nofun, h.candidates, hlost.trans h.lost,
    h.typeErrors⟩

theorem sound_afterSetLocal {s : State} {a : Answer} (h : Sound s)
    (ha : ∀ k, s.ws = some k → (s.sockets k).readyState = .opened →
      (Signal.answer a).Owned s.peers k) : Sound (afterSetLocal s a) := by
  unfold afterSetLocal
  split
  · rename_i s' hs
    have hsent : Sound s' := by
      rcases wsSend_eq_some hs with rfl | ⟨k, hws, hopen, rfl⟩
      · exact h
      · exact sound_send h (ha k hws hopen)
    exact sound_handleCandidates ⟨hsent.unborn, hsent.peers, hsent.outbox,
      hsent.description, hsent.candidates, hsent.lost, hsent.typeErrors⟩
  · exact h

/-- What is left of a peer whose oldest operation has finished. -/
theorem Peer.Owned.pop {p : Nat} {q : Peer} {op : Op} {ops : List Op} (h : q.Owned p)
    (hops : q.ops = op :: ops) :
    op.Owned q.socket ∧ ∀ op ∈ ops, op.Owned q.socket := by
  have hall := h.ops
  rw [hops] at hall
  exact ⟨hall op (List.mem_cons_self ..), fun op' h' => hall op' (List.mem_cons_of_mem _ h')⟩

theorem sound_settled {s s' : State} {p : Nat} {ok : Bool} (h : Sound s)
    (hs : Settles s p ok s') (hH : NoLeftovers s (.complete p ok))
    (hG : ReadsOwn s (.complete p ok)) : Sound s' := by
  have hp := h.peers p
  cases hs with
  | setRemote hops =>
      rename_i o ops
      have hpeer : s.peer ≠ none := hG.1 (by simp only [callsPeer, hops])
      obtain ⟨ho, hrest⟩ := hp.pop hops
      have hm : Sound (modifyPeer s p fun q =>
          { q with ops := ops, remote := some o, haveRemoteOffer := true }) := by
        refine sound_modifyPeer h rfl ⟨hrest, fun o' ho' => ?_, hp.lastAnswer, hp.added⟩
        obtain rfl := Option.some.inj ho'
        exact ho
      exact sound_afterSetRemote hm hpeer
  | createAnswer hops hremote =>
      rename_i o ops
      have hpeer : s.peer ≠ none := hG.1 (by simp only [callsPeer, hops])
      obtain ⟨-, hrest⟩ := hp.pop hops
      have hm : Sound (modifyPeer s p fun q =>
          { q with ops := ops, lastAnswer := some ⟨p, o⟩ }) := by
        refine sound_modifyPeer h rfl ⟨hrest, hp.remote, fun a ha => ?_, hp.added⟩
        obtain rfl := Option.some.inj ha
        exact ⟨rfl, hp.remote o hremote⟩
      exact sound_callPeer hm hpeer fun _ _ => trivial
  | setLocal hops hlast =>
      rename_i a ops
      have hsocket : OwnSocket s p := hG.2 p (by simp only [sender, hops, Option.mem_def])
      obtain ⟨-, hrest⟩ := hp.pop hops
      obtain ⟨hpeer, hoffer⟩ := hp.lastAnswer a hlast
      have hm : Sound (modifyPeer s p fun q =>
          { q with ops := ops, haveRemoteOffer := false, localSet := true }) :=
        sound_modifyPeer h rfl ⟨hrest, hp.remote, hp.lastAnswer, hp.added⟩
      refine sound_afterSetLocal hm fun k hws hopen => ?_
      -- the answer is the peer's own, and the open socket is the peer's
      have hown : (s.peers p).socket = some k := hsocket k hws hopen
      refine ⟨?_, Option.some.inj (hoffer.symm.trans hown)⟩
      rw [hpeer]
      exact (socket_modifyPeer (f := fun q =>
        { q with ops := ops, haveRemoteOffer := false, localSet := true }) rfl p).trans hown
  | added hops hremote =>
      obtain ⟨hc, hrest⟩ := hp.pop hops
      refine sound_modifyPeer h rfl ⟨hrest, hp.remote, hp.lastAnswer, fun d hd => ?_⟩
      rcases List.mem_append.mp hd with hd | hd
      · exact hp.added d hd
      · obtain rfl := List.mem_singleton.mp hd
        exact hc
  | pushedBack hops hremote =>
      rename_i c ops
      have hpushes : s.peer = none ∨ s.peer = some p :=
        hH.2 p (by simp only [rejecter, hops, Option.mem_def])
      obtain ⟨hc, hrest⟩ := hp.pop hops
      have hm : Sound (modifyPeer s p fun q => { q with ops := ops }) :=
        sound_modifyPeer h rfl ⟨hrest, hp.remote, hp.lastAnswer, hp.added⟩
      refine sound_buffer hm fun q hq => ?_
      rcases hpushes with hnone | hpeer
      · exact absurd (hnone.symm.trans hq) nofun
      · obtain rfl := Option.some.inj (hpeer.symm.trans hq)
        exact (socket_modifyPeer (f := fun q => { q with ops := ops }) rfl p).trans hc
  | rejected hops hop =>
      obtain ⟨-, hrest⟩ := hp.pop hops
      exact sound_modifyPeer h rfl ⟨hrest, hp.remote, hp.lastAnswer, hp.added⟩

theorem sound_step {s s' : State} {e : Event} (hwf : Wf s) (h : Sound s)
    (hH : NoLeftovers s e) (hG : ReadsOwn s e) (hstep : step s e = some s') :
    Sound s' := by
  cases moves_of_step hwf.toCore hstep with
  | same heq => exact h.of_negotiation heq
  | renewed heq => exact (sound_connectWs h).of_negotiation heq
  | closed heq =>
      rename_i k
      refine Sound.of_negotiation ?_ heq
      exact sound_modifySocket h (h.outbox k)
  | opened hws hconn heq =>
      rename_i k
      have hm : Sound (modifySocket s k fun j => { j with readyState := .opened }) :=
        sound_modifySocket h (h.outbox k)
      obtain ⟨hr, hc⟩ := hH.1 k rfl
      exact (sound_startConnection hm hr hc).of_negotiation heq
  | dropped hp heq => exact (sound_dropPeer h hp).of_negotiation heq
  | pinged hopen => exact sound_send h trivial
  | offered hws hopen => exact sound_onOffer h fun p hp => hwf.generation p _ hp hws hopen
  | received hws hopen =>
      rename_i k id
      have hm : Sound (modifySocket s k fun j =>
          { j with received := j.received ++ [⟨k, id⟩] }) :=
        sound_modifySocket h (h.outbox k)
      exact sound_onCandidate hm fun p hp => hwf.generation p _ hp hws hopen
  | settled hs => exact sound_settled h hs hH hG
  | gathered hlocal hws hopen => exact sound_send h (hG.2 _ rfl _ hws hopen)

/-! ## The steps that mix -/

theorem sockets_handleCandidates (s : State) :
    (handleCandidates s).sockets = s.sockets := by
  rcases handleCandidates_cases s with ⟨p, -, heq⟩ | ⟨-, heq⟩ <;> rw [heq]
  rfl

/-- The answer is on its way, whosever socket is open. -/
theorem answer_mem_outbox {s : State} {k : Nat} (a : Answer) (hws : s.ws = some k)
    (hopen : (s.sockets k).readyState = .opened) :
    Signal.answer a ∈ ((afterSetLocal s a).sockets k).outbox := by
  simp only [afterSetLocal, wsSend_of_opened _ hws hopen, sockets_handleCandidates]
  show Signal.answer a ∈ ((modifySocket s k fun k => k.send (.answer a)).sockets k).outbox
  rw [sockets_modifySocket, if_pos rfl]
  exact List.mem_append_right _ (List.mem_singleton_self _)

theorem typeErrors_callPeer {s : State} (hp : s.peer = none) (op : Op) :
    (callPeer s op).typeErrors = s.typeErrors + 1 := by
  simp only [callPeer, hp]

/-- A continuation that finds no peer raises a `TypeError`. -/
theorem not_unmixed_of_callsPeer {s s' : State} {e : Event}
    (hcalls : callsPeer s e = true) (hpeer : s.peer = none)
    (hstep : step s e = some s') : ¬ Unmixed s' := by
  intro hU
  have htype := hU.typeErrors
  cases e with
  | complete p ok =>
      cases (complete_eq_some hstep).2 with
      | setRemote hops =>
          unfold afterSetRemote at htype
          rw [typeErrors_callPeer] at htype
          · exact absurd htype (Nat.succ_ne_zero _)
          · exact hpeer
      | createAnswer hops hremote =>
          unfold afterCreateAnswer at htype
          rw [typeErrors_callPeer] at htype
          · exact absurd htype (Nat.succ_ne_zero _)
          · exact hpeer
      | setLocal hops hlast => simp [callsPeer, hops] at hcalls
      | added hops hremote => simp [callsPeer, hops] at hcalls
      | pushedBack hops hremote => cases hcalls
      | rejected hops hop => cases hcalls
  | _ => cases hcalls

/-- What is sent on another peer's socket is in its outbox. -/
theorem not_unmixed_of_sender {s s' : State} {e : Event} {p : Nat} (h : Sound s)
    (hsender : sender s e = some p) (hown : ¬ OwnSocket s p)
    (hstep : step s e = some s') : ¬ Unmixed s' := by
  unfold OwnSocket at hown
  push Not at hown
  obtain ⟨k, hws, hopen, hne⟩ := hown
  intro hU
  cases e with
  | complete q ok =>
      have hs := (complete_eq_some hstep).2
      have hsock : (s'.peers p).socket = (s.peers p).socket := by
        show ((erase s').peers p).socket = ((erase s).peers p).socket
        rw [hs.erase_eq]
      cases hs with
      | setLocal hops hlast =>
          rename_i a ops
          obtain rfl : q = p := by simpa [sender, hops] using hsender
          have hmem := answer_mem_outbox (s := modifyPeer s q fun r =>
            { r with ops := ops, haveRemoteOffer := false, localSet := true }) a hws hopen
          obtain ⟨hown, -⟩ := hU.answers k a hmem
          rw [((h.peers q).lastAnswer a hlast).1, hsock] at hown
          exact hne hown
      | setRemote hops => simp [sender, hops] at hsender
      | createAnswer hops hremote => simp [sender, hops] at hsender
      | added hops hremote => simp [sender, hops] at hsender
      | pushedBack hops hremote => cases hsender
      | rejected hops hop => cases hsender
  | iceCandidate q id =>
      cases id with
      | none => cases hsender
      | some id =>
          obtain rfl := Option.some.inj hsender
          simp only [step, Option.ite_none_right_eq_some] at hstep
          obtain rfl := Option.some.inj hstep.2
          rw [wsSend_of_opened _ hws hopen] at hU
          refine hne (hU.gathered k ⟨q, id⟩ ?_)
          show Signal.candidate ⟨q, id⟩ ∈
            ((modifySocket s k fun j => j.send (.candidate ⟨q, id⟩)).sockets k).outbox
          rw [sockets_modifySocket, if_pos rfl]
          exact List.mem_append_right _ (List.mem_singleton_self _)
  | _ => cases hsender

theorem not_unmixed_of_step {s s' : State} {e : Event} (h : Sound s)
    (hG : ¬ ReadsOwn s e) (hstep : step s e = some s') : ¬ Unmixed s' := by
  rcases not_and_or.mp hG with hcalls | hsends
  · push Not at hcalls
    exact not_unmixed_of_callsPeer hcalls.1 hcalls.2 hstep
  · push Not at hsends
    obtain ⟨p, hsender, hown⟩ := hsends
    exact not_unmixed_of_sender h hsender hown hstep

/-! ## Whole runs -/

/-- In a run that starts no session on leftovers, the generations stay apart
in every state exactly when every step reads its own peer and socket. -/
theorem signaling_unmixed_iff (onReconnected : Bool) {maxPackets : Nat}
    (pos : 0 < maxPackets) (es : List Event)
    (hH : EachStep step NoLeftovers (init onReconnected maxPackets pos) es) :
    Always step Unmixed (init onReconnected maxPackets pos) es
      ↔ EachStep step ReadsOwn (init onReconnected maxPackets pos) es := by
  refine always_iff_of_eachStep (I := fun s => Wf s ∧ Sound s) (fun h => h.2.unmixed)
    ?_ ?_ hH ⟨wf_init onReconnected pos, sound_init onReconnected pos⟩
  · rintro s e s' ⟨hwf, h⟩ hH hG hstep
    exact ⟨wf_step hwf hstep, sound_step hwf h hH hG hstep⟩
  · rintro s e s' ⟨-, h⟩ - hG hstep
    exact not_unmixed_of_step h hG hstep

theorem signaling_unmixed_twice :
    Always step Unmixed (init true 16384 (by decide)) negotiatedTwice := by
  have hH : EachStep step NoLeftovers (init true 16384 (by decide)) negotiatedTwice := by
    decide
  refine (signaling_unmixed_iff true (by decide) negotiatedTwice hH).mpr ?_
  decide

/-- A reconnect while the first peer applies its offer: the next peer is
handed that offer, and its answer goes to the next socket. -/
theorem stale_offer_answered :
    ∃ s, run step (init true 16384 (by decide))
        [.connect, .socketOpen 0, .offer 0 0, .forceReconnect, .socketOpen 1,
          .complete 1 true, .complete 1 true, .complete 1 true] = some s
      ∧ ¬ Unmixed s := by
  refine ⟨_, rfl, fun hU => ?_⟩
  obtain ⟨-, hoffer⟩ := hU.answers 1 ⟨1, ⟨0, 0⟩⟩ (by decide)
  cases hoffer

end Transport

end XashProxy
