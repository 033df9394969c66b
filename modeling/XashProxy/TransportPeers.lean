import XashProxy.TransportActs

/-!
# Who closes a peer

A peer that has failed is closed and dropped by its handler. Every other
reconnect goes through `connectWs` and `startConnection`, which puts a new
peer in `this.peer` and forgets the old one. `noLeak_always_iff` says that
no peer is leaked in a run exactly when every socket of the run opens on a
client that has no peer.
-/

namespace XashProxy

namespace Transport

open Lts

/-- Every peer the client has created is closed, but for the current one. -/
def NoLeak (s : State) : Prop :=
  ∀ p, p < s.nextPeer → s.peer ≠ some p → (s.peers p).connectionState = .closed

/-- `this.peer` has not been closed. -/
def PeerOpen (s : State) : Prop :=
  ∀ p, s.peer = some p → (s.peers p).connectionState ≠ .closed

/-- The current socket opens only while there is no peer. -/
def OpensWithoutPeer (s : State) (e : Event) : Prop :=
  ∀ k ∈ openedSocket e, s.ws = some k → s.peer = none

instance (s : State) (e : Event) : Decidable (OpensWithoutPeer s e) :=
  inferInstanceAs (Decidable (∀ k ∈ openedSocket e, s.ws = some k → s.peer = none))

/-! ## Steps that start no peer -/

/-- No peer is created or closed, and none becomes current. -/
structure KeepsPeers (s s' : State) : Prop where
  nextPeer : s'.nextPeer = s.nextPeer
  peer : s'.peer = s.peer
  closed : ∀ p, (s'.peers p).connectionState = .closed ↔
    (s.peers p).connectionState = .closed

theorem NoLeak.keeps {s s' : State} (h : NoLeak s) (hk : KeepsPeers s s') :
    NoLeak s' := by
  intro p hlt hne
  rw [hk.nextPeer] at hlt
  rw [hk.peer] at hne
  exact (hk.closed p).mpr (h p hlt hne)

theorem PeerOpen.keeps {s s' : State} (h : PeerOpen s) (hk : KeepsPeers s s') :
    PeerOpen s' := by
  intro p hp hc
  rw [hk.peer] at hp
  exact h p hp ((hk.closed p).mp hc)

theorem keepsPeers_modifyPeer {s : State} {p : Nat} {f : Peer → Peer}
    (hf : (f (s.peers p)).connectionState = .closed ↔
      (s.peers p).connectionState = .closed) : KeepsPeers s (modifyPeer s p f) where
  nextPeer := rfl
  peer := rfl
  closed j := by
    rw [peers_modifyPeer]
    split
    · rename_i hj
      rw [hj]
      exact hf
    · exact Iff.rfl

theorem keepsPeers_of_erase {s s' : State} (h : erase s' = erase s) :
    KeepsPeers s s' where
  nextPeer := by
    show (erase s').nextPeer = (erase s).nextPeer
    rw [h]
  peer := by
    show (erase s').peer = (erase s).peer
    rw [h]
  closed p := by
    show ((erase s').peers p).connectionState = .closed
      ↔ ((erase s).peers p).connectionState = .closed
    rw [h]

/-- The browser reports a state only of a peer that is not closed. -/
theorem not_closed_of_connectionState {s s' : State} {p : Nat} {st : ConnectionState}
    (h : step s (.connectionState p st) = some s') :
    (s.peers p).connectionState ≠ .closed ∧ st ≠ .closed := by
  simp only [step, Option.ite_none_right_eq_some] at h
  exact h.1.2

theorem keepsPeers_connectionState {s : State} {p : Nat} {st : ConnectionState}
    (hlive : (s.peers p).connectionState ≠ .closed) (hst : st ≠ .closed) :
    KeepsPeers s (modifyPeer s p fun q => { q with connectionState := st }) :=
  keepsPeers_modifyPeer ⟨fun h => absurd h hst, fun h => absurd h hlive⟩

/-- The current peer is closed and dropped. -/
def DropsPeer (s s' : State) : Prop :=
  ∃ q u, s.peer = some q ∧ KeepsPeers s u ∧ s'.nextPeer = u.nextPeer ∧ s'.peer = none
    ∧ (s'.peers q).connectionState = .closed
    ∧ ∀ p, p ≠ q → (s'.peers p).connectionState = (u.peers p).connectionState

/-- A new peer becomes the current one, and the others stay as they are. -/
structure StartsPeer (s s' : State) : Prop where
  nextPeer : s'.nextPeer = s.nextPeer + 1
  peer : s'.peer = some s.nextPeer
  fresh : (s'.peers s.nextPeer).connectionState = .new
  others : ∀ p, p ≠ s.nextPeer →
    (s'.peers p).connectionState = (s.peers p).connectionState

theorem startsPeer_onOpen (s : State) : StartsPeer s (onOpen s) := by
  have heq := erase_onOpen s
  have hpeers : ∀ p, ((onOpen s).peers p).connectionState
      = (Function.update s.peers s.nextPeer (.fresh s.ws) p).connectionState :=
    fun p => congrArg (fun t => (t.peers p).connectionState) heq
  refine ⟨congrArg State.nextPeer heq, congrArg State.peer heq, ?_, ?_⟩
  · rw [hpeers, Function.update_self]
    rfl
  · intro p hne
    rw [hpeers, Function.update_of_ne hne]

/-- What every step does to the peers. -/
theorem step_peers {s s' : State} {e : Event} (hwf : Wf s)
    (h : step s e = some s') :
    KeepsPeers s s' ∨ DropsPeer s s'
      ∨ ∃ k, e = .socketOpen k ∧ s.ws = some k ∧ StartsPeer s s' := by
  have hsame : ∀ u : State, u.nextPeer = s.nextPeer → u.peer = s.peer →
      u.peers = s.peers → KeepsPeers s u :=
    fun u hn hp hs => ⟨hn, hp, fun p => by rw [hs]⟩
  cases acts_of_step hwf.toCore h with
  | kept he heq => exact Or.inl (keepsPeers_of_erase heq)
  | passed now net => exact Or.inl (hsame _ rfl rfl rfl)
  | renewed resolve timer timeouts delay ht => exact Or.inl (hsame _ rfl rfl rfl)
  | @opened k hws hconn =>
      have hs := startsPeer_onOpen (modifySocket s k fun j => { j with readyState := .opened })
      exact Or.inr (Or.inr ⟨k, rfl, hws, hs.nextPeer, hs.peer, hs.fresh, hs.others⟩)
  | erred hws => exact Or.inl (hsame _ rfl rfl rfl)
  | erredOld hws => exact Or.inl (hsame _ rfl rfl rfl)
  | closed hws => exact Or.inl (hsame _ rfl rfl rfl)
  | closedOld hws => exact Or.inl (hsame _ rfl rfl rfl)
  | @failed p q st hq hfailed =>
      obtain ⟨hlive, hst⟩ := not_closed_of_connectionState h
      have hpeers : ∀ u : State, (scheduleReconnect (dropPeer u)).peers = u.peers :=
        fun _ => rfl
      refine Or.inr (Or.inl ⟨q, _, hq, keepsPeers_connectionState hlive hst, rfl, rfl, ?_⟩)
      refine ⟨?_, fun j hj => ?_⟩
      · rw [hpeers, peers_modifyPeer, if_pos rfl]
      · rw [hpeers, peers_modifyPeer, if_neg hj]
  | changed hne =>
      obtain ⟨hlive, hst⟩ := not_closed_of_connectionState h
      exact Or.inl (keepsPeers_connectionState hlive hst)
  | announced habs => exact Or.inl (keepsPeers_modifyPeer Iff.rfl)
  | @channelOpened p label _ _ _ _ _ hconn =>
      have hk : KeepsPeers s (modifyPeer s p fun q =>
          { q.setChannel label .opened with channelsCount := q.channelsCount + 1 }) :=
        keepsPeers_modifyPeer Iff.rfl
      exact Or.inl ⟨hk.nextPeer, hk.peer, hk.closed⟩
  | @channelClosed p label =>
      have hk : KeepsPeers s (modifyPeer s p fun q =>
          { q.setChannel label .closed with reported := true }) :=
        keepsPeers_modifyPeer Iff.rfl
      exact Or.inl ⟨hk.nextPeer, hk.peer, hk.closed⟩
  | @channelErred p label =>
      have hk : KeepsPeers s (modifyPeer s p fun q => { q with reported := true }) :=
        keepsPeers_modifyPeer Iff.rfl
      exact Or.inl ⟨hk.nextPeer, hk.peer, hk.closed⟩

/-! ## Runs -/

theorem peerOpen_step {s s' : State} {e : Event} (hwf : Wf s) (ho : PeerOpen s)
    (h : step s e = some s') : PeerOpen s' := by
  rcases step_peers hwf h with hk | ⟨q, u, -, -, -, hnone, -⟩ | ⟨k, -, -, hs⟩
  · exact ho.keeps hk
  · intro p hp
    rw [hnone] at hp
    cases hp
  · intro p hp
    obtain rfl := Option.some.inj (hs.peer.symm.trans hp)
    rw [hs.fresh]
    decide

theorem noLeak_step {s s' : State} {e : Event} (hwf : Wf s) (hP : NoLeak s)
    (hG : OpensWithoutPeer s e) (h : step s e = some s') : NoLeak s' := by
  rcases step_peers hwf h with hk | ⟨q, u, hq, hk, hnext, -, hclosed, hrest⟩
    | ⟨k, rfl, hws, hs⟩
  · exact hP.keeps hk
  · intro p hlt _
    by_cases hpq : p = q
    · rw [hpq]
      exact hclosed
    · rw [hrest p hpq]
      rw [hnext] at hlt
      refine hP.keeps hk p hlt ?_
      rw [hk.peer, hq]
      exact fun heq => hpq (Option.some.inj heq).symm
  · intro p hlt hne
    have hpn : p ≠ s.nextPeer := by
      rintro rfl
      exact hne hs.peer
    rw [hs.others p hpn]
    rw [hs.nextPeer] at hlt
    refine hP p (by omega) ?_
    rw [hG k rfl hws]
    nofun

/-- A socket that opens on a client with a peer leaks that peer. -/
theorem not_noLeak_of_open {s s' : State} {e : Event} (hwf : Wf s) (ho : PeerOpen s)
    (hG : ¬ OpensWithoutPeer s e) (h : step s e = some s') : ¬ NoLeak s' := by
  unfold OpensWithoutPeer at hG
  push Not at hG
  obtain ⟨k, hk, hws, hne⟩ := hG
  obtain ⟨p, hp⟩ := Option.ne_none_iff_exists'.mp hne
  have hlt := hwf.peer p hp
  cases e with
  | socketOpen j =>
      obtain rfl : j = k := Option.some.inj hk
      obtain ⟨-, -, rfl⟩ := socketOpen_eq_some hwf.toCore h
      have hs := startsPeer_onOpen (modifySocket s j fun i => { i with readyState := .opened })
      intro hP
      refine ho p hp ((hs.others p (Nat.ne_of_lt hlt)).symm.trans (hP p ?_ ?_))
      · rw [hs.nextPeer]
        exact Nat.lt_succ_of_lt hlt
      · rw [hs.peer]
        exact fun heq => Nat.ne_of_gt hlt (Option.some.inj heq)
  | _ => cases hk

/-- Every peer but the current one is closed in every state of a run exactly
when no socket of the run opens on a client that still has a peer. -/
theorem noLeak_always_iff (onReconnected : Bool) {maxPackets : Nat}
    (pos : 0 < maxPackets) (es : List Event) :
    Always step NoLeak (init onReconnected maxPackets pos) es
      ↔ EachStep step OpensWithoutPeer (init onReconnected maxPackets pos) es := by
  have hP : NoLeak (init onReconnected maxPackets pos) :=
    fun p hlt => absurd hlt (Nat.not_lt_zero p)
  exact always_iff_eachStep (I := fun s => Wf s ∧ PeerOpen s)
    (fun hI h => ⟨wf_step hI.1 h, peerOpen_step hI.1 hI.2 h⟩)
    (fun hI hP hG h => noLeak_step hI.1 hP hG h)
    (fun hI _ hG h => not_noLeak_of_open hI.1 hI.2 hG h)
    ⟨wf_init onReconnected pos, nofun⟩ hP es

/-- The peer fails, and its handler closes it before the next one is started. -/
theorem noLeak_always_after_failure :
    ∃ s, run step (init true 16384 (by decide))
        [.connect, .socketOpen 0, .connectionState 0 .failed, .elapse 2000, .timer 0,
          .socketOpen 1] = some s
      ∧ s.nextPeer = 2 ∧ s.peer = some 1
      ∧ Always step NoLeak (init true 16384 (by decide))
          [.connect, .socketOpen 0, .connectionState 0 .failed, .elapse 2000, .timer 0,
            .socketOpen 1] :=
  ⟨_, rfl, rfl, rfl, (noLeak_always_iff true (by decide) _).mpr (by decide)⟩

/-- A forced reconnect: the second socket opens, and nothing has closed the
peer of the first. -/
theorem reconnect_leaks_peer :
    ∃ s, run step (init true 16384 (by decide))
        [.connect, .socketOpen 0, .forceReconnect, .socketOpen 1] = some s
      ∧ s.nextPeer = 2 ∧ s.peer = some 1 ∧ (s.peers 0).connectionState = .new
      ∧ ¬ NoLeak s := by
  refine ⟨_, rfl, rfl, rfl, rfl, fun hP => ?_⟩
  have := hP 0 (by decide) (by decide)
  cases this

end Transport

end XashProxy
