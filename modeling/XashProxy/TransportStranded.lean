import XashProxy.TransportActs

/-!
# The client is not stranded

A closed signaling socket cannot rebuild the session: only a reconnect can,
and `onclose` of the socket arms none. `recovers_always_iff` says that this
is the only gap. In every state of a run a closed socket without an
established session comes with a pending reconnect timer, exactly when the
current socket never closes outside an established session with no timer
pending.
-/

namespace XashProxy

namespace Transport

open Lts

/-- The current socket is closed. -/
def SignalingClosed (s : State) : Prop :=
  ∃ k, s.ws = some k ∧ (s.sockets k).readyState = .closed

/-- The current peer has both data channels open. -/
def Established (s : State) : Prop :=
  ∃ p, s.peer = some p ∧ ∀ label, (s.peers p).channels label = .opened

def Recovers (s : State) : Prop :=
  SignalingClosed s → ¬ Established s → s.timeouts ≠ []

/-- The socket that closes. -/
def closedSocket : Event → Option Nat
  | .socketClose k => some k
  | _ => none

/-- The current socket closes under a pending timer or an established
session. -/
def ClosesCovered (s : State) (e : Event) : Prop :=
  ∀ k ∈ closedSocket e, s.ws = some k → s.timeouts ≠ [] ∨ Established s

instance (s : State) : Decidable (Established s) :=
  inferInstanceAs (Decidable
    (∃ p ∈ s.peer, ∀ label, (s.peers p).channels label = .opened))

instance (s : State) (e : Event) : Decidable (ClosesCovered s e) :=
  inferInstanceAs (Decidable
    (∀ k ∈ closedSocket e, s.ws = some k → s.timeouts ≠ [] ∨ Established s))

/-! ## Steps that open no gap -/

/-- No timer is lost, the socket does not close, the session stays
established. -/
structure Covers (s s' : State) : Prop where
  timeouts : s'.timeouts = s.timeouts
  closed : SignalingClosed s' → SignalingClosed s
  established : Established s → Established s'

theorem Recovers.covers {s s' : State} (h : Recovers s) (hc : Covers s s') :
    Recovers s' := by
  intro hclosed hest
  rw [hc.timeouts]
  exact h (hc.closed hclosed) fun h => hest (hc.established h)

theorem recovers_of_timer {s : State} (h : s.timeouts ≠ []) : Recovers s :=
  fun _ _ => h

theorem recovers_scheduleReconnect (s : State) : Recovers (scheduleReconnect s) :=
  recovers_of_timer (by simp [scheduleReconnect])

/-- A fresh socket is not closed. -/
theorem recovers_connectWs (s : State) : Recovers (connectWs s) := by
  rintro ⟨k, hk, hclosed⟩
  have hk : k = s.nextSocket := (Option.some.inj hk).symm
  have hnew : (connectWs s).sockets s.nextSocket = .fresh := Function.update_self ..
  rw [hk, hnew] at hclosed
  cases hclosed

theorem covers_of_erase {s s' : State} (h : erase s' = erase s) : Covers s s' where
  timeouts := by
    show (erase s').timeouts = (erase s).timeouts
    rw [h]
  closed hc := by
    have : SignalingClosed (erase s') := hc
    rw [h] at this
    exact this
  established he := by
    have : Established (erase s) := he
    rw [← h] at this
    exact this

theorem covers_modifyPeer {s : State} {p : Nat} {f : Peer → Peer}
    (hf : ∀ label, (s.peers p).channels label = .opened →
      (f (s.peers p)).channels label = .opened) : Covers s (modifyPeer s p f) where
  timeouts := rfl
  closed := id
  established := by
    rintro ⟨q, hq, hopen⟩
    refine ⟨q, hq, fun label => ?_⟩
    rw [peers_modifyPeer]
    split
    · rename_i heq
      subst heq
      exact hf label (hopen label)
    · exact hopen label

/-- Changes of a socket that do not close the current one. -/
theorem covers_modifySocket {s : State} {k : Nat} {f : Socket → Socket}
    (hf : s.ws = some k → (f (s.sockets k)).readyState = .closed →
      (s.sockets k).readyState = .closed) : Covers s (modifySocket s k f) where
  timeouts := rfl
  closed := by
    rintro ⟨j, hj, hclosed⟩
    refine ⟨j, hj, ?_⟩
    rw [sockets_modifySocket] at hclosed
    split at hclosed
    · rename_i heq
      subst heq
      exact hf hj hclosed
    · exact hclosed
  established := id

theorem covers_setChannel {s : State} {p : Nat} {label : Label} {st : ChannelState}
    (h : (s.peers p).channels label ≠ .opened) :
    Covers s (modifyPeer s p fun q => q.setChannel label st) := by
  refine covers_modifyPeer fun label' hopen => ?_
  have hne : label' ≠ label := by
    rintro rfl
    exact h hopen
  simp only [Peer.setChannel, Function.update_of_ne hne, hopen]

theorem recovers_step {s s' : State} {e : Event} (hwf : Wf s) (hP : Recovers s)
    (hG : ClosesCovered s e) (h : step s e = some s') : Recovers s' := by
  cases acts_of_step hwf.toCore h with
  | kept he heq => exact hP.covers (covers_of_erase heq)
  | passed now net => exact hP.covers ⟨rfl, id, id⟩
  | renewed resolve timer timeouts delay ht => exact recovers_connectWs _
  | opened hws hconn =>
      -- the socket that opens is the current one
      rename_i k
      intro hclosed
      obtain ⟨j, hj, hc⟩ := (covers_of_erase (erase_handleDescription _)).closed hclosed
      obtain rfl : k = j := Option.some.inj (hws.symm.trans hj)
      have hopened : ((modifySocket s k fun j =>
          { j with readyState := .opened }).sockets k).readyState = .opened := by
        rw [sockets_modifySocket, if_pos rfl]
      have := hopened.symm.trans hc
      cases this
  | erred hws => exact recovers_scheduleReconnect _
  | erredOld hws => exact hP.covers (covers_modifySocket fun hk => absurd hk hws)
  | closed hws =>
      intro _ hest
      exact (hG _ rfl hws).resolve_right hest
  | closedOld hws => exact hP.covers (covers_modifySocket fun hk => absurd hk hws)
  | failed hq hfailed => exact recovers_scheduleReconnect _
  | changed hne => exact hP.covers (covers_modifyPeer fun _ => id)
  | announced habs => exact hP.covers (covers_setChannel (by rw [habs]; decide))
  | channelOpened hconn =>
      rename_i p label _ _ _ _ _
      have h₁ : Recovers (modifyPeer s p fun q => q.setChannel label .opened) :=
        hP.covers (covers_setChannel (by rw [hconn]; decide))
      have h₂ : Recovers (modifyPeer (modifyPeer s p fun q => q.setChannel label .opened) p
          fun q => { q with channelsCount := q.channelsCount + 1 }) :=
        h₁.covers (covers_modifyPeer fun _ => id)
      rw [modifyPeer_modifyPeer] at h₂
      exact h₂
  | channelClosed => exact recovers_scheduleReconnect _
  | channelErred => exact recovers_scheduleReconnect _

/-! ## The step that opens one -/

theorem not_recovers_of_close {s s' : State} {e : Event} (hwf : Wf s)
    (hG : ¬ ClosesCovered s e) (h : step s e = some s') : ¬ Recovers s' := by
  unfold ClosesCovered at hG
  push Not at hG
  obtain ⟨k, hk, hws, hnone, hest⟩ := hG
  cases e with
  | socketClose j =>
      obtain rfl : j = k := Option.some.inj hk
      rcases socketClose_eq_some hwf.toCore h with ⟨-, rfl⟩ | ⟨hne, -⟩
      · refine fun hP => hP ⟨j, hws, ?_⟩ hest hnone
        show ((modifySocket s j fun i =>
          { i with readyState := .closed }).sockets j).readyState = .closed
        rw [sockets_modifySocket, if_pos rfl]
      · exact absurd hws hne
  | _ => cases hk

/-- A closed signaling socket without an established session comes with a
pending reconnect, in every state of a run, exactly when the current socket
never closes with no timer pending before both channels of the current peer
are open. -/
theorem recovers_always_iff (onReconnected : Bool) {maxPackets : Nat}
    (pos : 0 < maxPackets) (es : List Event) :
    Always step Recovers (init onReconnected maxPackets pos) es
      ↔ EachStep step ClosesCovered (init onReconnected maxPackets pos) es := by
  refine always_iff_eachStep (I := Wf) wf_step
    (fun hwf hP hG h => recovers_step hwf hP hG h)
    (fun hwf _ hG h => not_recovers_of_close hwf hG h) (wf_init onReconnected pos) ?_ es
  rintro ⟨k, hk, -⟩
  cases hk

/-- A socket that fails after it opened leaves a pending reconnect. -/
theorem recovers_always_after_error :
    Always step Recovers (init true 16384 (by decide))
      [.connect, .socketOpen 0, .socketError 0, .socketClose 0] := by
  refine (recovers_always_iff true (by decide) _).mpr ?_
  decide

/-- The socket opens, the peer is started, and the socket closes cleanly
before any channel opens: no timer is pending. -/
theorem clean_close_strands_client :
    ∃ s, run step (init true 16384 (by decide))
        [.connect, .socketOpen 0, .socketClose 0] = some s ∧ ¬ Recovers s := by
  refine ⟨_, rfl, fun hP => ?_⟩
  refine hP ⟨0, rfl, rfl⟩ ?_ rfl
  rintro ⟨p, hp, hopen⟩
  obtain rfl := Option.some.inj hp
  have := hopen .read
  cases this

end Transport

end XashProxy
