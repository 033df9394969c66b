import XashProxy.TransportActs

/-!
# What a step does to the negotiation

`negotiation s` is the part of the state that `erase` forgets, together with
what ties it to a session: the sockets, the peers and which of them are
current. `moves_of_step` lists what one event can do to it; the invariants of
the signaling and of the candidates are proved from that list.
-/

namespace XashProxy

namespace Transport

def Peer.negotiation (q : Peer) : Peer :=
  { q with
    connectionState := .new, channels := fun _ => .absent
    channelsCount := 0, reported := false }

def Socket.negotiation (k : Socket) : Socket :=
  { k with handlers := false, errored := false }

def negotiation (s : State) : State :=
  { s with
    channel := none, resolve := false, reconnectTimer := none, reconnectDelay := 0
    keepaliveTimer := none, wasConnected := false, onReconnected := false
    net := .init 1 Nat.one_pos, now := 0, nextTimer := 0, timeouts := []
    intervals := [], resolved := 0, reconnects := 0
    sockets := fun k => (s.sockets k).negotiation
    peers := fun p => (s.peers p).negotiation }

theorem negotiation_modifyPeer {s : State} {p : Nat} {f : Peer → Peer}
    (hf : (f (s.peers p)).negotiation = (s.peers p).negotiation) :
    negotiation (modifyPeer s p f) = negotiation s := by
  simp only [negotiation, modifyPeer]
  congr 1
  funext j
  by_cases hj : j = p
  · subst hj
    rw [Function.update_self, hf]
  · rw [Function.update_of_ne hj]

theorem negotiation_modifySocket {s : State} {k : Nat} {f : Socket → Socket}
    (hf : (f (s.sockets k)).negotiation = (s.sockets k).negotiation) :
    negotiation (modifySocket s k f) = negotiation s := by
  simp only [negotiation, modifySocket]
  congr 1
  funext j
  by_cases hj : j = k
  · subst hj
    rw [Function.update_self, hf]
  · rw [Function.update_of_ne hj]

/-- Timers, channels and packets play no part in starting a peer. -/
theorem negotiation_onOpen (s : State) :
    negotiation (onOpen s) = negotiation (startConnection s) := by
  unfold onOpen startConnection handleDescription
  cases s.remoteDescription <;> rfl

/-- The peer that has gathered a candidate. -/
def gatherer : Event → Option Nat
  | .iceCandidate p (some _) => some p
  | _ => none

/-! ## One step -/

inductive Moves (s : State) : Event → State → Prop where
  | same {e : Event} {s' : State} (h : negotiation s' = negotiation s) : Moves s e s'
  | renewed {e : Event} {s' : State} (h : negotiation s' = negotiation (connectWs s)) :
      Moves s e s'
  | closed {e : Event} {s' : State} {k : Nat}
      (h : negotiation s' = negotiation (modifySocket s k fun j =>
        { j with readyState := .closed })) : Moves s e s'
  | opened {s' : State} {k : Nat} (hws : s.ws = some k)
      (hconn : (s.sockets k).readyState = .connecting)
      (h : negotiation s' = negotiation (startConnection (modifySocket s k fun j =>
        { j with readyState := .opened }))) : Moves s (.socketOpen k) s'
  | dropped {e : Event} {s' : State} {p : Nat} (hp : s.peer = some p)
      (h : negotiation s' = negotiation (dropPeer s)) : Moves s e s'
  | pinged {e : Event} {k : Nat} (hopen : (s.sockets k).readyState = .opened) :
      Moves s e (modifySocket s k fun j => j.send .ping)
  | offered {k id : Nat} (hws : s.ws = some k)
      (hopen : (s.sockets k).readyState = .opened) :
      Moves s (.offer k id) (onOffer s ⟨k, id⟩)
  | received {k id : Nat} (hws : s.ws = some k)
      (hopen : (s.sockets k).readyState = .opened) :
      Moves s (.candidate k id) (onCandidate (modifySocket s k fun j =>
        { j with received := j.received ++ [⟨k, id⟩] }) ⟨k, id⟩)
  | settled {p : Nat} {ok : Bool} {s' : State} (h : Settles s p ok s') :
      Moves s (.complete p ok) s'
  | gathered {p id k : Nat} (hlocal : (s.peers p).localSet = true)
      (hws : s.ws = some k) (hopen : (s.sockets k).readyState = .opened) :
      Moves s (.iceCandidate p (some id))
        (modifySocket s k fun j => j.send (.candidate ⟨p, id⟩))

/-- Only the current socket delivers messages. -/
theorem current_of_opened {s : State} (hwf : Core s) {k : Nat} (hlt : k < s.nextSocket)
    (hopen : (s.sockets k).readyState = .opened) : s.ws = some k := by
  refine Decidable.byContradiction fun hne => ?_
  obtain ⟨-, hc | hc⟩ := hwf.superseded k hlt hne <;> rw [hopen] at hc <;> cases hc

theorem moves_of_negotiates {s s' : State} {e : Event} (hwf : Core s)
    (he : negotiates e = true) (h : step s e = some s') : Moves s e s' := by
  cases e with
  | keepalive id =>
      simp only [step, Option.ite_none_right_eq_some] at h
      obtain ⟨-, h⟩ := h
      split at h
      · split at h <;> obtain rfl := Option.some.inj h
        · rename_i hopen
          exact .pinged hopen
        · exact .same rfl
      · obtain rfl := Option.some.inj h
        exact .same rfl
  | offer k id =>
      simp only [step, Option.ite_none_right_eq_some] at h
      obtain ⟨⟨hlt, hopen⟩, h⟩ := h
      obtain rfl := Option.some.inj h
      exact .offered (current_of_opened hwf hlt hopen) hopen
  | candidate k id =>
      simp only [step, Option.ite_none_right_eq_some] at h
      obtain ⟨⟨hlt, hopen⟩, h⟩ := h
      obtain rfl := Option.some.inj h
      exact .received (current_of_opened hwf hlt hopen) hopen
  | complete p ok => exact .settled (complete_eq_some h).2
  | iceCandidate p id =>
      simp only [step, Option.ite_none_right_eq_some] at h
      obtain ⟨⟨hlocal, -⟩, h⟩ := h
      split at h <;> obtain rfl := Option.some.inj h
      · rename_i id
        cases hs : wsSend s (.candidate ⟨p, id⟩) with
        | none => exact .same rfl
        | some s' =>
            rcases wsSend_eq_some hs with rfl | ⟨k, hws, hopen, rfl⟩
            · exact .same rfl
            · exact .gathered hlocal hws hopen
      · exact .same rfl
  | _ => cases he

theorem moves_of_step {s s' : State} {e : Event} (hwf : Core s)
    (h : step s e = some s') : Moves s e s' := by
  cases acts_of_step hwf h with
  | passed now net => exact .same rfl
  | renewed resolve timer timeouts delay ht => exact .renewed rfl
  | opened hws hconn => exact .opened hws hconn (negotiation_onOpen _)
  | erred hws =>
      rename_i k
      have hm : negotiation (modifySocket s k fun j => { j with errored := true })
        = negotiation s := negotiation_modifySocket rfl
      exact .same hm
  | erredOld hws => exact .same (negotiation_modifySocket rfl)
  | closed hws => exact .closed rfl
  | closedOld hws => exact .closed rfl
  | failed hq hfailed =>
      rename_i p q st
      have hm : negotiation (modifyPeer s p fun q => { q with connectionState := st })
        = negotiation s := negotiation_modifyPeer rfl
      have hm' : negotiation (modifyPeer
          (modifyPeer s p fun q => { q with connectionState := st }) q fun q =>
            { q with connectionState := .closed, reported := true }) = negotiation s :=
        (negotiation_modifyPeer rfl).trans hm
      exact .dropped hq (congrArg dropPeer hm')
  | changed hne => exact .same (negotiation_modifyPeer rfl)
  | announced habs => exact .same (negotiation_modifyPeer rfl)
  | channelOpened hconn =>
      rename_i p label _ _ _ _ _
      have hm : negotiation (modifyPeer s p fun q =>
          { q.setChannel label .opened with channelsCount := q.channelsCount + 1 })
        = negotiation s := negotiation_modifyPeer rfl
      exact .same hm
  | channelClosed =>
      rename_i p label
      have hm : negotiation (modifyPeer s p fun q =>
          { q.setChannel label .closed with reported := true }) = negotiation s :=
        negotiation_modifyPeer rfl
      exact .same hm
  | channelErred =>
      rename_i p label
      have hm : negotiation (modifyPeer s p fun q => { q with reported := true })
        = negotiation s := negotiation_modifyPeer rfl
      exact .same hm
  | kept he heq => exact moves_of_negotiates hwf he h

/-- Two sessions that are negotiated one after the other; in the second one a
candidate precedes the offer and is pushed back once. -/
def negotiatedTwice : List Event :=
  [.connect, .socketOpen 0, .candidate 0 0, .offer 0 0, .complete 0 true,
    .complete 0 true, .complete 0 true, .complete 0 true, .iceCandidate 0 (some 0),
    .forceReconnect, .socketOpen 1, .candidate 1 0, .offer 1 0, .complete 1 false,
    .complete 1 true, .complete 1 true, .complete 1 true, .complete 1 true,
    .iceCandidate 1 (some 0)]

end Transport

end XashProxy
