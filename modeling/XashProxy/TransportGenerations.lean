import XashProxy.TransportActs

/-!
# Generations of the transport

A reconnect leaves the data-channel handlers of the old peer installed, and
they act on the client as if the peer were still the current one. The first
half of `generations_isolated` says which of their events leave the session
alone: an event of a superseded channel is inert exactly when it is a
message nobody listens to, or an `open` that completes no pair and replaces
no channel. The second half says that this is what stands between the
client and a needless reconnect: as long as every such event is inert, an
established session that has reported no failure has no timer pending.
-/

namespace XashProxy

namespace Transport

open Lts

/-- The peer that owns the data channel an event is about. -/
def channelEvent : Event → Option Nat
  | .channelOpen p _ | .channelClose p _ | .channelError p _
  | .channelMessage p _ _ => some p
  | _ => none

/-- Peer `p` is not the current one, or its socket has been replaced. -/
def Superseded (s : State) (p : Nat) : Prop :=
  ¬ (s.peer = some p ∧ (s.peers p).socket = s.ws)

/-- The step leaves the session alone: `this.channel`, the reconnect timer
and its delay, `connect()` and `onReconnected`, and the incoming packets. -/
structure Inert (s s' : State) : Prop where
  channel : s'.channel = s.channel
  nextTimer : s'.nextTimer = s.nextTimer
  timeouts : s'.timeouts = s.timeouts
  reconnectDelay : s'.reconnectDelay = s.reconnectDelay
  resolved : s'.resolved = s.resolved
  reconnects : s'.reconnects = s.reconnects
  net : s'.net = s.net

/-- The second open of a peer has nobody to tell. -/
def NobodyListens (s : State) : Prop :=
  if s.wasConnected then s.onReconnected = false else s.resolve = false

def Harmless (s : State) : Event → Prop
  | .channelMessage _ label _ => label = .read
  | .channelOpen p label =>
      (label = .read → s.channel = some p)
        ∧ ((s.peers p).channelsCount = 1 → NobodyListens s)
  | _ => False

/-- The event, if it is about a channel of a superseded peer, leaves the
session alone. -/
def StaleInert (s : State) (e : Event) : Prop :=
  ∀ p ∈ channelEvent e, Superseded s p → ∀ s', step s e = some s' → Inert s s'

def StaleHarmless (s : State) (e : Event) : Prop :=
  ∀ p ∈ channelEvent e, Superseded s p → Harmless s e

/-- The peer that an event says has failed. -/
def failedPeer : Event → Option Nat
  | .connectionState p .failed => some p
  | _ => none

/-- Nothing of an older generation acts on the session: the events of its
channels are harmless, and no superseded peer is found to have failed. -/
def Isolated (s : State) (e : Event) : Prop :=
  StaleHarmless s e ∧ ∀ p ∈ failedPeer e, s.peer = some p → ¬ Superseded s p

instance (s : State) (p : Nat) : Decidable (Superseded s p) :=
  inferInstanceAs (Decidable (¬ (s.peer = some p ∧ (s.peers p).socket = s.ws)))

instance (s : State) : Decidable (NobodyListens s) :=
  inferInstanceAs (Decidable
    (if s.wasConnected then s.onReconnected = false else s.resolve = false))

instance (s : State) : (e : Event) → Decidable (Harmless s e)
  | .channelMessage _ label _ => inferInstanceAs (Decidable (label = .read))
  | .channelOpen p label => inferInstanceAs (Decidable (
      (label = .read → s.channel = some p)
        ∧ ((s.peers p).channelsCount = 1 → NobodyListens s)))
  | .elapse _ | .connect | .forceReconnect | .timer _ | .keepalive _ | .socketOpen _
  | .socketError _ | .socketClose _ | .offer .. | .candidate .. | .complete ..
  | .iceCandidate .. | .connectionState .. | .dataChannel .. | .channelClose ..
  | .channelError .. | .converted _ | .dequeue => isFalse id

instance (s : State) (e : Event) : Decidable (StaleHarmless s e) :=
  inferInstanceAs (Decidable (∀ p ∈ channelEvent e, Superseded s p → Harmless s e))

instance (s : State) (e : Event) : Decidable (Isolated s e) :=
  inferInstanceAs (Decidable (StaleHarmless s e
    ∧ ∀ p ∈ failedPeer e, s.peer = some p → ¬ Superseded s p))

/-! ## Which events are inert -/

theorem channel_eq_iff (channel : Option Nat) (p : Nat) (label : Label) :
    (if label = .read then some p else channel) = channel
      ↔ (label = .read → channel = some p) := by
  split
  · rename_i h
    exact ⟨fun heq _ => heq.symm, fun heq => (heq h).symm⟩
  · rename_i h
    exact ⟨fun _ h' => absurd h' h, fun _ => rfl⟩

/-- An `open` changes `this.channel`, and reports a completed pair. -/
theorem inert_open_iff (s : State) (p : Nat) (label : Label) :
    Inert s (onChannelOpen s p label)
      ↔ (label = .read → s.channel = some p)
        ∧ ((s.peers p).channelsCount = 1 → NobodyListens s) := by
  rw [← channel_eq_iff]
  unfold onChannelOpen NobodyListens
  by_cases hcount : (s.peers p).channelsCount + 1 = 2
  · have hone : (s.peers p).channelsCount = 1 := by omega
    simp only [hone, if_true, modifyPeer, true_implies]
    split
    · cases hr : s.onReconnected with
      | false =>
          exact ⟨fun h => ⟨h.channel, rfl⟩,
            fun h => ⟨h.1, rfl, rfl, rfl, rfl, rfl, rfl⟩⟩
      | true =>
          refine ⟨fun h => ?_, fun h => ?_⟩
          · have : s.reconnects + 1 = s.reconnects := h.reconnects
            omega
          · cases h.2
    · cases hr : s.resolve with
      | false =>
          exact ⟨fun h => ⟨h.channel, rfl⟩,
            fun h => ⟨h.1, rfl, rfl, rfl, rfl, rfl, rfl⟩⟩
      | true =>
          refine ⟨fun h => ?_, fun h => ?_⟩
          · have : s.resolved + 1 = s.resolved := h.resolved
            omega
          · cases h.2
  · have hone : (s.peers p).channelsCount ≠ 1 := by omega
    simp only [if_neg hcount, modifyPeer]
    exact ⟨fun h => ⟨h.channel, fun h' => absurd h' hone⟩,
      fun h => ⟨h.1, rfl, rfl, rfl, rfl, rfl, rfl⟩⟩

theorem not_inert_of_end (s : State) (p : Nat) (f : Peer → Peer) (label : Label) :
    ¬ Inert s (onChannelEnd (modifyPeer s p f) label) := by
  intro h
  have : s.nextTimer + 1 = s.nextTimer := h.nextTimer
  omega

theorem inert_message_iff (s : State) (label : Label) (data : Payload) :
    Inert s (onChannelMessage s label data) ↔ label = .read := by
  cases label with
  | read => exact ⟨fun _ => rfl, fun _ => ⟨rfl, rfl, rfl, rfl, rfl, rfl, rfl⟩⟩
  | write =>
      refine ⟨fun h => ?_, nofun⟩
      have harr : (s.net.onMessage s.now data).arrivals = s.net.arrivals :=
        congrArg Net.arrivals h.net
      cases data <;> simp [Net.onMessage, Net.enqueueIncoming] at harr

theorem inert_iff_harmless {s s' : State} {e : Event} {p : Nat}
    (hp : channelEvent e = some p) (h : step s e = some s') :
    Inert s s' ↔ Harmless s e := by
  cases e with
  | channelOpen q label =>
      simp only [step, Option.ite_none_right_eq_some] at h
      obtain rfl := Option.some.inj h.2
      have hcount : ((modifyPeer s q fun r => r.setChannel label .opened).peers
          q).channelsCount = (s.peers q).channelsCount := by
        rw [peers_modifyPeer, if_pos rfl]
        rfl
      have hiff := inert_open_iff (modifyPeer s q fun r => r.setChannel label .opened)
        q label
      rw [hcount] at hiff
      -- setting the channel's own state is not part of the session
      exact ⟨fun hi => hiff.mp
          ⟨hi.channel, hi.nextTimer, hi.timeouts, hi.reconnectDelay, hi.resolved,
            hi.reconnects, hi.net⟩,
        fun hh =>
          have hi := hiff.mpr hh
          ⟨hi.channel, hi.nextTimer, hi.timeouts, hi.reconnectDelay, hi.resolved,
            hi.reconnects, hi.net⟩⟩
  | channelClose q label =>
      simp only [step, Option.ite_none_right_eq_some] at h
      obtain rfl := Option.some.inj h.2
      exact ⟨fun h => not_inert_of_end _ _ _ _ h, False.elim⟩
  | channelError q label =>
      simp only [step, Option.ite_none_right_eq_some] at h
      obtain rfl := Option.some.inj h.2
      exact ⟨fun h => not_inert_of_end _ _ _ _ h, False.elim⟩
  | channelMessage q label data =>
      simp only [step, Option.ite_none_right_eq_some] at h
      obtain rfl := Option.some.inj h.2
      exact inert_message_iff s label data
  | _ => cases hp

/-! ## Why a reconnect is pending -/

/-- An established session of the current generation that has reported no
failure has no reconnect pending. -/
def Undisturbed (s : State) : Prop :=
  ∀ p k, s.peer = some p → s.ws = some k → (s.peers p).socket = some k →
    (∀ label, (s.peers p).channels label = .opened) →
    (s.peers p).reported = false → (s.sockets k).errored = false → s.timeouts = []

/-- What the current generation has reported. -/
def Reported (s : State) : Prop :=
  (∃ k, s.ws = some k ∧ (s.sockets k).errored = true)
    ∨ (∃ p k, s.peer = some p ∧ s.ws = some k ∧ (s.peers p).socket = some k
      ∧ (s.peers p).reported = true)
    ∨ (s.peer = none ∧ ∃ k, s.ws = some k ∧ (s.sockets k).readyState ≠ .connecting)

/-- A pending reconnect was asked for by the current generation. -/
def Justified (s : State) : Prop := s.timeouts ≠ [] → Reported s

/-- The current peer has not failed: its handler drops it at once. -/
def Alive (s : State) : Prop :=
  ∀ p, s.peer = some p → (s.peers p).connectionState ≠ .failed

theorem undisturbed_of_justified {s : State} (h : Justified s) : Undisturbed s := by
  intro p k hp hk hsock _ hrep herr
  refine Decidable.byContradiction fun hne => ?_
  rcases h hne with ⟨j, hj, hje⟩ | ⟨q, j, hq, -, -, hqr⟩ | ⟨hnone, -⟩
  · obtain rfl := Option.some.inj (hk.symm.trans hj)
    rw [herr] at hje
    cases hje
  · obtain rfl := Option.some.inj (hp.symm.trans hq)
    rw [hrep] at hqr
    cases hqr
  · rw [hp] at hnone
    cases hnone

theorem justified_connectWs {s : State}
    (h : clearTimeout s.reconnectTimer s.timeouts = []) : Justified (connectWs s) :=
  fun hne => absurd h hne

/-- Changes of a peer that keep its socket and what it has reported. -/
theorem Reported.modifyPeer {s : State} (h : Reported s) {p : Nat} {f : Peer → Peer}
    (hsock : (f (s.peers p)).socket = (s.peers p).socket)
    (hrep : (s.peers p).reported = true → (f (s.peers p)).reported = true) :
    Reported (modifyPeer s p f) := by
  rcases h with h | ⟨q, k, hq, hk, hqs, hqr⟩ | h
  · exact Or.inl h
  · refine Or.inr (Or.inl ⟨q, k, hq, hk, ?_⟩)
    rw [peers_modifyPeer]
    split
    · rename_i heq
      subst heq
      exact ⟨hsock.trans hqs, hrep hqr⟩
    · exact ⟨hqs, hqr⟩
  · exact Or.inr (Or.inr h)

/-- Changes of a socket that keep its error and do not put it back to
`CONNECTING`. -/
theorem Reported.modifySocket {s : State} (h : Reported s) {k : Nat}
    {f : Socket → Socket}
    (herr : (s.sockets k).errored = true → (f (s.sockets k)).errored = true)
    (hready : (s.sockets k).readyState ≠ .connecting →
      (f (s.sockets k)).readyState ≠ .connecting) : Reported (modifySocket s k f) := by
  rcases h with ⟨j, hj, hje⟩ | h | ⟨hnone, j, hj, hjr⟩
  · refine Or.inl ⟨j, hj, ?_⟩
    rw [sockets_modifySocket]
    split
    · rename_i heq
      subst heq
      exact herr hje
    · exact hje
  · exact Or.inr (Or.inl h)
  · refine Or.inr (Or.inr ⟨hnone, j, hj, ?_⟩)
    rw [sockets_modifySocket]
    split
    · rename_i heq
      subst heq
      exact hready hjr
    · exact hjr

/-- While the current socket has not opened, only its own error is a report
of the current generation. -/
theorem errored_of_reported {s : State} {k : Nat} (hwf : Wf s) (h : Reported s)
    (hws : s.ws = some k) (hconn : (s.sockets k).readyState = .connecting) :
    (s.sockets k).errored = true := by
  rcases h with ⟨j, hj, hje⟩ | ⟨p, j, hp, hj, hpj, -⟩ | ⟨-, j, hj, hjr⟩
  · obtain rfl := Option.some.inj (hws.symm.trans hj)
    exact hje
  · obtain rfl := Option.some.inj (hws.symm.trans hj)
    obtain ⟨i, hi, -, hne⟩ := hwf.started p (hwf.peer p hp)
    obtain rfl := Option.some.inj (hpj.symm.trans hi)
    exact absurd hconn hne
  · obtain rfl := Option.some.inj (hws.symm.trans hj)
    exact absurd hconn hjr

theorem justified_socketOpen {s s' : State} {k : Nat} (hwf : Wf s) (hj : Justified s)
    (h : step s (.socketOpen k) = some s') : Justified s' := by
  obtain ⟨hws, hconn, rfl⟩ := socketOpen_eq_some hwf.toCore h
  intro hne
  rw [timeouts_onOpen] at hne
  have herr := errored_of_reported hwf (hj hne) hws hconn
  have hws' : (onOpen (modifySocket s k fun j =>
      { j with readyState := .opened })).ws = some k := by
    show (erase (onOpen _)).ws = some k
    rw [erase_onOpen]
    exact hws
  refine Or.inl ⟨k, hws', ?_⟩
  have hsock := congrArg Socket.errored (sockets_onOpen (modifySocket s k fun j =>
    { j with readyState := .opened }) k)
  rw [sockets_modifySocket, if_pos rfl] at hsock
  exact hsock.trans herr

/-- A channel of the current generation has closed or erred. -/
theorem reported_of_end {s : State} {p : Nat} (hwf : Wf s) (hp : ¬ Superseded s p)
    {f : Peer → Peer} (hsock : (f (s.peers p)).socket = (s.peers p).socket)
    (hrep : (f (s.peers p)).reported = true) (label : Label) :
    Reported (onChannelEnd (modifyPeer s p f) label) := by
  obtain ⟨hpeer, hsup⟩ := Decidable.not_not.mp hp
  obtain ⟨k, hk, -, -⟩ := hwf.started p (hwf.peer p hpeer)
  refine Or.inr (Or.inl ⟨p, k, hpeer, hsup.symm.trans hk, ?_⟩)
  show ((modifyPeer s p f).peers p).socket = some k
    ∧ ((modifyPeer s p f).peers p).reported = true
  rw [peers_modifyPeer, if_pos rfl]
  exact ⟨hsock.trans hk, hrep⟩

/-- A failure that is found is the one that has just been set. -/
theorem failed_of_alive {s : State} {p q : Nat} {st : ConnectionState} (ha : Alive s)
    (hq : s.peer = some q)
    (hfailed : ((modifyPeer s p fun q => { q with connectionState := st }).peers
      q).connectionState = .failed) : p = q ∧ st = .failed := by
  rw [peers_modifyPeer] at hfailed
  split at hfailed
  · rename_i heq
    exact ⟨heq.symm, hfailed⟩
  · exact absurd hfailed (ha q hq)

theorem justified_step {s s' : State} {e : Event} (hwf : Wf s) (ha : Alive s)
    (hj : Justified s) (hG : Isolated s e) (h : step s e = some s') :
    Justified s' := by
  cases acts_of_step hwf.toCore h with
  | kept he heq =>
      have hj' : Justified (erase s') := by
        rw [heq]
        exact hj
      exact hj'
  | passed now net => exact hj
  | renewed resolve timer timeouts delay ht =>
      exact justified_connectWs (clearTimeout_eq_nil ht)
  | opened hws hconn => exact justified_socketOpen hwf hj h
  | erred hws =>
      rename_i k
      refine fun _ => Or.inl ⟨k, hws, ?_⟩
      show ((modifySocket s k fun j => { j with errored := true }).sockets k).errored
        = true
      rw [sockets_modifySocket, if_pos rfl]
  | erredOld hws => exact fun hne => (hj hne).modifySocket (fun _ => rfl) id
  | closed hws =>
      rename_i k
      have hm : Justified (modifySocket s k fun j => { j with readyState := .closed }) :=
        fun hne => (hj hne).modifySocket id fun _ => by simp
      exact hm
  | closedOld hws => exact fun hne => (hj hne).modifySocket id fun _ => by simp
  | failed hq hfailed =>
      obtain ⟨rfl, rfl⟩ := failed_of_alive ha hq hfailed
      rename_i p
      obtain ⟨hpeer, hsup⟩ := Decidable.not_not.mp (hG.2 p rfl hq)
      obtain ⟨k, hk, -, hready⟩ := hwf.started p (hwf.peer p hpeer)
      exact fun _ => Or.inr (Or.inr ⟨rfl, k, hsup.symm.trans hk, hready⟩)
  | changed hne => exact fun hne => (hj hne).modifyPeer rfl id
  | announced habs => exact fun hne => (hj hne).modifyPeer rfl id
  | channelOpened hconn =>
      rename_i p label _ _ _ _ _
      have hm : Justified (modifyPeer s p fun q =>
          { q.setChannel label .opened with channelsCount := q.channelsCount + 1 }) :=
        fun hne => (hj hne).modifyPeer rfl id
      exact hm
  | channelClosed =>
      exact fun _ => reported_of_end hwf (fun hsup => hG.1 _ rfl hsup) rfl rfl _
  | channelErred =>
      exact fun _ => reported_of_end hwf (fun hsup => hG.1 _ rfl hsup) rfl rfl _

/-! ## The current peer is alive -/

theorem alive_modifyPeer {s : State} (h : Alive s) {p : Nat} {f : Peer → Peer}
    (hf : (f (s.peers p)).connectionState = (s.peers p).connectionState) :
    Alive (modifyPeer s p f) := by
  intro q hq
  rw [peers_modifyPeer]
  split
  · rename_i heq
    subst heq
    rw [hf]
    exact h q hq
  · exact h q hq

theorem alive_onOpen (s : State) : Alive (onOpen s) := by
  intro p hp
  have hp : (erase (onOpen s)).peer = some p := hp
  show ((erase (onOpen s)).peers p).connectionState ≠ .failed
  rw [erase_onOpen] at hp ⊢
  obtain rfl := Option.some.inj hp
  simp [erase, Peer.erase, Peer.fresh]

theorem alive_step {s s' : State} {e : Event} (hwf : Wf s) (ha : Alive s)
    (h : step s e = some s') : Alive s' := by
  cases acts_of_step hwf.toCore h with
  | kept he heq =>
      have ha' : Alive (erase s') := by
        rw [heq]
        exact ha
      exact ha'
  | opened hws hconn => exact alive_onOpen _
  | failed hq hfailed =>
      intro p hp
      cases hp
  | changed hne => exact hne
  | announced habs => exact alive_modifyPeer ha rfl
  | channelOpened hconn =>
      rename_i p label _ _ _ _ _
      have hm : Alive (modifyPeer s p fun q =>
          { q.setChannel label .opened with channelsCount := q.channelsCount + 1 }) :=
        alive_modifyPeer ha rfl
      exact hm
  | channelClosed =>
      rename_i p label
      have hm : Alive (modifyPeer s p fun q =>
        { q.setChannel label .closed with reported := true }) := alive_modifyPeer ha rfl
      exact hm
  | channelErred =>
      rename_i p label
      have hm : Alive (modifyPeer s p fun q => { q with reported := true }) :=
        alive_modifyPeer ha rfl
      exact hm
  -- the rest leaves the peers alone
  | passed now net => exact ha
  | renewed resolve timer timeouts delay ht => exact ha
  | erred hws => exact ha
  | erredOld hws => exact ha
  | closed hws => exact ha
  | closedOld hws => exact ha

/-! ## Whole runs -/

/-- In every run the events of superseded channels leave the session alone
exactly when they are harmless; in a run where nothing of an older
generation acts on the session, no established session is disturbed. -/
theorem generations_isolated (onReconnected : Bool) {maxPackets : Nat}
    (pos : 0 < maxPackets) (es : List Event) :
    (EachStep step StaleInert (init onReconnected maxPackets pos) es
        ↔ EachStep step StaleHarmless (init onReconnected maxPackets pos) es)
      ∧ (EachStep step Isolated (init onReconnected maxPackets pos) es →
        Always step Undisturbed (init onReconnected maxPackets pos) es) := by
  refine ⟨EachStep.congr fun {s e s'} h => ⟨?_, ?_⟩, fun hG => ?_⟩
  · intro hi p hp hsup
    exact (inert_iff_harmless hp h).mp (hi p hp hsup s' h)
  · intro hh p hp hsup t ht
    exact (inert_iff_harmless hp ht).mpr (hh p hp hsup)
  · -- the invariant: a pending reconnect was asked for by this generation
    refine Always.of_invariant (I := fun s => Wf s ∧ Alive s ∧ Justified s)
      (fun h => undisturbed_of_justified h.2.2) ?_ hG
      ⟨wf_init onReconnected pos, nofun, fun hne => absurd rfl hne⟩
    rintro s e s' ⟨hwf, ha, hj⟩ hG h
    exact ⟨wf_step hwf h, alive_step hwf ha h, justified_step hwf ha hj hG h⟩

/-- A session, a reconnect, and the session that replaces it. -/
def rebuilt : List Event :=
  [.connect, .socketOpen 0, .dataChannel 0 .write, .dataChannel 0 .read,
    .channelOpen 0 .write, .channelOpen 0 .read,
    .forceReconnect, .socketOpen 1, .dataChannel 1 .write, .dataChannel 1 .read,
    .channelOpen 1 .write, .channelOpen 1 .read]

theorem generations_isolated_rebuilt :
    Always step Undisturbed (init true 16384 (by decide)) rebuilt := by
  have hG : EachStep step Isolated (init true 16384 (by decide)) rebuilt := by decide
  exact (generations_isolated true (by decide) rebuilt).2 hG

/-- The `read` channel of the old peer closes under the new session: the
channel of the session is cleared and a reconnect is armed. -/
theorem late_close_mutes_session :
    ∃ s s', run step (init true 16384 (by decide)) rebuilt = some s
      ∧ step s (.channelClose 0 .read) = some s' ∧ Superseded s 0
      ∧ ¬ Inert s s' ∧ ¬ Undisturbed s' := by
  refine ⟨_, _, rfl, rfl, ?_, ?_, ?_⟩
  · rintro ⟨hp, -⟩
    cases hp
  · intro h
    cases h.channel
  · intro h
    have := h 1 1 rfl rfl rfl (fun label => by cases label <;> rfl) rfl rfl
    cases this

end Transport

end XashProxy
