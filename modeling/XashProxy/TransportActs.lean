import XashProxy.TransportFrame

/-!
# What a step does outside the negotiation

`Wf` is about the timers, the sockets and the generations of peers: at most
one reconnect is pending, only the current socket has handlers and can be
open, and a peer belongs to the socket whose opening started it.
`acts_of_step` lists what one event can do; every invariant of the sessions
is proved from that list.
-/

namespace XashProxy

namespace Transport

open Lts

structure Core (s : State) : Prop where
  /-- `reconnectTimer` is the only timeout that is pending. -/
  timers : s.timeouts.map Timeout.id = s.reconnectTimer.toList
  current : ∀ k, s.ws = some k → k < s.nextSocket
    ∧ (s.sockets k).handlers = true ∧ (s.sockets k).readyState ≠ .closing
  superseded : ∀ k, k < s.nextSocket → s.ws ≠ some k →
    (s.sockets k).handlers = false
      ∧ ((s.sockets k).readyState = .closing ∨ (s.sockets k).readyState = .closed)
  peer : ∀ p, s.peer = some p → p < s.nextPeer
  /-- A peer is started when its socket opens. -/
  started : ∀ p, p < s.nextPeer → ∃ k, (s.peers p).socket = some k
    ∧ k < s.nextSocket ∧ (s.sockets k).readyState ≠ .connecting

structure Wf (s : State) : Prop extends Core s where
  generation : ∀ p k, s.peer = some p → s.ws = some k →
    (s.sockets k).readyState = .opened → (s.peers p).socket = some k

theorem wf_init (onReconnected : Bool) {maxPackets : Nat} (pos : 0 < maxPackets) :
    Wf (init onReconnected maxPackets pos) where
  timers := rfl
  current := nofun
  superseded k hk := absurd hk (Nat.not_lt_zero k)
  peer := nofun
  started p hp := absurd hp (Nat.not_lt_zero p)
  generation := nofun

theorem wf_erase {s : State} : Wf (erase s) ↔ Wf s :=
  ⟨fun h => ⟨⟨h.timers, h.current, h.superseded, h.peer, h.started⟩, h.generation⟩,
    fun h => ⟨⟨h.timers, h.current, h.superseded, h.peer, h.started⟩, h.generation⟩⟩

theorem Wf.of_erase {s s' : State} (h : Wf s) (heq : erase s' = erase s) : Wf s' := by
  rw [← wf_erase, heq, wf_erase]
  exact h

theorem clearTimeout_eq_nil {timer : Option Nat} {timeouts : List Timeout}
    (h : timeouts.map Timeout.id = timer.toList) : clearTimeout timer timeouts = [] := by
  unfold clearTimeout
  cases timer with
  | none => exact List.map_eq_nil_iff.mp h
  | some id =>
      refine List.filter_eq_nil_iff.mpr fun t hmem => ?_
      have : t.id ∈ timeouts.map Timeout.id := List.mem_map_of_mem hmem
      rw [h] at this
      simpa using this

theorem wf_scheduleReconnect {s : State} (h : Wf s) : Wf (scheduleReconnect s) where
  timers := by
    simp only [scheduleReconnect, clearTimeout_eq_nil h.timers]
    rfl
  current := h.current
  superseded := h.superseded
  peer := h.peer
  started := h.started
  generation := h.generation

theorem wf_stopKeepalive {s : State} (h : Wf s) : Wf (stopKeepalive s) :=
  ⟨⟨h.timers, h.current, h.superseded, h.peer, h.started⟩, h.generation⟩

/-- Changes of a peer that keep the socket it belongs to. -/
theorem wf_modifyPeer {s : State} (h : Wf s) {p : Nat} {f : Peer → Peer}
    (hf : (f (s.peers p)).socket = (s.peers p).socket) : Wf (modifyPeer s p f) := by
  have hsock := socket_modifyPeer hf
  refine ⟨⟨h.timers, h.current, h.superseded, h.peer, ?_⟩, ?_⟩
  · intro j hj
    rw [hsock]
    exact h.started j hj
  · intro j k hj hk hc
    rw [hsock]
    exact h.generation j k hj hk hc

/-- Changes of a socket that keep its handlers and leave it as it is or
close it. -/
theorem wf_modifySocket {s : State} (h : Wf s) {k : Nat} {f : Socket → Socket}
    (hh : (f (s.sockets k)).handlers = (s.sockets k).handlers)
    (hr : (f (s.sockets k)).readyState = (s.sockets k).readyState
      ∨ (f (s.sockets k)).readyState = .closed) : Wf (modifySocket s k f) := by
  have hhandlers : ∀ j, ((modifySocket s k f).sockets j).handlers
      = (s.sockets j).handlers := by
    intro j
    rw [sockets_modifySocket]
    split
    · rename_i hj
      rw [hh, hj]
    · rfl
  have hready : ∀ j, ((modifySocket s k f).sockets j).readyState
        = (s.sockets j).readyState
      ∨ ((modifySocket s k f).sockets j).readyState = .closed := by
    intro j
    rw [sockets_modifySocket]
    split
    · rename_i hj
      rw [hj]
      exact hr
    · exact Or.inl rfl
  refine ⟨⟨h.timers, ?_, ?_, h.peer, ?_⟩, ?_⟩
  · intro j hj
    obtain ⟨hlt, hon, hopen⟩ := h.current j hj
    refine ⟨hlt, (hhandlers j).trans hon, ?_⟩
    rcases hready j with heq | heq <;> rw [heq]
    · exact hopen
    · decide
  · intro j hj hne
    obtain ⟨hoff, hclosed⟩ := h.superseded j hj hne
    refine ⟨(hhandlers j).trans hoff, ?_⟩
    rcases hready j with heq | heq
    · rw [heq]
      exact hclosed
    · exact Or.inr heq
  · intro q hq
    obtain ⟨j, hj, hlt, hne⟩ := h.started q hq
    refine ⟨j, hj, hlt, ?_⟩
    rcases hready j with heq | heq <;> rw [heq]
    · exact hne
    · decide
  · intro q j hq hj hopen
    rcases hready j with heq | heq <;> rw [heq] at hopen
    · exact h.generation q j hq hj hopen
    · cases hopen

/-- The timer that fires was the only one. -/
theorem eraseIdx_eq_nil {s : State} (h : Core s) {i : Nat} {t : Timeout}
    (ht : s.timeouts[i]? = some t) : s.timeouts.eraseIdx i = [] := by
  have hlen : s.timeouts.length ≤ 1 := by
    rw [← List.length_map (f := Timeout.id), h.timers]
    cases s.reconnectTimer <;> simp
  obtain ⟨hi, -⟩ := List.getElem?_eq_some_iff.mp ht
  have hlen' := List.length_eraseIdx_of_lt hi
  exact List.length_eq_zero_iff.mp (by omega)

/-! ## Replacing the socket -/

/-- What the old socket becomes. -/
theorem supersede_apply (ws : Option Nat) (sockets : Nat → Socket) (j : Nat) :
    supersede ws sockets j
      = if ws = some j then (sockets j).supersede else sockets j := by
  unfold supersede
  cases ws with
  | none => rfl
  | some k =>
      show Function.update sockets k (sockets k).supersede j = _
      rw [Function.update_apply]
      by_cases hj : j = k
      · subst hj
        simp
      · rw [if_neg hj, if_neg fun h => hj (Option.some.inj h).symm]

theorem sockets_connectWs (s : State) (j : Nat) :
    (connectWs s).sockets j
      = if j = s.nextSocket then .fresh else supersede s.ws s.sockets j := by
  simp only [connectWs, stopKeepalive, Function.update_apply]

theorem wf_connectWs {s : State} (h : Wf s) : Wf (connectWs s) := by
  have hold : ∀ j, j < s.nextSocket →
      (connectWs s).sockets j = supersede s.ws s.sockets j := by
    intro j hj
    rw [sockets_connectWs, if_neg (Nat.ne_of_lt hj)]
  have hnew : (connectWs s).sockets s.nextSocket = .fresh := by
    rw [sockets_connectWs, if_pos rfl]
  refine ⟨⟨?_, ?_, ?_, h.peer, ?_⟩, ?_⟩
  · simp only [connectWs, stopKeepalive, clearTimeout_eq_nil h.timers]
    rfl
  · intro k hk
    have hk : k = s.nextSocket := (Option.some.inj hk).symm
    rw [hk, hnew]
    exact ⟨Nat.lt_succ_self _, rfl, by decide⟩
  · intro k hk hne
    have hlt : k < s.nextSocket :=
      Nat.lt_of_le_of_ne (Nat.le_of_lt_succ hk) fun heq => hne (heq ▸ rfl)
    rw [hold k hlt, supersede_apply]
    split
    · refine ⟨rfl, ?_⟩
      unfold Socket.supersede
      dsimp only
      split
      · exact Or.inr rfl
      · exact Or.inl rfl
    · rename_i hws
      exact h.superseded k hlt hws
  · intro p hp
    obtain ⟨k, hk, hlt, hne⟩ := h.started p hp
    refine ⟨k, hk, Nat.lt_succ_of_lt hlt, ?_⟩
    rw [hold k hlt, supersede_apply]
    split
    · unfold Socket.supersede
      dsimp only
      split <;> decide
    · exact hne
  · intro p k hp hk hopen
    have hk : k = s.nextSocket := (Option.some.inj hk).symm
    rw [hk, hnew] at hopen
    cases hopen

/-! ## Starting a peer -/

theorem wf_startConnection {s : State} {k : Nat} (h : Core s) (hws : s.ws = some k)
    (hready : (s.sockets k).readyState ≠ .connecting) : Wf (startConnection s) := by
  unfold startConnection
  refine Wf.of_erase ?_ (erase_handleDescription _)
  refine ⟨⟨h.timers, h.current, h.superseded, ?_, ?_⟩, ?_⟩
  · intro p hp
    obtain rfl := Option.some.inj hp
    exact Nat.lt_succ_self _
  · intro p hp
    dsimp only
    rw [Function.update_apply]
    split
    · exact ⟨k, hws, (h.current k hws).1, hready⟩
    · rename_i hne
      exact h.started p (Nat.lt_of_le_of_ne (Nat.le_of_lt_succ hp) hne)
  · intro p j hp hj _
    obtain rfl := Option.some.inj hp
    dsimp only
    rw [Function.update_self]
    exact hj

theorem core_open {s : State} {k : Nat} (h : Core s) (hws : s.ws = some k) :
    Core (modifySocket s k fun j => { j with readyState := .opened }) := by
  refine ⟨h.timers, ?_, ?_, h.peer, ?_⟩
  · intro j hj
    obtain ⟨hlt, hon, hopen⟩ := h.current j hj
    rw [sockets_modifySocket]
    split
    · rename_i heq
      subst heq
      exact ⟨hlt, hon, by simp⟩
    · exact ⟨hlt, hon, hopen⟩
  · intro j hj hne
    have hjk : j ≠ k := by
      rintro rfl
      exact hne hws
    rw [sockets_modifySocket, if_neg hjk]
    exact h.superseded j hj hne
  · intro p hp
    obtain ⟨j, hj, hlt, hne⟩ := h.started p hp
    refine ⟨j, hj, hlt, ?_⟩
    rw [sockets_modifySocket]
    split
    · nofun
    · exact hne

/-! ## The events that are not negotiation -/

theorem timer_eq_some {s s' : State} {i : Nat} (h : step s (.timer i) = some s') :
    ∃ t, s.timeouts[i]? = some t ∧ t.due ≤ s.now ∧ s' = connectWs { s with
      timeouts := s.timeouts.eraseIdx i, reconnectTimer := none } := by
  simp only [step] at h
  split at h
  · rename_i t ht
    rw [Option.ite_none_right_eq_some] at h
    exact ⟨t, ht, h.1, (Option.some.inj h.2).symm⟩
  · cases h

/-- Only the current socket opens. -/
theorem socketOpen_eq_some {s s' : State} {k : Nat} (hwf : Core s)
    (h : step s (.socketOpen k) = some s') :
    s.ws = some k ∧ (s.sockets k).readyState = .connecting
      ∧ s' = onOpen (modifySocket s k fun j => { j with readyState := .opened }) := by
  simp only [step, Option.ite_none_right_eq_some] at h
  obtain ⟨⟨hlt, hconn⟩, h⟩ := h
  have hws : s.ws = some k := by
    refine Decidable.byContradiction fun hne => ?_
    obtain ⟨-, hc | hc⟩ := hwf.superseded k hlt hne <;> rw [hconn] at hc <;> cases hc
  refine ⟨hws, hconn, ?_⟩
  obtain rfl := Option.some.inj h
  rw [if_pos]
  rw [sockets_modifySocket, if_pos rfl]
  exact (hwf.current k hws).2.1

/-- An error of the current socket is handled, of any other it is not. -/
theorem socketError_eq_some {s s' : State} {k : Nat} (hwf : Core s)
    (h : step s (.socketError k) = some s') :
    (s.ws = some k
        ∧ s' = onError (modifySocket s k fun j => { j with errored := true }))
      ∨ (s.ws ≠ some k
        ∧ s' = modifySocket s k fun j => { j with errored := true }) := by
  simp only [step, Option.ite_none_right_eq_some] at h
  obtain ⟨⟨hlt, -⟩, h⟩ := h
  obtain rfl := Option.some.inj h
  rw [sockets_modifySocket, if_pos rfl]
  by_cases hws : s.ws = some k
  · exact Or.inl ⟨hws, if_pos (hwf.current k hws).2.1⟩
  · refine Or.inr ⟨hws, if_neg ?_⟩
    dsimp only
    rw [(hwf.superseded k hlt hws).1]
    exact Bool.false_ne_true

theorem socketClose_eq_some {s s' : State} {k : Nat} (hwf : Core s)
    (h : step s (.socketClose k) = some s') :
    (s.ws = some k
        ∧ s' = stopKeepalive (modifySocket s k fun j => { j with readyState := .closed }))
      ∨ (s.ws ≠ some k
        ∧ s' = modifySocket s k fun j => { j with readyState := .closed }) := by
  simp only [step, Option.ite_none_right_eq_some] at h
  obtain ⟨⟨hlt, -⟩, h⟩ := h
  obtain rfl := Option.some.inj h
  rw [sockets_modifySocket, if_pos rfl]
  by_cases hws : s.ws = some k
  · exact Or.inl ⟨hws, if_pos (hwf.current k hws).2.1⟩
  · refine Or.inr ⟨hws, if_neg ?_⟩
    dsimp only
    rw [(hwf.superseded k hlt hws).1]
    exact Bool.false_ne_true

/-- `this.peer` and what was buffered for it are dropped. -/
def dropPeer (s : State) : State :=
  { resetDescription { s with peer := none } with candidates := [], wasRemote := false }

/-- The current peer has failed, or nothing happens. -/
theorem onConnectionStateChange_cases (s : State) :
    (∃ p, s.peer = some p ∧ (s.peers p).connectionState = .failed
        ∧ onConnectionStateChange s = scheduleReconnect (dropPeer (modifyPeer s p fun q =>
            { q with connectionState := .closed, reported := true })))
      ∨ ((∀ p, s.peer = some p → (s.peers p).connectionState ≠ .failed)
        ∧ onConnectionStateChange s = s) := by
  unfold onConnectionStateChange
  cases hp : s.peer with
  | none => exact Or.inr ⟨nofun, rfl⟩
  | some p =>
      dsimp only
      split
      · rename_i hf
        exact Or.inl ⟨p, rfl, hf, rfl⟩
      · rename_i hf
        refine Or.inr ⟨fun q hq => ?_, rfl⟩
        obtain rfl := Option.some.inj hq
        exact hf

/-- The state of the client that `onopen` of a channel changes, and the rest. -/
theorem onChannelOpen_cases (s : State) (p : Nat) (label : Label) :
    ∃ channel resolve wasConnected resolved reconnects,
      onChannelOpen s p label
        = { modifyPeer s p fun q => { q with channelsCount := q.channelsCount + 1 } with
          channel := channel, resolve := resolve, wasConnected := wasConnected
          resolved := resolved, reconnects := reconnects } := by
  unfold onChannelOpen
  dsimp only
  split
  · split
    · split <;> exact ⟨_, _, _, _, _, rfl⟩
    · split <;> exact ⟨_, _, _, _, _, rfl⟩
  · exact ⟨_, _, _, _, _, rfl⟩

/-! ## One step -/

/-- The socket that opens. -/
def openedSocket : Event → Option Nat
  | .socketOpen k => some k
  | _ => none

/-- What a step does outside the negotiation. -/
inductive Acts (s : State) : Event → State → Prop where
  | kept {e : Event} {s' : State} (he : negotiates e = true) (h : erase s' = erase s) :
      Acts s e s'
  | passed {e : Event} (now : Nat) (net : Net)
      (hnet : net = s.net ∨ ∃ ne, Net.step s.net ne = some net) :
      Acts s e { s with now := now, net := net }
  | renewed {e : Event} (resolve : Bool) (timer : Option Nat) (timeouts : List Timeout)
      (delay : Nat) (h : timeouts.map Timeout.id = timer.toList) :
      Acts s e (connectWs { s with
        resolve := resolve, reconnectTimer := timer, timeouts := timeouts
        reconnectDelay := delay })
  | opened {k : Nat} (hws : s.ws = some k)
      (hconn : (s.sockets k).readyState = .connecting) :
      Acts s (.socketOpen k)
        (onOpen (modifySocket s k fun j => { j with readyState := .opened }))
  | erred {k : Nat} (hws : s.ws = some k) :
      Acts s (.socketError k)
        (onError (modifySocket s k fun j => { j with errored := true }))
  | erredOld {k : Nat} (hws : s.ws ≠ some k) :
      Acts s (.socketError k) (modifySocket s k fun j => { j with errored := true })
  | closed {k : Nat} (hws : s.ws = some k) :
      Acts s (.socketClose k)
        (stopKeepalive (modifySocket s k fun j => { j with readyState := .closed }))
  | closedOld {k : Nat} (hws : s.ws ≠ some k) :
      Acts s (.socketClose k) (modifySocket s k fun j => { j with readyState := .closed })
  | failed {p q : Nat} {st : ConnectionState} (hq : s.peer = some q)
      (hfailed : ((modifyPeer s p fun q => { q with connectionState := st }).peers
        q).connectionState = .failed) :
      Acts s (.connectionState p st) (scheduleReconnect (dropPeer
        (modifyPeer (modifyPeer s p fun q => { q with connectionState := st }) q fun q =>
          { q with connectionState := .closed, reported := true })))
  | changed {p : Nat} {st : ConnectionState}
      (h : ∀ q, s.peer = some q →
        ((modifyPeer s p fun q => { q with connectionState := st }).peers
          q).connectionState ≠ .failed) :
      Acts s (.connectionState p st)
        (modifyPeer s p fun q => { q with connectionState := st })
  | announced {p : Nat} {label : Label} (habs : (s.peers p).channels label = .absent) :
      Acts s (.dataChannel p label)
        (modifyPeer s p fun q => q.setChannel label .connecting)
  | channelOpened {p : Nat} {label : Label} {channel : Option Nat}
      {resolve wasConnected : Bool} {resolved reconnects : Nat}
      (hconn : (s.peers p).channels label = .connecting) :
      Acts s (.channelOpen p label) { modifyPeer s p fun q =>
          { q.setChannel label .opened with channelsCount := q.channelsCount + 1 } with
        channel := channel, resolve := resolve, wasConnected := wasConnected
        resolved := resolved, reconnects := reconnects }
  | channelClosed {p : Nat} {label : Label} :
      Acts s (.channelClose p label) (onChannelEnd (modifyPeer s p fun q =>
        { q.setChannel label .closed with reported := true }) label)
  | channelErred {p : Nat} {label : Label} :
      Acts s (.channelError p label)
        (onChannelEnd (modifyPeer s p fun q => { q with reported := true }) label)

theorem modifyPeer_modifyPeer (s : State) (p : Nat) (f g : Peer → Peer) :
    modifyPeer (modifyPeer s p f) p g = modifyPeer s p fun q => g (f q) := by
  simp only [modifyPeer, Function.update_self, Function.update_idem]

theorem acts_of_step {s s' : State} {e : Event} (hwf : Core s)
    (h : step s e = some s') : Acts s e s' := by
  by_cases hneg : negotiates e = true
  · exact .kept hneg (erase_step hneg h)
  cases e with
  | elapse ms =>
      obtain rfl := Option.some.inj h
      exact .passed _ s.net (Or.inl rfl)
  | connect =>
      obtain rfl := Option.some.inj h
      exact .renewed true s.reconnectTimer s.timeouts s.reconnectDelay hwf.timers
  | forceReconnect =>
      obtain rfl := Option.some.inj h
      refine .renewed s.resolve none _ 1000 ?_
      rw [clearTimeout_eq_nil hwf.timers]
      rfl
  | timer i =>
      obtain ⟨t, ht, -, rfl⟩ := timer_eq_some h
      refine .renewed s.resolve none _ s.reconnectDelay ?_
      rw [eraseIdx_eq_nil hwf ht]
      rfl
  | socketOpen k =>
      obtain ⟨hws, hconn, rfl⟩ := socketOpen_eq_some hwf h
      exact .opened hws hconn
  | socketError k =>
      rcases socketError_eq_some hwf h with ⟨hws, rfl⟩ | ⟨hws, rfl⟩
      · exact .erred hws
      · exact .erredOld hws
  | socketClose k =>
      rcases socketClose_eq_some hwf h with ⟨hws, rfl⟩ | ⟨hws, rfl⟩
      · exact .closed hws
      · exact .closedOld hws
  | connectionState p st =>
      simp only [step, Option.ite_none_right_eq_some] at h
      obtain rfl := Option.some.inj h.2
      rcases onConnectionStateChange_cases (modifyPeer s p fun q =>
          { q with connectionState := st }) with ⟨q, hq, hf, heq⟩ | ⟨hne, heq⟩ <;> rw [heq]
      · exact .failed hq hf
      · exact .changed hne
  | dataChannel p label =>
      simp only [step, Option.ite_none_right_eq_some] at h
      obtain ⟨⟨-, habs⟩, h⟩ := h
      obtain rfl := Option.some.inj h
      exact .announced habs
  | channelOpen p label =>
      simp only [step, Option.ite_none_right_eq_some] at h
      obtain ⟨hconn, h⟩ := h
      obtain rfl := Option.some.inj h
      obtain ⟨_, _, _, _, _, heq⟩ := onChannelOpen_cases
        (modifyPeer s p fun q => q.setChannel label .opened) p label
      rw [heq, modifyPeer_modifyPeer]
      exact .channelOpened hconn
  | channelClose p label =>
      simp only [step, Option.ite_none_right_eq_some] at h
      obtain rfl := Option.some.inj h.2
      exact .channelClosed
  | channelError p label =>
      simp only [step, Option.ite_none_right_eq_some] at h
      obtain rfl := Option.some.inj h.2
      exact .channelErred
  | channelMessage p label data =>
      simp only [step, Option.ite_none_right_eq_some] at h
      obtain rfl := Option.some.inj h.2
      cases label with
      | read => exact .passed s.now s.net (Or.inl rfl)
      | write => exact .passed s.now _ (Or.inr ⟨.message s.now data, rfl⟩)
  | converted i =>
      obtain ⟨net, hnet, rfl⟩ := Option.map_eq_some_iff.mp h
      exact .passed s.now net (Or.inr ⟨.converted i, hnet⟩)
  | dequeue =>
      obtain ⟨net, hnet, rfl⟩ := Option.map_eq_some_iff.mp h
      exact .passed s.now net (Or.inr ⟨.dequeue, hnet⟩)
  | _ => exact absurd rfl hneg

/-! ## Every step keeps them -/

theorem wf_onOpen {s : State} {k : Nat} (h : Core s) (hws : s.ws = some k) :
    Wf (onOpen (modifySocket s k fun j => { j with readyState := .opened })) := by
  have hc := core_open h hws
  refine wf_startConnection (k := k) ?_ hws ?_
  · exact ⟨hc.timers, hc.current, hc.superseded, hc.peer, hc.started⟩
  · have hopened : ((modifySocket s k fun j =>
        { j with readyState := .opened }).sockets k).readyState = .opened := by
      rw [sockets_modifySocket, if_pos rfl]
    intro hconn
    have := hopened.symm.trans hconn
    cases this

theorem wf_dropPeer {s : State} (h : Wf s) : Wf (dropPeer s) :=
  ⟨⟨h.timers, h.current, h.superseded, nofun, h.started⟩, nofun⟩

theorem wf_onChannelEnd {s : State} (h : Wf s) (label : Label) :
    Wf (onChannelEnd s label) := by
  refine wf_scheduleReconnect ?_
  exact ⟨⟨h.timers, h.current, h.superseded, h.peer, h.started⟩, h.generation⟩

theorem wf_step {s s' : State} {e : Event} (hwf : Wf s)
    (h : step s e = some s') : Wf s' := by
  cases acts_of_step hwf.toCore h with
  | kept he heq => exact hwf.of_erase heq
  | passed now net =>
      exact ⟨⟨hwf.timers, hwf.current, hwf.superseded, hwf.peer, hwf.started⟩,
        hwf.generation⟩
  | renewed resolve timer timeouts delay ht =>
      refine wf_connectWs ?_
      exact ⟨⟨ht, hwf.current, hwf.superseded, hwf.peer, hwf.started⟩, hwf.generation⟩
  | opened hws hconn => exact wf_onOpen hwf.toCore hws
  | erred hws =>
      rename_i k
      have hm : Wf (modifySocket s k fun j => { j with errored := true }) :=
        wf_modifySocket hwf rfl (Or.inl rfl)
      exact wf_scheduleReconnect (wf_stopKeepalive hm)
  | erredOld hws => exact wf_modifySocket hwf rfl (Or.inl rfl)
  | closed hws =>
      rename_i k
      have hm : Wf (modifySocket s k fun j => { j with readyState := .closed }) :=
        wf_modifySocket hwf rfl (Or.inr rfl)
      exact wf_stopKeepalive hm
  | closedOld hws => exact wf_modifySocket hwf rfl (Or.inr rfl)
  | failed hq hfailed =>
      rename_i p q st
      have hm : Wf (modifyPeer s p fun q => { q with connectionState := st }) :=
        wf_modifyPeer hwf rfl
      exact wf_scheduleReconnect (wf_dropPeer (wf_modifyPeer hm rfl))
  | changed hne => exact wf_modifyPeer hwf rfl
  | announced habs => exact wf_modifyPeer hwf rfl
  | channelOpened hconn =>
      rename_i p label _ _ _ _ _
      have hm : Wf (modifyPeer s p fun q =>
          { q.setChannel label .opened with channelsCount := q.channelsCount + 1 }) :=
        wf_modifyPeer hwf rfl
      exact ⟨⟨hm.timers, hm.current, hm.superseded, hm.peer, hm.started⟩, hm.generation⟩
  | channelClosed => exact wf_onChannelEnd (wf_modifyPeer hwf rfl) _
  | channelErred => exact wf_onChannelEnd (wf_modifyPeer hwf rfl) _

/-! ## The queue -/

/-- The client drives its packet queue through `Net.step`, and by nothing but
the `write` channel, the conversions and the engine. -/
theorem net_step {s s' : State} {e : Event} (hc : Core s) (h : step s e = some s') :
    s'.net = s.net ∨ ∃ ne, Net.step s.net ne = some s'.net := by
  cases acts_of_step hc h with
  | kept he heq =>
      refine Or.inl ?_
      show (erase s').net = (erase s).net
      rw [heq]
  | passed now net hnet => exact hnet
  | opened hws hconn =>
      refine Or.inl ?_
      show (erase (onOpen _)).net = s.net
      rw [erase_onOpen]
      rfl
  | _ => exact Or.inl rfl

theorem run_net (onReconnected : Bool) {maxPackets : Nat} (pos : 0 < maxPackets)
    {es : List Event} {s : State}
    (h : run step (init onReconnected maxPackets pos) es = some s) :
    ∃ nes, run Net.step (.init maxPackets pos) nes = some s.net := by
  have hI := run_invariant (I := fun s => Wf s
    ∧ ∃ nes, run Net.step (.init maxPackets pos) nes = some s.net)
    ?_ h ⟨wf_init onReconnected pos, [], rfl⟩
  · exact hI.2
  · rintro s e s' ⟨hwf, nes, hr⟩ he
    refine ⟨wf_step hwf he, ?_⟩
    rcases net_step hwf.toCore he with hsame | ⟨ne, hne⟩
    · exact ⟨nes, hsame ▸ hr⟩
    · refine ⟨nes ++ [ne], ?_⟩
      exact run_append_eq_some.mpr ⟨s.net, hr, run_cons_eq_some.mpr ⟨s'.net, hne, rfl⟩⟩

end Transport

end XashProxy
