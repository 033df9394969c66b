import XashProxy.TransportActs

/-!
# Sockets, timers and the keepalive

The handlers of the client call `scheduleReconnect`, `connectWs` and the two
keepalive functions in every order. `signals_of_step` says what an event does
to what these own; `Disciplined` is what they keep between them.
-/

namespace XashProxy

namespace Transport

open Lts

/-! ## Reports and renewals -/

/-- The state of this.peer is `failed` once peer `p` has changed to `st`. -/
def peerFails (s : State) (p : Nat) (st : ConnectionState) : Bool :=
  match s.peer with
  | some q => decide ((if q = p then st else (s.peers q).connectionState) = .failed)
  | none => false

/-- The event calls `scheduleReconnect`. -/
def reports (s : State) : Event → Bool
  | .socketError k => (s.sockets k).handlers
  | .connectionState p st => peerFails s p st
  | .channelClose .. | .channelError .. => true
  | _ => false

/-- The event calls `connectWs`. -/
def renews : Event → Bool
  | .connect | .forceReconnect | .timer _ => true
  | _ => false

/-- An open, error or close event of the current socket. -/
def ofSocket (s : State) : Event → Bool
  | .socketOpen k | .socketError k | .socketClose k => decide (s.ws = some k)
  | _ => false

/-- Neither a socket nor a timer is touched. -/
structure Rests (s s' : State) : Prop where
  ws : s'.ws = s.ws
  nextSocket : s'.nextSocket = s.nextSocket
  timeouts : s'.timeouts = s.timeouts
  reconnectDelay : s'.reconnectDelay = s.reconnectDelay
  keepaliveTimer : s'.keepaliveTimer = s.keepaliveTimer
  intervals : s'.intervals = s.intervals

/-- `scheduleReconnect` is called: its timeout is the only one. -/
structure Schedules (s s' : State) : Prop where
  ws : s'.ws = s.ws
  nextSocket : s'.nextSocket = s.nextSocket
  timeouts : s'.timeouts = [⟨s.nextTimer, s.now + s.reconnectDelay⟩]
  reconnectDelay : s'.reconnectDelay = min (s.reconnectDelay * 2) 30000

/-- The keepalive is stopped. -/
structure Stops (s s' : State) : Prop where
  keepaliveTimer : s'.keepaliveTimer = none
  intervals : s'.intervals = clearInterval s.keepaliveTimer s.intervals

/-- Nothing that `scheduleReconnect` or the keepalive reads is touched. -/
structure SameTimers (s u : State) : Prop extends Rests s u where
  reconnectTimer : u.reconnectTimer = s.reconnectTimer
  nextTimer : u.nextTimer = s.nextTimer
  now : u.now = s.now

/-- `connectWs` is called: no timer is left, and the new socket is current. -/
structure Renews (s : State) (e : Event) (s' : State) : Prop extends Stops s s' where
  ws : s'.ws = some s.nextSocket
  nextSocket : s'.nextSocket = s.nextSocket + 1
  timeouts : s'.timeouts = []
  reconnectDelay : s'.reconnectDelay
    = if e = .forceReconnect then 1000 else s.reconnectDelay

/-- The current socket opens: `startKeepalive`, with the delay reset. -/
structure Opens (s s' : State) : Prop where
  ws : s'.ws = s.ws
  nextSocket : s'.nextSocket = s.nextSocket
  timeouts : s'.timeouts = s.timeouts
  reconnectDelay : s'.reconnectDelay = 1000
  keepalive : ∃ id, s'.keepaliveTimer = some id
    ∧ s'.intervals = clearInterval s.keepaliveTimer s.intervals ++ [id]

/-- The ways an event changes sockets and timers. -/
inductive Signals (s : State) : Event → State → Prop where
  | rests {e : Event} {s' : State} (hr : reports s e = false) (hn : renews e = false)
      (ho : ofSocket s e = false) (h : Rests s s') : Signals s e s'
  | reported {e : Event} {s' : State} (hr : reports s e = true) (hn : renews e = false)
      (ho : ofSocket s e = false) (h : Schedules s s')
      (hkeepalive : s'.keepaliveTimer = s.keepaliveTimer ∧ s'.intervals = s.intervals) :
      Signals s e s'
  | renewed {e : Event} {s' : State} (hn : renews e = true) (h : Renews s e s') :
      Signals s e s'
  | opened {k : Nat} {s' : State} (hws : s.ws = some k) (h : Opens s s') :
      Signals s (.socketOpen k) s'
  | erred {k : Nat} {s' : State} (hws : s.ws = some k)
      (hr : reports s (.socketError k) = true) (h : Schedules s s') (hstop : Stops s s') :
      Signals s (.socketError k) s'
  | closed {k : Nat} {s' : State} (hws : s.ws = some k) (hnext : s'.nextSocket = s.nextSocket)
      (hcur : s'.ws = s.ws) (htimeouts : s'.timeouts = s.timeouts)
      (hdelay : s'.reconnectDelay = s.reconnectDelay) (hstop : Stops s s') :
      Signals s (.socketClose k) s'

theorem peerFails_iff {s : State} {p : Nat} {st : ConnectionState} :
    peerFails s p st = true ↔ ∃ q, s.peer = some q
      ∧ ((modifyPeer s p fun q => { q with connectionState := st }).peers
        q).connectionState = .failed := by
  have hstate : ∀ q, ((modifyPeer s p fun q => { q with connectionState := st }).peers
      q).connectionState = if q = p then st else (s.peers q).connectionState := by
    intro q
    rw [peers_modifyPeer]
    split <;> rfl
  unfold peerFails
  cases hp : s.peer with
  | none => simp
  | some q => simp [hstate]

theorem rests_of_erase {s s' : State} (h : erase s' = erase s) : Rests s s' where
  ws := (congrArg State.ws h :)
  nextSocket := (congrArg State.nextSocket h :)
  timeouts := (congrArg State.timeouts h :)
  reconnectDelay := (congrArg State.reconnectDelay h :)
  keepaliveTimer := (congrArg State.keepaliveTimer h :)
  intervals := (congrArg State.intervals h :)

theorem schedules_scheduleReconnect {s u : State} (hc : Core s)
    (hu : u.timeouts = s.timeouts ∧ u.reconnectTimer = s.reconnectTimer)
    (hs : u.ws = s.ws ∧ u.nextSocket = s.nextSocket ∧ u.nextTimer = s.nextTimer
      ∧ u.now = s.now ∧ u.reconnectDelay = s.reconnectDelay) :
    Schedules s (scheduleReconnect u) := by
  obtain ⟨hws, hnext, htimer, hnow, hdelay⟩ := hs
  refine ⟨hws, hnext, ?_, ?_⟩
  · simp only [scheduleReconnect, hu.1, hu.2, clearTimeout_eq_nil hc.timers, List.nil_append,
      htimer, hnow, hdelay]
  · simp only [scheduleReconnect, hdelay]

theorem SameTimers.refl (s : State) : SameTimers s s :=
  ⟨⟨rfl, rfl, rfl, rfl, rfl, rfl⟩, rfl, rfl, rfl⟩

theorem SameTimers.modifyPeer {s u : State} (h : SameTimers s u) (p : Nat)
    (f : Peer → Peer) : SameTimers s (modifyPeer u p f) :=
  ⟨⟨h.ws, h.nextSocket, h.timeouts, h.reconnectDelay, h.keepaliveTimer, h.intervals⟩,
    h.reconnectTimer, h.nextTimer, h.now⟩

theorem SameTimers.dropPeer {s u : State} (h : SameTimers s u) :
    SameTimers s (dropPeer u) :=
  ⟨⟨h.ws, h.nextSocket, h.timeouts, h.reconnectDelay, h.keepaliveTimer, h.intervals⟩,
    h.reconnectTimer, h.nextTimer, h.now⟩

theorem SameTimers.setChannel {s u : State} (h : SameTimers s u)
    (channel : Option Nat) : SameTimers s { u with channel := channel } :=
  ⟨⟨h.ws, h.nextSocket, h.timeouts, h.reconnectDelay, h.keepaliveTimer, h.intervals⟩,
    h.reconnectTimer, h.nextTimer, h.now⟩

theorem SameTimers.reported {s u : State} {e : Event} (h : SameTimers s u) (hc : Core s)
    (hr : reports s e = true) (hn : renews e = false) (ho : ofSocket s e = false) :
    Signals s e (scheduleReconnect u) :=
  .reported hr hn ho
    (schedules_scheduleReconnect hc ⟨h.timeouts, h.reconnectTimer⟩
      ⟨h.ws, h.nextSocket, h.nextTimer, h.now, h.reconnectDelay⟩)
    ⟨h.keepaliveTimer, h.intervals⟩

theorem renews_connectWs {s u : State} {e : Event}
    (hu : clearTimeout u.reconnectTimer u.timeouts = [])
    (hs : u.ws = s.ws ∧ u.nextSocket = s.nextSocket ∧ u.keepaliveTimer = s.keepaliveTimer
      ∧ u.intervals = s.intervals)
    (hdelay : u.reconnectDelay = if e = .forceReconnect then 1000 else s.reconnectDelay) :
    Renews s e (connectWs u) := by
  obtain ⟨hws, hnext, hkeepalive, hintervals⟩ := hs
  refine ⟨⟨rfl, ?_⟩, ?_, ?_, ?_, hdelay⟩
  · simp only [connectWs, stopKeepalive, hkeepalive, hintervals]
  · simp only [connectWs, stopKeepalive, hnext]
  · simp only [connectWs, stopKeepalive, hnext]
  · simp only [connectWs, stopKeepalive, hu]

theorem opens_onOpen (s : State) : Opens s (onOpen s) := by
  have heq := erase_onOpen s
  exact ⟨(congrArg State.ws heq :), (congrArg State.nextSocket heq :), timeouts_onOpen s,
    (congrArg State.reconnectDelay heq :), s.nextTimer,
    (congrArg State.keepaliveTimer heq :), (congrArg State.intervals heq :)⟩

theorem signals_of_step {s s' : State} {e : Event} (hc : Core s)
    (h : step s e = some s') : Signals s e s' := by
  by_cases hneg : negotiates e = true
  · have hrests := rests_of_erase (erase_step hneg h)
    cases e <;> first
      | exact .rests rfl rfl rfl hrests
      | cases hneg
  cases e with
  | elapse ms =>
      obtain rfl := Option.some.inj h
      exact .rests rfl rfl rfl ⟨rfl, rfl, rfl, rfl, rfl, rfl⟩
  | connect =>
      obtain rfl := Option.some.inj h
      exact .renewed rfl (renews_connectWs (clearTimeout_eq_nil hc.timers)
        ⟨rfl, rfl, rfl, rfl⟩ rfl)
  | forceReconnect =>
      obtain rfl := Option.some.inj h
      have hnil : clearTimeout s.reconnectTimer s.timeouts = [] := clearTimeout_eq_nil hc.timers
      exact .renewed rfl (renews_connectWs hnil ⟨rfl, rfl, rfl, rfl⟩ rfl)
  | timer i =>
      obtain ⟨t, ht, -, rfl⟩ := timer_eq_some h
      exact .renewed rfl (renews_connectWs (eraseIdx_eq_nil hc ht) ⟨rfl, rfl, rfl, rfl⟩ rfl)
  | socketOpen k =>
      obtain ⟨hws, hconn, rfl⟩ := socketOpen_eq_some hc h
      have ho := opens_onOpen (modifySocket s k fun j => { j with readyState := .opened })
      exact .opened hws ⟨ho.ws, ho.nextSocket, ho.timeouts, ho.reconnectDelay, ho.keepalive⟩
  | socketError k =>
      rcases socketError_eq_some hc h with ⟨hws, rfl⟩ | ⟨hws, rfl⟩
      · refine .erred hws (hc.current k hws).2.1 ?_ ⟨rfl, rfl⟩
        exact schedules_scheduleReconnect hc ⟨rfl, rfl⟩ ⟨rfl, rfl, rfl, rfl, rfl⟩
      · refine .rests ?_ rfl (decide_eq_false hws) ⟨rfl, rfl, rfl, rfl, rfl, rfl⟩
        simp only [step, Option.ite_none_right_eq_some] at h
        exact (hc.superseded k h.1.1 hws).1
  | socketClose k =>
      rcases socketClose_eq_some hc h with ⟨hws, rfl⟩ | ⟨hws, rfl⟩
      · exact .closed hws rfl rfl rfl rfl ⟨rfl, rfl⟩
      · exact .rests rfl rfl (decide_eq_false hws) ⟨rfl, rfl, rfl, rfl, rfl, rfl⟩
  | connectionState p st =>
      simp only [step, Option.ite_none_right_eq_some] at h
      obtain rfl := Option.some.inj h.2
      have hsame := (SameTimers.refl s).modifyPeer p fun q => { q with connectionState := st }
      rcases onConnectionStateChange_cases (modifyPeer s p fun q =>
          { q with connectionState := st }) with ⟨q, hq, hf, heq⟩ | ⟨hne, heq⟩ <;> rw [heq]
      · exact (hsame.modifyPeer q _).dropPeer.reported hc (peerFails_iff.mpr ⟨q, hq, hf⟩) rfl rfl
      · refine .rests ?_ rfl rfl hsame.toRests
        refine Bool.eq_false_iff.mpr fun hr => ?_
        obtain ⟨q, hq, hf⟩ := peerFails_iff.mp hr
        exact hne q hq hf
  | dataChannel p label =>
      simp only [step, Option.ite_none_right_eq_some] at h
      obtain rfl := Option.some.inj h.2
      exact .rests rfl rfl rfl ⟨rfl, rfl, rfl, rfl, rfl, rfl⟩
  | channelOpen p label =>
      simp only [step, Option.ite_none_right_eq_some] at h
      obtain rfl := Option.some.inj h.2
      obtain ⟨_, _, _, _, _, heq⟩ := onChannelOpen_cases
        (modifyPeer s p fun q => q.setChannel label .opened) p label
      rw [heq]
      exact .rests rfl rfl rfl ⟨rfl, rfl, rfl, rfl, rfl, rfl⟩
  | channelClose p label =>
      simp only [step, Option.ite_none_right_eq_some] at h
      obtain rfl := Option.some.inj h.2
      exact (((SameTimers.refl s).modifyPeer p _).setChannel _).reported hc rfl rfl rfl
  | channelError p label =>
      simp only [step, Option.ite_none_right_eq_some] at h
      obtain rfl := Option.some.inj h.2
      exact (((SameTimers.refl s).modifyPeer p _).setChannel _).reported hc rfl rfl rfl
  | channelMessage p label data =>
      simp only [step, Option.ite_none_right_eq_some] at h
      obtain rfl := Option.some.inj h.2
      cases label <;> exact .rests rfl rfl rfl ⟨rfl, rfl, rfl, rfl, rfl, rfl⟩
  | converted i =>
      obtain ⟨net, -, rfl⟩ := Option.map_eq_some_iff.mp h
      exact .rests rfl rfl rfl ⟨rfl, rfl, rfl, rfl, rfl, rfl⟩
  | dequeue =>
      obtain ⟨net, -, rfl⟩ := Option.map_eq_some_iff.mp h
      exact .rests rfl rfl rfl ⟨rfl, rfl, rfl, rfl, rfl, rfl⟩
  | _ => exact absurd rfl hneg

/-! ## The discipline -/

/-- What the events of a run have said of the current socket, and the sockets
`close()` was called on. -/
structure SocketLog where
  /-- The current socket has opened, and has not erred or closed since. -/
  live : Bool
  closeCalled : List Nat

def SocketLog.none : SocketLog := ⟨false, []⟩

/-- A new socket supersedes the current one, which `connectWs` closes. -/
def observeSocket (s : State) (e : Event) (g : SocketLog) : SocketLog :=
  match e with
  | .connect | .forceReconnect | .timer _ => ⟨false, g.closeCalled ++ s.ws.toList⟩
  | .socketOpen k => if s.ws = some k then { g with live := true } else g
  | .socketError k | .socketClose k => if s.ws = some k then { g with live := false } else g
  | _ => g

structure Disciplined (r : State × SocketLog) : Prop where
  timeouts : r.1.timeouts.length ≤ 1
  intervals : r.1.intervals.length ≤ 1
  keepalive : r.1.intervals ≠ [] ↔ r.2.live = true
  superseded : ∀ k, k < r.1.nextSocket → r.1.ws ≠ some k →
    k ∈ r.2.closeCalled ∧ (r.1.sockets k).handlers = false
      ∧ ((r.1.sockets k).readyState = .closing ∨ (r.1.sockets k).readyState = .closed)
  delay : 1000 ≤ r.1.reconnectDelay ∧ r.1.reconnectDelay ≤ 30000

/-- `keepaliveTimer` is the only interval, and is set while the socket lives. -/
def Beats (s : State) (live : Bool) : Prop :=
  s.intervals = s.keepaliveTimer.toList ∧ s.keepaliveTimer.isSome = live

/-- What the functions keep between them. -/
structure Sockets (s : State) (g : SocketLog) : Prop where
  wf : Wf s
  keepalive : Beats s g.live
  closeCalled : ∀ k, k < s.nextSocket → s.ws ≠ some k → k ∈ g.closeCalled
  delay : 1000 ≤ s.reconnectDelay ∧ s.reconnectDelay ≤ 30000

theorem observeSocket_of_not_touched {s : State} {e : Event} (g : SocketLog)
    (hn : renews e = false) (ho : ofSocket s e = false) : observeSocket s e g = g := by
  cases e with
  | connect => cases hn
  | forceReconnect => cases hn
  | timer i => cases hn
  | socketOpen k => exact if_neg (of_decide_eq_false ho)
  | socketError k => exact if_neg (of_decide_eq_false ho)
  | socketClose k => exact if_neg (of_decide_eq_false ho)
  | _ => rfl

theorem clearInterval_eq_nil (id : Option Nat) : clearInterval id id.toList = [] := by
  cases id with
  | none => rfl
  | some id => simp [clearInterval]

theorem Beats.of_eq {s s' : State} {live : Bool} (h : Beats s live)
    (hkeep : s'.keepaliveTimer = s.keepaliveTimer) (hint : s'.intervals = s.intervals) :
    Beats s' live := by
  unfold Beats
  rw [hkeep, hint]
  exact h

/-- `stopKeepalive` finds the interval it has to clear. -/
theorem Beats.cleared {s : State} {live : Bool} (h : Beats s live) :
    clearInterval s.keepaliveTimer s.intervals = [] := by
  rw [h.1]
  exact clearInterval_eq_nil _

theorem Beats.stops {s s' : State} {live : Bool} (h : Beats s live) (hstop : Stops s s') :
    Beats s' false := by
  unfold Beats
  rw [hstop.intervals, hstop.keepaliveTimer, h.cleared]
  exact ⟨rfl, rfl⟩

theorem Beats.opens {s s' : State} {live : Bool} (h : Beats s live) (ho : Opens s s') :
    Beats s' true := by
  obtain ⟨id, hkeep, hint⟩ := ho.keepalive
  unfold Beats
  rw [hint, hkeep, h.cleared]
  exact ⟨rfl, rfl⟩

theorem sockets_init (onReconnected : Bool) {maxPackets : Nat} (pos : 0 < maxPackets) :
    Sockets (init onReconnected maxPackets pos) .none :=
  ⟨wf_init onReconnected pos, ⟨rfl, rfl⟩, fun k hk => absurd hk (Nat.not_lt_zero k),
    Nat.le_refl _, by simp [init]⟩

theorem sockets_step {s s' : State} {e : Event} {g : SocketLog} (hs : Sockets s g)
    (h : step s e = some s') : Sockets s' (observeSocket s e g) := by
  have hwf := wf_step hs.wf h
  have hsame : ∀ {g' : SocketLog}, g'.closeCalled = g.closeCalled →
      s'.ws = s.ws → s'.nextSocket = s.nextSocket →
      ∀ k, k < s'.nextSocket → s'.ws ≠ some k → k ∈ g'.closeCalled := by
    intro g' hg hws hnext k hk hne
    rw [hnext] at hk
    rw [hws] at hne
    rw [hg]
    exact hs.closeCalled k hk hne
  obtain ⟨hge, hle⟩ := hs.delay
  cases signals_of_step hs.wf.toCore h with
  | rests hr hn ho hrests =>
      rw [observeSocket_of_not_touched g hn ho]
      refine ⟨hwf, ?_, hsame rfl hrests.ws hrests.nextSocket, ?_⟩
      · exact hs.keepalive.of_eq hrests.keepaliveTimer hrests.intervals
      · rw [hrests.reconnectDelay]
        exact hs.delay
  | reported hr hn ho hsched hkeep =>
      rw [observeSocket_of_not_touched g hn ho]
      refine ⟨hwf, ?_, hsame rfl hsched.ws hsched.nextSocket, ?_⟩
      · exact hs.keepalive.of_eq hkeep.1 hkeep.2
      · rw [hsched.reconnectDelay]
        omega
  | renewed hn hrenews =>
      have hg : observeSocket s e g = ⟨false, g.closeCalled ++ s.ws.toList⟩ := by
        cases e <;> first | rfl | cases hn
      rw [hg]
      refine ⟨hwf, hs.keepalive.stops hrenews.toStops, fun k hk hne => ?_, ?_⟩
      · rw [hrenews.nextSocket] at hk
        rw [hrenews.ws] at hne
        have hlt : k < s.nextSocket :=
          Nat.lt_of_le_of_ne (Nat.le_of_lt_succ hk) fun heq => hne (heq ▸ rfl)
        -- the socket that was current is closed now, the others were before
        by_cases hcur : s.ws = some k
        · exact List.mem_append_right _ (Option.mem_toList.mpr hcur)
        · exact List.mem_append_left _ (hs.closeCalled k hlt hcur)
      · rw [hrenews.reconnectDelay]
        split <;> omega
  | @opened k s' hws hopens =>
      have hg : observeSocket s (.socketOpen k) g = { g with live := true } := if_pos hws
      rw [hg]
      refine ⟨hwf, hs.keepalive.opens hopens, hsame rfl hopens.ws hopens.nextSocket, ?_⟩
      rw [hopens.reconnectDelay]
      omega
  | @erred k s' hws hr hsched hstop =>
      have hg : observeSocket s (.socketError k) g = { g with live := false } := if_pos hws
      rw [hg]
      refine ⟨hwf, hs.keepalive.stops hstop, hsame rfl hsched.ws hsched.nextSocket, ?_⟩
      rw [hsched.reconnectDelay]
      omega
  | @closed k s' hws hnext hcur htimeouts hdelay hstop =>
      have hg : observeSocket s (.socketClose k) g = { g with live := false } := if_pos hws
      rw [hg]
      refine ⟨hwf, hs.keepalive.stops hstop, hsame rfl hcur hnext, ?_⟩
      rw [hdelay]
      exact hs.delay

theorem Sockets.disciplined {s : State} {g : SocketLog} (h : Sockets s g) :
    Disciplined (s, g) := by
  have hc := h.wf.toCore
  have hlen : s.timeouts.length = s.reconnectTimer.toList.length := by
    rw [← hc.timers, List.length_map]
  refine ⟨?_, ?_, ?_, fun k hk hne => ?_, h.delay⟩
  · show s.timeouts.length ≤ 1
    rw [hlen]
    cases s.reconnectTimer <;> simp
  · show s.intervals.length ≤ 1
    rw [h.keepalive.1]
    cases s.keepaliveTimer <;> simp
  · show s.intervals ≠ [] ↔ g.live = true
    rw [h.keepalive.1, ← h.keepalive.2]
    cases s.keepaliveTimer <;> simp
  · exact ⟨h.closeCalled k hk hne, hc.superseded k hk hne⟩

/-- In every state of every run. -/
theorem signaling_discipline (onReconnected : Bool) {maxPackets : Nat}
    (pos : 0 < maxPackets) (es : List Event) :
    Always (recorded step observeSocket) Disciplined
      (init onReconnected maxPackets pos, .none) es :=
  recorded_always Sockets.disciplined sockets_step (sockets_init onReconnected pos) es

/-- A socket opens, errs and is replaced, twice, the second time by force. The
third one is open in the end. -/
def replacedTwice : List Event :=
  [.connect, .socketOpen 0, .socketError 0, .elapse 1000, .timer 0, .socketOpen 1,
    .socketError 1, .forceReconnect, .socketClose 1, .socketOpen 2]

theorem signaling_discipline_forced :
    ∃ s, run (recorded step observeSocket) (init true 16384 (by decide), .none) replacedTwice
        = some s
      ∧ s.2.live = true ∧ s.1.intervals.length = 1
      ∧ Always (recorded step observeSocket) Disciplined
        (init true 16384 (by decide), .none) replacedTwice :=
  ⟨_, rfl, rfl, rfl, signaling_discipline true (by decide) _⟩

end Transport

end XashProxy
