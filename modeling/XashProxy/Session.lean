import XashProxy.Bridge
import Mathlib.Logic.Function.Basic

/-!
# A signaling session

A model of `handle_websocket` from the moment its callbacks are set. Four
families of tasks share the bridge holder: the WebSocket loop with its
cleanup, the two `on_open` callbacks, and the peer-state monitor. Each
`await` is a point where the others may run, so a state records how far
every one of them is, and the session's bridges are states of
`XashProxy.Bridge` that go on stepping by themselves.

What is assumed of `webrtc-rs`: a channel opens at most once, only after
the answer was applied and before the peer is closed; a peer state change
spawns one monitor callback, and these run in any order; `Closed` is
terminal and `Failed` only goes on to `Closed`; `close()` on a closed peer
does nothing.
-/

namespace XashProxy

namespace Session

open Lts

/-- The next thing `handle_websocket` does. -/
inductive Handler where
  | sendOffer
  | loop
  | cleanup
  | closePeer
  | returned
deriving DecidableEq, Repr

/-- `RTCPeerConnectionState` -/
inductive PeerState where
  | new
  | connecting
  | connected
  | disconnected
  | failed
  | closed
deriving DecidableEq, Repr

inductive ChannelState where
  | connecting
  | opened
  | closed
deriving DecidableEq, Repr

inductive Channel where
  | write
  | read
deriving DecidableEq, Repr

/-- How far the `on_open` callback of a channel is: waiting in
`Bridge::new`, or waiting for the lock of the holder. -/
inductive OnOpen where
  | idle
  | spawned
  | creating
  | publishing
  | done
deriving DecidableEq, Repr

/-- What `receiver.next()` yields: an answer (`applied` if it parses and
`set_remote_description` accepts it), any message that leaves the session
alone, or the end of the stream, a close frame or an error. -/
inductive Message where
  | answer (applied : Bool)
  | other
  | ended
deriving DecidableEq, Repr

structure State where
  handler : Handler
  peer : PeerState
  answered : Bool
  channel : Channel → ChannelState
  onOpen : Channel → OnOpen
  channelsOpen : Nat
  /-- `Bridge::new` returned an error. -/
  creationFailed : Bool
  /-- Every bridge the session has started, oldest first. -/
  bridges : List Bridge.State
  /-- The holder, as an index into `bridges`. -/
  bridge : Option Nat
  /-- Monitor callbacks that were spawned and have not run yet. -/
  monitors : List PeerState
  /-- Monitor callbacks on their way to `close_peer`. -/
  closers : Nat

/-- The callbacks are set, no offer was sent. -/
def init : State where
  handler := .sendOffer
  peer := .new
  answered := false
  channel := fun _ => .connecting
  onOpen := fun _ => .idle
  channelsOpen := 0
  creationFailed := false
  bridges := []
  bridge := none
  monitors := []
  closers := 0

inductive Event where
  | sendOffer (ok : Bool)
  | message (m : Message)
  | cleanup
  | closePeer
  | peerChange (st : PeerState)
  | monitor (i : Nat)
  | monitorClose (upgraded : Bool)
  | channelOpen (c : Channel)
  | channelClose (c : Channel)
  | onOpen (c : Channel) (upgraded : Bool)
  | created (c : Channel) (ok : Bool)
  | publish (c : Channel)
  | bridge (i : Nat) (e : Bridge.Event)
deriving DecidableEq, Repr

/-! ## The holder and the peer -/

/-- `if let Some(b) = bridge.lock().await.take() { b.shutdown(); }` -/
def takeBridge (s : State) : State :=
  { s with
    bridge := none
    bridges := match s.bridge with
      | some i => s.bridges.modify i Bridge.callShutdown
      | none => s.bridges }

/-- `peer.close()` -/
def closePeer (s : State) : State :=
  { s with
    peer := .closed
    monitors := if s.peer = .closed then s.monitors else s.monitors ++ [.closed] }

/-- The callback of `setup_connection_monitor`, up to its `close_peer`. -/
def monitor (s : State) : PeerState → State
  | .failed | .closed => { takeBridge s with closers := s.closers + 1 }
  | .disconnected => takeBridge s
  | .new | .connecting | .connected => s

/-- The states the connection may go to next. -/
def PeerState.next : PeerState → PeerState → Bool
  | .closed, _ => false
  | .failed, st => st = .closed
  | p, st => p ≠ st

/-! ## The `on_open` callbacks -/

/-- The start of `setup_channel_on_open`'s callback: count, and go on to
`start_bridge` if the other channel came first. -/
def countOpen (s : State) (c : Channel) (upgraded : Bool) : State :=
  let count := s.channelsOpen + 1
  let next := if count = 2 ∧ upgraded = true then .creating else .done
  { s with channelsOpen := count, onOpen := Function.update s.onOpen c next }

/-- `Bridge::new` returns. -/
def bridgeNew (s : State) (c : Channel) : Bool → State
  | true => { s with onOpen := Function.update s.onOpen c .publishing }
  | false =>
      { s with
        creationFailed := true, onOpen := Function.update s.onOpen c .done }

/-- `start_bridge` fills the holder and spawns `Bridge::start`. -/
def startBridge (s : State) (c : Channel) : State :=
  let b := { Bridge.init with readOpen := s.channel .read = .opened }
  { s with
    onOpen := Function.update s.onOpen c .done
    bridges := s.bridges ++ [b]
    bridge := some s.bridges.length }

/-- The read channel closes under every bridge. -/
def closeRead (b : Bridge.State) : Bridge.State :=
  (Bridge.step b .readClose).getD b

def closeChannel (s : State) (c : Channel) : State :=
  { s with
    channel := Function.update s.channel c .closed
    bridges := if c = .read then s.bridges.map closeRead else s.bridges }

/-- `handle_ws_messages`, one message. -/
def onMessage (s : State) : Message → State
  | .answer applied => { s with answered := s.answered || applied }
  | .other => s
  | .ended => { s with handler := .cleanup }

/-- One event of the session. -/
def step (s : State) : Event → Option State
  | .sendOffer ok =>
      if s.handler = .sendOffer then
        some { s with handler := if ok then .loop else .closePeer }
      else none
  | .message m => if s.handler = .loop then some (onMessage s m) else none
  | .cleanup =>
      if s.handler = .cleanup then
        some { takeBridge s with handler := .closePeer }
      else none
  | .closePeer =>
      if s.handler = .closePeer then
        some { closePeer s with handler := .returned }
      else none
  | .peerChange st =>
      if s.answered = true ∧ s.peer.next st = true then
        some { s with peer := st, monitors := s.monitors ++ [st] }
      else none
  | .monitor i =>
      match s.monitors[i]? with
      | some st => some (monitor { s with monitors := s.monitors.eraseIdx i } st)
      | none => none
  | .monitorClose upgraded =>
      -- the weak reference is dead only after the handler dropped its own
      if 0 < s.closers ∧ (upgraded = true ∨ s.handler = .returned) then
        let s := { s with closers := s.closers - 1 }
        some (if upgraded then closePeer s else s)
      else none
  | .channelOpen c =>
      if s.answered = true ∧ s.peer ≠ .closed ∧ s.channel c = .connecting then
        some { s with
          channel := Function.update s.channel c .opened
          onOpen := Function.update s.onOpen c .spawned }
      else none
  | .channelClose c =>
      if s.channel c ≠ .closed then some (closeChannel s c) else none
  | .onOpen c upgraded =>
      if s.onOpen c = .spawned ∧ (upgraded = true ∨ s.handler = .returned) then
        some (countOpen s c upgraded)
      else none
  | .created c ok =>
      if s.onOpen c = .creating then some (bridgeNew s c ok) else none
  | .publish c =>
      if s.onOpen c = .publishing then some (startBridge s c) else none
  | .bridge i e =>
      match s.bridges[i]? with
      | some b =>
          if Bridge.own e then
            (Bridge.step b e).map fun b' => { s with bridges := s.bridges.set i b' }
          else none
      | none => none

/-! ## What each event does -/

/-- The states a monitor callback reacts to by emptying the holder. -/
def PeerState.takes : PeerState → Bool
  | .failed | .disconnected | .closed => true
  | .new | .connecting | .connected => false

theorem PeerState.takes_of_terminal {st : PeerState}
    (h : st = .failed ∨ st = .closed) : st.takes = true := by
  rcases h with rfl | rfl <;> rfl

/-- What one event does, with the guards it passed. A monitor callback
ignores its state, or empties the holder, or goes on to `close_peer` after
that; there the peer may be gone. -/
inductive Acts (s : State) : Event → State → Prop where
  | sendOffer {ok : Bool} (hpc : s.handler = .sendOffer) :
      Acts s (.sendOffer ok) { s with handler := if ok then .loop else .closePeer }
  | message {m : Message} (hpc : s.handler = .loop) :
      Acts s (.message m) (onMessage s m)
  | cleanup (hpc : s.handler = .cleanup) :
      Acts s .cleanup { takeBridge s with handler := .closePeer }
  | closePeer (hpc : s.handler = .closePeer) :
      Acts s .closePeer { closePeer s with handler := .returned }
  | peerChange {st : PeerState} (hans : s.answered = true)
      (hnext : s.peer.next st = true) :
      Acts s (.peerChange st) { s with peer := st, monitors := s.monitors ++ [st] }
  | ignored {i : Nat} {st : PeerState} (hst : s.monitors[i]? = some st)
      (hnt : st.takes = false) :
      Acts s (.monitor i) { s with monitors := s.monitors.eraseIdx i }
  | disconnected {i : Nat} (hst : s.monitors[i]? = some .disconnected) :
      Acts s (.monitor i) (takeBridge { s with monitors := s.monitors.eraseIdx i })
  | terminal {i : Nat} {st : PeerState} (hst : s.monitors[i]? = some st)
      (hterm : st = .failed ∨ st = .closed) :
      Acts s (.monitor i)
        { takeBridge { s with monitors := s.monitors.eraseIdx i } with
          closers := s.closers + 1 }
  | peerGone (hpos : 0 < s.closers) :
      Acts s (.monitorClose false) { s with closers := s.closers - 1 }
  | peerClosed (hpos : 0 < s.closers) :
      Acts s (.monitorClose true) (Session.closePeer { s with closers := s.closers - 1 })
  | channelOpen {c : Channel} (hconn : s.channel c = .connecting)
      (hopen : s.peer ≠ .closed) :
      Acts s (.channelOpen c) { s with
        channel := Function.update s.channel c .opened
        onOpen := Function.update s.onOpen c .spawned }
  | channelClose {c : Channel} : Acts s (.channelClose c) (closeChannel s c)
  | onOpen {c : Channel} {upgraded : Bool} (hpc : s.onOpen c = .spawned)
      (hup : upgraded = true ∨ s.handler = .returned) :
      Acts s (.onOpen c upgraded) (countOpen s c upgraded)
  | created {c : Channel} {ok : Bool} (hpc : s.onOpen c = .creating) :
      Acts s (.created c ok) (bridgeNew s c ok)
  | publish {c : Channel} (hpc : s.onOpen c = .publishing) :
      Acts s (.publish c) (startBridge s c)
  | bridge {i : Nat} {e : Bridge.Event} {b b' : Bridge.State}
      (hb : s.bridges[i]? = some b) (hown : Bridge.own e = true)
      (hstep : Bridge.step b e = some b') :
      Acts s (.bridge i e) { s with bridges := s.bridges.set i b' }

theorem acts_of_monitor {s : State} {i : Nat} {st : PeerState}
    (hst : s.monitors[i]? = some st) :
    Acts s (.monitor i) (monitor { s with monitors := s.monitors.eraseIdx i } st) := by
  cases st with
  | failed => exact .terminal hst (Or.inl rfl)
  | closed => exact .terminal hst (Or.inr rfl)
  | disconnected => exact .disconnected hst
  | new => exact .ignored hst rfl
  | connecting => exact .ignored hst rfl
  | connected => exact .ignored hst rfl

theorem acts_of_step {s s' : State} {e : Event} (h : step s e = some s') :
    Acts s e s' := by
  cases e with
  | sendOffer ok =>
      simp only [step, Option.ite_none_right_eq_some] at h
      obtain ⟨hpc, h⟩ := h
      obtain rfl := Option.some.inj h
      exact .sendOffer hpc
  | message m =>
      simp only [step, Option.ite_none_right_eq_some] at h
      obtain ⟨hpc, h⟩ := h
      obtain rfl := Option.some.inj h
      exact .message hpc
  | cleanup =>
      simp only [step, Option.ite_none_right_eq_some] at h
      obtain ⟨hpc, h⟩ := h
      obtain rfl := Option.some.inj h
      exact .cleanup hpc
  | closePeer =>
      simp only [step, Option.ite_none_right_eq_some] at h
      obtain ⟨hpc, h⟩ := h
      obtain rfl := Option.some.inj h
      exact .closePeer hpc
  | peerChange st =>
      simp only [step, Option.ite_none_right_eq_some] at h
      obtain ⟨⟨hans, hnext⟩, h⟩ := h
      obtain rfl := Option.some.inj h
      exact .peerChange hans hnext
  | monitor i =>
      simp only [step] at h
      split at h
      · rename_i st hst
        obtain rfl := Option.some.inj h
        exact acts_of_monitor hst
      · cases h
  | monitorClose upgraded =>
      simp only [step, Option.ite_none_right_eq_some] at h
      obtain ⟨⟨hpos, -⟩, h⟩ := h
      obtain rfl := Option.some.inj h
      cases upgraded with
      | false => exact .peerGone hpos
      | true => exact .peerClosed hpos
  | channelOpen c =>
      simp only [step, Option.ite_none_right_eq_some] at h
      obtain ⟨⟨-, hopen, hconn⟩, h⟩ := h
      obtain rfl := Option.some.inj h
      exact .channelOpen hconn hopen
  | channelClose c =>
      simp only [step, Option.ite_none_right_eq_some] at h
      obtain rfl := Option.some.inj h.2
      exact .channelClose
  | onOpen c upgraded =>
      simp only [step, Option.ite_none_right_eq_some] at h
      obtain ⟨⟨hpc, hup⟩, h⟩ := h
      obtain rfl := Option.some.inj h
      exact .onOpen hpc hup
  | created c ok =>
      simp only [step, Option.ite_none_right_eq_some] at h
      obtain ⟨hpc, h⟩ := h
      obtain rfl := Option.some.inj h
      exact .created hpc
  | publish c =>
      simp only [step, Option.ite_none_right_eq_some] at h
      obtain ⟨hpc, h⟩ := h
      obtain rfl := Option.some.inj h
      exact .publish hpc
  | bridge i e =>
      simp only [step] at h
      split at h
      · rename_i b hb
        rw [Option.ite_none_right_eq_some] at h
        obtain ⟨hown, h⟩ := h
        obtain ⟨b', hstep, rfl⟩ := Option.map_eq_some_iff.mp h
        exact .bridge hb hown hstep
      · cases h

/-! ## The holder and the bridges -/

theorem closeRead_cases (b : Bridge.State) :
    closeRead b = b ∨ closeRead b = Bridge.onReadEnd { b with readOpen := false } := by
  simp only [closeRead, Bridge.step]
  split
  · exact Or.inr rfl
  · exact Or.inl rfl

/-- The events that empty the holder. -/
def Takes (s : State) (e : Event) : Prop :=
  e = .cleanup
    ∨ ∃ i st, e = .monitor i ∧ s.monitors[i]? = some st ∧ st.takes = true

/-- What one event does to the holder and to the bridges. -/
theorem step_bridges {s s' : State} {e : Event} (h : step s e = some s') :
    (s'.bridge = s.bridge ∧ s'.bridges = s.bridges)
      ∨ (Takes s e ∧ s'.bridge = none ∧ s'.bridges = (takeBridge s).bridges)
      ∨ (e = .channelClose .read ∧ s'.bridge = s.bridge
        ∧ s'.bridges = s.bridges.map closeRead)
      ∨ (∃ c, e = .publish c ∧ s.onOpen c = .publishing ∧ s' = startBridge s c)
      ∨ ∃ i e' b b', e = .bridge i e' ∧ s.bridges[i]? = some b
        ∧ Bridge.own e' = true ∧ Bridge.step b e' = some b'
        ∧ s' = { s with bridges := s.bridges.set i b' } := by
  cases acts_of_step h with
  | sendOffer hpc => exact Or.inl ⟨rfl, rfl⟩
  | @message m hpc => cases m <;> exact Or.inl ⟨rfl, rfl⟩
  | cleanup hpc => exact Or.inr (Or.inl ⟨Or.inl rfl, rfl, rfl⟩)
  | closePeer hpc => exact Or.inl ⟨rfl, rfl⟩
  | peerChange hans hnext => exact Or.inl ⟨rfl, rfl⟩
  | ignored hst hnt => exact Or.inl ⟨rfl, rfl⟩
  | disconnected hst =>
      exact Or.inr (Or.inl ⟨Or.inr ⟨_, _, rfl, hst, rfl⟩, rfl, rfl⟩)
  | terminal hst hterm =>
      have htakes := PeerState.takes_of_terminal hterm
      exact Or.inr (Or.inl ⟨Or.inr ⟨_, _, rfl, hst, htakes⟩, rfl, rfl⟩)
  | peerGone hpos => exact Or.inl ⟨rfl, rfl⟩
  | peerClosed hpos => exact Or.inl ⟨rfl, rfl⟩
  | channelOpen hconn hopen => exact Or.inl ⟨rfl, rfl⟩
  | @channelClose c =>
      cases c with
      | write => exact Or.inl ⟨rfl, rfl⟩
      | read => exact Or.inr (Or.inr (Or.inl ⟨rfl, rfl, rfl⟩))
  | onOpen hpc hup => exact Or.inl ⟨rfl, rfl⟩
  | @created c ok hpc => cases ok <;> exact Or.inl ⟨rfl, rfl⟩
  | publish hpc => exact Or.inr (Or.inr (Or.inr (Or.inl ⟨_, rfl, hpc, rfl⟩)))
  | bridge hb hown hstep =>
      exact Or.inr (Or.inr (Or.inr (Or.inr
        ⟨_, _, _, _, rfl, hb, hown, hstep, rfl⟩)))

theorem bridge_of_takes {s s' : State} {e : Event} (ht : Takes s e)
    (h : step s e = some s') : s'.bridge = none := by
  rcases ht with rfl | ⟨i, st, rfl, hst, htakes⟩
  · cases acts_of_step h with
    | cleanup hpc => rfl
  · cases acts_of_step h with
    | ignored hst' hnt =>
        obtain rfl := Option.some.inj (hst'.symm.trans hst)
        rw [hnt] at htakes
        cases htakes
    | disconnected hst' => rfl
    | terminal hst' hterm => rfl

/-! ## At most one bridge

The counter reaches 2 once, so one callback at most is ever in
`start_bridge`, and it leaves at most one bridge behind. -/

/-- The callback has incremented the counter. -/
def OnOpen.counted : OnOpen → Nat
  | .idle | .spawned => 0
  | .creating | .publishing | .done => 1

/-- The callback is inside `start_bridge`. -/
def OnOpen.active : OnOpen → Nat
  | .creating | .publishing => 1
  | .idle | .spawned | .done => 0

/-- A sum over the two channels. -/
def both (f : OnOpen → Nat) (o : Channel → OnOpen) : Nat := f (o .write) + f (o .read)

theorem both_update (f : OnOpen → Nat) (o : Channel → OnOpen) (c : Channel)
    (v : OnOpen) : both f (Function.update o c v) + f (o c) = both f o + f v := by
  cases c <;> simp [both, Function.update] <;> omega

/-- Bridges started or being started. -/
def attempts (s : State) : Nat := both OnOpen.active s.onOpen + s.bridges.length

structure Counted (s : State) : Prop where
  fresh : ∀ c, s.channel c = .connecting → s.onOpen c = .idle
  counted : both OnOpen.counted s.onOpen = s.channelsOpen
  early : s.channelsOpen < 2 → attempts s = 0
  once : attempts s ≤ 1
  settled : s.channelsOpen = 2 →
    attempts s = 1 ∨ s.creationFailed = true ∨ s.handler = .returned

theorem counted_init : Counted init :=
  ⟨fun _ _ => rfl, rfl, fun _ => rfl, Nat.zero_le 1, nofun⟩

/-- Steps that leave the callbacks and the number of bridges alone. -/
theorem Counted.frame {s s' : State} (hc : Counted s)
    (hchan : ∀ c, s'.channel c = .connecting → s.channel c = .connecting)
    (hopen : s'.onOpen = s.onOpen) (hcount : s'.channelsOpen = s.channelsOpen)
    (hlen : s'.bridges.length = s.bridges.length)
    (hfail : s'.creationFailed = s.creationFailed)
    (hret : s.handler = .returned → s'.handler = .returned) : Counted s' := by
  have hatt : attempts s' = attempts s := by rw [attempts, attempts, hopen, hlen]
  refine ⟨?_, ?_, ?_, ?_, ?_⟩
  · intro c h
    rw [hopen]
    exact hc.fresh c (hchan c h)
  · rw [hopen, hcount]
    exact hc.counted
  · rw [hcount, hatt]
    exact hc.early
  · rw [hatt]
    exact hc.once
  · rw [hcount, hatt, hfail]
    intro h
    exact (hc.settled h).imp id (Or.imp id hret)

/-- Steps that move one callback on. `n` is the change of the number of
bridges. -/
theorem Counted.advance {s s' : State} {c : Channel} {v : OnOpen} (hc : Counted s)
    (hopen : s'.onOpen = Function.update s.onOpen c v)
    (hchan : s'.channel = s.channel) (hne : s.onOpen c ≠ .idle)
    (hcounted : v.counted + s.channelsOpen
      = (s.onOpen c).counted + s'.channelsOpen)
    (hearly : s'.channelsOpen < 2 → attempts s' = 0)
    (honce : attempts s' ≤ 1)
    (hsettled : s'.channelsOpen = 2 →
      attempts s' = 1 ∨ s'.creationFailed = true ∨ s'.handler = .returned) :
    Counted s' := by
  refine ⟨?_, ?_, hearly, honce, hsettled⟩
  · intro d hd
    rw [hchan] at hd
    have hidle := hc.fresh d hd
    have hdc : d ≠ c := by
      rintro rfl
      exact hne hidle
    rw [hopen, Function.update_of_ne hdc]
    exact hidle
  · have hb := both_update OnOpen.counted s.onOpen c v
    rw [hc.counted] at hb
    rw [hopen]
    omega

@[simp] theorem length_takeBridge (s : State) :
    (takeBridge s).bridges.length = s.bridges.length := by
  unfold takeBridge
  cases s.bridge with
  | none => rfl
  | some i => exact List.length_modify ..

theorem counted_onOpen {s : State} (hc : Counted s) {c : Channel} {upgraded : Bool}
    (hpc : s.onOpen c = .spawned)
    (hup : upgraded = true ∨ s.handler = .returned) :
    Counted (countOpen s c upgraded) := by
  have hlt : s.channelsOpen < 2 := by
    -- this callback has not counted yet
    have hb := hc.counted
    cases c <;> simp only [both, hpc, OnOpen.counted] at hb <;>
      split at hb <;> omega
  have hzero := hc.early hlt
  simp only [attempts] at hzero
  by_cases h2 : s.channelsOpen + 1 = 2 ∧ upgraded = true
  · have hact := both_update OnOpen.active s.onOpen c .creating
    rw [hpc] at hact
    simp only [OnOpen.active] at hact
    have hatt : attempts (countOpen s c upgraded) = 1 := by
      simp only [attempts, countOpen, if_pos h2]
      omega
    refine hc.advance (c := c) (v := .creating) (by simp only [countOpen, if_pos h2]) rfl
      (by rw [hpc]; nofun) (by rw [hpc]; simp only [OnOpen.counted, countOpen]; omega)
      ?_ (by omega) (fun _ => Or.inl hatt)
    simp only [countOpen]
    omega
  · have hact := both_update OnOpen.active s.onOpen c .done
    rw [hpc] at hact
    simp only [OnOpen.active] at hact
    have hatt : attempts (countOpen s c upgraded) = 0 := by
      simp only [attempts, countOpen, if_neg h2]
      omega
    refine hc.advance (c := c) (v := .done) (by simp only [countOpen, if_neg h2]) rfl
      (by rw [hpc]; nofun) (by rw [hpc]; simp only [OnOpen.counted, countOpen]; omega)
      (fun _ => hatt) (by omega) ?_
    intro hcount
    refine Or.inr (Or.inr (hup.resolve_left fun h => h2 ⟨hcount, h⟩))

/-- In `start_bridge` the counter is 2 and this is the only attempt. -/
theorem Counted.of_active {s : State} (hc : Counted s) {c : Channel}
    (hpc : (s.onOpen c).active = 1) :
    ¬ s.channelsOpen < 2 ∧ both OnOpen.active s.onOpen = 1 ∧ s.bridges = [] := by
  have honce := hc.once
  have hle : 1 ≤ both OnOpen.active s.onOpen := by
    cases c <;> simp only [both, hpc] <;> omega
  simp only [attempts] at honce
  refine ⟨fun hlt => ?_, by omega, List.length_eq_zero_iff.mp (by omega)⟩
  have hzero := hc.early hlt
  simp only [attempts] at hzero
  omega

theorem bridges_startBridge {s : State} (hc : Counted s) {c : Channel}
    (hpc : s.onOpen c = .publishing) :
    (startBridge s c).bridge = some 0 ∧ (startBridge s c).bridges
      = [{ Bridge.init with readOpen := s.channel .read = .opened }] := by
  obtain ⟨-, -, hnil⟩ := hc.of_active (c := c) (by rw [hpc]; rfl)
  simp [startBridge, hnil]

theorem counted_bridgeNew {s : State} (hc : Counted s) {c : Channel} {ok : Bool}
    (hpc : s.onOpen c = .creating) : Counted (bridgeNew s c ok) := by
  obtain ⟨hcount, hone, hnil⟩ := hc.of_active (c := c) (by rw [hpc]; rfl)
  cases ok with
  | true =>
      have hact := both_update OnOpen.active s.onOpen c .publishing
      rw [hpc, hone] at hact
      simp only [OnOpen.active] at hact
      have hatt : attempts (bridgeNew s c true) = 1 := by
        simp only [attempts, bridgeNew, hnil, List.length_nil]
        omega
      exact hc.advance rfl rfl (by rw [hpc]; nofun) (by rw [hpc]; rfl)
        (fun h => absurd h hcount) (by omega) (fun _ => Or.inl hatt)
  | false =>
      have hact := both_update OnOpen.active s.onOpen c .done
      rw [hpc, hone] at hact
      simp only [OnOpen.active] at hact
      have hatt : attempts (bridgeNew s c false) = 0 := by
        simp only [attempts, bridgeNew, hnil, List.length_nil]
        omega
      exact hc.advance rfl rfl (by rw [hpc]; nofun) (by rw [hpc]; rfl)
        (fun h => absurd h hcount) (by omega) (fun _ => Or.inr (Or.inl rfl))

theorem counted_startBridge {s : State} (hc : Counted s) {c : Channel}
    (hpc : s.onOpen c = .publishing) : Counted (startBridge s c) := by
  obtain ⟨hcount, hone, hnil⟩ := hc.of_active (c := c) (by rw [hpc]; rfl)
  have hact := both_update OnOpen.active s.onOpen c .done
  rw [hpc, hone] at hact
  simp only [OnOpen.active] at hact
  have hatt : attempts (startBridge s c) = 1 := by
    simp only [attempts, startBridge, hnil, List.nil_append, List.length_singleton]
    omega
  exact hc.advance rfl rfl (by rw [hpc]; nofun) (by rw [hpc]; rfl)
    (fun h => absurd h hcount) (by omega) (fun _ => Or.inl hatt)

theorem counted_spawned {s : State} (hc : Counted s) {c : Channel}
    (hconn : s.channel c = .connecting) :
    Counted { s with
      channel := Function.update s.channel c .opened
      onOpen := Function.update s.onOpen c .spawned } := by
  have hidle := hc.fresh c hconn
  have hcnt := both_update OnOpen.counted s.onOpen c .spawned
  have hact := both_update OnOpen.active s.onOpen c .spawned
  rw [hidle] at hcnt hact
  have hb : both OnOpen.active (Function.update s.onOpen c .spawned)
      = both OnOpen.active s.onOpen := hact
  refine ⟨?_, hcnt.trans hc.counted, ?_, ?_, ?_⟩
  · intro d hd
    by_cases hdc : d = c
    · subst hdc
      simp [Function.update] at hd
    · simp only [Function.update_of_ne hdc] at hd ⊢
      exact hc.fresh d hd
  all_goals simp only [attempts, hb]
  · exact hc.early
  · exact hc.once
  · exact hc.settled

theorem counted_closeChannel {s : State} (hc : Counted s) (c : Channel) :
    Counted (closeChannel s c) := by
  refine hc.frame ?_ rfl rfl ?_ rfl id
  · intro d hd
    by_cases hdc : d = c
    · subst hdc
      simp [closeChannel, Function.update] at hd
    · simpa only [closeChannel, Function.update_of_ne hdc] using hd
  · simp only [closeChannel]
    split <;> simp

theorem counted_step {s s' : State} {e : Event} (hc : Counted s)
    (h : step s e = some s') : Counted s' := by
  cases acts_of_step h with
  | sendOffer hpc =>
      exact hc.frame (fun _ => id) rfl rfl rfl rfl (by rw [hpc]; nofun)
  | @message m hpc =>
      cases m <;>
        exact hc.frame (fun _ => id) rfl rfl rfl rfl (by rw [hpc]; nofun)
  | cleanup hpc =>
      exact hc.frame (fun _ => id) rfl rfl (length_takeBridge s) rfl
        (by rw [hpc]; nofun)
  | closePeer hpc => exact hc.frame (fun _ => id) rfl rfl rfl rfl (fun _ => rfl)
  | peerChange hans hnext => exact hc.frame (fun _ => id) rfl rfl rfl rfl id
  | ignored hst hnt => exact hc.frame (fun _ => id) rfl rfl rfl rfl id
  | disconnected hst =>
      exact hc.frame (fun _ => id) rfl rfl (length_takeBridge _) rfl id
  | terminal hst hterm =>
      exact hc.frame (fun _ => id) rfl rfl (length_takeBridge _) rfl id
  | peerGone hpos => exact hc.frame (fun _ => id) rfl rfl rfl rfl id
  | peerClosed hpos => exact hc.frame (fun _ => id) rfl rfl rfl rfl id
  | channelOpen hconn hopen => exact counted_spawned hc hconn
  | channelClose => exact counted_closeChannel hc _
  | onOpen hpc hup => exact counted_onOpen hc hpc hup
  | created hpc => exact counted_bridgeNew hc hpc
  | publish hpc => exact counted_startBridge hc hpc
  | bridge hb hown hstep =>
      exact hc.frame (fun _ => id) rfl rfl (List.length_set ..) rfl id

/-! ## The peer -/

/-- A monitor callback for a terminal state is pending, or on its way to
`close_peer`. -/
def Terminating (s : State) : Prop :=
  0 < s.closers ∨ .failed ∈ s.monitors ∨ .closed ∈ s.monitors

structure PeerWf (s : State) : Prop where
  offering : s.handler = .sendOffer → s.answered = false ∧ s.peer = .new
  returned : s.handler = .returned → s.peer = .closed
  terminal : Terminating s → s.peer = .failed ∨ s.peer = .closed

theorem peerWf_init : PeerWf init := by
  refine ⟨fun _ => ⟨rfl, rfl⟩, nofun, ?_⟩
  rintro (h | h | h) <;> cases h

/-- Steps that leave the peer and its callbacks alone. -/
theorem PeerWf.frame {s s' : State} (hp : PeerWf s)
    (hoff : s'.handler = .sendOffer → s.handler = .sendOffer)
    (hans : s'.handler = .sendOffer → s'.answered = s.answered)
    (hret : s'.handler = .returned → s.handler = .returned)
    (hpeer : s'.peer = s.peer) (hterm : Terminating s' → Terminating s) :
    PeerWf s' := by
  refine ⟨?_, ?_, ?_⟩
  · intro h
    rw [hans h, hpeer]
    exact hp.offering (hoff h)
  · intro h
    rw [hpeer]
    exact hp.returned (hret h)
  · intro h
    rw [hpeer]
    exact hp.terminal (hterm h)

/-- Running a monitor callback adds no terminal state. -/
theorem terminating_of_eraseIdx {s : State} {i : Nat}
    (h : Terminating { s with monitors := s.monitors.eraseIdx i }) : Terminating s := by
  have hsub := (List.eraseIdx_sublist s.monitors i).subset
  rcases h with h | h | h
  · exact Or.inl h
  · exact Or.inr (Or.inl (hsub h))
  · exact Or.inr (Or.inr (hsub h))

theorem terminating_of_getElem? {s : State} {i : Nat} {st : PeerState}
    (hst : s.monitors[i]? = some st) (hterm : st = .failed ∨ st = .closed) :
    Terminating s := by
  have hmem := List.mem_of_getElem? hst
  rcases hterm with rfl | rfl
  · exact Or.inr (Or.inl hmem)
  · exact Or.inr (Or.inr hmem)

theorem peerWf_peerChange {s : State} (hp : PeerWf s) {st : PeerState}
    (hans : s.answered = true) (hnext : s.peer.next st = true) :
    PeerWf { s with peer := st, monitors := s.monitors ++ [st] } := by
  have hnc : s.peer ≠ .closed := by
    intro h
    rw [h] at hnext
    cases hnext
  refine ⟨?_, ?_, ?_⟩
  · intro h
    rw [(hp.offering h).1] at hans
    cases hans
  · exact fun h => absurd (hp.returned h) hnc
  · intro h
    by_cases hterm : Terminating s
    · -- only `Failed` is terminal here, and it goes on to `Closed`
      have hfailed := (hp.terminal hterm).resolve_right hnc
      rw [hfailed] at hnext
      exact Or.inr (of_decide_eq_true hnext)
    · unfold Terminating at h hterm
      simp only [List.mem_append, List.mem_singleton] at h
      rcases h with h | (h | h) | (h | h)
      · exact absurd (Or.inl h) hterm
      · exact absurd (Or.inr (Or.inl h)) hterm
      · exact Or.inl h.symm
      · exact absurd (Or.inr (Or.inr h)) hterm
      · exact Or.inr h.symm

theorem peerWf_step {s s' : State} {e : Event} (hp : PeerWf s)
    (h : step s e = some s') : PeerWf s' := by
  cases acts_of_step h with
  | @sendOffer ok hpc =>
      cases ok <;> exact hp.frame (fun _ => hpc) (fun _ => rfl) nofun rfl id
  | @message m hpc =>
      cases m with
      | answer applied =>
          refine hp.frame id (fun h => ?_) id rfl id
          simp [onMessage, hpc] at h
      | other => exact hp
      | ended => exact hp.frame nofun nofun nofun rfl id
  | cleanup hpc => exact hp.frame nofun nofun nofun rfl id
  | closePeer hpc => exact ⟨nofun, fun _ => rfl, fun _ => Or.inr rfl⟩
  | peerChange hans hnext => exact peerWf_peerChange hp hans hnext
  | ignored hst hnt =>
      exact hp.frame id (fun _ => rfl) id rfl terminating_of_eraseIdx
  | @disconnected i hst =>
      exact hp.frame id (fun _ => rfl) id rfl
        (fun h => terminating_of_eraseIdx (i := i) h)
  | terminal hst hterm =>
      exact hp.frame id (fun _ => rfl) id rfl
        (fun _ => terminating_of_getElem? hst hterm)
  | peerGone hpos =>
      exact hp.frame id (fun _ => rfl) id rfl (Or.imp (fun _ => hpos) id)
  | peerClosed hpos =>
      refine ⟨fun h => ?_, fun _ => rfl, fun _ => Or.inr rfl⟩
      rcases hp.terminal (Or.inl hpos) with hpeer | hpeer <;>
        rw [(hp.offering h).2] at hpeer <;> cases hpeer
  | channelOpen hconn hopen => exact hp.frame id (fun _ => rfl) id rfl id
  | channelClose => exact hp.frame id (fun _ => rfl) id rfl id
  | onOpen hpc hup => exact hp.frame id (fun _ => rfl) id rfl id
  | @created c ok hpc => cases ok <;> exact hp.frame id (fun _ => rfl) id rfl id
  | publish hpc => exact hp.frame id (fun _ => rfl) id rfl id
  | bridge hb hown hstep => exact hp.frame id (fun _ => rfl) id rfl id

/-! ## Unsignalled bridges are in the holder -/

structure Held (s : State) : Prop where
  filled : s.bridge ≠ none → s.bridges ≠ []
  unsignalled : ∀ i b, s.bridges[i]? = some b → b.shutdownCalled = false →
    s.bridge = some i

/-- After a take nothing is left to signal. -/
theorem Held.signalled_takeBridge {s : State} (hh : Held s) {i : Nat}
    {b : Bridge.State} (hb : (takeBridge s).bridges[i]? = some b) :
    b.shutdownCalled = true := by
  cases hcall : b.shutdownCalled with
  | true => rfl
  | false =>
      exfalso
      cases hhold : s.bridge with
      | none =>
          simp only [takeBridge, hhold] at hb
          have := hh.unsignalled i b hb hcall
          rw [hhold] at this
          cases this
      | some j =>
          simp only [takeBridge, hhold, List.getElem?_modify] at hb
          split at hb
          · obtain ⟨b₀, -, rfl⟩ := Option.map_eq_some_iff.mp hb
            cases hcall
          · rename_i hji
            simp only [Option.map_eq_map, Option.map_id'] at hb
            have := hh.unsignalled i b hb hcall
            rw [hhold] at this
            exact hji (Option.some.inj this)

theorem closeRead_shutdownCalled (b : Bridge.State) :
    (closeRead b).shutdownCalled = b.shutdownCalled := by
  rcases closeRead_cases b with heq | heq <;> rw [heq]
  unfold Bridge.onReadEnd
  split <;> rfl

theorem filled_step {s s' : State} {e : Event} (hh : Held s)
    (h : step s e = some s') : s'.bridge ≠ none → s'.bridges ≠ [] := by
  intro hne
  rcases step_bridges h with ⟨hhold, hbs⟩ | ⟨-, hhold, -⟩ | ⟨-, hhold, hbs⟩
    | ⟨c, -, -, rfl⟩ | ⟨i, e', b, b', -, -, -, -, rfl⟩
  · rw [hbs]
    rw [hhold] at hne
    exact hh.filled hne
  · exact absurd hhold hne
  · rw [hbs, Ne, List.map_eq_nil_iff]
    rw [hhold] at hne
    exact hh.filled hne
  · simp [startBridge]
  · rw [Ne, List.set_eq_nil_iff]
    exact hh.filled hne

theorem held_step {s s' : State} {e : Event} (hc : Counted s) (hh : Held s)
    (h : step s e = some s') : Held s' := by
  refine ⟨filled_step hh h, ?_⟩
  intro j b hb hcall
  rcases step_bridges h with ⟨hhold, hbs⟩ | ⟨-, -, hbs⟩ | ⟨-, hhold, hbs⟩
    | ⟨c, -, hpc, rfl⟩ | ⟨i, e', b₀, b', -, hb₀, hown, hstep, rfl⟩
  · rw [hbs] at hb
    rw [hhold]
    exact hh.unsignalled j b hb hcall
  · rw [hbs] at hb
    rw [hh.signalled_takeBridge hb] at hcall
    cases hcall
  · rw [hbs, List.getElem?_map] at hb
    obtain ⟨b₀, hb₀, rfl⟩ := Option.map_eq_some_iff.mp hb
    rw [closeRead_shutdownCalled] at hcall
    rw [hhold]
    exact hh.unsignalled j b₀ hb₀ hcall
  · -- the new bridge is the only one
    obtain ⟨hhold, hbs⟩ := bridges_startBridge hc hpc
    rw [hbs] at hb
    have hlt := (List.getElem?_eq_some_iff.mp hb).1
    rw [hhold, Nat.lt_one_iff.mp hlt]
  · simp only [List.getElem?_set] at hb
    split at hb
    · rename_i hij
      subst hij
      split at hb
      · obtain rfl := Option.some.inj hb
        refine hh.unsignalled i b₀ hb₀ ?_
        rcases Bridge.unseen_step hown hstep with hun | ⟨-, -, rfl⟩
        · rw [← hun.shutdownCalled]
          exact hcall
        · exact hcall
      · cases hb
    · exact hh.unsignalled j b hb hcall

/-! ## Reachable states -/

structure Wf (s : State) : Prop where
  counted : Counted s
  peer : PeerWf s
  held : Held s

theorem wf_init : Wf init :=
  ⟨counted_init, peerWf_init, fun h => absurd rfl h,
    fun i b hb => by simp [init] at hb⟩

theorem wf_step {s s' : State} {e : Event} (hwf : Wf s)
    (h : step s e = some s') : Wf s' :=
  ⟨counted_step hwf.counted h, peerWf_step hwf.peer h,
    held_step hwf.counted hwf.held h⟩

theorem wf_reach {s : State} {es : List Event} (h : run step init es = some s) :
    Wf s := run_invariant (I := Wf) wf_step h wf_init

/-- The session up to the point where `start_bridge` waits in
`Bridge::new`. -/
def untilCreating : List Event :=
  [.sendOffer true, .message (.answer true), .peerChange .connecting,
    .peerChange .connected, .monitor 0, .monitor 0, .channelOpen .write,
    .channelOpen .read, .onOpen .write true, .onOpen .read true]

end Session

end XashProxy
