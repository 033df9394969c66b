import XashProxy.Lts
import XashProxy.Notify

/-!
# The bridge between the data channels and the game server

A model of `bridge.rs`: `Bridge::start`, the forwarder task it spawns, the
callbacks it installs on the read channel, and `Bridge::shutdown`. The two
tasks run concurrently, so a state carries the point each of them has
reached; an event is one uninterrupted stretch of one task, one callback,
or one action of the environment.

Points that are easy to get wrong:

* the precondition of the idle branch is evaluated once, when the
  `select!` is entered; `parked sleep` records its outcome;
* a `select!` that ends through another branch drops its `notified()`
  future, and so does an aborted task;
* `abort` only requests cancellation: the forwarder may run on to its next
  await point before the request takes effect.

Time is in milliseconds.
-/

namespace XashProxy

namespace Bridge

abbrev Bytes := List UInt8

/-- Maximum packet size for the `GoldSrc` protocol. -/
def maxPacketSize : Nat := 65536

/-- `IDLE_TIMEOUT`, 25 seconds. -/
def idleTimeout : Nat := 25000

/-- `HLTV_CONNECT_ACK`, `"\xff\xff\xff\xffB0000000000000000"`. -/
def hltvConnectAck : Bytes :=
  [0xff, 0xff, 0xff, 0xff, 0x42] ++ List.replicate 16 0x30

/-- `"\xff\xff\xff\xffB\n"`, the reply the client accepts. -/
def connectAck : Bytes := [0xff, 0xff, 0xff, 0xff, 0x42, 0x0a]

/-- The in-stream rewrite of the HLTV connection approval. -/
def rewriteAck (data : Bytes) : Bytes :=
  if data.length = hltvConnectAck.length ∧ hltvConnectAck <+: data then
    connectAck
  else data

/-- What `UdpSocket::recv` returns: a datagram or an error. -/
inductive RecvResult where
  | ok (datagram : Bytes)
  | err
deriving DecidableEq, Repr

/-- The two tasks that wait on the shutdown `Notify`. -/
inductive Task where
  | start
  | forwarder
deriving DecidableEq, Repr

/-- The next thing `Bridge::start` does. -/
inductive StartPc where
  | spawn
  | install
  | notified
  | parked
  | abort
  | returned
deriving DecidableEq, Repr

/-- The point the forwarder task has reached. `parked` carries the deadline
of the idle branch, `none` when its precondition was false on entry. -/
inductive ForwarderPc where
  | unspawned
  | select
  | parked (sleep : Option Nat)
  | sending
  | closingWrite
  | closingRead
  | ended
  | aborted
deriving DecidableEq, Repr

structure State where
  startPc : StartPc
  forwarderPc : ForwarderPc
  /-- `udp_to_webrtc.abort()` was called. -/
  abortRequested : Bool
  /-- The flag the read callback shares with the forwarder. -/
  browserStarted : Bool
  /-- The forwarder's local `saw_packet`. -/
  sawPacket : Bool
  buf : Bytes
  /-- The read-channel callbacks are set. -/
  installed : Bool
  readOpen : Bool
  shutdown : Notify Task
  shutdownCalled : Bool
  /-- Results the UDP socket has ready for `recv`. -/
  socket : List RecvResult
  /-- What was handed to `write_channel.send`, in order. -/
  sent : List Bytes
  /-- What was handed to `udp_socket.send`, in order. -/
  toServer : List Bytes
  writeCloseCalled : Bool
  readCloseCalled : Bool
  /-- A callback of the read channel has notified. -/
  readEnded : Bool
  now : Nat

/-- `Bridge::new`: both channels are open, no task runs yet. -/
def init : State where
  startPc := .spawn
  forwarderPc := .unspawned
  abortRequested := false
  browserStarted := false
  sawPacket := false
  buf := List.replicate maxPacketSize 0
  installed := false
  readOpen := true
  shutdown := Notify.new
  shutdownCalled := false
  socket := []
  sent := []
  toServer := []
  writeCloseCalled := false
  readCloseCalled := false
  readEnded := false
  now := 0

/-- How one stretch of `forward_udp_to_webrtc` ends: the `select!` parks or
one of its branches is chosen, or the awaited send or close completes. -/
inductive Poll where
  | park
  | recv
  | idle
  | notified
  | sent (ok : Bool)
  | writeClosed
  | readClosed
deriving DecidableEq, Repr

inductive Event where
  | start
  | forward (p : Poll)
  | cancel
  | datagram (r : RecvResult)
  | browserMessage (data : Bytes)
  | readClose
  | readError
  | shutdown
  | elapse (ms : Nat)
deriving DecidableEq, Repr

/-! ## `Bridge::start` -/

/-- `setup_webrtc_to_udp` -/
def setupWebrtcToUdp (s : State) : State := { s with installed := true }

/-- One stretch of `Bridge::start`. -/
def start (s : State) : Option State :=
  match s.startPc with
  | .spawn => some { s with startPc := .install, forwarderPc := .select }
  | .install => some { setupWebrtcToUdp s with startPc := .notified }
  | .notified =>
      match s.shutdown.poll .start with
      | (true, n) => some { s with startPc := .abort, shutdown := n }
      | (false, n) => some { s with startPc := .parked, shutdown := n }
  | .parked =>
      match s.shutdown.poll .start with
      | (true, n) => some { s with startPc := .abort, shutdown := n }
      | (false, _) => none
  | .abort => some { s with startPc := .returned, abortRequested := true }
  | .returned => none

/-! ## The forwarder -/

/-- The precondition of the idle branch. -/
def armed (s : State) : Bool := s.sawPacket || s.browserStarted

/-- The bytes `recv(&mut buf)` leaves in the buffer, and their number. -/
def recvInto (buf datagram : Bytes) : Bytes × Nat :=
  let got := datagram.take maxPacketSize
  (got ++ buf.drop got.length, got.length)

/-- Entry of `teardown`: close is called on the write channel and awaited. -/
def teardown (s : State) : State :=
  { s with forwarderPc := .closingWrite, writeCloseCalled := true }

/-- The `recv` branch of the `select!`. -/
def onRecv (s : State) : RecvResult → State
  | .ok datagram =>
      let (buf, n) := recvInto s.buf datagram
      if n > 0 then
        { s with
          forwarderPc := .sending
          sawPacket := true
          buf := buf
          sent := s.sent ++ [rewriteAck (buf.take n)] }
      else { s with forwarderPc := .select, buf := buf }
  | .err => teardown s

/-- The `select!` is polled: on entry (`pc = select`) or after a wake-up. -/
def selecting : ForwarderPc → Bool
  | .select | .parked _ => true
  | _ => false

/-- One stretch of `forward_udp_to_webrtc`. -/
def forwardUdpToWebrtc (s : State) : Poll → Option State
  | .park =>
      match s.forwarderPc, s.socket, s.shutdown.poll .forwarder with
      | .select, [], (false, n) =>
          let sleep := if armed s then some (s.now + idleTimeout) else none
          some { s with forwarderPc := .parked sleep, shutdown := n }
      | _, _, _ => none
  | .recv =>
      match s.socket with
      | r :: rest =>
          if selecting s.forwarderPc then
            some (onRecv { s with
              socket := rest, shutdown := s.shutdown.drop .forwarder } r)
          else none
      | [] => none
  | .idle =>
      match s.forwarderPc with
      | .parked (some deadline) =>
          if deadline ≤ s.now then
            some (teardown { s with shutdown := s.shutdown.drop .forwarder })
          else none
      | _ => none
  | .notified =>
      if selecting s.forwarderPc then
        match s.shutdown.poll .forwarder with
        | (true, n) => some { s with forwarderPc := .ended, shutdown := n }
        | (false, _) => none
      else none
  | .sent ok =>
      if s.forwarderPc = .sending then
        some { s with forwarderPc := if ok then .select else .ended }
      else none
  | .writeClosed =>
      if s.forwarderPc = .closingWrite then
        some { s with forwarderPc := .closingRead, readCloseCalled := true }
      else none
  | .readClosed =>
      -- the end of `teardown`: `notify_one`, then the loop is left
      if s.forwarderPc = .closingRead then
        some { s with forwarderPc := .ended, shutdown := s.shutdown.notifyOne }
      else none

/-- The forwarder task exists and has not finished. -/
def ForwarderPc.live : ForwarderPc → Bool
  | .unspawned | .ended | .aborted => false
  | _ => true

/-- A requested abort takes effect: the task's futures are dropped. -/
def cancel (s : State) : Option State :=
  if s.abortRequested = true ∧ s.forwarderPc.live = true then
    some { s with
      forwarderPc := .aborted, shutdown := s.shutdown.drop .forwarder }
  else none

/-! ## The read-channel callbacks and `Bridge::shutdown` -/

/-- `on_message` of the read channel. Without a callback the message is
dropped by the channel. -/
def onMessage (s : State) (data : Bytes) : State :=
  if s.installed then
    { s with browserStarted := true, toServer := s.toServer ++ [data] }
  else s

/-- `on_close` and `on_error` of the read channel. -/
def onReadEnd (s : State) : State :=
  if s.installed then
    { s with shutdown := s.shutdown.notifyOne, readEnded := true }
  else s

/-- `Bridge::shutdown` -/
def callShutdown (s : State) : State :=
  { s with shutdown := s.shutdown.notifyOne, shutdownCalled := true }

/-- One event of the bridge. -/
def step (s : State) : Event → Option State
  | .start => start s
  | .forward p => forwardUdpToWebrtc s p
  | .cancel => cancel s
  | .datagram r => some { s with socket := s.socket ++ [r] }
  | .browserMessage data => if s.readOpen then some (onMessage s data) else none
  | .readClose =>
      if s.readOpen then some (onReadEnd { s with readOpen := false }) else none
  | .readError => some (onReadEnd s)
  | .shutdown => some (callShutdown s)
  | .elapse ms => some { s with now := s.now + ms }

/-! ## What each event does -/

/-- The ways an event takes effect, with the guards it passed. Every later
proof is by cases on this list and never unfolds a step function. -/
inductive Acts (s : State) : Event → State → Prop where
  | spawn (hpc : s.startPc = .spawn) :
      Acts s .start { s with startPc := .install, forwarderPc := .select }
  | install (hpc : s.startPc = .install) :
      Acts s .start { s with startPc := .notified, installed := true }
  | wake (hpc : s.startPc = .notified ∨ s.startPc = .parked)
      (hpoll : (s.shutdown.poll .start).1 = true) :
      Acts s .start { s with
        startPc := .abort, shutdown := (s.shutdown.poll .start).2 }
  | wait (hpc : s.startPc = .notified) (hpoll : (s.shutdown.poll .start).1 = false) :
      Acts s .start { s with
        startPc := .parked, shutdown := (s.shutdown.poll .start).2 }
  | abort (hpc : s.startPc = .abort) :
      Acts s .start { s with startPc := .returned, abortRequested := true }
  | park (hpc : s.forwarderPc = .select) (hsock : s.socket = [])
      (hpoll : (s.shutdown.poll .forwarder).1 = false) :
      Acts s (.forward .park) { s with
        forwarderPc := .parked (if armed s then some (s.now + idleTimeout) else none)
        shutdown := (s.shutdown.poll .forwarder).2 }
  | recv {datagram : Bytes} {rest : List RecvResult}
      (hsock : s.socket = .ok datagram :: rest) (hsel : selecting s.forwarderPc = true)
      (hne : datagram ≠ []) :
      Acts s (.forward .recv) { s with
        socket := rest, shutdown := s.shutdown.drop .forwarder
        forwarderPc := .sending, sawPacket := true
        buf := (recvInto s.buf datagram).1
        sent := s.sent ++ [rewriteAck
          ((recvInto s.buf datagram).1.take (recvInto s.buf datagram).2)] }
  | recvEmpty {rest : List RecvResult} (hsock : s.socket = .ok [] :: rest)
      (hsel : selecting s.forwarderPc = true) :
      Acts s (.forward .recv) { s with
        socket := rest, shutdown := s.shutdown.drop .forwarder
        forwarderPc := .select, buf := (recvInto s.buf []).1 }
  | recvError {rest : List RecvResult} (hsock : s.socket = .err :: rest)
      (hsel : selecting s.forwarderPc = true) :
      Acts s (.forward .recv) (teardown { s with
        socket := rest, shutdown := s.shutdown.drop .forwarder })
  | idle {deadline : Nat} (hpc : s.forwarderPc = .parked (some deadline))
      (hle : deadline ≤ s.now) :
      Acts s (.forward .idle)
        (teardown { s with shutdown := s.shutdown.drop .forwarder })
  | notified (hsel : selecting s.forwarderPc = true)
      (hpoll : (s.shutdown.poll .forwarder).1 = true) :
      Acts s (.forward .notified) { s with
        forwarderPc := .ended, shutdown := (s.shutdown.poll .forwarder).2 }
  | sent (hpc : s.forwarderPc = .sending) :
      Acts s (.forward (.sent true)) { s with forwarderPc := .select }
  | sendFailed (hpc : s.forwarderPc = .sending) :
      Acts s (.forward (.sent false)) { s with forwarderPc := .ended }
  | writeClosed (hpc : s.forwarderPc = .closingWrite) :
      Acts s (.forward .writeClosed) { s with
        forwarderPc := .closingRead, readCloseCalled := true }
  | readClosed (hpc : s.forwarderPc = .closingRead) :
      Acts s (.forward .readClosed) { s with
        forwarderPc := .ended, shutdown := s.shutdown.notifyOne }
  | cancel (hab : s.abortRequested = true) (hlive : s.forwarderPc.live = true) :
      Acts s .cancel { s with
        forwarderPc := .aborted, shutdown := s.shutdown.drop .forwarder }
  | datagram {r : RecvResult} :
      Acts s (.datagram r) { s with socket := s.socket ++ [r] }
  | message {data : Bytes} (hinst : s.installed = true) :
      Acts s (.browserMessage data) { s with
        browserStarted := true, toServer := s.toServer ++ [data] }
  | unheard {data : Bytes} (hinst : s.installed = false) :
      Acts s (.browserMessage data) s
  | readClose (hopen : s.readOpen = true) :
      Acts s .readClose (onReadEnd { s with readOpen := false })
  | readError : Acts s .readError (onReadEnd s)
  | shutdown : Acts s .shutdown (callShutdown s)
  | elapse {ms : Nat} : Acts s (.elapse ms) { s with now := s.now + ms }

theorem acts_of_start {s s' : State} (h : start s = some s') : Acts s .start s' := by
  unfold start at h
  split at h
  · rename_i hpc
    obtain rfl := Option.some.inj h
    exact .spawn hpc
  · rename_i hpc
    obtain rfl := Option.some.inj h
    exact .install hpc
  · rename_i hpc
    split at h
    · rename_i n hpoll
      obtain rfl := Option.some.inj h
      have hwake := Acts.wake (Or.inl hpc) (by rw [hpoll])
      rwa [hpoll] at hwake
    · rename_i n hpoll
      obtain rfl := Option.some.inj h
      have hwait := Acts.wait hpc (by rw [hpoll])
      rwa [hpoll] at hwait
  · rename_i hpc
    split at h
    · rename_i n hpoll
      obtain rfl := Option.some.inj h
      have hwake := Acts.wake (Or.inr hpc) (by rw [hpoll])
      rwa [hpoll] at hwake
    · cases h
  · rename_i hpc
    obtain rfl := Option.some.inj h
    exact .abort hpc
  · cases h

theorem acts_of_park {s s' : State} (h : forwardUdpToWebrtc s .park = some s') :
    Acts s (.forward .park) s' := by
  simp only [forwardUdpToWebrtc] at h
  split at h
  · rename_i hpc hsock hpoll
    obtain rfl := Option.some.inj h
    have hpark := Acts.park hpc hsock (by rw [hpoll])
    rwa [hpoll] at hpark
  · cases h

/-- `recv` leaves as many bytes as the datagram has, up to the buffer. -/
theorem recvInto_pos_iff (buf datagram : Bytes) :
    (recvInto buf datagram).2 > 0 ↔ datagram ≠ [] := by
  have hlen : (recvInto buf datagram).2 = min maxPacketSize datagram.length :=
    List.length_take
  rw [hlen, ← List.length_pos_iff]
  unfold maxPacketSize
  omega

theorem acts_of_recv {s s' : State} (h : forwardUdpToWebrtc s .recv = some s') :
    Acts s (.forward .recv) s' := by
  simp only [forwardUdpToWebrtc] at h
  split at h
  · rename_i r rest hsock
    rw [Option.ite_none_right_eq_some] at h
    obtain ⟨hsel, h⟩ := h
    obtain rfl := Option.some.inj h
    cases r with
    | err => exact .recvError hsock hsel
    | ok datagram =>
        simp only [onRecv]
        split
        · rename_i hpos
          exact .recv hsock hsel ((recvInto_pos_iff _ _).mp hpos)
        · rename_i hpos
          obtain rfl : datagram = [] :=
            Decidable.not_not.mp fun hne => hpos ((recvInto_pos_iff _ _).mpr hne)
          exact .recvEmpty hsock hsel
  · cases h

theorem acts_of_forward {s s' : State} {p : Poll}
    (h : forwardUdpToWebrtc s p = some s') : Acts s (.forward p) s' := by
  cases p with
  | park => exact acts_of_park h
  | recv => exact acts_of_recv h
  | idle =>
      simp only [forwardUdpToWebrtc] at h
      split at h
      · rename_i deadline hpc
        rw [Option.ite_none_right_eq_some] at h
        obtain rfl := Option.some.inj h.2
        exact .idle hpc h.1
      · cases h
  | notified =>
      simp only [forwardUdpToWebrtc, Option.ite_none_right_eq_some] at h
      obtain ⟨hsel, h⟩ := h
      split at h
      · rename_i n hpoll
        obtain rfl := Option.some.inj h
        have hnotified := Acts.notified hsel (by rw [hpoll])
        rwa [hpoll] at hnotified
      · cases h
  | sent ok =>
      simp only [forwardUdpToWebrtc, Option.ite_none_right_eq_some] at h
      obtain ⟨hpc, h⟩ := h
      obtain rfl := Option.some.inj h
      cases ok with
      | true => exact .sent hpc
      | false => exact .sendFailed hpc
  | writeClosed =>
      simp only [forwardUdpToWebrtc, Option.ite_none_right_eq_some] at h
      obtain rfl := Option.some.inj h.2
      exact .writeClosed h.1
  | readClosed =>
      simp only [forwardUdpToWebrtc, Option.ite_none_right_eq_some] at h
      obtain rfl := Option.some.inj h.2
      exact .readClosed h.1

theorem acts_of_step {s s' : State} {e : Event} (h : step s e = some s') :
    Acts s e s' := by
  cases e with
  | start => exact acts_of_start h
  | forward p => exact acts_of_forward h
  | cancel =>
      simp only [step, cancel, Option.ite_none_right_eq_some] at h
      obtain rfl := Option.some.inj h.2
      exact .cancel h.1.1 h.1.2
  | datagram r =>
      obtain rfl := Option.some.inj h
      exact .datagram
  | browserMessage data =>
      simp only [step, Option.ite_none_right_eq_some] at h
      obtain rfl := Option.some.inj h.2
      unfold onMessage
      split
      · rename_i hinst
        exact .message hinst
      · rename_i hinst
        exact .unheard (Bool.eq_false_iff.mpr hinst)
  | readClose =>
      simp only [step, Option.ite_none_right_eq_some] at h
      obtain rfl := Option.some.inj h.2
      exact .readClose h.1
  | readError =>
      obtain rfl := Option.some.inj h
      exact .readError
  | shutdown =>
      obtain rfl := Option.some.inj h
      exact .shutdown
  | elapse ms =>
      obtain rfl := Option.some.inj h
      exact .elapse

/-- The callbacks of `on_close` and `on_error` notify once they are set. -/
theorem onReadEnd_cases (s : State) :
    (s.installed = true ∧ onReadEnd s
        = { s with shutdown := s.shutdown.notifyOne, readEnded := true })
      ∨ (s.installed = false ∧ onReadEnd s = s) := by
  unfold onReadEnd
  split
  · rename_i hinst
    exact Or.inl ⟨hinst, rfl⟩
  · rename_i hinst
    exact Or.inr ⟨Bool.eq_false_iff.mpr hinst, rfl⟩

/-- The steps of the forwarder task. -/
def ofForwarder : Event → Bool
  | .forward _ | .cancel => true
  | _ => false

theorem live_of_selecting {pc : ForwarderPc} (h : selecting pc = true) :
    pc.live = true := by
  cases pc <;> first | rfl | cases h

/-- A task that has not been spawned, or has finished, takes no step. -/
theorem live_of_step {s s' : State} {e : Event} (he : ofForwarder e = true)
    (h : step s e = some s') : s.forwarderPc.live = true := by
  cases acts_of_step h with
  | park hpc hsock hpoll => rw [hpc]; rfl
  | recv hsock hsel hne => exact live_of_selecting hsel
  | recvEmpty hsock hsel => exact live_of_selecting hsel
  | recvError hsock hsel => exact live_of_selecting hsel
  | idle hpc hle => rw [hpc]; rfl
  | notified hsel hpoll => exact live_of_selecting hsel
  | sent hpc => rw [hpc]; rfl
  | sendFailed hpc => rw [hpc]; rfl
  | writeClosed hpc => rw [hpc]; rfl
  | readClosed hpc => rw [hpc]; rfl
  | cancel hab hlive => exact hlive
  | _ => cases he

/-! ## What a session sees of its bridge -/

/-- The forwarder has been told to shut down. -/
def Told (s : State) : Prop := s.shutdownCalled = true ∨ s.readEnded = true

/-- The steps a bridge takes by itself; the other two are its session's. -/
def own : Event → Bool
  | .shutdown | .readClose => false
  | _ => true

/-- The fields a session reads, before and after a step of the bridge:
nothing is told, and a failed upstream stays failed. -/
structure Unseen (s s' : State) : Prop where
  shutdownCalled : s'.shutdownCalled = s.shutdownCalled
  readEnded : s'.readEnded = s.readEnded
  failed : s.writeCloseCalled = true → s'.writeCloseCalled = true

/-- Of its own steps only a reported read error tells the bridge anything. -/
theorem unseen_step {s s' : State} {e : Event} (he : own e = true)
    (h : step s e = some s') :
    Unseen s s' ∨ e = .readError ∧ s.installed = true
      ∧ s' = { s with shutdown := s.shutdown.notifyOne, readEnded := true } := by
  cases acts_of_step h with
  | readClose hopen => cases he
  | shutdown => cases he
  | readError =>
      rcases onReadEnd_cases s with ⟨hinst, heq⟩ | ⟨-, heq⟩ <;> rw [heq]
      · exact Or.inr ⟨rfl, hinst, rfl⟩
      · exact Or.inl ⟨rfl, rfl, id⟩
  | recvError hsock hsel => exact Or.inl ⟨rfl, rfl, fun _ => rfl⟩
  | idle hpc hle => exact Or.inl ⟨rfl, rfl, fun _ => rfl⟩
  | _ => exact Or.inl ⟨rfl, rfl, id⟩

end Bridge

end XashProxy
