import XashProxy.Lts
import XashProxy.Net
import Mathlib.Logic.Function.Basic

/-!
# The client transport

A model of `Xash3DWebRTC`: the signaling socket, the peer connection it
negotiates, the data channels of that peer, and the reconnects that replace
all three. The fields of the class are fields of `State`; sockets and peers
are objects the browser owns, numbered in the order they are created, and
the handlers of an old one stay as they were installed.

The four promises of `handleDescription` and those of `addIceCandidate` are
operations of the peer they were called on. A peer finishes its operations
in call order, and `complete` runs the continuation of the one that
finishes: the continuation reads `this.peer` and `this.ws` anew.

What is assumed of the browser: a socket whose `close()` was called delivers
no message; a peer answers only a remote offer, accepts only its own last
answer, and rejects `addIceCandidate` exactly when it has no remote
description; it emits candidates after its local description is set; on a
closed peer no operation finishes. Time is in milliseconds.
-/

namespace XashProxy

namespace Transport

/-! ## Signaling -/

/-- An offer, tagged with the socket it arrives on. -/
structure Offer where
  socket : Nat
  id : Nat
deriving DecidableEq, Repr

/-- An answer, tagged with the peer that created it and the offer that peer
had. -/
structure Answer where
  peer : Nat
  offer : Offer
deriving DecidableEq, Repr

/-- A candidate of the proxy, tagged with the socket it arrives on. -/
structure RemoteCandidate where
  socket : Nat
  id : Nat
deriving DecidableEq, Repr

/-- A candidate the browser gathers, tagged with the peer it is for. -/
structure LocalCandidate where
  peer : Nat
  id : Nat
deriving DecidableEq, Repr

/-- What the client sends. -/
inductive Signal where
  | answer (a : Answer)
  | candidate (c : LocalCandidate)
  | ping
deriving DecidableEq, Repr

/-! ## Objects of the browser -/

inductive ReadyState where
  | connecting
  | opened
  | closing
  | closed
deriving DecidableEq, Repr

structure Socket where
  readyState : ReadyState
  /-- `onopen`, `onerror` and `onclose` are set. -/
  handlers : Bool
  /-- The error event has fired. -/
  errored : Bool
  received : List RemoteCandidate
  outbox : List Signal
deriving DecidableEq, Repr

inductive ConnectionState where
  | new
  | connecting
  | connected
  | disconnected
  | failed
  | closed
deriving DecidableEq, Repr

inductive Label where
  | write
  | read
deriving DecidableEq, Repr

instance {P : Label → Prop} [DecidablePred P] : Decidable (∀ label, P label) :=
  decidable_of_iff (P .write ∧ P .read)
    ⟨fun h label => match label with | .write => h.1 | .read => h.2,
      fun h => ⟨h .write, h .read⟩⟩

/-- A channel of a peer; `absent` before `ondatachannel`. -/
inductive ChannelState where
  | absent
  | connecting
  | opened
  | closed
deriving DecidableEq, Repr

inductive Op where
  | setRemoteDescription (o : Offer)
  | createAnswer
  | setLocalDescription (a : Answer)
  | addIceCandidate (c : RemoteCandidate)
deriving DecidableEq, Repr

structure Peer where
  /-- The socket the peer was started for. -/
  socket : Option Nat
  connectionState : ConnectionState
  channels : Label → ChannelState
  /-- The counter that the `onopen` handlers of this peer share. -/
  channelsCount : Nat
  /-- Operations called and not finished, oldest first. -/
  ops : List Op
  remote : Option Offer
  /-- `signalingState` is `have-remote-offer`. -/
  haveRemoteOffer : Bool
  lastAnswer : Option Answer
  localSet : Bool
  added : List RemoteCandidate
  /-- One of its channels has closed or erred, or the peer has failed. -/
  reported : Bool

/-- A pending `setTimeout` of `scheduleReconnect`. -/
structure Timeout where
  id : Nat
  due : Nat
deriving DecidableEq, Repr

structure State where
  /-- The `read` channel of this peer is `this.channel`. -/
  channel : Option Nat
  resolve : Bool
  ws : Option Nat
  peer : Option Nat
  remoteDescription : Option Offer
  candidates : List RemoteCandidate
  wasRemote : Bool
  reconnectTimer : Option Nat
  reconnectDelay : Nat
  keepaliveTimer : Option Nat
  wasConnected : Bool
  onReconnected : Bool
  net : Net
  now : Nat
  nextTimer : Nat
  timeouts : List Timeout
  intervals : List Nat
  sockets : Nat → Socket
  nextSocket : Nat
  peers : Nat → Peer
  nextPeer : Nat
  /-- Times `connect()` has resolved, and calls of `onReconnected`. -/
  resolved : Nat
  reconnects : Nat
  /-- Offers handed to a peer, and offers reset before they were. -/
  applied : List Offer
  lost : List Offer
  /-- Continuations that found no peer. -/
  typeErrors : Nat

def Socket.fresh : Socket := ⟨.connecting, true, false, [], []⟩

def Peer.fresh (socket : Option Nat) : Peer where
  socket := socket
  connectionState := .new
  channels := fun _ => .absent
  channelsCount := 0
  ops := []
  remote := none
  haveRemoteOffer := false
  lastAnswer := none
  localSet := false
  added := []
  reported := false

/-- The constructor; `onReconnected` is set by the page before `connect()`. -/
def init (onReconnected : Bool) (maxPackets : Nat) (pos : 0 < maxPackets) : State where
  channel := none
  resolve := false
  ws := none
  peer := none
  remoteDescription := none
  candidates := []
  wasRemote := false
  reconnectTimer := none
  reconnectDelay := 1000
  keepaliveTimer := none
  wasConnected := false
  onReconnected := onReconnected
  net := .init maxPackets pos
  now := 1
  nextTimer := 1
  timeouts := []
  intervals := []
  sockets := fun _ => .fresh
  nextSocket := 0
  peers := fun _ => .fresh none
  nextPeer := 0
  resolved := 0
  reconnects := 0
  applied := []
  lost := []
  typeErrors := 0

def modifySocket (s : State) (k : Nat) (f : Socket → Socket) : State :=
  { s with sockets := Function.update s.sockets k (f (s.sockets k)) }

def modifyPeer (s : State) (p : Nat) (f : Peer → Peer) : State :=
  { s with peers := Function.update s.peers p (f (s.peers p)) }

/-- A method of the peer is called. -/
def Peer.call (q : Peer) (ops : List Op) : Peer := { q with ops := q.ops ++ ops }

def Socket.send (k : Socket) (msg : Signal) : Socket := { k with outbox := k.outbox ++ [msg] }

/-! ## Timers -/

def clearTimeout (id : Option Nat) (timeouts : List Timeout) : List Timeout :=
  match id with
  | some id => timeouts.filter (fun t => t.id ≠ id)
  | none => timeouts

def clearInterval (id : Option Nat) (intervals : List Nat) : List Nat :=
  match id with
  | some id => intervals.filter (fun i => i ≠ id)
  | none => intervals

def scheduleReconnect (s : State) : State :=
  { s with
    timeouts := clearTimeout s.reconnectTimer s.timeouts
      ++ [⟨s.nextTimer, s.now + s.reconnectDelay⟩]
    reconnectDelay := min (s.reconnectDelay * 2) 30000
    reconnectTimer := some s.nextTimer
    nextTimer := s.nextTimer + 1 }

def stopKeepalive (s : State) : State :=
  { s with
    intervals := clearInterval s.keepaliveTimer s.intervals
    keepaliveTimer := none }

def startKeepalive (s : State) : State :=
  let s := stopKeepalive s
  { s with
    intervals := s.intervals ++ [s.nextTimer]
    keepaliveTimer := some s.nextTimer
    nextTimer := s.nextTimer + 1 }

/-! ## `connectWs` -/

/-- The handlers of the old socket are removed and `close()` is called. -/
def Socket.supersede (k : Socket) : Socket :=
  { k with
    handlers := false
    readyState := if k.readyState = .closed then .closed else .closing }

def supersede (ws : Option Nat) (sockets : Nat → Socket) : Nat → Socket :=
  match ws with
  | some k => Function.update sockets k (sockets k).supersede
  | none => sockets

def connectWs (s : State) : State :=
  let s := { s with
    timeouts := clearTimeout s.reconnectTimer s.timeouts
    reconnectTimer := none }
  let s := stopKeepalive s
  { s with
    sockets := Function.update (supersede s.ws s.sockets) s.nextSocket .fresh
    ws := some s.nextSocket
    nextSocket := s.nextSocket + 1 }

def forceReconnect (s : State) : State :=
  connectWs { s with
    timeouts := clearTimeout s.reconnectTimer s.timeouts
    reconnectTimer := none
    reconnectDelay := 1000 }

def connect (s : State) : State := connectWs { s with resolve := true }

/-! ## Negotiation -/

/-- `this.ws?.send(msg)`; `none` when it throws. -/
def wsSend (s : State) (msg : Signal) : Option State :=
  match s.ws with
  | some k =>
      match (s.sockets k).readyState with
      | .connecting => none
      | .opened => some (modifySocket s k fun k => k.send msg)
      | .closing | .closed => some s
  | none => some s

/-- `handleDescription`, up to its first `await`. -/
def handleDescription (s : State) : State :=
  match s.remoteDescription, s.peer with
  | some o, some p =>
      { modifyPeer s p fun q => q.call [.setRemoteDescription o] with
        applied := s.applied ++ [o] }
  | _, _ => s

def handleCandidates (s : State) : State :=
  match s.candidates, s.peer with
  | [], _ | _, none => s
  | cs, some p =>
      { modifyPeer s p fun q => q.call (cs.map .addIceCandidate) with candidates := [] }

/-- `this.remoteDescription = undefined` -/
def resetDescription (s : State) : State :=
  { s with
    remoteDescription := none
    lost := match s.remoteDescription with
      | some o => if o ∈ s.applied then s.lost else s.lost ++ [o]
      | none => s.lost }

/-- `this.peer!.` followed by a call. -/
def callPeer (s : State) (op : Op) : State :=
  match s.peer with
  | some p => modifyPeer s p fun q => q.call [op]
  | none => { s with typeErrors := s.typeErrors + 1 }

/-- `handleDescription` after `setRemoteDescription`. -/
def afterSetRemote (s : State) : State := callPeer (resetDescription s) .createAnswer

/-- `handleDescription` after `createAnswer`. -/
def afterCreateAnswer (s : State) (answer : Answer) : State :=
  callPeer s (.setLocalDescription answer)

/-- `handleDescription` after `setLocalDescription`. -/
def afterSetLocal (s : State) (answer : Answer) : State :=
  match wsSend s (.answer answer) with
  | some s => handleCandidates { s with wasRemote := true }
  | none => s

/-- The oldest operation of peer `p` finishes: it resolves or it rejects. -/
def complete (s : State) (p : Nat) (ok : Bool) : Option State :=
  let q := s.peers p
  if q.connectionState = .closed then none
  else match q.ops, ok with
  | .setRemoteDescription o :: ops, true =>
      some (afterSetRemote (modifyPeer s p fun q =>
        { q with ops := ops, remote := some o, haveRemoteOffer := true }))
  | .createAnswer :: ops, true =>
      match q.remote, q.haveRemoteOffer with
      | some o, true =>
          some (afterCreateAnswer (modifyPeer s p fun q =>
            { q with ops := ops, lastAnswer := some ⟨p, o⟩ }) ⟨p, o⟩)
      | _, _ => none
  | .setLocalDescription a :: ops, true =>
      if q.haveRemoteOffer = true ∧ q.lastAnswer = some a then
        some (afterSetLocal (modifyPeer s p fun q =>
          { q with ops := ops, haveRemoteOffer := false, localSet := true }) a)
      else none
  | .addIceCandidate c :: ops, true =>
      if q.remote.isSome then
        some (modifyPeer s p fun q => { q with ops := ops, added := q.added ++ [c] })
      else none
  | .addIceCandidate c :: ops, false =>
      if q.remote.isSome then none
      else some { modifyPeer s p fun q => { q with ops := ops } with
        candidates := s.candidates ++ [c] }
  | _ :: ops, false => some (modifyPeer s p fun q => { q with ops := ops })
  | [], _ => none

/-- `startConnection` -/
def startConnection (s : State) : State :=
  handleDescription { s with
    peers := Function.update s.peers s.nextPeer (.fresh s.ws)
    peer := some s.nextPeer
    nextPeer := s.nextPeer + 1 }

/-! ## Handlers -/

/-- `ws.onopen` -/
def onOpen (s : State) : State :=
  startConnection (startKeepalive { s with reconnectDelay := 1000 })

/-- `ws.onerror` -/
def onError (s : State) : State := scheduleReconnect (stopKeepalive s)

/-- `case 'offer'` of the message handler. -/
def onOffer (s : State) (o : Offer) : State :=
  handleDescription { s with remoteDescription := some o }

/-- `case 'candidate'` of the message handler. -/
def onCandidate (s : State) (c : RemoteCandidate) : State :=
  let s := { s with candidates := s.candidates ++ [c] }
  if s.wasRemote then handleCandidates s else s

/-- `peer.onconnectionstatechange`; any peer's handler looks at `this.peer`. -/
def onConnectionStateChange (s : State) : State :=
  match s.peer with
  | some p =>
      if (s.peers p).connectionState = .failed then
        let s := modifyPeer s p fun q =>
          { q with connectionState := .closed, reported := true }
        let s := resetDescription { s with peer := none }
        scheduleReconnect { s with candidates := [], wasRemote := false }
      else s
  | none => s

/-- `channel.onopen` of peer `p`. -/
def onChannelOpen (s : State) (p : Nat) (label : Label) : State :=
  let count := (s.peers p).channelsCount + 1
  let s := modifyPeer s p fun q => { q with channelsCount := count }
  let s := { s with channel := if label = .read then some p else s.channel }
  if count = 2 then
    if s.wasConnected then
      if s.onReconnected then { s with reconnects := s.reconnects + 1 } else s
    else if s.resolve then
      { s with wasConnected := true, resolve := false, resolved := s.resolved + 1 }
    else s
  else s

/-- `channel.onclose` and `channel.onerror`. -/
def onChannelEnd (s : State) (label : Label) : State :=
  scheduleReconnect { s with channel := if label = .read then none else s.channel }

/-- `channel.onmessage`, which only the `write` channel has. -/
def onChannelMessage (s : State) (label : Label) (data : Payload) : State :=
  match label with
  | .write => { s with net := s.net.onMessage s.now data }
  | .read => s

inductive Event where
  | elapse (ms : Nat)
  | connect
  | forceReconnect
  | timer (i : Nat)
  | keepalive (id : Nat)
  | socketOpen (k : Nat)
  | socketError (k : Nat)
  | socketClose (k : Nat)
  | offer (k id : Nat)
  | candidate (k id : Nat)
  | complete (p : Nat) (ok : Bool)
  | iceCandidate (p : Nat) (id : Option Nat)
  | connectionState (p : Nat) (st : ConnectionState)
  | dataChannel (p : Nat) (label : Label)
  | channelOpen (p : Nat) (label : Label)
  | channelClose (p : Nat) (label : Label)
  | channelError (p : Nat) (label : Label)
  | channelMessage (p : Nat) (label : Label) (data : Payload)
  | converted (i : Nat)
  | dequeue
deriving DecidableEq, Repr

def Peer.setChannel (q : Peer) (label : Label) (st : ChannelState) : Peer :=
  { q with channels := Function.update q.channels label st }

/-- One event: a task of the browser's event loop. -/
def step (s : State) : Event → Option State
  | .elapse ms => some { s with now := s.now + ms }
  | .connect => some (connect s)
  | .forceReconnect => some (forceReconnect s)
  | .timer i =>
      match s.timeouts[i]? with
      | some t =>
          if t.due ≤ s.now then
            some (connectWs { s with
              timeouts := s.timeouts.eraseIdx i, reconnectTimer := none })
          else none
      | none => none
  | .keepalive id =>
      if id ∈ s.intervals then
        match s.ws with
        | some k =>
            if (s.sockets k).readyState = .opened then
              some (modifySocket s k fun k => k.send .ping)
            else some s
        | none => some s
      else none
  | .socketOpen k =>
      if k < s.nextSocket ∧ (s.sockets k).readyState = .connecting then
        let s := modifySocket s k fun k => { k with readyState := .opened }
        some (if (s.sockets k).handlers then onOpen s else s)
      else none
  | .socketError k =>
      if k < s.nextSocket ∧ (s.sockets k).readyState ≠ .closed then
        let s := modifySocket s k fun k => { k with errored := true }
        some (if (s.sockets k).handlers then onError s else s)
      else none
  | .socketClose k =>
      if k < s.nextSocket ∧ (s.sockets k).readyState ≠ .closed then
        let s := modifySocket s k fun k => { k with readyState := .closed }
        some (if (s.sockets k).handlers then stopKeepalive s else s)
      else none
  | .offer k id =>
      if k < s.nextSocket ∧ (s.sockets k).readyState = .opened then
        some (onOffer s ⟨k, id⟩)
      else none
  | .candidate k id =>
      if k < s.nextSocket ∧ (s.sockets k).readyState = .opened then
        let s := modifySocket s k fun j => { j with received := j.received ++ [⟨k, id⟩] }
        some (onCandidate s ⟨k, id⟩)
      else none
  | .complete p ok => complete s p ok
  | .iceCandidate p id =>
      if (s.peers p).localSet = true ∧ (s.peers p).connectionState ≠ .closed then
        match id with
        | some id => some ((wsSend s (.candidate ⟨p, id⟩)).getD s)
        | none => some s
      else none
  | .connectionState p st =>
      if p < s.nextPeer ∧ (s.peers p).connectionState ≠ .closed ∧ st ≠ .closed then
        some (onConnectionStateChange
          (modifyPeer s p fun q => { q with connectionState := st }))
      else none
  | .dataChannel p label =>
      if p < s.nextPeer ∧ (s.peers p).channels label = .absent then
        some (modifyPeer s p fun q => q.setChannel label .connecting)
      else none
  | .channelOpen p label =>
      if (s.peers p).channels label = .connecting then
        some (onChannelOpen (modifyPeer s p fun q => q.setChannel label .opened) p label)
      else none
  | .channelClose p label =>
      if (s.peers p).channels label = .connecting
          ∨ (s.peers p).channels label = .opened then
        some (onChannelEnd (modifyPeer s p fun q =>
          { q.setChannel label .closed with reported := true }) label)
      else none
  | .channelError p label =>
      if (s.peers p).channels label = .connecting
          ∨ (s.peers p).channels label = .opened then
        some (onChannelEnd (modifyPeer s p fun q => { q with reported := true }) label)
      else none
  | .channelMessage p label data =>
      if (s.peers p).channels label = .opened then
        some (onChannelMessage s label data)
      else none
  | .converted i => (s.net.converted i).map fun net => { s with net := net }
  | .dequeue => s.net.dequeue.map fun net => { s with net := net }

end Transport

end XashProxy
