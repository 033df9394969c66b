import XashProxy.DtlsClientAuth
import XashProxy.Lts

/-!
# The server's handshake loop

`handshake` prepares a flight, sends it, and waits for the client's answer or
for the timer. The reader runs beside it: it fills the cache with the client's
messages and may send alerts of its own. A run is any interleaving of the two,
with any messages, any losses and any drawn bytes.

The loop ends finished or with an error. Only then does `handshake` return, so
`finish` is never reached.
-/

namespace XashProxy

namespace Dtls

open Codec Programs Lts

inductive HandshakeState where
  | errored (e : Error)
  | preparing
  | sending
  | waiting
  | finished
deriving DecidableEq, Repr

structure DtlsConn where
  state : State
  cache : HandshakeCache
  localEpoch : UInt16
  currentFlight : Flight
  flights : Option (List Packet)
  retransmit : Bool
  handshakeState : HandshakeState
  /-- What was handed to `write_packets`. -/
  written : List Packet
deriving DecidableEq, Repr

/-- `DTLSConn::new` of a server. -/
def DtlsConn.new : DtlsConn where
  state := .default
  cache := []
  localEpoch := 0
  currentFlight := .flight0
  flights := none
  retransmit := false
  handshakeState := .preparing
  written := []

namespace DtlsConn

/-- Alerts are encrypted once the handshake is over. -/
def alertPacket (c : DtlsConn) (a : Alert) : Packet where
  record := .new protocolVersion1_2 c.localEpoch (.alert a)
  shouldEncrypt := c.handshakeState = .finished
  resetLocalSequenceNumber := false

def notify (c : DtlsConn) (a : Alert) : DtlsConn :=
  { c with written := c.written ++ [c.alertPacket a] }

/-- A flight stopped with a fault. Its alert is sent, and with an error the
handshake is over; if the alert could not be sent, that is the error. `go` is
where the loop goes on otherwise. -/
def fault (c : DtlsConn) (f : Fault) (net : Except Error Unit) (go : HandshakeState) : DtlsConn :=
  match f, net with
  | (none, none), _ => { c with handshakeState := go }
  | (none, some e), _ => { c with handshakeState := .errored e }
  | (some a, none), _ => { c.notify a with handshakeState := go }
  | (some a, some _), .error alertErr => { c.notify a with handshakeState := .errored alertErr }
  | (some a, some e), .ok () => { c.notify a with handshakeState := .errored e }

/-- The epochs and message numbers of a flight that is about to be sent. -/
def numberFrom (epoch : UInt16) (seq : Int) : List Packet → List Packet × Int
  | [] => ([], seq)
  | p :: ps =>
      let header := { p.record.recordLayerHeader with
        epoch := p.record.recordLayerHeader.epoch + epoch }
      match p.record.content with
      | .handshake h =>
          let content := Content.handshake { h with
            handshakeHeader := { h.handshakeHeader with messageSequence := UInt16.ofInt seq } }
          ({ p with record := ⟨header, content⟩ } :: (numberFrom epoch (seq + 1) ps).1,
            (numberFrom epoch (seq + 1) ps).2)
      | content =>
          ({ p with record := ⟨header, content⟩ } :: (numberFrom epoch seq ps).1,
            (numberFrom epoch seq ps).2)

def nextEpoch (epoch : UInt16) (ps : List Packet) : UInt16 :=
  ps.foldl (fun next p => max next p.record.recordLayerHeader.epoch) epoch

/-- The messages of the server enter its cache as they are written. -/
def keepOwn (cache : HandshakeCache) : List Packet → Except Error Unit × HandshakeCache
  | [] => (.ok (), cache)
  | p :: ps =>
      match p.record.content with
      | .handshake h =>
          match p.record.marshal with
          | .error e => (.error e, cache)
          | .ok handshakeRaw =>
              keepOwn (cache.push {
                typ := h.handshakeHeader.handshakeType
                isClient := false
                epoch := p.record.recordLayerHeader.epoch
                messageSequence := h.handshakeHeader.messageSequence
                data := handshakeRaw.drop recordLayerHeaderSize }) ps
      | _ => keepOwn cache ps

section
variable (crypto : Crypto) (cfg : HandshakeConfig)

def prepare (drawn : Flight.Drawn) (net : Except Error Unit) (c : DtlsConn) : DtlsConn :=
  let c := { c with flights := none, retransmit := c.currentFlight.hasRetransmit }
  match exec (c.currentFlight.generate crypto cfg drawn c.cache) c.state with
  | (.error f, state) => { c with state := state }.fault f net .sending
  | (.ok pkts, state) =>
      let numbered := numberFrom cfg.initialEpoch state.handshakeSendSequence pkts
      { c with
        state := { state with handshakeSendSequence := numbered.2 }
        flights := some numbered.1
        localEpoch :=
          if nextEpoch cfg.initialEpoch numbered.1 = cfg.initialEpoch then c.localEpoch
          else nextEpoch cfg.initialEpoch numbered.1
        handshakeState := .sending }

def afterSend (c : DtlsConn) : HandshakeState :=
  if c.currentFlight.isLastSendFlight then .finished else .waiting

/-- With an error the first `kept` packets of the flight have entered the cache. -/
def send (kept : Nat) (net : Except Error Unit) (c : DtlsConn) : DtlsConn :=
  match c.flights with
  | none => { c with handshakeState := c.afterSend }
  | some pkts =>
      let c := { c with written := c.written ++ pkts }
      match net with
      | .error e =>
          { c with cache := (keepOwn c.cache (pkts.take kept)).2, handshakeState := .errored e }
      | .ok () =>
          match keepOwn c.cache pkts with
          -- the task that writes is gone, and its answer with it
          | (.error .panic, cache) => { c with cache := cache, handshakeState := c.afterSend }
          | (.error e, cache) => { c with cache := cache, handshakeState := .errored e }
          | (.ok (), cache) => { c with cache := cache, handshakeState := c.afterSend }

/-- `queued` are the messages that the reader has added while the flight was
read; there are none if the reader is gone. -/
def parse (drawn : Flight.Drawn) (queued : Option (List (UInt16 × Bytes)))
    (net : Except Error Unit) (c : DtlsConn) : DtlsConn :=
  let cache := queued.map c.cache.receiveAll
  match exec (c.currentFlight.parse crypto cfg drawn c.cache cache) c.state with
  | (.error f, state) =>
      { c with state := state, cache := cache.getD c.cache }.fault f net .waiting
  | (.ok nextFlight, state) =>
      let c := { c with state := state, cache := cache.getD c.cache }
      if nextFlight.isLastRecvFlight ∧ c.currentFlight = nextFlight then
        { c with handshakeState := .finished }
      else { c with currentFlight := nextFlight, handshakeState := .preparing }

inductive Event where
  /-- The reader has put a message together. -/
  | receive (epoch : UInt16) (data : Bytes)
  /-- The reader sends an alert. -/
  | alert (a : Alert)
  | prepare (drawn : Flight.Drawn) (net : Except Error Unit)
  | send (kept : Nat) (net : Except Error Unit)
  /-- The reader has told the loop of messages. -/
  | parse (drawn : Flight.Drawn) (queued : Option (List (UInt16 × Bytes)))
    (net : Except Error Unit)
  | retransmitTimer
  /-- The reader has ended. -/
  | readerGone

def step (c : DtlsConn) : Event → Option DtlsConn
  | .receive epoch data => some { c with cache := c.cache.receive epoch data }
  | .alert a => some (c.notify a)
  | .prepare drawn net =>
      if c.handshakeState = .preparing then some (c.prepare crypto cfg drawn net) else none
  | .send kept net => if c.handshakeState = .sending then some (c.send kept net) else none
  | .parse drawn queued net =>
      if c.handshakeState = .waiting then some (c.parse crypto cfg drawn queued net) else none
  | .retransmitTimer =>
      if c.handshakeState = .waiting then
        some { c with handshakeState := if c.retransmit then .sending else .waiting }
      else none
  | .readerGone =>
      if c.handshakeState = .waiting then
        some { c with handshakeState := .errored .errAlertFatalOrClose }
      else none

end

end DtlsConn

end Dtls

end XashProxy
