import XashProxy.Lts
import XashProxy.Net

/-!
# The page: rejoins and the stall watchdog

A model of `main.ts` over one browser tab. A `Page` is what a page load
starts afresh, the rest of a `State` survives it: the clock and the `sessionStorage`
guard. Of the client only the incoming packets are modelled here; the
transport is `XashProxy.Transport`.

`netClear` may throw, so every event that calls it says whether it does.
Whether `Cmd_ExecuteString` throws changes nothing: both calls of `rejoin()`
stand in a `try`, and the log records the attempt. Time is in milliseconds.
-/

namespace XashProxy

namespace Tab

def stallMs : Nat := 15000

def rejoinAttemptsBeforeReload : Nat := 6

/-- The delay between the `disconnect` and the `connect` of a rejoin. -/
def rejoinDelay : Nat := 300

structure Page where
  /-- The client `x` exists. -/
  x : Bool
  started : Bool
  /-- When `started` was set. -/
  startedAt : Nat
  hidden : Bool
  hiddenSince : Nat
  net : Net
  stallCount : Nat
  backlogRejoins : Nat
  rejoinInFlight : Bool
  /-- Due times of the pending rejoin timers. -/
  rejoinTimers : List Nat

/-- What the page does to the outside, and what reaches it from there. -/
inductive Act where
  | load
  | reconnected
  | netClear
  | disconnect
  | connect
  | reload
  | forceReconnect
deriving DecidableEq, Repr

structure State where
  /-- `Date.now()` -/
  now : Nat
  now_pos : 0 < now
  /-- `sessionStorage.getItem('watchStallReloaded')` is set. -/
  watchStallReloaded : Bool
  page : Page
  log : List Act

def load (maxPackets : Nat) (pos : 0 < maxPackets) (hidden : Bool) : Page where
  x := false
  started := false
  startedAt := 0
  hidden := hidden
  hiddenSince := 0
  net := .init maxPackets pos
  stallCount := 0
  backlogRejoins := 0
  rejoinInFlight := false
  rejoinTimers := []

/-- A recovery action of the watchdog. -/
inductive Recovery where
  | rejoin
  | reload
  | forceReconnect
deriving DecidableEq, Repr

inductive Event where
  | elapse (ms : Nat)
  | load (hidden : Bool)
  | createClient
  | start (threw : Bool)
  | message (data : Payload)
  | converted (i : Nat)
  | dequeue
  | hide
  | unhide (clearThrows : Bool)
  | reconnected (clearThrows : Bool)
  | rejoinTimer (i : Nat) (clearThrows : Bool)
  | tick (clearThrows : Bool)
deriving DecidableEq, Repr

def record (s : State) (a : Act) : State := { s with log := s.log ++ [a] }

/-- `x.netClear()` in a `try`. -/
def netClear (s : State) (throws : Bool) : State :=
  let s := record s .netClear
  if throws then s else { s with page := { s.page with net := s.page.net.netClear } }

def rejoin (s : State) (clearThrows : Bool) : State :=
  if s.page.rejoinInFlight || !s.page.x || !s.page.started then s
  else
    let s := { s with page := { s.page with rejoinInFlight := true } }
    let s := record (netClear s clearThrows) .disconnect
    { s with page := { s.page with
        rejoinTimers := s.page.rejoinTimers ++ [s.now + rejoinDelay] } }

/-- The callback of a rejoin timer. -/
def finishRejoin (s : State) (clearThrows : Bool) : State :=
  let s := record (netClear s clearThrows) .connect
  { s with page := { s.page with rejoinInFlight := false } }

/-- `visibilitychange`, to visible. -/
def onVisible (s : State) (clearThrows : Bool) : State :=
  let s := { s with page := { s.page with hidden := false } }
  let hiddenFor := s.now - s.page.hiddenSince
  if s.page.started && s.page.x && hiddenFor > 60000 then rejoin s clearThrows else s

/-- The end of `main()`; a call that throws before the last one keeps the
`connect` from being issued. -/
def start (s : State) (threw : Bool) : State :=
  let s := { s with page := { s.page with started := true, startedAt := s.now } }
  if threw then s else record s .connect

/-- `stallCount >= REJOIN_ATTEMPTS_BEFORE_RELOAD` and beyond: what the
watchdog does about a stalled stream. -/
def escalate (s : State) (clearThrows : Bool) : Recovery × State :=
  if rejoinAttemptsBeforeReload ≤ s.page.stallCount then
    if !s.watchStallReloaded then
      (.reload, record { s with watchStallReloaded := true } .reload)
    else if s.page.stallCount % 12 = 0 then
      (.forceReconnect, record s .forceReconnect)
    else (.rejoin, rejoin s clearThrows)
  else (.rejoin, rejoin s clearThrows)

/-- The watchdog's interval callback, with the recovery action it takes. -/
def tick (s : State) (clearThrows : Bool) : Option Recovery × State :=
  if !s.page.started || !s.page.x || s.page.hidden then (none, s)
  else if s.page.net.lastPacketAt = 0 then (none, s)
  -- `backlog >= capacity * BACKLOG_HIGH_WATERMARK`, the watermark being 0.8
  else if s.page.net.netCapacity * 4 ≤ s.page.net.netBacklog * 5 then
    let page := { s.page with backlogRejoins := s.page.backlogRejoins + 1 }
    (some .rejoin, rejoin { s with page := page } clearThrows)
  else if s.now - s.page.net.lastPacketAt ≤ stallMs then
    (none, { s with page := { s.page with stallCount := 0 } })
  else
    let page := { s.page with stallCount := s.page.stallCount + 1 }
    let r := escalate { s with page := page } clearThrows
    (some r.1, r.2)

def step (s : State) : Event → Option State
  | .elapse ms =>
      some { s with now := s.now + ms, now_pos := Nat.add_pos_left s.now_pos ms }
  | .load hidden =>
      let net := s.page.net
      some (record { s with
        page := load net.incoming.capacity net.incoming.pos hidden } .load)
  | .createClient =>
      if s.page.x then none else some { s with page := { s.page with x := true } }
  | .start threw =>
      if s.page.x = true ∧ s.page.started = false then some (start s threw) else none
  | .message data =>
      if s.page.x then
        some { s with page := { s.page with net := s.page.net.onMessage s.now data } }
      else none
  | .converted i =>
      (s.page.net.converted i).map fun net => { s with page := { s.page with net := net } }
  | .dequeue =>
      if s.page.started then
        s.page.net.dequeue.map fun net => { s with page := { s.page with net := net } }
      else none
  | .hide =>
      if s.page.hidden then none
      else some { s with page := { s.page with hidden := true, hiddenSince := s.now } }
  | .unhide clearThrows => if s.page.hidden then some (onVisible s clearThrows) else none
  | .reconnected clearThrows =>
      if s.page.x then
        let s := record s .reconnected
        some (if s.page.started then rejoin s clearThrows else s)
      else none
  | .rejoinTimer i clearThrows =>
      match s.page.rejoinTimers[i]? with
      | some due =>
          if due ≤ s.now then
            let timers := s.page.rejoinTimers.eraseIdx i
            some (finishRejoin { s with page := { s.page with rejoinTimers := timers } }
              clearThrows)
          else none
      | none => none
  | .tick clearThrows => some (tick s clearThrows).2

/-- A tab that has just loaded the page. -/
def init (now : Nat) (now_pos : 0 < now) (maxPackets : Nat) (pos : 0 < maxPackets)
    (hidden : Bool) : State :=
  ⟨now, now_pos, false, load maxPackets pos hidden, []⟩

end Tab

end XashProxy
