import XashProxy.BridgeForward
import XashProxy.NetOrder

/-!
# The proxy and the page together

Any number of bridges feed the one queue of the page: a peer the client has
given up keeps its `onmessage`, so its bridge goes on delivering. A lane is a
bridge with the two ordered channels between it and the page. A channel
delivers from the front of what was handed to its `send`; what it has not
delivered when it closes is lost.

`origins`, `engine`, `posted` and the lane's `trace` are history: no step
reads them.
-/

namespace XashProxy

namespace Pipeline

open Lts
open Bridge (Bytes)

/-- A bridge and its two data channels. -/
structure Lane where
  bridge : Bridge.State
  /-- How many of the bridge's sends have reached the page. -/
  delivered : Nat
  /-- What the page handed to `channel.send`, in order. -/
  outbox : List Bytes
  /-- How many of them have reached the proxy. -/
  received : Nat
  /-- The events of the bridge. -/
  trace : List Bridge.Event

structure State where
  lanes : List Lane
  /-- `this.channel`: the lane whose read channel opened last. -/
  channel : Option Nat
  net : Net
  /-- Which send of which lane each message of the page was. -/
  origins : List (Nat × Nat)
  /-- The packets the engine has taken, in order. -/
  engine : List Packet
  /-- The engine's `sendto` calls, and the lane each went to. -/
  posted : List (Bytes × Option Nat)

def Lane.init : Lane := ⟨Bridge.init, 0, [], 0, []⟩

def init (maxPackets : Nat) (pos : 0 < maxPackets) : State where
  lanes := []
  channel := none
  net := .init maxPackets pos
  origins := []
  engine := []
  posted := []

inductive Event where
  | connect
  | bridge (i : Nat) (e : Bridge.Event)
  | deliver (i now : Nat) (blob : Bool)
  | uplink (i : Nat)
  | readOpened (i : Nat)
  | readEnded
  | sendto (data : Bytes) (ready accepted : Bool)
  | converted (j : Nat)
  | dequeue
  | clear
deriving DecidableEq, Repr

def State.setLane (s : State) (i : Nat) (lane : Lane) : State :=
  { s with lanes := s.lanes.set i lane }

/-- A bridge takes one step. -/
def Lane.step (lane : Lane) (e : Bridge.Event) : Option Lane :=
  (Bridge.step lane.bridge e).map fun b =>
    { lane with bridge := b, trace := lane.trace ++ [e] }

/-- What a browser hands to `onmessage` for a binary message. -/
def payload (blob : Bool) (bytes : Bytes) : Payload :=
  if blob then .blob bytes else .arrayBuffer bytes

/-- A message of the read channel is the bridge's only in `uplink`. -/
def fromBrowser : Bridge.Event → Bool
  | .browserMessage _ => true
  | _ => false

/-- `sendto`: the packet goes to an open channel, or nowhere. A `send` that
throws is caught. -/
def sendto (s : State) (data : Bytes) (ready accepted : Bool) : State :=
  let dropped := { s with posted := s.posted ++ [(data, none)] }
  match s.channel with
  | none => dropped
  | some i =>
      match s.lanes[i]? with
      | none => dropped
      | some lane =>
          if ready && accepted then
            { s.setLane i { lane with outbox := lane.outbox ++ [data] } with
              posted := s.posted ++ [(data, some i)] }
          else dropped

def step (s : State) : Event → Option State
  | .connect => some { s with lanes := s.lanes ++ [.init] }
  | .bridge i e =>
      if fromBrowser e then none
      else do
        let lane ← s.lanes[i]?
        let lane ← lane.step e
        return s.setLane i lane
  | .deliver i now blob => do
      let lane ← s.lanes[i]?
      let bytes ← lane.bridge.sent[lane.delivered]?
      return { s.setLane i { lane with delivered := lane.delivered + 1 } with
        net := s.net.onMessage now (payload blob bytes)
        origins := s.origins ++ [(i, lane.delivered)] }
  | .uplink i => do
      let lane ← s.lanes[i]?
      let data ← lane.outbox[lane.received]?
      let lane ← lane.step (.browserMessage data)
      return s.setLane i { lane with received := lane.received + 1 }
  | .readOpened i =>
      if i < s.lanes.length then some { s with channel := some i } else none
  | .readEnded => some { s with channel := none }
  | .sendto data ready accepted => some (sendto s data ready accepted)
  | .converted j => (s.net.converted j).map fun n => { s with net := n }
  | .dequeue =>
      s.net.incoming.dequeue.map fun r =>
        { s with net := { s.net with incoming := r.2 }, engine := s.engine ++ [r.1] }
  | .clear => some { s with net := s.net.netClear }

/-- The ways an event takes effect. -/
inductive Acts (s : State) : Event → State → Prop where
  | connect : Acts s .connect { s with lanes := s.lanes ++ [.init] }
  | bridge {i : Nat} {e : Bridge.Event} {lane lane' : Lane}
      (hl : s.lanes[i]? = some lane) (he : fromBrowser e = false)
      (hstep : lane.step e = some lane') : Acts s (.bridge i e) (s.setLane i lane')
  | deliver {i now : Nat} {blob : Bool} {lane : Lane} {bytes : Bytes}
      (hl : s.lanes[i]? = some lane)
      (hsent : lane.bridge.sent[lane.delivered]? = some bytes) :
      Acts s (.deliver i now blob)
        { s.setLane i { lane with delivered := lane.delivered + 1 } with
          net := s.net.onMessage now (payload blob bytes)
          origins := s.origins ++ [(i, lane.delivered)] }
  | uplink {i : Nat} {lane lane' : Lane} {data : Bytes} (hl : s.lanes[i]? = some lane)
      (hdata : lane.outbox[lane.received]? = some data)
      (hstep : lane.step (.browserMessage data) = some lane') :
      Acts s (.uplink i) (s.setLane i { lane' with received := lane'.received + 1 })
  | readOpened {i : Nat} (hlt : i < s.lanes.length) :
      Acts s (.readOpened i) { s with channel := some i }
  | readEnded : Acts s .readEnded { s with channel := none }
  | posted {data : Bytes} {ready accepted : Bool} {i : Nat} {lane : Lane}
      (hc : s.channel = some i) (hl : s.lanes[i]? = some lane)
      (hready : ready = true) (hok : accepted = true) :
      Acts s (.sendto data ready accepted)
        { s.setLane i { lane with outbox := lane.outbox ++ [data] } with
          posted := s.posted ++ [(data, some i)] }
  | dropped {data : Bytes} {ready accepted : Bool} :
      Acts s (.sendto data ready accepted) { s with posted := s.posted ++ [(data, none)] }
  | converted {j : Nat} {n : Net} (hn : s.net.converted j = some n) :
      Acts s (.converted j) { s with net := n }
  | dequeue {packet : Packet} {incoming : RollingBuffer Packet}
      (hd : s.net.incoming.dequeue = some (packet, incoming)) :
      Acts s .dequeue { s with
        net := { s.net with incoming := incoming }, engine := s.engine ++ [packet] }
  | clear : Acts s .clear { s with net := s.net.netClear }

theorem acts_of_sendto (s : State) (data : Bytes) (ready accepted : Bool) :
    Acts s (.sendto data ready accepted) (sendto s data ready accepted) := by
  unfold sendto
  split
  · exact .dropped
  · rename_i i hc
    split
    · exact .dropped
    · rename_i lane hl
      split
      · rename_i hboth
        rw [Bool.and_eq_true] at hboth
        exact .posted hc hl hboth.1 hboth.2
      · exact .dropped

theorem acts_of_step {s s' : State} {e : Event} (h : step s e = some s') :
    Acts s e s' := by
  cases e with
  | connect =>
      obtain rfl := Option.some.inj h
      exact .connect
  | bridge i e =>
      simp only [step, Option.ite_none_left_eq_some] at h
      obtain ⟨he, h⟩ := h
      obtain ⟨lane, hl, h⟩ := Option.bind_eq_some_iff.mp h
      obtain ⟨lane', hstep, h⟩ := Option.bind_eq_some_iff.mp h
      obtain rfl := Option.some.inj h
      exact .bridge hl (Bool.eq_false_iff.mpr he) hstep
  | deliver i now blob =>
      obtain ⟨lane, hl, h⟩ := Option.bind_eq_some_iff.mp h
      obtain ⟨bytes, hsent, h⟩ := Option.bind_eq_some_iff.mp h
      obtain rfl := Option.some.inj h
      exact .deliver hl hsent
  | uplink i =>
      obtain ⟨lane, hl, h⟩ := Option.bind_eq_some_iff.mp h
      obtain ⟨data, hdata, h⟩ := Option.bind_eq_some_iff.mp h
      obtain ⟨lane', hstep, h⟩ := Option.bind_eq_some_iff.mp h
      obtain rfl := Option.some.inj h
      exact .uplink hl hdata hstep
  | readOpened i =>
      simp only [step, Option.ite_none_right_eq_some] at h
      obtain rfl := Option.some.inj h.2
      exact .readOpened h.1
  | readEnded =>
      obtain rfl := Option.some.inj h
      exact .readEnded
  | sendto data ready accepted =>
      obtain rfl := Option.some.inj h
      exact acts_of_sendto s data ready accepted
  | converted j =>
      obtain ⟨n, hn, rfl⟩ := Option.map_eq_some_iff.mp h
      exact .converted hn
  | dequeue =>
      obtain ⟨⟨packet, incoming⟩, hd, rfl⟩ := Option.map_eq_some_iff.mp h
      exact .dequeue hd
  | clear =>
      obtain rfl := Option.some.inj h
      exact .clear

/-! ## One lane -/

theorem getElem?_setLane {s : State} {i j : Nat} {lane lane' : Lane}
    (h : (s.setLane i lane).lanes[j]? = some lane') :
    j = i ∧ lane' = lane ∨ j ≠ i ∧ s.lanes[j]? = some lane' := by
  rw [State.setLane, List.getElem?_set] at h
  by_cases hij : i = j
  · subst hij
    rw [if_pos rfl] at h
    split at h
    · exact Or.inl ⟨rfl, (Option.some.inj h).symm⟩
    · cases h
  · rw [if_neg hij] at h
    exact Or.inr ⟨Ne.symm hij, h⟩

theorem getElem?_connect {lanes : List Lane} {j : Nat} {lane lane' : Lane}
    (h : (lanes ++ [lane])[j]? = some lane') :
    lanes[j]? = some lane' ∨ j = lanes.length ∧ lane' = lane := by
  rcases Nat.lt_trichotomy j lanes.length with hlt | rfl | hgt
  · rw [List.getElem?_append_left hlt] at h
    exact Or.inl h
  · rw [List.getElem?_concat_length] at h
    exact Or.inr ⟨rfl, (Option.some.inj h).symm⟩
  · rw [List.getElem?_eq_none (by rw [List.length_append]; exact hgt)] at h
    cases h

/-- No step of a bridge takes back what it sent or unsets its callbacks, and
only a message of the page reaches the server. -/
structure Relays (b b' : Bridge.State) (e : Bridge.Event) : Prop where
  sent : b.sent <+: b'.sent
  installed : b.installed = true → b'.installed = true
  toServer : fromBrowser e = false → b'.toServer = b.toServer

theorem relays_of_eq {b b' : Bridge.State} {e : Bridge.Event} (hsent : b'.sent = b.sent)
    (hinst : b'.installed = b.installed) (hserver : b'.toServer = b.toServer) :
    Relays b b' e := by
  refine ⟨⟨[], ?_⟩, fun h => ?_, fun _ => hserver⟩
  · rw [List.append_nil, hsent]
  · rw [hinst]
    exact h

theorem relays_step {b b' : Bridge.State} {e : Bridge.Event}
    (h : Bridge.step b e = some b') : Relays b b' e := by
  cases Bridge.acts_of_step h with
  | install hpc => exact ⟨List.prefix_rfl, fun _ => rfl, fun _ => rfl⟩
  | recv hsock hsel hne => exact ⟨List.prefix_append _ _, id, fun _ => rfl⟩
  | message hinst => exact ⟨List.prefix_rfl, id, fun he => absurd he (by simp [fromBrowser])⟩
  | readClose hopen =>
      rcases Bridge.onReadEnd_cases { b with readOpen := false } with
        ⟨-, heq⟩ | ⟨-, heq⟩ <;> rw [heq] <;> exact relays_of_eq rfl rfl rfl
  | readError =>
      rcases Bridge.onReadEnd_cases b with ⟨-, heq⟩ | ⟨-, heq⟩ <;> rw [heq] <;>
        exact relays_of_eq rfl rfl rfl
  | _ => exact relays_of_eq rfl rfl rfl

/-- A message of the page goes to the server once the callbacks are set. -/
theorem toServer_of_message {b b' : Bridge.State} {data : Bytes}
    (h : Bridge.step b (.browserMessage data) = some b') :
    b.installed = true ∧ b'.toServer = b.toServer ++ [data] ∨ b.installed = false ∧ b' = b := by
  cases Bridge.acts_of_step h with
  | message hinst => exact Or.inl ⟨hinst, rfl⟩
  | unheard hinst => exact Or.inr ⟨hinst, rfl⟩

/-- The messages of the page that came before the callbacks were set. -/
def unheard (b : Bridge.State) : List Bridge.Event → Nat
  | [] => 0
  | e :: es =>
      (if fromBrowser e ∧ b.installed = false then 1 else 0)
        + match Bridge.step b e with
          | none => 0
          | some b' => unheard b' es

theorem unheard_concat {b b' : Bridge.State} {es : List Bridge.Event} (e : Bridge.Event)
    (h : run Bridge.step b es = some b') :
    unheard b (es ++ [e])
      = unheard b es + if fromBrowser e ∧ b'.installed = false then 1 else 0 := by
  induction es generalizing b with
  | nil =>
      obtain rfl := Option.some.inj h
      rw [List.nil_append, unheard, unheard, Nat.zero_add]
      cases Bridge.step b e <;> rfl
  | cons a es ih =>
      obtain ⟨b₁, ha, hes⟩ := run_cons_eq_some.mp h
      rw [List.cons_append, unheard, unheard, ha]
      dsimp only
      rw [ih hes, Nat.add_assoc]

/-- The bridge of a lane is at the end of a run of its own, and the channels
deliver from the front. What the server has got is what has come from the page
but for the first messages, which were not heard. -/
structure LaneOk (lane : Lane) : Prop where
  ran : run Bridge.step Bridge.init lane.trace = some lane.bridge
  delivered : lane.delivered ≤ lane.bridge.sent.length
  received : lane.received ≤ lane.outbox.length
  unheard : unheard Bridge.init lane.trace ≤ lane.received
  deaf : lane.bridge.installed = false → Pipeline.unheard Bridge.init lane.trace = lane.received
  toServer : lane.bridge.toServer
    = (lane.outbox.take lane.received).drop (Pipeline.unheard Bridge.init lane.trace)

theorem laneOk_init : LaneOk .init :=
  ⟨rfl, Nat.le_refl _, Nat.le_refl _, Nat.le_refl _, fun _ => rfl, rfl⟩

theorem run_trace {lane lane' : Lane} {e : Bridge.Event} (hok : LaneOk lane)
    (h : lane.step e = some lane') :
    run Bridge.step Bridge.init lane'.trace = some lane'.bridge
      ∧ Bridge.step lane.bridge e = some lane'.bridge
      ∧ lane'.delivered = lane.delivered ∧ lane'.outbox = lane.outbox
      ∧ lane'.received = lane.received := by
  obtain ⟨b, hb, rfl⟩ := Option.map_eq_some_iff.mp h
  refine ⟨?_, hb, rfl, rfl, rfl⟩
  exact run_append_eq_some.mpr ⟨_, hok.ran, run_cons_eq_some.mpr ⟨b, hb, rfl⟩⟩

theorem unheard_step {lane lane' : Lane} {e : Bridge.Event} (hok : LaneOk lane)
    (h : lane.step e = some lane') :
    unheard Bridge.init lane'.trace = unheard Bridge.init lane.trace
      + if fromBrowser e ∧ lane.bridge.installed = false then 1 else 0 := by
  obtain ⟨b, hb, rfl⟩ := Option.map_eq_some_iff.mp h
  exact unheard_concat e hok.ran

/-- The bridge takes a step of its own. -/
theorem LaneOk.step {lane lane' : Lane} {e : Bridge.Event} (hok : LaneOk lane)
    (he : fromBrowser e = false) (h : lane.step e = some lane') : LaneOk lane' := by
  obtain ⟨hran, hb, hdel, hout, hrec⟩ := run_trace hok h
  have hrel := relays_step hb
  have hsame : Pipeline.unheard Bridge.init lane'.trace
      = Pipeline.unheard Bridge.init lane.trace := by
    rw [unheard_step hok h, if_neg (by simp [he]), Nat.add_zero]
  refine ⟨hran, ?_, ?_, ?_, fun hinst => ?_, ?_⟩
  · rw [hdel]
    exact Nat.le_trans hok.delivered hrel.sent.length_le
  · rw [hrec, hout]
    exact hok.received
  · rw [hrec, hsame]
    exact hok.unheard
  · rw [hrec, hsame]
    refine hok.deaf (Bool.eq_false_iff.mpr fun h => ?_)
    rw [hrel.installed h] at hinst
    cases hinst
  · rw [hrel.toServer he, hrec, hout, hsame]
    exact hok.toServer

/-- The next message of the page arrives. -/
theorem LaneOk.uplink {lane lane' : Lane} {data : Bytes} (hok : LaneOk lane)
    (hdata : lane.outbox[lane.received]? = some data)
    (h : lane.step (.browserMessage data) = some lane') :
    LaneOk { lane' with received := lane'.received + 1 } := by
  obtain ⟨hran, hb, hdel, hout, hrec⟩ := run_trace hok h
  have hrel := relays_step hb
  have hcount := unheard_step hok h
  have hle := hok.unheard
  have hlt : lane.received < lane.outbox.length := (List.getElem?_eq_some_iff.mp hdata).1
  have htake : lane.outbox.take (lane.received + 1)
      = lane.outbox.take lane.received ++ [data] := by
    rw [List.take_add_one, hdata]
    rfl
  have hlen : (lane.outbox.take lane.received).length = lane.received :=
    List.length_take_of_le (Nat.le_of_lt hlt)
  have hdelivered : lane'.delivered ≤ lane'.bridge.sent.length := by
    rw [hdel]
    exact Nat.le_trans hok.delivered hrel.sent.length_le
  have hreceived : lane'.received + 1 ≤ lane'.outbox.length := by
    rw [hrec, hout]
    exact hlt
  rcases toServer_of_message hb with ⟨hinst, hgot⟩ | ⟨hinst, hsame⟩
  · rw [if_neg (by simp [hinst]), Nat.add_zero] at hcount
    refine ⟨hran, hdelivered, hreceived, ?_, fun hnot => ?_, ?_⟩
    · dsimp only
      omega
    · dsimp only at hnot
      rw [hrel.installed hinst] at hnot
      cases hnot
    · dsimp only
      rw [hgot, hok.toServer, hrec, hout, htake, hcount,
        List.drop_append_of_le_length (by omega)]
  · rw [if_pos ⟨rfl, hinst⟩] at hcount
    have hdeaf := hok.deaf hinst
    have hnone : (lane.outbox.take lane.received).drop
        (Pipeline.unheard Bridge.init lane.trace) = [] := List.drop_of_length_le (by omega)
    refine ⟨hran, hdelivered, hreceived, ?_, fun _ => ?_, ?_⟩
    · dsimp only
      omega
    · dsimp only
      omega
    · dsimp only
      rw [hsame, hok.toServer, hnone, hrec, hout, htake, List.drop_of_length_le]
      rw [List.length_append, hlen, List.length_singleton]
      omega

theorem LaneOk.deliver {lane : Lane} {bytes : Bytes} (hok : LaneOk lane)
    (hsent : lane.bridge.sent[lane.delivered]? = some bytes) :
    LaneOk { lane with delivered := lane.delivered + 1 } :=
  ⟨hok.ran, (List.getElem?_eq_some_iff.mp hsent).1, hok.received, hok.unheard, hok.deaf,
    hok.toServer⟩

theorem LaneOk.post {lane : Lane} (hok : LaneOk lane) (data : Bytes) :
    LaneOk { lane with outbox := lane.outbox ++ [data] } := by
  refine ⟨hok.ran, hok.delivered, ?_, hok.unheard, hok.deaf, ?_⟩
  · rw [List.length_append]
    exact Nat.le_add_right_of_le hok.received
  · dsimp only
    rw [List.take_append_of_le_length hok.received]
    exact hok.toServer

/-! ## From the page to the servers -/

/-- What went to a lane. -/
def sentTo (posted : List (Bytes × Option Nat)) (i : Nat) : List Bytes :=
  posted.filterMap fun p => if p.2 = some i then some p.1 else none

/-- The engine's calls of `sendto` in a run, in order. -/
def calls (es : List Event) : List Bytes :=
  es.filterMap fun e =>
    match e with
    | .sendto data _ _ => some data
    | _ => none

theorem sentTo_append (posted : List (Bytes × Option Nat)) (p : Bytes × Option Nat)
    (i : Nat) : sentTo (posted ++ [p]) i
      = sentTo posted i ++ if p.2 = some i then [p.1] else [] := by
  rw [sentTo, List.filterMap_append]
  congr 1
  split <;> simp_all

theorem sentTo_sublist (posted : List (Bytes × Option Nat)) (i : Nat) :
    List.Sublist (sentTo posted i) (posted.map Prod.fst) := by
  induction posted with
  | nil => exact .slnil
  | cons p posted ih =>
      rw [sentTo, List.filterMap_cons, List.map_cons]
      by_cases hp : p.2 = some i
      · rw [if_pos hp]
        exact ih.cons_cons _
      · rw [if_neg hp]
        exact ih.cons _

/-- Every lane keeps its account, its outbox is what `sendto` gave it, and no
packet went to a lane that does not exist. -/
structure Linked (s : State) : Prop where
  ok : ∀ {i : Nat} {lane : Lane}, s.lanes[i]? = some lane → LaneOk lane
  outbox : ∀ {i : Nat} {lane : Lane}, s.lanes[i]? = some lane →
    lane.outbox = sentTo s.posted i
  known : ∀ p ∈ s.posted, ∀ i, p.2 = some i → i < s.lanes.length

theorem sentTo_of_known {s : State} (h : Linked s) : sentTo s.posted s.lanes.length = [] := by
  rw [sentTo, List.filterMap_eq_nil_iff]
  intro p hp
  rw [if_neg]
  exact fun hlen => absurd (h.known p hp _ hlen) (Nat.lt_irrefl _)

/-- A lane changes and nothing is posted. -/
theorem Linked.setLane {s s' : State} {i : Nat} {lane lane' : Lane} (h : Linked s)
    (hl : s.lanes[i]? = some lane) (hlanes : s'.lanes = (s.setLane i lane').lanes)
    (hposted : s'.posted = s.posted) (hout : lane'.outbox = lane.outbox)
    (hok : LaneOk lane') : Linked s' := by
  refine ⟨fun {j l} hj => ?_, fun {j l} hj => ?_, ?_⟩
  · rw [hlanes] at hj
    rcases getElem?_setLane hj with ⟨-, rfl⟩ | ⟨-, hj⟩
    · exact hok
    · exact h.ok hj
  · rw [hlanes] at hj
    rw [hposted]
    rcases getElem?_setLane hj with ⟨rfl, rfl⟩ | ⟨-, hj⟩
    · rw [hout]
      exact h.outbox hl
    · exact h.outbox hj
  · rw [hposted, hlanes, State.setLane, List.length_set]
    exact h.known

/-- The lanes and what was posted stay as they are. -/
theorem Linked.frame {s s' : State} (h : Linked s) (hlanes : s'.lanes = s.lanes)
    (hposted : s'.posted = s.posted) : Linked s' := by
  refine ⟨?_, ?_, ?_⟩
  · rw [hlanes]
    exact h.ok
  · rw [hlanes, hposted]
    exact h.outbox
  · rw [hlanes, hposted]
    exact h.known

theorem Linked.post {s : State} {i : Nat} {lane : Lane} (h : Linked s)
    (hl : s.lanes[i]? = some lane) (data : Bytes) :
    Linked { s.setLane i { lane with outbox := lane.outbox ++ [data] } with
      posted := s.posted ++ [(data, some i)] } := by
  refine ⟨fun {j l} hj => ?_, fun {j l} hj => ?_, fun p hp j hj => ?_⟩
  · rcases getElem?_setLane hj with ⟨-, rfl⟩ | ⟨-, hj⟩
    · exact (h.ok hl).post data
    · exact h.ok hj
  · rw [sentTo_append]
    rcases getElem?_setLane hj with ⟨rfl, rfl⟩ | ⟨hne, hj⟩
    · rw [if_pos rfl, h.outbox hl]
    · rw [if_neg (fun heq => hne (Option.some.inj heq).symm), List.append_nil]
      exact h.outbox hj
  · rw [State.setLane, List.length_set]
    rcases List.mem_append.mp hp with hp | hp
    · exact h.known p hp j hj
    · rw [List.mem_singleton.mp hp] at hj
      obtain rfl := Option.some.inj hj
      exact (List.getElem?_eq_some_iff.mp hl).1

theorem linked_step {s s' : State} {e : Event} (h : Linked s) (hs : step s e = some s') :
    Linked s' := by
  cases acts_of_step hs with
  | connect =>
      refine ⟨fun {j l} hj => ?_, fun {j l} hj => ?_, fun p hp j hj => ?_⟩
      · rcases getElem?_connect hj with hj | ⟨-, rfl⟩
        · exact h.ok hj
        · exact laneOk_init
      · rcases getElem?_connect hj with hj | ⟨rfl, rfl⟩
        · exact h.outbox hj
        · exact (sentTo_of_known h).symm
      · rw [List.length_append]
        exact Nat.lt_add_right _ (h.known p hp j hj)
  | bridge hl he hstep =>
      have hok := h.ok hl
      exact h.setLane hl rfl rfl (run_trace hok hstep).2.2.2.1 (hok.step he hstep)
  | deliver hl hsent => exact h.setLane hl rfl rfl rfl ((h.ok hl).deliver hsent)
  | uplink hl hdata hstep =>
      have hok := h.ok hl
      exact h.setLane hl rfl rfl (run_trace hok hstep).2.2.2.1 (hok.uplink hdata hstep)
  | posted hc hl hready hok => exact h.post hl _
  | dropped =>
      refine ⟨h.ok, fun {j l} hj => ?_, fun p hp j hj => ?_⟩
      · rw [sentTo_append, if_neg (by simp), List.append_nil]
        exact h.outbox hj
      · rcases List.mem_append.mp hp with hp | hp
        · exact h.known p hp j hj
        · rw [List.mem_singleton.mp hp] at hj
          cases hj
  | _ => exact h.frame rfl rfl

theorem linked_init {maxPackets : Nat} (pos : 0 < maxPackets) :
    Linked (init maxPackets pos) := by
  refine ⟨fun {i lane} h => ?_, fun {i lane} h => ?_, nofun⟩ <;> cases h

/-- Every call of `sendto` is recorded once. -/
theorem posted_step {s s' : State} {e : Event} (h : step s e = some s') :
    s'.posted.map Prod.fst = s.posted.map Prod.fst ++ calls [e] := by
  cases acts_of_step h with
  | posted hc hl hready hok => exact List.map_append
  | dropped => exact List.map_append
  | _ => exact (List.append_nil _).symm

theorem posted_run {s t : State} {es : List Event} (h : run step s es = some t) :
    t.posted.map Prod.fst = s.posted.map Prod.fst ++ calls es := by
  induction es generalizing s with
  | nil =>
      obtain rfl := Option.some.inj h
      exact (List.append_nil _).symm
  | cons e es ih =>
      obtain ⟨s', he, hr⟩ := run_cons_eq_some.mp h
      rw [ih hr, posted_step he, List.append_assoc]
      congr 1
      simp [calls, ← List.filterMap_append]

/-- Whatever the page and its bridges do: each server gets one unbroken
stretch of what the engine sent on its lane, in order and unchanged, and
misses only what arrived before the bridge's callbacks or has not arrived
yet. The lane's part of the engine's calls is in their order, and each call
went to at most one lane. -/
theorem server_gets_posted {maxPackets : Nat} (pos : 0 < maxPackets) {es : List Event}
    {s : State} (h : run step (init maxPackets pos) es = some s) {i : Nat} {lane : Lane}
    (hl : s.lanes[i]? = some lane) :
    run Bridge.step Bridge.init lane.trace = some lane.bridge
      ∧ unheard Bridge.init lane.trace ≤ lane.received
      ∧ lane.received ≤ (sentTo s.posted i).length
      ∧ lane.bridge.toServer
        = ((sentTo s.posted i).take lane.received).drop (unheard Bridge.init lane.trace)
      ∧ List.Sublist (sentTo s.posted i) (calls es)
      ∧ s.posted.map Prod.fst = calls es := by
  have hlinked := run_invariant (I := Linked) linked_step h (linked_init pos)
  have hok := hlinked.ok hl
  have hposted := posted_run h
  have hserver := hok.toServer
  have hreceived := hok.received
  rw [hlinked.outbox hl] at hserver hreceived
  refine ⟨hok.ran, hok.unheard, hreceived, hserver, ?_, hposted⟩
  have hsub := sentTo_sublist s.posted i
  rwa [hposted] at hsub

/-- The first message arrives before the callbacks, the second after them, and
the third finds no channel. -/
def latePeer : List Event :=
  [.connect, .readOpened 0, .sendto [1] true true, .uplink 0, .bridge 0 .start,
    .bridge 0 .start, .sendto [2] true true, .readEnded, .sendto [3] true true, .uplink 0]

theorem server_gets_posted_late :
    ∃ s lane, run step (init 16384 (by decide)) latePeer = some s ∧ s.lanes = [lane]
      ∧ lane.bridge.toServer = [[2]] ∧ sentTo s.posted 0 = [[1], [2]]
      ∧ unheard Bridge.init lane.trace = 1
      ∧ lane.bridge.toServer
        = ((sentTo s.posted 0).take lane.received).drop (unheard Bridge.init lane.trace)
      ∧ s.posted.map Prod.fst = calls latePeer := by
  obtain ⟨s, lane, hs, hlanes, hserver, hsent, hcount⟩ :
      ∃ s lane, run step (init 16384 (by decide)) latePeer = some s ∧ s.lanes = [lane]
        ∧ lane.bridge.toServer = [[2]] ∧ sentTo s.posted 0 = [[1], [2]]
        ∧ unheard Bridge.init lane.trace = 1 := ⟨_, _, rfl, rfl, rfl, rfl, rfl⟩
  have hl : s.lanes[0]? = some lane := by
    rw [hlanes]
    rfl
  obtain ⟨-, -, -, hstretch, -, hposted⟩ := server_gets_posted (by decide) hs hl
  exact ⟨s, lane, hs, hlanes, hserver, hsent, hcount, hstretch, hposted⟩

end Pipeline

end XashProxy
