import XashProxy.RollingBuffer

/-!
# Incoming packets of the client

The part of `Xash3DWebRTC` that the write channel's `onmessage` fills and
the engine empties. A `Blob` is converted asynchronously, and conversions
finish in any order; every other payload is enqueued at once.
-/

namespace XashProxy

/-- The payload of a data-channel message. -/
inductive Payload where
  | blob (bytes : List UInt8)
  | arrayBuffer (bytes : List UInt8)
  | string (text : String)
deriving DecidableEq, Repr

/-- A packet for the engine. `serial` numbers the messages as they arrive. -/
structure Packet where
  serial : Nat
  data : Payload
deriving DecidableEq, Repr

structure Net where
  /-- `Date.now()` at the last message, 0 before the first. -/
  lastPacketAt : Nat
  overflowDrops : Nat
  incoming : RollingBuffer Packet
  /-- Messages whose `arrayBuffer()` has not resolved. -/
  converting : List Packet
  /-- Messages that have arrived. -/
  arrivals : Nat

namespace Net

def init (maxPackets : Nat) (pos : 0 < maxPackets) : Net where
  lastPacketAt := 0
  overflowDrops := 0
  incoming := .empty maxPackets pos
  converting := []
  arrivals := 0

def netBacklog (n : Net) : Nat := n.incoming.size

def netCapacity (n : Net) : Nat := n.incoming.capacity

def netClear (n : Net) : Net := { n with incoming := n.incoming.clear }

def enqueueIncoming (n : Net) (packet : Packet) : Net :=
  { n with
    overflowDrops := if n.incoming.isFull then n.overflowDrops + 1 else n.overflowDrops
    incoming := n.incoming.enqueue packet }

/-- `onmessage` of the write channel. -/
def onMessage (n : Net) (now : Nat) (data : Payload) : Net :=
  let packet : Packet := ⟨n.arrivals, data⟩
  let n := { n with lastPacketAt := now, arrivals := n.arrivals + 1 }
  match data with
  | .blob _ => { n with converting := n.converting ++ [packet] }
  | .arrayBuffer _ | .string _ => n.enqueueIncoming packet

/-- `packet.data = data` once `arrayBuffer()` has resolved. -/
def convert (packet : Packet) : Packet :=
  match packet.data with
  | .blob bytes => { packet with data := .arrayBuffer bytes }
  | .arrayBuffer _ | .string _ => packet

/-- The `i`-th pending conversion resolves. -/
def converted (n : Net) (i : Nat) : Option Net :=
  match n.converting[i]? with
  | some packet =>
      let n := { n with converting := n.converting.eraseIdx i }
      some (n.enqueueIncoming (convert packet))
  | none => none

/-- The engine takes one packet. -/
def dequeue (n : Net) : Option Net :=
  n.incoming.dequeue.map fun r => { n with incoming := r.2 }

/-! ## One event

The part of the client that touches the queue: the write channel's
messages, their conversions, the engine, and `netClear`. -/

inductive Event where
  | message (now : Nat) (data : Payload)
  | converted (i : Nat)
  | dequeue
  | clear
deriving DecidableEq, Repr

def step (n : Net) : Event → Option Net
  | .message now data => some (n.onMessage now data)
  | .converted i => n.converted i
  | .dequeue => n.dequeue
  | .clear => some n.netClear

/-- The ways an event changes the queue and the conversions. -/
inductive Acts (n : Net) : Event → Net → Prop where
  | blob {now : Nat} {bytes : List UInt8} :
      Acts n (.message now (.blob bytes)) { n with
        lastPacketAt := now, arrivals := n.arrivals + 1
        converting := n.converting ++ [⟨n.arrivals, .blob bytes⟩] }
  | direct {now : Nat} {data : Payload} (hdata : ∀ bytes, data ≠ .blob bytes) :
      Acts n (.message now data)
        ({ n with lastPacketAt := now, arrivals := n.arrivals + 1 }.enqueueIncoming
          ⟨n.arrivals, data⟩)
  | converted {i : Nat} {packet : Packet} (hi : n.converting[i]? = some packet) :
      Acts n (.converted i)
        ({ n with converting := n.converting.eraseIdx i }.enqueueIncoming
          (convert packet))
  | dequeue {packet : Packet} {incoming : RollingBuffer Packet}
      (hd : n.incoming.dequeue = some (packet, incoming)) :
      Acts n .dequeue { n with incoming := incoming }
  | clear : Acts n .clear n.netClear

theorem acts_of_converted {n n' : Net} {i : Nat} (h : n.converted i = some n') :
    Acts n (.converted i) n' := by
  unfold converted at h
  split at h
  · rename_i packet hi
    obtain rfl := Option.some.inj h
    exact .converted hi
  · cases h

theorem acts_of_step {n n' : Net} {e : Event} (h : step n e = some n') :
    Acts n e n' := by
  cases e with
  | message now data =>
      obtain rfl := Option.some.inj h
      cases data with
      | blob bytes => exact .blob
      | arrayBuffer bytes => exact .direct nofun
      | string text => exact .direct nofun
  | converted i => exact acts_of_converted h
  | dequeue =>
      obtain ⟨⟨packet, incoming⟩, hd, rfl⟩ := Option.map_eq_some_iff.mp h
      exact .dequeue hd
  | clear =>
      obtain rfl := Option.some.inj h
      exact .clear

@[simp] theorem serial_convert (packet : Packet) :
    (convert packet).serial = packet.serial := by
  unfold convert
  split <;> rfl

/-- Packets are numbered as they arrive: the pending conversions are in
order, and nobody has a number that was not given yet. -/
structure Numbered (n : Net) : Prop where
  converting : (n.converting.map Packet.serial).Pairwise (· < ·)
  pending : ∀ p ∈ n.converting, p.serial < n.arrivals
  queued : ∀ p ∈ n.incoming.items, p.serial < n.arrivals

theorem numbered_init {maxPackets : Nat} (pos : 0 < maxPackets) :
    Numbered (init maxPackets pos) := ⟨.nil, nofun, nofun⟩

/-- A numbered packet is enqueued. -/
theorem Numbered.enqueueIncoming {n : Net} (h : Numbered n) {packet : Packet}
    (hlt : packet.serial < n.arrivals) : Numbered (n.enqueueIncoming packet) := by
  refine ⟨h.converting, h.pending, fun p hp => ?_⟩
  rcases RollingBuffer.mem_enqueue hp with hp | rfl
  · exact h.queued p hp
  · exact hlt

theorem numbered_step {n n' : Net} {e : Event} (hn : Numbered n)
    (h : step n e = some n') : Numbered n' := by
  have hpending : ∀ p ∈ n.converting, p.serial < n.arrivals + 1 :=
    fun p hp => Nat.lt_succ_of_lt (hn.pending p hp)
  have hqueued : ∀ p ∈ n.incoming.items, p.serial < n.arrivals + 1 :=
    fun p hp => Nat.lt_succ_of_lt (hn.queued p hp)
  cases acts_of_step h with
  | blob =>
      refine ⟨?_, ?_, hqueued⟩
      · simp only [List.map_append, List.map_cons, List.map_nil, List.pairwise_append]
        refine ⟨hn.converting, List.pairwise_singleton .., ?_⟩
        intro a ha b hb
        obtain ⟨p, hp, rfl⟩ := List.mem_map.mp ha
        rw [List.mem_singleton.mp hb]
        exact hn.pending p hp
      · intro p hp
        rcases List.mem_append.mp hp with hp | hp
        · exact hpending p hp
        · rw [List.mem_singleton.mp hp]
          exact Nat.lt_succ_self _
  | @direct now data hdata =>
      have hnext : Numbered { n with lastPacketAt := now, arrivals := n.arrivals + 1 } :=
        ⟨hn.converting, hpending, hqueued⟩
      exact hnext.enqueueIncoming (Nat.lt_succ_self _)
  | @converted i packet hi =>
      have hsub := List.eraseIdx_sublist n.converting i
      have hrest : Numbered { n with converting := n.converting.eraseIdx i } :=
        ⟨hn.converting.sublist (hsub.map _), fun p hp => hn.pending p (hsub.subset hp),
          hn.queued⟩
      refine hrest.enqueueIncoming ?_
      rw [serial_convert]
      exact hn.pending packet (List.mem_of_getElem? hi)
  | dequeue hd =>
      obtain ⟨hitems, -⟩ := RollingBuffer.dequeue_eq_some hd
      refine ⟨hn.converting, hn.pending, fun p hp => hn.queued p ?_⟩
      rw [hitems]
      exact List.mem_cons_of_mem _ hp
  | clear => exact ⟨hn.converting, hn.pending, nofun⟩

theorem arrivals_step {n n' : Net} {e : Event} (h : step n e = some n') :
    n.arrivals ≤ n'.arrivals := by
  cases acts_of_step h with
  | blob => exact Nat.le_succ _
  | direct hdata => exact Nat.le_succ _
  | converted hi => exact Nat.le_refl _
  | dequeue hd => exact Nat.le_refl _
  | clear => exact Nat.le_refl _

/-! ## The backlog -/

/-- The event hands a packet to `enqueueIncoming`. -/
def Event.feeds : Event → Bool
  | .message _ (.blob _) => false
  | .message _ _ | .converted _ => true
  | .dequeue | .clear => false

theorem feeds_of_not_blob {now : Nat} {data : Payload}
    (h : ∀ bytes, data ≠ .blob bytes) : (Event.message now data).feeds = true := by
  cases data with
  | blob bytes => exact absurd rfl (h bytes)
  | arrayBuffer bytes => rfl
  | string text => rfl

theorem Numbered.netBacklog_eq_zero {n : Net} (hn : Numbered n)
    (h : n.arrivals = 0) : n.netBacklog = 0 := by
  rw [netBacklog, RollingBuffer.size, List.length_eq_zero_iff,
    List.eq_nil_iff_forall_not_mem]
  intro p hp
  have := hn.queued p hp
  omega

theorem netCapacity_step {n n' : Net} {e : Event} (h : step n e = some n') :
    n'.netCapacity = n.netCapacity := by
  cases acts_of_step h with
  | blob => rfl
  | direct hdata => exact RollingBuffer.capacity_enqueue _
  | converted hi => exact RollingBuffer.capacity_enqueue _
  | dequeue hd => exact (RollingBuffer.dequeue_eq_some hd).2
  | clear => rfl

/-- What `enqueueIncoming` does to the queue and to the count of drops. -/
theorem step_of_feeds {n n' : Net} {e : Event} (h : step n e = some n')
    (hf : e.feeds = true) :
    (∃ packet, n'.incoming = n.incoming.enqueue packet) ∧ n'.overflowDrops
      = if n.incoming.isFull then n.overflowDrops + 1 else n.overflowDrops := by
  cases acts_of_step h with
  | blob => cases hf
  | direct hdata => exact ⟨⟨_, rfl⟩, rfl⟩
  | converted hi => exact ⟨⟨_, rfl⟩, rfl⟩
  | dequeue hd => cases hf
  | clear => cases hf

/-- An event that feeds nothing drops nothing, and at most the engine or
`netClear` shortens the queue. -/
theorem step_of_not_feeds {n n' : Net} {e : Event} (h : step n e = some n')
    (hf : e.feeds = false) :
    n'.overflowDrops = n.overflowDrops ∧ n'.netBacklog ≤ n.netBacklog
      ∧ (e ≠ .clear → n.netBacklog ≤ n'.netBacklog + if e = .dequeue then 1 else 0) := by
  cases acts_of_step h with
  | blob => exact ⟨rfl, Nat.le_refl _, fun _ => Nat.le_add_right ..⟩
  | direct hdata => exact absurd (feeds_of_not_blob hdata) (Bool.eq_false_iff.mp hf)
  | converted hi => cases hf
  | dequeue hd =>
      obtain ⟨hitems, -⟩ := RollingBuffer.dequeue_eq_some hd
      simp [netBacklog, RollingBuffer.size, hitems]
  | clear => exact ⟨rfl, Nat.zero_le _, fun h => absurd rfl h⟩

theorem netBacklog_of_feeds {n n' : Net} {e : Event} (h : step n e = some n')
    (hf : e.feeds = true) :
    n'.netBacklog = if n.incoming.isFull then n.netBacklog else n.netBacklog + 1 := by
  obtain ⟨⟨packet, hin⟩, -⟩ := step_of_feeds h hf
  rw [netBacklog, hin]
  exact RollingBuffer.size_enqueue packet

/-- Only `netClear` and the engine shorten the queue, the engine by one. -/
theorem netBacklog_le_step {n n' : Net} {e : Event} (h : step n e = some n')
    (hc : e ≠ .clear) :
    n.netBacklog ≤ n'.netBacklog + if e = .dequeue then 1 else 0 := by
  cases hf : e.feeds with
  | false => exact (step_of_not_feeds h hf).2.2 hc
  | true =>
      have := netBacklog_of_feeds h hf
      split at this <;> omega

/-- The queue grows by the packets fed. -/
theorem netBacklog_step_le {n n' : Net} {e : Event} (h : step n e = some n') :
    n'.netBacklog ≤ n.netBacklog + if e.feeds then 1 else 0 := by
  cases hf : e.feeds with
  | false => exact (step_of_not_feeds h hf).2.1
  | true =>
      have := netBacklog_of_feeds h hf
      rw [if_pos rfl]
      split at this <;> omega

/-- A packet is dropped only at a full queue, which stays full. -/
theorem full_of_drop {n n' : Net} {e : Event} (h : step n e = some n')
    (hdrop : n.overflowDrops < n'.overflowDrops) : n'.netBacklog = n'.netCapacity := by
  cases hf : e.feeds with
  | false => exact absurd (step_of_not_feeds h hf).1 (Nat.ne_of_gt hdrop)
  | true =>
      have hdrops := (step_of_feeds h hf).2
      split at hdrops
      · rename_i hfull
        rw [netBacklog_of_feeds h hf, if_pos hfull, netCapacity_step h]
        exact RollingBuffer.isFull_iff.mp hfull
      · exact absurd hdrops (Nat.ne_of_gt hdrop)

/-! ## The watchdog's clock

`lastPacketAt` is 0 exactly as long as nothing has arrived. -/

/-- The page has a timestamp if it has had a packet. -/
def Stamped (n : Net) : Prop := n.lastPacketAt = 0 ↔ n.arrivals = 0

/-- Only a message sets the stamp. -/
theorem lastPacketAt_step {n n' : Net} {e : Event} (h : step n e = some n')
    (he : ∀ now data, e ≠ .message now data) : n'.lastPacketAt = n.lastPacketAt := by
  cases acts_of_step h with
  | blob => exact absurd rfl (he _ _)
  | direct hdata => exact absurd rfl (he _ _)
  | converted hi => rfl
  | dequeue hd => rfl
  | clear => rfl

theorem stamped_step {n n' : Net} {e : Event} (hs : Stamped n)
    (hnow : ∀ now data, e = .message now data → 0 < now) (h : step n e = some n') :
    Stamped n' := by
  cases acts_of_step h with
  | @blob now bytes =>
      have := hnow now _ rfl
      unfold Stamped
      dsimp only
      omega
  | @direct now data hdata =>
      have := hnow now _ rfl
      unfold Stamped enqueueIncoming
      dsimp only
      omega
  | converted hi => exact hs
  | dequeue hd => exact hs
  | clear => exact hs

end Net

end XashProxy
