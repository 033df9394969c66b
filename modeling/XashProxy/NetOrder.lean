import XashProxy.Lts
import XashProxy.Net

/-!
# The order of incoming packets

A message whose payload is a `Blob` is enqueued when its own promise
resolves, every other one at once, and no promise waits for another. The
packets therefore keep the order of their messages exactly as long as
nothing overtakes a pending conversion: `inOrder_always_iff`.
-/

namespace XashProxy

namespace Net

open Lts

/-- The messages that have arrived, and the packets that were handed to
`enqueueIncoming`. -/
structure Feed where
  arrived : List Packet
  enqueued : List Packet
deriving DecidableEq, Repr

def Feed.init : Feed := ⟨[], []⟩

def Feed.arrive (f : Feed) (packet : Packet) : Feed :=
  { f with arrived := f.arrived ++ [packet] }

def Feed.enqueue (f : Feed) (packet : Packet) : Feed :=
  { f with enqueued := f.enqueued ++ [packet] }

def observeFeed (n : Net) (e : Event) (f : Feed) : Feed :=
  match e with
  | .message _ (.blob bytes) => f.arrive ⟨n.arrivals, .blob bytes⟩
  | .message _ data => (f.arrive ⟨n.arrivals, data⟩).enqueue ⟨n.arrivals, data⟩
  | .converted i =>
      match n.converting[i]? with
      | some packet => f.enqueue (convert packet)
      | none => f
  | .dequeue | .clear => f

/-- Each message has been enqueued, or is still being converted, and all of
them in the order of their arrival. -/
def InOrder (r : Net × Feed) : Prop :=
  r.2.enqueued ++ r.1.converting.map convert = r.2.arrived.map convert

/-- The step overtakes no pending conversion: a payload that needs none
arrives while none is pending, and the oldest one finishes first. -/
def InTurn (r : Net × Feed) (e : Event) : Prop :=
  (∀ now data, e = .message now data → (∀ bytes, data ≠ .blob bytes) →
    r.1.converting = [])
  ∧ ∀ i, e = .converted i → i = 0

theorem convert_of_not_blob {n : Nat} {data : Payload}
    (h : ∀ bytes, data ≠ .blob bytes) : convert ⟨n, data⟩ = ⟨n, data⟩ := by
  cases data with
  | blob bytes => exact absurd rfl (h bytes)
  | arrayBuffer bytes => rfl
  | string text => rfl

theorem observeFeed_direct {n : Net} {now : Nat} {data : Payload} {f : Feed}
    (h : ∀ bytes, data ≠ .blob bytes) :
    observeFeed n (.message now data) f
      = (f.arrive ⟨n.arrivals, data⟩).enqueue ⟨n.arrivals, data⟩ := by
  cases data with
  | blob bytes => exact absurd rfl (h bytes)
  | arrayBuffer bytes => rfl
  | string text => rfl

theorem observeFeed_converted {n : Net} {i : Nat} {packet : Packet} {f : Feed}
    (h : n.converting[i]? = some packet) :
    observeFeed n (.converted i) f = f.enqueue (convert packet) := by
  simp only [observeFeed, h]

/-! ## Steps and runs -/

theorem inOrder_step {n n' : Net} {e : Event} {f : Feed} (hP : InOrder (n, f))
    (hG : InTurn (n, f) e) (h : step n e = some n') :
    InOrder (n', observeFeed n e f) := by
  unfold InOrder at hP ⊢
  cases acts_of_step h with
  | blob =>
      simp only [observeFeed, Feed.arrive, List.map_append, ← List.append_assoc, hP]
  | @direct now data hdata =>
      have hnone : n.converting = [] := hG.1 now data rfl hdata
      simp only [hnone, List.map_nil, List.append_nil] at hP
      rw [observeFeed_direct hdata]
      simp [enqueueIncoming, hnone, Feed.arrive, Feed.enqueue, hP,
        convert_of_not_blob hdata]
  | @converted i packet hi =>
      obtain rfl := hG.2 i rfl
      rw [observeFeed_converted hi]
      cases hc : n.converting with
      | nil =>
          rw [hc] at hi
          cases hi
      | cons p ps =>
          rw [hc] at hi hP
          obtain rfl := Option.some.inj hi
          simpa [enqueueIncoming, Feed.enqueue, hc] using hP
  | dequeue hd => exact hP
  | clear => exact hP

/-- A step that overtakes a pending conversion breaks the order for good: the
packet it enqueues is not the next one. -/
theorem not_inOrder_of_overtaking {n n' : Net} {e : Event} {f : Feed}
    (hn : Numbered n) (hP : InOrder (n, f)) (hG : ¬ InTurn (n, f) e)
    (h : step n e = some n') : ¬ InOrder (n', observeFeed n e f) := by
  intro hP'
  unfold InOrder at hP hP'
  unfold InTurn at hG
  rw [not_and_or] at hG
  push Not at hG
  rcases hG with ⟨now, data, rfl, hdata, hne⟩ | ⟨i, rfl, hi⟩
  · cases acts_of_step h with
    | blob => exact hdata _ rfl
    | direct hdata =>
        obtain ⟨p, ps, hc⟩ : ∃ p ps, n.converting = p :: ps :=
          List.exists_cons_of_ne_nil hne
        rw [observeFeed_direct hdata] at hP'
        simp only [enqueueIncoming, Feed.arrive, Feed.enqueue, List.map_append, ← hP,
          hc, List.append_assoc, List.append_cancel_left_eq, List.map_cons,
          List.cons_append, List.cons.injEq] at hP'
        -- the new packet would have the number of the oldest pending one
        have hserial := congrArg Packet.serial hP'.1
        rw [serial_convert] at hserial
        have := hn.pending p (by simp [hc])
        dsimp only at hserial
        omega
  · cases acts_of_step h with
    | @converted _ packet hpacket =>
        rw [observeFeed_converted hpacket] at hP'
        have hsorted := hn.converting
        cases hc : n.converting with
        | nil =>
            rw [hc] at hpacket
            cases hpacket
        | cons p ps =>
            obtain ⟨j, rfl⟩ := Nat.exists_eq_succ_of_ne_zero hi
            rw [hc] at hpacket hsorted
            simp only [enqueueIncoming, Feed.enqueue, ← hP, hc, List.append_assoc,
              List.append_cancel_left_eq, List.map_cons, List.cons_append,
              List.cons.injEq] at hP'
            have hserial := congrArg Packet.serial hP'.1
            rw [serial_convert, serial_convert] at hserial
            rw [List.map_cons, List.pairwise_cons] at hsorted
            have hmem : packet ∈ ps := List.mem_of_getElem? hpacket
            have := hsorted.1 _ (List.mem_map_of_mem hmem)
            omega

/-- The packets are enqueued in the order of their messages, each exactly
once, in every state of a run exactly when no step of the run overtakes a
pending conversion. -/
theorem inOrder_always_iff {maxPackets : Nat} (pos : 0 < maxPackets)
    (es : List Event) :
    Always (recorded step observeFeed) InOrder (init maxPackets pos, .init) es
      ↔ EachStep (recorded step observeFeed) InTurn (init maxPackets pos, .init) es := by
  have hP : InOrder (init maxPackets pos, .init) := rfl
  exact recorded_always_iff_eachStep (I := fun r => Numbered r.1)
    (fun hn h => numbered_step hn h) (fun _ hP hG h => inOrder_step hP hG h)
    (fun hn hP hG h => not_inOrder_of_overtaking hn hP hG h) (numbered_init pos) hP es

/-- Two `Blob` messages whose conversions resolve in turn, and a third payload
after them. -/
theorem inOrder_always_in_turn :
    ∃ r, run (recorded step observeFeed) (init 16384 (by decide), .init)
        [.message 1 (.blob [1]), .message 2 (.blob [2]), .converted 0, .converted 0,
          .message 3 (.arrayBuffer [3])] = some r
      ∧ r.1.incoming.items
          = [⟨0, .arrayBuffer [1]⟩, ⟨1, .arrayBuffer [2]⟩, ⟨2, .arrayBuffer [3]⟩]
      ∧ Always (recorded step observeFeed) InOrder (init 16384 (by decide), .init)
          [.message 1 (.blob [1]), .message 2 (.blob [2]), .converted 0, .converted 0,
            .message 3 (.arrayBuffer [3])] := by
  refine ⟨_, rfl, rfl, (inOrder_always_iff _ _).mpr ?_⟩
  refine (eachStep_cons_iff rfl).mpr ⟨⟨by simp, by simp⟩, ?_⟩
  refine (eachStep_cons_iff rfl).mpr ⟨⟨by simp, by simp⟩, ?_⟩
  refine (eachStep_cons_iff rfl).mpr ⟨⟨by simp, by simp⟩, ?_⟩
  refine (eachStep_cons_iff rfl).mpr ⟨⟨by simp, by simp⟩, ?_⟩
  exact (eachStep_cons_iff rfl).mpr ⟨⟨fun _ _ _ _ => rfl, by simp⟩, trivial⟩

/-- Two `Blob` messages, and the second conversion resolves first: the queue
has them the other way round. -/
theorem conversions_swap :
    ∃ r, run (recorded step observeFeed) (init 16384 (by decide), .init)
        [.message 1 (.blob [1]), .message 2 (.blob [2]), .converted 1, .converted 0]
        = some r
      ∧ r.2.arrived.map convert = [⟨0, .arrayBuffer [1]⟩, ⟨1, .arrayBuffer [2]⟩]
      ∧ r.2.enqueued = [⟨1, .arrayBuffer [2]⟩, ⟨0, .arrayBuffer [1]⟩]
      ∧ r.1.incoming.items = r.2.enqueued ∧ ¬ InOrder r := by
  refine ⟨_, rfl, rfl, rfl, rfl, ?_⟩
  unfold InOrder
  decide

end Net

end XashProxy
