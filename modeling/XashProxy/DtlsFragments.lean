import XashProxy.DtlsContent
import XashProxy.Slices

/-!
# Fragments

The sender cuts every handshake message into fragments, each for a record of its
own (`fragment_handshake`). The network may lose, repeat and reorder the
records. The other side files the fragments by message number and takes out
the messages in order (`FragmentBuffer`).

The handshake is protected by a hash over its messages, which each side takes
from its own cache: the sender of what it wrote, the receiver of what it put
together. The two must be the same bytes.
-/

namespace XashProxy

namespace Dtls

open Codec Slices

/-! ## The sender -/

/-- `split_bytes`; a step of zero stops the thread. -/
def splitBytes (bytes : Bytes) (splitLen : Nat) : Except Error (List Bytes) :=
  if splitLen = 0 then .error .panic
  else .ok ((List.range' 0 ((bytes.length + splitLen - 1) / splitLen) splitLen).map
    fun i => (bytes.drop i).take splitLen)

/-- The loop of `fragment_handshake`. -/
def fragmentsFrom (header : HandshakeHeader) (offset : Nat) :
    List Bytes → Except Error (List Bytes)
  | [] => .ok []
  | contentFragment :: contentFragments => do
      let handshakeHeaderFragment : HandshakeHeader := { header with
        fragmentOffset := offset % 2 ^ 32
        fragmentLength := contentFragment.length % 2 ^ 32 }
      let raw ← handshakeHeaderFragment.marshal
      let rest ← fragmentsFrom header (offset + contentFragment.length) contentFragments
      return (raw ++ contentFragment) :: rest

def fragmentHandshake (maximumTransmissionUnit : Nat) (h : Handshake) :
    Except Error (List Bytes) := do
  let content ← h.handshakeMessage.marshal
  let contentFragments ← splitBytes content maximumTransmissionUnit
  fragmentsFrom h.handshakeHeader 0 (if contentFragments = [] then [[]] else contentFragments)

/-- A handshake that is sent: the header of its record, whether it is encrypted,
and itself. -/
structure HandshakePacket where
  recordLayerHeader : RecordLayerHeader
  shouldEncrypt : Bool
  handshake : Handshake
deriving DecidableEq, Repr

def Packet.handshakePacket? (p : Packet) : Option HandshakePacket :=
  match p.record.content with
  | .handshake h => some ⟨p.record.recordLayerHeader, p.shouldEncrypt, h⟩
  | _ => none

/-! ## The receiver -/

structure Fragment where
  recordLayerHeader : RecordLayerHeader
  handshakeHeader : HandshakeHeader
  data : Bytes
deriving DecidableEq, Repr

/-- The map from message numbers to fragments, as the list of all fragments in
the order in which they came. -/
structure FragmentBuffer where
  cache : List Fragment
  currentMessageSequenceNumber : UInt16
deriving DecidableEq, Repr

namespace FragmentBuffer

def fragmentBufferMaxSize : Nat := 2000000

def new : FragmentBuffer := ⟨[], 0⟩

def size (fb : FragmentBuffer) : Nat := (fb.cache.map fun f => f.data.length).sum

/-- The entry of a message number. -/
def entry (fb : FragmentBuffer) (seq : UInt16) : List Fragment :=
  fb.cache.filter fun f => f.handshakeHeader.messageSequence = seq

/-- The loop of `push` over the handshake messages of a record. The fragments
in front of one that cannot be read stay. -/
def pushFrom (header : RecordLayerHeader) (cache : List Fragment) (buf : Bytes) :
    Except Error Unit × List Fragment :=
  if buf = [] then (.ok (), cache)
  else
    match h : HandshakeHeader.unmarshal.run buf with
    | .error e => (.error e, cache)
    | .ok (handshakeHeader, body) =>
        pushFrom header
          (cache ++ [⟨header, handshakeHeader, body.take handshakeHeader.length⟩])
          (body.drop handshakeHeader.length)
termination_by buf.length
decreasing_by
  obtain ⟨-, -, -, hlen⟩ := HandshakeHeader.of_unmarshal h
  rw [List.length_drop, hlen]
  exact Nat.lt_of_le_of_lt (Nat.sub_le ..) (Nat.lt_add_of_pos_left (by decide))

def push (fb : FragmentBuffer) (buf : Bytes) : Except Error Bool × FragmentBuffer :=
  if fb.size + buf.length ≥ fragmentBufferMaxSize then
    (.error (.errFragmentBufferOverflow (fb.size + buf.length) fragmentBufferMaxSize), fb)
  else
    match RecordLayerHeader.unmarshal.run buf with
    | .error e => (.error e, fb)
    | .ok (header, body) =>
        if header.contentType ≠ .handshake then (.ok false, fb)
        else
          match pushFrom header fb.cache body with
          | (.error e, cache) => (.error e, { fb with cache := cache })
          | (.ok (), cache) => (.ok true, { fb with cache := cache })

end FragmentBuffer

theorem length_filter_lt {α : Type} {p q : α → Bool} {xs : List α} {x : α} (hx : x ∈ xs)
    (himp : ∀ x, q x = true → p x = true) (hp : p x = true) (hq : ¬ q x = true) :
    (xs.filter q).length < (xs.filter p).length := by
  have hfilter : xs.filter q = (xs.filter p).filter q := by
    rw [List.filter_filter]
    refine List.filter_congr fun y _ => ?_
    cases hy : q y with
    | true => rw [himp y hy]; rfl
    | false => rfl
  rw [hfilter, List.length_filter_lt_length_iff_exists]
  exact ⟨x, List.mem_filter.mpr ⟨hx, hp⟩, hq⟩

/-- `append_message`, with what it adds to the message. -/
def appendMessage (frags : List Fragment) (targetOffset : Nat) : Option Bytes :=
  match _ : frags.find? fun f => f.handshakeHeader.fragmentOffset = targetOffset with
  | none => none
  | some f =>
      let fragmentEnd := f.handshakeHeader.fragmentOffset + f.handshakeHeader.fragmentLength
      if fragmentEnd ≠ f.handshakeHeader.length ∧ f.handshakeHeader.fragmentLength ≠ 0 then
        (appendMessage frags fragmentEnd).map fun rawMessage => f.data ++ rawMessage
      else some f.data
termination_by (frags.filter fun f => targetOffset ≤ f.handshakeHeader.fragmentOffset).length
decreasing_by
  rename_i h hmore
  have hmem := List.mem_of_find?_eq_some h
  have hat : f.handshakeHeader.fragmentOffset = targetOffset := by
    simpa using List.find?_some h
  refine length_filter_lt hmem (fun g hg => ?_) (by simpa using hat.ge) ?_
  · simp only [decide_eq_true_eq] at hg ⊢
    omega
  · simp only [decide_eq_true_eq]
    omega

namespace FragmentBuffer

def pop (fb : FragmentBuffer) : Except Error ((Bytes × UInt16) × FragmentBuffer) :=
  match fb.entry fb.currentMessageSequenceNumber with
  | [] => .error .errEmptyFragment
  | f :: frags =>
      match appendMessage (f :: frags) 0 with
      | none => .error .errEmptyFragment
      | some rawMessage =>
          let firstHeader := { f.handshakeHeader with
            fragmentOffset := 0
            fragmentLength := f.handshakeHeader.length }
          match firstHeader.marshal with
          | .error _ => .error .errEmptyFragment
          | .ok rawHeader =>
              .ok ((rawHeader ++ rawMessage, f.recordLayerHeader.epoch),
                { cache := fb.cache.filter fun f =>
                    f.handshakeHeader.messageSequence ≠ fb.currentMessageSequenceNumber
                  currentMessageSequenceNumber := fb.currentMessageSequenceNumber + 1 })

/-- What `pop` takes out and what it leaves. -/
theorem pop_eq_ok {fb fb' : FragmentBuffer} {out : Bytes × UInt16} (h : fb.pop = .ok (out, fb')) :
    ∃ f frags rawMessage rawHeader, fb.entry fb.currentMessageSequenceNumber = f :: frags
      ∧ appendMessage (f :: frags) 0 = some rawMessage
      ∧ HandshakeHeader.marshal { f.handshakeHeader with
          fragmentOffset := 0
          fragmentLength := f.handshakeHeader.length } = .ok rawHeader
      ∧ out = (rawHeader ++ rawMessage, f.recordLayerHeader.epoch)
      ∧ fb' = { cache := fb.cache.filter fun f =>
                  f.handshakeHeader.messageSequence ≠ fb.currentMessageSequenceNumber
                currentMessageSequenceNumber := fb.currentMessageSequenceNumber + 1 } := by
  unfold pop at h
  split at h
  · cases h
  · rename_i f frags hentry
    split at h
    · cases h
    · rename_i rawMessage hmessage
      dsimp only at h
      split at h
      · cases h
      · rename_i rawHeader hheader
        rw [Except.ok.injEq, Prod.mk.injEq] at h
        exact ⟨f, frags, rawMessage, rawHeader, hentry, hmessage, hheader, h.1.symm, h.2.symm⟩

theorem length_cache_of_pop {fb fb' : FragmentBuffer} {out : Bytes × UInt16}
    (h : fb.pop = .ok (out, fb')) : fb'.cache.length < fb.cache.length := by
  obtain ⟨f, frags, -, -, hentry, -, -, -, rfl⟩ := pop_eq_ok h
  have hmem : f ∈ fb.entry fb.currentMessageSequenceNumber := by
    rw [hentry]
    exact List.mem_cons_self ..
  obtain ⟨hf, hseq⟩ := List.mem_filter.mp hmem
  rw [List.length_filter_lt_length_iff_exists]
  exact ⟨f, hf, by simpa using hseq⟩

/-- The messages that `handle_incoming_packet` takes out after a handshake
record. -/
def popAll (fb : FragmentBuffer) : List (Bytes × UInt16) × FragmentBuffer :=
  match _ : fb.pop with
  | .error _ => ([], fb)
  | .ok (out, fb') =>
      let rest := popAll fb'
      (out :: rest.1, rest.2)
termination_by fb.cache.length
decreasing_by
  rename_i h
  exact length_cache_of_pop h

/-- A record comes in. -/
def receive (fb : FragmentBuffer) (pkt : Bytes) : List (Bytes × UInt16) × FragmentBuffer :=
  match fb.push pkt with
  | (.ok true, fb') => fb'.popAll
  | (_, fb') => ([], fb')

/-- The records of a connection, one after the other. -/
def receiveAll (fb : FragmentBuffer) : List Bytes → List (Bytes × UInt16) × FragmentBuffer
  | [] => ([], fb)
  | pkt :: pkts =>
      let first := fb.receive pkt
      let rest := first.2.receiveAll pkts
      (first.1 ++ rest.1, rest.2)

theorem receiveAll_append (fb : FragmentBuffer) (pkts qkts : List Bytes) :
    fb.receiveAll (pkts ++ qkts)
      = ((fb.receiveAll pkts).1 ++ ((fb.receiveAll pkts).2.receiveAll qkts).1,
        ((fb.receiveAll pkts).2.receiveAll qkts).2) := by
  induction pkts generalizing fb with
  | nil => rfl
  | cons pkt pkts ih =>
      rw [List.cons_append, receiveAll, ih, receiveAll, List.append_assoc]

end FragmentBuffer

end Dtls

end XashProxy
