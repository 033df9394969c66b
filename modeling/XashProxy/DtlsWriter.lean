import XashProxy.DtlsCipher
import XashProxy.DtlsFragments
import XashProxy.DtlsCache
import XashProxy.Programs
import XashProxy.Lts

/-!
# The writing task

One task makes the records of a connection: it takes the next number of the
epoch, encrypts, packs the records into datagrams and sends them. The handshake
loop, the reader and the application all hand their packets to it. A number is
taken before anything can go wrong, so no number is used twice.
-/

namespace XashProxy

namespace Dtls

open Codec Programs Lts

inductive SuiteState where
  | absent
  | uninitialized
  | ready (c : AeadSuite)

/-- The suite as it is when a record is made, and the nonce that is drawn for
it. Numbers are not used twice, so the number of the record tells them. -/
abbrev Env := UInt16 → Nat → SuiteState × ExplicitNonce

/-- A record before and after it was encrypted. -/
structure Outgoing where
  header : RecordLayerHeader
  plain : Bytes
  shouldEncrypt : Bool
  raw : Bytes
deriving DecidableEq, Repr

/-- The data of an application record. -/
def Outgoing.data? (o : Outgoing) : Option Bytes :=
  if o.header.contentType = .applicationData then some (o.plain.drop recordLayerHeaderSize)
  else none

/-- The header names the content, as `RecordLayer::new` has it. -/
def Packet.Typed (p : Packet) : Prop :=
  p.record.recordLayerHeader.contentType = p.record.content.contentType

def Packet.data? (p : Packet) : Option Bytes :=
  match p.record.content with
  | .applicationData data => some data
  | _ => none

structure ConnWriter where
  /-- The next number of each epoch. In the source it is a `u64`, which agrees with
  a natural number for the first `2 ^ 64` records of an epoch. -/
  localSequenceNumber : UInt16 → Nat
  cache : HandshakeCache
  /-- Every record that was made, whether or not it was sent. -/
  made : List Outgoing
  /-- The datagrams that were sent. -/
  sent : List Bytes

/-- The packet of `DTLSConn::write`. -/
def applicationPacket (localEpoch : UInt16) (data : Bytes) : Packet where
  record := .new protocolVersion1_2 localEpoch (.applicationData data)
  shouldEncrypt := true
  resetLocalSequenceNumber := false

namespace ConnWriter

def new : ConnWriter where
  localSequenceNumber _ := 0
  cache := []
  made := []
  sent := []

abbrev WriterM := Prog ConnWriter Error

/-- The number is gone even if it is too large. -/
def takeNumber (epoch : UInt16) : WriterM Nat := do
  let w ← get
  let seq := w.localSequenceNumber epoch
  modify fun w => { w with
    localSequenceNumber := Function.update w.localSequenceNumber epoch (seq + 1) }
  if seq > maxSequenceNumber then throw .errSequenceNumberOverflow else return seq

def encryptRecord (env : Env) (shouldEncrypt : Bool) (header : RecordLayerHeader) (raw : Bytes) :
    Except Error Bytes :=
  if shouldEncrypt then
    match env header.epoch header.sequenceNumber with
    | (.absent, _) => .ok raw
    | (.uninitialized, _) =>
        .error (.other "CipherSuite has not been initialized, unable to encrypt")
    | (.ready c, nonce) => c.encrypt nonce header raw
  else .ok raw

/-- A record with the next number. -/
def makeRecord (env : Env) (shouldEncrypt : Bool) (h : RecordLayerHeader)
    (marshal : RecordLayerHeader → Except Error Bytes) : WriterM Bytes := do
  let seq ← takeNumber h.epoch
  let header := { h with sequenceNumber := seq }
  let plain ← orThrow (marshal header)
  let raw ← orThrow (encryptRecord env shouldEncrypt header plain)
  modify fun w => { w with made := w.made ++ [⟨header, plain, shouldEncrypt, raw⟩] }
  return raw

def processPacket (env : Env) (p : Packet) : WriterM Bytes :=
  makeRecord env p.shouldEncrypt p.record.recordLayerHeader fun header =>
    RecordLayer.marshal ⟨header, p.record.content⟩

/-- The loop of `process_handshake_packet`. -/
def processFragments (env : Env) (p : Packet) : List Bytes → WriterM (List Bytes)
  | [] => return []
  | handshakeFragment :: handshakeFragments => do
      let h := { p.record.recordLayerHeader with
        contentLen := UInt16.ofNat handshakeFragment.length }
      let raw ← makeRecord env p.shouldEncrypt h fun header => do
        let recordLayerHeaderBytes ← header.marshal
        return recordLayerHeaderBytes ++ handshakeFragment
      let raws ← processFragments env p handshakeFragments
      return raw :: raws

def processHandshakePacket (env : Env) (mtu : Nat) (p : Packet) (h : Handshake) :
    WriterM (List Bytes) := do
  let handshakeFragments ← orThrow (fragmentHandshake mtu h)
  processFragments env p handshakeFragments

/-- The body of the loop of `handle_outgoing_packets`. -/
def rawPacketsOf (env : Env) (mtu : Nat) (isClient : Bool) (p : Packet) : WriterM (List Bytes) :=
  match p.record.content with
  | .handshake h => do
      let handshakeRaw ← orThrow p.record.marshal
      modify fun w => { w with cache := w.cache.push {
        typ := h.handshakeHeader.handshakeType
        isClient := isClient
        epoch := p.record.recordLayerHeader.epoch
        messageSequence := h.handshakeHeader.messageSequence
        data := handshakeRaw.drop recordLayerHeaderSize } }
      processHandshakePacket env mtu p h
  | _ => do
      let raw ← processPacket env p
      return [raw]

def rawPackets (env : Env) (mtu : Nat) (isClient : Bool) : List Packet → WriterM (List Bytes)
  | [] => return []
  | p :: pkts => do
      let raws ← rawPacketsOf env mtu isClient p
      let rest ← rawPackets env mtu isClient pkts
      return raws ++ rest

/-- With a failure, the datagrams from the given one on are not sent. -/
def sendAll (failure : Option (Nat × Error)) (datagrams : List Bytes) : WriterM Unit :=
  match failure with
  | none => modify fun w => { w with sent := w.sent ++ datagrams }
  | some (i, e) => do
      modify fun w => { w with sent := w.sent ++ datagrams.take i }
      if i < datagrams.length then throw e else return ()

def handleOutgoingPackets (env : Env) (mtu : Nat) (isClient : Bool)
    (failure : Option (Nat × Error)) (pkts : List Packet) : WriterM Unit := do
  let raws ← rawPackets env mtu isClient pkts
  if raws = [] then return () else sendAll failure (compactRawPackets raws mtu)

/-- The task takes the next request. -/
def step (env : Env) (mtu : Nat) (isClient : Bool) (w : ConnWriter)
    (e : List Packet × Option (Nat × Error)) : Option ConnWriter :=
  some (exec (handleOutgoingPackets env mtu isClient e.2 e.1) w).2

/-! ## Numbers -/

/-- The numbers of an epoch go up, and the next one is larger than all. -/
structure Increasing (w : ConnWriter) : Prop where
  below : ∀ o ∈ w.made, o.header.sequenceNumber < w.localSequenceNumber o.header.epoch
  fits : ∀ o ∈ w.made, o.header.sequenceNumber ≤ maxSequenceNumber
  increasing : w.made.Pairwise fun a b => a.header.epoch = b.header.epoch →
    a.header.sequenceNumber < b.header.sequenceNumber

section
variable {env : Env} {w w' : ConnWriter} {shouldEncrypt : Bool} {h : RecordLayerHeader}
  {marshal : RecordLayerHeader → Except Error Bytes}

/-- The next number of the epoch is taken. -/
def bump (w : ConnWriter) (epoch : UInt16) : ConnWriter :=
  { w with localSequenceNumber :=
      Function.update w.localSequenceNumber epoch (w.localSequenceNumber epoch + 1) }

theorem exec_takeNumber (w : ConnWriter) (epoch : UInt16) :
    exec (takeNumber epoch) w = (if w.localSequenceNumber epoch > maxSequenceNumber then
      .error .errSequenceNumberOverflow else .ok (w.localSequenceNumber epoch), w.bump epoch) := by
  have hrun : exec (takeNumber epoch) w = exec (if w.localSequenceNumber epoch > maxSequenceNumber
      then throw .errSequenceNumberOverflow else pure (w.localSequenceNumber epoch) :
        WriterM Nat) (w.bump epoch) := rfl
  rw [hrun]
  split <;> rfl

/-- All that making a record does. -/
structure Made (env : Env) (shouldEncrypt : Bool) (h : RecordLayerHeader)
    (marshal : RecordLayerHeader → Except Error Bytes) (w : ConnWriter) (o : Outgoing) : Prop where
  fits : w.localSequenceNumber h.epoch ≤ maxSequenceNumber
  header : o.header = { h with sequenceNumber := w.localSequenceNumber h.epoch }
  plain : marshal o.header = .ok o.plain
  encrypts : o.shouldEncrypt = shouldEncrypt
  raw : encryptRecord env shouldEncrypt o.header o.plain = .ok o.raw

theorem exec_makeRecord {r : Except Error Bytes}
    (hexec : exec (makeRecord env shouldEncrypt h marshal) w = (r, w')) :
    (w' = w.bump h.epoch ∧ ∃ e, r = .error e)
      ∨ ∃ o, Made env shouldEncrypt h marshal w o ∧ r = .ok o.raw
        ∧ w' = { w.bump h.epoch with made := w.made ++ [o] } := by
  rw [makeRecord, exec_bind, exec_takeNumber] at hexec
  by_cases hfits : w.localSequenceNumber h.epoch > maxSequenceNumber
  · rw [if_pos hfits] at hexec
    obtain ⟨rfl, rfl⟩ := Prod.mk.inj hexec
    exact .inl ⟨rfl, _, rfl⟩
  rw [if_neg hfits] at hexec
  dsimp only at hexec
  rw [exec_orThrow_bind] at hexec
  split at hexec
  · rename_i plain hplain
    rw [exec_orThrow_bind] at hexec
    split at hexec
    · rename_i raw hraw
      obtain ⟨rfl, rfl⟩ := Prod.mk.inj hexec
      exact .inr ⟨⟨_, plain, shouldEncrypt, raw⟩, ⟨Nat.le_of_not_lt hfits, rfl, hplain, rfl, hraw⟩,
        rfl, rfl⟩
    · obtain ⟨rfl, rfl⟩ := Prod.mk.inj hexec
      exact .inl ⟨rfl, _, rfl⟩
  · obtain ⟨rfl, rfl⟩ := Prod.mk.inj hexec
    exact .inl ⟨rfl, _, rfl⟩

theorem bump_self (w : ConnWriter) (epoch : UInt16) :
    (w.bump epoch).localSequenceNumber epoch = w.localSequenceNumber epoch + 1 :=
  Function.update_self ..

theorem le_bump (w : ConnWriter) (epoch other : UInt16) :
    w.localSequenceNumber other ≤ (w.bump epoch).localSequenceNumber other := by
  by_cases heq : other = epoch
  · rw [heq, bump_self]
    exact Nat.le_succ _
  · exact Nat.le_of_eq (Function.update_of_ne heq _ _).symm

theorem exec_makeRecord_ok {plain raw : Bytes}
    (hfits : w.localSequenceNumber h.epoch ≤ maxSequenceNumber)
    (hplain : marshal { h with sequenceNumber := w.localSequenceNumber h.epoch } = .ok plain)
    (hraw : encryptRecord env shouldEncrypt
      { h with sequenceNumber := w.localSequenceNumber h.epoch } plain = .ok raw) :
    exec (makeRecord env shouldEncrypt h marshal) w = (.ok raw, { w.bump h.epoch with
      made := w.made ++ [⟨{ h with sequenceNumber := w.localSequenceNumber h.epoch }, plain,
        shouldEncrypt, raw⟩] }) := by
  rw [makeRecord, exec_bind, exec_takeNumber, if_neg (Nat.not_lt.mpr hfits)]
  dsimp only
  rw [hplain, exec_orThrow_bind]
  dsimp only
  rw [hraw, exec_orThrow_bind]
  rfl

theorem Increasing.bump (hw : w.Increasing) (epoch : UInt16) : (w.bump epoch).Increasing where
  below o ho := Nat.lt_of_lt_of_le (hw.below o ho) (w.le_bump epoch _)
  fits := hw.fits
  increasing := hw.increasing

theorem Increasing.made (hw : w.Increasing) {o : Outgoing}
    (ho : Made env shouldEncrypt h marshal w o) :
    Increasing { w.bump h.epoch with made := w.made ++ [o] } where
  below q hq := by
    rcases List.mem_append.mp hq with hq | hq
    · exact (hw.bump h.epoch).below q hq
    · obtain rfl := List.mem_singleton.mp hq
      have hself := w.bump_self h.epoch
      rw [ho.header]
      exact hself ▸ Nat.lt_succ_self (w.localSequenceNumber h.epoch)
  fits q hq := by
    rcases List.mem_append.mp hq with hq | hq
    · exact hw.fits q hq
    · obtain rfl := List.mem_singleton.mp hq
      rw [ho.header]
      exact ho.fits
  increasing := by
    refine List.pairwise_append.mpr ⟨hw.increasing, List.pairwise_singleton _ _, ?_⟩
    intro a ha b hb hepoch
    obtain rfl := List.mem_singleton.mp hb
    rw [ho.header] at hepoch ⊢
    have hbelow := hw.below a ha
    rwa [hepoch] at hbelow

theorem preserves_makeRecord : Preserves Increasing (makeRecord env shouldEncrypt h marshal) := by
  intro w hw
  rcases hexec : exec (makeRecord env shouldEncrypt h marshal) w with ⟨r, w'⟩
  rcases exec_makeRecord hexec with ⟨rfl, -⟩ | ⟨o, ho, -, rfl⟩
  · exact hw.bump h.epoch
  · exact hw.made ho

/-- What making a record keeps, the task keeps. -/
theorem preserves_rawPackets {I : ConnWriter → Prop} (mtu : Nat) (isClient : Bool)
    (hmake : ∀ shouldEncrypt h marshal, Preserves I (makeRecord env shouldEncrypt h marshal))
    (hcache : ∀ w cache, I w → I { w with cache := cache }) (pkts : List Packet) :
    Preserves I (rawPackets env mtu isClient pkts) := by
  have hfragments : ∀ p frags, Preserves I (processFragments env p frags) := by
    intro p frags
    induction frags with
    | nil => exact Preserves.pure _
    | cons f frags ih =>
        exact (hmake _ _ _).bind fun _ => ih.bind fun _ => Preserves.pure _
  induction pkts with
  | nil => exact Preserves.pure _
  | cons p pkts ih =>
      refine Preserves.bind ?_ fun _ => ih.bind fun _ => Preserves.pure _
      unfold rawPacketsOf
      split
      · exact (Preserves.orThrow _).bind fun _ => (Preserves.modify fun w hw =>
          hcache w _ hw).bind fun _ => (Preserves.orThrow _).bind fun _ => hfragments _ _
      · exact (hmake _ _ _).bind fun _ => Preserves.pure _

theorem preserves_handleOutgoingPackets {I : ConnWriter → Prop} (mtu : Nat) (isClient : Bool)
    (hmake : ∀ shouldEncrypt h marshal, Preserves I (makeRecord env shouldEncrypt h marshal))
    (hcache : ∀ w cache, I w → I { w with cache := cache })
    (hsent : ∀ w sent, I w → I { w with sent := sent }) (failure : Option (Nat × Error))
    (pkts : List Packet) :
    Preserves I (handleOutgoingPackets env mtu isClient failure pkts) := by
  refine (preserves_rawPackets mtu isClient hmake hcache pkts).bind fun raws => ?_
  split
  · exact Preserves.pure _
  · unfold sendAll
    split
    · exact Preserves.modify fun w hw => hsent w _ hw
    · refine (Preserves.modify fun w hw => hsent w _ hw).bind fun _ => ?_
      split
      · exact Preserves.orThrow (.error _)
      · exact Preserves.pure _

end

/-! ## What the application wrote -/

/-- The data of all application records, in the order in which they were made. -/
def written (w : ConnWriter) : List Bytes := w.made.filterMap Outgoing.data?

section
variable {env : Env} {shouldEncrypt : Bool} {h : RecordLayerHeader}
  {marshal : RecordLayerHeader → Except Error Bytes} {p : Packet}

theorem logs_makeRecord {bs : List Bytes}
    (hdata : ∀ w o, Made env shouldEncrypt h marshal w o → o.data?.toList.Sublist bs) :
    Logs written bs (makeRecord env shouldEncrypt h marshal) := by
  intro w
  rcases hexec : exec (makeRecord env shouldEncrypt h marshal) w with ⟨r, w'⟩
  rcases exec_makeRecord hexec with ⟨rfl, -⟩ | ⟨o, ho, -, rfl⟩
  · exact ⟨[], List.nil_sublist bs, (List.append_nil _).symm⟩
  · refine ⟨o.data?.toList, hdata w o ho, ?_⟩
    unfold written
    rw [List.filterMap_append]
    cases hd : o.data? <;> simp [hd]

/-- No handshake record has application data. -/
theorem keeps_processFragments (htype : p.record.recordLayerHeader.contentType = .handshake)
    (frags : List Bytes) : Logs written [] (processFragments env p frags) := by
  induction frags with
  | nil => exact Logs.of_keeps (Keeps.pure _)
  | cons f frags ih =>
      have hmake : ∀ n marshal, Logs written [] (makeRecord env p.shouldEncrypt
          { p.record.recordLayerHeader with contentLen := n } marshal) := by
        intro n marshal
        refine logs_makeRecord fun w o ho => ?_
        rw [Outgoing.data?, if_neg]
        · exact List.nil_sublist []
        · rw [ho.header]
          simp [htype]
      exact (hmake _ _).bind fun _ => ih.before fun _ => Keeps.pure _

theorem logs_processPacket (htyped : p.Typed) :
    Logs written p.data?.toList (processPacket env p) := by
  refine logs_makeRecord fun w o ho => ?_
  have htype : o.header.contentType = p.record.content.contentType := by
    rw [ho.header]
    exact htyped
  obtain ⟨front, body, hfront, hbody, hplain⟩ := RecordLayer.marshal_eq_ok.mp ho.plain
  rw [Outgoing.data?, htype, hplain, List.drop_left' (RecordLayerHeader.length_marshal hfront)]
  unfold Packet.data?
  cases hcontent : p.record.content with
  | applicationData data =>
      rw [hcontent] at hbody
      obtain rfl := Except.ok.inj hbody
      exact List.Sublist.refl _
  | _ => exact List.Sublist.refl _

theorem logs_rawPackets (mtu : Nat) (isClient : Bool) {pkts : List Packet}
    (htyped : ∀ p ∈ pkts, p.Typed) :
    Logs written (pkts.filterMap Packet.data?) (rawPackets env mtu isClient pkts) := by
  induction pkts with
  | nil => exact Logs.of_keeps (Keeps.pure _)
  | cons p pkts ih =>
      have hrest := ih fun q hq => htyped q (List.mem_cons_of_mem _ hq)
      have hp := htyped p List.mem_cons_self
      have hfirst : Logs written p.data?.toList (rawPacketsOf env mtu isClient p) := by
        unfold rawPacketsOf
        split
        · rename_i hs hcontent
          have hnone : p.data? = none := by
            unfold Packet.data?
            rw [hcontent]
          have htype : p.record.recordLayerHeader.contentType = .handshake := by
            rw [hp, hcontent]
            rfl
          rw [hnone]
          exact Logs.after (Keeps.orThrow _) fun _ => Logs.after (Keeps.modify fun _ => rfl)
            fun _ => Logs.after (Keeps.orThrow _) fun _ => keeps_processFragments htype _
        · exact (logs_processPacket hp).before fun _ => Keeps.pure _
      have hcons : (p :: pkts).filterMap Packet.data?
          = p.data?.toList ++ pkts.filterMap Packet.data? := by
        rw [List.filterMap_cons]
        cases p.data? <;> rfl
      rw [hcons]
      exact hfirst.bind fun _ => hrest.before fun _ => Keeps.pure _

theorem logs_handleOutgoingPackets (mtu : Nat) (isClient : Bool) {pkts : List Packet}
    (htyped : ∀ p ∈ pkts, p.Typed) (failure : Option (Nat × Error)) :
    Logs written (pkts.filterMap Packet.data?)
      (handleOutgoingPackets env mtu isClient failure pkts) := by
  refine (logs_rawPackets mtu isClient htyped).before fun raws => ?_
  split
  · exact Keeps.pure _
  · unfold sendAll
    split
    · exact Keeps.modify fun _ => rfl
    · refine (Keeps.modify fun _ => ?_).bind fun _ => ?_
      · rfl
      · split
        · exact Keeps.throw _
        · exact Keeps.pure _

end

/-! ## Over whole runs -/

namespace SampleTransfer

def suite : AeadSuite where
  isPsk := false
  tagLength := cryptoGcmTagLength
  localWriteIv := ⟨[1, 1, 1, 1], rfl⟩
  remoteWriteIv := ⟨[1, 1, 1, 1], rfl⟩
  encryptInPlace _ _ buffer := .ok (buffer ++ List.replicate 16 0)
  decryptInPlace _ _ sealed := .ok (sealed.take (sealed.length - 16))

theorem mirrors : Mirrors suite suite where
  iv := rfl
  tag := by decide
  opens nonce additionalData buffer sealed h := by
    obtain rfl := Except.ok.inj h
    have hlen : (buffer ++ List.replicate 16 0).length = buffer.length + 16 := by simp
    refine ⟨?_, hlen⟩
    dsimp only [suite]
    rw [hlen, Nat.add_sub_cancel, List.take_left]

def env : Env := fun _ _ => (.ready suite, ⟨List.replicate 8 0, rfl⟩)

def changeCipherSpec (sequenceNumber : Nat) : Bytes :=
  match RecordLayer.marshal ⟨⟨.changeCipherSpec, protocolVersion1_2, 0, sequenceNumber, 1⟩,
    .changeCipherSpec⟩ with
  | .ok raw => raw
  | .error _ => []

/-- The second piece is lost on the way to the socket. -/
def requests : List (List Packet × Option (Nat × Error)) :=
  [([applicationPacket 1 [1, 2]], none), ([applicationPacket 1 [7]], some (0, .io)),
    ([applicationPacket 1 [3]], none)]

def writer : ConnWriter := (run (step env 1200 true) .new requests).getD .new

theorem run_writer : run (step env 1200 true) .new requests = some writer := rfl

theorem requests_typed : ∀ e ∈ requests, ∀ p ∈ e.1, p.Typed := by
  intro e he p hp
  simp only [requests, List.mem_cons, List.not_mem_nil, or_false] at he
  rcases he with rfl | rfl | rfl <;>
  · rw [List.mem_singleton.mp hp]
    rfl

end SampleTransfer

section
variable {env : Env} {mtu : Nat} {isClient : Bool} {w : ConnWriter}
  {es : List (List Packet × Option (Nat × Error))}

/-- However the packets come, and whatever fails on the way: in an epoch every
record has a larger number than the records before it. -/
theorem numbers_increasing (hrun : run (step env mtu isClient) .new es = some w) :
    (∀ o ∈ w.made, o.header.sequenceNumber ≤ maxSequenceNumber)
      ∧ w.made.Pairwise fun a b => a.header.epoch = b.header.epoch →
        a.header.sequenceNumber < b.header.sequenceNumber := by
  have hinv : w.Increasing := run_invariant (fun hw hstep => by
    obtain rfl := Option.some.inj hstep
    exact preserves_handleOutgoingPackets mtu isClient (fun _ _ _ => preserves_makeRecord)
      (fun w cache hw => { hw with }) (fun w sent hw => { hw with }) _ _ _ hw) hrun
    ⟨by simp [new], by simp [new], List.Pairwise.nil⟩
  exact ⟨hinv.fits, hinv.increasing⟩

theorem numbers_increasing_lost : SampleTransfer.writer.made.length = 3
    ∧ (∀ o ∈ SampleTransfer.writer.made, o.header.sequenceNumber ≤ maxSequenceNumber)
    ∧ SampleTransfer.writer.made.Pairwise fun a b => a.header.epoch = b.header.epoch →
      a.header.sequenceNumber < b.header.sequenceNumber :=
  ⟨rfl, numbers_increasing SampleTransfer.run_writer⟩

/-- The data of the records is data that was handed in, in that order and each
once. -/
theorem written_sublist (hrun : run (step env mtu isClient) .new es = some w)
    (htyped : ∀ e ∈ es, ∀ p ∈ e.1, p.Typed) :
    w.written.Sublist (es.flatMap fun e => e.1.filterMap Packet.data?) := by
  obtain ⟨cs, hcs, hlog⟩ := run_logs (f := written) (fun {u e u'} he hstep => by
    obtain rfl := Option.some.inj hstep
    exact logs_handleOutgoingPackets mtu isClient (htyped e he) e.2 u) hrun
  have hnil : written .new = [] := rfl
  rw [hlog, hnil, List.nil_append]
  exact hcs

end

end ConnWriter

end Dtls

end XashProxy
