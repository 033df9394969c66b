import XashProxy.DtlsCipher
import XashProxy.DtlsFragments
import XashProxy.DtlsCache
import XashProxy.Lts

/-!
# The reading task

What the task that reads does with a record: it looks at the epoch, asks the
window of the epoch whether the number is new, decrypts, and hands the content
to the fragment buffer or to the application. Records of the next epoch wait in
a queue until the loop has the keys.

The anti-replay window is that of another crate. A number that it refuses it
refuses from then on, and what was accepted is refused.
-/

namespace XashProxy

namespace Dtls

open Codec Lts

/-! ## Alerts in words -/

def AlertLevel.toText : AlertLevel → String
  | .warning => "LevelWarning"
  | .fatal => "LevelFatal"
  | .invalid => "Invalid alert level"

def AlertDescription.toText : AlertDescription → String
  | .closeNotify => "CloseNotify"
  | .unexpectedMessage => "UnexpectedMessage"
  | .badRecordMac => "BadRecordMac"
  | .decryptionFailed => "DecryptionFailed"
  | .recordOverflow => "RecordOverflow"
  | .decompressionFailure => "DecompressionFailure"
  | .handshakeFailure => "HandshakeFailure"
  | .noCertificate => "NoCertificate"
  | .badCertificate => "BadCertificate"
  | .unsupportedCertificate => "UnsupportedCertificate"
  | .certificateRevoked => "CertificateRevoked"
  | .certificateExpired => "CertificateExpired"
  | .certificateUnknown => "CertificateUnknown"
  | .illegalParameter => "IllegalParameter"
  | .unknownCa => "UnknownCA"
  | .accessDenied => "AccessDenied"
  | .decodeError => "DecodeError"
  | .decryptError => "DecryptError"
  | .exportRestriction => "ExportRestriction"
  | .protocolVersion => "ProtocolVersion"
  | .insufficientSecurity => "InsufficientSecurity"
  | .internalError => "InternalError"
  | .userCanceled => "UserCanceled"
  | .noRenegotiation => "NoRenegotiation"
  | .unsupportedExtension => "UnsupportedExtension"
  | .unknownPskIdentity => "UnknownPskIdentity"
  | .invalid => "Invalid alert description"

def Alert.toText (a : Alert) : String :=
  "Alert " ++ a.alertLevel.toText ++ ": " ++ a.alertDescription.toText

/-! ## The reader -/

/-- `check` asks about a number, `accept` marks the one that was asked about. -/
structure ReplayDetector where
  Window : Type
  new : Window
  check : Window → Nat → Bool × Window
  accept : Window → Window

def ReplayDetector.Refused (d : ReplayDetector) (w : d.Window) (n : Nat) : Prop :=
  (d.check w n).1 = false

structure ReplayDetector.Lawful (d : ReplayDetector) : Prop where
  check_refused : ∀ w m n, d.Refused w n → d.Refused (d.check w m).2 n
  accept_refused : ∀ w n, d.Refused w n → d.Refused (d.accept w) n
  accept_checked : ∀ w n, ¬ d.Refused w n → d.Refused (d.accept (d.check w n).2) n

structure ConnReader (d : ReplayDetector) where
  remoteEpoch : UInt16
  replayDetector : UInt16 → d.Window
  encryptedPackets : List Bytes
  fragmentBuffer : FragmentBuffer
  cache : HandshakeCache
  /-- What went to the application, each with the header of its record. -/
  decrypted : List (RecordLayerHeader × Bytes)
  /-- What was handed to the writing task. -/
  alerts : List Alert
  closed : Bool

/-- Whether it was a handshake, the alert to send, and the error. -/
structure Outcome where
  handshake : Bool
  alert : Option Alert
  err : Option Error
deriving DecidableEq, Repr

def Outcome.discard : Outcome := ⟨false, none, none⟩

namespace ConnReader

variable {d : ReplayDetector}

def new (d : ReplayDetector) : ConnReader d where
  remoteEpoch := 0
  replayDetector _ := d.new
  encryptedPackets := []
  fragmentBuffer := .new
  cache := []
  decrypted := []
  alerts := []
  closed := false

def queue (ctx : ConnReader d) (enqueue : Bool) (pkt : Bytes) : ConnReader d :=
  if enqueue then { ctx with encryptedPackets := ctx.encryptedPackets ++ [pkt] } else ctx

def check (ctx : ConnReader d) (h : RecordLayerHeader) : Bool × ConnReader d :=
  let (ok, window) := d.check (ctx.replayDetector h.epoch) h.sequenceNumber
  (ok, { ctx with replayDetector := Function.update ctx.replayDetector h.epoch window })

def accept (ctx : ConnReader d) (epoch : UInt16) : ConnReader d :=
  { ctx with replayDetector :=
      Function.update ctx.replayDetector epoch (d.accept (ctx.replayDetector epoch)) }

/-- `handle_incoming_packet` once the record is decrypted. `ready` says whether
the suite is initialised. -/
def handleRecord (ready enqueue : Bool) (h : RecordLayerHeader) (pkt : Bytes)
    (ctx : ConnReader d) : Outcome × ConnReader d :=
  match ctx.fragmentBuffer.push pkt with
  | (.error _, fb) => (.discard, { ctx with fragmentBuffer := fb })
  | (.ok true, fb) =>
      let ctx := { ctx with
        fragmentBuffer := fb.popAll.2
        cache := ctx.cache.receiveAll (fb.popAll.1.map Prod.swap) }
      (⟨true, none, none⟩, ctx.accept h.epoch)
  | (.ok false, fb) =>
      let ctx := { ctx with fragmentBuffer := fb }
      match RecordLayer.unmarshal.run pkt with
      | .error e => (⟨false, some ⟨.fatal, .decodeError⟩, some e⟩, ctx)
      | .ok (r, _) =>
          match r.content with
          | .alert a =>
              let a := if a.alertDescription = .closeNotify then ⟨.warning, .closeNotify⟩ else a
              (⟨false, some a, some (.other ("Error of Alert " ++ a.toText))⟩, ctx.accept h.epoch)
          | .changeCipherSpec =>
              if ready = false then (.discard, ctx.queue enqueue pkt)
              else if ctx.remoteEpoch + 1 = h.epoch + 1 then
                (.discard, { ctx.accept h.epoch with remoteEpoch := h.epoch + 1 })
              else (.discard, ctx)
          | .applicationData data =>
              if h.epoch = 0 then
                (⟨false, some ⟨.fatal, .unexpectedMessage⟩, some .errApplicationDataEpochZero⟩, ctx)
              else (.discard, { ctx.accept h.epoch with decrypted := ctx.decrypted ++ [(h, data)] })
          | .handshake _ =>
              (⟨false, some ⟨.fatal, .unexpectedMessage⟩, some .errUnhandledContextType⟩, ctx)

/-- `c` is the suite of the connection, once it is there. -/
def handleIncomingPacket (c : AeadSuite) (ready enqueue : Bool) (pkt : Bytes)
    (ctx : ConnReader d) : Outcome × ConnReader d :=
  match RecordLayerHeader.unmarshal.run pkt with
  | .error _ => (.discard, ctx)
  | .ok (h, _) =>
      if h.epoch > ctx.remoteEpoch then
        (.discard, if h.epoch > ctx.remoteEpoch + 1 then ctx else ctx.queue enqueue pkt)
      else
        match ctx.check h with
        | (false, ctx) => (.discard, ctx)
        | (true, ctx) =>
            if h.epoch = 0 then ctx.handleRecord ready enqueue h pkt
            else if ready = false then (.discard, ctx.queue enqueue pkt)
            else
              match c.decrypt pkt with
              | .error _ =>
                  (if c.isPsk then ⟨false, some ⟨.fatal, .unknownPskIdentity⟩, none⟩ else .discard,
                    ctx)
              | .ok pkt => ctx.handleRecord ready enqueue h pkt

/-- The reader ends with a fatal alert or a `close_notify`. -/
def ends (a : Alert) : Bool := a.alertLevel = .fatal ∨ a.alertDescription = .closeNotify

/-- The loop of `read_and_buffer` and of `handle_queued_packets`. The suite may
get ready between two records. -/
def handlePackets (c : AeadSuite) (ready : Nat → Bool) (enqueue : Bool) :
    Nat → List Bytes → ConnReader d → Except Error Bool × ConnReader d
  | _, [], ctx => (.ok false, ctx)
  | i, pkt :: pkts, ctx =>
      let (out, ctx) := ctx.handleIncomingPacket c (ready i) enqueue pkt
      let ctx := { ctx with alerts := ctx.alerts ++ out.alert.toList }
      if out.alert.any ends then (.error .errAlertFatalOrClose, ctx)
      else
        match out.err with
        | some e => (.error e, ctx)
        | none =>
            match handlePackets c ready enqueue (i + 1) pkts ctx with
            | (.ok hasHandshake, ctx) => (.ok (out.handshake || hasHandshake), ctx)
            | (.error e, ctx) => (.error e, ctx)

def readAndBuffer (c : AeadSuite) (ready : Nat → Bool) (datagram : Bytes) (ctx : ConnReader d) :
    Except Error Bool × ConnReader d :=
  match unpackDatagram datagram with
  | .error e => (.error e, ctx)
  | .ok pkts => handlePackets c ready true 0 pkts ctx

def handleQueuedPackets (c : AeadSuite) (ready : Nat → Bool) (ctx : ConnReader d) :
    Except Error Bool × ConnReader d :=
  handlePackets c ready false 0 ctx.encryptedPackets { ctx with encryptedPackets := [] }

inductive Event where
  | datagram (raw : Bytes) (ready : Nat → Bool)
  /-- The loop asks for the packets that wait. -/
  | queued (ready : Nat → Bool)

/-- Only a fatal alert or a `close_notify` ends the task. -/
def after : Except Error Bool × ConnReader d → ConnReader d
  | (.error .errAlertFatalOrClose, ctx) => { ctx with closed := true }
  | (_, ctx) => ctx

def step (c : AeadSuite) (ctx : ConnReader d) (e : Event) : Option (ConnReader d) :=
  if ctx.closed then none
  else
    match e with
    | .datagram raw ready => some (after (ctx.readAndBuffer c ready raw))
    | .queued ready => some (after (ctx.handleQueuedPackets c ready))

/-! ## What a record does -/

section
variable {ready enqueue : Bool} {h : RecordLayerHeader} {pkt : Bytes} {ctx ctx' : ConnReader d}

/-- The windows and the data of the application after a record whose number was
checked. -/
inductive Took (h : RecordLayerHeader) (pkt : Bytes) (ctx ctx' : ConnReader d) : Prop
  | left (hwindows : ctx'.replayDetector = ctx.replayDetector)
      (hdecrypted : ctx'.decrypted = ctx.decrypted)
  | accepted (hwindows : ctx'.replayDetector = (ctx.accept h.epoch).replayDetector)
      (hdecrypted : ctx'.decrypted = ctx.decrypted)
  | delivered (header : RecordLayerHeader) (data tail : Bytes)
      (hread : RecordLayer.unmarshal.run pkt = .ok (⟨header, .applicationData data⟩, tail))
      (hepoch : h.epoch ≠ 0)
      (hwindows : ctx'.replayDetector = (ctx.accept h.epoch).replayDetector)
      (hdecrypted : ctx'.decrypted = ctx.decrypted ++ [(h, data)])

theorem queue_keeps (ctx : ConnReader d) (enqueue : Bool) (pkt : Bytes) :
    (ctx.queue enqueue pkt).replayDetector = ctx.replayDetector
      ∧ (ctx.queue enqueue pkt).decrypted = ctx.decrypted := by
  unfold queue
  split <;> exact ⟨rfl, rfl⟩

theorem took_handleRecord : Took h pkt ctx (ctx.handleRecord ready enqueue h pkt).2 := by
  unfold handleRecord
  split
  · exact .left rfl rfl
  · exact .accepted rfl rfl
  · split
    · exact .left rfl rfl
    · rename_i r tail hread
      obtain ⟨header, content⟩ := r
      cases content with
      | alert a => exact .accepted rfl rfl
      | changeCipherSpec =>
          dsimp only
          split
          · obtain ⟨hwindows, hdecrypted⟩ :=
              queue_keeps { ctx with fragmentBuffer := _ } enqueue pkt
            exact .left hwindows hdecrypted
          · split
            · exact .accepted rfl rfl
            · exact .left rfl rfl
      | applicationData data =>
          dsimp only
          split
          · exact .left rfl rfl
          · rename_i hepoch
            exact .delivered header data tail hread hepoch rfl rfl
      | handshake m => exact .left rfl rfl

/-- The record that carried the data was opened with the keys of the
connection, under the number and the type in its header. -/
structure Authentic (c : AeadSuite) (x : RecordLayerHeader × Bytes) : Prop where
  contentType : x.1.contentType = .applicationData
  epoch : x.1.epoch ≠ 0
  sequenceNumber : x.1.sequenceNumber ≤ maxSequenceNumber
  opened : ∃ nonce len sealed,
    c.decryptInPlace nonce (generateAeadAdditionalData x.1 len) sealed = .ok x.2

/-- A record is read as its header and a content of the type in it. -/
theorem unmarshal_record {r : RecordLayer} {out tail : Bytes}
    (hread : RecordLayer.unmarshal.run out = .ok (r, tail)) :
    ∃ mid, RecordLayerHeader.unmarshal.run out = .ok (r.recordLayerHeader, mid)
      ∧ (Content.unmarshal r.recordLayerHeader.contentType).run mid = .ok (r.content, tail)
      ∧ r.recordLayerHeader.contentType = r.content.contentType := by
  obtain ⟨header, mid, hheader, hread⟩ := run_bind_eq_ok.mp hread
  obtain ⟨content, rest, hcontent, hpure⟩ := run_bind_eq_ok.mp hread
  obtain ⟨rfl, rfl⟩ := run_pure_eq_ok.mp hpure
  refine ⟨mid, hheader, hcontent, ?_⟩
  cases htype : header.contentType with
  | alert | changeCipherSpec | handshake | applicationData =>
      rw [htype] at hcontent
      obtain ⟨_, _, -, hpure⟩ := run_bind_eq_ok.mp hcontent
      obtain ⟨rfl, -⟩ := run_pure_eq_ok.mp hpure
      rfl
  | invalid =>
      rw [htype] at hcontent
      cases hcontent

theorem authentic_of_decrypt {c : AeadSuite} {header : RecordLayerHeader}
    {body out data tail : Bytes} (hpkt : RecordLayerHeader.unmarshal.run pkt = .ok (h, body))
    (hdecrypt : c.decrypt pkt = .ok out)
    (hread : RecordLayer.unmarshal.run out = .ok (⟨header, .applicationData data⟩, tail))
    (hepoch : h.epoch ≠ 0) : Authentic c (h, data) := by
  obtain ⟨mid, hout, hcontent, htype⟩ := unmarshal_record hread
  have hvalid : header.contentType ≠ .invalid := fun hnot => by
    rw [hnot] at htype
    cases htype
  obtain ⟨-, _, _, -, -, -, hmarshal⟩ := RecordLayerHeader.of_unmarshal hout
  have hfits := (RecordLayerHeader.marshal_eq_ok.mp (hmarshal hvalid)).1
  rw [htype] at hcontent
  obtain ⟨data', rest, hdata, hpure⟩ := run_bind_eq_ok.mp hcontent
  obtain ⟨heq, rfl⟩ := run_pure_eq_ok.mp hpure
  obtain rfl := Content.applicationData.inj heq
  obtain ⟨rfl, -⟩ : mid = data' ∧ [] = rest := Prod.mk.inj (Except.ok.inj hdata)
  obtain ⟨rfl, ⟨hccs, -⟩ | ⟨-, hopen⟩⟩ := AeadSuite.unmarshal_decrypt hpkt hdecrypt hout hvalid
  · rw [hccs] at htype
    cases htype
  · exact ⟨htype, hepoch, hfits, hopen⟩

end

/-! ## What the reader keeps -/

/-- The records of a datagram. -/
def Event.records : Event → List Bytes
  | .datagram raw _ =>
      match unpackDatagram raw with
      | .error _ => []
      | .ok pkts => pkts
  | .queued _ => []

/-- What a record of a kind keeps. Only such records wait in the queue. -/
structure Stable (c : AeadSuite) (P : Bytes → Prop) (I : ConnReader d → Prop) : Prop where
  incoming : ∀ {ctx pkt} (ready enqueue : Bool), P pkt → I ctx →
    I (ctx.handleIncomingPacket c ready enqueue pkt).2
  queued : ∀ {ctx}, I ctx → ∀ pkt ∈ ctx.encryptedPackets, P pkt
  drained : ∀ {ctx}, I ctx → I { ctx with encryptedPackets := [] }
  alerts : ∀ {ctx} (alerts : List Alert), I ctx → I { ctx with alerts := alerts }
  closed : ∀ {ctx}, I ctx → I { ctx with closed := true }

section
variable {c : AeadSuite} {P : Bytes → Prop} {I : ConnReader d → Prop} {ctx ctx' : ConnReader d}

theorem Stable.packets (h : Stable c P I) (ready : Nat → Bool) (enqueue : Bool) (i : Nat)
    {pkts : List Bytes} (hpkts : ∀ pkt ∈ pkts, P pkt) (hctx : I ctx) :
    I (handlePackets c ready enqueue i pkts ctx).2 := by
  induction pkts generalizing i ctx with
  | nil => exact hctx
  | cons pkt pkts ih =>
      have hone := h.incoming (ready i) enqueue (hpkts pkt List.mem_cons_self) hctx
      unfold handlePackets
      rcases hout : ctx.handleIncomingPacket c (ready i) enqueue pkt with ⟨out, ctx₁⟩
      rw [hout] at hone
      have halert := h.alerts (ctx₁.alerts ++ out.alert.toList) hone
      have hrest := ih (i + 1) (fun q hq => hpkts q (List.mem_cons_of_mem _ hq)) halert
      dsimp only
      split
      · exact halert
      · split
        · exact halert
        · split
          · rename_i hs ctx₂ heq
            rw [heq] at hrest
            exact hrest
          · rename_i e ctx₂ heq
            rw [heq] at hrest
            exact hrest

theorem Stable.step (h : Stable c P I) {e : Event} (he : ∀ pkt ∈ e.records, P pkt) (hctx : I ctx)
    (hstep : ConnReader.step c ctx e = some ctx') : I ctx' := by
  have hafter : ∀ r : Except Error Bool × ConnReader d, I r.2 → I (after r) := by
    intro r hr
    unfold after
    split
    · exact h.closed hr
    · exact hr
  unfold ConnReader.step at hstep
  split at hstep
  · cases hstep
  · cases e with
    | datagram raw ready =>
        obtain rfl := Option.some.inj hstep
        refine hafter _ ?_
        unfold readAndBuffer
        split
        · exact hctx
        · rename_i pkts hunpack
          have hrecords : (Event.datagram raw ready).records = pkts := by
            rw [Event.records, hunpack]
          exact h.packets ready true 0 (hrecords ▸ he) hctx
    | queued ready =>
        obtain rfl := Option.some.inj hstep
        exact hafter _ (h.packets ready false 0 (h.queued hctx) (h.drained hctx))

theorem Stable.run (h : Stable c P I) {es : List Event}
    (hes : ∀ e ∈ es, ∀ pkt ∈ e.records, P pkt)
    (hrun : run (ConnReader.step c) ctx es = some ctx') (hctx : I ctx) : I ctx' :=
  run_invariant_of_mem (fun he hctx hstep => h.step (hes _ he) hctx hstep) hrun hctx

end

/-! ## What the fragment buffer gets -/

/-- A record as it comes to the fragment buffer, if it does. -/
def opened (c : AeadSuite) (pkt : Bytes) : Option Bytes :=
  match RecordLayerHeader.unmarshal.run pkt with
  | .error _ => none
  | .ok (h, _) => if h.epoch = 0 then some pkt else (c.decrypt pkt).toOption

/-- The fragment buffer and the cache are what comes of some records of a kind
once they are opened. -/
structure Fed (c : AeadSuite) (P : Bytes → Prop) (ctx : ConnReader d) : Prop where
  queued : ∀ pkt ∈ ctx.encryptedPackets, P pkt
  handed : ∃ raws : List Bytes, (∀ raw ∈ raws, ∃ pkt, P pkt ∧ opened c pkt = some raw)
    ∧ ctx.fragmentBuffer = (FragmentBuffer.new.receiveAll raws).2
    ∧ ctx.cache
      = HandshakeCache.receiveAll [] ((FragmentBuffer.new.receiveAll raws).1.map Prod.swap)

/-- The reader after the buffer was given a record. -/
structure Buffered (ctx ctx' : ConnReader d) (raw : Bytes) : Prop where
  fragmentBuffer : ctx'.fragmentBuffer = (ctx.fragmentBuffer.receive raw).2
  cache : ctx'.cache = ctx.cache.receiveAll ((ctx.fragmentBuffer.receive raw).1.map Prod.swap)
  queued : ∀ pkt ∈ ctx'.encryptedPackets, pkt ∈ ctx.encryptedPackets
    ∨ (pkt = raw ∧ ∃ header tail,
      RecordLayer.unmarshal.run raw = .ok (⟨header, .changeCipherSpec⟩, tail))

section
variable {c : AeadSuite} {P : Bytes → Prop} {ready enqueue : Bool} {h : RecordLayerHeader}
  {pkt raw : Bytes} {ctx ctx' : ConnReader d}

theorem mem_queue {q : Bytes} (hq : q ∈ (ctx.queue enqueue pkt).encryptedPackets) :
    q ∈ ctx.encryptedPackets ∨ q = pkt := by
  unfold queue at hq
  split at hq
  · exact (List.mem_append.mp hq).imp_right List.mem_singleton.mp
  · exact .inl hq

theorem buffered_handleRecord : Buffered ctx (ctx.handleRecord ready enqueue h raw).2 raw := by
  unfold handleRecord
  rcases hpush : ctx.fragmentBuffer.push raw with ⟨_ | _ | _, fb⟩
  · exact ⟨by rw [FragmentBuffer.receive, hpush], by rw [FragmentBuffer.receive, hpush]; rfl,
      fun q hq => .inl hq⟩
  · have hreceive : ctx.fragmentBuffer.receive raw = ([], fb) := by
      rw [FragmentBuffer.receive, hpush]
    have hleft : ∀ ctx' : ConnReader d, ctx'.fragmentBuffer = fb → ctx'.cache = ctx.cache →
        (∀ q ∈ ctx'.encryptedPackets, q ∈ ctx.encryptedPackets ∨ (q = raw ∧ ∃ header tail,
          RecordLayer.unmarshal.run raw = .ok (⟨header, .changeCipherSpec⟩, tail))) →
        Buffered ctx ctx' raw := fun ctx' hfb hcache hqueued =>
      ⟨by rw [hreceive, hfb], by rw [hreceive, hcache]; rfl, hqueued⟩
    dsimp only
    split
    · exact hleft _ rfl rfl fun q hq => .inl hq
    · rename_i r tail hread
      obtain ⟨header, content⟩ := r
      cases content with
      | alert a => exact hleft _ rfl rfl fun q hq => .inl hq
      | changeCipherSpec =>
          dsimp only
          split
          · refine hleft _ ?_ ?_ fun q hq => (mem_queue hq).imp_right fun heq =>
              ⟨heq, header, tail, hread⟩
            · unfold queue
              split <;> rfl
            · unfold queue
              split <;> rfl
          · split
            · exact hleft _ rfl rfl fun q hq => .inl hq
            · exact hleft _ rfl rfl fun q hq => .inl hq
      | applicationData data =>
          dsimp only
          split
          · exact hleft _ rfl rfl fun q hq => .inl hq
          · exact hleft _ rfl rfl fun q hq => .inl hq
      | handshake m => exact hleft _ rfl rfl fun q hq => .inl hq
  · have hreceive : ctx.fragmentBuffer.receive raw = fb.popAll := by
      rw [FragmentBuffer.receive, hpush]
    exact ⟨by rw [hreceive]; rfl, by rw [hreceive]; rfl, fun q hq => .inl hq⟩

theorem Fed.buffered (hfed : Fed c P ctx) (hpkt : P pkt) (hopen : opened c pkt = some raw)
    (hsame : ∀ header tail,
      RecordLayer.unmarshal.run raw = .ok (⟨header, .changeCipherSpec⟩, tail) → raw = pkt)
    (h : Buffered ctx ctx' raw) : Fed c P ctx' := by
  obtain ⟨raws, hraws, hbuffer, hcache⟩ := hfed.handed
  refine ⟨fun q hq => ?_, raws ++ [raw], ?_, ?_, ?_⟩
  · rcases h.queued q hq with hq | ⟨rfl, header, tail, hread⟩
    · exact hfed.queued q hq
    · exact hsame header tail hread ▸ hpkt
  · exact List.forall_mem_append.mpr ⟨hraws, List.forall_mem_singleton.mpr ⟨pkt, hpkt, hopen⟩⟩
  · rw [h.fragmentBuffer, FragmentBuffer.receiveAll_append, hbuffer]
    rfl
  · rw [h.cache, FragmentBuffer.receiveAll_append, hcache, hbuffer, List.map_append,
      HandshakeCache.receiveAll, HandshakeCache.receiveAll, HandshakeCache.receiveAll,
      List.foldl_append, FragmentBuffer.receiveAll, FragmentBuffer.receiveAll, List.append_nil]

theorem Fed.queue (hfed : Fed c P ctx) (hpkt : P pkt) : Fed c P (ctx.queue enqueue pkt) := by
  unfold ConnReader.queue
  split
  · have hqueued := List.forall_mem_append.mpr ⟨hfed.queued, List.forall_mem_singleton.mpr hpkt⟩
    exact ⟨hqueued, hfed.handed⟩
  · exact hfed

theorem Fed.incoming (hfed : Fed c P ctx) (hpkt : P pkt) :
    Fed c P (ctx.handleIncomingPacket c ready enqueue pkt).2 := by
  unfold ConnReader.handleIncomingPacket
  cases hread : RecordLayerHeader.unmarshal.run pkt with
  | error e => exact hfed
  | ok x =>
      obtain ⟨h, body⟩ := x
      dsimp only
      split
      · dsimp only
        split
        · exact hfed
        · exact hfed.queue hpkt
      have hchecked : Fed c P (ctx.check h).2 := ⟨hfed.queued, hfed.handed⟩
      generalize ctx.check h = checked at hchecked ⊢
      obtain ⟨ok, ctx⟩ := checked
      cases ok with
      | false => exact hchecked
      | true =>
          dsimp only at hchecked ⊢
          split
          · rename_i hepoch
            have hopen : opened c pkt = some pkt := by
              rw [opened, hread]
              exact if_pos hepoch
            exact hchecked.buffered hpkt hopen (fun _ _ _ => rfl) buffered_handleRecord
          rename_i hepoch
          split
          · exact hchecked.queue hpkt
          cases hdecrypt : c.decrypt pkt with
          | error e => exact hchecked
          | ok out =>
              have hopen : opened c pkt = some out := by
                rw [opened, hread]
                dsimp only
                rw [if_neg hepoch, hdecrypt]
                rfl
              refine hchecked.buffered hpkt hopen (fun header tail hout => ?_) buffered_handleRecord
              obtain ⟨mid, hout, -, htype⟩ := unmarshal_record hout
              obtain ⟨rfl, ⟨-, heq⟩ | ⟨hccs, -⟩⟩ := AeadSuite.unmarshal_decrypt hread hdecrypt hout
                fun hnot => by cases htype.symm.trans hnot
              · exact heq
              · exact absurd htype hccs

end

/-! ## Once and from the peer -/

/-- The number of a record. -/
def number (x : RecordLayerHeader × Bytes) : UInt16 × Nat := (x.1.epoch, x.1.sequenceNumber)

structure Trusted (c : AeadSuite) (ctx : ConnReader d) : Prop where
  refused : ∀ x ∈ ctx.decrypted, d.Refused (ctx.replayDetector x.1.epoch) x.1.sequenceNumber
  nodup : (ctx.decrypted.map number).Nodup
  authentic : ∀ x ∈ ctx.decrypted, Authentic c x

section
variable {c : AeadSuite} {ready enqueue : Bool} {h : RecordLayerHeader} {pkt : Bytes}
  {ctx ctx' : ConnReader d}

theorem trusted_new : Trusted c (.new d) where
  refused := by simp [new]
  nodup := List.nodup_nil
  authentic := by simp [new]

/-- The windows refuse what they refused before. -/
def Stricter (ctx ctx' : ConnReader d) : Prop :=
  ∀ epoch n, d.Refused (ctx.replayDetector epoch) n → d.Refused (ctx'.replayDetector epoch) n

theorem stricter_update {window : d.Window} {epoch : UInt16}
    (hwindow : ∀ n, d.Refused (ctx.replayDetector epoch) n → d.Refused window n)
    (hctx' : ctx'.replayDetector = Function.update ctx.replayDetector epoch window) :
    Stricter ctx ctx' := by
  intro other n hn
  rw [hctx', Function.update_apply]
  split
  · rename_i heq
    exact hwindow n (heq ▸ hn)
  · exact hn

theorem Trusted.stricter (hctx : Trusted c ctx) (hstricter : Stricter ctx ctx')
    (hdecrypted : ctx'.decrypted = ctx.decrypted) : Trusted c ctx' where
  refused x hx := hstricter _ _ (hctx.refused x (hdecrypted ▸ hx))
  nodup := hdecrypted ▸ hctx.nodup
  authentic := hdecrypted ▸ hctx.authentic

/-- A number that was not refused has not been used, and now it has. -/
theorem Trusted.took {out : Bytes} (hd : d.Lawful) (hctx : Trusted c ctx)
    (hnew : (ctx.check h).1 = true) (htook : Took h out (ctx.check h).2 ctx')
    (hauth : ∀ header data tail,
      RecordLayer.unmarshal.run out = .ok (⟨header, .applicationData data⟩, tail) →
        h.epoch ≠ 0 → Authentic c (h, data)) : Trusted c ctx' := by
  have hnew' : ¬ d.Refused (ctx.replayDetector h.epoch) h.sequenceNumber := by
    rw [ReplayDetector.Refused, Bool.not_eq_false]
    exact hnew
  have hcheck : Stricter ctx (ctx.check h).2 :=
    stricter_update (fun n hn => hd.check_refused _ _ n hn) rfl
  have haccept : Stricter (ctx.check h).2 ((ctx.check h).2.accept h.epoch) :=
    stricter_update (fun n hn => hd.accept_refused _ n hn) rfl
  have hself : d.Refused (((ctx.check h).2.accept h.epoch).replayDetector h.epoch)
      h.sequenceNumber := by
    have hwindow : ((ctx.check h).2.accept h.epoch).replayDetector h.epoch
        = d.accept (d.check (ctx.replayDetector h.epoch) h.sequenceNumber).2 := by
      simp [accept, check]
    rw [hwindow]
    exact hd.accept_checked _ _ hnew'
  cases htook with
  | left hwindows hdecrypted =>
      refine hctx.stricter (fun epoch n hn => ?_) hdecrypted
      rw [hwindows]
      exact hcheck epoch n hn
  | accepted hwindows hdecrypted =>
      refine hctx.stricter (fun epoch n hn => ?_) hdecrypted
      rw [hwindows]
      exact haccept epoch n (hcheck epoch n hn)
  | delivered header data tail hread hepoch hwindows hdecrypted =>
      have hold : (ctx.check h).2.decrypted = ctx.decrypted := rfl
      rw [hold] at hdecrypted
      refine ⟨fun x hx => ?_, ?_, fun x hx => ?_⟩
      · rw [hwindows]
        rw [hdecrypted] at hx
        rcases List.mem_append.mp hx with hx | hx
        · exact haccept _ _ (hcheck _ _ (hctx.refused x hx))
        · rw [List.mem_singleton.mp hx]
          exact hself
      · rw [hdecrypted, List.map_append]
        refine List.nodup_append.mpr ⟨hctx.nodup, List.pairwise_singleton _ _, ?_⟩
        intro a ha b hb heq
        obtain ⟨x, hx, rfl⟩ := List.mem_map.mp ha
        obtain ⟨hepoch', hseq⟩ := Prod.mk.inj (heq.trans (List.mem_singleton.mp hb))
        have hrefused := hctx.refused x hx
        rw [hepoch', hseq] at hrefused
        exact hnew' hrefused
      · rw [hdecrypted] at hx
        rcases List.mem_append.mp hx with hx | hx
        · exact hctx.authentic x hx
        · rw [List.mem_singleton.mp hx]
          exact hauth header data tail hread hepoch

theorem Trusted.incoming (hd : d.Lawful) (hctx : Trusted c ctx) (ready enqueue : Bool)
    (pkt : Bytes) : Trusted c (ctx.handleIncomingPacket c ready enqueue pkt).2 := by
  have hchecked : ∀ h, Trusted c (ctx.check h).2 := fun h =>
    hctx.stricter (stricter_update (fun n hn => hd.check_refused _ _ n hn) rfl) rfl
  have hqueue : ∀ {ctx : ConnReader d}, Trusted c ctx → Trusted c (ctx.queue enqueue pkt) := by
    intro ctx hctx
    obtain ⟨hwindows, hdecrypted⟩ := queue_keeps ctx enqueue pkt
    exact hctx.stricter (fun epoch n hn => hwindows ▸ hn) hdecrypted
  unfold handleIncomingPacket
  split
  · exact hctx
  · rename_i h body hpkt
    split
    · dsimp only
      split
      · exact hctx
      · exact hqueue hctx
    · split
      · rename_i ctx' hcheck
        have hctx' : ctx' = (ctx.check h).2 := (congrArg Prod.snd hcheck).symm
        rw [hctx']
        exact hchecked h
      · rename_i ctx' hcheck
        have hnew : (ctx.check h).1 = true := congrArg Prod.fst hcheck
        have hctx' : ctx' = (ctx.check h).2 := (congrArg Prod.snd hcheck).symm
        rw [hctx']
        split
        · rename_i hzero
          exact hctx.took hd hnew took_handleRecord fun _ _ _ _ hepoch => absurd hzero hepoch
        · split
          · exact hqueue (hchecked h)
          · split
            · exact hchecked h
            · rename_i out hdecrypt
              exact hctx.took hd hnew took_handleRecord fun header data tail hread hepoch =>
                authentic_of_decrypt hpkt hdecrypt hread hepoch

theorem stable_trusted (hd : d.Lawful) (c : AeadSuite) :
    Stable c (fun _ => True) (Trusted (d := d) c) where
  incoming ready enqueue _ hctx := hctx.incoming hd ready enqueue _
  queued _ _ _ := trivial
  drained hctx := { hctx with }
  alerts _ hctx := { hctx with }
  closed hctx := { hctx with }

theorem trusted_run (hd : d.Lawful) {es : List Event}
    (hrun : run (ConnReader.step c) (.new d) es = some ctx) : Trusted c ctx :=
  (stable_trusted hd c).run (fun _ _ _ _ => trivial) hrun trusted_new

end

end ConnReader

/-! ## A window -/

structure SlidingWindow where
  latestSeq : Nat
  accepted : List Nat
  checked : Option Nat

namespace SlidingWindow

/-- A window of 64 numbers. A number is refused when it is too large, too old, or
was accepted. -/
def fresh (w : SlidingWindow) (n : Nat) : Bool :=
  n ≤ maxSequenceNumber ∧ (w.latestSeq < n ∨ (w.latestSeq < 64 + n ∧ n ∉ w.accepted))

def accept (w : SlidingWindow) : SlidingWindow :=
  match w.checked with
  | none => w
  | some n => { w with latestSeq := max w.latestSeq n, accepted := n :: w.accepted }

def detector : ReplayDetector where
  Window := SlidingWindow
  new := ⟨0, [], none⟩
  check w n := (w.fresh n, { w with checked := if w.fresh n then some n else none })
  accept := accept

theorem fresh_eq_false {w : SlidingWindow} {n : Nat} : w.fresh n = false ↔
    (n ≤ maxSequenceNumber → n ≤ w.latestSeq ∧ (64 + n ≤ w.latestSeq ∨ n ∈ w.accepted)) := by
  rw [fresh, decide_eq_false_iff_not, not_and, not_or, not_and_or, not_lt, not_lt, not_not]

theorem fresh_accept {w : SlidingWindow} {n : Nat} (h : w.fresh n = false) :
    w.accept.fresh n = false := by
  rw [fresh_eq_false] at h ⊢
  intro hn
  obtain ⟨hle, hold⟩ := h hn
  unfold accept
  split
  · exact ⟨hle, hold⟩
  · exact ⟨le_max_of_le_left hle,
      hold.imp (fun h => le_max_of_le_left h) fun h => List.mem_cons_of_mem _ h⟩

theorem fresh_checked {w : SlidingWindow} {n : Nat} (h : w.checked = some n) :
    w.accept.fresh n = false := by
  rw [fresh_eq_false, accept, h]
  exact fun _ => ⟨le_max_right _ _, .inr List.mem_cons_self⟩

theorem lawful : detector.Lawful where
  check_refused _ _ _ h := h
  accept_refused _ _ h := fresh_accept h
  accept_checked _ _ h := fresh_checked (if_pos (Bool.not_eq_false _ ▸ h))

end SlidingWindow

end Dtls

end XashProxy
