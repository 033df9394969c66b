import Mathlib.Data.List.Nodup
import Mathlib.Data.List.Perm.Subperm
import XashProxy.DtlsWriter
import XashProxy.DtlsReader

/-!
# Application data from end to end

A writing task on one side, a reading task on the other, and a network that may
do anything to the datagrams. The cipher is taken to be what it promises: it
opens nothing that the writer has not sealed. Then the data that comes out is
data that was put in, each piece at most once.
-/

namespace XashProxy

namespace Dtls

open Codec Programs Lts

/-- The writer has sealed the buffer under the nonce, with the additional data. -/
def ConnWriter.Sealed (env : Env) (w : ConnWriter) (nonce additionalData buffer : Bytes) : Prop :=
  ∃ o ∈ w.made, o.shouldEncrypt = true
    ∧ ∃ c explicit, env o.header.epoch o.header.sequenceNumber = (.ready c, explicit)
      ∧ nonce = c.localWriteIv.val ++ explicit.val
      ∧ additionalData = generateAeadAdditionalData o.header
        (UInt16.ofNat (o.plain.drop recordLayerHeaderSize).length)
      ∧ buffer = o.plain.drop recordLayerHeaderSize

/-- The data of the application records, each with the number of its record. -/
def ConnWriter.numbered (w : ConnWriter) : List ((UInt16 × Nat) × Bytes) :=
  w.made.filterMap fun o =>
    o.data?.map fun data => ((o.header.epoch, o.header.sequenceNumber), data)

theorem ConnWriter.map_numbered (w : ConnWriter) : w.numbered.map Prod.snd = w.written := by
  unfold numbered written
  rw [List.map_filterMap]
  refine List.filterMap_congr fun o _ => ?_
  rw [Option.map_map]
  exact Option.map_id'

section
variable {d : ReplayDetector} {env : Env} {mtu : Nat} {isClient : Bool} {c : AeadSuite}
  {w : ConnWriter} {ctx : ConnReader d} {ws : List (List Packet × Option (Nat × Error))}
  {rs : List ConnReader.Event}

/-- Data that is authentic stands in the writer's log under its number. -/
theorem mem_numbered (hwriter : run (ConnWriter.step env mtu isClient) .new ws = some w)
    (hauth : ∀ nonce additionalData sealed buffer,
      c.decryptInPlace nonce additionalData sealed = .ok buffer →
        w.Sealed env nonce additionalData buffer)
    {x : RecordLayerHeader × Bytes} (hx : ConnReader.Authentic c x) :
    (ConnReader.number x, x.2) ∈ w.numbered := by
  obtain ⟨nonce, len, sealed, hopen⟩ := hx.opened
  obtain ⟨o, ho, -, c', explicit, -, -, hadditional, hbuffer⟩ := hauth _ _ _ _ hopen
  have hfits := (ConnWriter.numbers_increasing hwriter).1 o ho
  have hsame := additionalData_inj hx.sequenceNumber hfits hadditional
  have hdata : o.data? = some x.2 := by
    rw [Outgoing.data?, if_pos (hsame.contentType.symm.trans hx.contentType), hbuffer]
  refine List.mem_filterMap.mpr ⟨o, ho, ?_⟩
  rw [hdata, Option.map_some, ConnReader.number, hsame.epoch, hsame.sequenceNumber]

/-- Whatever the network does, the application gets data that the other side's
application has written, and each piece at most once. -/
theorem delivered_subperm (hd : d.Lawful)
    (hwriter : run (ConnWriter.step env mtu isClient) .new ws = some w)
    (htyped : ∀ e ∈ ws, ∀ p ∈ e.1, p.Typed)
    (hreader : run (ConnReader.step c) (.new d) rs = some ctx)
    (hauth : ∀ nonce additionalData sealed buffer,
      c.decryptInPlace nonce additionalData sealed = .ok buffer →
        w.Sealed env nonce additionalData buffer) :
    (ctx.decrypted.map Prod.snd).Subperm (ws.flatMap fun e => e.1.filterMap Packet.data?) := by
  have htrusted := ConnReader.trusted_run hd hreader
  have hnodup : (ctx.decrypted.map fun x => (ConnReader.number x, x.2)).Nodup := by
    have hnumbers := htrusted.nodup
    have hfst : ctx.decrypted.map ConnReader.number
        = (ctx.decrypted.map fun x => (ConnReader.number x, x.2)).map Prod.fst := by
      rw [List.map_map]
      rfl
    rw [hfst] at hnumbers
    exact List.Nodup.of_map _ hnumbers
  have hsubset : (ctx.decrypted.map fun x => (ConnReader.number x, x.2)) ⊆ w.numbered := by
    intro y hy
    obtain ⟨x, hx, rfl⟩ := List.mem_map.mp hy
    exact mem_numbered hwriter hauth (htrusted.authentic x hx)
  obtain ⟨ys, hperm, hsub⟩ := hnodup.subperm hsubset
  have hdata := hperm.map Prod.snd
  have hmade := hsub.map Prod.snd
  rw [List.map_map] at hdata
  rw [w.map_numbered] at hmade
  exact ⟨ys.map Prod.snd, hdata, hmade.trans (ConnWriter.written_sublist hwriter htyped)⟩

end

/-! ## A network that loses nothing -/

/-- A number above all that were accepted is new. `next` is the first of them. -/
structure ReplayDetector.Admits (d : ReplayDetector) (next : d.Window → Nat) : Prop where
  new : next d.new = 0
  admits : ∀ w n, next w ≤ n → n ≤ maxSequenceNumber → ¬ d.Refused w n
  accepted : ∀ w n, next w ≤ n → next (d.accept (d.check w n).2) ≤ n + 1

namespace SlidingWindow

/-- The first number above all that were accepted. -/
def next (w : SlidingWindow) : Nat :=
  if w.accepted = [] ∧ w.latestSeq = 0 then 0 else w.latestSeq + 1

theorem admits : detector.Admits next where
  new := rfl
  admits w n hnext hn := by
    rw [ReplayDetector.Refused, Bool.not_eq_false]
    refine decide_eq_true ⟨hn, ?_⟩
    unfold next at hnext
    split at hnext
    · rename_i hnew
      refine .inr ⟨?_, ?_⟩
      · rw [hnew.2]
        omega
      · rw [hnew.1]
        exact List.not_mem_nil
    · exact .inl hnext
  accepted w n hnext := by
    have hle : w.latestSeq ≤ n := by
      unfold next at hnext
      split at hnext
      · rename_i hnew
        omega
      · omega
    have haccept : detector.accept (detector.check w n).2 = accept
        { w with checked := if w.fresh n then some n else none } := rfl
    rw [haccept, accept]
    split
    · exact Nat.le_succ_of_le hnext
    · rename_i m hm
      obtain ⟨-, heq⟩ := Option.ite_none_right_eq_some.mp hm
      obtain rfl := Option.some.inj heq
      have hmax : max w.latestSeq n = n := max_eq_right hle
      simp [next, hmax]

end SlidingWindow

/-- Datagrams are received into a buffer of this size. -/
def inboundBufferSize : Nat := 8192

section
variable {d : ReplayDetector} {env : Env} {mtu : Nat} {isClient : Bool} {c writer : AeadSuite}
  {w w' : ConnWriter} {ctx : ConnReader d} {epoch : UInt16}

/-- The header of an application record under the next number. -/
def dataHeader (w : ConnWriter) (epoch : UInt16) (data : Bytes) : RecordLayerHeader :=
  { (applicationPacket epoch data).record.recordLayerHeader with
    sequenceNumber := w.localSequenceNumber epoch }

theorem write_step (mtu : Nat) (isClient : Bool) {nonce : ExplicitNonce} {data header raw : Bytes}
    (henv : env epoch (w.localSequenceNumber epoch) = (.ready writer, nonce))
    (hm : (dataHeader w epoch data).marshal = .ok header)
    (henc : writer.encrypt nonce (dataHeader w epoch data) (header ++ data) = .ok raw) :
    ∃ w', ConnWriter.step env mtu isClient w ([applicationPacket epoch data], none) = some w'
      ∧ w'.sent = w.sent ++ [raw]
      ∧ w'.localSequenceNumber = (w.bump epoch).localSequenceNumber := by
  have hfits := (RecordLayerHeader.marshal_eq_ok.mp hm).1
  have hplain : RecordLayer.marshal ⟨dataHeader w epoch data, .applicationData data⟩
      = .ok (header ++ data) := RecordLayer.marshal_eq_ok.mpr ⟨header, data, hm, rfl, rfl⟩
  have hraw : ConnWriter.encryptRecord env true (dataHeader w epoch data) (header ++ data)
      = .ok raw := by
    have henv' : env (dataHeader w epoch data).epoch (dataHeader w epoch data).sequenceNumber
        = (.ready writer, nonce) := henv
    rw [ConnWriter.encryptRecord, if_pos rfl, henv']
    exact henc
  have hmake : exec (ConnWriter.processPacket env (applicationPacket epoch data)) w
      = (.ok raw, { w.bump epoch with
        made := w.made ++ [⟨dataHeader w epoch data, header ++ data, true, raw⟩] }) :=
    ConnWriter.exec_makeRecord_ok hfits hplain hraw
  have hone : ConnWriter.rawPacketsOf env mtu isClient (applicationPacket epoch data)
      = do let raw ← ConnWriter.processPacket env (applicationPacket epoch data)
           return [raw] := rfl
  have hrun : exec (ConnWriter.handleOutgoingPackets env mtu isClient none
      [applicationPacket epoch data]) w = (.ok (), { w.bump epoch with
        made := w.made ++ [⟨dataHeader w epoch data, header ++ data, true, raw⟩]
        sent := w.sent ++ [raw] }) := by
    rw [ConnWriter.handleOutgoingPackets, exec_bind, ConnWriter.rawPackets, exec_bind, hone,
      exec_bind, hmake]
    rfl
  refine ⟨_, rfl, ?_, ?_⟩
  · rw [hrun]
  · rw [hrun]

/-- The reader after data under a header. -/
def deliver (ctx : ConnReader d) (h : RecordLayerHeader) (data : Bytes) : ConnReader d :=
  { (ctx.check h).2.accept h.epoch with decrypted := ctx.decrypted ++ [(h, data)] }

theorem read_step {h : RecordLayerHeader} {header body data : Bytes}
    (hopen : ctx.closed = false) (hm : h.marshal = .ok header) (hversioned : h.Versioned)
    (htype : h.contentType = .applicationData) (hlen : h.contentLen.toNat = body.length)
    (hne : body ≠ []) (hepoch : h.epoch ≠ 0) (hremote : h.epoch ≤ ctx.remoteEpoch)
    (hnew : ¬ d.Refused (ctx.replayDetector h.epoch) h.sequenceNumber)
    (hdecrypt : c.decrypt (header ++ body) = .ok (header ++ data))
    (hroom : ctx.fragmentBuffer.size + (header ++ data).length
      < FragmentBuffer.fragmentBufferMaxSize) :
    ConnReader.step c ctx (.datagram (header ++ body) fun _ => true)
      = some (deliver ctx h data) := by
  have hunpack : unpackDatagram (header ++ body) = .ok [header ++ body] := by
    have hrecord := isRecord_of_marshal hm hlen hne
    have happend : unpackDatagram (header ++ body ++ [])
        = (unpackDatagram []).map ((header ++ body) :: ·) :=
      unpackDatagram_append hrecord.2 (by rw [List.append_nil]; exact hrecord.1)
    rw [List.append_nil, unpackDatagram_nil] at happend
    exact happend
  have hread : ∀ tail, RecordLayerHeader.unmarshal.run (header ++ tail) = .ok (h, tail) :=
    RecordLayerHeader.reads_unmarshal hversioned hm
  have hcheck : ctx.check h = (true, (ctx.check h).2) := by
    have htrue : (ctx.check h).1 = true := by
      rwa [ReplayDetector.Refused, Bool.not_eq_false] at hnew
    rw [← htrue]
  have hpush : ctx.fragmentBuffer.push (header ++ data) = (.ok false, ctx.fragmentBuffer) := by
    rw [FragmentBuffer.push, if_neg (Nat.not_le.mpr hroom), hread data]
    dsimp only
    rw [if_pos (by simp [htype])]
  have hrecord : RecordLayer.unmarshal.run (header ++ data)
      = .ok (⟨h, .applicationData data⟩, []) := by
    refine run_bind_eq_ok.mpr ⟨h, data, hread data, ?_⟩
    rw [htype]
    rfl
  have hincoming : ctx.handleIncomingPacket c true true (header ++ body)
      = (.discard, deliver ctx h data) := by
    rw [ConnReader.handleIncomingPacket, hread body]
    dsimp only
    rw [if_neg (UInt16.not_lt.mpr hremote), hcheck]
    dsimp only
    rw [if_neg hepoch, if_neg (by simp), hdecrypt]
    dsimp only
    rw [ConnReader.handleRecord]
    have hsame : (ctx.check h).2.fragmentBuffer = ctx.fragmentBuffer := rfl
    rw [hsame, hpush]
    dsimp only
    rw [hrecord]
    dsimp only
    rw [if_neg hepoch]
    rfl
  rw [ConnReader.step, if_neg (by simp [hopen]), ConnReader.readAndBuffer, hunpack]
  dsimp only
  rw [ConnReader.handlePackets, hincoming]
  simp [Outcome.discard, ConnReader.handlePackets, ConnReader.after, deliver]

theorem encrypt_total {nonce : ExplicitNonce} {h : RecordLayerHeader} {header : Bytes}
    (hseals : ∀ nonce additionalData buffer, ∃ sealed,
      writer.encryptInPlace nonce additionalData buffer = .ok sealed)
    (hm : h.marshal = .ok header) (data : Bytes) :
    ∃ raw, writer.encrypt nonce h (header ++ data) = .ok raw := by
  obtain ⟨sealed, hsealed⟩ := hseals (writer.localWriteIv.val ++ nonce.val)
    (generateAeadAdditionalData h
      (UInt16.ofNat ((header ++ data).drop recordLayerHeaderSize).length))
    ((header ++ data).drop recordLayerHeaderSize)
  have hlong : ¬ (header ++ data).length < recordLayerHeaderSize := by
    rw [List.length_append, RecordLayerHeader.length_marshal hm]
    omega
  rw [AeadSuite.encrypt, if_neg hlong]
  dsimp only
  rw [hsealed]
  exact ⟨_, rfl⟩

/-- Two sides that share their keys, and a network that delivers each datagram
once and in order: the application gets what was written. -/
theorem delivered_lossless {next : d.Window → Nat} (hd : d.Admits next)
    (hmirrors : Mirrors c writer)
    (hseals : ∀ nonce additionalData buffer, ∃ sealed,
      writer.encryptInPlace nonce additionalData buffer = .ok sealed)
    (henv : ∀ n, ∃ nonce, env epoch n = (.ready writer, nonce)) (hepoch : epoch ≠ 0)
    (hopen : ctx.closed = false) (hremote : epoch ≤ ctx.remoteEpoch)
    (hnext : next (ctx.replayDetector epoch) ≤ w.localSequenceNumber epoch)
    (hroom : ctx.fragmentBuffer.size + inboundBufferSize ≤ FragmentBuffer.fragmentBufferMaxSize)
    {msgs : List Bytes} (hseq : w.localSequenceNumber epoch + msgs.length ≤ maxSequenceNumber + 1)
    (hfits : ∀ m ∈ msgs,
      recordLayerHeaderSize + (8 + m.length + c.tagLength) ≤ inboundBufferSize) :
    ∃ w' raws, run (ConnWriter.step env mtu isClient) w
        (msgs.map fun m => ([applicationPacket epoch m], none)) = some w'
      ∧ w'.sent = w.sent ++ raws
      ∧ ∃ ctx', run (ConnReader.step c) ctx
          (raws.map fun raw => .datagram raw fun _ => true) = some ctx'
        ∧ ctx'.decrypted.map Prod.snd = ctx.decrypted.map Prod.snd ++ msgs := by
  induction msgs generalizing w ctx with
  | nil => exact ⟨w, [], rfl, (List.append_nil _).symm, ctx, rfl, (List.append_nil _).symm⟩
  | cons m msgs ih =>
      rw [List.length_cons] at hseq
      have hm := hfits m List.mem_cons_self
      obtain ⟨nonce, hnonce⟩ := henv (w.localSequenceNumber epoch)
      obtain ⟨header, hheader⟩ : ∃ header, (dataHeader w epoch m).marshal = .ok header :=
        ⟨_, RecordLayerHeader.marshal_eq_ok.mpr ⟨by
          dsimp only [dataHeader]
          omega, rfl⟩⟩
      obtain ⟨raw, henc⟩ : ∃ raw, writer.encrypt nonce (dataHeader w epoch m) (header ++ m)
          = .ok raw := encrypt_total hseals hheader m
      obtain ⟨w₁, hwrite, hsent, hlsn⟩ := write_step mtu isClient hnonce hheader henc
      have hversioned : (dataHeader w epoch m).Versioned := .inr rfl
      obtain ⟨header', body, hm', rfl, hbody, hdecrypt⟩ :=
        AeadSuite.decrypt_encrypt hmirrors hversioned (by simp [dataHeader, applicationPacket,
          RecordLayer.new, Content.contentType]) hheader henc
      have hlt : body.length < 2 ^ 16 := by
        unfold inboundBufferSize at hm
        omega
      have hread := read_step hopen hm' hversioned rfl
        (toNat_ofNat_of_lt hlt) (by
          rintro rfl
          simp at hbody
          omega) hepoch hremote (hd.admits _ _ hnext (by
            dsimp only [dataHeader]
            omega)) hdecrypt (by
          rw [List.length_append, RecordLayerHeader.length_marshal hm']
          omega)
      have hlsn' : w₁.localSequenceNumber epoch = w.localSequenceNumber epoch + 1 := by
        rw [hlsn, ConnWriter.bump_self]
      have hnext' : next ((deliver ctx { dataHeader w epoch m with
          contentLen := UInt16.ofNat body.length } m).replayDetector epoch)
          ≤ w₁.localSequenceNumber epoch := by
        have haccepted := hd.accepted _ _ hnext
        rw [hlsn']
        simpa [deliver, ConnReader.accept, ConnReader.check, dataHeader, applicationPacket,
          RecordLayer.new] using haccepted
      have hopen' : (deliver ctx { dataHeader w epoch m with
          contentLen := UInt16.ofNat body.length } m).closed = false := hopen
      obtain ⟨w', raws, hwrites, hsents, ctx', hreads, hdata⟩ := ih hopen' hremote hnext' hroom
        (by omega) fun q hq => hfits q (List.mem_cons_of_mem _ hq)
      refine ⟨w', (header' ++ body) :: raws, run_cons_eq_some.mpr ⟨w₁, hwrite, hwrites⟩, ?_, ctx',
        run_cons_eq_some.mpr ⟨_, hread, hreads⟩, ?_⟩
      · rw [hsents, hsent, List.append_assoc, List.singleton_append]
      · rw [hdata]
        simp [deliver]

end

/-! ## A transfer -/

namespace SampleTransfer

open ConnWriter.SampleTransfer

/-- What the writer made of a record. -/
def Opens (nonce additionalData sealed : Bytes) (o : Outgoing) : Prop :=
  o.shouldEncrypt = true ∧ nonce = suite.localWriteIv.val ++ List.replicate 8 0
    ∧ additionalData = generateAeadAdditionalData o.header
      (UInt16.ofNat (o.plain.drop recordLayerHeaderSize).length)
    ∧ sealed = o.plain.drop recordLayerHeaderSize ++ List.replicate 16 0

instance (nonce additionalData sealed : Bytes) (o : Outgoing) :
    Decidable (Opens nonce additionalData sealed o) := inferInstanceAs (Decidable (_ ∧ _))

/-- It opens what the writer has sealed. -/
def reader : AeadSuite where
  isPsk := false
  tagLength := cryptoGcmTagLength
  localWriteIv := suite.remoteWriteIv
  remoteWriteIv := suite.localWriteIv
  encryptInPlace := suite.encryptInPlace
  decryptInPlace nonce additionalData sealed :=
    match writer.made.find? fun o => Opens nonce additionalData sealed o with
    | some o => .ok (o.plain.drop recordLayerHeaderSize)
    | none => .error (.other "aead::Error")

theorem reader_opens {nonce additionalData sealed buffer : Bytes}
    (h : reader.decryptInPlace nonce additionalData sealed = .ok buffer) :
    writer.Sealed env nonce additionalData buffer := by
  dsimp only [reader] at h
  split at h
  · rename_i o ho
    have hfound := List.find?_some ho
    obtain ⟨hencrypt, hnonce, hadditional, -⟩ := of_decide_eq_true hfound
    exact ⟨o, List.mem_of_find?_eq_some ho, hencrypt, suite, _, rfl, hnonce, hadditional,
      (Except.ok.inj h).symm⟩
  · cases h

/-- The second record comes first, one with a number that was changed comes
between, and both come again. -/
def datagrams : List Bytes :=
  [changeCipherSpec 0] ++ writer.sent.reverse ++ writer.sent.map (fun raw => raw.set 10 9)
    ++ writer.sent

def events : List ConnReader.Event := datagrams.map fun raw => .datagram raw fun _ => true

end SampleTransfer

theorem delivered_subperm_replayed :
    ∃ ctx : ConnReader SlidingWindow.detector,
      run (ConnReader.step SampleTransfer.reader) (.new _) SampleTransfer.events = some ctx
        ∧ ctx.decrypted.map Prod.snd = [[3], [1, 2]]
        ∧ (ctx.decrypted.map Prod.snd).Subperm [[1, 2], [7], [3]] := by
  have hany : (run (ConnReader.step SampleTransfer.reader) (.new SlidingWindow.detector)
      SampleTransfer.events).any (fun ctx => ctx.decrypted.map Prod.snd = [[3], [1, 2]])
        = true := by decide +kernel
  obtain ⟨ctx, hrun, hdata⟩ := (Option.any_eq_true _ _).mp hany
  exact ⟨ctx, hrun, of_decide_eq_true hdata, delivered_subperm SlidingWindow.lawful
    ConnWriter.SampleTransfer.run_writer ConnWriter.SampleTransfer.requests_typed hrun
    fun _ _ _ _ => SampleTransfer.reader_opens⟩

/-- A reader that has the keys. -/
def SampleTransfer.ctx : ConnReader SlidingWindow.detector :=
  { ConnReader.new SlidingWindow.detector with remoteEpoch := 1 }

theorem delivered_lossless_two :
    ∃ w' raws, run (ConnWriter.step ConnWriter.SampleTransfer.env 1200 true) .new
        ([[1, 2], [3]].map fun m => ([applicationPacket 1 m], none)) = some w'
      ∧ w'.sent = ConnWriter.new.sent ++ raws
      ∧ ∃ ctx', run (ConnReader.step ConnWriter.SampleTransfer.suite) SampleTransfer.ctx
          (raws.map fun raw => .datagram raw fun _ => true) = some ctx'
        ∧ ctx'.decrypted.map Prod.snd
          = SampleTransfer.ctx.decrypted.map Prod.snd ++ [[1, 2], [3]] := by
  have hopen : SampleTransfer.ctx.closed = false := rfl
  have hnext : SlidingWindow.next (SampleTransfer.ctx.replayDetector 1)
      ≤ ConnWriter.new.localSequenceNumber 1 := Nat.le_refl 0
  exact delivered_lossless SlidingWindow.admits ConnWriter.SampleTransfer.mirrors
    (fun _ _ _ => ⟨_, rfl⟩) (fun _ => ⟨_, rfl⟩) (by decide) hopen (by decide) hnext (by decide)
    (by decide) (by decide)

end Dtls

end XashProxy
