import XashProxy.DtlsContent

/-!
# The record cipher

The AEAD suites (GCM, CCM and CCM-8, which differ in their tag) encrypt the body
of a record under a nonce that is drawn. The header stays in the clear; its
fields are authenticated as additional data, and so the number of a record
cannot be changed on the way.
-/

namespace XashProxy

namespace Dtls

open Codec

/-- `generate_aead_additional_data` -/
def generateAeadAdditionalData (h : RecordLayerHeader) (payloadLen : UInt16) : Bytes :=
  writeU16 h.epoch ++ (be 6 h.sequenceNumber ++ (writeU8 h.contentType.toByte
    ++ (writeU8 h.protocolVersion.major ++ (writeU8 h.protocolVersion.minor
    ++ writeU16 payloadLen))))

def cryptoGcmTagLength : Nat := 16

abbrev WriteIv := { bs : Bytes // bs.length = 4 }

abbrev ExplicitNonce := { bs : Bytes // bs.length = 8 }

/-- A suite with its keys. `encryptInPlace` and `decryptInPlace` are those of
another crate, under the local and the remote key: they take the nonce, the
additional data and the buffer. -/
structure AeadSuite where
  isPsk : Bool
  tagLength : Nat
  localWriteIv : WriteIv
  remoteWriteIv : WriteIv
  encryptInPlace : Bytes → Bytes → Bytes → Except Error Bytes
  decryptInPlace : Bytes → Bytes → Bytes → Except Error Bytes

namespace AeadSuite

/-- The length in the header becomes that of what was encrypted. -/
def encrypt (c : AeadSuite) (nonce : ExplicitNonce) (h : RecordLayerHeader) (raw : Bytes) :
    Except Error Bytes :=
  if raw.length < recordLayerHeaderSize then .error .panic
  else do
    let payload := raw.drop recordLayerHeaderSize
    let buffer ← c.encryptInPlace (c.localWriteIv.val ++ nonce.val)
      (generateAeadAdditionalData h (UInt16.ofNat payload.length)) payload
    return raw.take (recordLayerHeaderSize - 2)
      ++ (writeU16 (UInt16.ofNat (8 + buffer.length)) ++ (nonce.val ++ buffer))

/-- A change of the cipher is not encrypted. -/
def decrypt (c : AeadSuite) (r : Bytes) : Except Error Bytes :=
  match RecordLayerHeader.unmarshal.run r with
  | .error e => .error e
  | .ok (h, body) =>
      if h.contentType = .changeCipherSpec then .ok r
      else if r.length ≤ recordLayerHeaderSize + 8 then .error .errNotEnoughRoomForNonce
      else do
        let out := body.drop 8
        let buffer ← c.decryptInPlace (c.remoteWriteIv.val ++ body.take 8)
          (generateAeadAdditionalData h (UInt16.ofInt (out.length - c.tagLength))) out
        return r.take recordLayerHeaderSize ++ buffer

end AeadSuite

theorem writeU16_inj {n m : UInt16} (h : writeU16 n = writeU16 m) : n = m :=
  UInt16.toNat_inj.mp (be_inj n.toNat_lt m.toNat_lt h)

theorem ContentType.toByte_inj {t t' : ContentType} (h : t.toByte = t'.toByte) : t = t' := by
  rw [← ofByte_toByte t, h, ofByte_toByte]

/-- What the additional data say of a record. -/
structure SameRecord (h h' : RecordLayerHeader) : Prop where
  contentType : h.contentType = h'.contentType
  protocolVersion : h.protocolVersion = h'.protocolVersion
  epoch : h.epoch = h'.epoch
  sequenceNumber : h.sequenceNumber = h'.sequenceNumber

/-- No two records have the same additional data. -/
theorem additionalData_inj {h h' : RecordLayerHeader} {n n' : UInt16}
    (hseq : h.sequenceNumber ≤ maxSequenceNumber) (hseq' : h'.sequenceNumber ≤ maxSequenceNumber)
    (heq : generateAeadAdditionalData h n = generateAeadAdditionalData h' n') :
    SameRecord h h' := by
  have hlt : ∀ {k : Nat}, k ≤ maxSequenceNumber → k < 256 ^ 6 := by
    intro k hk
    unfold maxSequenceNumber at hk
    omega
  have h16 : ∀ a b : UInt16, (writeU16 a).length = (writeU16 b).length := by simp
  obtain ⟨hepoch, heq⟩ := List.append_inj heq (h16 _ _)
  obtain ⟨hnumber, heq⟩ := List.append_inj heq (by simp)
  obtain ⟨htype, heq⟩ := List.append_inj heq (by simp)
  obtain ⟨hmajor, heq⟩ := List.append_inj heq (by simp)
  obtain ⟨hminor, -⟩ := List.append_inj heq (by simp)
  refine ⟨ContentType.toByte_inj (List.singleton_inj.mp htype), ?_, writeU16_inj hepoch,
    be_inj (hlt hseq) (hlt hseq') hnumber⟩
  have hfields : ∀ v w : ProtocolVersion, v.major = w.major → v.minor = w.minor → v = w := by
    rintro ⟨_, _⟩ ⟨_, _⟩ rfl rfl
    rfl
  exact hfields _ _ (List.singleton_inj.mp hmajor) (List.singleton_inj.mp hminor)

namespace AeadSuite

/-- What was decrypted was authentic under the header that is in the clear, or
it was no secret. -/
theorem decrypt_eq_ok {c : AeadSuite} {r out : Bytes} (h : c.decrypt r = .ok out) :
    ∃ header body, RecordLayerHeader.unmarshal.run r = .ok (header, body)
      ∧ ((header.contentType = .changeCipherSpec ∧ out = r)
        ∨ (header.contentType ≠ .changeCipherSpec ∧ ∃ nonce len sealed buffer,
          c.decryptInPlace nonce (generateAeadAdditionalData header len) sealed = .ok buffer
            ∧ out = r.take recordLayerHeaderSize ++ buffer)) := by
  unfold decrypt at h
  split at h
  · cases h
  · rename_i header body hread
    refine ⟨header, body, hread, ?_⟩
    split at h
    · rename_i htype
      exact .inl ⟨htype, (Except.ok.inj h).symm⟩
    · rename_i htype
      refine .inr ⟨htype, ?_⟩
      split at h
      · cases h
      · dsimp only at h
        generalize hopen : c.decryptInPlace _ _ _ = opened at h
        cases opened with
        | error e => cases h
        | ok buffer => exact ⟨_, _, _, buffer, hopen, (Except.ok.inj h).symm⟩

/-- What was decrypted has the header of the packet, and the rest of it was
authentic under that header. -/
theorem unmarshal_decrypt {c : AeadSuite} {r out body mid : Bytes} {h header : RecordLayerHeader}
    (hread : RecordLayerHeader.unmarshal.run r = .ok (h, body)) (hdecrypt : c.decrypt r = .ok out)
    (hout : RecordLayerHeader.unmarshal.run out = .ok (header, mid))
    (htype : header.contentType ≠ .invalid) :
    header = h ∧ ((h.contentType = .changeCipherSpec ∧ out = r)
      ∨ (h.contentType ≠ .changeCipherSpec ∧ ∃ nonce len sealed,
        c.decryptInPlace nonce (generateAeadAdditionalData h len) sealed = .ok mid)) := by
  obtain ⟨h', body', hread', hcase⟩ := decrypt_eq_ok hdecrypt
  obtain ⟨rfl, rfl⟩ := Prod.mk.inj (Except.ok.inj (hread.symm.trans hread'))
  rcases hcase with ⟨hccs, rfl⟩ | ⟨hccs, nonce, len, sealed, buffer, hopen, rfl⟩
  · exact ⟨(Prod.mk.inj (Except.ok.inj (hout.symm.trans hread))).1, .inl ⟨hccs, rfl⟩⟩
  · obtain ⟨-, t, front, -, hbytes, hfront, -⟩ := RecordLayerHeader.of_unmarshal hread
    obtain ⟨hversioned, t', front', -, hbytes', hfront', hmarshal⟩ :=
      RecordLayerHeader.of_unmarshal hout
    have hlength : (t :: front).length = recordLayerHeaderSize := by
      rw [List.length_cons, hfront]
      rfl
    rw [hbytes, List.take_left' hlength] at hbytes'
    obtain ⟨hsame, rfl⟩ := List.append_inj hbytes' (by simp [hfront, hfront'])
    have hagain := RecordLayerHeader.reads_unmarshal hversioned (hmarshal htype) body
    rw [← hsame, ← hbytes, hread] at hagain
    exact ⟨(Prod.mk.inj (Except.ok.inj hagain)).1.symm, .inr ⟨hccs, nonce, len, sealed, hopen⟩⟩

end AeadSuite

/-- The reader has the keys of the writer, and the cipher opens what it sealed. -/
structure Mirrors (reader writer : AeadSuite) : Prop where
  iv : reader.remoteWriteIv = writer.localWriteIv
  tag : 0 < reader.tagLength
  opens : ∀ nonce additionalData buffer sealed,
    writer.encryptInPlace nonce additionalData buffer = .ok sealed →
      reader.decryptInPlace nonce additionalData sealed = .ok buffer
        ∧ sealed.length = buffer.length + reader.tagLength

/-- The length is the last field of a record header. -/
theorem RecordLayerHeader.marshal_contentLen {h : RecordLayerHeader} {header : Bytes}
    (hm : h.marshal = .ok header) (n : UInt16) :
    RecordLayerHeader.marshal { h with contentLen := n }
      = .ok (header.take (recordLayerHeaderSize - 2) ++ writeU16 n) := by
  obtain ⟨hseq, rfl⟩ := marshal_eq_ok.mp hm
  refine marshal_eq_ok.mpr ⟨hseq, ?_⟩
  simp [recordLayerHeaderSize, writeU8, writeU16, be]

theorem AeadSuite.encrypt_eq_ok {c : AeadSuite} {nonce : ExplicitNonce} {h : RecordLayerHeader}
    {raw r : Bytes} (henc : c.encrypt nonce h raw = .ok r) :
    ∃ buffer, c.encryptInPlace (c.localWriteIv.val ++ nonce.val)
        (generateAeadAdditionalData h (UInt16.ofNat (raw.drop recordLayerHeaderSize).length))
        (raw.drop recordLayerHeaderSize) = .ok buffer
      ∧ r = raw.take (recordLayerHeaderSize - 2)
        ++ (writeU16 (UInt16.ofNat (8 + buffer.length)) ++ (nonce.val ++ buffer)) := by
  unfold encrypt at henc
  split at henc
  · cases henc
  · dsimp only at henc
    generalize hsealed : c.encryptInPlace _ _ _ = sealed at henc
    cases sealed with
    | error e => cases henc
    | ok buffer => exact ⟨buffer, rfl, (Except.ok.inj henc).symm⟩

/-- A record that was encrypted comes out as it was, but for the length in its
header. -/
theorem AeadSuite.decrypt_encrypt {reader writer : AeadSuite} (hmirrors : Mirrors reader writer)
    {nonce : ExplicitNonce} {h : RecordLayerHeader} {header payload r : Bytes}
    (hversioned : h.Versioned) (htype : h.contentType ≠ .changeCipherSpec)
    (hm : h.marshal = .ok header) (henc : writer.encrypt nonce h (header ++ payload) = .ok r) :
    ∃ header' body,
      RecordLayerHeader.marshal { h with contentLen := UInt16.ofNat body.length } = .ok header'
        ∧ r = header' ++ body ∧ body.length = 8 + payload.length + reader.tagLength
        ∧ reader.decrypt r = .ok (header' ++ payload) := by
  have hlength := RecordLayerHeader.length_marshal hm
  obtain ⟨buffer, hsealed, hr⟩ := encrypt_eq_ok henc
  rw [List.drop_left' hlength] at hsealed
  rw [List.take_append_of_le_length (by rw [hlength]; decide), ← List.append_assoc] at hr
  obtain ⟨hopen, htag⟩ := hmirrors.opens _ _ _ _ hsealed
  have hnonce := nonce.property
  have hbody : (nonce.val ++ buffer).length = 8 + buffer.length := by
    rw [List.length_append, hnonce]
  have hmarshal := RecordLayerHeader.marshal_contentLen hm (UInt16.ofNat (8 + buffer.length))
  have hheader := RecordLayerHeader.length_marshal hmarshal
  refine ⟨_, nonce.val ++ buffer, hbody.symm ▸ hmarshal, hr, by omega, ?_⟩
  have hversioned' : RecordLayerHeader.Versioned
      { h with contentLen := UInt16.ofNat (8 + buffer.length) } := hversioned
  have hread := RecordLayerHeader.reads_unmarshal hversioned' hmarshal (nonce.val ++ buffer)
  have hlong : ¬ r.length ≤ recordLayerHeaderSize + 8 := by
    have hpos := hmirrors.tag
    rw [hr, List.length_append, hheader, hbody]
    omega
  have hlen : UInt16.ofInt (buffer.length - reader.tagLength : Int)
      = UInt16.ofNat payload.length := by
    rw [htag, Int.natCast_add, Int.add_sub_cancel]
    apply UInt16.toNat_inj.mp
    rw [UInt16.ofInt, UInt16.toNat_ofNat', UInt16.toNat_ofNat']
    omega
  have hsame : generateAeadAdditionalData
      { h with contentLen := UInt16.ofNat (8 + buffer.length) } (UInt16.ofNat payload.length)
      = generateAeadAdditionalData h (UInt16.ofNat payload.length) := rfl
  rw [← hr] at hread
  rw [decrypt, hread]
  dsimp only
  rw [if_neg htype, if_neg hlong, List.take_left' hnonce, List.drop_left' hnonce, hlen,
    hmirrors.iv, hsame, hopen, hr, List.take_left' hheader]
  rfl

end Dtls

end XashProxy
