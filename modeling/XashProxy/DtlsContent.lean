import XashProxy.DtlsMessages

/-!
# Records

What a record carries and the record itself.
-/

namespace XashProxy

namespace Dtls

open Codec

inductive AlertLevel where
  | warning
  | fatal
  | invalid
deriving DecidableEq, Repr

def AlertLevel.toByte : AlertLevel → UInt8
  | .warning => 1
  | .fatal => 2
  | .invalid => 3

def AlertLevel.ofByte (b : UInt8) : AlertLevel :=
  if b = 1 then .warning else if b = 2 then .fatal else .invalid

inductive AlertDescription where
  | closeNotify
  | unexpectedMessage
  | badRecordMac
  | decryptionFailed
  | recordOverflow
  | decompressionFailure
  | handshakeFailure
  | noCertificate
  | badCertificate
  | unsupportedCertificate
  | certificateRevoked
  | certificateExpired
  | certificateUnknown
  | illegalParameter
  | unknownCa
  | accessDenied
  | decodeError
  | decryptError
  | exportRestriction
  | protocolVersion
  | insufficientSecurity
  | internalError
  | userCanceled
  | noRenegotiation
  | unsupportedExtension
  | unknownPskIdentity
  | invalid
deriving DecidableEq, Repr

def AlertDescription.toByte : AlertDescription → UInt8
  | .closeNotify => 0
  | .unexpectedMessage => 10
  | .badRecordMac => 20
  | .decryptionFailed => 21
  | .recordOverflow => 22
  | .decompressionFailure => 30
  | .handshakeFailure => 40
  | .noCertificate => 41
  | .badCertificate => 42
  | .unsupportedCertificate => 43
  | .certificateRevoked => 44
  | .certificateExpired => 45
  | .certificateUnknown => 46
  | .illegalParameter => 47
  | .unknownCa => 48
  | .accessDenied => 49
  | .decodeError => 50
  | .decryptError => 51
  | .exportRestriction => 60
  | .protocolVersion => 70
  | .insufficientSecurity => 71
  | .internalError => 80
  | .userCanceled => 90
  | .noRenegotiation => 100
  | .unsupportedExtension => 110
  | .unknownPskIdentity => 115
  | .invalid => 116

def AlertDescription.ofByte (b : UInt8) : AlertDescription :=
  if b = 0 then .closeNotify
  else if b = 10 then .unexpectedMessage
  else if b = 20 then .badRecordMac
  else if b = 21 then .decryptionFailed
  else if b = 22 then .recordOverflow
  else if b = 30 then .decompressionFailure
  else if b = 40 then .handshakeFailure
  else if b = 41 then .noCertificate
  else if b = 42 then .badCertificate
  else if b = 43 then .unsupportedCertificate
  else if b = 44 then .certificateRevoked
  else if b = 45 then .certificateExpired
  else if b = 46 then .certificateUnknown
  else if b = 47 then .illegalParameter
  else if b = 48 then .unknownCa
  else if b = 49 then .accessDenied
  else if b = 50 then .decodeError
  else if b = 51 then .decryptError
  else if b = 60 then .exportRestriction
  else if b = 70 then .protocolVersion
  else if b = 71 then .insufficientSecurity
  else if b = 80 then .internalError
  else if b = 90 then .userCanceled
  else if b = 100 then .noRenegotiation
  else if b = 110 then .unsupportedExtension
  else if b = 115 then .unknownPskIdentity
  else .invalid

@[simp] theorem AlertLevel.ofByte_toByte (l : AlertLevel) : ofByte l.toByte = l := by
  cases l <;> rfl

@[simp] theorem AlertDescription.ofByte_toByte (d : AlertDescription) : ofByte d.toByte = d := by
  cases d <;> rfl

structure Alert where
  alertLevel : AlertLevel
  alertDescription : AlertDescription
deriving DecidableEq, Repr

def Alert.marshal (a : Alert) : Bytes :=
  writeU8 a.alertLevel.toByte ++ writeU8 a.alertDescription.toByte

def Alert.unmarshal : Reader Error Alert := do
  let alertLevel ← readU8
  let alertDescription ← readU8
  return ⟨.ofByte alertLevel, .ofByte alertDescription⟩

def ChangeCipherSpec.unmarshal : Reader Error Unit := do
  let data ← readU8
  if data ≠ 1 then refuse .errInvalidCipherSpec else return ()

inductive Content where
  | changeCipherSpec
  | alert (a : Alert)
  | handshake (h : Handshake)
  | applicationData (data : Bytes)
deriving DecidableEq, Repr

def Content.contentType : Content → ContentType
  | .changeCipherSpec => .changeCipherSpec
  | .alert _ => .alert
  | .handshake _ => .handshake
  | .applicationData _ => .applicationData

def Content.size : Content → Nat
  | .changeCipherSpec => 1
  | .alert _ => 2
  | .handshake h => handshakeHeaderLength + h.handshakeMessage.size
  | .applicationData data => data.length

def Content.marshal : Content → Except Error Bytes
  | .changeCipherSpec => .ok (writeU8 1)
  | .alert a => .ok a.marshal
  | .handshake h => h.marshal
  | .applicationData data => .ok data

structure RecordLayer where
  recordLayerHeader : RecordLayerHeader
  content : Content
deriving DecidableEq, Repr

def RecordLayer.new (protocolVersion : ProtocolVersion) (epoch : UInt16) (content : Content) :
    RecordLayer where
  recordLayerHeader := {
    contentType := content.contentType
    protocolVersion := protocolVersion
    epoch := epoch
    sequenceNumber := 0
    contentLen := UInt16.ofNat content.size }
  content := content

def RecordLayer.marshal (r : RecordLayer) : Except Error Bytes := do
  let header ← r.recordLayerHeader.marshal
  let content ← r.content.marshal
  return header ++ content

theorem RecordLayer.marshal_eq_ok {r : RecordLayer} {bs : Bytes} :
    r.marshal = .ok bs ↔ ∃ header content, r.recordLayerHeader.marshal = .ok header
      ∧ r.content.marshal = .ok content ∧ bs = header ++ content := by
  unfold marshal
  cases r.recordLayerHeader.marshal with
  | error e =>
      refine iff_of_false nofun ?_
      rintro ⟨_, _, h, -⟩
      cases h
  | ok header =>
      cases r.content.marshal with
      | error e =>
          refine iff_of_false nofun ?_
          rintro ⟨_, _, -, h, -⟩
          cases h
      | ok content =>
          constructor
          · intro h
            exact ⟨header, content, rfl, rfl, (Except.ok.inj h).symm⟩
          · rintro ⟨_, _, hheader, hcontent, rfl⟩
            obtain rfl := Except.ok.inj hheader
            obtain rfl := Except.ok.inj hcontent
            rfl

/-- The reader of a content of the type in its header. -/
def Content.unmarshal : ContentType → Reader Error Content
  | .alert => do return .alert (← Alert.unmarshal)
  | .applicationData => do return .applicationData (← toEnd)
  | .changeCipherSpec => do
      ChangeCipherSpec.unmarshal
      return .changeCipherSpec
  | .handshake => do return .handshake (← Handshake.unmarshal)
  | .invalid => refuse (.other "Invalid Content Type")

def RecordLayer.unmarshal : Reader Error RecordLayer := do
  let recordLayerHeader ← RecordLayerHeader.unmarshal
  let content ← Content.unmarshal recordLayerHeader.contentType
  return ⟨recordLayerHeader, content⟩

structure Packet where
  record : RecordLayer
  shouldEncrypt : Bool
  resetLocalSequenceNumber : Bool
deriving DecidableEq, Repr

theorem Alert.reads_unmarshal (a : Alert) : Reads unmarshal a.marshal a := by
  refine (reads_readU8 _).bind ?_
  have h := (reads_readU8 a.alertDescription.toByte).map
    (f := fun d => (⟨.ofByte a.alertLevel.toByte, .ofByte d⟩ : Alert))
  rw [AlertDescription.ofByte_toByte] at h
  rw [AlertLevel.ofByte_toByte] at h ⊢
  exact h

theorem ChangeCipherSpec.reads_unmarshal : Reads unmarshal (writeU8 1) () := by
  refine (reads_readU8 1).last ?_
  rw [if_neg (by decide)]
  exact reads_pure ()

def Content.Encodable : Content → Prop
  | .handshake h => h.Encodable
  | _ => True

theorem Content.encodes {c : Content} (h : c.Encodable) :
    Encodes c.marshal c.size (unmarshal c.contentType) c := by
  cases c with
  | changeCipherSpec =>
      have hread := ChangeCipherSpec.reads_unmarshal.map (f := fun _ => Content.changeCipherSpec)
      exact ⟨_, rfl, rfl, hread.readsAll.gives⟩
  | alert a => exact ⟨_, rfl, rfl, a.reads_unmarshal.map.readsAll.gives⟩
  | handshake m => exact (Handshake.encodes h).map
  | applicationData data => exact ⟨_, rfl, rfl, (readsAll_toEnd data).map.gives⟩

/-- A record with the type of its content and a number that fits. -/
structure RecordLayer.Encodable (r : RecordLayer) : Prop where
  contentType : r.recordLayerHeader.contentType = r.content.contentType
  versioned : r.recordLayerHeader.Versioned
  sequenceNumber : r.recordLayerHeader.sequenceNumber ≤ maxSequenceNumber
  content : r.content.Encodable

/-- Every record of this implementation is read back as it was written,
handshakes with all their extensions included. -/
theorem RecordLayer.marshal_encodes {r : RecordLayer} (h : r.Encodable) :
    Encodes r.marshal (recordLayerHeaderSize + r.content.size) RecordLayer.unmarshal r := by
  obtain ⟨body, hbody, hsize, hgives⟩ := Content.encodes h.content
  obtain ⟨header, hheader⟩ : ∃ header, r.recordLayerHeader.marshal = .ok header :=
    ⟨_, RecordLayerHeader.marshal_eq_ok.mpr ⟨h.sequenceNumber, rfl⟩⟩
  refine ⟨header ++ body, ?_, ?_,
    (RecordLayerHeader.reads_unmarshal h.versioned hheader).bindGives ?_⟩
  · rw [marshal, hheader, hbody]
    rfl
  · rw [List.length_append, RecordLayerHeader.length_marshal hheader, hsize]
  · rw [h.contentType]
    exact hgives.map

/-- The first record of a client that offers one curve. -/
def offerX25519 : RecordLayer :=
  .new protocolVersion1_2 0 (.handshake (.new
    (.clientHello { emptyHello with extensions := [.supportedEllipticCurves [.x25519]] })))

theorem RecordLayer.marshal_encodes_offer :
    Encodes offerX25519.marshal (recordLayerHeaderSize + offerX25519.content.size)
      RecordLayer.unmarshal offerX25519 := by
  have hfits : ∀ e ∈ [Extension.supportedEllipticCurves [.x25519]], e.Fits := by
    intro e he
    rw [List.mem_singleton.mp he]
    exact (by decide : 2 + 2 * 1 < 2 ^ 16)
  exact marshal_encodes ⟨rfl, .inr rfl, by decide, ⟨rfl, by decide, by decide, by decide,
    ⟨⟨by decide, by decide, by decide, by decide, by decide⟩, by decide, hfits⟩⟩⟩

end Dtls

end XashProxy
