import XashProxy.Codec

/-!
# The DTLS record layer

The framing of the vendored `webrtc-dtls`: the headers of records and of
handshake messages, the packing of records into datagrams by
`compact_raw_packets`, and `unpack_datagram` on the other side.

A slice index out of range and a `write_u24` of a number that needs more than
24 bits stop the thread; both are the error `panic` here.
-/

namespace XashProxy

namespace Dtls

open Codec

inductive Error where
  | io
  | utf8
  | errAlertFatalOrClose
  | errApplicationDataEpochZero
  | errBufferTooSmall
  | errCertificateVerifyNoCertificate
  | errCipherSuiteNoIntersection
  | errClientCertificateNotVerified
  | errClientCertificateRequired
  | errCookieMismatch
  | errCookieTooLong
  | errEmptyFragment
  | errFragmentBufferOverflow (newSize maxSize : Nat)
  | errInvalidCertificate
  | errInvalidCipherSpec
  | errInvalidClientKeyExchange
  | errInvalidExtensionType
  | errInvalidNamedCurve
  | errInvalidPacketLength
  | errInvalidSniFormat
  | errNoAvailableSignatureSchemes
  | errNoCertificates
  | errNoSupportedEllipticCurves
  | errNotEnoughRoomForNonce
  | errNotImplemented
  | errSequenceNumberOverflow
  | errServerNoMatchingSrtpProfile
  | errServerRequiredButNoClientEms
  | errUnhandledContextType
  | errUnsupportedProtocolVersion
  | other (text : String)
  | panic
deriving DecidableEq, Repr

/-! ## Fields -/

def readU8 : Reader Error UInt8 := do
  let n ← uint .io 1
  return UInt8.ofNat n

def readU16 : Reader Error UInt16 := do
  let n ← uint .io 2
  return UInt16.ofNat n

/-- `read_u24`; the code keeps the number in a `u32`. -/
def readU24 : Reader Error Nat := uint .io 3

def writeU8 (b : UInt8) : Bytes := [b]

def writeU16 (n : UInt16) : Bytes := be 2 n.toNat

def writeU24 (n : Nat) : Except Error Bytes :=
  if n < 2 ^ 24 then .ok (be 3 n) else .error .panic

theorem writeU8_eq (b : UInt8) : writeU8 b = be 1 b.toNat := by
  simp [writeU8, be]

theorem reads_readU8 (b : UInt8) : Reads readU8 (writeU8 b) b := by
  have h := (reads_uint Error.io (w := 1) (n := b.toNat) b.toNat_lt).map (f := UInt8.ofNat)
  rw [UInt8.ofNat_toNat] at h
  rw [writeU8_eq]
  exact h

theorem reads_readU16 (n : UInt16) : Reads readU16 (writeU16 n) n := by
  have h := (reads_uint Error.io (w := 2) (n := n.toNat) n.toNat_lt).map (f := UInt16.ofNat)
  rw [UInt16.ofNat_toNat] at h
  exact h

theorem reads_readU24 {n : Nat} (h : n < 2 ^ 24) : Reads readU24 (be 3 n) n :=
  reads_uint Error.io h

theorem run_readU8_eq_ok {bs tail : Bytes} {b : UInt8} :
    readU8.run bs = .ok (b, tail) ↔ bs = b :: tail := by
  constructor
  · intro h
    obtain ⟨n, mid, hn, hpure⟩ := run_bind_eq_ok.mp h
    obtain ⟨hlt, rfl⟩ := run_uint_eq_ok.mp hn
    obtain ⟨rfl, rfl⟩ := run_pure_eq_ok.mp hpure
    simp [be]
  · rintro rfl
    exact reads_readU8 b tail

theorem run_readU16_eq_ok {bs tail : Bytes} {n : UInt16} :
    readU16.run bs = .ok (n, tail) ↔ bs = writeU16 n ++ tail := by
  constructor
  · intro h
    obtain ⟨m, mid, hm, hpure⟩ := run_bind_eq_ok.mp h
    obtain ⟨hlt, rfl⟩ := run_uint_eq_ok.mp hm
    obtain ⟨rfl, rfl⟩ := run_pure_eq_ok.mp hpure
    have hlt16 : m < 2 ^ 16 := hlt
    rw [writeU16, UInt16.toNat_ofNat', Nat.mod_eq_of_lt hlt16]
  · rintro rfl
    exact reads_readU16 n tail

/-! ## Headers -/

inductive ContentType where
  | changeCipherSpec
  | alert
  | handshake
  | applicationData
  | invalid
deriving DecidableEq, Repr

def ContentType.toByte : ContentType → UInt8
  | .changeCipherSpec => 20
  | .alert => 21
  | .handshake => 22
  | .applicationData => 23
  | .invalid => 24

def ContentType.ofByte (b : UInt8) : ContentType :=
  if b = 20 then .changeCipherSpec
  else if b = 21 then .alert
  else if b = 22 then .handshake
  else if b = 23 then .applicationData
  else .invalid

structure ProtocolVersion where
  major : UInt8
  minor : UInt8
deriving DecidableEq, Repr

def protocolVersion1_0 : ProtocolVersion := ⟨0xfe, 0xff⟩

def protocolVersion1_2 : ProtocolVersion := ⟨0xfe, 0xfd⟩

def recordLayerHeaderSize : Nat := 13

def maxSequenceNumber : Nat := 0x0000FFFFFFFFFFFF

structure RecordLayerHeader where
  contentType : ContentType
  protocolVersion : ProtocolVersion
  epoch : UInt16
  /-- `uint48` in the specification -/
  sequenceNumber : Nat
  contentLen : UInt16
deriving DecidableEq, Repr

def RecordLayerHeader.marshal (h : RecordLayerHeader) : Except Error Bytes :=
  if h.sequenceNumber > maxSequenceNumber then .error .errSequenceNumberOverflow
  else .ok (writeU8 h.contentType.toByte ++ (writeU8 h.protocolVersion.major
    ++ (writeU8 h.protocolVersion.minor ++ (writeU16 h.epoch
    ++ (be 6 h.sequenceNumber ++ writeU16 h.contentLen)))))

def RecordLayerHeader.unmarshal : Reader Error RecordLayerHeader := do
  let contentType ← readU8
  let major ← readU8
  let minor ← readU8
  let epoch ← readU16
  let sequenceNumber ← uint .io 6
  let protocolVersion : ProtocolVersion := ⟨major, minor⟩
  if protocolVersion ≠ protocolVersion1_0 ∧ protocolVersion ≠ protocolVersion1_2 then
    refuse .errUnsupportedProtocolVersion
  else do
    let contentLen ← readU16
    return ⟨.ofByte contentType, protocolVersion, epoch, sequenceNumber, contentLen⟩

inductive HandshakeType where
  | helloRequest
  | clientHello
  | serverHello
  | helloVerifyRequest
  | certificate
  | serverKeyExchange
  | certificateRequest
  | serverHelloDone
  | certificateVerify
  | clientKeyExchange
  | finished
  | invalid
deriving DecidableEq, Repr

def HandshakeType.toByte : HandshakeType → UInt8
  | .helloRequest => 0
  | .clientHello => 1
  | .serverHello => 2
  | .helloVerifyRequest => 3
  | .certificate => 11
  | .serverKeyExchange => 12
  | .certificateRequest => 13
  | .serverHelloDone => 14
  | .certificateVerify => 15
  | .clientKeyExchange => 16
  | .finished => 20
  | .invalid => 21

def HandshakeType.ofByte (b : UInt8) : HandshakeType :=
  if b = 0 then .helloRequest
  else if b = 1 then .clientHello
  else if b = 2 then .serverHello
  else if b = 3 then .helloVerifyRequest
  else if b = 11 then .certificate
  else if b = 12 then .serverKeyExchange
  else if b = 13 then .certificateRequest
  else if b = 14 then .serverHelloDone
  else if b = 15 then .certificateVerify
  else if b = 16 then .clientKeyExchange
  else if b = 20 then .finished
  else .invalid

def handshakeHeaderLength : Nat := 12

structure HandshakeHeader where
  handshakeType : HandshakeType
  /-- `uint24` in the specification, as the offset and the next length -/
  length : Nat
  messageSequence : UInt16
  fragmentOffset : Nat
  fragmentLength : Nat
deriving DecidableEq, Repr

def HandshakeHeader.marshal (h : HandshakeHeader) : Except Error Bytes := do
  let length ← writeU24 h.length
  let fragmentOffset ← writeU24 h.fragmentOffset
  let fragmentLength ← writeU24 h.fragmentLength
  return writeU8 h.handshakeType.toByte ++ (length ++ (writeU16 h.messageSequence
    ++ (fragmentOffset ++ fragmentLength)))

def HandshakeHeader.unmarshal : Reader Error HandshakeHeader := do
  let handshakeType ← readU8
  let length ← readU24
  let messageSequence ← readU16
  let fragmentOffset ← readU24
  let fragmentLength ← readU24
  return ⟨.ofByte handshakeType, length, messageSequence, fragmentOffset, fragmentLength⟩

@[simp] theorem ContentType.ofByte_toByte (t : ContentType) : ofByte t.toByte = t := by
  cases t <;> rfl

@[simp] theorem HandshakeType.ofByte_toByte (t : HandshakeType) : ofByte t.toByte = t := by
  cases t <;> rfl

/-- A type that was recognised has one byte. -/
theorem ContentType.toByte_ofByte {b : UInt8} (h : ofByte b ≠ .invalid) :
    (ofByte b).toByte = b := by
  unfold ofByte at h ⊢
  split_ifs at h ⊢ <;> simp_all [toByte]

/-- The two versions that are read. -/
def RecordLayerHeader.Versioned (h : RecordLayerHeader) : Prop :=
  h.protocolVersion = protocolVersion1_0 ∨ h.protocolVersion = protocolVersion1_2

theorem RecordLayerHeader.marshal_eq_ok {h : RecordLayerHeader} {bs : Bytes} :
    h.marshal = .ok bs ↔ h.sequenceNumber ≤ maxSequenceNumber
      ∧ bs = writeU8 h.contentType.toByte ++ (writeU8 h.protocolVersion.major
        ++ (writeU8 h.protocolVersion.minor ++ (writeU16 h.epoch
        ++ (be 6 h.sequenceNumber ++ writeU16 h.contentLen)))) := by
  unfold marshal
  split
  · simp only [reduceCtorEq, false_iff, not_and]
    omega
  · rw [Except.ok.injEq, eq_comm]
    simp only [iff_and_self]
    omega

theorem RecordLayerHeader.length_marshal {h : RecordLayerHeader} {bs : Bytes}
    (hm : h.marshal = .ok bs) : bs.length = recordLayerHeaderSize := by
  obtain ⟨-, rfl⟩ := marshal_eq_ok.mp hm
  simp [writeU8, writeU16, recordLayerHeaderSize]

theorem RecordLayerHeader.reads_unmarshal {h : RecordLayerHeader} {bs : Bytes}
    (hv : h.Versioned) (hm : h.marshal = .ok bs) : Reads unmarshal bs h := by
  obtain ⟨hseq, rfl⟩ := marshal_eq_ok.mp hm
  have hseq6 : h.sequenceNumber < 256 ^ 6 := by
    unfold maxSequenceNumber at hseq
    omega
  refine (reads_readU8 _).bind ((reads_readU8 _).bind ((reads_readU8 _).bind
    ((reads_readU16 _).bind ((reads_uint _ hseq6).bind ?_))))
  rw [if_neg (by rcases hv with hv | hv <;> simp [← hv]), ContentType.ofByte_toByte]
  exact (reads_readU16 h.contentLen).map (f := fun n => (⟨h.contentType,
    ⟨h.protocolVersion.major, h.protocolVersion.minor⟩, h.epoch, h.sequenceNumber, n⟩ :
      RecordLayerHeader))

/-- What is read as a record header is one, byte for byte, unless its type is
not known. -/
theorem RecordLayerHeader.of_unmarshal {h : RecordLayerHeader} {bs tail : Bytes}
    (hr : unmarshal.run bs = .ok (h, tail)) :
    h.Versioned ∧ ∃ t front, .ofByte t = h.contentType ∧ bs = t :: front ++ tail
      ∧ front.length = 12
      ∧ (h.contentType ≠ .invalid → h.marshal = .ok (t :: front)) := by
  obtain ⟨t, bs₁, h₁, hr⟩ := run_bind_eq_ok.mp hr
  obtain ⟨major, bs₂, h₂, hr⟩ := run_bind_eq_ok.mp hr
  obtain ⟨minor, bs₃, h₃, hr⟩ := run_bind_eq_ok.mp hr
  obtain ⟨epoch, bs₄, h₄, hr⟩ := run_bind_eq_ok.mp hr
  obtain ⟨seq, bs₅, h₅, hr⟩ := run_bind_eq_ok.mp hr
  dsimp only at hr
  split at hr
  · cases hr
  · rename_i hv
    obtain ⟨len, bs₆, h₆, hr⟩ := run_bind_eq_ok.mp hr
    obtain ⟨rfl, rfl⟩ := run_pure_eq_ok.mp hr
    obtain rfl := run_readU8_eq_ok.mp h₁
    obtain rfl := run_readU8_eq_ok.mp h₂
    obtain rfl := run_readU8_eq_ok.mp h₃
    obtain rfl := run_readU16_eq_ok.mp h₄
    obtain ⟨hlt, rfl⟩ := run_uint_eq_ok.mp h₅
    obtain rfl := run_readU16_eq_ok.mp h₆
    refine ⟨?_, t, major :: minor :: (writeU16 epoch ++ (be 6 seq ++ writeU16 len)), rfl,
      by simp, by simp [writeU16], fun htype => ?_⟩
    · rw [not_and_or, not_ne_iff, not_ne_iff] at hv
      exact hv
    · refine marshal_eq_ok.mpr ⟨?_, ?_⟩
      · dsimp only
        unfold maxSequenceNumber
        omega
      · dsimp only
        rw [ContentType.toByte_ofByte htype]
        rfl

theorem writeU24_eq_ok {n : Nat} {bs : Bytes} :
    writeU24 n = .ok bs ↔ n < 2 ^ 24 ∧ bs = be 3 n := by
  unfold writeU24
  split
  · rename_i h
    rw [Except.ok.injEq, eq_comm]
    exact ⟨fun hb => ⟨h, hb⟩, And.right⟩
  · rename_i h
    exact ⟨nofun, fun hb => absurd hb.1 h⟩

theorem HandshakeHeader.marshal_eq_ok {h : HandshakeHeader} {bs : Bytes} :
    h.marshal = .ok bs ↔ (h.length < 2 ^ 24 ∧ h.fragmentOffset < 2 ^ 24
      ∧ h.fragmentLength < 2 ^ 24) ∧ bs = writeU8 h.handshakeType.toByte
        ++ (be 3 h.length ++ (writeU16 h.messageSequence
        ++ (be 3 h.fragmentOffset ++ be 3 h.fragmentLength))) := by
  unfold marshal
  by_cases h₁ : h.length < 2 ^ 24
  · by_cases h₂ : h.fragmentOffset < 2 ^ 24
    · by_cases h₃ : h.fragmentLength < 2 ^ 24
      · simp only [writeU24, h₁, h₂, h₃, if_true, true_and]
        exact ⟨fun hb => (Except.ok.inj hb).symm, fun hb => congrArg Except.ok hb.symm⟩
      · simp only [writeU24, h₁, h₂, h₃, if_true, if_false, and_false, false_and, iff_false]
        exact nofun
    · simp only [writeU24, h₁, h₂, if_true, if_false, and_false, false_and, iff_false]
      exact nofun
  · simp only [writeU24, h₁, if_false, false_and, iff_false]
    exact nofun

theorem HandshakeHeader.length_marshal {h : HandshakeHeader} {bs : Bytes}
    (hm : h.marshal = .ok bs) : bs.length = handshakeHeaderLength := by
  obtain ⟨-, rfl⟩ := marshal_eq_ok.mp hm
  simp [writeU8, writeU16, handshakeHeaderLength]

theorem HandshakeHeader.reads_unmarshal {h : HandshakeHeader} {bs : Bytes}
    (hm : h.marshal = .ok bs) : Reads unmarshal bs h := by
  obtain ⟨⟨hlen, hoff, hfrag⟩, rfl⟩ := marshal_eq_ok.mp hm
  refine (reads_readU8 _).bind ((reads_readU24 hlen).bind ((reads_readU16 _).bind
    ((reads_readU24 hoff).bind ?_)))
  rw [HandshakeType.ofByte_toByte]
  exact (reads_readU24 hfrag).map (f := fun n => (⟨h.handshakeType,
    h.length, h.messageSequence, h.fragmentOffset, n⟩ : HandshakeHeader))

/-- A header that was read has fields of 24 bits. -/
theorem HandshakeHeader.of_unmarshal {h : HandshakeHeader} {bs tail : Bytes}
    (hr : unmarshal.run bs = .ok (h, tail)) :
    h.length < 2 ^ 24 ∧ h.fragmentOffset < 2 ^ 24 ∧ h.fragmentLength < 2 ^ 24
      ∧ bs.length = handshakeHeaderLength + tail.length := by
  obtain ⟨t, bs₁, h₁, hr⟩ := run_bind_eq_ok.mp hr
  obtain ⟨length, bs₂, h₂, hr⟩ := run_bind_eq_ok.mp hr
  obtain ⟨seq, bs₃, h₃, hr⟩ := run_bind_eq_ok.mp hr
  obtain ⟨off, bs₄, h₄, hr⟩ := run_bind_eq_ok.mp hr
  obtain ⟨frag, bs₅, h₅, hr⟩ := run_bind_eq_ok.mp hr
  obtain ⟨rfl, rfl⟩ := run_pure_eq_ok.mp hr
  obtain rfl := run_readU8_eq_ok.mp h₁
  obtain ⟨hlen, rfl⟩ := run_uint_eq_ok.mp h₂
  obtain rfl := run_readU16_eq_ok.mp h₃
  obtain ⟨hoff, rfl⟩ := run_uint_eq_ok.mp h₄
  obtain ⟨hfrag, rfl⟩ := run_uint_eq_ok.mp h₅
  refine ⟨hlen, hoff, hfrag, ?_⟩
  simp [writeU16, handshakeHeaderLength]
  omega

/-! ## Datagrams -/

/-- `content_len` of the record at the front of a buffer. -/
def contentLenAt (buf : Bytes) : Nat :=
  ofBE ((buf.drop (recordLayerHeaderSize - 2)).take 2)

/-- `unpack_datagram` -/
def unpackDatagram (buf : Bytes) : Except Error (List Bytes) :=
  if buf.length = 0 then .ok []
  else if buf.length ≤ recordLayerHeaderSize then .error .errInvalidPacketLength
  else
    let pktLen := recordLayerHeaderSize + contentLenAt buf
    if pktLen > buf.length then .error .errInvalidPacketLength
    else
      match unpackDatagram (buf.drop pktLen) with
      | .ok out => .ok (buf.take pktLen :: out)
      | .error e => .error e
termination_by buf.length
decreasing_by
  rw [List.length_drop]
  have : 0 < pktLen := Nat.add_pos_left (by decide) _
  omega

/-- The loop of `compact_raw_packets`. -/
def compactFrom (mtu : Nat) (combined : List Bytes) (current : Bytes) :
    List Bytes → List Bytes
  | [] => combined ++ [current]
  | raw :: rest =>
      if current ≠ [] ∧ current.length + raw.length ≥ mtu then
        compactFrom mtu (combined ++ [current]) raw rest
      else compactFrom mtu combined (current ++ raw) rest

def compactRawPackets (rawPackets : List Bytes) (mtu : Nat) : List Bytes :=
  compactFrom mtu [] [] rawPackets

/-- A header followed by as many bytes as it gives. -/
def Framed (raw : Bytes) : Prop := raw.length = recordLayerHeaderSize + contentLenAt raw

/-- A whole record that is not empty. -/
def IsRecord (raw : Bytes) : Prop := recordLayerHeaderSize < raw.length ∧ Framed raw

/-- A header in front of a body of the length it gives makes a record. -/
theorem isRecord_of_marshal {h : RecordLayerHeader} {header body : Bytes}
    (hm : h.marshal = .ok header) (hlen : h.contentLen.toNat = body.length)
    (hne : body ≠ []) : IsRecord (header ++ body) := by
  have hheader := RecordLayerHeader.length_marshal hm
  have hpos := List.length_pos_iff.mpr hne
  have hlast : header.drop (recordLayerHeaderSize - 2) = writeU16 h.contentLen := by
    obtain ⟨-, rfl⟩ := RecordLayerHeader.marshal_eq_ok.mp hm
    simp [writeU8, writeU16, recordLayerHeaderSize, be]
  have hread : contentLenAt (header ++ body) = body.length := by
    have h2 : (writeU16 h.contentLen).length = 2 := length_be ..
    have hle : recordLayerHeaderSize - 2 ≤ header.length := by
      rw [hheader]
      decide
    rw [contentLenAt, List.drop_append_of_le_length hle, hlast, List.take_left' h2, writeU16,
      ofBE_be_of_lt h.contentLen.toNat_lt, hlen]
  refine ⟨?_, ?_⟩
  · rw [List.length_append, hheader]
    exact Nat.lt_add_of_pos_right hpos
  · rw [Framed, List.length_append, hheader, hread]

/-- Only the last two bytes of the header matter. -/
theorem contentLenAt_append {raw : Bytes} (h : recordLayerHeaderSize ≤ raw.length)
    (tail : Bytes) :
    contentLenAt (raw ++ tail) = contentLenAt raw := by
  have hle : recordLayerHeaderSize - 2 ≤ raw.length := by omega
  have hlong : 2 ≤ (raw.drop (recordLayerHeaderSize - 2)).length := by
    rw [List.length_drop]
    unfold recordLayerHeaderSize at h ⊢
    omega
  rw [contentLenAt, contentLenAt, List.drop_append_of_le_length hle,
    List.take_append_of_le_length hlong]

theorem Framed.le {raw : Bytes} (h : Framed raw) : recordLayerHeaderSize ≤ raw.length := by
  rw [h]
  exact Nat.le_add_right ..

theorem unpackDatagram_nil : unpackDatagram [] = .ok [] := by
  rw [unpackDatagram, List.length_nil, if_pos rfl]

/-- A record at the front is taken off, provided that it is not the last and
empty. -/
theorem unpackDatagram_append {raw tail : Bytes} (h : Framed raw)
    (hlong : recordLayerHeaderSize < (raw ++ tail).length) :
    unpackDatagram (raw ++ tail) = (unpackDatagram tail).map (raw :: ·) := by
  have hat := contentLenAt_append h.le tail
  have hlen : raw.length = recordLayerHeaderSize + contentLenAt raw := h
  rw [unpackDatagram, hat, ← hlen]
  dsimp only
  have hle : raw.length ≤ (raw ++ tail).length := by
    rw [List.length_append]
    exact Nat.le_add_right ..
  rw [List.take_left, List.drop_left, if_neg (by omega), if_neg (by omega),
    if_neg (by omega)]
  cases unpackDatagram tail <;> rfl

/-- Whole records, the last of them not empty. -/
def Whole (raws : List Bytes) : Prop :=
  (∀ raw ∈ raws, Framed raw)
    ∧ ∀ raw, raws.getLast? = some raw → recordLayerHeaderSize < raw.length

theorem whole_cons_iff {raw : Bytes} {raws : List Bytes} :
    Whole (raw :: raws) ↔ Framed raw ∧ recordLayerHeaderSize < (raw :: raws).flatten.length
      ∧ Whole raws := by
  unfold Whole
  cases raws with
  | nil => simp
  | cons r rs =>
      rw [List.getLast?_cons_cons, List.forall_mem_cons, List.flatten_cons]
      constructor
      · rintro ⟨⟨hraw, hrs⟩, hlast⟩
        refine ⟨hraw, ?_, hrs, hlast⟩
        have hle := hraw.le
        have hr := (hrs r (List.mem_cons_self ..)).le
        rw [List.length_append, List.flatten_cons, List.length_append]
        unfold recordLayerHeaderSize at hle hr ⊢
        omega
      · rintro ⟨hraw, -, hrs, hlast⟩
        exact ⟨⟨hraw, hrs⟩, hlast⟩

theorem unpackDatagram_flatten {raws : List Bytes} (h : Whole raws) :
    unpackDatagram raws.flatten = .ok raws := by
  induction raws with
  | nil => exact unpackDatagram_nil
  | cons raw raws ih =>
      obtain ⟨hraw, hlong, hrest⟩ := whole_cons_iff.mp h
      rw [List.flatten_cons] at hlong ⊢
      rw [unpackDatagram_append hraw hlong, ih hrest]
      rfl

/-- The front of a buffer that is long enough. -/
theorem framed_take {buf : Bytes}
    (h : recordLayerHeaderSize + contentLenAt buf ≤ buf.length) :
    Framed (buf.take (recordLayerHeaderSize + contentLenAt buf)) := by
  have hlen : (buf.take (recordLayerHeaderSize + contentLenAt buf)).length
      = recordLayerHeaderSize + contentLenAt buf := List.length_take_of_le h
  have hat := contentLenAt_append (hlen.symm ▸ Nat.le_add_right ..)
    (buf.drop (recordLayerHeaderSize + contentLenAt buf))
  rw [List.take_append_drop] at hat
  rw [Framed, ← hat]
  exact hlen

/-- `unpack_datagram` accepts exactly the sequences of whole records, and an
empty record everywhere but at the end. -/
theorem unpackDatagram_eq_ok_iff {buf : Bytes} {raws : List Bytes} :
    unpackDatagram buf = .ok raws ↔ buf = raws.flatten ∧ Whole raws := by
  constructor
  · intro h
    induction hn : buf.length using Nat.strongRecOn generalizing buf raws with
    | _ n ih =>
      rw [unpackDatagram] at h
      split at h
      · rename_i hnil
        obtain rfl := Except.ok.inj h
        exact ⟨List.length_eq_zero_iff.mp hnil, nofun, nofun⟩
      · split at h
        · cases h
        · rename_i hlong
          dsimp only at h
          split at h
          · cases h
          · rename_i hle
            split at h
            · rename_i out hout
              obtain rfl := Except.ok.inj h
              have hshort : (buf.drop (recordLayerHeaderSize + contentLenAt buf)).length < n := by
                rw [List.length_drop]
                unfold recordLayerHeaderSize
                omega
              obtain ⟨hrest, hwhole⟩ := ih _ hshort hout rfl
              have hbuf : buf = (buf.take (recordLayerHeaderSize + contentLenAt buf)
                  :: out).flatten := by
                rw [List.flatten_cons, ← hrest, List.take_append_drop]
              refine ⟨hbuf, whole_cons_iff.mpr ⟨framed_take (by omega), ?_, hwhole⟩⟩
              rw [← hbuf]
              omega
            · cases h
  · rintro ⟨rfl, h⟩
    exact unpackDatagram_flatten h

/-- The datagrams of `compact_raw_packets` are consecutive blocks of the
records. A block of several records is shorter than the limit. -/
structure Blocks (mtu : Nat) (datagrams : List Bytes) (blocks : List (List Bytes)) : Prop where
  flatten : datagrams = blocks.map List.flatten
  short : ∀ block ∈ blocks, 1 < block.length → block.flatten.length < mtu

theorem Blocks.close {mtu : Nat} {combined : List Bytes} {done : List (List Bytes)}
    {block : List Bytes} (h : Blocks mtu combined done)
    (hshort : 1 < block.length → block.flatten.length < mtu) :
    Blocks mtu (combined ++ [block.flatten]) (done ++ [block]) := by
  refine ⟨?_, fun b hb => ?_⟩
  · rw [h.flatten, List.map_append]
    rfl
  · rcases List.mem_append.mp hb with hb | hb
    · exact h.short b hb
    · rw [List.mem_singleton.mp hb]
      exact hshort

theorem compactFrom_blocks {mtu : Nat} {combined raws : List Bytes}
    {done : List (List Bytes)} (block : List Bytes) (hraws : ∀ raw ∈ block ++ raws, raw ≠ [])
    (hdone : Blocks mtu combined done)
    (hshort : 1 < block.length → block.flatten.length < mtu) :
    ∃ blocks, Blocks mtu (compactFrom mtu combined block.flatten raws) blocks
      ∧ blocks.flatten = done.flatten ++ (block ++ raws) := by
  induction raws generalizing combined done block with
  | nil => exact ⟨done ++ [block], hdone.close hshort, by simp⟩
  | cons raw raws ih =>
      rw [compactFrom]
      split
      · obtain ⟨blocks, hblocks, hall⟩ := ih [raw]
          (fun r hr => hraws r (List.mem_append_right _ hr)) (hdone.close hshort)
          (fun hlt => absurd hlt (Nat.lt_irrefl 1))
        refine ⟨blocks, ?_, ?_⟩
        · rwa [List.flatten_cons, List.flatten_nil, List.append_nil] at hblocks
        · rw [hall]
          simp
      · rename_i hroom
        have hjoin : 1 < (block ++ [raw]).length →
            (block ++ [raw]).flatten.length < mtu := by
          intro hlt
          have hblock : block ≠ [] := by
            rintro rfl
            exact Nat.lt_irrefl 1 hlt
          obtain ⟨r, rs, rfl⟩ := List.exists_cons_of_ne_nil hblock
          have hr := hraws r (by simp)
          have hne : (r :: rs).flatten ≠ [] := by simp [hr]
          have hlt : ¬ (r :: rs).flatten.length + raw.length ≥ mtu :=
            fun hge => hroom ⟨hne, hge⟩
          rw [List.flatten_append, List.length_append, List.flatten_singleton]
          omega
        obtain ⟨blocks, hblocks, hall⟩ := ih (block ++ [raw])
          (by simpa using hraws) hdone hjoin
        refine ⟨blocks, ?_, ?_⟩
        · rwa [List.flatten_append, List.flatten_singleton] at hblocks
        · rw [hall]
          simp

/-- What one side packs, the other unpacks: the records come out of the
datagrams as they went in, in order and none twice, and no datagram of several
records reaches the limit. -/
theorem unpack_compact {raws : List Bytes} (hraws : ∀ raw ∈ raws, IsRecord raw)
    (mtu : Nat) :
    ∃ blocks : List (List Bytes), (compactRawPackets raws mtu).map unpackDatagram = blocks.map .ok
      ∧ blocks.flatten = raws
      ∧ (compactRawPackets raws mtu).flatten = raws.flatten
      ∧ ∀ block ∈ blocks, 1 < block.length → block.flatten.length < mtu := by
  have hlong : ∀ raw ∈ raws, raw ≠ [] := by
    rintro raw hraw rfl
    exact absurd (hraws [] hraw).1 (by decide)
  have hnone : Blocks mtu [] [] := ⟨rfl, nofun⟩
  obtain ⟨blocks, hblocks, hall⟩ :=
    compactFrom_blocks [] hlong hnone (fun h => absurd h (by decide))
  rw [List.flatten_nil, List.nil_append, List.nil_append] at hall
  have hcompact : compactRawPackets raws mtu = blocks.map List.flatten := hblocks.flatten
  refine ⟨blocks, ?_, hall, ?_, hblocks.short⟩
  · rw [hcompact, List.map_map]
    refine List.map_congr_left fun block hblock => unpackDatagram_flatten ?_
    have hmem : ∀ raw ∈ block, IsRecord raw := by
      intro raw hraw
      refine hraws raw ?_
      rw [← hall]
      exact List.mem_flatten.mpr ⟨block, hblock, hraw⟩
    exact ⟨fun raw hraw => (hmem raw hraw).2,
      fun raw hraw => (hmem raw (List.mem_of_getLast? hraw)).1⟩
  · rw [hcompact, ← List.flatten_flatten, hall]

/-- A handshake record of epoch 0 with one byte in it. -/
def shortRecord (body : UInt8) : Bytes :=
  [22, 0xfe, 0xfd, 0, 0, 0, 0, 0, 0, 0, 0, 0, 1, body]

theorem unpack_compact_short :
    ∃ blocks : List (List Bytes),
      (compactRawPackets [shortRecord 1, shortRecord 2, shortRecord 3] 40).map unpackDatagram
        = blocks.map .ok
      ∧ blocks.flatten = [shortRecord 1, shortRecord 2, shortRecord 3]
      ∧ ∀ block ∈ blocks, 1 < block.length → block.flatten.length < 40 := by
  have hraws : ∀ raw ∈ [shortRecord 1, shortRecord 2, shortRecord 3], IsRecord raw := by
    simp only [List.forall_mem_cons, List.not_mem_nil, false_implies, implies_true, and_true,
      IsRecord, Framed]
    decide
  obtain ⟨blocks, hunpack, hall, -, hshort⟩ := unpack_compact hraws 40
  exact ⟨blocks, hunpack, hall, hshort⟩

end Dtls

end XashProxy
