import Mathlib.Algebra.Order.BigOperators.Group.List
import Mathlib.Data.List.GetD
import XashProxy.DtlsHello

/-!
# Handshake messages

The other messages, and the handshake that carries any of them. A message that
is read to the end of its buffer takes whatever follows it; these are read back
only from a buffer of their own, which is what the fragment buffer gives.
-/

namespace XashProxy

namespace Dtls

open Codec

structure HelloVerifyRequest where
  version : ProtocolVersion
  cookie : Bytes
deriving DecidableEq, Repr

def HelloVerifyRequest.size (m : HelloVerifyRequest) : Nat := 1 + 1 + 1 + m.cookie.length

def HelloVerifyRequest.marshal (m : HelloVerifyRequest) : Except Error Bytes :=
  if m.cookie.length > 255 then .error .errCookieTooLong
  else .ok (writeU8 m.version.major ++ (writeU8 m.version.minor
    ++ (writeU8 (UInt8.ofNat m.cookie.length) ++ m.cookie)))

/-- The cookie is all that is left, and at least as long as it is said to be. -/
def HelloVerifyRequest.unmarshal : Reader Error HelloVerifyRequest := do
  let major ← readU8
  let minor ← readU8
  let cookieLength ← readU8
  let cookie ← toEnd
  if cookie.length < cookieLength.toNat then refuse .errBufferTooSmall
  else return ⟨⟨major, minor⟩, cookie⟩

structure Certificate where
  certificate : List Bytes
deriving DecidableEq, Repr

/-- The number of bytes the certificates take, each with its length. -/
def Certificate.payloadSize (m : Certificate) : Nat :=
  (m.certificate.map fun r => 3 + r.length).sum

def Certificate.size (m : Certificate) : Nat := 3 + m.payloadSize

def writeCertificates : List Bytes → Except Error Bytes
  | [] => .ok []
  | r :: rs => do
      let len ← writeU24 r.length
      let rest ← writeCertificates rs
      return len ++ (r ++ rest)

def Certificate.marshal (m : Certificate) : Except Error Bytes := do
  let payloadSize ← writeU24 m.payloadSize
  let certificates ← writeCertificates m.certificate
  return payloadSize ++ certificates

/-- The loop over the certificates, `left` bytes before the end of the
payload. -/
def readCertificates (left : Nat) : Reader Error (List Bytes) :=
  if left = 0 then return []
  else do
    let certificateLen ← readU24
    let buf ← exact .io certificateLen
    let certificates ← readCertificates (left - (3 + certificateLen))
    return buf :: certificates
termination_by left

def Certificate.unmarshal : Reader Error Certificate := do
  let payloadSize ← readU24
  let certificate ← readCertificates payloadSize
  return ⟨certificate⟩

inductive EllipticCurveType where
  | namedCurve
  | unsupported
deriving DecidableEq, Repr

def EllipticCurveType.toByte : EllipticCurveType → UInt8
  | .namedCurve => 3
  | .unsupported => 4

def EllipticCurveType.ofByte (b : UInt8) : EllipticCurveType :=
  if b = 3 then .namedCurve else .unsupported

inductive ClientCertificateType where
  | rsaSign
  | ecdsaSign
  | unsupported
deriving DecidableEq, Repr

def ClientCertificateType.toByte : ClientCertificateType → UInt8
  | .rsaSign => 1
  | .ecdsaSign => 64
  | .unsupported => 65

def ClientCertificateType.ofByte (b : UInt8) : ClientCertificateType :=
  if b = 1 then .rsaSign else if b = 64 then .ecdsaSign else .unsupported

@[simp] theorem EllipticCurveType.ofByte_toByte (t : EllipticCurveType) :
    ofByte t.toByte = t := by
  cases t <;> rfl

@[simp] theorem ClientCertificateType.ofByte_toByte (t : ClientCertificateType) :
    ofByte t.toByte = t := by
  cases t <;> rfl

structure ServerKeyExchange where
  identityHint : Bytes
  ellipticCurveType : EllipticCurveType
  namedCurve : NamedCurve
  publicKey : Bytes
  algorithm : SignatureHashAlgorithm
  signature : Bytes
deriving DecidableEq, Repr

def ServerKeyExchange.size (m : ServerKeyExchange) : Nat :=
  if m.identityHint ≠ [] then 2 + m.identityHint.length
  else 1 + 2 + 1 + m.publicKey.length + 2 + 2 + m.signature.length

def ServerKeyExchange.marshal (m : ServerKeyExchange) : Bytes :=
  if m.identityHint ≠ [] then
    writeU16 (UInt16.ofNat m.identityHint.length) ++ m.identityHint
  else
    writeU8 m.ellipticCurveType.toByte ++ (writeU16 m.namedCurve.toU16
      ++ (writeU8 (UInt8.ofNat m.publicKey.length) ++ (m.publicKey
      ++ (m.algorithm.marshal ++ (writeU16 (UInt16.ofNat m.signature.length)
      ++ m.signature)))))

/-- The bytes from `offset` on, behind the public key. -/
def ServerKeyExchange.parseSignature (data : Bytes) (offset : Nat)
    (message : SignatureHashAlgorithm → Bytes → ServerKeyExchange) :
    Except Error ServerKeyExchange :=
  if data.length ≤ offset then .error .errBufferTooSmall
  else
    let hashAlgorithm := HashAlgorithm.ofByte (data.getD offset 0)
    let offset := offset + 1
    if data.length ≤ offset then .error .errBufferTooSmall
    else
      let signatureAlgorithm := SignatureAlgorithm.ofByte (data.getD offset 0)
      let offset := offset + 1
      if data.length < offset + 2 then .error .errBufferTooSmall
      else
        let signatureLength := ofBE [data.getD offset 0, data.getD (offset + 1) 0]
        let offset := offset + 2
        if data.length < offset + signatureLength then .error .errBufferTooSmall
        else .ok (message ⟨hashAlgorithm, signatureAlgorithm⟩
          ((data.drop offset).take signatureLength))

def ServerKeyExchange.parse (data : Bytes) : Except Error ServerKeyExchange :=
  if data.length < 2 then .error .panic
  else
    let pskLength := ofBE [data.getD 0 0, data.getD 1 0]
    if data.length = pskLength + 2 then
      .ok ⟨data.drop 2, .unsupported, .unsupported, [], ⟨.unsupported, .unsupported⟩, []⟩
    else
      let ellipticCurveType := EllipticCurveType.ofByte (data.getD 0 0)
      if (data.drop 1).length < 2 then .error .errBufferTooSmall
      else
        let namedCurve :=
          NamedCurve.ofU16 (UInt16.ofNat (ofBE [data.getD 1 0, data.getD 2 0]))
        if data.length < 4 then .error .errBufferTooSmall
        else
          let publicKeyLength := (data.getD 3 0).toNat
          let offset := 4 + publicKeyLength
          if data.length < offset then .error .errBufferTooSmall
          else
            let publicKey := (data.drop 4).take publicKeyLength
            parseSignature data offset (⟨[], ellipticCurveType, namedCurve, publicKey, ·, ·⟩)

/-- A parser of a whole buffer. -/
def parsed {α : Type} (parse : Bytes → Except Error α) : Reader Error α := do
  let data ← toEnd
  match parse data with
  | .ok a => return a
  | .error e => refuse e

def ServerKeyExchange.unmarshal : Reader Error ServerKeyExchange := parsed parse

structure CertificateRequest where
  certificateTypes : List ClientCertificateType
  signatureHashAlgorithms : List SignatureHashAlgorithm
deriving DecidableEq, Repr

def CertificateRequest.size (m : CertificateRequest) : Nat :=
  1 + m.certificateTypes.length + 2 + m.signatureHashAlgorithms.length * 2 + 2

/-- The list of distinguished names is written empty and not read. -/
def CertificateRequest.marshal (m : CertificateRequest) : Bytes :=
  writeU8 (UInt8.ofNat m.certificateTypes.length)
    ++ (m.certificateTypes.flatMap (fun t => writeU8 t.toByte)
    ++ (writeU16 (2 * UInt16.ofNat m.signatureHashAlgorithms.length)
    ++ (m.signatureHashAlgorithms.flatMap SignatureHashAlgorithm.marshal ++ [0, 0])))

def CertificateRequest.unmarshal : Reader Error CertificateRequest := do
  let certificateTypesLength ← readU8
  let certificateTypes ← counted (readNamedByte .ofByte) certificateTypesLength.toNat
  let signatureHashAlgorithmsLength ← readU16
  -- `(0..length).step_by(2)`
  let signatureHashAlgorithms ←
    counted SignatureHashAlgorithm.unmarshal ((signatureHashAlgorithmsLength.toNat + 1) / 2)
  return ⟨certificateTypes, signatureHashAlgorithms⟩

structure CertificateVerify where
  algorithm : SignatureHashAlgorithm
  signature : Bytes
deriving DecidableEq, Repr

def CertificateVerify.size (m : CertificateVerify) : Nat := 1 + 1 + 2 + m.signature.length

def CertificateVerify.marshal (m : CertificateVerify) : Bytes :=
  m.algorithm.marshal ++ (writeU16 (UInt16.ofNat m.signature.length) ++ m.signature)

def CertificateVerify.unmarshal : Reader Error CertificateVerify := do
  let algorithm ← SignatureHashAlgorithm.unmarshal
  let signatureLength ← readU16
  let signature ← exact .io signatureLength.toNat
  return ⟨algorithm, signature⟩

structure ClientKeyExchange where
  identityHint : Bytes
  publicKey : Bytes
deriving DecidableEq, Repr

def ClientKeyExchange.size (m : ClientKeyExchange) : Nat :=
  if m.publicKey ≠ [] then 1 + m.publicKey.length else 2 + m.identityHint.length

def ClientKeyExchange.marshal (m : ClientKeyExchange) : Except Error Bytes :=
  if (m.identityHint ≠ [] ∧ m.publicKey ≠ []) ∨ (m.identityHint = [] ∧ m.publicKey = []) then
    .error .errInvalidClientKeyExchange
  else if m.publicKey ≠ [] then
    .ok (writeU8 (UInt8.ofNat m.publicKey.length) ++ m.publicKey)
  else .ok (writeU16 (UInt16.ofNat m.identityHint.length) ++ m.identityHint)

def ClientKeyExchange.parse (data : Bytes) : Except Error ClientKeyExchange :=
  if data.length < 2 then .error .panic
  else
    let pskLength := ofBE [data.getD 0 0, data.getD 1 0]
    if data.length = pskLength + 2 then .ok ⟨data.drop 2, []⟩
    else
      let publicKeyLength := (data.getD 0 0).toNat
      if data.length ≠ publicKeyLength + 1 then .error .errBufferTooSmall
      else .ok ⟨[], data.drop 1⟩

def ClientKeyExchange.unmarshal : Reader Error ClientKeyExchange := parsed parse

structure Finished where
  verifyData : Bytes
deriving DecidableEq, Repr

def Finished.size (m : Finished) : Nat := m.verifyData.length

def Finished.unmarshal : Reader Error Finished := do
  let verifyData ← toEnd
  return ⟨verifyData⟩

/-! ## What each message needs to be read back -/

def ClientHello.Encodable (m : ClientHello) : Prop :=
  m.Fits ∧ (m.extensions.flatMap Extension.marshal).length < 2 ^ 16 ∧ ∀ e ∈ m.extensions, e.Fits

instance (m : ClientHello) : Decidable m.Encodable := inferInstanceAs (Decidable (_ ∧ _))

theorem ClientHello.encodes {m : ClientHello} (h : m.Encodable) :
    Encodes m.marshal m.size ClientHello.unmarshal m := by
  obtain ⟨hfits, hlt, hes⟩ := h
  have hm := marshalWith_of_fits hfits (m.extensions.flatMap Extension.marshal)
  have hread := reads_unmarshal hfits hlt hm (readExtensions_flatMap hes)
  exact ⟨_, hm, length_marshal hm, hread.readsAll.gives⟩

def ServerHello.Encodable (m : ServerHello) : Prop :=
  m.random.gmtUnixTime < 2 ^ 32 ∧ (m.extensions.flatMap Extension.marshal).length < 2 ^ 16
    ∧ ∀ e ∈ m.extensions, e.Fits

instance (m : ServerHello) : Decidable m.Encodable := inferInstanceAs (Decidable (_ ∧ _))

theorem ServerHello.encodes {m : ServerHello} (h : m.Encodable) :
    Encodes (.ok m.marshal) m.size ServerHello.unmarshal m :=
  ⟨_, rfl, m.length_marshal, (reads_unmarshal h.1 h.2.1 h.2.2).readsAll.gives⟩

theorem HelloVerifyRequest.length_marshal {m : HelloVerifyRequest} {bs : Bytes}
    (h : m.marshal = .ok bs) : bs.length = m.size := by
  unfold marshal at h
  split at h
  · cases h
  · obtain rfl := Except.ok.inj h
    simp only [List.length_append, length_writeU8, size]
    omega

theorem HelloVerifyRequest.encodes {m : HelloVerifyRequest} (h : m.cookie.length < 2 ^ 8) :
    Encodes m.marshal m.size HelloVerifyRequest.unmarshal m := by
  have hlen : (UInt8.ofNat m.cookie.length).toNat = m.cookie.length := UInt8.toNat_ofNat_of_lt' h
  have hm : m.marshal = .ok _ := if_neg (by omega)
  refine ⟨_, hm, length_marshal hm, ReadsAll.gives ?_⟩
  refine (reads_readU8 _).bindAll ((reads_readU8 _).bindAll ((reads_readU8 _).bindAll
    ((readsAll_toEnd m.cookie).last ?_)))
  rw [hlen, if_neg (Nat.lt_irrefl _)]
  rfl

/-- The bytes of certificates that are not too long for their lengths. -/
theorem writeCertificates_of_lt {rs : List Bytes} (h : ∀ r ∈ rs, r.length < 2 ^ 24) :
    writeCertificates rs = .ok (rs.flatMap fun r => be 3 r.length ++ r) := by
  induction rs with
  | nil => rfl
  | cons r rs ih =>
      rw [writeCertificates, writeU24, if_pos (h r (List.mem_cons_self ..)),
        ih fun x hx => h x (List.mem_cons_of_mem _ hx), List.flatMap_cons, List.append_assoc]
      rfl

theorem length_writeCertificates {rs : List Bytes} {bs : Bytes}
    (h : writeCertificates rs = .ok bs) : bs.length = (rs.map fun r => 3 + r.length).sum := by
  induction rs generalizing bs with
  | nil =>
      obtain rfl := Except.ok.inj h
      rfl
  | cons r rs ih =>
      rw [writeCertificates] at h
      cases hlen : writeU24 r.length with
      | error e =>
          rw [hlen] at h
          cases h
      | ok len =>
          cases hrest : writeCertificates rs with
          | error e =>
              rw [hlen, hrest] at h
              cases h
          | ok rest =>
              rw [hlen, hrest] at h
              obtain rfl := Except.ok.inj h
              obtain ⟨-, rfl⟩ := writeU24_eq_ok.mp hlen
              rw [List.length_append, List.length_append, length_be, ih hrest, List.map_cons,
                List.sum_cons, Nat.add_assoc]

theorem Certificate.length_marshal {m : Certificate} {bs : Bytes} (h : m.marshal = .ok bs) :
    bs.length = m.size := by
  unfold marshal at h
  cases hpayload : writeU24 m.payloadSize with
  | error e =>
      rw [hpayload] at h
      cases h
  | ok payload =>
      cases hcertificates : writeCertificates m.certificate with
      | error e =>
          rw [hpayload, hcertificates] at h
          cases h
      | ok certificates =>
          rw [hpayload, hcertificates] at h
          obtain rfl := Except.ok.inj h
          obtain ⟨-, rfl⟩ := writeU24_eq_ok.mp hpayload
          rw [List.length_append, length_be, length_writeCertificates hcertificates, size,
            payloadSize]

theorem reads_readCertificates {rs : List Bytes} (h : ∀ r ∈ rs, r.length < 2 ^ 24) :
    Reads (readCertificates (rs.map fun r => 3 + r.length).sum)
      (rs.flatMap fun r => be 3 r.length ++ r) rs := by
  induction rs with
  | nil =>
      rw [List.map_nil, List.sum_nil, readCertificates, if_pos rfl]
      exact reads_pure []
  | cons r rs ih =>
      have hrest := ih fun x hx => h x (List.mem_cons_of_mem _ hx)
      rw [List.map_cons, List.sum_cons, List.flatMap_cons, List.append_assoc, readCertificates,
        if_neg (by omega)]
      refine (reads_readU24 (h r (List.mem_cons_self ..))).bind
        ((reads_exact Error.io rfl).bind ?_)
      rw [Nat.add_sub_cancel_left]
      exact hrest.map

theorem Certificate.encodes {m : Certificate} (h : m.payloadSize < 2 ^ 24) :
    Encodes m.marshal m.size Certificate.unmarshal m := by
  have hlt : ∀ r ∈ m.certificate, r.length < 2 ^ 24 := by
    intro r hr
    have hle := List.single_le_sum (fun _ _ => Nat.zero_le _) _
      (List.mem_map_of_mem (f := fun r : Bytes => 3 + r.length) hr)
    unfold payloadSize at h
    omega
  have hm : m.marshal = .ok (be 3 m.payloadSize
      ++ m.certificate.flatMap fun r => be 3 r.length ++ r) := by
    rw [marshal, writeU24, if_pos h, writeCertificates_of_lt hlt]
    rfl
  exact ⟨_, hm, length_marshal hm,
    ((reads_readU24 h).bind (reads_readCertificates hlt).map).readsAll.gives⟩

theorem readsAll_parsed {α : Type} {parse : Bytes → Except Error α} {bs : Bytes} {a : α}
    (h : parse bs = .ok a) : ReadsAll (parsed parse) bs a := by
  refine (readsAll_toEnd bs).last ?_
  rw [h]
  rfl

/-- A key exchange with an identity hint has no other field. One without is not
as long as its first two bytes, taken for the length of a hint, would say. -/
def ServerKeyExchange.Encodable (m : ServerKeyExchange) : Prop :=
  if m.identityHint ≠ [] then
    m.identityHint.length < 2 ^ 16
      ∧ m = ⟨m.identityHint, .unsupported, .unsupported, [], ⟨.unsupported, .unsupported⟩, []⟩
  else m.publicKey.length < 2 ^ 8 ∧ m.signature.length < 2 ^ 16
    ∧ m.size ≠ 256 * m.ellipticCurveType.toByte.toNat + 2

instance (m : ServerKeyExchange) : Decidable m.Encodable :=
  inferInstanceAs (Decidable (if m.identityHint ≠ [] then _ ∧ _ else _ ∧ _ ∧ _))

/-- The two bytes of a number. -/
theorem writeU16_ofNat {n : Nat} (h : n < 2 ^ 16) :
    ∃ b₀ b₁, writeU16 (UInt16.ofNat n) = [b₀, b₁] ∧ ofBE [b₀, b₁] = n := by
  have hlen : ofBE (writeU16 (UInt16.ofNat n)) = n := by
    rw [writeU16, ofBE_be_of_lt (UInt16.toNat_lt _), toNat_ofNat_of_lt h]
  exact ⟨_, _, rfl, hlen⟩

theorem ServerKeyExchange.parse_hint {hint : Bytes} (hlt : hint.length < 2 ^ 16) :
    parse (writeU16 (UInt16.ofNat hint.length) ++ hint)
      = .ok ⟨hint, .unsupported, .unsupported, [], ⟨.unsupported, .unsupported⟩, []⟩ := by
  obtain ⟨b₀, b₁, hbytes, hof⟩ := writeU16_ofNat hlt
  have hb₀ : (b₀ :: b₁ :: hint).getD 0 0 = b₀ := rfl
  have hb₁ : (b₀ :: b₁ :: hint).getD 1 0 = b₁ := rfl
  rw [hbytes, List.cons_append, List.cons_append, List.nil_append, parse, hb₀, hb₁, hof,
    if_neg (by simp), if_pos (by simp)]
  rfl

/-- What follows the public key is read where it is. -/
theorem ServerKeyExchange.parseSignature_append (front : Bytes)
    (algorithm : SignatureHashAlgorithm) {signature : Bytes} (hlt : signature.length < 2 ^ 16)
    (message : SignatureHashAlgorithm → Bytes → ServerKeyExchange) :
    parseSignature (front ++ (algorithm.marshal ++ (writeU16 (UInt16.ofNat signature.length)
      ++ signature))) front.length message = .ok (message algorithm signature) := by
  obtain ⟨b₀, b₁, hbytes, hof⟩ := writeU16_ofNat hlt
  have hdata : front ++ (algorithm.marshal ++ (writeU16 (UInt16.ofNat signature.length)
      ++ signature)) = front ++ (algorithm.hash.toByte :: algorithm.signature.toByte :: b₀ :: b₁
        :: signature) := by
    rw [hbytes]
    rfl
  have hget : ∀ i (tail : Bytes), (front ++ tail).getD (front.length + i) 0 = tail.getD i 0 := by
    intro i tail
    rw [List.getD_append_right _ _ _ _ (Nat.le_add_right ..), Nat.add_sub_cancel_left]
  have hget0 := hget 0
  rw [Nat.add_zero] at hget0
  have hdrop : (front ++ (algorithm.hash.toByte :: algorithm.signature.toByte :: b₀ :: b₁
      :: signature)).drop (front.length + 4) = signature := by
    rw [List.drop_append]
    simp
  have hlen : (front ++ (algorithm.hash.toByte :: algorithm.signature.toByte :: b₀ :: b₁
      :: signature)).length = front.length + (4 + signature.length) := by
    simp only [List.length_append, List.length_cons]
    omega
  rw [hdata, parseSignature]
  simp only [Nat.add_assoc, hget, hget0, Nat.reduceAdd, hdrop, hlen, List.getD_cons_zero,
    List.getD_cons_succ, hof, HashAlgorithm.ofByte_toByte, SignatureAlgorithm.ofByte_toByte,
    List.take_length]
  rw [if_neg (by omega), if_neg (by omega), if_neg (by omega), if_neg (Nat.lt_irrefl _)]

theorem NamedCurve.writeU16_toU16 (c : NamedCurve) :
    ∃ b, writeU16 c.toU16 = [0, b] ∧ UInt16.ofNat (ofBE [0, b]) = c.toU16 := by
  cases c <;> exact ⟨_, rfl, rfl⟩

/-- Without a hint, and not of the length that would make one of its first two
bytes. -/
theorem ServerKeyExchange.parse_curve {t : EllipticCurveType} {curve : NamedCurve}
    {publicKey signature : Bytes} {algorithm : SignatureHashAlgorithm}
    (hkey : publicKey.length < 2 ^ 8) (hsig : signature.length < 2 ^ 16)
    (hne : 8 + publicKey.length + signature.length ≠ 256 * t.toByte.toNat + 2) :
    parse (writeU8 t.toByte ++ (writeU16 curve.toU16
      ++ (writeU8 (UInt8.ofNat publicKey.length) ++ (publicKey ++ (algorithm.marshal
      ++ (writeU16 (UInt16.ofNat signature.length) ++ signature))))))
      = .ok ⟨[], t, curve, publicKey, algorithm, signature⟩ := by
  obtain ⟨c, hc, hof⟩ := curve.writeU16_toU16
  have hklen : (UInt8.ofNat publicKey.length).toNat = publicKey.length :=
    UInt8.toNat_ofNat_of_lt' hkey
  have hrest := parseSignature_append (t.toByte :: 0 :: c
    :: UInt8.ofNat publicKey.length :: publicKey) algorithm hsig
    (⟨[], t, curve, publicKey, ·, ·⟩)
  simp only [List.length_cons, List.cons_append] at hrest
  have hlen : (publicKey ++ (algorithm.marshal ++ (writeU16 (UInt16.ofNat signature.length)
      ++ signature))).length = publicKey.length + (4 + signature.length) := by
    simp only [SignatureHashAlgorithm.marshal, List.length_append, length_writeU8,
      length_writeU16]
    omega
  have hpsk : ofBE [t.toByte, 0] = 256 * t.toByte.toNat := by simp [ofBE]
  rw [hc, writeU8, writeU8, parse]
  simp only [List.cons_append, List.nil_append, List.getD_cons_zero, List.getD_cons_succ,
    List.length_cons, hpsk, hof, hklen, hlen, List.drop_succ_cons, List.drop_zero,
    NamedCurve.ofU16_toU16, EllipticCurveType.ofByte_toByte, List.take_left]
  rw [if_neg (by omega), if_neg (by omega), if_neg (by omega), if_neg (by omega),
    if_neg (by omega), Nat.add_comm 4]
  exact hrest

theorem ServerKeyExchange.length_marshal (m : ServerKeyExchange) : m.marshal.length = m.size := by
  unfold marshal size
  split
  · rw [List.length_append, length_writeU16]
  · simp only [List.length_append, length_writeU8, length_writeU16,
      SignatureHashAlgorithm.marshal]
    omega

/-- At the one length that its first two bytes name, a key exchange without a
hint is taken for a hint. -/
theorem ServerKeyExchange.parse_as_hint {m : ServerKeyExchange} (hhint : m.identityHint = [])
    (hlen : m.size = 256 * m.ellipticCurveType.toByte.toNat + 2) :
    parse m.marshal = .ok ⟨m.marshal.drop 2, .unsupported, .unsupported, [],
      ⟨.unsupported, .unsupported⟩, []⟩ := by
  have hnot : ¬ m.identityHint ≠ [] := fun h => h hhint
  obtain ⟨c, hc, -⟩ := m.namedCurve.writeU16_toU16
  obtain ⟨rest, hbytes⟩ : ∃ rest, m.marshal = m.ellipticCurveType.toByte :: 0 :: rest := by
    rw [marshal, if_neg hnot, hc]
    exact ⟨_, rfl⟩
  have hlong := m.length_marshal
  have hpsk : ofBE [m.ellipticCurveType.toByte, 0]
      = 256 * m.ellipticCurveType.toByte.toNat := by simp [ofBE]
  rw [hbytes] at hlong ⊢
  rw [parse, if_neg (by omega)]
  simp only [List.getD_cons_zero, List.getD_cons_succ, hpsk]
  rw [if_pos (by omega)]

/-- A key exchange without a hint is read back unless it has the one length at
which its first two bytes make it a hint; and then a hint is what is read. -/
theorem ServerKeyExchange.parse_marshal_iff {m : ServerKeyExchange} (hhint : m.identityHint = [])
    (hkey : m.publicKey.length < 2 ^ 8) (hsig : m.signature.length < 2 ^ 16) :
    (parse m.marshal = .ok m ↔ m.size ≠ 256 * m.ellipticCurveType.toByte.toNat + 2)
      ∧ (m.size = 256 * m.ellipticCurveType.toByte.toNat + 2 → parse m.marshal
        = .ok ⟨m.marshal.drop 2, .unsupported, .unsupported, [], ⟨.unsupported, .unsupported⟩,
          []⟩) := by
  have hnot : ¬ m.identityHint ≠ [] := fun h => h hhint
  have hsize : m.size = 1 + 2 + 1 + m.publicKey.length + 2 + 2 + m.signature.length :=
    if_neg hnot
  refine ⟨⟨fun hparse hlen => ?_, fun hne => ?_⟩, parse_as_hint hhint⟩
  · -- the hint that is read is not empty
    have hlong := m.length_marshal
    rw [parse_as_hint hhint hlen] at hparse
    have hrest : m.marshal.drop 2 = [] :=
      (congrArg identityHint (Except.ok.inj hparse)).trans hhint
    have hshort := List.drop_eq_nil_iff.mp hrest
    omega
  · rw [marshal, if_neg hnot, parse_curve hkey hsig (by omega), ← hhint]

/-- Of a size of 770 bytes. -/
def longKeyExchange : ServerKeyExchange where
  identityHint := []
  ellipticCurveType := .namedCurve
  namedCurve := .p256
  publicKey := [4]
  algorithm := ⟨.sha256, .ecdsa⟩
  signature := List.replicate 761 1

theorem ServerKeyExchange.parse_marshal_long :
    (parse longKeyExchange.marshal = .ok longKeyExchange ↔ longKeyExchange.size ≠ 770)
      ∧ (longKeyExchange.size = 770 → parse longKeyExchange.marshal
        = .ok ⟨longKeyExchange.marshal.drop 2, .unsupported, .unsupported, [],
          ⟨.unsupported, .unsupported⟩, []⟩)
      ∧ longKeyExchange.size = 770 := by
  have hsig : longKeyExchange.signature.length = 761 := List.length_replicate
  have hsize : longKeyExchange.size = 770 := by
    rw [size, if_neg (fun h => h rfl), hsig]
    rfl
  obtain ⟨hiff, has⟩ := parse_marshal_iff (m := longKeyExchange) rfl (by decide) (by omega)
  exact ⟨hiff, has, hsize⟩

theorem ServerKeyExchange.encodes {m : ServerKeyExchange} (h : m.Encodable) :
    Encodes (.ok m.marshal) m.size ServerKeyExchange.unmarshal m := by
  refine ⟨_, rfl, m.length_marshal, (readsAll_parsed ?_).gives⟩
  unfold Encodable at h
  split at h
  · rename_i hhint
    obtain ⟨hlt, hm⟩ := h
    rw [marshal, if_pos hhint, parse_hint hlt, ← hm]
  · rename_i hhint
    obtain ⟨hkey, hsig, hne⟩ := h
    exact (parse_marshal_iff (not_not.mp hhint) hkey hsig).1.mpr hne

def CertificateRequest.Encodable (m : CertificateRequest) : Prop :=
  m.certificateTypes.length < 2 ^ 8 ∧ 2 * m.signatureHashAlgorithms.length < 2 ^ 16

instance (m : CertificateRequest) : Decidable m.Encodable := inferInstanceAs (Decidable (_ ∧ _))

theorem CertificateRequest.length_marshal (m : CertificateRequest) : m.marshal.length = m.size := by
  have h₁ : (m.certificateTypes.flatMap fun t => writeU8 t.toByte).length
      = m.certificateTypes.length * 1 := length_flatMap_const _ fun t => length_writeU8 t.toByte
  have h₂ := length_flatMap_const m.signatureHashAlgorithms
    (f := SignatureHashAlgorithm.marshal) (n := 2) fun _ => rfl
  simp only [marshal, List.length_append, length_writeU8, length_writeU16, h₁, h₂,
    List.length_cons, List.length_nil, size]
  omega

theorem CertificateRequest.encodes {m : CertificateRequest} (h : m.Encodable) :
    Encodes (.ok m.marshal) m.size CertificateRequest.unmarshal m := by
  have htypes : (UInt8.ofNat m.certificateTypes.length).toNat = m.certificateTypes.length :=
    UInt8.toNat_ofNat_of_lt' h.1
  refine ⟨_, rfl, m.length_marshal, ?_⟩
  refine (reads_readU8 _).bindGives ?_
  rw [htypes]
  refine (reads_counted fun t _ =>
    reads_readNamedByte (ClientCertificateType.ofByte_toByte t)).bindGives
      ((reads_readU16 _).bindGives ?_)
  rw [toNat_two_mul h.2, show (2 * m.signatureHashAlgorithms.length + 1) / 2
    = m.signatureHashAlgorithms.length by omega]
  -- the empty list of names is left
  exact ((reads_counted fun a _ => SignatureHashAlgorithm.reads_unmarshal a).gives _).map

theorem CertificateVerify.length_marshal (m : CertificateVerify) : m.marshal.length = m.size := by
  simp only [marshal, SignatureHashAlgorithm.marshal, List.length_append, length_writeU8,
    length_writeU16, size]
  omega

theorem CertificateVerify.encodes {m : CertificateVerify} (h : m.signature.length < 2 ^ 16) :
    Encodes (.ok m.marshal) m.size CertificateVerify.unmarshal m := by
  refine ⟨_, rfl, m.length_marshal, Reads.readsAll ?_ |>.gives⟩
  exact (SignatureHashAlgorithm.reads_unmarshal _).bind ((reads_readU16 _).bind
    (reads_exact _ (toNat_ofNat_of_lt h).symm).map)

/-- Either a hint or a key. -/
def ClientKeyExchange.Encodable (m : ClientKeyExchange) : Prop :=
  (m.identityHint = [] ∧ m.publicKey ≠ [] ∧ m.publicKey.length < 2 ^ 8)
    ∨ (m.publicKey = [] ∧ m.identityHint ≠ [] ∧ m.identityHint.length < 2 ^ 16)

instance (m : ClientKeyExchange) : Decidable m.Encodable := inferInstanceAs (Decidable (_ ∨ _))

theorem ClientKeyExchange.parse_hint {hint : Bytes} (hlt : hint.length < 2 ^ 16) :
    parse (writeU16 (UInt16.ofNat hint.length) ++ hint) = .ok ⟨hint, []⟩ := by
  obtain ⟨b₀, b₁, hbytes, hof⟩ := writeU16_ofNat hlt
  have hb₀ : (b₀ :: b₁ :: hint).getD 0 0 = b₀ := rfl
  have hb₁ : (b₀ :: b₁ :: hint).getD 1 0 = b₁ := rfl
  rw [hbytes, List.cons_append, List.cons_append, List.nil_append, parse, hb₀, hb₁, hof,
    if_neg (by simp), if_pos (by simp)]
  rfl

/-- The first two bytes of a key are never the length of what follows them. -/
theorem ClientKeyExchange.parse_key {key : Bytes} (hne : key ≠ []) (hlt : key.length < 2 ^ 8) :
    parse (writeU8 (UInt8.ofNat key.length) ++ key) = .ok ⟨[], key⟩ := by
  have hlen : (UInt8.ofNat key.length).toNat = key.length := UInt8.toNat_ofNat_of_lt' hlt
  obtain ⟨k, ks, rfl⟩ := List.exists_cons_of_ne_nil hne
  have hpsk : ofBE [UInt8.ofNat (k :: ks).length, k] = 256 * (k :: ks).length + k.toNat := by
    rw [ofBE, List.foldl_cons, List.foldl_cons, List.foldl_nil, hlen, Nat.mul_zero, Nat.zero_add]
  rw [writeU8, List.cons_append, List.nil_append, parse]
  simp only [List.getD_cons_zero, List.getD_cons_succ, hpsk, hlen, List.drop_succ_cons,
    List.drop_zero]
  simp only [List.length_cons]
  rw [if_neg (by omega), if_neg (by omega), if_neg (by omega)]

theorem ClientKeyExchange.length_marshal {m : ClientKeyExchange} {bs : Bytes}
    (h : m.marshal = .ok bs) : bs.length = m.size := by
  unfold marshal at h
  split at h
  · cases h
  · split at h
    · rename_i hkey
      obtain rfl := Except.ok.inj h
      rw [List.length_append, length_writeU8, size, if_pos hkey]
    · rename_i hkey
      obtain rfl := Except.ok.inj h
      rw [List.length_append, length_writeU16, size, if_neg hkey]

theorem ClientKeyExchange.encodes {m : ClientKeyExchange} (h : m.Encodable) :
    Encodes m.marshal m.size ClientKeyExchange.unmarshal m := by
  obtain ⟨hint, key⟩ := m
  rcases h with ⟨rfl, hne, hlt⟩ | ⟨rfl, hne, hlt⟩
  · have hm : marshal ⟨[], key⟩ = .ok (writeU8 (UInt8.ofNat key.length) ++ key) := by
      rw [marshal, if_neg (by simp_all), if_pos hne]
    exact ⟨_, hm, length_marshal hm, (readsAll_parsed (parse_key hne hlt)).gives⟩
  · have hm : marshal ⟨hint, []⟩ = .ok (writeU16 (UInt16.ofNat hint.length) ++ hint) := by
      rw [marshal, if_neg (by simp_all), if_neg (by simp)]
    exact ⟨_, hm, length_marshal hm, (readsAll_parsed (parse_hint hlt)).gives⟩

theorem Finished.encodes (m : Finished) :
    Encodes (.ok m.verifyData) m.size Finished.unmarshal m :=
  ⟨_, rfl, rfl, (readsAll_toEnd m.verifyData).map.gives⟩

/-! ## Any message -/

inductive HandshakeMessage where
  | clientHello (m : ClientHello)
  | serverHello (m : ServerHello)
  | helloVerifyRequest (m : HelloVerifyRequest)
  | certificate (m : Certificate)
  | serverKeyExchange (m : ServerKeyExchange)
  | certificateRequest (m : CertificateRequest)
  | serverHelloDone
  | certificateVerify (m : CertificateVerify)
  | clientKeyExchange (m : ClientKeyExchange)
  | finished (m : Finished)
deriving DecidableEq, Repr

def HandshakeMessage.handshakeType : HandshakeMessage → HandshakeType
  | .clientHello _ => .clientHello
  | .serverHello _ => .serverHello
  | .helloVerifyRequest _ => .helloVerifyRequest
  | .certificate _ => .certificate
  | .serverKeyExchange _ => .serverKeyExchange
  | .certificateRequest _ => .certificateRequest
  | .serverHelloDone => .serverHelloDone
  | .certificateVerify _ => .certificateVerify
  | .clientKeyExchange _ => .clientKeyExchange
  | .finished _ => .finished

def HandshakeMessage.size : HandshakeMessage → Nat
  | .clientHello m => m.size
  | .serverHello m => m.size
  | .helloVerifyRequest m => m.size
  | .certificate m => m.size
  | .serverKeyExchange m => m.size
  | .certificateRequest m => m.size
  | .serverHelloDone => 0
  | .certificateVerify m => m.size
  | .clientKeyExchange m => m.size
  | .finished m => m.size

def HandshakeMessage.marshal : HandshakeMessage → Except Error Bytes
  | .clientHello m => m.marshal
  | .serverHello m => .ok m.marshal
  | .helloVerifyRequest m => m.marshal
  | .certificate m => m.marshal
  | .serverKeyExchange m => .ok m.marshal
  | .certificateRequest m => .ok m.marshal
  | .serverHelloDone => .ok []
  | .certificateVerify m => .ok m.marshal
  | .clientKeyExchange m => m.marshal
  | .finished m => .ok m.verifyData

/-- Whatever is written has its size. -/
theorem HandshakeMessage.length_marshal {m : HandshakeMessage} {bs : Bytes}
    (h : m.marshal = .ok bs) : bs.length = m.size := by
  cases m with
  | clientHello m => exact ClientHello.length_marshal h
  | serverHello m => exact Except.ok.inj h ▸ m.length_marshal
  | helloVerifyRequest m => exact HelloVerifyRequest.length_marshal h
  | certificate m => exact Certificate.length_marshal h
  | serverKeyExchange m => exact Except.ok.inj h ▸ m.length_marshal
  | certificateRequest m => exact Except.ok.inj h ▸ m.length_marshal
  | serverHelloDone => exact Except.ok.inj h ▸ rfl
  | certificateVerify m => exact Except.ok.inj h ▸ m.length_marshal
  | clientKeyExchange m => exact ClientKeyExchange.length_marshal h
  | finished m => exact Except.ok.inj h ▸ rfl

structure Handshake where
  handshakeHeader : HandshakeHeader
  handshakeMessage : HandshakeMessage
deriving DecidableEq, Repr

def Handshake.new (m : HandshakeMessage) : Handshake where
  handshakeHeader := {
    handshakeType := m.handshakeType
    length := m.size % 2 ^ 32
    messageSequence := 0
    fragmentOffset := 0
    fragmentLength := m.size % 2 ^ 32 }
  handshakeMessage := m

def Handshake.marshal (h : Handshake) : Except Error Bytes := do
  let header ← h.handshakeHeader.marshal
  let message ← h.handshakeMessage.marshal
  return header ++ message

/-- The reader of a message of the type in its header. -/
def HandshakeMessage.unmarshal : HandshakeType → Reader Error HandshakeMessage
  | .clientHello => do return .clientHello (← ClientHello.unmarshal)
  | .serverHello => do return .serverHello (← ServerHello.unmarshal)
  | .helloVerifyRequest => do return .helloVerifyRequest (← HelloVerifyRequest.unmarshal)
  | .certificate => do return .certificate (← Certificate.unmarshal)
  | .serverKeyExchange => do return .serverKeyExchange (← ServerKeyExchange.unmarshal)
  | .certificateRequest => do return .certificateRequest (← CertificateRequest.unmarshal)
  | .serverHelloDone => return .serverHelloDone
  | .certificateVerify => do return .certificateVerify (← CertificateVerify.unmarshal)
  | .clientKeyExchange => do return .clientKeyExchange (← ClientKeyExchange.unmarshal)
  | .finished => do return .finished (← Finished.unmarshal)
  | .helloRequest | .invalid => refuse .errNotImplemented

def Handshake.unmarshal : Reader Error Handshake := do
  let handshakeHeader ← HandshakeHeader.unmarshal
  let handshakeMessage ← HandshakeMessage.unmarshal handshakeHeader.handshakeType
  return ⟨handshakeHeader, handshakeMessage⟩

def HandshakeMessage.Encodable : HandshakeMessage → Prop
  | .clientHello m => m.Encodable
  | .serverHello m => m.Encodable
  | .helloVerifyRequest m => m.cookie.length < 2 ^ 8
  | .certificate m => m.payloadSize < 2 ^ 24
  | .serverKeyExchange m => m.Encodable
  | .certificateRequest m => m.Encodable
  | .serverHelloDone => True
  | .certificateVerify m => m.signature.length < 2 ^ 16
  | .clientKeyExchange m => m.Encodable
  | .finished _ => True

instance : DecidablePred HandshakeMessage.Encodable
  | .clientHello m => inferInstanceAs (Decidable m.Encodable)
  | .serverHello m => inferInstanceAs (Decidable m.Encodable)
  | .helloVerifyRequest _ | .certificate _ | .certificateVerify _ => Nat.decLt _ _
  | .serverKeyExchange m => inferInstanceAs (Decidable m.Encodable)
  | .certificateRequest m => inferInstanceAs (Decidable m.Encodable)
  | .clientKeyExchange m => inferInstanceAs (Decidable m.Encodable)
  | .serverHelloDone | .finished _ => .isTrue trivial

theorem HandshakeMessage.encodes {m : HandshakeMessage} (h : m.Encodable) :
    Encodes m.marshal m.size (unmarshal m.handshakeType) m := by
  cases m with
  | clientHello m => exact (ClientHello.encodes h).map
  | serverHello m => exact (ServerHello.encodes h).map
  | helloVerifyRequest m => exact (HelloVerifyRequest.encodes h).map
  | certificate m => exact (Certificate.encodes h).map
  | serverKeyExchange m => exact (ServerKeyExchange.encodes h).map
  | certificateRequest m => exact (CertificateRequest.encodes h).map
  | serverHelloDone => exact ⟨[], rfl, rfl, (reads_pure _).readsAll.gives⟩
  | certificateVerify m => exact (CertificateVerify.encodes h).map
  | clientKeyExchange m => exact (ClientKeyExchange.encodes h).map
  | finished m => exact (Finished.encodes m).map

/-- The header names the message and has fields of 24 bits. -/
structure Handshake.Encodable (h : Handshake) : Prop where
  handshakeType : h.handshakeHeader.handshakeType = h.handshakeMessage.handshakeType
  length : h.handshakeHeader.length < 2 ^ 24
  fragmentOffset : h.handshakeHeader.fragmentOffset < 2 ^ 24
  fragmentLength : h.handshakeHeader.fragmentLength < 2 ^ 24
  message : h.handshakeMessage.Encodable

/-- What one side writes the other reads, whichever of the ten messages it is,
and it takes the bytes that the header says. -/
theorem Handshake.encodes {h : Handshake} (henc : h.Encodable) :
    Encodes h.marshal (handshakeHeaderLength + h.handshakeMessage.size) Handshake.unmarshal h := by
  obtain ⟨body, hbody, hsize, hgives⟩ := HandshakeMessage.encodes henc.message
  obtain ⟨header, hheader⟩ : ∃ header, h.handshakeHeader.marshal = .ok header :=
    ⟨_, HandshakeHeader.marshal_eq_ok.mpr
      ⟨⟨henc.length, henc.fragmentOffset, henc.fragmentLength⟩, rfl⟩⟩
  refine ⟨header ++ body, ?_, ?_, (HandshakeHeader.reads_unmarshal hheader).bindGives ?_⟩
  · rw [marshal, hheader, hbody]
    rfl
  · rw [List.length_append, HandshakeHeader.length_marshal hheader, hsize]
  · rw [henc.handshakeType]
    exact hgives.map

end Dtls

end XashProxy
