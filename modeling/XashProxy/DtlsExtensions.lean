import XashProxy.DtlsRecord

/-!
# Hello extensions

The extensions of the two hello messages and the loop that reads a buffer of
them. The loop gives every extension the rest of the buffer, keeps those it can
read and goes on by the length the extension declares; so what is read back is
what was written only if each extension declares what it takes.

Sums of `u16` wrap around, as in a release build.
-/

namespace XashProxy

namespace Dtls

open Codec

/-! ## Numbers with a name -/

inductive NamedCurve where
  | unsupported
  | p256
  | p384
  | x25519
deriving DecidableEq, Repr

def NamedCurve.toU16 : NamedCurve → UInt16
  | .unsupported => 0x0000
  | .p256 => 0x0017
  | .p384 => 0x0018
  | .x25519 => 0x001d

def NamedCurve.ofU16 (n : UInt16) : NamedCurve :=
  if n = 0x0017 then .p256
  else if n = 0x0018 then .p384
  else if n = 0x001d then .x25519
  else .unsupported

inductive SrtpProtectionProfile where
  | srtpAes128CmHmacSha1_80
  | srtpAes128CmHmacSha1_32
  | srtpAeadAes128Gcm
  | srtpAeadAes256Gcm
  | unsupported
deriving DecidableEq, Repr

def SrtpProtectionProfile.toU16 : SrtpProtectionProfile → UInt16
  | .srtpAes128CmHmacSha1_80 => 0x0001
  | .srtpAes128CmHmacSha1_32 => 0x0002
  | .srtpAeadAes128Gcm => 0x0007
  | .srtpAeadAes256Gcm => 0x0008
  | .unsupported => 0x0009

def SrtpProtectionProfile.ofU16 (n : UInt16) : SrtpProtectionProfile :=
  if n = 0x0001 then .srtpAes128CmHmacSha1_80
  else if n = 0x0002 then .srtpAes128CmHmacSha1_32
  else if n = 0x0007 then .srtpAeadAes128Gcm
  else if n = 0x0008 then .srtpAeadAes256Gcm
  else .unsupported

inductive HashAlgorithm where
  | md2
  | md5
  | sha1
  | sha224
  | sha256
  | sha384
  | sha512
  | ed25519
  | unsupported
deriving DecidableEq, Repr

def HashAlgorithm.toByte : HashAlgorithm → UInt8
  | .md2 => 0
  | .md5 => 1
  | .sha1 => 2
  | .sha224 => 3
  | .sha256 => 4
  | .sha384 => 5
  | .sha512 => 6
  | .ed25519 => 8
  | .unsupported => 9

def HashAlgorithm.ofByte (b : UInt8) : HashAlgorithm :=
  if b = 0 then .md2
  else if b = 1 then .md5
  else if b = 2 then .sha1
  else if b = 3 then .sha224
  else if b = 4 then .sha256
  else if b = 5 then .sha384
  else if b = 6 then .sha512
  else if b = 8 then .ed25519
  else .unsupported

inductive SignatureAlgorithm where
  | rsa
  | ecdsa
  | ed25519
  | unsupported
deriving DecidableEq, Repr

def SignatureAlgorithm.toByte : SignatureAlgorithm → UInt8
  | .rsa => 1
  | .ecdsa => 3
  | .ed25519 => 7
  | .unsupported => 8

def SignatureAlgorithm.ofByte (b : UInt8) : SignatureAlgorithm :=
  if b = 1 then .rsa
  else if b = 3 then .ecdsa
  else if b = 7 then .ed25519
  else .unsupported

structure SignatureHashAlgorithm where
  hash : HashAlgorithm
  signature : SignatureAlgorithm
deriving DecidableEq, Repr

@[simp] theorem NamedCurve.ofU16_toU16 (c : NamedCurve) : ofU16 c.toU16 = c := by
  cases c <;> rfl

@[simp] theorem SrtpProtectionProfile.ofU16_toU16 (p : SrtpProtectionProfile) :
    ofU16 p.toU16 = p := by
  cases p <;> rfl

@[simp] theorem HashAlgorithm.ofByte_toByte (h : HashAlgorithm) : ofByte h.toByte = h := by
  cases h <;> rfl

@[simp] theorem SignatureAlgorithm.ofByte_toByte (s : SignatureAlgorithm) :
    ofByte s.toByte = s := by
  cases s <;> rfl

/-- A 16-bit number with a name. -/
def readNamed {α : Type} (ofU16 : UInt16 → α) : Reader Error α := do
  let n ← readU16
  return ofU16 n

theorem reads_readNamed {α : Type} {ofU16 : UInt16 → α} {toU16 : α → UInt16} {a : α}
    (h : ofU16 (toU16 a) = a) : Reads (readNamed ofU16) (writeU16 (toU16 a)) a := by
  have hread := (reads_readU16 (toU16 a)).map (f := ofU16)
  rwa [h] at hread

def SignatureHashAlgorithm.marshal (a : SignatureHashAlgorithm) : Bytes :=
  writeU8 a.hash.toByte ++ writeU8 a.signature.toByte

def SignatureHashAlgorithm.unmarshal : Reader Error SignatureHashAlgorithm := do
  let hash ← readU8
  let signature ← readU8
  return ⟨.ofByte hash, .ofByte signature⟩

theorem SignatureHashAlgorithm.reads_unmarshal (a : SignatureHashAlgorithm) :
    Reads unmarshal a.marshal a := by
  refine (reads_readU8 _).bind ?_
  have h := (reads_readU8 a.signature.toByte).map
    (f := fun s => (⟨.ofByte a.hash.toByte, .ofByte s⟩ : SignatureHashAlgorithm))
  rw [SignatureAlgorithm.ofByte_toByte] at h
  rw [HashAlgorithm.ofByte_toByte] at h ⊢
  exact h

/-! ## One extension -/

inductive Extension where
  | serverName (serverName : String)
  | supportedEllipticCurves (ellipticCurves : List NamedCurve)
  | supportedPointFormats (pointFormats : List UInt8)
  | supportedSignatureAlgorithms (signatureHashAlgorithms : List SignatureHashAlgorithm)
  | useSrtp (protectionProfiles : List SrtpProtectionProfile)
  | useExtendedMasterSecret (supported : Bool)
  | renegotiationInfo (renegotiatedConnection : UInt8)
deriving DecidableEq, Repr

/-- `extension_value()` -/
def Extension.value : Extension → UInt16
  | .serverName _ => 0
  | .supportedEllipticCurves _ => 10
  | .supportedPointFormats _ => 11
  | .supportedSignatureAlgorithms _ => 13
  | .useSrtp _ => 14
  | .useExtendedMasterSecret _ => 23
  | .renegotiationInfo _ => 65281

def utf8 (s : String) : Bytes := s.toByteArray.data.toList

/-- `String::from_utf8` -/
def fromUtf8 (bs : Bytes) : Except Error String :=
  match String.fromUTF8? ⟨bs.toArray⟩ with
  | some s => .ok s
  | none => .error .utf8

/-- The number of bytes `marshal` writes. -/
def Extension.size (e : Extension) : Nat :=
  2 + match e with
    | .serverName s => 2 + 2 + 1 + 2 + (utf8 s).length
    | .supportedEllipticCurves cs => 2 + 2 + cs.length * 2
    | .supportedPointFormats fs => 2 + 1 + fs.length
    | .supportedSignatureAlgorithms as => 2 + 2 + as.length * 2
    | .useSrtp ps => 2 + 2 + ps.length * 2 + 1
    | .useExtendedMasterSecret _ => 2
    | .renegotiationInfo _ => 3

/-- What follows the two bytes of the type: the declared length and the body. -/
def Extension.marshalBody : Extension → Bytes
  | .serverName s =>
      let len := UInt16.ofNat (utf8 s).length
      writeU16 (2 + 1 + 2 + len) ++ (writeU16 (1 + 2 + len) ++ (writeU8 0
        ++ (writeU16 len ++ utf8 s)))
  | .supportedEllipticCurves cs =>
      let len := UInt16.ofNat cs.length
      writeU16 (2 + 2 * len) ++ (writeU16 (2 * len) ++ cs.flatMap fun c => writeU16 c.toU16)
  | .supportedPointFormats fs =>
      writeU16 (1 + UInt16.ofNat fs.length) ++ (writeU8 (UInt8.ofNat fs.length)
        ++ fs.flatMap writeU8)
  | .supportedSignatureAlgorithms as =>
      let len := UInt16.ofNat as.length
      writeU16 (2 + 2 * len) ++ (writeU16 (2 * len)
        ++ as.flatMap SignatureHashAlgorithm.marshal)
  | .useSrtp ps =>
      let len := UInt16.ofNat ps.length
      writeU16 (2 + 1 + 2 * len) ++ (writeU16 (2 * len)
        ++ (ps.flatMap (fun p => writeU16 p.toU16) ++ writeU8 0))
  | .useExtendedMasterSecret _ => writeU16 0
  | .renegotiationInfo r => writeU16 1 ++ writeU8 r

def Extension.marshal (e : Extension) : Bytes := writeU16 e.value ++ e.marshalBody

/-- The reader of a known extension, after its type. -/
def Extension.unmarshalBody (value : UInt16) : Reader Error Extension :=
  if value = 0 then do
    let _ ← readU16
    let _ ← readU16
    let nameType ← readU8
    if nameType ≠ 0 then refuse .errInvalidSniFormat
    else do
      let bufLen ← readU16
      let buf ← exact .io bufLen.toNat
      match fromUtf8 buf with
      | .ok name => return .serverName name
      | .error e => refuse e
  else if value = 10 then do
    let _ ← readU16
    let len ← readU16
    let curves ← counted (readNamed .ofU16) (len.toNat / 2)
    return .supportedEllipticCurves curves
  else if value = 11 then do
    let _ ← readU16
    let count ← readU8
    let formats ← counted readU8 count.toNat
    return .supportedPointFormats formats
  else if value = 13 then do
    let _ ← readU16
    let len ← readU16
    let algorithms ← counted SignatureHashAlgorithm.unmarshal (len.toNat / 2)
    return .supportedSignatureAlgorithms algorithms
  else if value = 14 then do
    let _ ← readU16
    let len ← readU16
    let profiles ← counted (readNamed .ofU16) (len.toNat / 2)
    let _ ← readU8
    return .useSrtp profiles
  else if value = 23 then do
    let _ ← readU16
    return .useExtendedMasterSecret true
  else if value = 65281 then do
    let len ← readU16
    if len ≠ 1 then refuse .errInvalidPacketLength
    else do
      let renegotiatedConnection ← readU8
      return .renegotiationInfo renegotiatedConnection
  else refuse .errInvalidExtensionType

def Extension.unmarshal : Reader Error Extension := do
  let value ← readU16
  unmarshalBody value

/-- The lengths the extension declares are its own, and its flag is the one
that is read. -/
def Extension.Fits : Extension → Prop
  | .serverName s => 5 + (utf8 s).length < 2 ^ 16
  | .supportedEllipticCurves cs => 2 + 2 * cs.length < 2 ^ 16
  | .supportedPointFormats fs => fs.length < 2 ^ 8
  | .supportedSignatureAlgorithms as => 2 + 2 * as.length < 2 ^ 16
  | .useSrtp ps => 3 + 2 * ps.length < 2 ^ 16
  | .useExtendedMasterSecret supported => supported = true
  | .renegotiationInfo _ => True

instance : DecidablePred Extension.Fits
  | .serverName _ | .supportedEllipticCurves _ | .supportedPointFormats _
  | .supportedSignatureAlgorithms _ | .useSrtp _ => Nat.decLt _ _
  | .useExtendedMasterSecret _ => instDecidableEqBool _ _
  | .renegotiationInfo _ => .isTrue trivial

@[simp] theorem length_writeU8 (b : UInt8) : (writeU8 b).length = 1 := rfl

@[simp] theorem length_writeU16 (n : UInt16) : (writeU16 n).length = 2 := length_be ..

theorem length_flatMap_const {α : Type} (xs : List α) {f : α → Bytes} {n : Nat}
    (h : ∀ x, (f x).length = n) : (xs.flatMap f).length = xs.length * n := by
  induction xs with
  | nil => rw [List.flatMap_nil, List.length_nil, List.length_nil, Nat.zero_mul]
  | cons x xs ih =>
      rw [List.flatMap_cons, List.length_append, h, ih, List.length_cons, Nat.succ_mul,
        Nat.add_comm]

theorem Extension.length_marshal (e : Extension) : e.marshal.length = e.size := by
  cases e with
  | serverName s =>
      simp only [marshal, marshalBody, size, List.length_append, length_writeU16, length_writeU8]
      omega
  | supportedEllipticCurves cs =>
      have h := length_flatMap_const cs fun c => length_writeU16 c.toU16
      simp only [marshal, marshalBody, size, List.length_append, length_writeU16, h]
      omega
  | supportedPointFormats fs =>
      have h := length_flatMap_const fs length_writeU8
      simp only [marshal, marshalBody, size, List.length_append, length_writeU16,
        length_writeU8, h]
      omega
  | supportedSignatureAlgorithms as =>
      have h := length_flatMap_const as (f := SignatureHashAlgorithm.marshal)
        (n := 2) fun _ => rfl
      simp only [marshal, marshalBody, size, List.length_append, length_writeU16, h]
      omega
  | useSrtp ps =>
      have h := length_flatMap_const ps fun p => length_writeU16 p.toU16
      simp only [marshal, marshalBody, size, List.length_append, length_writeU16,
        length_writeU8, h]
      omega
  | useExtendedMasterSecret supported => rfl
  | renegotiationInfo r => rfl

theorem toNat_ofNat_of_lt {n : Nat} (h : n < 2 ^ 16) : (UInt16.ofNat n).toNat = n :=
  UInt16.toNat_ofNat_of_lt' h

theorem toNat_two_mul {n : Nat} (h : 2 * n < 2 ^ 16) : (2 * UInt16.ofNat n).toNat = 2 * n := by
  rw [UInt16.toNat_mul, toNat_ofNat_of_lt (by omega)]
  exact Nat.mod_eq_of_lt h

theorem fromUtf8_utf8 (s : String) : fromUtf8 (utf8 s) = .ok s := by
  have hsome : String.fromUTF8? s.toByteArray = some s := by
    rw [String.fromUTF8?, dif_pos s.isValidUTF8]
    rfl
  rw [fromUtf8, utf8, Array.toArray_toList, hsome]

/-- The length an extension declares is that of the rest of it. -/
theorem Extension.declared {e : Extension} (h : e.Fits) :
    ∃ len body, e.marshalBody = writeU16 len ++ body ∧ body.length = len.toNat := by
  have htwo : (2 : UInt16).toNat = 2 := rfl
  cases e with
  | serverName s =>
      have hlt : 5 + (utf8 s).length < 2 ^ 16 := h
      refine ⟨_, _, rfl, ?_⟩
      have hlen := toNat_ofNat_of_lt (n := (utf8 s).length) (by omega)
      simp only [List.length_append, length_writeU16, length_writeU8, UInt16.toNat_add, hlen]
      have h5 : (2 : UInt16).toNat = 2 ∧ (1 : UInt16).toNat = 1 := ⟨rfl, rfl⟩
      rw [h5.1, h5.2]
      omega
  | supportedEllipticCurves cs =>
      have hlt : 2 + 2 * cs.length < 2 ^ 16 := h
      refine ⟨_, _, rfl, ?_⟩
      have hbody := length_flatMap_const cs fun c => length_writeU16 c.toU16
      rw [List.length_append, length_writeU16, hbody, UInt16.toNat_add,
        toNat_two_mul (by omega), htwo]
      omega
  | supportedPointFormats fs =>
      have hlt : fs.length < 2 ^ 8 := h
      refine ⟨_, _, rfl, ?_⟩
      have hbody := length_flatMap_const fs length_writeU8
      have hone : (1 : UInt16).toNat = 1 := rfl
      rw [List.length_append, length_writeU8, hbody, UInt16.toNat_add,
        toNat_ofNat_of_lt (by omega), hone]
      omega
  | supportedSignatureAlgorithms as =>
      have hlt : 2 + 2 * as.length < 2 ^ 16 := h
      refine ⟨_, _, rfl, ?_⟩
      have hbody := length_flatMap_const as (f := SignatureHashAlgorithm.marshal)
        (n := 2) fun _ => rfl
      rw [List.length_append, length_writeU16, hbody, UInt16.toNat_add,
        toNat_two_mul (by omega), htwo]
      omega
  | useSrtp ps =>
      have hlt : 3 + 2 * ps.length < 2 ^ 16 := h
      refine ⟨_, _, rfl, ?_⟩
      have hbody := length_flatMap_const ps fun p => length_writeU16 p.toU16
      have hthree : (2 + 1 : UInt16).toNat = 3 := rfl
      rw [List.length_append, List.length_append, length_writeU16, length_writeU8, hbody,
        UInt16.toNat_add, toNat_two_mul (by omega), hthree]
      omega
  | useExtendedMasterSecret supported => exact ⟨0, [], rfl, rfl⟩
  | renegotiationInfo r => exact ⟨1, writeU8 r, rfl, rfl⟩

theorem Extension.reads_unmarshalBody {e : Extension} (h : e.Fits) :
    Reads (unmarshalBody e.value) e.marshalBody e := by
  unfold unmarshalBody
  cases e with
  | serverName s =>
      have hlt : 5 + (utf8 s).length < 2 ^ 16 := h
      have hlen := toNat_ofNat_of_lt (n := (utf8 s).length) (by omega)
      rw [value, if_pos rfl]
      refine (reads_readU16 _).bind ((reads_readU16 _).bind ((reads_readU8 _).bind ?_))
      rw [if_neg (by decide)]
      refine (reads_readU16 _).bind ((reads_exact _ hlen.symm).last ?_)
      rw [fromUtf8_utf8]
      exact reads_pure _
  | supportedEllipticCurves cs =>
      have hlt : 2 + 2 * cs.length < 2 ^ 16 := h
      rw [value, if_neg (by decide), if_pos rfl]
      refine (reads_readU16 _).bind ((reads_readU16 _).bind ?_)
      rw [toNat_two_mul (by omega), Nat.mul_div_cancel_left _ (by decide)]
      exact (reads_counted fun c _ => reads_readNamed (NamedCurve.ofU16_toU16 c)).map
  | supportedPointFormats fs =>
      have hlt : fs.length < 2 ^ 8 := h
      rw [value, if_neg (by decide), if_neg (by decide), if_pos rfl]
      refine (reads_readU16 _).bind ((reads_readU8 _).bind ?_)
      rw [UInt8.toNat_ofNat_of_lt' hlt]
      exact (reads_counted fun f _ => reads_readU8 f).map
  | supportedSignatureAlgorithms as =>
      have hlt : 2 + 2 * as.length < 2 ^ 16 := h
      rw [value, if_neg (by decide), if_neg (by decide), if_neg (by decide), if_pos rfl]
      refine (reads_readU16 _).bind ((reads_readU16 _).bind ?_)
      rw [toNat_two_mul (by omega), Nat.mul_div_cancel_left _ (by decide)]
      exact (reads_counted fun a _ => SignatureHashAlgorithm.reads_unmarshal a).map
  | useSrtp ps =>
      have hlt : 3 + 2 * ps.length < 2 ^ 16 := h
      rw [value, if_neg (by decide), if_neg (by decide), if_neg (by decide),
        if_neg (by decide), if_pos rfl]
      refine (reads_readU16 _).bind ((reads_readU16 _).bind ?_)
      rw [toNat_two_mul (by omega), Nat.mul_div_cancel_left _ (by decide)]
      refine (reads_counted fun p _ =>
        reads_readNamed (SrtpProtectionProfile.ofU16_toU16 p)).bind ?_
      exact (reads_readU8 _).map
  | useExtendedMasterSecret supported =>
      obtain rfl : supported = true := h
      rw [value, if_neg (by decide), if_neg (by decide), if_neg (by decide),
        if_neg (by decide), if_neg (by decide), if_pos rfl]
      exact (reads_readU16 _).map
  | renegotiationInfo r =>
      rw [value, if_neg (by decide), if_neg (by decide), if_neg (by decide),
        if_neg (by decide), if_neg (by decide), if_neg (by decide), if_pos rfl]
      refine (reads_readU16 _).bind ?_
      rw [if_neg (by decide)]
      exact (reads_readU8 _).map

theorem Extension.reads_unmarshal {e : Extension} (h : e.Fits) :
    Reads unmarshal e.marshal e :=
  (reads_readU16 _).bind (reads_unmarshalBody h)

/-! ## A buffer of extensions -/

/-- The loop over the extension buffer of a hello. An extension that cannot be
read is skipped by its length; the loop indexes the length bytes of whatever
is left. -/
def readExtensions (buf : Bytes) : Except Error (List Extension) :=
  match buf with
  | [] => .ok []
  | t₀ :: t₁ :: l₀ :: l₁ :: body =>
      match readExtensions (body.drop (ofBE [l₀, l₁])) with
      | .error e => .error e
      | .ok extensions =>
          match Extension.unmarshal.run (t₀ :: t₁ :: l₀ :: l₁ :: body) with
          | .ok (extension, _) => .ok (extension :: extensions)
          | .error _ => .ok extensions
  | _ => .error .panic
termination_by buf.length
decreasing_by
  simp only [List.length_drop, List.length_cons]
  omega

/-- The walk over the buffer ends with one to three bytes left. -/
inductive Stray : Bytes → Prop where
  | short {buf : Bytes} (hpos : 0 < buf.length) (hlt : buf.length < 4) : Stray buf
  | hop {t₀ t₁ l₀ l₁ : UInt8} {body : Bytes} (h : Stray (body.drop (ofBE [l₀, l₁]))) :
      Stray (t₀ :: t₁ :: l₀ :: l₁ :: body)

theorem readExtensions_short {buf : Bytes} (hpos : 0 < buf.length) (hlt : buf.length < 4) :
    readExtensions buf = .error .panic := by
  match buf, hpos, hlt with
  | [_], _, _ => rw [readExtensions] <;> simp
  | [_, _], _, _ => rw [readExtensions] <;> simp
  | [_, _, _], _, _ => rw [readExtensions] <;> simp

/-- The loop reads every buffer but those on which it runs out of bounds. -/
theorem readExtensions_eq_error_iff {buf : Bytes} {e : Error} :
    readExtensions buf = .error e ↔ e = .panic ∧ Stray buf := by
  induction hn : buf.length using Nat.strongRecOn generalizing buf with
  | _ n ih =>
    match buf with
    | [] =>
        rw [readExtensions]
        refine ⟨nofun, fun h => ?_⟩
        cases h.2 with
        | short hpos hlt => cases hpos
    | t₀ :: t₁ :: l₀ :: l₁ :: body =>
        have hlt : (body.drop (ofBE [l₀, l₁])).length < n := by
          rw [← hn, List.length_drop]
          simp only [List.length_cons]
          omega
        have hrest := ih _ hlt rfl
        have hhop : Stray (t₀ :: t₁ :: l₀ :: l₁ :: body)
            ↔ Stray (body.drop (ofBE [l₀, l₁])) := by
          refine ⟨fun h => ?_, .hop⟩
          cases h with
          | short hpos hlt =>
              simp only [List.length_cons] at hlt
              omega
          | hop h => exact h
        rw [readExtensions, hhop, ← hrest]
        cases readExtensions (body.drop (ofBE [l₀, l₁])) with
        | error e' => rfl
        | ok extensions =>
            dsimp only
            split <;> exact ⟨nofun, nofun⟩
    | [a] =>
        rw [readExtensions_short (by simp) (by simp)]
        exact ⟨fun h => ⟨(Except.error.inj h).symm, .short (by simp) (by simp)⟩,
          fun h => by rw [h.1]⟩
    | [a, b] =>
        rw [readExtensions_short (by simp) (by simp)]
        exact ⟨fun h => ⟨(Except.error.inj h).symm, .short (by simp) (by simp)⟩,
          fun h => by rw [h.1]⟩
    | [a, b, c] =>
        rw [readExtensions_short (by simp) (by simp)]
        exact ⟨fun h => ⟨(Except.error.inj h).symm, .short (by simp) (by simp)⟩,
          fun h => by rw [h.1]⟩

/-- What can be read at a place of the buffer. -/
def Extension.readable (buf : Bytes) : Option Extension :=
  match Extension.unmarshal.run buf with
  | .ok (extension, _) => some extension
  | .error _ => none

/-- The walk over the buffer by the declared lengths comes to its end and stops
at the places `starts` on the way, each given by what is left of the buffer. -/
inductive Walk : Bytes → List Bytes → Prop where
  | done : Walk [] []
  | hop {t₀ t₁ l₀ l₁ : UInt8} {body : Bytes} {starts : List Bytes}
      (h : Walk (body.drop (ofBE [l₀, l₁])) starts) :
      Walk (t₀ :: t₁ :: l₀ :: l₁ :: body) ((t₀ :: t₁ :: l₀ :: l₁ :: body) :: starts)

/-- The loop keeps what can be read at the places where the walk stops. -/
theorem readExtensions_walk {buf : Bytes} {es : List Extension} (h : readExtensions buf = .ok es) :
    ∃ starts, Walk buf starts ∧ es = starts.filterMap Extension.readable := by
  fun_induction readExtensions buf generalizing es with
  | case1 => exact ⟨[], .done, (Except.ok.inj h).symm⟩
  | case2 t₀ t₁ l₀ l₁ body e hrest ih => cases h
  | case3 t₀ t₁ l₀ l₁ body extensions hrest extension tail hread ih =>
      obtain ⟨starts, hwalk, rfl⟩ := ih hrest
      have hsome : Extension.readable (t₀ :: t₁ :: l₀ :: l₁ :: body) = some extension := by
        rw [Extension.readable, hread]
      refine ⟨_, .hop hwalk, ?_⟩
      rw [List.filterMap_cons_some hsome]
      exact (Except.ok.inj h).symm
  | case4 t₀ t₁ l₀ l₁ body extensions hrest e hread ih =>
      obtain ⟨starts, hwalk, rfl⟩ := ih hrest
      have hnone : Extension.readable (t₀ :: t₁ :: l₀ :: l₁ :: body) = none := by
        rw [Extension.readable, hread]
      refine ⟨_, .hop hwalk, ?_⟩
      rw [List.filterMap_cons_none hnone]
      exact (Except.ok.inj h).symm
  | case5 => cases h

/-- An extension that declares its length is read, and the walk goes on
behind it. -/
theorem readExtensions_append {e : Extension} (h : e.Fits) (tail : Bytes) :
    readExtensions (e.marshal ++ tail) = (readExtensions tail).map (e :: ·) := by
  obtain ⟨len, body, hbody, hlen⟩ := Extension.declared h
  have htwo : ∀ n : UInt16, ∃ b₀ b₁, writeU16 n = [b₀, b₁] := fun n => ⟨_, _, rfl⟩
  obtain ⟨t₀, t₁, ht⟩ := htwo e.value
  obtain ⟨l₀, l₁, hl⟩ := htwo len
  have hmarshal : e.marshal = t₀ :: t₁ :: l₀ :: l₁ :: body := by
    rw [Extension.marshal, hbody, ht, hl]
    rfl
  have hdrop : (body ++ tail).drop (ofBE [l₀, l₁]) = tail := by
    rw [← hl, writeU16, ofBE_be_of_lt len.toNat_lt, ← hlen, List.drop_left]
  have hread := Extension.reads_unmarshal h tail
  rw [hmarshal] at hread ⊢
  simp only [List.cons_append] at hread ⊢
  rw [readExtensions, hdrop, hread]
  cases readExtensions tail <;> rfl

theorem readExtensions_flatMap {es : List Extension} (h : ∀ e ∈ es, e.Fits) :
    readExtensions (es.flatMap Extension.marshal) = .ok es := by
  induction es with
  | nil => rw [List.flatMap_nil, readExtensions]
  | cons e es ih =>
      rw [List.flatMap_cons, readExtensions_append (h e (List.mem_cons_self ..)),
        ih fun x hx => h x (List.mem_cons_of_mem _ hx)]
      rfl

/-- Junk after whole extensions is reached. -/
theorem Stray.append {es : List Extension} (h : ∀ e ∈ es, e.Fits) {junk : Bytes}
    (hjunk : Stray junk) : Stray (es.flatMap Extension.marshal ++ junk) := by
  have herror : readExtensions (es.flatMap Extension.marshal ++ junk) = .error .panic := by
    induction es with
    | nil => exact readExtensions_eq_error_iff.mpr ⟨rfl, hjunk⟩
    | cons e es ih =>
        rw [List.flatMap_cons, List.append_assoc,
          readExtensions_append (h e (List.mem_cons_self ..)),
          ih fun x hx => h x (List.mem_cons_of_mem _ hx)]
        rfl
  exact (readExtensions_eq_error_iff.mp herror).2

end Dtls

end XashProxy
