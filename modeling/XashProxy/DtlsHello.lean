import XashProxy.DtlsExtensions

/-!
# Hello messages

The two hello messages. Their last field is a buffer of extensions, and what
the loop over it makes of the buffer decides what becomes of the message.
-/

namespace XashProxy

namespace Dtls

open Codec

/-! ## Fields -/

inductive CipherSuiteId where
  | tlsEcdheEcdsaWithAes128Ccm
  | tlsEcdheEcdsaWithAes128Ccm8
  | tlsEcdheEcdsaWithAes128GcmSha256
  | tlsEcdheRsaWithAes128GcmSha256
  | tlsEcdheEcdsaWithAes256CbcSha
  | tlsEcdheRsaWithAes256CbcSha
  | tlsPskWithAes128Ccm
  | tlsPskWithAes128Ccm8
  | tlsPskWithAes128GcmSha256
  | unsupported
deriving DecidableEq, Repr

def CipherSuiteId.toU16 : CipherSuiteId → UInt16
  | .tlsEcdheEcdsaWithAes128Ccm => 0xc0ac
  | .tlsEcdheEcdsaWithAes128Ccm8 => 0xc0ae
  | .tlsEcdheEcdsaWithAes128GcmSha256 => 0xc02b
  | .tlsEcdheRsaWithAes128GcmSha256 => 0xc02f
  | .tlsEcdheEcdsaWithAes256CbcSha => 0xc00a
  | .tlsEcdheRsaWithAes256CbcSha => 0xc014
  | .tlsPskWithAes128Ccm => 0xc0a4
  | .tlsPskWithAes128Ccm8 => 0xc0a8
  | .tlsPskWithAes128GcmSha256 => 0x00a8
  | .unsupported => 0x00a9

def CipherSuiteId.ofU16 (n : UInt16) : CipherSuiteId :=
  if n = 0xc0ac then .tlsEcdheEcdsaWithAes128Ccm
  else if n = 0xc0ae then .tlsEcdheEcdsaWithAes128Ccm8
  else if n = 0xc02b then .tlsEcdheEcdsaWithAes128GcmSha256
  else if n = 0xc02f then .tlsEcdheRsaWithAes128GcmSha256
  else if n = 0xc00a then .tlsEcdheEcdsaWithAes256CbcSha
  else if n = 0xc014 then .tlsEcdheRsaWithAes256CbcSha
  else if n = 0xc0a4 then .tlsPskWithAes128Ccm
  else if n = 0xc0a8 then .tlsPskWithAes128Ccm8
  else if n = 0x00a8 then .tlsPskWithAes128GcmSha256
  else .unsupported

inductive CompressionMethodId where
  | null
  | unsupported
deriving DecidableEq, Repr

def CompressionMethodId.toByte : CompressionMethodId → UInt8
  | .null => 0
  | .unsupported => 1

def CompressionMethodId.ofByte (b : UInt8) : CompressionMethodId :=
  if b = 0 then .null else .unsupported

@[simp] theorem CipherSuiteId.ofU16_toU16 (id : CipherSuiteId) : ofU16 id.toU16 = id := by
  cases id <;> rfl

@[simp] theorem CompressionMethodId.ofByte_toByte (id : CompressionMethodId) :
    ofByte id.toByte = id := by
  cases id <;> rfl

/-- An 8-bit number with a name. -/
def readNamedByte {α : Type} (ofByte : UInt8 → α) : Reader Error α := do
  let b ← readU8
  return ofByte b

theorem reads_readNamedByte {α : Type} {ofByte : UInt8 → α} {toByte : α → UInt8} {a : α}
    (h : ofByte (toByte a) = a) : Reads (readNamedByte ofByte) (writeU8 (toByte a)) a := by
  have hread := (reads_readU8 (toByte a)).map (f := ofByte)
  rwa [h] at hread

structure CompressionMethods where
  ids : List CompressionMethodId
deriving DecidableEq, Repr

def CompressionMethods.marshal (c : CompressionMethods) : Bytes :=
  writeU8 (UInt8.ofNat c.ids.length) ++ c.ids.flatMap fun id => writeU8 id.toByte

/-- Unknown methods are not kept. -/
def CompressionMethods.unmarshal : Reader Error CompressionMethods := do
  let count ← readU8
  let ids ← counted (readNamedByte .ofByte) count.toNat
  return ⟨ids.filter fun id => id ≠ .unsupported⟩

/-- No unknown method, and no more than fit the count. -/
def CompressionMethods.Fits (c : CompressionMethods) : Prop :=
  c.ids.length < 2 ^ 8 ∧ ∀ id ∈ c.ids, id ≠ .unsupported

instance (c : CompressionMethods) : Decidable c.Fits := inferInstanceAs (Decidable (_ ∧ _))

theorem CompressionMethods.reads_unmarshal {c : CompressionMethods} (h : c.Fits) :
    Reads unmarshal c.marshal c := by
  refine (reads_readU8 _).bind ?_
  rw [UInt8.toNat_ofNat_of_lt' h.1]
  refine (reads_counted fun id _ =>
    reads_readNamedByte (CompressionMethodId.ofByte_toByte id)).last ?_
  rw [List.filter_eq_self.mpr fun id hid => by simpa using h.2 id hid]
  exact reads_pure c

/-- The seconds since 1970 that `gmt_unix_time` stands for, and the 28 random
bytes. -/
structure HandshakeRandom where
  gmtUnixTime : Nat
  randomBytes : { bs : Bytes // bs.length = 28 }
deriving DecidableEq, Repr

/-- `HandshakeRandom::default()` -/
def HandshakeRandom.default : HandshakeRandom := ⟨0, ⟨List.replicate 28 0, rfl⟩⟩

def HandshakeRandom.marshal (r : HandshakeRandom) : Bytes :=
  be 4 (r.gmtUnixTime % 2 ^ 32) ++ r.randomBytes.val

def HandshakeRandom.unmarshal : Reader Error HandshakeRandom := do
  let secs ← uint .io 4
  let randomBytes ← sized .io 28
  return ⟨secs, randomBytes⟩

theorem HandshakeRandom.reads_unmarshal {r : HandshakeRandom} (h : r.gmtUnixTime < 2 ^ 32) :
    Reads unmarshal r.marshal r := by
  rw [marshal, Nat.mod_eq_of_lt h]
  exact (reads_uint _ h).bind (reads_sized _ _).map

structure ClientHello where
  version : ProtocolVersion
  random : HandshakeRandom
  cookie : Bytes
  cipherSuites : List CipherSuiteId
  compressionMethods : CompressionMethods
  extensions : List Extension
deriving DecidableEq, Repr

def ClientHello.size (m : ClientHello) : Nat :=
  2 + 32 + 1 + (1 + m.cookie.length) + (2 + 2 * m.cipherSuites.length)
    + (1 + m.compressionMethods.ids.length) + 2 + (m.extensions.map Extension.size).sum

/-- `marshal`, with the bytes of the extension buffer given. -/
def ClientHello.marshalWith (m : ClientHello) (extensionBuffer : Bytes) : Except Error Bytes :=
  if m.cookie.length > 255 then .error .errCookieTooLong
  else .ok (writeU8 m.version.major ++ (writeU8 m.version.minor ++ (m.random.marshal
    ++ (writeU8 0 ++ (writeU8 (UInt8.ofNat m.cookie.length) ++ (m.cookie
    ++ (writeU16 (2 * UInt16.ofNat m.cipherSuites.length)
    ++ (m.cipherSuites.flatMap (fun id => writeU16 id.toU16)
    ++ (m.compressionMethods.marshal
    ++ (writeU16 (UInt16.ofNat extensionBuffer.length) ++ extensionBuffer))))))))))

def ClientHello.marshal (m : ClientHello) : Except Error Bytes :=
  m.marshalWith (m.extensions.flatMap Extension.marshal)

/-- The end of both hello messages: the extension buffer and the loop over
it. -/
def unmarshalExtensions : Reader Error (List Extension) := do
  let extensionBufferLen ← readU16
  let extensionBuffer ← exact .io extensionBufferLen.toNat
  match readExtensions extensionBuffer with
  | .ok extensions => return extensions
  | .error e => refuse e

def ClientHello.unmarshal : Reader Error ClientHello := do
  let major ← readU8
  let minor ← readU8
  let random ← HandshakeRandom.unmarshal
  -- the session id is taken to be empty: its length byte is all that is skipped
  let _ ← readU8
  let cookieLen ← readU8
  let cookie ← exact .io cookieLen.toNat
  let cipherSuitesLen ← readU16
  let cipherSuites ← counted (readNamed .ofU16) (cipherSuitesLen.toNat / 2)
  let compressionMethods ← CompressionMethods.unmarshal
  let extensions ← unmarshalExtensions
  return ⟨⟨major, minor⟩, random, cookie, cipherSuites, compressionMethods, extensions⟩

structure ServerHello where
  version : ProtocolVersion
  random : HandshakeRandom
  cipherSuite : CipherSuiteId
  compressionMethod : CompressionMethodId
  extensions : List Extension
deriving DecidableEq, Repr

def ServerHello.size (m : ServerHello) : Nat :=
  2 + 32 + 1 + 2 + 1 + 2 + (m.extensions.map Extension.size).sum

def ServerHello.marshal (m : ServerHello) : Bytes :=
  let extensionBuffer := m.extensions.flatMap Extension.marshal
  writeU8 m.version.major ++ (writeU8 m.version.minor ++ (m.random.marshal
    ++ (writeU8 0 ++ (writeU16 m.cipherSuite.toU16 ++ (writeU8 m.compressionMethod.toByte
    ++ (writeU16 (UInt16.ofNat extensionBuffer.length) ++ extensionBuffer))))))

def ServerHello.unmarshal : Reader Error ServerHello := do
  let major ← readU8
  let minor ← readU8
  let random ← HandshakeRandom.unmarshal
  let sessionIdLen ← readU8
  let _ ← exact .io sessionIdLen.toNat
  let cipherSuite ← readNamed .ofU16
  let compressionMethod ← readNamedByte .ofByte
  let extensions ← unmarshalExtensions
  return ⟨⟨major, minor⟩, random, cipherSuite, compressionMethod, extensions⟩

theorem reads_unmarshalExtensions {buf : Bytes} {es : List Extension}
    (hlt : buf.length < 2 ^ 16) (h : readExtensions buf = .ok es) :
    Reads unmarshalExtensions (writeU16 (UInt16.ofNat buf.length) ++ buf) es := by
  refine (reads_readU16 _).bind
    ((reads_exact _ (toNat_ofNat_of_lt hlt).symm).last ?_)
  rw [h]
  exact reads_pure es

/-- The parts of a hello before its extensions fit their length fields. -/
structure ClientHello.Fits (m : ClientHello) : Prop where
  time : m.random.gmtUnixTime < 2 ^ 32
  cookie : m.cookie.length < 2 ^ 8
  suites : 2 * m.cipherSuites.length < 2 ^ 16
  compression : m.compressionMethods.Fits

instance (m : ClientHello) : Decidable m.Fits :=
  decidable_of_iff (m.random.gmtUnixTime < 2 ^ 32 ∧ m.cookie.length < 2 ^ 8
      ∧ 2 * m.cipherSuites.length < 2 ^ 16 ∧ m.compressionMethods.Fits)
    ⟨fun ⟨ht, hc, hs, hm⟩ => ⟨ht, hc, hs, hm⟩,
      fun h => ⟨h.time, h.cookie, h.suites, h.compression⟩⟩

theorem ClientHello.marshalWith_of_fits {m : ClientHello} (h : m.Fits) (buf : Bytes) :
    m.marshalWith buf = .ok (writeU8 m.version.major ++ (writeU8 m.version.minor
      ++ (m.random.marshal ++ (writeU8 0 ++ (writeU8 (UInt8.ofNat m.cookie.length) ++ (m.cookie
      ++ (writeU16 (2 * UInt16.ofNat m.cipherSuites.length)
      ++ (m.cipherSuites.flatMap (fun id => writeU16 id.toU16)
      ++ (m.compressionMethods.marshal
      ++ (writeU16 (UInt16.ofNat buf.length) ++ buf)))))))))) := by
  have hcookie := h.cookie
  rw [marshalWith, if_neg (by omega)]

/-- A hello with any extension buffer is read up to the buffer, and the loop
over the buffer decides what becomes of it. -/
theorem ClientHello.reads_unmarshal {m : ClientHello} (h : m.Fits) {buf bs : Bytes}
    (hlt : buf.length < 2 ^ 16) (hm : m.marshalWith buf = .ok bs) {es : List Extension}
    (hes : readExtensions buf = .ok es) : Reads unmarshal bs { m with extensions := es } := by
  rw [marshalWith_of_fits h] at hm
  obtain rfl := Except.ok.inj hm
  have hcookie : (UInt8.ofNat m.cookie.length).toNat = m.cookie.length :=
    UInt8.toNat_ofNat_of_lt' h.cookie
  refine (reads_readU8 _).bind ((reads_readU8 _).bind
    ((HandshakeRandom.reads_unmarshal h.time).bind ((reads_readU8 _).bind
      ((reads_readU8 _).bind ((reads_exact _ hcookie.symm).bind ((reads_readU16 _).bind ?_))))))
  rw [toNat_two_mul h.suites, Nat.mul_div_cancel_left _ (by decide)]
  exact (reads_counted fun id _ => reads_readNamed (CipherSuiteId.ofU16_toU16 id)).bind
    ((CompressionMethods.reads_unmarshal h.compression).bind
      (reads_unmarshalExtensions hlt hes).map)

theorem fails_unmarshalExtensions {buf : Bytes} {e : Error} (hlt : buf.length < 2 ^ 16)
    (h : readExtensions buf = .error e) :
    Fails unmarshalExtensions (writeU16 (UInt16.ofNat buf.length) ++ buf) e := by
  refine (reads_readU16 _).bindFails
    ((reads_exact _ (toNat_ofNat_of_lt hlt).symm).lastFails ?_)
  rw [h]
  exact fails_refuse e

theorem ClientHello.fails_unmarshal {m : ClientHello} (h : m.Fits) {buf bs : Bytes}
    (hlt : buf.length < 2 ^ 16) (hm : m.marshalWith buf = .ok bs) {e : Error}
    (hes : readExtensions buf = .error e) : Fails unmarshal bs e := by
  rw [marshalWith_of_fits h] at hm
  obtain rfl := Except.ok.inj hm
  have hcookie : (UInt8.ofNat m.cookie.length).toNat = m.cookie.length :=
    UInt8.toNat_ofNat_of_lt' h.cookie
  refine (reads_readU8 _).bindFails ((reads_readU8 _).bindFails
    ((HandshakeRandom.reads_unmarshal h.time).bindFails ((reads_readU8 _).bindFails
      ((reads_readU8 _).bindFails ((reads_exact _ hcookie.symm).bindFails
        ((reads_readU16 _).bindFails ?_))))))
  rw [toNat_two_mul h.suites, Nat.mul_div_cancel_left _ (by decide)]
  exact (reads_counted fun id _ => reads_readNamed (CipherSuiteId.ofU16_toU16 id)).bindFails
    ((CompressionMethods.reads_unmarshal h.compression).bindFails
      (fails_unmarshalExtensions hlt hes).bind)

/-- A client can stop the thread that reads its hello: it does so exactly with
an extension buffer on which the walk is left with one to three bytes. Of every
other buffer it keeps what can be read at the places where the walk stops. -/
theorem ClientHello.unmarshal_panics_iff {m : ClientHello} (h : m.Fits) {buf bs : Bytes}
    (hlt : buf.length < 2 ^ 16) (hm : m.marshalWith buf = .ok bs) (tail : Bytes) :
    (unmarshal.run (bs ++ tail) = .error .panic ↔ Stray buf)
      ∧ (¬ Stray buf → ∃ starts, Walk buf starts ∧ unmarshal.run (bs ++ tail)
        = .ok ({ m with extensions := starts.filterMap Extension.readable }, tail)) := by
  cases hread : readExtensions buf with
  | error e =>
      obtain ⟨rfl, hstray⟩ := readExtensions_eq_error_iff.mp hread
      have hfails := fails_unmarshal h hlt hm hread tail
      exact ⟨⟨fun _ => hstray, fun _ => hfails⟩, fun hnot => absurd hstray hnot⟩
  | ok es =>
      have hok := reads_unmarshal h hlt hm hread tail
      have hnot : ¬ Stray buf := by
        intro hstray
        rw [readExtensions_eq_error_iff.mpr ⟨rfl, hstray⟩] at hread
        cases hread
      obtain ⟨starts, hwalk, rfl⟩ := readExtensions_walk hread
      refine ⟨⟨fun hpanic => ?_, fun hstray => absurd hstray hnot⟩, fun _ => ⟨starts, hwalk, hok⟩⟩
      rw [hok] at hpanic
      cases hpanic

/-- A hello that offers nothing. -/
def emptyHello : ClientHello where
  version := protocolVersion1_2
  random := .default
  cookie := []
  cipherSuites := []
  compressionMethods := ⟨[.null]⟩
  extensions := []

/-- One stray byte after a whole extension is enough. -/
theorem ClientHello.unmarshal_panics_stray :
    ∃ bs, emptyHello.marshalWith [0, 23, 0, 0, 0] = .ok bs
      ∧ unmarshal.run (bs ++ []) = .error .panic := by
  have hfits : emptyHello.Fits := ⟨by decide, by decide, by decide, by decide, by decide⟩
  have hstray : Stray [0, 23, 0, 0, 0] := .hop (.short (by decide) (by decide))
  exact ⟨_, rfl, (unmarshal_panics_iff hfits (by decide) rfl []).1.mpr hstray⟩

theorem sum_size_extensions (es : List Extension) :
    (es.flatMap Extension.marshal).length = (es.map Extension.size).sum := by
  rw [List.length_flatMap]
  congr 1
  exact List.map_congr_left fun e _ => e.length_marshal

theorem HandshakeRandom.length_marshal (r : HandshakeRandom) : r.marshal.length = 32 := by
  rw [marshal, List.length_append, length_be, r.randomBytes.property]

theorem CompressionMethods.length_marshal (c : CompressionMethods) :
    c.marshal.length = 1 + c.ids.length := by
  have hids : (c.ids.flatMap fun id => writeU8 id.toByte).length = c.ids.length * 1 :=
    length_flatMap_const _ fun id => length_writeU8 id.toByte
  rw [marshal, List.length_append, length_writeU8, hids, Nat.mul_one]

theorem ClientHello.length_marshal {m : ClientHello} {bs : Bytes} (h : m.marshal = .ok bs) :
    bs.length = m.size := by
  unfold marshal marshalWith at h
  split at h
  · cases h
  · obtain rfl := Except.ok.inj h
    have hids : (m.cipherSuites.flatMap fun id => writeU16 id.toU16).length
        = m.cipherSuites.length * 2 := length_flatMap_const _ fun id => length_writeU16 id.toU16
    simp only [List.length_append, length_writeU8, length_writeU16,
      HandshakeRandom.length_marshal, CompressionMethods.length_marshal, sum_size_extensions,
      hids, size]
    omega

theorem ServerHello.length_marshal (m : ServerHello) : m.marshal.length = m.size := by
  simp only [marshal, List.length_append, length_writeU8, length_writeU16,
    HandshakeRandom.length_marshal, sum_size_extensions, size]
  omega

theorem ServerHello.reads_unmarshal {m : ServerHello} (htime : m.random.gmtUnixTime < 2 ^ 32)
    (hlt : (m.extensions.flatMap Extension.marshal).length < 2 ^ 16)
    (hes : ∀ e ∈ m.extensions, e.Fits) : Reads unmarshal m.marshal m := by
  refine (reads_readU8 _).bind ((reads_readU8 _).bind
    ((HandshakeRandom.reads_unmarshal htime).bind ((reads_readU8 _).bind ?_)))
  have hnone : Reads (exact Error.io 0) [] [] := reads_exact _ rfl
  refine hnone.bind
    ((reads_readNamed (CipherSuiteId.ofU16_toU16 _)).bind
      ((reads_readNamedByte (CompressionMethodId.ofByte_toByte _)).bind ?_))
  exact (reads_unmarshalExtensions hlt (readExtensions_flatMap hes)).map

end Dtls

end XashProxy
