import XashProxy.DtlsCache
import XashProxy.Programs

/-!
# The server's flights

A server goes through the flights 0, 2, 4 and 6. Each has messages to send
(`generate`) and a rule for what it reads (`parse`), which gives the next
flight, or keeps reading, or stops with an alert.

Key generation, signatures, key derivation and certificate checks are those of
other crates; they stand here as parameters, and so do the bytes that are drawn.
-/

namespace XashProxy

namespace Dtls

open Codec Programs

inductive ClientAuthType where
  | noClientCert
  | requestClientCert
  | requireAnyClientCert
  | verifyClientCertIfGiven
  | requireAndVerifyClientCert
deriving DecidableEq, Repr

/-- The number that the checks compare. -/
def ClientAuthType.rank : ClientAuthType → Nat
  | .noClientCert => 0
  | .requestClientCert => 1
  | .requireAnyClientCert => 2
  | .verifyClientCertIfGiven => 3
  | .requireAndVerifyClientCert => 4

inductive ExtendedMasterSecretType where
  | request
  | require
  | disable
deriving DecidableEq, Repr

structure LocalCertificate where
  certificate : List Bytes
  privateKey : Bytes
deriving DecidableEq, Repr

/-- The functions of the cryptographic crates. -/
structure Crypto where
  prfPreMasterSecret (publicKey privateKey : Bytes) (curve : NamedCurve) : Except Error Bytes
  prfPskPreMasterSecret (psk : Bytes) : Bytes
  sha256 (data : Bytes) : Bytes
  prfExtendedMasterSecret (preMasterSecret sessionHash : Bytes) : Except Error Bytes
  prfMasterSecret (preMasterSecret clientRandom serverRandom : Bytes) : Except Error Bytes
  prfVerifyDataServer (masterSecret plainText : Bytes) : Except Error Bytes
  init (id : CipherSuiteId) (masterSecret clientRandom serverRandom : Bytes) : Except Error Unit
  verifyCertificateVerify (plainText : Bytes) (algorithm : SignatureHashAlgorithm)
    (signature : Bytes) (certificates : List Bytes) (insecure : Bool) : Except Error Unit
  verifyClientCert (verifier : Bytes) (certificates : List Bytes) : Except Error (List Bytes)
  selectSignatureScheme (schemes : List SignatureHashAlgorithm) (privateKey : Bytes) :
    Except Error SignatureHashAlgorithm
  generateKeySignature (clientRandom serverRandom publicKey : Bytes) (curve : NamedCurve)
    (privateKey : Bytes) : Except Error Bytes

structure HandshakeConfig where
  localPskCallback : Option (Bytes → Except Error Bytes)
  localPskIdentityHint : Option Bytes
  localCipherSuites : List CipherSuiteId
  localSignatureSchemes : List SignatureHashAlgorithm
  extendedMasterSecret : ExtendedMasterSecretType
  localSrtpProtectionProfiles : List SrtpProtectionProfile
  clientAuth : ClientAuthType
  localCertificates : List LocalCertificate
  insecureVerification : Bool
  verifyPeerCertificate : Option (List Bytes → List Bytes → Except Error Unit)
  clientCertVerifier : Option Bytes
  initialEpoch : UInt16

/-- `get_certificate`; the table of names is empty. -/
def HandshakeConfig.getCertificate (cfg : HandshakeConfig) : Except Error LocalCertificate :=
  match cfg.localCertificates with
  | [] => .error .errNoCertificates
  | certificate :: _ => .ok certificate

structure NamedCurveKeypair where
  curve : NamedCurve
  publicKey : Bytes
  privateKey : Bytes
deriving DecidableEq, Repr

/-- `generate_keypair`, with the keys that are drawn. -/
def NamedCurve.generateKeypair (curve : NamedCurve) (publicKey privateKey : Bytes) :
    Except Error NamedCurveKeypair :=
  match curve with
  | .unsupported => .error .errInvalidNamedCurve
  | curve => .ok ⟨curve, publicKey, privateKey⟩

/-- A cipher suite and the master secret it was initialised with. -/
structure CipherSuite where
  id : CipherSuiteId
  keys : Option Bytes
deriving DecidableEq, Repr

def CipherSuite.isInitialized (c : CipherSuite) : Bool := c.keys.isSome

/-- `cipher_suite_for_id` -/
def cipherSuiteForId : CipherSuiteId → Option CipherSuite
  | .unsupported => none
  | id => some ⟨id, none⟩

structure State where
  localRandom : HandshakeRandom
  remoteRandom : HandshakeRandom
  masterSecret : Bytes
  cipherSuite : Option CipherSuite
  srtpProtectionProfile : SrtpProtectionProfile
  peerCertificates : List Bytes
  identityHint : Bytes
  extendedMasterSecret : Bool
  namedCurve : NamedCurve
  localKeypair : Option NamedCurveKeypair
  cookie : Bytes
  handshakeSendSequence : Int
  handshakeRecvSequence : Int
  serverName : String
  localVerifyData : Bytes
  localKeySignature : Bytes
  peerCertificatesVerified : Bool
deriving DecidableEq, Repr

/-- `State::default()` -/
def State.default : State where
  localRandom := .default
  remoteRandom := .default
  masterSecret := []
  cipherSuite := none
  srtpProtectionProfile := .unsupported
  peerCertificates := []
  identityHint := []
  extendedMasterSecret := false
  namedCurve := .unsupported
  localKeypair := none
  cookie := []
  handshakeSendSequence := 0
  handshakeRecvSequence := 0
  serverName := ""
  localVerifyData := []
  localKeySignature := []
  peerCertificatesVerified := false

def defaultNamedCurve : NamedCurve := .x25519

def cookieLength : Nat := 20

inductive Flight where
  | flight0
  | flight2
  | flight4
  | flight6
deriving DecidableEq, Repr

/-- The alert to send and the error to stop with. -/
abbrev Fault := Option Alert × Option Error

abbrev FlightM := Prog State Fault

def fatal (description : AlertDescription) : Alert := ⟨.fatal, description⟩

/-- An alert and an error. -/
def failWith {α : Type} (description : AlertDescription) (e : Error) : FlightM α :=
  throw (some (fatal description), some e)

/-- Keep reading. -/
def keepReading {α : Type} : FlightM α := throw (none, none)

def internalError {α : Type} : FlightM α := throw (some (fatal .internalError), none)

/-- The value of another crate's function, or an alert with its error. -/
def orFail {α : Type} (description : AlertDescription) : Except Error α → FlightM α
  | .ok a => return a
  | .error e => failWith description e

def findMatching {α : Type} [DecidableEq α] (a b : List α) : Option α :=
  a.find? fun x => x ∈ b

/-! ## Flight 0 -/

def clientHelloRule (cfg : HandshakeConfig) : HandshakeCachePullRule :=
  ⟨.clientHello, cfg.initialEpoch, true, false⟩

def pullMap (cache : HandshakeCache) (seq : Int) (rules : List HandshakeCachePullRule) :
    FlightM (Int × List (HandshakeType × HandshakeMessage)) :=
  match cache.fullPullMap seq rules with
  | .ok r => return r
  | .error _ => keepReading

/-- The first curve that is implemented. -/
def pickCurve (curves : List NamedCurve) : NamedCurve :=
  (curves.find? fun curve => curve ≠ .unsupported).getD .unsupported

/-- One extension of the first hello. -/
def offer (cfg : HandshakeConfig) : Extension → FlightM Unit
  | .supportedEllipticCurves curves =>
      if curves = [] then failWith .insufficientSecurity .errNoSupportedEllipticCurves
      else modify fun s => { s with namedCurve := pickCurve curves }
  | .useSrtp profiles =>
      match findMatching profiles cfg.localSrtpProtectionProfiles with
      | some profile => modify fun s => { s with srtpProtectionProfile := profile }
      | none => failWith .insufficientSecurity .errServerNoMatchingSrtpProfile
  | .useExtendedMasterSecret _ =>
      if cfg.extendedMasterSecret ≠ .disable then
        modify fun s => { s with extendedMasterSecret := true }
      else pure ()
  | .serverName name => modify fun s => { s with serverName := name }
  | _ => pure ()

def offers (cfg : HandshakeConfig) : List Extension → FlightM Unit
  | [] => pure ()
  | extension :: extensions => do
      offer cfg extension
      offers cfg extensions

/-- The key pair is drawn once. -/
def drawKeypair (publicKey privateKey : Bytes) : FlightM Unit := do
  let s ← get
  if s.localKeypair.isNone then
    match s.namedCurve.generateKeypair publicKey privateKey with
    | .ok keypair => modify fun s => { s with localKeypair := some keypair }
    | .error e => failWith .illegalParameter e
  else pure ()

def chooseCipherSuite (cfg : HandshakeConfig) (cipherSuites : List CipherSuiteId) :
    FlightM Unit :=
  match findMatching cipherSuites cfg.localCipherSuites with
  | some id =>
      match cipherSuiteForId id with
      | some cipherSuite => modify fun s => { s with cipherSuite := some cipherSuite }
      | none => pure ()
  | none => failWith .insufficientSecurity .errCipherSuiteNoIntersection

def requireExtendedMasterSecret (cfg : HandshakeConfig) : FlightM Unit := do
  let s ← get
  if cfg.extendedMasterSecret = .require ∧ s.extendedMasterSecret = false then
    failWith .insufficientSecurity .errServerRequiredButNoClientEms
  else pure ()

/-- What flight 0 does with a hello. -/
def acceptHello (cfg : HandshakeConfig) (publicKey privateKey : Bytes) (hello : ClientHello) :
    FlightM Flight :=
  if hello.version ≠ protocolVersion1_2 then
    failWith .protocolVersion .errUnsupportedProtocolVersion
  else do
    modify fun s => { s with remoteRandom := hello.random }
    chooseCipherSuite cfg hello.cipherSuites
    offers cfg hello.extensions
    requireExtendedMasterSecret cfg
    drawKeypair publicKey privateKey
    return .flight2

def Flight0.parse (cfg : HandshakeConfig) (publicKey privateKey : Bytes)
    (cache : HandshakeCache) : FlightM Flight := do
  let (seq, msgs) ← pullMap cache 0 [clientHelloRule cfg]
  modify fun s => { s with handshakeRecvSequence := seq }
  match msgs.lookup .clientHello with
  | some (.clientHello hello) => acceptHello cfg publicKey privateKey hello
  | _ => internalError

/-- The cookie and the random bytes are drawn. -/
def Flight0.generate (cookie : { bs : Bytes // bs.length = cookieLength })
    (localRandom : HandshakeRandom) : FlightM (List Packet) := do
  modify fun s => { s with
    cookie := cookie.val
    namedCurve := defaultNamedCurve
    localRandom := localRandom }
  return []

/-! ## Flight 2 -/

/-- What flight 2 does with a hello. -/
def checkCookie (hello : ClientHello) : FlightM Flight :=
  if hello.version ≠ protocolVersion1_2 then
    failWith .protocolVersion .errUnsupportedProtocolVersion
  else if hello.cookie = [] then keepReading
  else do
    let s ← get
    if s.cookie ≠ hello.cookie then failWith .accessDenied .errCookieMismatch
    else return .flight4

/-- A hello that is not the next message may be the first one again. -/
def Flight2.parse (cfg : HandshakeConfig) (publicKey privateKey : Bytes)
    (cache : HandshakeCache) : FlightM Flight := do
  let s ← get
  match cache.fullPullMap s.handshakeRecvSequence [clientHelloRule cfg] with
  | .error _ => Flight0.parse cfg publicKey privateKey cache
  | .ok (seq, msgs) => do
      modify fun s => { s with handshakeRecvSequence := seq }
      match msgs.lookup .clientHello with
      | some (.clientHello hello) => checkCookie hello
      | _ => internalError

/-- A handshake packet of the server. -/
def handshakePacket (epoch : UInt16) (shouldEncrypt reset : Bool) (m : HandshakeMessage) :
    Packet where
  record := .new protocolVersion1_2 epoch (.handshake (.new m))
  shouldEncrypt := shouldEncrypt
  resetLocalSequenceNumber := reset

def helloVerifyPacket (cookie : Bytes) : Packet :=
  handshakePacket 0 false false (.helloVerifyRequest ⟨protocolVersion1_2, cookie⟩)

def Flight2.generate : FlightM (List Packet) := do
  modify fun s => { s with handshakeSendSequence := 0 }
  let s ← get
  return [helloVerifyPacket s.cookie]

/-! ## Flight 4 -/

/-- The rules for the messages up to the client's key exchange. -/
def transcriptRules (cfg : HandshakeConfig) : List HandshakeCachePullRule :=
  [⟨.clientHello, cfg.initialEpoch, true, false⟩,
    ⟨.serverHello, cfg.initialEpoch, false, false⟩,
    ⟨.certificate, cfg.initialEpoch, false, false⟩,
    ⟨.serverKeyExchange, cfg.initialEpoch, false, false⟩,
    ⟨.certificateRequest, cfg.initialEpoch, false, false⟩,
    ⟨.serverHelloDone, cfg.initialEpoch, false, false⟩,
    ⟨.certificate, cfg.initialEpoch, true, false⟩,
    ⟨.clientKeyExchange, cfg.initialEpoch, true, false⟩]

def clientAnswerRules (cfg : HandshakeConfig) : List HandshakeCachePullRule :=
  [⟨.certificate, cfg.initialEpoch, true, true⟩,
    ⟨.clientKeyExchange, cfg.initialEpoch, true, false⟩,
    ⟨.certificateVerify, cfg.initialEpoch, true, true⟩]

def finishedRule (cfg : HandshakeConfig) : HandshakeCachePullRule :=
  ⟨.finished, cfg.initialEpoch + 1, true, false⟩

section
variable (crypto : Crypto) (cfg : HandshakeConfig) (cache : HandshakeCache)

def takeCertificate : Option HandshakeMessage → FlightM Unit
  | none => pure ()
  | some (.certificate m) => modify fun s => { s with peerCertificates := m.certificate }
  | some _ => internalError

/-- The certificate is checked where the configuration asks for it. -/
def verifyChains (certificates : List Bytes) : FlightM (List Bytes × Bool) :=
  if cfg.clientAuth.rank ≥ ClientAuthType.verifyClientCertIfGiven.rank then
    match cfg.clientCertVerifier with
    | some verifier => do
        let chains ← orFail .badCertificate (crypto.verifyClientCert verifier certificates)
        return (chains, true)
    | none => failWith .badCertificate .errInvalidCertificate
  else return ([], false)

def verifyPeer (certificates chains : List Bytes) : FlightM Unit :=
  match cfg.verifyPeerCertificate with
  | some verify => orFail .badCertificate (verify certificates chains)
  | none => pure ()

def checkCertificateVerify : Option HandshakeMessage → FlightM Unit
  | some (.certificateVerify m) => do
      let s ← get
      if s.peerCertificates = [] then
        failWith .noCertificate .errCertificateVerifyNoCertificate
      else if m.algorithm ∉ cfg.localSignatureSchemes then
        failWith .insufficientSecurity .errNoAvailableSignatureSchemes
      else do
        orFail .badCertificate (crypto.verifyCertificateVerify
          (cache.pullAndMerge (transcriptRules cfg)) m.algorithm m.signature s.peerCertificates
          cfg.insecureVerification)
        let (chains, verified) ← verifyChains crypto cfg s.peerCertificates
        verifyPeer cfg s.peerCertificates chains
        modify fun s => { s with peerCertificatesVerified := verified }
  | some _ => internalError
  | none => do
      let s ← get
      if s.peerCertificates ≠ [] then keepReading else pure ()

def preMasterSecret (m : ClientKeyExchange) : FlightM Bytes :=
  match cfg.localPskCallback with
  | some callback => do
      let psk ← orFail .internalError (callback m.identityHint)
      modify fun s => { s with identityHint := m.identityHint }
      return crypto.prfPskPreMasterSecret psk
  | none => do
      let s ← get
      match s.localKeypair with
      | some keypair =>
          orFail .illegalParameter
            (crypto.prfPreMasterSecret m.publicKey keypair.privateKey keypair.curve)
      | none => return []

def initCipherSuite (m : ClientKeyExchange) : FlightM Unit := do
  let s ← get
  match s.cipherSuite with
  | none => pure ()
  | some cipherSuite =>
      if cipherSuite.isInitialized then pure ()
      else do
        let secret ← preMasterSecret crypto cfg m
        let serverRandom := s.localRandom.marshal
        let clientRandom := s.remoteRandom.marshal
        let masterSecret ← orFail .internalError
          (if s.extendedMasterSecret then
            crypto.prfExtendedMasterSecret secret
              (crypto.sha256 (cache.pullAndMerge (transcriptRules cfg)))
          else crypto.prfMasterSecret secret clientRandom serverRandom)
        modify fun s => { s with masterSecret := masterSecret }
        orFail .internalError (crypto.init cipherSuite.id masterSecret clientRandom serverRandom)
        modify fun s => { s with
          cipherSuite := s.cipherSuite.map fun c => { c with keys := some masterSecret } }

/-- The last check, on what the configuration asks of the client. -/
def checkClientAuth : FlightM Unit := do
  let s ← get
  match cfg.clientAuth with
  | .requireAnyClientCert =>
      if s.peerCertificates = [] then failWith .noCertificate .errClientCertificateRequired
      else pure ()
  | .verifyClientCertIfGiven =>
      if s.peerCertificates ≠ [] ∧ s.peerCertificatesVerified = false then
        failWith .badCertificate .errClientCertificateNotVerified
      else pure ()
  | .requireAndVerifyClientCert =>
      if s.peerCertificates = [] then failWith .noCertificate .errClientCertificateRequired
      else if s.peerCertificatesVerified = false then
        failWith .badCertificate .errClientCertificateNotVerified
      else pure ()
  | .noClientCert | .requestClientCert => pure ()

/-- `queued` is the cache after the reader has gone through the packets that
waited for the keys; there is none if the reader is gone. -/
def readFinished (seq : Int) (queued : Option HandshakeCache) : FlightM Flight :=
  match queued with
  | none => failWith .internalError (.other "channel closed")
  | some cache => do
      let (next, msgs) ← pullMap cache seq [finishedRule cfg]
      modify fun s => { s with handshakeRecvSequence := next }
      match msgs.lookup .finished with
      | some (.finished _) => do
          checkClientAuth cfg
          return .flight6
      | _ => internalError

/-- Flight 4 with the client's messages at hand. -/
def useAnswer (exchange : ClientKeyExchange) (verify : Option HandshakeMessage) (seq : Int)
    (queued : Option HandshakeCache) : FlightM Flight := do
  checkCertificateVerify crypto cfg cache verify
  initCipherSuite crypto cfg cache exchange
  readFinished cfg seq queued

def Flight4.parse (queued : Option HandshakeCache) : FlightM Flight := do
  let s ← get
  let (seq, msgs) ← pullMap cache s.handshakeRecvSequence (clientAnswerRules cfg)
  match msgs.lookup .clientKeyExchange with
  | some (.clientKeyExchange exchange) => do
      takeCertificate (msgs.lookup .certificate)
      useAnswer crypto cfg cache exchange (msgs.lookup .certificateVerify) seq queued
  | _ => internalError

/-- The extensions of the server's hello. -/
def serverExtensions (s : State) : List Extension :=
  [.renegotiationInfo 0]
    ++ (if (cfg.extendedMasterSecret = .request ∨ cfg.extendedMasterSecret = .require)
        ∧ s.extendedMasterSecret = true then [.useExtendedMasterSecret true] else [])
    ++ (if s.srtpProtectionProfile ≠ .unsupported then [.useSrtp [s.srtpProtectionProfile]] else [])
    ++ (if cfg.localPskCallback.isNone then
        [.supportedEllipticCurves [.p256, .x25519, .p384], .supportedPointFormats [0]] else [])

def serverHelloPacket (s : State) : Packet :=
  handshakePacket 0 false false (.serverHello {
    version := protocolVersion1_2
    random := s.localRandom
    cipherSuite := (s.cipherSuite.map CipherSuite.id).getD .unsupported
    compressionMethod := .null
    extensions := serverExtensions cfg s })

/-- The key exchange, if there is a key pair. -/
def keyExchangePackets (certificate : LocalCertificate) (algorithm : SignatureHashAlgorithm) :
    FlightM (List Packet) := do
  let s ← get
  match s.localKeypair with
  | none => return []
  | some keypair => do
      let signature ← orFail .internalError (crypto.generateKeySignature s.remoteRandom.marshal
        s.localRandom.marshal keypair.publicKey s.namedCurve certificate.privateKey)
      modify fun s => { s with localKeySignature := signature }
      return [handshakePacket 0 false false (.serverKeyExchange {
        identityHint := []
        ellipticCurveType := .namedCurve
        namedCurve := s.namedCurve
        publicKey := keypair.publicKey
        algorithm := algorithm
        signature := signature })]

def certificateRequestPackets : List Packet :=
  if cfg.clientAuth.rank > ClientAuthType.noClientCert.rank then
    [handshakePacket 0 false false
      (.certificateRequest ⟨[.rsaSign, .ecdsaSign], cfg.localSignatureSchemes⟩)]
  else []

def Flight4.generate : FlightM (List Packet) := do
  let s ← get
  let hello := serverHelloPacket cfg s
  let done := handshakePacket 0 false false .serverHelloDone
  if cfg.localPskCallback.isNone then do
    let certificate ← orFail .handshakeFailure cfg.getCertificate
    let algorithm ← orFail .insufficientSecurity
      (crypto.selectSignatureScheme cfg.localSignatureSchemes certificate.privateKey)
    let exchange ← keyExchangePackets crypto certificate algorithm
    return hello :: handshakePacket 0 false false (.certificate ⟨certificate.certificate⟩)
      :: exchange ++ certificateRequestPackets cfg ++ [done]
  else
    match cfg.localPskIdentityHint with
    | some hint =>
        return [hello, handshakePacket 0 false false (.serverKeyExchange
          ⟨hint, .unsupported, .unsupported, [], ⟨.unsupported, .unsupported⟩, []⟩), done]
    | none => return [hello, done]

/-! ## Flight 6 -/

/-- The verify data is computed once, over all messages of the handshake. -/
def computeVerifyData : FlightM Unit := do
  let s ← get
  if s.localVerifyData = [] ∧ s.cipherSuite.isSome then do
    let plainText := cache.pullAndMerge (transcriptRules cfg
      ++ [⟨.certificateVerify, cfg.initialEpoch, true, false⟩, finishedRule cfg])
    let verifyData ← orFail .internalError (crypto.prfVerifyDataServer s.masterSecret plainText)
    modify fun s => { s with localVerifyData := verifyData }
  else pure ()

def Flight6.generate : FlightM (List Packet) := do
  computeVerifyData crypto cfg cache
  let s ← get
  return [⟨.new protocolVersion1_2 0 .changeCipherSpec, false, false⟩,
    handshakePacket 1 true true (.finished ⟨s.localVerifyData⟩)]

/-- The client sent its last flight again. -/
def Flight6.parse : FlightM Flight := do
  let s ← get
  let (_, msgs) ← pullMap cache (s.handshakeRecvSequence - 1) [finishedRule cfg]
  match msgs.lookup .finished with
  | some (.finished _) => return .flight6
  | some _ => internalError
  | none => return .flight6

end

/-! ## Any flight -/

namespace Flight

def isLastSendFlight : Flight → Bool
  | .flight6 => true
  | _ => false

/-- It is the client's flight 5 that is. -/
def isLastRecvFlight : Flight → Bool := fun _ => false

def hasRetransmit : Flight → Bool
  | .flight2 => false
  | _ => true

/-- The bytes that a flight draws. -/
structure Drawn where
  cookie : { bs : Bytes // bs.length = cookieLength }
  localRandom : HandshakeRandom
  publicKey : Bytes
  privateKey : Bytes
deriving DecidableEq, Repr

def parse (crypto : Crypto) (cfg : HandshakeConfig) (drawn : Drawn) (cache : HandshakeCache)
    (queued : Option HandshakeCache) : Flight → FlightM Flight
  | .flight0 => Flight0.parse cfg drawn.publicKey drawn.privateKey cache
  | .flight2 => Flight2.parse cfg drawn.publicKey drawn.privateKey cache
  | .flight4 => Flight4.parse crypto cfg cache queued
  | .flight6 => Flight6.parse cfg cache

def generate (crypto : Crypto) (cfg : HandshakeConfig) (drawn : Drawn) (cache : HandshakeCache) :
    Flight → FlightM (List Packet)
  | .flight0 => Flight0.generate drawn.cookie drawn.localRandom
  | .flight2 => Flight2.generate
  | .flight4 => Flight4.generate crypto cfg
  | .flight6 => Flight6.generate crypto cfg cache

end Flight

end Dtls

end XashProxy
