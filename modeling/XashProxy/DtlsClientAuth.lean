import XashProxy.DtlsNegotiation

/-!
# The client's answer

In flight 4 the server has said who it is and waits for the client's key, its
`Finished` and, where the configuration asks for one, its certificate. A
certificate counts only with a signature over the messages so far.
-/

namespace XashProxy

namespace Dtls

open Codec Programs

/-- The checks on a client's certificates and its `CertificateVerify`. -/
structure Signed (crypto : Crypto) (cfg : HandshakeConfig) (transcript : Bytes)
    (m : CertificateVerify) (certificates : List Bytes) : Prop where
  scheme : m.algorithm ∈ cfg.localSignatureSchemes
  signature : crypto.verifyCertificateVerify transcript m.algorithm m.signature certificates
    cfg.insecureVerification = .ok ()
  chains : ∃ chains,
    (ClientAuthType.verifyClientCertIfGiven.rank ≤ cfg.clientAuth.rank → ∃ verifier,
      cfg.clientCertVerifier = some verifier
        ∧ crypto.verifyClientCert verifier certificates = .ok chains)
    ∧ ∀ verify, cfg.verifyPeerCertificate = some verify → verify certificates chains = .ok ()

/-- The certificates of a client that the server goes on with. There may be none
unless the configuration requires one; otherwise they are the ones of a
`Certificate` of the client, and it signed with them. -/
def Authorised (crypto : Crypto) (cfg : HandshakeConfig) (cache : HandshakeCache)
    (certificates : List Bytes) : Prop :=
  (certificates = [] ∧ cfg.clientAuth ≠ .requireAnyClientCert
      ∧ cfg.clientAuth ≠ .requireAndVerifyClientCert)
    ∨ (certificates ≠ []
      ∧ (∃ seq, cache.FromClient cfg.initialEpoch seq (.certificate ⟨certificates⟩))
      ∧ ∃ seq m, cache.FromClient cfg.initialEpoch seq (.certificateVerify m)
        ∧ Signed crypto cfg (cache.pullAndMerge (transcriptRules cfg)) m certificates)

section
variable {crypto : Crypto} {cfg : HandshakeConfig} {cache : HandshakeCache} {s s' : State}

theorem exec_orFail_eq_ok {α : Type} {description : AlertDescription} {r : Except Error α} {a : α}
    (h : exec (orFail description r) s = (.ok a, s')) : r = .ok a ∧ s = s' := by
  cases r with
  | ok b =>
      obtain ⟨rfl, rfl⟩ := exec_pure_eq_ok.mp h
      exact ⟨rfl, rfl⟩
  | error e => exact (exec_failWith_eq_ok.mp h).elim

theorem takeCertificate_spec {m : Option HandshakeMessage}
    (h : exec (takeCertificate m) s = (.ok (), s')) :
    (m = none ∧ s' = s)
      ∨ ∃ c, m = some (.certificate c) ∧ s' = { s with peerCertificates := c.certificate } := by
  unfold takeCertificate at h
  split at h
  · obtain ⟨-, rfl⟩ := exec_pure_eq_ok.mp h
    exact .inl ⟨rfl, rfl⟩
  · exact .inr ⟨_, rfl, (exec_modify_eq_ok.mp h).symm⟩
  · exact (exec_throw_eq_ok.mp h).elim

theorem verifyChains_spec {certificates : List Bytes} {chains : List Bytes} {verified : Bool}
    (h : exec (verifyChains crypto cfg certificates) s = (.ok (chains, verified), s')) :
    s = s' ∧ (verified = true ↔
        ClientAuthType.verifyClientCertIfGiven.rank ≤ cfg.clientAuth.rank)
      ∧ (ClientAuthType.verifyClientCertIfGiven.rank ≤ cfg.clientAuth.rank → ∃ verifier,
        cfg.clientCertVerifier = some verifier
          ∧ crypto.verifyClientCert verifier certificates = .ok chains) := by
  unfold verifyChains at h
  split at h
  · rename_i hrank
    split at h
    · rename_i verifier hverifier
      obtain ⟨_, _, hverify, h⟩ := exec_bind_eq_ok.mp h
      obtain ⟨hok, rfl⟩ := exec_orFail_eq_ok hverify
      obtain ⟨heq, rfl⟩ := exec_pure_eq_ok.mp h
      obtain ⟨rfl, rfl⟩ := Prod.mk.inj heq
      exact ⟨rfl, iff_of_true rfl hrank, fun _ => ⟨verifier, hverifier, hok⟩⟩
    · exact (exec_failWith_eq_ok.mp h).elim
  · rename_i hrank
    obtain ⟨heq, rfl⟩ := exec_pure_eq_ok.mp h
    obtain ⟨rfl, rfl⟩ := Prod.mk.inj heq
    exact ⟨rfl, iff_of_false Bool.false_ne_true hrank, fun hle => absurd hle hrank⟩

theorem verifyPeer_spec {certificates chains : List Bytes}
    (h : exec (verifyPeer cfg certificates chains) s = (.ok (), s')) :
    s = s' ∧ ∀ verify, cfg.verifyPeerCertificate = some verify →
      verify certificates chains = .ok () := by
  unfold verifyPeer at h
  split at h
  · rename_i verify hverify
    obtain ⟨hok, rfl⟩ := exec_orFail_eq_ok h
    refine ⟨rfl, fun verify' hverify' => ?_⟩
    obtain rfl : verify = verify' := Option.some.inj (hverify.symm.trans hverify')
    exact hok
  · rename_i hnone
    obtain ⟨-, rfl⟩ := exec_pure_eq_ok.mp h
    exact ⟨rfl, fun verify hverify =>
      absurd (hnone.symm.trans hverify) (Option.some_ne_none _).symm⟩

/-- Going on without a signature takes a client without a certificate. -/
theorem checkCertificateVerify_spec {m : Option HandshakeMessage}
    (h : exec (checkCertificateVerify crypto cfg cache m) s = (.ok (), s')) :
    (s.peerCertificates = [] ∧ s' = s) ∨ ∃ v, m = some (.certificateVerify v)
      ∧ s.peerCertificates ≠ []
      ∧ Signed crypto cfg (cache.pullAndMerge (transcriptRules cfg)) v s.peerCertificates
      ∧ s' = { s with
          peerCertificatesVerified :=
            (decide (ClientAuthType.verifyClientCertIfGiven.rank ≤ cfg.clientAuth.rank)) } := by
  unfold checkCertificateVerify at h
  split at h
  · rename_i v
    obtain ⟨_, _, hget, h⟩ := exec_bind_eq_ok.mp h
    obtain ⟨rfl, rfl⟩ := exec_get_eq_ok.mp hget
    split at h
    · exact (exec_failWith_eq_ok.mp h).elim
    rename_i hgiven
    split at h
    · exact (exec_failWith_eq_ok.mp h).elim
    rename_i hscheme
    obtain ⟨_, _, hsig, h⟩ := exec_bind_eq_ok.mp h
    obtain ⟨hsignature, rfl⟩ := exec_orFail_eq_ok hsig
    obtain ⟨⟨chains, verified⟩, _, hchains, h⟩ := exec_bind_eq_ok.mp h
    obtain ⟨rfl, hverified, hok⟩ := verifyChains_spec hchains
    obtain ⟨_, _, hpeer, h⟩ := exec_bind_eq_ok.mp h
    obtain ⟨rfl, hasked⟩ := verifyPeer_spec hpeer
    obtain rfl := exec_modify_eq_ok.mp h
    refine .inr ⟨v, rfl, hgiven, ⟨not_not.mp hscheme, hsignature, chains, hok, hasked⟩, ?_⟩
    rw [Bool.eq_iff_iff.mpr (hverified.trans decide_eq_true_iff.symm)]
  · exact (exec_throw_eq_ok.mp h).elim
  · obtain ⟨_, _, hget, h⟩ := exec_bind_eq_ok.mp h
    obtain ⟨rfl, rfl⟩ := exec_get_eq_ok.mp hget
    split at h
    · exact (exec_throw_eq_ok.mp h).elim
    · rename_i hnone
      obtain ⟨-, rfl⟩ := exec_pure_eq_ok.mp h
      exact .inl ⟨not_not.mp hnone, rfl⟩

theorem checkClientAuth_spec (h : exec (checkClientAuth cfg) s = (.ok (), s')) :
    s' = s ∧ (cfg.clientAuth = .requireAnyClientCert → s.peerCertificates ≠ [])
      ∧ (cfg.clientAuth = .requireAndVerifyClientCert → s.peerCertificates ≠ []) := by
  unfold checkClientAuth at h
  obtain ⟨_, _, hget, h⟩ := exec_bind_eq_ok.mp h
  obtain ⟨rfl, rfl⟩ := exec_get_eq_ok.mp hget
  split at h
  all_goals rename_i hauth
  · split at h
    · exact (exec_failWith_eq_ok.mp h).elim
    · rename_i hgiven
      obtain ⟨-, rfl⟩ := exec_pure_eq_ok.mp h
      exact ⟨rfl, fun _ => hgiven, fun h => by simp [hauth] at h⟩
  · split at h
    · exact (exec_failWith_eq_ok.mp h).elim
    · obtain ⟨-, rfl⟩ := exec_pure_eq_ok.mp h
      exact ⟨rfl, fun h => by simp [hauth] at h, fun h => by simp [hauth] at h⟩
  · split at h
    · exact (exec_failWith_eq_ok.mp h).elim
    · rename_i hgiven
      split at h
      · exact (exec_failWith_eq_ok.mp h).elim
      · obtain ⟨-, rfl⟩ := exec_pure_eq_ok.mp h
        exact ⟨rfl, fun h => by simp [hauth] at h, fun _ => hgiven⟩
  all_goals
    obtain ⟨-, rfl⟩ := exec_pure_eq_ok.mp h
    exact ⟨rfl, fun h => by simp [hauth] at h, fun h => by simp [hauth] at h⟩

/-! ## What the answer leaves alone -/

/-- The state without what flights 4 and 6 set. -/
def State.settled (s : State) : State :=
  { s with
    masterSecret := []
    cipherSuite := s.cipherSuite.map fun c => ⟨c.id, none⟩
    peerCertificates := []
    identityHint := []
    handshakeRecvSequence := 0
    localVerifyData := []
    localKeySignature := []
    peerCertificatesVerified := false }

/-- The settled state without its next message number. -/
def State.agreed (s : State) : State := { s.settled with handshakeSendSequence := 0 }

theorem Negotiated.of_agreed {hello : ClientHello} (h : s'.agreed = s.agreed)
    (hneg : Negotiated cfg hello s) : Negotiated cfg hello s' := by
  have hrandom := congrArg State.remoteRandom h
  have hems := congrArg State.extendedMasterSecret h
  have hsrtp := congrArg State.srtpProtectionProfile h
  have hcurve := congrArg State.namedCurve h
  have hpair := congrArg State.localKeypair h
  have hsuite : s'.cipherSuite.map CipherSuite.id = s.cipherSuite.map CipherSuite.id := by
    have hid : ∀ t : State,
        t.agreed.cipherSuite.map CipherSuite.id = t.cipherSuite.map CipherSuite.id := fun t => by
      simp only [State.agreed, State.settled, Option.map_map]
      rfl
    rw [← hid s', ← hid s, h]
  change s'.remoteRandom = s.remoteRandom at hrandom
  change s'.extendedMasterSecret = s.extendedMasterSecret at hems
  change s'.srtpProtectionProfile = s.srtpProtectionProfile at hsrtp
  change s'.namedCurve = s.namedCurve at hcurve
  change s'.localKeypair = s.localKeypair at hpair
  obtain ⟨hversion, hr, hc, he, hq, hs, hn, hu, hk⟩ := hneg
  rw [← hrandom] at hr
  rw [← hsuite] at hc
  rw [← hems] at he hq
  rw [← hsrtp] at hs
  rw [← hcurve] at hn hu hk
  rw [← hpair] at hk
  exact ⟨hversion, hr, hc, he, hq, hs, hn, hu, hk⟩

/-- What stands once the certificate has been taken. -/
def State.certified (s : State) : State × List Bytes := (s.settled, s.peerCertificates)

theorem keeps_orFail {γ α : Type} (f : State → γ) (description : AlertDescription)
    (r : Except Error α) : Keeps f (orFail description r) := by
  cases r with
  | ok a => exact Keeps.pure a
  | error e => exact Keeps.throw _

theorem keeps_takeCertificate (m : Option HandshakeMessage) :
    Keeps State.settled (takeCertificate m) := by
  unfold takeCertificate
  split
  · exact Keeps.pure ()
  · exact Keeps.modify fun _ => rfl
  · exact Keeps.throw _

theorem keeps_checkCertificateVerify (m : Option HandshakeMessage) :
    Keeps State.certified (checkCertificateVerify crypto cfg cache m) := by
  unfold checkCertificateVerify
  split
  · refine Keeps.get.bind fun s => ?_
    split
    · exact Keeps.throw _
    split
    · exact Keeps.throw _
    refine (keeps_orFail _ _ _).bind fun _ => Keeps.bind ?_ fun ⟨_, _⟩ => Keeps.bind ?_ fun _ =>
      Keeps.modify fun _ => rfl
    · unfold verifyChains
      split
      · split
        · exact (keeps_orFail _ _ _).bind fun _ => Keeps.pure _
        · exact Keeps.throw _
      · exact Keeps.pure _
    · unfold verifyPeer
      split
      · exact keeps_orFail _ _ _
      · exact Keeps.pure ()
  · exact Keeps.throw _
  · refine Keeps.get.bind fun s => ?_
    split
    · exact Keeps.throw _
    · exact Keeps.pure ()

theorem keeps_preMasterSecret (m : ClientKeyExchange) :
    Keeps State.certified (preMasterSecret crypto cfg m) := by
  unfold preMasterSecret
  split
  · refine (keeps_orFail _ _ _).bind fun _ => Keeps.bind (Keeps.modify ?_) fun _ => Keeps.pure _
    exact fun _ => rfl
  · refine Keeps.get.bind fun s => ?_
    split
    · exact keeps_orFail _ _ _
    · exact Keeps.pure _

theorem keeps_initCipherSuite (m : ClientKeyExchange) :
    Keeps State.certified (initCipherSuite crypto cfg cache m) := by
  refine Keeps.get.bind fun s => ?_
  split
  · exact Keeps.pure ()
  split
  · exact Keeps.pure ()
  refine (keeps_preMasterSecret m).bind fun secret => (keeps_orFail _ _ _).bind fun _ =>
    Keeps.bind (Keeps.modify ?_) fun _ => (keeps_orFail _ _ _).bind fun _ => Keeps.modify ?_
  · exact fun _ => rfl
  · intro s
    simp only [State.certified, State.settled, Option.map_map]
    rfl

theorem keeps_checkClientAuth {γ : Type} (f : State → γ) : Keeps f (checkClientAuth cfg) := by
  refine Keeps.get.bind fun s => ?_
  repeat' split
  all_goals first | exact Keeps.throw _ | exact Keeps.pure _

theorem keeps_readFinished (seq : Int) (queued : Option HandshakeCache) :
    Keeps State.certified (readFinished cfg seq queued) := by
  unfold readFinished
  split
  · exact Keeps.throw _
  refine (keeps_pullMap _ _ _ _).bind fun ⟨_, _⟩ => Keeps.bind (Keeps.modify ?_) fun _ => ?_
  · exact fun _ => rfl
  split
  · exact (keeps_checkClientAuth _).bind fun _ => Keeps.pure _
  · exact Keeps.throw _

theorem keeps_useAnswer (exchange : ClientKeyExchange) (verify : Option HandshakeMessage)
    (seq : Int) (queued : Option HandshakeCache) :
    Keeps State.certified (useAnswer crypto cfg cache exchange verify seq queued) :=
  (keeps_checkCertificateVerify verify).bind fun _ =>
    (keeps_initCipherSuite exchange).bind fun _ => keeps_readFinished seq queued

theorem keeps_settled {α : Type} {m : FlightM α} (h : Keeps State.certified m) :
    Keeps State.settled m := fun s => congrArg Prod.fst (h s)

theorem keeps_parse4 (queued : Option HandshakeCache) :
    Keeps State.settled (Flight4.parse crypto cfg cache queued) := by
  refine Keeps.get.bind fun s => (keeps_pullMap _ _ _ _).bind fun ⟨_, _⟩ => ?_
  dsimp only
  split
  · exact (keeps_takeCertificate _).bind fun _ => keeps_settled (keeps_useAnswer _ _ _ _)
  · exact Keeps.throw _

/-! ## Certificates come from the client -/

def CertificatesFrom (cfg : HandshakeConfig) (cache : HandshakeCache) (certificates : List Bytes) :
    Prop :=
  certificates = [] ∨ ∃ seq, cache.FromClient cfg.initialEpoch seq (.certificate ⟨certificates⟩)

theorem fromClient_answer (hkept : cache.Kept) {seq next : Int}
    {msgs : List (HandshakeType × HandshakeMessage)}
    (h : cache.fullPullMap seq (clientAnswerRules cfg) = .ok (next, msgs)) {t : HandshakeType}
    {m : HandshakeMessage} (hm : msgs.lookup t = some m) :
    ∃ n, cache.FromClient cfg.initialEpoch n m := by
  have hclient : ∀ r ∈ clientAnswerRules cfg, r.isClient = true ∧ r.epoch = cfg.initialEpoch := by
    simp [clientAnswerRules]
  obtain ⟨n, -, -, hfrom⟩ := HandshakeCache.fromClient_of_fullPullMap hkept hclient h hm
  exact ⟨_, hfrom⟩

theorem takeCertificate_error {m : Option HandshakeMessage} {f : Fault}
    (h : exec (takeCertificate m) s = (.error f, s')) : s = s' := by
  unfold takeCertificate at h
  split at h
  · exact (exec_pure_eq_error.mp h).elim
  · exact (exec_modify_eq_error.mp h).elim
  · exact (exec_throw_eq_error.mp h).2

theorem takeCertificate_from (hkept : cache.Kept) {seq next : Int}
    {msgs : List (HandshakeType × HandshakeMessage)}
    (hmap : cache.fullPullMap seq (clientAnswerRules cfg) = .ok (next, msgs))
    (hs : CertificatesFrom cfg cache s.peerCertificates)
    (h : exec (takeCertificate (msgs.lookup .certificate)) s = (.ok (), s')) :
    CertificatesFrom cfg cache s'.peerCertificates := by
  rcases takeCertificate_spec h with ⟨-, rfl⟩ | ⟨c, hlookup, rfl⟩
  · exact hs
  · exact .inr (fromClient_answer hkept hmap hlookup)

/-- Reading in flight 4, however it ends. -/
theorem Flight4.certificates_parse (hkept : cache.Kept) {queued : Option HandshakeCache}
    {r : Except Fault Flight} (hs : CertificatesFrom cfg cache s.peerCertificates)
    (h : exec (Flight4.parse crypto cfg cache queued) s = (r, s')) :
    CertificatesFrom cfg cache s'.peerCertificates := by
  rcases exec_bind_eq h with ⟨_, hget, -⟩ | ⟨_, _, hget, h⟩
  · exact (exec_get_eq_error.mp hget).elim
  obtain ⟨rfl, rfl⟩ := exec_get_eq_ok.mp hget
  rcases exec_bind_eq h with ⟨_, hpull, -⟩ | ⟨⟨seq, msgs⟩, _, hpull, h⟩
  · exact exec_pullMap_eq_error hpull ▸ hs
  obtain ⟨hmap, rfl⟩ := exec_pullMap_eq_ok hpull
  dsimp only at h
  split at h
  · rcases exec_bind_eq h with ⟨_, htake, -⟩ | ⟨_, t, htake, h⟩
    · exact takeCertificate_error htake ▸ hs
    · have hkeep : s'.peerCertificates = t.peerCertificates :=
        congrArg Prod.snd ((keeps_useAnswer _ _ _ _).of_exec h)
      rw [hkeep]
      exact takeCertificate_from hkept hmap hs htake
  · have hsame : s' = s := by
      cases h
      rfl
    exact hsame ▸ hs

theorem readFinished_spec {seq : Int} {queued : Option HandshakeCache} {next : Flight}
    (hkept : ∀ cache', queued = some cache' → cache'.Kept)
    (h : exec (readFinished cfg seq queued) s = (.ok next, s')) :
    next = .flight6 ∧ ∃ cache', queued = some cache'
      ∧ (∃ seq m, cache'.FromClient (cfg.initialEpoch + 1) seq (.finished m))
      ∧ s'.peerCertificates = s.peerCertificates
      ∧ (cfg.clientAuth = .requireAnyClientCert → s'.peerCertificates ≠ [])
      ∧ (cfg.clientAuth = .requireAndVerifyClientCert → s'.peerCertificates ≠ []) := by
  unfold readFinished at h
  split at h
  · exact (exec_failWith_eq_ok.mp h).elim
  rename_i cache'
  obtain ⟨⟨next', msgs⟩, _, hpull, h⟩ := exec_bind_eq_ok.mp h
  obtain ⟨hmap, rfl⟩ := exec_pullMap_eq_ok hpull
  obtain ⟨_, _, hmodify, h⟩ := exec_bind_eq_ok.mp h
  obtain rfl := exec_modify_eq_ok.mp hmodify
  split at h
  · rename_i m hlookup
    obtain ⟨_, _, hauth, h⟩ := exec_bind_eq_ok.mp h
    obtain ⟨rfl, hany, hall⟩ := checkClientAuth_spec hauth
    obtain ⟨rfl, rfl⟩ := exec_pure_eq_ok.mp h
    obtain ⟨-, hfrom⟩ := HandshakeCache.fullPullMap_single (hkept cache' rfl) rfl hmap hlookup
    exact ⟨rfl, cache', rfl, ⟨_, m, hfrom⟩, rfl, hany, hall⟩
  · exact (exec_throw_eq_ok.mp h).elim

/-- From flight 4 the server goes on with a client that may go on. -/
theorem Flight4.parse_eq_ok (hkept : cache.Kept) {queued : Option HandshakeCache}
    (hkept' : ∀ cache', queued = some cache' → cache'.Kept) {next : Flight}
    (hs : CertificatesFrom cfg cache s.peerCertificates)
    (h : exec (Flight4.parse crypto cfg cache queued) s = (.ok next, s')) :
    next = .flight6 ∧ Authorised crypto cfg cache s'.peerCertificates
      ∧ ∃ cache', queued = some cache'
        ∧ ∃ seq m, cache'.FromClient (cfg.initialEpoch + 1) seq (.finished m) := by
  obtain ⟨_, _, hget, h⟩ := exec_bind_eq_ok.mp h
  obtain ⟨rfl, rfl⟩ := exec_get_eq_ok.mp hget
  obtain ⟨⟨seq, msgs⟩, _, hpull, h⟩ := exec_bind_eq_ok.mp h
  obtain ⟨hmap, rfl⟩ := exec_pullMap_eq_ok hpull
  dsimp only at h
  split at h
  · obtain ⟨_, t, htake, h⟩ := exec_bind_eq_ok.mp h
    have hfrom := takeCertificate_from hkept hmap hs htake
    obtain ⟨_, t₁, hverify, h⟩ := exec_bind_eq_ok.mp h
    obtain ⟨_, t₂, hinit, h⟩ := exec_bind_eq_ok.mp h
    obtain ⟨rfl, cache', hqueued, hfinished, hsame, hany, hall⟩ := readFinished_spec hkept' h
    have hkeep₁ : t₁.peerCertificates = t.peerCertificates :=
      congrArg Prod.snd ((keeps_checkCertificateVerify _).of_exec hverify)
    have hkeep₂ : t₂.peerCertificates = t₁.peerCertificates :=
      congrArg Prod.snd ((keeps_initCipherSuite _).of_exec hinit)
    rw [hsame, hkeep₂, hkeep₁] at hany hall ⊢
    refine ⟨rfl, ?_, cache', hqueued, hfinished⟩
    rcases checkCertificateVerify_spec hverify with ⟨hnone, -⟩ | ⟨v, hv, hgiven, hsigned, -⟩
    · exact .inl ⟨hnone, fun h => hany h hnone, fun h => hall h hnone⟩
    · obtain ⟨n, hn⟩ := fromClient_answer hkept hmap hv
      exact .inr ⟨hgiven, hfrom.resolve_left hgiven, n, v, hn, hsigned⟩
  · exact (exec_throw_eq_ok.mp h).elim

end

end Dtls

end XashProxy
