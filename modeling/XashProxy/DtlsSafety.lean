import XashProxy.DtlsHandshaker

/-!
# What the server says, and to whom

The invariant of the handshake loop. Whatever the network does and whenever the
timer fires: before the client has returned the cookie it gets nothing but
alerts and the cookie; what it gets then is what its first hello and the
configuration lead to; and it gets a `Finished` only if it may go on.
-/

namespace XashProxy

namespace Dtls

open Codec Programs Lts

def Packet.isAlert (p : Packet) : Bool :=
  match p.record.content with
  | .alert _ => true
  | _ => false

def Packet.message (p : Packet) : Option HandshakeMessage :=
  match p.record.content with
  | .handshake h => some h.handshakeMessage
  | _ => none

/-! ## The messages of a flight -/

/-- What the messages of flight 4 take from the state. -/
def Says (cfg : HandshakeConfig) (s : State) : HandshakeMessage → Prop
  | .serverHello m => m.cipherSuite = (s.cipherSuite.map CipherSuite.id).getD .unsupported
      ∧ m.extensions = serverExtensions cfg s
  | .serverKeyExchange m => cfg.localPskCallback.isNone = true →
      m.namedCurve = s.namedCurve ∧ ∃ keypair, s.localKeypair = some keypair
        ∧ m.publicKey = keypair.publicKey
  | .certificate _ | .certificateRequest _ | .serverHelloDone => True
  | _ => False

section
variable {crypto : Crypto} {cfg : HandshakeConfig} {cache : HandshakeCache} {s s' : State}
  {pkts : List Packet}

theorem keyExchangePackets_spec {certificate : LocalCertificate}
    {algorithm : SignatureHashAlgorithm}
    (h : exec (keyExchangePackets crypto certificate algorithm) s = (.ok pkts, s')) :
    ∀ p ∈ pkts, ∃ m, p.message = some m ∧ Says cfg s m := by
  obtain ⟨_, _, hget, h⟩ := exec_bind_eq_ok.mp h
  obtain ⟨rfl, rfl⟩ := exec_get_eq_ok.mp hget
  split at h
  · obtain ⟨rfl, rfl⟩ := exec_pure_eq_ok.mp h
    simp
  · rename_i keypair hpair
    obtain ⟨signature, _, hsign, h⟩ := exec_bind_eq_ok.mp h
    obtain ⟨-, rfl⟩ := exec_orFail_eq_ok hsign
    obtain ⟨_, _, hmodify, h⟩ := exec_bind_eq_ok.mp h
    obtain ⟨rfl, rfl⟩ := exec_pure_eq_ok.mp h
    intro p hp
    obtain rfl := List.mem_singleton.mp hp
    exact ⟨_, rfl, fun _ => ⟨rfl, keypair, hpair, rfl⟩⟩

theorem Flight4.generate_spec
    (h : exec (Flight4.generate crypto cfg) s = (.ok pkts, s')) :
    ∀ p ∈ pkts, ∃ m, p.message = some m ∧ Says cfg s m := by
  have hhello : ∃ m, (serverHelloPacket cfg s).message = some m ∧ Says cfg s m :=
    ⟨_, rfl, rfl, rfl⟩
  have hdone : ∃ m, (handshakePacket 0 false false .serverHelloDone).message = some m
      ∧ Says cfg s m := ⟨_, rfl, trivial⟩
  obtain ⟨_, _, hget, h⟩ := exec_bind_eq_ok.mp h
  obtain ⟨rfl, rfl⟩ := exec_get_eq_ok.mp hget
  dsimp only at h
  split at h
  · obtain ⟨certificate, _, hcert, h⟩ := exec_bind_eq_ok.mp h
    obtain ⟨-, rfl⟩ := exec_orFail_eq_ok hcert
    obtain ⟨algorithm, _, halg, h⟩ := exec_bind_eq_ok.mp h
    obtain ⟨-, rfl⟩ := exec_orFail_eq_ok halg
    obtain ⟨exchange, _, hexchange, h⟩ := exec_bind_eq_ok.mp h
    obtain ⟨rfl, rfl⟩ := exec_pure_eq_ok.mp h
    intro p hp
    simp only [List.mem_cons, List.mem_append, List.not_mem_nil, or_false] at hp
    rcases hp with ((rfl | rfl | hp) | hp) | rfl
    · exact hhello
    · exact ⟨_, rfl, trivial⟩
    · exact keyExchangePackets_spec hexchange p hp
    · unfold certificateRequestPackets at hp
      split at hp
      · obtain rfl := List.mem_singleton.mp hp
        exact ⟨_, rfl, trivial⟩
      · cases hp
    · exact hdone
  · rename_i hpsk
    split at h
    · obtain ⟨rfl, rfl⟩ := exec_pure_eq_ok.mp h
      intro p hp
      simp only [List.mem_cons, List.not_mem_nil, or_false] at hp
      rcases hp with rfl | rfl | rfl
      · exact hhello
      · exact ⟨_, rfl, fun hnone => absurd hnone hpsk⟩
      · exact hdone
    · obtain ⟨rfl, rfl⟩ := exec_pure_eq_ok.mp h
      intro p hp
      simp only [List.mem_cons, List.not_mem_nil, or_false] at hp
      rcases hp with rfl | rfl
      · exact hhello
      · exact hdone

theorem keeps_generate4 : Keeps State.certified (Flight4.generate crypto cfg) := by
  refine Keeps.get.bind fun s => ?_
  dsimp only
  split
  · refine (keeps_orFail _ _ _).bind fun _ => (keeps_orFail _ _ _).bind fun _ =>
      Keeps.bind ?_ fun _ => Keeps.pure _
    refine Keeps.get.bind fun s => ?_
    split
    · exact Keeps.pure _
    · refine (keeps_orFail _ _ _).bind fun _ => Keeps.bind (Keeps.modify ?_) fun _ => Keeps.pure _
      exact fun _ => rfl
  · split
    · exact Keeps.pure _
    · exact Keeps.pure _

theorem keeps_generate6 : Keeps State.certified (Flight6.generate crypto cfg cache) := by
  refine Keeps.bind ?_ fun _ => Keeps.get.bind fun _ => Keeps.pure _
  refine Keeps.get.bind fun s => ?_
  split
  · refine (keeps_orFail _ _ _).bind fun _ => Keeps.modify ?_
    exact fun _ => rfl
  · exact Keeps.pure ()

theorem Flight6.generate_spec (h : exec (Flight6.generate crypto cfg cache) s = (.ok pkts, s')) :
    ∃ verifyData, pkts = [⟨.new protocolVersion1_2 0 .changeCipherSpec, false, false⟩,
      handshakePacket 1 true true (.finished ⟨verifyData⟩)] := by
  obtain ⟨_, _, -, h⟩ := exec_bind_eq_ok.mp h
  obtain ⟨_, _, -, h⟩ := exec_bind_eq_ok.mp h
  obtain ⟨rfl, -⟩ := exec_pure_eq_ok.mp h
  exact ⟨_, rfl⟩

end

/-! ## What may be written -/

/-- The server's hello answers the client's. -/
structure Answers (cfg : HandshakeConfig) (hello : ClientHello) (m : ServerHello) : Prop where
  cipherSuite : ∃ id, findMatching hello.cipherSuites cfg.localCipherSuites = some id
    ∧ (id ≠ .unsupported → m.cipherSuite = id)
  extendedMasterSecret : (∃ supported, .useExtendedMasterSecret supported ∈ m.extensions)
    ↔ cfg.extendedMasterSecret ≠ .disable
      ∧ hello.extensions.any Extension.isExtendedMasterSecret = true
  required : cfg.extendedMasterSecret = .require →
    .useExtendedMasterSecret true ∈ m.extensions
  srtp : ∀ profiles, .useSrtp profiles ∈ m.extensions →
    ∃ profile, profiles = [profile] ∧ SrtpShared cfg hello.extensions profile

/-- The client may go on, and has said `Finished` under the new keys. -/
def Admitted (crypto : Crypto) (cfg : HandshakeConfig) (cache : HandshakeCache)
    (certificates : List Bytes) : Prop :=
  (∃ before, before <+: cache ∧ Authorised crypto cfg before certificates)
    ∧ ∃ seq m, cache.FromClient (cfg.initialEpoch + 1) seq (.finished m)

/-- A message of the server as the client's first hello and the configuration
have it, with the cookie that the server drew. -/
def Agreed (crypto : Crypto) (cfg : HandshakeConfig) (cache : HandshakeCache) :
    HandshakeMessage → Prop
  | .serverHello m => ∃ hello,
      cache.FromClient cfg.initialEpoch 0 (.clientHello hello) ∧ Answers cfg hello m
  | .serverKeyExchange m => cfg.localPskCallback.isNone = true → ∃ hello,
      cache.FromClient cfg.initialEpoch 0 (.clientHello hello)
        ∧ m.namedCurve = chosenCurve hello.extensions defaultNamedCurve
        ∧ m.namedCurve ≠ .unsupported
  | .finished _ => ∃ certificates, Admitted crypto cfg cache certificates
  | .certificate _ | .certificateRequest _ | .serverHelloDone => True
  | _ => False

/-- Alerts, the cookie, and after the cookie has come back the rest. -/
def Sound (crypto : Crypto) (cfg : HandshakeConfig) (cache : HandshakeCache) (cookie : Bytes)
    (p : Packet) : Prop :=
  p.isAlert = true ∨ p.message = some (.helloVerifyRequest ⟨protocolVersion1_2, cookie⟩)
    ∨ (cookie.length = cookieLength ∧ Returned cfg cache cookie
      ∧ ∀ m, p.message = some m → Agreed crypto cfg cache m)

section
variable {crypto : Crypto} {cfg : HandshakeConfig} {cache cache' : HandshakeCache} {s s' : State}
  {cookie : Bytes} {p : Packet}

theorem Returned.mono (hgrow : cache <+: cache') (h : Returned cfg cache cookie) :
    Returned cfg cache' cookie := by
  obtain ⟨seq, hello, hfrom, hrest⟩ := h
  exact ⟨seq, hello, hfrom.mono hgrow, hrest⟩

theorem Settled.mono (hgrow : cache <+: cache') (h : Settled cfg cache s) :
    Settled cfg cache' s := by
  obtain ⟨hello, hfrom, hneg⟩ := h
  exact ⟨hello, hfrom.mono hgrow, hneg⟩

theorem CertificatesFrom.mono {certificates : List Bytes} (hgrow : cache <+: cache')
    (h : CertificatesFrom cfg cache certificates) : CertificatesFrom cfg cache' certificates := by
  rcases h with h | ⟨seq, hfrom⟩
  · exact .inl h
  · exact .inr ⟨seq, hfrom.mono hgrow⟩

theorem Admitted.mono {certificates : List Bytes} (hgrow : cache <+: cache')
    (h : Admitted crypto cfg cache certificates) : Admitted crypto cfg cache' certificates := by
  obtain ⟨⟨before, hbefore, hauth⟩, seq, m, hfrom⟩ := h
  exact ⟨⟨before, hbefore.trans hgrow, hauth⟩, seq, m, hfrom.mono hgrow⟩

theorem Agreed.mono {m : HandshakeMessage} (hgrow : cache <+: cache')
    (h : Agreed crypto cfg cache m) : Agreed crypto cfg cache' m := by
  cases m with
  | serverHello m =>
      obtain ⟨hello, hfrom, hanswers⟩ := h
      exact ⟨hello, hfrom.mono hgrow, hanswers⟩
  | serverKeyExchange m =>
      intro hpsk
      obtain ⟨hello, hfrom, hcurve⟩ := h hpsk
      exact ⟨hello, hfrom.mono hgrow, hcurve⟩
  | finished m =>
      obtain ⟨certificates, hadmitted⟩ := h
      exact ⟨certificates, hadmitted.mono hgrow⟩
  | _ => exact h

theorem Sound.mono (hgrow : cache <+: cache') (h : Sound crypto cfg cache cookie p) :
    Sound crypto cfg cache' cookie p := by
  rcases h with h | h | ⟨hlength, hreturned, hmessage⟩
  · exact .inl h
  · exact .inr (.inl h)
  · exact .inr (.inr ⟨hlength, hreturned.mono hgrow, fun m hm => (hmessage m hm).mono hgrow⟩)

theorem extendedMasterSecret_mem_iff {supported : Bool} :
    .useExtendedMasterSecret supported ∈ serverExtensions cfg s ↔ supported = true
      ∧ cfg.extendedMasterSecret ≠ .disable ∧ s.extendedMasterSecret = true := by
  unfold serverExtensions
  cases cfg.extendedMasterSecret <;> cases s.extendedMasterSecret <;> simp

theorem useSrtp_mem_iff {profiles : List SrtpProtectionProfile} :
    .useSrtp profiles ∈ serverExtensions cfg s
      ↔ s.srtpProtectionProfile ≠ .unsupported ∧ profiles = [s.srtpProtectionProfile] := by
  unfold serverExtensions
  by_cases hne : s.srtpProtectionProfile = .unsupported
  · simp [hne]
  · simp [hne]

/-- Flight 4 says what was settled. -/
theorem Says.agreed {m : HandshakeMessage} (hs : Settled cfg cache s) (h : Says cfg s m) :
    Agreed crypto cfg cache m := by
  obtain ⟨hello, hfrom, hneg⟩ := hs
  cases m with
  | serverHello m =>
      obtain ⟨hsuite, hext⟩ := h
      obtain ⟨id, hid, hset⟩ := hneg.cipherSuite
      refine ⟨hello, hfrom, ⟨id, hid, fun hne => by rw [hsuite, hset hne]; rfl⟩, ?_, ?_, ?_⟩
      · simp only [hext, extendedMasterSecret_mem_iff, exists_eq_left,
          hneg.extendedMasterSecret, Bool.and_eq_true, decide_eq_true_eq]
        exact ⟨fun ⟨hne, _, hany⟩ => ⟨hne, hany⟩, fun ⟨hne, hany⟩ => ⟨hne, hne, hany⟩⟩
      · intro hrequire
        rw [hext]
        refine extendedMasterSecret_mem_iff.mpr ⟨rfl, ?_, hneg.required hrequire⟩
        rw [hrequire]
        simp
      · intro profiles hprofiles
        rw [hext] at hprofiles
        obtain ⟨hne, rfl⟩ := useSrtp_mem_iff.mp hprofiles
        exact ⟨_, rfl, hneg.srtp.resolve_left hne⟩
  | serverKeyExchange m =>
      intro hpsk
      obtain ⟨hcurve, -⟩ := h hpsk
      exact ⟨hello, hfrom, hcurve.trans hneg.namedCurve, hcurve ▸ hneg.supported⟩
  | certificate | certificateRequest | serverHelloDone => trivial
  | _ => exact h.elim

/-- Numbers change no message. -/
theorem mem_numberFrom {epoch : UInt16} {seq : Int} {ps : List Packet}
    (h : p ∈ (DtlsConn.numberFrom epoch seq ps).1) :
    ∃ q ∈ ps, p.message = q.message ∧ p.isAlert = q.isAlert := by
  induction ps generalizing seq with
  | nil => cases h
  | cons q ps ih =>
      have hlater : ∀ {seq'}, p ∈ (DtlsConn.numberFrom epoch seq' ps).1 →
          ∃ q' ∈ q :: ps, p.message = q'.message ∧ p.isAlert = q'.isAlert := by
        intro seq' h
        obtain ⟨q', hq', heq⟩ := ih h
        exact ⟨q', List.mem_cons_of_mem q hq', heq⟩
      rw [DtlsConn.numberFrom] at h
      split at h
      · rename_i hs hcontent
        rcases List.mem_cons.mp h with rfl | h
        · exact ⟨q, List.mem_cons_self, by simp [Packet.message, hcontent],
            by simp [Packet.isAlert, hcontent]⟩
        · exact hlater h
      · rename_i content hcontent
        rcases List.mem_cons.mp h with rfl | h
        · exact ⟨q, List.mem_cons_self, rfl, rfl⟩
        · exact hlater h

theorem Sound.congr {q : Packet} (hmessage : p.message = q.message)
    (halert : p.isAlert = q.isAlert) (h : Sound crypto cfg cache cookie q) :
    Sound crypto cfg cache cookie p := by
  unfold Sound
  rw [hmessage, halert]
  exact h

/-! ## The invariant -/

/-- What holds in every state, also after an error. -/
structure Base (crypto : Crypto) (cfg : HandshakeConfig) (c : DtlsConn) : Prop where
  kept : c.cache.Kept
  written : ∀ p ∈ c.written, Sound crypto cfg c.cache c.state.cookie p
  prepared : ∀ ps, c.flights = some ps → ∀ p ∈ ps, Sound crypto cfg c.cache c.state.cookie p

/-- What holds in a flight until the handshake is over. -/
structure Underway (crypto : Crypto) (cfg : HandshakeConfig) (c : DtlsConn) : Prop where
  quiet : c.currentFlight = .flight0 → ∀ p ∈ c.written, p.isAlert = true
  silent : c.currentFlight = .flight0 → ∀ ps, c.flights = some ps → ps = []
  unread : c.currentFlight = .flight0 → c.state.localKeypair = none
    ∧ c.state.extendedMasterSecret = false ∧ c.state.srtpProtectionProfile = .unsupported
  drawn : c.currentFlight ≠ .flight0 ∨ c.handshakeState ≠ .preparing →
    c.state.cookie.length = cookieLength
  curve : c.currentFlight = .flight0 → c.handshakeState ≠ .preparing →
    c.state.namedCurve = defaultNamedCurve
  settled : c.currentFlight ≠ .flight0 → Settled cfg c.cache c.state
  returned : c.currentFlight = .flight4 ∨ c.currentFlight = .flight6 →
    Returned cfg c.cache c.state.cookie
  certificates : CertificatesFrom cfg c.cache c.state.peerCertificates
  admitted : c.currentFlight = .flight6 →
    Admitted crypto cfg c.cache c.state.peerCertificates

structure Guarded (crypto : Crypto) (cfg : HandshakeConfig) (c : DtlsConn) : Prop where
  base : Base crypto cfg c
  live : (∀ e, c.handshakeState ≠ .errored e) → Underway crypto cfg c

end

section
variable {crypto : Crypto} {cfg : HandshakeConfig} {c c' : DtlsConn}

theorem guarded_new : Guarded crypto cfg .new where
  base := {
    kept := ⟨by simp [DtlsConn.new], by simp [DtlsConn.new]⟩
    written := by simp [DtlsConn.new]
    prepared := by simp [DtlsConn.new] }
  live _ := {
    quiet := by simp [DtlsConn.new]
    silent := by simp [DtlsConn.new]
    unread := fun _ => ⟨rfl, rfl, rfl⟩
    drawn := fun h => by simp [DtlsConn.new] at h
    curve := fun _ h => absurd rfl h
    settled := fun h => absurd rfl h
    returned := fun h => by simp [DtlsConn.new] at h
    certificates := .inl rfl
    admitted := fun h => by simp [DtlsConn.new] at h }

/-! ## The cache grows -/

theorem Base.grow {cache : HandshakeCache} (h : Base crypto cfg c) (hgrow : c.cache <+: cache)
    (hkept : cache.Kept) : Base crypto cfg { c with cache := cache } where
  kept := hkept
  written p hp := (h.written p hp).mono hgrow
  prepared ps hps p hp := (h.prepared ps hps p hp).mono hgrow

theorem Underway.grow {cache : HandshakeCache} (h : Underway crypto cfg c)
    (hgrow : c.cache <+: cache) :
    Underway crypto cfg { c with cache := cache } :=
  { h with
    settled := fun hne => (h.settled hne).mono hgrow
    returned := fun hfl => (h.returned hfl).mono hgrow
    certificates := h.certificates.mono hgrow
    admitted := fun hfl => (h.admitted hfl).mono hgrow }

/-- Only the first flight looks at where the loop is. -/
theorem Underway.to {go : HandshakeState} (h : Underway crypto cfg c)
    (hc : c.currentFlight ≠ .flight0 ∨ c.handshakeState ≠ .preparing) :
    Underway crypto cfg { c with handshakeState := go } :=
  { h with
    drawn := fun _ => h.drawn hc
    curve := fun hfl _ => h.curve hfl (hc.resolve_left (not_not.mpr hfl)) }

/-! ## Alerts -/

theorem Base.notify (h : Base crypto cfg c) (a : Alert) : Base crypto cfg (c.notify a) :=
  { h with
    written := fun p hp => by
      rcases List.mem_append.mp hp with hp | hp
      · exact h.written p hp
      · obtain rfl := List.mem_singleton.mp hp
        exact .inl rfl }

theorem Underway.notify (h : Underway crypto cfg c) (a : Alert) :
    Underway crypto cfg (c.notify a) :=
  { h with
    quiet := fun hfl p hp => by
      rcases List.mem_append.mp hp with hp | hp
      · exact h.quiet hfl p hp
      · obtain rfl := List.mem_singleton.mp hp
        rfl }

theorem Base.to {go : HandshakeState} (h : Base crypto cfg c) :
    Base crypto cfg { c with handshakeState := go } :=
  ⟨h.kept, h.written, h.prepared⟩

theorem guarded_errored (h : Base crypto cfg c) (e : Error) :
    Guarded crypto cfg { c with handshakeState := .errored e } where
  base := h.to
  live hne := absurd rfl (hne e)

theorem guarded_to {go : HandshakeState} (h : Base crypto cfg c) (hlive : Underway crypto cfg c)
    (hc : c.currentFlight ≠ .flight0 ∨ c.handshakeState ≠ .preparing) :
    Guarded crypto cfg { c with handshakeState := go } :=
  ⟨h.to, fun _ => hlive.to hc⟩

/-- A fault keeps the invariant if what it leaves keeps it. -/
theorem guarded_fault {f : Fault} {net : Except Error Unit} {go : HandshakeState}
    (h : Base crypto cfg c)
    (hlive : ¬ Fatal f → Underway crypto cfg c
      ∧ (c.currentFlight ≠ .flight0 ∨ c.handshakeState ≠ .preparing)) :
    Guarded crypto cfg (c.fault f net go) := by
  unfold DtlsConn.fault
  split
  · obtain ⟨hl, hc⟩ := hlive (fun hne => hne rfl)
    exact guarded_to h hl hc
  · exact guarded_errored h _
  · obtain ⟨hl, hc⟩ := hlive (fun hne => hne rfl)
    exact guarded_to (h.notify _) (hl.notify _) hc
  · exact guarded_errored (h.notify _) _
  · exact guarded_errored (h.notify _) _

/-! ## Sending -/

theorem keepOwn_spec {cache : HandshakeCache} (hkept : cache.Kept) (ps : List Packet) :
    cache <+: (DtlsConn.keepOwn cache ps).2 ∧ (DtlsConn.keepOwn cache ps).2.Kept := by
  induction ps generalizing cache with
  | nil => exact ⟨List.prefix_rfl, hkept⟩
  | cons p ps ih =>
      have hown : ∀ item : HandshakeCacheItem, item.isClient = false →
          cache <+: (DtlsConn.keepOwn (cache.push item) ps).2
            ∧ (DtlsConn.keepOwn (cache.push item) ps).2.Kept := by
        intro item hitem
        have hpushed : (cache.push item).Kept :=
          hkept.push fun hclient => absurd (hitem.symm.trans hclient) Bool.false_ne_true
        obtain ⟨hgrow, hkept'⟩ := ih hpushed
        exact ⟨(HandshakeCache.prefix_push cache item).trans hgrow, hkept'⟩
      rw [DtlsConn.keepOwn]
      split
      · split
        · exact ⟨List.prefix_rfl, hkept⟩
        · exact hown _ rfl
      · exact ih hkept

theorem keepOwn_eq {cache cache' : HandshakeCache} {r : Except Error Unit} {ps : List Packet}
    (hkept : cache.Kept) (h : DtlsConn.keepOwn cache ps = (r, cache')) :
    cache <+: cache' ∧ cache'.Kept := by
  have hspec := keepOwn_spec hkept ps
  rwa [h] at hspec

theorem Base.write (h : Base crypto cfg c) {ps : List Packet} (hps : c.flights = some ps) :
    Base crypto cfg { c with written := c.written ++ ps } :=
  { h with
    written := fun p hp => (List.mem_append.mp hp).elim (h.written p) (h.prepared ps hps p) }

theorem guarded_send {kept : Nat} {net : Except Error Unit} (h : Guarded crypto cfg c)
    (hc : c.handshakeState = .sending) :
    Guarded crypto cfg (c.send kept net) := by
  have hlive : Underway crypto cfg c := h.live fun e he => by simp [hc] at he
  have hready : c.currentFlight ≠ .flight0 ∨ c.handshakeState ≠ .preparing := .inr (by simp [hc])
  unfold DtlsConn.send
  split
  · exact guarded_to h.base hlive hready
  rename_i pkts hpkts
  have hbase := h.base.write hpkts
  have hlive' : Underway crypto cfg { c with written := c.written ++ pkts } :=
    { hlive with
      quiet := fun hfl p hp => by
        rw [hlive.silent hfl pkts hpkts, List.append_nil] at hp
        exact hlive.quiet hfl p hp }
  split
  · have hgrow := keepOwn_spec h.base.kept (pkts.take kept)
    exact guarded_errored (hbase.grow hgrow.1 hgrow.2) _
  · dsimp only
    split
    · rename_i cache hown
      obtain ⟨hgrow, hkept⟩ := keepOwn_eq h.base.kept hown
      exact guarded_to (hbase.grow hgrow hkept) (hlive'.grow hgrow) hready
    · rename_i e cache hne hown
      obtain ⟨hgrow, hkept⟩ := keepOwn_eq h.base.kept hown
      exact guarded_errored (hbase.grow hgrow hkept) _
    · rename_i cache hown
      obtain ⟨hgrow, hkept⟩ := keepOwn_eq h.base.kept hown
      exact guarded_to (hbase.grow hgrow hkept) (hlive'.grow hgrow) hready

/-! ## Preparing -/

theorem Base.withState {state : State} (h : Base crypto cfg c)
    (hcookie : state.cookie = c.state.cookie) : Base crypto cfg { c with state := state } where
  kept := h.kept
  written := hcookie ▸ h.written
  prepared := hcookie ▸ h.prepared

theorem Underway.withState {state : State} (h : Underway crypto cfg c)
    (hfl : c.currentFlight ≠ .flight0) (hagreed : state.agreed = c.state.agreed)
    (hcertificates : CertificatesFrom cfg c.cache state.peerCertificates)
    (hauth : c.currentFlight = .flight6 →
      state.peerCertificates = c.state.peerCertificates) :
    Underway crypto cfg { c with state := state } := by
  have hcookie : state.cookie = c.state.cookie := by
    have h := congrArg State.cookie hagreed
    exact h
  refine {
    quiet := h.quiet
    silent := h.silent
    unread := fun h0 => absurd h0 hfl
    drawn := fun hc => ?_
    curve := fun h0 => absurd h0 hfl
    settled := fun hne => ?_
    returned := fun hfl => ?_
    certificates := hcertificates
    admitted := fun h6 => ?_ }
  · rw [hcookie]
    exact h.drawn hc
  · obtain ⟨hello, hfrom, hneg⟩ := h.settled hne
    exact ⟨hello, hfrom, hneg.of_agreed hagreed⟩
  · rw [hcookie]
    exact h.returned hfl
  · rw [hauth h6]
    exact h.admitted h6

/-- What a flight after the first generates. -/
theorem generate_spec {drawn : Flight.Drawn} {state : State} {r : Except Fault (List Packet)}
    (hlive : Underway crypto cfg c) (hfl : c.currentFlight ≠ .flight0)
    (h : exec (c.currentFlight.generate crypto cfg drawn c.cache) c.state = (r, state)) :
    (state.agreed = c.state.agreed ∧ state.peerCertificates = c.state.peerCertificates)
      ∧ ∀ pkts, r = .ok pkts → ∀ p ∈ pkts, Sound crypto cfg c.cache c.state.cookie p := by
  have hagreed : ∀ {t : State}, t.certified = c.state.certified →
      t.agreed = c.state.agreed ∧ t.peerCertificates = c.state.peerCertificates := fun ht =>
    ⟨congrArg (fun x => { x.1 with handshakeSendSequence := 0 }) ht, congrArg Prod.snd ht⟩
  cases hflight : c.currentFlight with
  | flight0 => exact absurd hflight hfl
  | flight2 =>
      rw [hflight] at h
      obtain ⟨rfl, rfl⟩ : .ok [helloVerifyPacket c.state.cookie] = r
          ∧ { c.state with handshakeSendSequence := 0 } = state := Prod.mk.inj h
      refine ⟨⟨rfl, rfl⟩, fun pkts hpkts p hp => ?_⟩
      obtain rfl := Except.ok.inj hpkts
      obtain rfl := List.mem_singleton.mp hp
      exact .inr (.inl rfl)
  | flight4 =>
      rw [hflight] at h
      refine ⟨hagreed (keeps_generate4.of_exec h), fun pkts hpkts p hp => ?_⟩
      subst hpkts
      obtain ⟨m, hm, hsays⟩ := Flight4.generate_spec h p hp
      refine .inr (.inr ⟨hlive.drawn (.inl hfl), hlive.returned (.inl hflight), fun m' hm' => ?_⟩)
      obtain rfl : m = m' := Option.some.inj (hm.symm.trans hm')
      exact hsays.agreed (hlive.settled hfl)
  | flight6 =>
      rw [hflight] at h
      refine ⟨hagreed (keeps_generate6.of_exec h), fun pkts hpkts p hp => ?_⟩
      subst hpkts
      obtain ⟨verifyData, rfl⟩ := Flight6.generate_spec h
      refine .inr (.inr ⟨hlive.drawn (.inl hfl), hlive.returned (.inr hflight), fun m hm => ?_⟩)
      rcases List.mem_cons.mp hp with rfl | hp
      · cases hm
      · obtain rfl := List.mem_singleton.mp hp
        obtain rfl : _ = m := Option.some.inj hm
        exact ⟨_, hlive.admitted hflight⟩

/-- A flight that is to be sent. -/
theorem Base.withFlights {ps : List Packet} {seq : Int} {epoch : UInt16}
    (h : Base crypto cfg c)
    (hps : ∀ p ∈ ps, Sound crypto cfg c.cache c.state.cookie p) :
    Base crypto cfg { c with
      state := { c.state with handshakeSendSequence := seq }
      flights := some ps
      localEpoch := epoch } where
  kept := h.kept
  written := h.written
  prepared ps' hps' p hp := by
    obtain rfl := Option.some.inj hps'
    exact hps p hp

theorem guarded_prepare {drawn : Flight.Drawn} {net : Except Error Unit} (h : Guarded crypto cfg c)
    (hc : c.handshakeState = .preparing) : Guarded crypto cfg (c.prepare crypto cfg drawn net) := by
  have hlive : Underway crypto cfg c := h.live fun e he => by simp [hc] at he
  unfold DtlsConn.prepare
  dsimp only
  generalize hretransmit : c.currentFlight.hasRetransmit = retransmit
  have hbase₀ : Base crypto cfg { c with flights := none, retransmit := retransmit } :=
    ⟨h.base.kept, h.base.written, by simp⟩
  have hlive₀ : Underway crypto cfg { c with flights := none, retransmit := retransmit } :=
    { hlive with silent := fun _ ps hps => by cases hps }
  by_cases hfl : c.currentFlight = .flight0
  · -- nothing but alerts has been written, whatever the cookie was
    have hexec : exec (c.currentFlight.generate crypto cfg drawn c.cache) c.state = (.ok [],
        { c.state with
          cookie := drawn.cookie.val
          namedCurve := defaultNamedCurve
          localRandom := drawn.localRandom }) := by
      rw [hfl]
      rfl
    rw [hexec]
    refine ⟨⟨h.base.kept, fun p hp => .inl (hlive.quiet hfl p hp), fun ps hps p hp => ?_⟩,
      fun _ => ?_⟩
    · obtain rfl := Option.some.inj hps
      cases hp
    · exact {
        quiet := hlive.quiet
        silent := fun _ ps hps => (Option.some.inj hps).symm
        unread := hlive.unread
        drawn := fun _ => drawn.cookie.property
        curve := fun _ _ => rfl
        settled := fun hne => absurd hfl hne
        returned := fun h => by simp [hfl] at h
        certificates := hlive.certificates
        admitted := fun h => by simp [hfl] at h }
  · rcases hexec : exec (c.currentFlight.generate crypto cfg drawn c.cache) c.state with ⟨r, state⟩
    obtain ⟨⟨hagreed, hcerts⟩, hsound⟩ := generate_spec hlive hfl hexec
    have hcookie : state.cookie = c.state.cookie := by
      have h := congrArg State.cookie hagreed
      exact h
    have hbase := hbase₀.withState hcookie
    have hfrom : CertificatesFrom cfg c.cache state.peerCertificates := by
      rw [hcerts]
      exact hlive.certificates
    cases r with
    | error f =>
        exact guarded_fault hbase fun _ =>
          ⟨hlive₀.withState hfl hagreed hfrom fun _ => hcerts, .inl hfl⟩
    | ok pkts =>
        have hps : ∀ p ∈ (DtlsConn.numberFrom cfg.initialEpoch state.handshakeSendSequence pkts).1,
            Sound crypto cfg c.cache state.cookie p := by
          intro p hp
          obtain ⟨q, hq, hmessage, halert⟩ := mem_numberFrom hp
          exact hcookie ▸ (hsound pkts rfl q hq).congr hmessage halert
        have hlive' : Underway crypto cfg { c with
            flights := none
            retransmit := retransmit
            state := { state with handshakeSendSequence :=
              (DtlsConn.numberFrom cfg.initialEpoch state.handshakeSendSequence pkts).2 } } :=
          hlive₀.withState hfl hagreed hfrom fun _ => hcerts
        exact ⟨(hbase.withFlights hps).to, fun _ =>
          { hlive'.to (.inl hfl) with silent := fun h0 => absurd h0 hfl }⟩

/-! ## Reading -/

theorem keeps_parse6 {cache : HandshakeCache} :
    Keeps State.certified (Flight6.parse cfg cache) := by
  refine Keeps.get.bind fun s => (keeps_pullMap _ _ _ _).bind fun ⟨_, _⟩ => ?_
  dsimp only
  split
  · exact Keeps.pure _
  · exact Keeps.throw _
  · exact Keeps.pure _

theorem Flight6.parse_eq_ok {cache : HandshakeCache} {next : Flight} {s s' : State}
    (h : exec (Flight6.parse cfg cache) s = (.ok next, s')) : next = .flight6 := by
  obtain ⟨_, _, -, h⟩ := exec_bind_eq_ok.mp h
  obtain ⟨⟨_, _⟩, _, -, h⟩ := exec_bind_eq_ok.mp h
  dsimp only at h
  split at h
  · exact (exec_pure_eq_ok.mp h).1.symm
  · exact (exec_throw_eq_ok.mp h).elim
  · exact (exec_pure_eq_ok.mp h).1.symm

/-- A change of the number that is read next matters to nothing here. -/
theorem Underway.withRecvSequence (h : Underway crypto cfg c) (seq : Int) :
    Underway crypto cfg { c with state := { c.state with handshakeRecvSequence := seq } } :=
  { h with
    settled := fun hne => by
      obtain ⟨hello, hfrom, hneg⟩ := h.settled hne
      exact ⟨hello, hfrom, hneg.withRecvSequence seq⟩ }

/-- Reading goes on in the same flight, or a new flight begins. -/
structure ReadsTo (crypto : Crypto) (cfg : HandshakeConfig) (c : DtlsConn) (cache : HandshakeCache)
    (state : State) (r : Except Fault Flight) : Prop where
  cookie : state.cookie = c.state.cookie
  stay : ∀ f, r = .error f → ¬ Fatal f →
    Underway crypto cfg { c with state := state, cache := cache }
  go : ∀ next, r = .ok next → next ≠ .flight0 ∧
    Underway crypto cfg { c with state := state, cache := cache, currentFlight := next }

section
variable {state : State} {r : Except Fault Flight} {publicKey privateKey : Bytes}
  {cache : HandshakeCache}

theorem reads_flight0 (hkept : c.cache.Kept) (hgrow : c.cache <+: cache)
    (hc : c.handshakeState ≠ .preparing) (h : Underway crypto cfg c)
    (hfl : c.currentFlight = .flight0)
    (hexec : exec (Flight0.parse cfg publicKey privateKey c.cache) c.state = (r, state)) :
    ReadsTo crypto cfg c cache state r := by
  have hunread := (keeps_parse0 cfg publicKey privateKey c.cache).of_exec hexec
  have hcookie : state.cookie = c.state.cookie := congrArg Prod.fst hunread
  have hcerts : state.peerCertificates = c.state.peerCertificates :=
    congrArg (fun x => x.2.2.2) hunread
  refine ⟨hcookie, fun f hf hfatal => ?_, fun next hnext => ?_⟩
  · subst hf
    obtain ⟨seq, rfl⟩ := Flight0.parse_eq_error hexec hfatal
    exact (h.withRecvSequence seq).grow hgrow
  · subst hnext
    obtain ⟨hpair, hems, hsrtp⟩ := h.unread hfl
    obtain ⟨rfl, hsettled⟩ :=
      Flight0.parse_eq_ok hkept (.inl ⟨hems, hsrtp, h.curve hfl hc, hpair⟩) hexec
    exact ⟨by decide, {
      quiet := fun h2 => by cases h2
      silent := fun h2 => by cases h2
      unread := fun h2 => by cases h2
      drawn := fun _ => hcookie ▸ h.drawn (.inr hc)
      curve := fun h2 => by cases h2
      settled := fun _ => hsettled.mono hgrow
      returned := fun h2 => by simp at h2
      certificates := hcerts ▸ h.certificates.mono hgrow
      admitted := fun h2 => by cases h2 }⟩

theorem reads_flight2 (hkept : c.cache.Kept) (hgrow : c.cache <+: cache) (h : Underway crypto cfg c)
    (hfl : c.currentFlight = .flight2)
    (hexec : exec (Flight2.parse cfg publicKey privateKey c.cache) c.state = (r, state)) :
    ReadsTo crypto cfg c cache state r := by
  have hne : c.currentFlight ≠ .flight0 := by simp [hfl]
  have hunread := (keeps_parse2 cfg publicKey privateKey c.cache).of_exec hexec
  have hcookie : state.cookie = c.state.cookie := congrArg Prod.fst hunread
  have hcerts : state.peerCertificates = c.state.peerCertificates :=
    congrArg (fun x => x.2.2.2) hunread
  refine ⟨hcookie, fun f hf hfatal => ?_, fun next hnext => ?_⟩
  · subst hf
    obtain ⟨seq, rfl⟩ := Flight2.parse_eq_error hexec hfatal
    exact (h.withRecvSequence seq).grow hgrow
  · subst hnext
    obtain ⟨hsettled, hnext⟩ := Flight2.parse_eq_ok hkept (h.settled hne) hexec
    have hnext0 : next ≠ .flight0 := by
      rcases hnext with rfl | ⟨rfl, -⟩ <;> decide
    exact ⟨hnext0, {
      quiet := fun h0 => absurd h0 hnext0
      silent := fun h0 => absurd h0 hnext0
      unread := fun h0 => absurd h0 hnext0
      drawn := fun _ => hcookie ▸ h.drawn (.inl hne)
      curve := fun h0 => absurd h0 hnext0
      settled := fun _ => hsettled.mono hgrow
      returned := fun h46 => by
        rcases hnext with rfl | ⟨rfl, hreturned⟩
        · simp at h46
        · exact hcookie ▸ hreturned.mono hgrow
      certificates := hcerts ▸ h.certificates.mono hgrow
      admitted := fun h6 => by
        rcases hnext with rfl | ⟨rfl, -⟩ <;> cases h6 }⟩

theorem agreed_of_settled {s s' : State} (h : s'.settled = s.settled) : s'.agreed = s.agreed :=
  congrArg (fun s => { s with handshakeSendSequence := 0 }) h

theorem cookie_of_settled {s s' : State} (h : s'.settled = s.settled) : s'.cookie = s.cookie := by
  have hcookie := congrArg State.cookie h
  exact hcookie

theorem reads_flight4 {queued : Option HandshakeCache} (hkept : c.cache.Kept)
    (hgrow : c.cache <+: queued.getD c.cache)
    (hkept' : ∀ cache', queued = some cache' → cache'.Kept) (h : Underway crypto cfg c)
    (hfl : c.currentFlight = .flight4)
    (hexec : exec (Flight4.parse crypto cfg c.cache queued) c.state = (r, state)) :
    ReadsTo crypto cfg c (queued.getD c.cache) state r := by
  have hne : c.currentFlight ≠ .flight0 := by simp [hfl]
  have hsettled := (keeps_parse4 queued).of_exec hexec
  have hcerts := Flight4.certificates_parse hkept h.certificates hexec
  have hstay : Underway crypto cfg { c with state := state, cache := queued.getD c.cache } :=
    (h.withState hne (agreed_of_settled hsettled) hcerts fun h6 => by simp [hfl] at h6).grow hgrow
  refine ⟨cookie_of_settled hsettled, fun _ _ _ => hstay, fun next hnext => ?_⟩
  subst hnext
  obtain ⟨rfl, hauth, cache', rfl, hfinished⟩ :=
    Flight4.parse_eq_ok hkept hkept' h.certificates hexec
  exact ⟨by decide, { hstay with
    quiet := fun h0 => by cases h0
    silent := fun h0 => by cases h0
    unread := fun h0 => by cases h0
    drawn := fun _ => hstay.drawn (.inl hne)
    curve := fun h0 => by cases h0
    settled := fun _ => hstay.settled hne
    returned := fun _ => hstay.returned (.inl hfl)
    admitted := fun _ => ⟨⟨c.cache, hgrow, hauth⟩, hfinished⟩ }⟩

theorem reads_flight6 (hgrow : c.cache <+: cache) (h : Underway crypto cfg c)
    (hfl : c.currentFlight = .flight6)
    (hexec : exec (Flight6.parse cfg c.cache) c.state = (r, state)) :
    ReadsTo crypto cfg c cache state r := by
  have hne : c.currentFlight ≠ .flight0 := by simp [hfl]
  have hkeep := keeps_parse6.of_exec hexec
  have hsettled : state.settled = c.state.settled := congrArg Prod.fst hkeep
  have hcerts : state.peerCertificates = c.state.peerCertificates := congrArg Prod.snd hkeep
  have hstay : Underway crypto cfg { c with state := state, cache := cache } :=
    (h.withState hne (agreed_of_settled hsettled) (hcerts ▸ h.certificates) fun _ => hcerts).grow
      hgrow
  refine ⟨cookie_of_settled hsettled, fun _ _ _ => hstay, fun next hnext => ?_⟩
  subst hnext
  obtain rfl := Flight6.parse_eq_ok hexec
  exact ⟨by decide, hfl ▸ hstay⟩

end

theorem parse_spec {drawn : Flight.Drawn} {queued : Option HandshakeCache} {state : State}
    {r : Except Fault Flight} (hkept : c.cache.Kept) (hgrow : c.cache <+: queued.getD c.cache)
    (hkept' : ∀ cache', queued = some cache' → cache'.Kept) (hc : c.handshakeState ≠ .preparing)
    (h : Underway crypto cfg c)
    (hexec : exec (c.currentFlight.parse crypto cfg drawn c.cache queued) c.state = (r, state)) :
    ReadsTo crypto cfg c (queued.getD c.cache) state r := by
  cases hfl : c.currentFlight with
  | flight0 =>
      rw [hfl] at hexec
      exact reads_flight0 hkept hgrow hc h hfl hexec
  | flight2 =>
      rw [hfl] at hexec
      exact reads_flight2 hkept hgrow h hfl hexec
  | flight4 =>
      rw [hfl] at hexec
      exact reads_flight4 hkept hgrow hkept' h hfl hexec
  | flight6 =>
      rw [hfl] at hexec
      exact reads_flight6 hgrow h hfl hexec

theorem guarded_parse {drawn : Flight.Drawn} {queued : Option (List (UInt16 × Bytes))}
    {net : Except Error Unit} (h : Guarded crypto cfg c) (hc : c.handshakeState = .waiting) :
    Guarded crypto cfg (c.parse crypto cfg drawn queued net) := by
  have hlive : Underway crypto cfg c := h.live fun e he => by simp [hc] at he
  have hready : c.handshakeState ≠ .preparing := by simp [hc]
  have hqueued : ∀ cache', queued.map c.cache.receiveAll = some cache' →
      c.cache <+: cache' ∧ cache'.Kept := by
    intro cache' hcache
    obtain ⟨items, -, rfl⟩ := Option.map_eq_some_iff.mp hcache
    exact HandshakeCache.receiveAll_spec h.base.kept items
  have hcache : c.cache <+: (queued.map c.cache.receiveAll).getD c.cache
      ∧ ((queued.map c.cache.receiveAll).getD c.cache).Kept := by
    cases hq : queued.map c.cache.receiveAll with
    | none => exact ⟨List.prefix_rfl, h.base.kept⟩
    | some cache' => exact hqueued cache' hq
  unfold DtlsConn.parse
  dsimp only
  rcases hexec : exec (c.currentFlight.parse crypto cfg drawn c.cache
    (queued.map c.cache.receiveAll)) c.state with ⟨r, state⟩
  have hreads := parse_spec h.base.kept hcache.1 (fun cache' hq => (hqueued cache' hq).2) hready
    hlive hexec
  have hbase := (h.base.withState hreads.cookie).grow hcache.1 hcache.2
  cases r with
  | error f => exact guarded_fault hbase fun hf => ⟨hreads.stay f rfl hf, .inr hready⟩
  | ok next =>
      obtain ⟨hne, hgo⟩ := hreads.go next rfl
      dsimp only
      split
      · rename_i hlast
        cases hlast.1
      · exact ⟨⟨hbase.kept, hbase.written, hbase.prepared⟩, fun _ => hgo.to (.inl hne)⟩

/-- One step of the loop or of the reader. -/
theorem guarded_step {e : DtlsConn.Event} (h : Guarded crypto cfg c)
    (hstep : DtlsConn.step crypto cfg c e = some c') : Guarded crypto cfg c' := by
  cases e with
  | receive epoch data =>
      obtain rfl := Option.some.inj hstep
      have hgrow := HandshakeCache.prefix_receive c.cache epoch data
      exact ⟨h.base.grow hgrow (h.base.kept.receive epoch data), fun hne => (h.live hne).grow hgrow⟩
  | alert a =>
      obtain rfl := Option.some.inj hstep
      exact ⟨h.base.notify a, fun hne => (h.live hne).notify a⟩
  | prepare drawn net =>
      obtain ⟨hc, heq⟩ := Option.ite_none_right_eq_some.mp hstep
      obtain rfl := Option.some.inj heq
      exact guarded_prepare h hc
  | send kept net =>
      obtain ⟨hc, heq⟩ := Option.ite_none_right_eq_some.mp hstep
      obtain rfl := Option.some.inj heq
      exact guarded_send h hc
  | parse drawn queued net =>
      obtain ⟨hc, heq⟩ := Option.ite_none_right_eq_some.mp hstep
      obtain rfl := Option.some.inj heq
      exact guarded_parse h hc
  | retransmitTimer =>
      obtain ⟨hc, heq⟩ := Option.ite_none_right_eq_some.mp hstep
      obtain rfl := Option.some.inj heq
      have hlive : Underway crypto cfg c := h.live fun e he => by simp [hc] at he
      exact guarded_to h.base hlive (.inr (by simp [hc]))
  | readerGone =>
      obtain ⟨-, heq⟩ := Option.ite_none_right_eq_some.mp hstep
      obtain rfl := Option.some.inj heq
      exact guarded_errored h.base _

theorem guarded_run {es : List DtlsConn.Event}
    (hrun : run (DtlsConn.step crypto cfg) .new es = some c) : Guarded crypto cfg c :=
  run_invariant guarded_step hrun guarded_new

end

end Dtls

end XashProxy
