import XashProxy.DtlsSafety

/-!
# Handshakes from end to end

What a whole handshake comes to, for every run of the loop and the reader.
-/

namespace XashProxy

namespace Dtls

open Codec Programs Lts

/-! ## A handshake -/

namespace SampleRun

def bytesOf (h : Handshake) : Bytes :=
  match h.marshal with
  | .ok bs => bs
  | .error _ => []

def message (seq : UInt16) (m : HandshakeMessage) : Bytes :=
  bytesOf { Handshake.new m with
    handshakeHeader := { (Handshake.new m).handshakeHeader with messageSequence := seq } }

def cookie : { bs : Bytes // bs.length = cookieLength } := ⟨List.replicate 20 7, rfl⟩

def drawn : Flight.Drawn := ⟨cookie, .default, [4, 1], [2]⟩

/-- Its first curve is none that is implemented. -/
def hello (cookie : Bytes) : ClientHello :=
  { emptyHello with
    cookie := cookie
    cipherSuites := [.tlsEcdheEcdsaWithAes128GcmSha256]
    extensions := [.supportedEllipticCurves [.unsupported, .p256, .x25519]] }

def crypto : Crypto where
  prfPreMasterSecret _ _ _ := .ok [1]
  prfPskPreMasterSecret psk := psk
  sha256 data := data
  prfExtendedMasterSecret _ _ := .ok [2]
  prfMasterSecret _ _ _ := .ok [2]
  prfVerifyDataServer _ _ := .ok [3]
  init _ _ _ _ := .ok ()
  verifyCertificateVerify _ _ _ _ _ := .ok ()
  verifyClientCert _ certificates := .ok certificates
  selectSignatureScheme schemes _ := match schemes with
    | [] => .error .errNoAvailableSignatureSchemes
    | scheme :: _ => .ok scheme
  generateKeySignature _ _ _ _ _ := .ok [5]

def cfg : HandshakeConfig where
  localPskCallback := none
  localPskIdentityHint := none
  localCipherSuites := [.tlsEcdheEcdsaWithAes128GcmSha256]
  localSignatureSchemes := [⟨.sha256, .ecdsa⟩]
  extendedMasterSecret := .request
  localSrtpProtectionProfiles := []
  clientAuth := .requireAnyClientCert
  localCertificates := [⟨[[9]], [8]⟩]
  insecureVerification := false
  verifyPeerCertificate := none
  clientCertVerifier := none
  initialEpoch := 0

/-- The first hello comes twice, as if the cookie had been lost. -/
def events : List DtlsConn.Event :=
  [.prepare drawn (.ok ()), .send 0 (.ok ()),
    .receive 0 (message 0 (.clientHello (hello []))), .parse drawn (some []) (.ok ()),
    .prepare drawn (.ok ()), .send 0 (.ok ()), .retransmitTimer,
    .receive 0 (message 0 (.clientHello (hello []))), .parse drawn (some []) (.ok ()),
    .prepare drawn (.ok ()), .send 0 (.ok ()),
    .receive 0 (message 1 (.clientHello (hello cookie.val))), .parse drawn (some []) (.ok ()),
    .prepare drawn (.ok ()), .send 0 (.ok ()), .retransmitTimer, .send 0 (.ok ()),
    .receive 0 (message 2 (.certificate ⟨[[6]]⟩)),
    .receive 0 (message 3 (.clientKeyExchange ⟨[], [4, 2]⟩)), .parse drawn (some []) (.ok ()),
    .receive 0 (message 4 (.certificateVerify ⟨⟨.sha256, .ecdsa⟩, [1]⟩)),
    .parse drawn (some [(1, message 5 (.finished ⟨[1]⟩))]) (.ok ()),
    .prepare drawn (.ok ()), .send 0 (.ok ())]

def run : Option DtlsConn := Lts.run (DtlsConn.step crypto cfg) .new events

/-- A packet of the run, as a computation finds it. -/
theorem exists_written {P : Packet → Bool} (h : run.any (fun c => c.written.any P) = true) :
    ∃ c, run = some c ∧ ∃ p ∈ c.written, P p = true := by
  obtain ⟨c, hrun, hany⟩ := (Option.any_eq_true _ _).mp h
  exact ⟨c, hrun, List.any_eq_true.mp hany⟩

end SampleRun

section
variable {crypto : Crypto} {cfg : HandshakeConfig} {c c' : DtlsConn}

/-! ## Over whole runs -/

theorem fault_handshakeState (c : DtlsConn) (f : Fault) (net : Except Error Unit)
    (go : HandshakeState) : (c.fault f net go).handshakeState = go
      ∨ ∃ e, (c.fault f net go).handshakeState = .errored e := by
  unfold DtlsConn.fault
  split
  · exact .inl rfl
  · exact .inr ⟨_, rfl⟩
  · exact .inl rfl
  · exact .inr ⟨_, rfl⟩
  · exact .inr ⟨_, rfl⟩

theorem fault_ne_finished {f : Fault} {net : Except Error Unit} {go : HandshakeState}
    (hgo : go ≠ .finished) : (c.fault f net go).handshakeState ≠ .finished := by
  rcases fault_handshakeState c f net go with h | ⟨e, h⟩ <;> rw [h]
  · exact hgo
  · simp

/-- The loop is finished only by the last flight. -/
theorem finished_step {e : DtlsConn.Event}
    (h : c.handshakeState = .finished → c.currentFlight = .flight6)
    (hstep : DtlsConn.step crypto cfg c e = some c') :
    c'.handshakeState = .finished → c'.currentFlight = .flight6 := by
  cases e with
  | receive epoch data =>
      obtain rfl := Option.some.inj hstep
      exact h
  | alert a =>
      obtain rfl := Option.some.inj hstep
      exact h
  | prepare drawn net =>
      obtain ⟨-, heq⟩ := Option.ite_none_right_eq_some.mp hstep
      obtain rfl := Option.some.inj heq
      intro hdone
      unfold DtlsConn.prepare at hdone
      dsimp only at hdone
      split at hdone
      · exact absurd hdone (fault_ne_finished (by simp))
      · cases hdone
  | send kept net =>
      obtain ⟨-, heq⟩ := Option.ite_none_right_eq_some.mp hstep
      obtain rfl := Option.some.inj heq
      have hlast : c.afterSend = .finished → c.currentFlight = .flight6 := by
        unfold DtlsConn.afterSend
        cases c.currentFlight <;> simp [Flight.isLastSendFlight]
      unfold DtlsConn.send
      split
      · exact hlast
      · dsimp only
        split
        · exact fun hdone => by cases hdone
        · split
          · exact hlast
          · exact fun hdone => by cases hdone
          · exact hlast
  | parse drawn queued net =>
      obtain ⟨-, heq⟩ := Option.ite_none_right_eq_some.mp hstep
      obtain rfl := Option.some.inj heq
      intro hdone
      unfold DtlsConn.parse at hdone
      dsimp only at hdone
      split at hdone
      · exact absurd hdone (fault_ne_finished (by simp))
      · split at hdone
        · rename_i hlast
          cases hlast.1
        · cases hdone
  | retransmitTimer =>
      obtain ⟨-, heq⟩ := Option.ite_none_right_eq_some.mp hstep
      obtain rfl := Option.some.inj heq
      intro hdone
      dsimp only at hdone
      split at hdone <;> cases hdone
  | readerGone =>
      obtain ⟨-, heq⟩ := Option.ite_none_right_eq_some.mp hstep
      obtain rfl := Option.some.inj heq
      exact fun hdone => by cases hdone

variable {es : List DtlsConn.Event}

/-- Until the client has returned the 20 bytes of the cookie it gets alerts and
the cookie, nothing else. -/
theorem DtlsConn.answers_after_cookie (hrun : run (step crypto cfg) .new es = some c) {p : Packet}
    (hp : p ∈ c.written) (halert : p.isAlert = false)
    (hverify : p.message ≠ some (.helloVerifyRequest ⟨protocolVersion1_2, c.state.cookie⟩)) :
    c.state.cookie.length = cookieLength ∧ Returned cfg c.cache c.state.cookie := by
  rcases (guarded_run hrun).base.written p hp with h | h | ⟨hlength, hreturned, -⟩
  · rw [halert] at h
    cases h
  · exact absurd h hverify
  · exact ⟨hlength, hreturned⟩

theorem DtlsConn.answers_after_cookie_done : ∃ c p, SampleRun.run = some c ∧ p ∈ c.written
    ∧ p.message = some .serverHelloDone
    ∧ c.state.cookie.length = cookieLength ∧ Returned SampleRun.cfg c.cache c.state.cookie := by
  obtain ⟨c, hrun, p, hp, hfound⟩ := SampleRun.exists_written
    (P := fun p => !p.isAlert && decide (p.message = some .serverHelloDone)) (by decide +kernel)
  simp only [Bool.and_eq_true, Bool.not_eq_true', decide_eq_true_eq] at hfound
  exact ⟨c, p, hrun, hp, hfound.2, answers_after_cookie hrun hp hfound.1 fun hm => by
    rw [hfound.2] at hm
    cases hm⟩

theorem agreed_of_written (hrun : run (DtlsConn.step crypto cfg) .new es = some c) {p : Packet}
    (hp : p ∈ c.written) {m : HandshakeMessage} (hm : p.message = some m)
    (hverify : ∀ m', m ≠ .helloVerifyRequest m') : Agreed crypto cfg c.cache m := by
  rcases (guarded_run hrun).base.written p hp with h | h | ⟨-, -, hmessage⟩
  · unfold Packet.isAlert at h
    unfold Packet.message at hm
    split at h
    · rename_i hcontent
      rw [hcontent] at hm
      cases hm
    · cases h
  · exact absurd (Option.some.inj (hm.symm.trans h)) (hverify _)
  · exact hmessage m hm

/-! ## The first hello -/

theorem fault_fatal {f : Fault} {net : Except Error Unit} {go : HandshakeState} (hf : Fatal f) :
    ∃ e, (c.fault f net go).handshakeState = .errored e := by
  unfold DtlsConn.fault
  split
  · exact absurd rfl hf
  · exact ⟨_, rfl⟩
  · exact absurd rfl hf
  · exact ⟨_, rfl⟩
  · exact ⟨_, rfl⟩

theorem exec_parse0 {publicKey privateKey : Bytes} {cache : HandshakeCache} {next : Int}
    {hello : ClientHello} {s : State} (hpull : cache.fullPullMap 0 [clientHelloRule cfg]
      = .ok (next, [(.clientHello, .clientHello hello)])) :
    exec (Flight0.parse cfg publicKey privateKey cache) s
      = exec (acceptHello cfg publicKey privateKey hello)
          { s with handshakeRecvSequence := next } := by
  unfold Flight0.parse pullMap
  rw [hpull]
  rfl

/-- The first hello is accepted exactly if it is acceptable; any other ends the
handshake. -/
theorem DtlsConn.first_hello_decides (hrun : run (step crypto cfg) .new es = some c)
    (hc : c.handshakeState = .waiting) (hfl : c.currentFlight = .flight0) {next : Int}
    {hello : ClientHello} (hpull : c.cache.fullPullMap 0 [clientHelloRule cfg]
      = .ok (next, [(.clientHello, .clientHello hello)]))
    (drawn : Flight.Drawn) (queued : Option (List (UInt16 × Bytes))) (net : Except Error Unit) :
    (hello.Acceptable cfg ∧ (c.parse crypto cfg drawn queued net).currentFlight = .flight2
        ∧ (c.parse crypto cfg drawn queued net).handshakeState = .preparing)
      ∨ (¬ hello.Acceptable cfg
        ∧ ∃ e, (c.parse crypto cfg drawn queued net).handshakeState = .errored e) := by
  have hlive : Underway crypto cfg c := (guarded_run hrun).live fun e he => by simp [hc] at he
  obtain ⟨hpair, hems, hsrtp⟩ := hlive.unread hfl
  have hfresh : Fresh { c.state with handshakeRecvSequence := next } :=
    ⟨hems, hsrtp, hlive.curve hfl (by simp [hc]), hpair⟩
  have hiff : (∃ flight s', exec (acceptHello cfg drawn.publicKey drawn.privateKey hello)
      { c.state with handshakeRecvSequence := next } = (.ok flight, s'))
        ↔ hello.Acceptable cfg := acceptHello_ok_iff hfresh
  unfold DtlsConn.parse
  rw [hfl]
  dsimp only [Flight.parse]
  rw [exec_parse0 hpull]
  rcases hexec : exec (acceptHello cfg drawn.publicKey drawn.privateKey hello)
    { c.state with handshakeRecvSequence := next } with ⟨r, state⟩
  cases r with
  | ok flight =>
      obtain ⟨rfl, -⟩ := acceptHello_spec (.inl hfresh) hexec
      exact .inl ⟨hiff.mp ⟨_, _, hexec⟩, rfl, rfl⟩
  | error f =>
      refine .inr ⟨fun hacceptable => ?_, ?_⟩
      · obtain ⟨_, _, hok⟩ := hiff.mpr hacceptable
        simp [hexec] at hok
      · exact fault_fatal (faults_acceptHello _ _ _ _ _ _ _ hexec)

theorem DtlsConn.first_hello_decides_sample :
    ∃ c, Lts.run (step SampleRun.crypto SampleRun.cfg) .new (SampleRun.events.take 3) = some c
      ∧ (((SampleRun.hello []).Acceptable SampleRun.cfg
          ∧ (c.parse SampleRun.crypto SampleRun.cfg SampleRun.drawn (some [])
            (.ok ())).currentFlight = .flight2
          ∧ (c.parse SampleRun.crypto SampleRun.cfg SampleRun.drawn (some [])
            (.ok ())).handshakeState = .preparing)
        ∨ (¬ (SampleRun.hello []).Acceptable SampleRun.cfg ∧ ∃ e,
          (c.parse SampleRun.crypto SampleRun.cfg SampleRun.drawn (some []) (.ok ())).handshakeState
            = .errored e)) := by
  have hany : (Lts.run (step SampleRun.crypto SampleRun.cfg) .new
      (SampleRun.events.take 3)).any (fun c => decide (c.handshakeState = .waiting
        ∧ c.currentFlight = .flight0 ∧ c.cache.fullPullMap 0 [clientHelloRule SampleRun.cfg]
          = .ok (1, [(.clientHello, .clientHello (SampleRun.hello []))]))) = true := by
    decide +kernel
  obtain ⟨c, hrun, hfound⟩ := (Option.any_eq_true _ _).mp hany
  obtain ⟨hc, hfl, hpull⟩ := of_decide_eq_true hfound
  exact ⟨c, hrun, first_hello_decides hrun hc hfl hpull _ _ _⟩

/-- Every hello of the server picks from what the client's first hello offers
and the configuration allows. -/
theorem DtlsConn.server_hello_answers (hrun : run (step crypto cfg) .new es = some c) {p : Packet}
    (hp : p ∈ c.written) {m : ServerHello} (hm : p.message = some (.serverHello m)) :
    ∃ hello, c.cache.FromClient cfg.initialEpoch 0 (.clientHello hello) ∧ Answers cfg hello m :=
  agreed_of_written hrun hp hm nofun

theorem DtlsConn.server_hello_answers_suite : ∃ c p m, SampleRun.run = some c ∧ p ∈ c.written
    ∧ p.message = some (.serverHello m)
    ∧ ∃ hello, c.cache.FromClient 0 0 (.clientHello hello) ∧ Answers SampleRun.cfg hello m := by
  obtain ⟨c, hrun, p, hp, hfound⟩ := SampleRun.exists_written
    (P := fun p => decide (p.message.map HandshakeMessage.handshakeType = some .serverHello))
    (by decide +kernel)
  obtain ⟨m, hm, htype⟩ := Option.map_eq_some_iff.mp (of_decide_eq_true hfound)
  cases m with
  | serverHello m => exact ⟨c, p, m, hrun, hp, hm, server_hello_answers hrun hp hm⟩
  | _ => cases htype

/-- The key exchange is on the first curve of the client's that is implemented,
wherever in its list that curve stands. -/
theorem DtlsConn.key_exchange_curve (hrun : run (step crypto cfg) .new es = some c) {p : Packet}
    (hp : p ∈ c.written) {m : ServerKeyExchange} (hm : p.message = some (.serverKeyExchange m))
    (hpsk : cfg.localPskCallback.isNone = true) :
    ∃ hello, c.cache.FromClient cfg.initialEpoch 0 (.clientHello hello)
      ∧ m.namedCurve = chosenCurve hello.extensions defaultNamedCurve
      ∧ m.namedCurve ≠ .unsupported
      ∧ (m.namedCurve = defaultNamedCurve ∨ ∃ curves,
          .supportedEllipticCurves curves ∈ hello.extensions ∧ m.namedCurve ∈ curves) := by
  obtain ⟨hello, hfrom, hcurve, hne⟩ := agreed_of_written hrun hp hm nofun hpsk
  refine ⟨hello, hfrom, hcurve, hne, ?_⟩
  rw [hcurve] at hne ⊢
  exact chosenCurve_mem hne

theorem DtlsConn.key_exchange_curve_second : ∃ c p m, SampleRun.run = some c ∧ p ∈ c.written
    ∧ p.message = some (.serverKeyExchange m)
    ∧ ∃ hello, c.cache.FromClient 0 0 (.clientHello hello)
      ∧ m.namedCurve = chosenCurve hello.extensions defaultNamedCurve
      ∧ m.namedCurve ≠ .unsupported
      ∧ (m.namedCurve = defaultNamedCurve ∨ ∃ curves,
          .supportedEllipticCurves curves ∈ hello.extensions ∧ m.namedCurve ∈ curves) := by
  obtain ⟨c, hrun, p, hp, hfound⟩ := SampleRun.exists_written
    (P := fun p => decide (p.message.map HandshakeMessage.handshakeType = some .serverKeyExchange))
    (by decide +kernel)
  obtain ⟨m, hm, htype⟩ := Option.map_eq_some_iff.mp (of_decide_eq_true hfound)
  cases m with
  | serverKeyExchange m => exact ⟨c, p, m, hrun, hp, hm, key_exchange_curve hrun hp hm rfl⟩
  | _ => cases htype

/-- A server that is done has a client that may go on. -/
theorem DtlsConn.finished_admitted (hrun : run (step crypto cfg) .new es = some c)
    (hdone : c.handshakeState = .finished) :
    Returned cfg c.cache c.state.cookie ∧ Settled cfg c.cache c.state
      ∧ Admitted crypto cfg c.cache c.state.peerCertificates := by
  have h6 : c.currentFlight = .flight6 :=
    run_invariant finished_step hrun (fun h => by cases h) hdone
  have hlive : Underway crypto cfg c := (guarded_run hrun).live fun e he => by simp [hdone] at he
  exact ⟨hlive.returned (.inr h6), hlive.settled (by simp [h6]), hlive.admitted h6⟩

theorem DtlsConn.finished_admitted_signed : ∃ c, SampleRun.run = some c
    ∧ c.handshakeState = .finished ∧ c.state.peerCertificates = [[6]]
    ∧ Returned SampleRun.cfg c.cache c.state.cookie ∧ Settled SampleRun.cfg c.cache c.state
    ∧ Admitted SampleRun.crypto SampleRun.cfg c.cache c.state.peerCertificates := by
  have hany : SampleRun.run.any (fun c => decide (c.handshakeState = .finished
      ∧ c.state.peerCertificates = [[6]])) = true := by decide +kernel
  obtain ⟨c, hrun, hdone⟩ := (Option.any_eq_true _ _).mp hany
  obtain ⟨hdone, hcerts⟩ := of_decide_eq_true hdone
  exact ⟨c, hrun, hdone, hcerts, finished_admitted hrun hdone⟩

end

end Dtls

end XashProxy
