import XashProxy.DtlsFlights

/-!
# What the first hello settles

Flight 0 takes the cipher suite, the curve, the SRTP profile and the kind of
master secret from the client's first hello. A client that misses the cookie
sends the hello again, and flight 2 then goes through it a second time; it
settles the same.
-/

namespace XashProxy

namespace Dtls

open Codec Programs

/-- The curve that the extensions lead to: the first one implemented, of the
last list. -/
def chosenCurve : List Extension → NamedCurve → NamedCurve
  | [], before => before
  | .supportedEllipticCurves curves :: extensions, _ => chosenCurve extensions (pickCurve curves)
  | _ :: extensions, before => chosenCurve extensions before

theorem chosenCurve_of_noList {extensions : List Extension} (before before' : NamedCurve) :
    chosenCurve extensions before = chosenCurve extensions before'
      ∨ ∀ curve, chosenCurve extensions curve = curve := by
  induction extensions generalizing before before' with
  | nil => exact .inr fun _ => rfl
  | cons e extensions ih =>
      cases e with
      | supportedEllipticCurves curves => exact .inl rfl
      | _ => exact ih before before'

theorem chosenCurve_idem (extensions : List Extension) (before : NamedCurve) :
    chosenCurve extensions (chosenCurve extensions before) = chosenCurve extensions before := by
  rcases chosenCurve_of_noList (chosenCurve extensions before) before with h | h
  · exact h
  · exact h _

theorem pickCurve_mem {curves : List NamedCurve} (h : pickCurve curves ≠ .unsupported) :
    pickCurve curves ∈ curves := by
  unfold pickCurve at h ⊢
  cases hfind : curves.find? fun curve => curve ≠ .unsupported with
  | none =>
      rw [hfind] at h
      exact absurd rfl h
  | some curve => exact List.mem_of_find?_eq_some hfind

/-- A curve that is implemented is one that the client offered, unless it
offered none. -/
theorem chosenCurve_mem {extensions : List Extension} {before : NamedCurve}
    (h : chosenCurve extensions before ≠ .unsupported) :
    chosenCurve extensions before = before ∨ ∃ curves,
      .supportedEllipticCurves curves ∈ extensions ∧ chosenCurve extensions before ∈ curves := by
  induction extensions generalizing before with
  | nil => exact .inl rfl
  | cons e extensions ih =>
      have hlater : ∀ {before'}, chosenCurve extensions before' ≠ .unsupported →
          chosenCurve extensions before' = before' ∨ ∃ curves,
            .supportedEllipticCurves curves ∈ e :: extensions
              ∧ chosenCurve extensions before' ∈ curves := by
        intro before' h
        rcases ih h with heq | ⟨curves, hmem, hcurve⟩
        · exact .inl heq
        · exact .inr ⟨curves, List.mem_cons_of_mem e hmem, hcurve⟩
      cases e with
      | supportedEllipticCurves curves =>
          rcases hlater h with heq | hmem
          · refine .inr ⟨curves, List.mem_cons_self, ?_⟩
            rw [chosenCurve] at h ⊢
            rw [heq] at h ⊢
            exact pickCurve_mem h
          · exact .inr hmem
      | _ => exact hlater h

/-! ## The extensions of a hello -/

/-- The part of the state that the extensions do not touch. -/
def State.unoffered (s : State) : State :=
  { s with
    namedCurve := .unsupported
    srtpProtectionProfile := .unsupported
    extendedMasterSecret := false
    serverName := "" }

def Extension.isExtendedMasterSecret : Extension → Bool
  | .useExtendedMasterSecret _ => true
  | _ => false

/-- A profile that the extensions offer and the configuration has. -/
def SrtpShared (cfg : HandshakeConfig) (extensions : List Extension)
    (profile : SrtpProtectionProfile) : Prop :=
  ∃ profiles, .useSrtp profiles ∈ extensions ∧ profile ∈ profiles
    ∧ profile ∈ cfg.localSrtpProtectionProfiles

/-- What a list of extensions does to the state. -/
structure Offered (cfg : HandshakeConfig) (extensions : List Extension) (s s' : State) : Prop where
  unoffered : s'.unoffered = s.unoffered
  namedCurve : s'.namedCurve = chosenCurve extensions s.namedCurve
  extendedMasterSecret : s'.extendedMasterSecret = (s.extendedMasterSecret
    || (cfg.extendedMasterSecret ≠ .disable && extensions.any Extension.isExtendedMasterSecret))
  srtp : s'.srtpProtectionProfile = s.srtpProtectionProfile
    ∨ SrtpShared cfg extensions s'.srtpProtectionProfile

theorem findMatching_mem {α : Type} [DecidableEq α] {a b : List α} {x : α}
    (h : findMatching a b = some x) : x ∈ a ∧ x ∈ b :=
  ⟨List.mem_of_find?_eq_some h, by simpa using List.find?_some h⟩

theorem exec_failWith_eq_ok {α : Type} {description : AlertDescription} {e : Error} {a : α}
    {s s' : State} : exec (failWith description e : FlightM α) s = (.ok a, s') ↔ False :=
  exec_throw_eq_ok

theorem offer_spec {cfg : HandshakeConfig} {e : Extension} {s s' : State}
    (h : exec (offer cfg e) s = (.ok (), s')) : Offered cfg [e] s s' := by
  cases e with
  | supportedEllipticCurves curves =>
      simp only [offer] at h
      split at h
      · exact (exec_failWith_eq_ok.mp h).elim
      · obtain rfl := exec_modify_eq_ok.mp h
        exact ⟨rfl, rfl, by simp [Extension.isExtendedMasterSecret], .inl rfl⟩
  | useSrtp profiles =>
      simp only [offer] at h
      split at h
      · rename_i profile hprofile
        obtain rfl := exec_modify_eq_ok.mp h
        exact ⟨rfl, rfl, by simp [Extension.isExtendedMasterSecret],
          .inr ⟨profiles, List.mem_cons_self, findMatching_mem hprofile⟩⟩
      · exact (exec_failWith_eq_ok.mp h).elim
  | useExtendedMasterSecret supported =>
      simp only [offer] at h
      split at h
      · rename_i hne
        obtain rfl := exec_modify_eq_ok.mp h
        exact ⟨rfl, rfl, by simp [Extension.isExtendedMasterSecret, hne], .inl rfl⟩
      · rename_i hne
        obtain ⟨-, rfl⟩ := exec_pure_eq_ok.mp h
        exact ⟨rfl, rfl, by simp [not_not.mp hne], .inl rfl⟩
  | serverName name =>
      obtain rfl := exec_modify_eq_ok.mp h
      exact ⟨rfl, rfl, by simp [Extension.isExtendedMasterSecret], .inl rfl⟩
  | _ =>
      obtain ⟨-, rfl⟩ := exec_pure_eq_ok.mp h
      exact ⟨rfl, rfl, by simp [Extension.isExtendedMasterSecret], .inl rfl⟩

theorem chosenCurve_cons (e : Extension) (extensions : List Extension) (before : NamedCurve) :
    chosenCurve (e :: extensions) before = chosenCurve extensions (chosenCurve [e] before) := by
  cases e <;> rfl

theorem Offered.cons {cfg : HandshakeConfig} {e : Extension} {extensions : List Extension}
    {s t s' : State} (h : Offered cfg [e] s t) (h' : Offered cfg extensions t s') :
    Offered cfg (e :: extensions) s s' where
  unoffered := h'.unoffered.trans h.unoffered
  namedCurve := by rw [h'.namedCurve, h.namedCurve, chosenCurve_cons e extensions]
  extendedMasterSecret := by
    rw [h'.extendedMasterSecret, h.extendedMasterSecret, List.any_cons, List.any_cons, List.any_nil,
      Bool.or_false, Bool.or_assoc, ← Bool.and_or_distrib_left]
  srtp := by
    rcases h'.srtp with heq | ⟨profiles, hmem, hshared⟩
    · rw [heq]
      refine h.srtp.imp_right fun ⟨profiles, hmem, hshared⟩ => ⟨profiles, ?_, hshared⟩
      rw [List.mem_singleton.mp hmem]
      exact List.mem_cons_self
    · exact .inr ⟨profiles, List.mem_cons_of_mem e hmem, hshared⟩

theorem offers_spec {cfg : HandshakeConfig} {extensions : List Extension} {s s' : State}
    (h : exec (offers cfg extensions) s = (.ok (), s')) : Offered cfg extensions s s' := by
  induction extensions generalizing s with
  | nil =>
      obtain ⟨-, rfl⟩ := exec_pure_eq_ok.mp h
      exact ⟨rfl, rfl, by simp, .inl rfl⟩
  | cons e extensions ih =>
      obtain ⟨_, t, hone, hrest⟩ := exec_bind_eq_ok.mp h
      exact (offer_spec hone).cons (ih hrest)

/-! ## The hello as a whole -/

/-- What a server in flight 2 or later has agreed to. -/
structure Negotiated (cfg : HandshakeConfig) (hello : ClientHello) (s : State) : Prop where
  version : hello.version = protocolVersion1_2
  remoteRandom : s.remoteRandom = hello.random
  cipherSuite : ∃ id, findMatching hello.cipherSuites cfg.localCipherSuites = some id
    ∧ (id ≠ .unsupported → s.cipherSuite.map CipherSuite.id = some id)
  extendedMasterSecret : s.extendedMasterSecret = (cfg.extendedMasterSecret ≠ .disable
    && hello.extensions.any Extension.isExtendedMasterSecret)
  required : cfg.extendedMasterSecret = .require → s.extendedMasterSecret = true
  srtp : s.srtpProtectionProfile = .unsupported
    ∨ SrtpShared cfg hello.extensions s.srtpProtectionProfile
  namedCurve : s.namedCurve = chosenCurve hello.extensions defaultNamedCurve
  supported : s.namedCurve ≠ .unsupported
  keypair : ∃ keypair, s.localKeypair = some keypair ∧ keypair.curve = s.namedCurve

/-- A server that has read no hello. -/
structure Fresh (s : State) : Prop where
  extendedMasterSecret : s.extendedMasterSecret = false
  srtp : s.srtpProtectionProfile = .unsupported
  namedCurve : s.namedCurve = defaultNamedCurve
  localKeypair : s.localKeypair = none

theorem chooseCipherSuite_spec {cfg : HandshakeConfig} {cipherSuites : List CipherSuiteId}
    {s s' : State} (h : exec (chooseCipherSuite cfg cipherSuites) s = (.ok (), s')) :
    ∃ id, findMatching cipherSuites cfg.localCipherSuites = some id
      ∧ s' = { s with cipherSuite := (cipherSuiteForId id).orElse fun _ => s.cipherSuite } := by
  unfold chooseCipherSuite at h
  split at h
  · rename_i id hid
    refine ⟨id, hid, ?_⟩
    split at h
    · rename_i cipherSuite hsuite
      obtain rfl := exec_modify_eq_ok.mp h
      rw [hsuite]
      rfl
    · rename_i hsuite
      obtain ⟨-, rfl⟩ := exec_pure_eq_ok.mp h
      rw [hsuite]
      rfl
  · exact (exec_failWith_eq_ok.mp h).elim

theorem requireExtendedMasterSecret_spec {cfg : HandshakeConfig} {s s' : State}
    (h : exec (requireExtendedMasterSecret cfg) s = (.ok (), s')) :
    s' = s ∧ (cfg.extendedMasterSecret = .require → s.extendedMasterSecret = true) := by
  obtain ⟨_, _, hget, hrest⟩ := exec_bind_eq_ok.mp h
  obtain ⟨rfl, rfl⟩ := exec_get_eq_ok.mp hget
  split at hrest
  · exact (exec_failWith_eq_ok.mp hrest).elim
  · rename_i hnot
    obtain ⟨-, rfl⟩ := exec_pure_eq_ok.mp hrest
    refine ⟨rfl, fun hrequire => ?_⟩
    by_contra hems
    exact hnot ⟨hrequire, Bool.not_eq_true _ ▸ hems⟩

theorem generateKeypair_eq_ok {curve : NamedCurve} {publicKey privateKey : Bytes}
    {keypair : NamedCurveKeypair}
    (h : curve.generateKeypair publicKey privateKey = .ok keypair) :
    curve ≠ .unsupported ∧ keypair = ⟨curve, publicKey, privateKey⟩ := by
  cases curve <;> simp_all [NamedCurve.generateKeypair]

/-- The key pair is on the curve that was settled. -/
theorem drawKeypair_spec {publicKey privateKey : Bytes} {s s' : State}
    (h : exec (drawKeypair publicKey privateKey) s = (.ok (), s')) :
    (s' = s ∧ s.localKeypair.isSome = true) ∨ (s.namedCurve ≠ .unsupported
      ∧ s' = { s with localKeypair := some ⟨s.namedCurve, publicKey, privateKey⟩ }) := by
  obtain ⟨_, _, hget, hrest⟩ := exec_bind_eq_ok.mp h
  obtain ⟨rfl, rfl⟩ := exec_get_eq_ok.mp hget
  split at hrest
  · split at hrest
    · rename_i keypair hkeypair
      obtain ⟨hne, rfl⟩ := generateKeypair_eq_ok hkeypair
      exact .inr ⟨hne, (exec_modify_eq_ok.mp hrest).symm⟩
    · exact (exec_failWith_eq_ok.mp hrest).elim
  · rename_i hsome
    obtain ⟨-, rfl⟩ := exec_pure_eq_ok.mp hrest
    exact .inl ⟨rfl, by simpa [Option.isSome_iff_ne_none] using hsome⟩

theorem cipherSuiteForId_eq_some {id : CipherSuiteId} (h : id ≠ .unsupported) :
    cipherSuiteForId id = some ⟨id, none⟩ := by
  cases id <;> first | rfl | exact absurd rfl h

/-- The first hello settles the terms, and again the same terms. -/
theorem acceptHello_spec {cfg : HandshakeConfig} {publicKey privateKey : Bytes}
    {hello : ClientHello} {next : Flight} {s s' : State} (hs : Fresh s ∨ Negotiated cfg hello s)
    (h : exec (acceptHello cfg publicKey privateKey hello) s = (.ok next, s')) :
    next = .flight2 ∧ Negotiated cfg hello s' := by
  unfold acceptHello at h
  split at h
  · exact (exec_failWith_eq_ok.mp h).elim
  rename_i hversion
  obtain ⟨_, s₁, hrandom, h⟩ := exec_bind_eq_ok.mp h
  obtain ⟨_, s₂, hsuite, h⟩ := exec_bind_eq_ok.mp h
  obtain ⟨_, s₃, hoffers, h⟩ := exec_bind_eq_ok.mp h
  obtain ⟨_, s₄, hrequire, h⟩ := exec_bind_eq_ok.mp h
  obtain ⟨_, s₅, hkeypair, h⟩ := exec_bind_eq_ok.mp h
  obtain ⟨rfl, rfl⟩ := exec_pure_eq_ok.mp h
  obtain rfl := exec_modify_eq_ok.mp hrandom
  obtain ⟨id, hid, rfl⟩ := chooseCipherSuite_spec hsuite
  have hoffered := offers_spec hoffers
  obtain ⟨rfl, hrequired⟩ := requireExtendedMasterSecret_spec hrequire
  have hkept : s₄.remoteRandom = hello.random ∧ s₄.localKeypair = s.localKeypair
      ∧ s₄.cipherSuite = (cipherSuiteForId id).orElse fun _ => s.cipherSuite := by
    have hrandom := congrArg State.remoteRandom hoffered.unoffered
    have hpair := congrArg State.localKeypair hoffered.unoffered
    have hsuite := congrArg State.cipherSuite hoffered.unoffered
    exact ⟨hrandom, hpair, hsuite⟩
  have hcurve : s₄.namedCurve = chosenCurve hello.extensions defaultNamedCurve := by
    rw [hoffered.namedCurve]
    rcases hs with hfresh | hneg
    · rw [hfresh.namedCurve]
    · rw [hneg.namedCurve, chosenCurve_idem]
  have hems : s₄.extendedMasterSecret = (cfg.extendedMasterSecret ≠ .disable
      && hello.extensions.any Extension.isExtendedMasterSecret) := by
    rw [hoffered.extendedMasterSecret]
    rcases hs with hfresh | hneg
    · rw [hfresh.extendedMasterSecret, Bool.false_or]
    · rw [hneg.extendedMasterSecret, Bool.or_self]
  have hsrtp : s₄.srtpProtectionProfile = .unsupported
      ∨ SrtpShared cfg hello.extensions s₄.srtpProtectionProfile := by
    rcases hoffered.srtp with heq | hshared
    · rw [heq]
      exact hs.elim (fun hfresh => .inl hfresh.srtp) Negotiated.srtp
    · exact .inr hshared
  have hid' : id ≠ .unsupported → s₄.cipherSuite.map CipherSuite.id = some id := by
    intro hne
    rw [hkept.2.2, cipherSuiteForId_eq_some hne]
    rfl
  refine ⟨rfl, ?_⟩
  rcases drawKeypair_spec hkeypair with ⟨rfl, hsome⟩ | ⟨hne, rfl⟩
  · -- the key pair of the first time
    have hneg : Negotiated cfg hello s := by
      rcases hs with hfresh | hneg
      · rw [hkept.2.1, hfresh.localKeypair] at hsome
        cases hsome
      · exact hneg
    have hsame : s₅.namedCurve = s.namedCurve := hcurve.trans hneg.namedCurve.symm
    obtain ⟨keypair, hpair, hon⟩ := hneg.keypair
    exact ⟨not_not.mp hversion, hkept.1, ⟨id, hid, hid'⟩, hems, hrequired, hsrtp, hcurve,
      hsame ▸ hneg.supported, keypair, hkept.2.1.trans hpair, hon.trans hsame.symm⟩
  · exact ⟨not_not.mp hversion, hkept.1, ⟨id, hid, hid'⟩, hems, hrequired, hsrtp, hcurve, hne,
      _, rfl, rfl⟩

/-! ## Which hellos are accepted -/

/-- An extension that flight 0 does not refuse. -/
def Extension.Acceptable (cfg : HandshakeConfig) : Extension → Prop
  | .supportedEllipticCurves curves => curves ≠ []
  | .useSrtp profiles => ∃ profile ∈ profiles, profile ∈ cfg.localSrtpProtectionProfiles
  | _ => True

structure ClientHello.Acceptable (cfg : HandshakeConfig) (hello : ClientHello) : Prop where
  version : hello.version = protocolVersion1_2
  cipherSuite : ∃ id ∈ hello.cipherSuites, id ∈ cfg.localCipherSuites
  extensions : ∀ e ∈ hello.extensions, e.Acceptable cfg
  extendedMasterSecret : cfg.extendedMasterSecret = .require →
    hello.extensions.any Extension.isExtendedMasterSecret = true
  curve : chosenCurve hello.extensions defaultNamedCurve ≠ .unsupported

theorem findMatching_ne_none_iff {α : Type} [DecidableEq α] {a b : List α} :
    (∃ x, findMatching a b = some x) ↔ ∃ x ∈ a, x ∈ b := by
  rw [← Option.isSome_iff_exists, findMatching, List.find?_isSome]
  simp

theorem offer_ok_iff {cfg : HandshakeConfig} {e : Extension} {s : State} :
    (∃ s', exec (offer cfg e) s = (.ok (), s')) ↔ e.Acceptable cfg := by
  cases e with
  | supportedEllipticCurves curves =>
      simp only [offer, Extension.Acceptable]
      split
      · rename_i hnil
        exact iff_of_false (fun ⟨_, h⟩ => exec_failWith_eq_ok.mp h) (not_not.mpr hnil)
      · rename_i hne
        exact iff_of_true ⟨_, rfl⟩ hne
  | useSrtp profiles =>
      simp only [offer, Extension.Acceptable]
      split
      · rename_i profile hprofile
        exact iff_of_true ⟨_, rfl⟩ ⟨profile, findMatching_mem hprofile⟩
      · rename_i hnone
        refine iff_of_false (fun ⟨_, h⟩ => exec_failWith_eq_ok.mp h) fun h => ?_
        obtain ⟨x, hx⟩ := findMatching_ne_none_iff.mpr h
        rw [hnone] at hx
        cases hx
  | useExtendedMasterSecret supported =>
      simp only [offer]
      split
      · exact iff_of_true ⟨_, rfl⟩ trivial
      · exact iff_of_true ⟨_, rfl⟩ trivial
  | _ => exact iff_of_true ⟨_, rfl⟩ trivial

theorem offers_ok_iff {cfg : HandshakeConfig} {extensions : List Extension} {s : State} :
    (∃ s', exec (offers cfg extensions) s = (.ok (), s'))
      ↔ ∀ e ∈ extensions, e.Acceptable cfg := by
  induction extensions generalizing s with
  | nil => exact iff_of_true ⟨s, rfl⟩ (by simp)
  | cons e extensions ih =>
      rw [List.forall_mem_cons]
      constructor
      · rintro ⟨s', h⟩
        obtain ⟨_, t, hone, hrest⟩ := exec_bind_eq_ok.mp h
        exact ⟨offer_ok_iff.mp ⟨t, hone⟩, ih.mp ⟨s', hrest⟩⟩
      · rintro ⟨hone, hrest⟩
        obtain ⟨t, ht⟩ := offer_ok_iff.mpr hone
        obtain ⟨s', hs'⟩ := (ih (s := t)).mpr hrest
        exact ⟨s', exec_bind_eq_ok.mpr ⟨(), t, ht, hs'⟩⟩

theorem chooseCipherSuite_ok {cfg : HandshakeConfig} {cipherSuites : List CipherSuiteId}
    (s : State) (h : ∃ id ∈ cipherSuites, id ∈ cfg.localCipherSuites) :
    ∃ s', exec (chooseCipherSuite cfg cipherSuites) s = (.ok (), s') := by
  obtain ⟨id, hid⟩ := findMatching_ne_none_iff.mpr h
  unfold chooseCipherSuite
  rw [hid]
  dsimp only
  split
  · exact ⟨_, rfl⟩
  · exact ⟨_, rfl⟩

theorem requireExtendedMasterSecret_ok {cfg : HandshakeConfig} {s : State}
    (h : cfg.extendedMasterSecret = .require → s.extendedMasterSecret = true) :
    exec (requireExtendedMasterSecret cfg) s = (.ok (), s) := by
  refine exec_bind_eq_ok.mpr ⟨s, s, rfl, ?_⟩
  rw [if_neg]
  · rfl
  · rintro ⟨hrequire, hems⟩
    exact Bool.false_ne_true (hems.symm.trans (h hrequire))

theorem drawKeypair_ok (publicKey privateKey : Bytes) {s : State}
    (h : s.namedCurve ≠ .unsupported) :
    ∃ s', exec (drawKeypair publicKey privateKey) s = (.ok (), s') := by
  have hkeypair : s.namedCurve.generateKeypair publicKey privateKey
      = .ok ⟨s.namedCurve, publicKey, privateKey⟩ := by
    cases hcurve : s.namedCurve with
    | unsupported => exact absurd hcurve h
    | _ => rfl
  by_cases hnone : s.localKeypair.isNone = true
  · refine ⟨{ s with localKeypair := some ⟨s.namedCurve, publicKey, privateKey⟩ },
      exec_bind_eq_ok.mpr ⟨s, s, rfl, ?_⟩⟩
    rw [if_pos hnone, hkeypair]
    rfl
  · refine ⟨s, exec_bind_eq_ok.mpr ⟨s, s, rfl, ?_⟩⟩
    rw [if_neg hnone]
    rfl

/-- A server that has read no hello takes exactly the acceptable ones. -/
theorem acceptHello_ok_iff {cfg : HandshakeConfig} {publicKey privateKey : Bytes}
    {hello : ClientHello} {s : State} (hs : Fresh s) :
    (∃ next s', exec (acceptHello cfg publicKey privateKey hello) s = (.ok next, s'))
      ↔ hello.Acceptable cfg := by
  constructor
  · rintro ⟨next, s', h⟩
    have hneg := (acceptHello_spec (.inl hs) h).2
    unfold acceptHello at h
    split at h
    · exact (exec_failWith_eq_ok.mp h).elim
    obtain ⟨_, s₁, -, h⟩ := exec_bind_eq_ok.mp h
    obtain ⟨_, s₂, -, h⟩ := exec_bind_eq_ok.mp h
    obtain ⟨_, s₃, hoffers, -⟩ := exec_bind_eq_ok.mp h
    obtain ⟨id, hid, -⟩ := hneg.cipherSuite
    refine ⟨hneg.version, ⟨id, findMatching_mem hid⟩, offers_ok_iff.mp ⟨s₃, hoffers⟩, ?_, ?_⟩
    · intro hrequire
      have hems := hneg.extendedMasterSecret.symm.trans (hneg.required hrequire)
      exact (Bool.and_eq_true _ _ ▸ hems).2
    · exact hneg.namedCurve ▸ hneg.supported
  · intro h
    obtain ⟨s₂, hsuite⟩ :=
      chooseCipherSuite_ok { s with remoteRandom := hello.random } h.cipherSuite
    obtain ⟨id, -, hs₂⟩ := chooseCipherSuite_spec hsuite
    obtain ⟨s₃, hoffers⟩ := (offers_ok_iff (s := s₂)).mpr h.extensions
    have hoffered := offers_spec hoffers
    have hcurve : s₃.namedCurve = chosenCurve hello.extensions defaultNamedCurve := by
      rw [hoffered.namedCurve, hs₂, hs.namedCurve]
    have hems : cfg.extendedMasterSecret = .require → s₃.extendedMasterSecret = true := by
      intro hrequire
      rw [hoffered.extendedMasterSecret, h.extendedMasterSecret hrequire, hrequire]
      simp
    have hrequire := requireExtendedMasterSecret_ok hems
    obtain ⟨s₅, hkeypair⟩ := drawKeypair_ok publicKey privateKey (hcurve ▸ h.curve)
    refine ⟨.flight2, s₅, ?_⟩
    rw [acceptHello, if_neg (not_not.mpr h.version)]
    exact exec_bind_eq_ok.mpr ⟨(), _, rfl, exec_bind_eq_ok.mpr ⟨(), s₂, hsuite,
      exec_bind_eq_ok.mpr ⟨(), s₃, hoffers, exec_bind_eq_ok.mpr ⟨(), s₃, hrequire,
        exec_bind_eq_ok.mpr ⟨(), s₅, hkeypair, rfl⟩⟩⟩⟩⟩

/-! ## Flights 0 and 2 -/

/-- A fault that ends the handshake. -/
def Fatal (f : Fault) : Prop := f.2 ≠ none

theorem faults_failWith {α : Type} (description : AlertDescription) (e : Error) :
    Faults Fatal (failWith description e : FlightM α) :=
  Faults.throw (Option.some_ne_none e)

theorem faults_offers (cfg : HandshakeConfig) (extensions : List Extension) :
    Faults Fatal (offers cfg extensions) := by
  induction extensions with
  | nil => exact Faults.pure ()
  | cons e extensions ih =>
      refine Faults.bind ?_ fun _ => ih
      unfold offer
      split
      · split
        · exact faults_failWith _ _
        · exact Faults.modify _
      · split
        · exact Faults.modify _
        · exact faults_failWith _ _
      · split
        · exact Faults.modify _
        · exact Faults.pure ()
      · exact Faults.modify _
      · exact Faults.pure ()

theorem faults_acceptHello (cfg : HandshakeConfig) (publicKey privateKey : Bytes)
    (hello : ClientHello) : Faults Fatal (acceptHello cfg publicKey privateKey hello) := by
  unfold acceptHello
  split
  · exact faults_failWith _ _
  refine (Faults.modify _).bind fun _ => Faults.bind ?_ fun _ =>
    (faults_offers cfg _).bind fun _ => Faults.bind ?_ fun _ => Faults.bind ?_ fun _ =>
      Faults.pure _
  · unfold chooseCipherSuite
    split
    · split
      · exact Faults.modify _
      · exact Faults.pure ()
    · exact faults_failWith _ _
  · refine Faults.get.bind fun s => ?_
    split
    · exact faults_failWith _ _
    · exact Faults.pure ()
  · refine Faults.get.bind fun s => ?_
    split
    · split
      · exact Faults.modify _
      · exact faults_failWith _ _
    · exact Faults.pure ()

theorem exec_pullMap_eq_ok {cache : HandshakeCache} {seq : Int}
    {rules : List HandshakeCachePullRule} {out : Int × List (HandshakeType × HandshakeMessage)}
    {s s' : State} (h : exec (pullMap cache seq rules) s = (.ok out, s')) :
    cache.fullPullMap seq rules = .ok out ∧ s = s' := by
  unfold pullMap at h
  split at h
  · rename_i r hr
    obtain ⟨rfl, rfl⟩ := exec_pure_eq_ok.mp h
    exact ⟨hr, rfl⟩
  · exact (exec_throw_eq_ok.mp h).elim

theorem exec_pullMap_eq_error {cache : HandshakeCache} {seq : Int}
    {rules : List HandshakeCachePullRule} {f : Fault} {s s' : State}
    (h : exec (pullMap cache seq rules) s = (.error f, s')) : s = s' := by
  unfold pullMap at h
  split at h
  · exact (exec_pure_eq_error.mp h).elim
  · exact (exec_throw_eq_error.mp h).2

/-- The state of a server between flight 0 and flight 4: the first hello that
the cache holds is the one that it agreed with. -/
def Settled (cfg : HandshakeConfig) (cache : HandshakeCache) (s : State) : Prop :=
  ∃ hello, cache.FromClient cfg.initialEpoch 0 (.clientHello hello) ∧ Negotiated cfg hello s

theorem Flight0.parse_eq_ok {cfg : HandshakeConfig} {publicKey privateKey : Bytes}
    {cache : HandshakeCache} (hkept : cache.Kept) {next : Flight} {s s' : State}
    (hs : Fresh s ∨ Settled cfg cache s)
    (h : exec (Flight0.parse cfg publicKey privateKey cache) s = (.ok next, s')) :
    next = .flight2 ∧ Settled cfg cache s' := by
  obtain ⟨⟨seq, msgs⟩, _, hpull, h⟩ := exec_bind_eq_ok.mp h
  obtain ⟨hmap, rfl⟩ := exec_pullMap_eq_ok hpull
  obtain ⟨_, _, hmodify, h⟩ := exec_bind_eq_ok.mp h
  obtain rfl := exec_modify_eq_ok.mp hmodify
  split at h
  · rename_i hello hlookup
    obtain ⟨-, hfrom⟩ := HandshakeCache.fullPullMap_single hkept rfl hmap hlookup
    have hs' : Fresh { s with handshakeRecvSequence := seq }
        ∨ Negotiated cfg hello { s with handshakeRecvSequence := seq } := by
      rcases hs with hfresh | ⟨hello', hfrom', hneg⟩
      · exact .inl ⟨hfresh.1, hfresh.2, hfresh.3, hfresh.4⟩
      · obtain rfl : hello' = hello := by simpa using hfrom'.eq hkept hfrom
        exact .inr ⟨hneg.1, hneg.2, hneg.3, hneg.4, hneg.5, hneg.6, hneg.7, hneg.8, hneg.9⟩
    obtain ⟨rfl, hneg⟩ := acceptHello_spec hs' h
    exact ⟨rfl, hello, hfrom, hneg⟩
  · exact (exec_throw_eq_ok.mp h).elim

/-- A fault that does not end the handshake leaves what was agreed. -/
theorem Flight0.parse_eq_error {cfg : HandshakeConfig} {publicKey privateKey : Bytes}
    {cache : HandshakeCache} {f : Fault} {s s' : State}
    (h : exec (Flight0.parse cfg publicKey privateKey cache) s = (.error f, s'))
    (hf : ¬ Fatal f) : ∃ seq, s' = { s with handshakeRecvSequence := seq } := by
  rcases exec_bind_eq_error.mp h with hpull | ⟨⟨seq, msgs⟩, _, hpull, h⟩
  · exact ⟨_, (exec_pullMap_eq_error hpull).symm⟩
  obtain ⟨-, rfl⟩ := exec_pullMap_eq_ok hpull
  rcases exec_bind_eq_error.mp h with hmodify | ⟨_, _, hmodify, h⟩
  · exact (exec_modify_eq_error.mp hmodify).elim
  obtain rfl := exec_modify_eq_ok.mp hmodify
  split at h
  · exact absurd (faults_acceptHello cfg publicKey privateKey _ _ _ _ h) hf
  · exact ⟨seq, (exec_throw_eq_error.mp h).2.symm⟩

/-- The client has returned the cookie. -/
def Returned (cfg : HandshakeConfig) (cache : HandshakeCache) (cookie : Bytes) : Prop :=
  ∃ seq hello, cache.FromClient cfg.initialEpoch seq (.clientHello hello)
    ∧ hello.version = protocolVersion1_2 ∧ hello.cookie = cookie

theorem checkCookie_eq_ok {hello : ClientHello} {next : Flight} {s s' : State}
    (h : exec (checkCookie hello) s = (.ok next, s')) :
    next = .flight4 ∧ s' = s ∧ hello.version = protocolVersion1_2 ∧ hello.cookie = s.cookie := by
  unfold checkCookie at h
  split at h
  · exact (exec_failWith_eq_ok.mp h).elim
  rename_i hversion
  split at h
  · exact (exec_throw_eq_ok.mp h).elim
  obtain ⟨_, _, hget, h⟩ := exec_bind_eq_ok.mp h
  obtain ⟨rfl, rfl⟩ := exec_get_eq_ok.mp hget
  split at h
  · exact (exec_failWith_eq_ok.mp h).elim
  rename_i hcookie
  obtain ⟨rfl, rfl⟩ := exec_pure_eq_ok.mp h
  exact ⟨rfl, rfl, not_not.mp hversion, (not_not.mp hcookie).symm⟩

theorem checkCookie_eq_error {hello : ClientHello} {f : Fault} {s s' : State}
    (h : exec (checkCookie hello) s = (.error f, s')) : s' = s := by
  unfold checkCookie at h
  split at h
  · exact (exec_throw_eq_error.mp h).2.symm
  split at h
  · exact (exec_throw_eq_error.mp h).2.symm
  rcases exec_bind_eq_error.mp h with hget | ⟨_, _, hget, h⟩
  · exact (exec_get_eq_error.mp hget).elim
  obtain ⟨rfl, rfl⟩ := exec_get_eq_ok.mp hget
  split at h
  · exact (exec_throw_eq_error.mp h).2.symm
  · exact (exec_pure_eq_error.mp h).elim

theorem Negotiated.withRecvSequence {cfg : HandshakeConfig} {hello : ClientHello} {s : State}
    (h : Negotiated cfg hello s) (seq : Int) :
    Negotiated cfg hello { s with handshakeRecvSequence := seq } :=
  ⟨h.1, h.2, h.3, h.4, h.5, h.6, h.7, h.8, h.9⟩

/-- From flight 2 the server goes on with the cookie, or reads the first hello
again. -/
theorem Flight2.parse_eq_ok {cfg : HandshakeConfig} {publicKey privateKey : Bytes}
    {cache : HandshakeCache} (hkept : cache.Kept) {next : Flight} {s s' : State}
    (hs : Settled cfg cache s)
    (h : exec (Flight2.parse cfg publicKey privateKey cache) s = (.ok next, s')) :
    Settled cfg cache s'
      ∧ (next = .flight2 ∨ (next = .flight4 ∧ Returned cfg cache s.cookie)) := by
  obtain ⟨_, _, hget, h⟩ := exec_bind_eq_ok.mp h
  obtain ⟨rfl, rfl⟩ := exec_get_eq_ok.mp hget
  split at h
  · obtain ⟨rfl, hsettled⟩ := Flight0.parse_eq_ok hkept (.inr hs) h
    exact ⟨hsettled, .inl rfl⟩
  · rename_i seq msgs hmap
    obtain ⟨_, _, hmodify, h⟩ := exec_bind_eq_ok.mp h
    obtain rfl := exec_modify_eq_ok.mp hmodify
    split at h
    · rename_i hello hlookup
      obtain ⟨-, hfrom⟩ := HandshakeCache.fullPullMap_single hkept rfl hmap hlookup
      obtain ⟨rfl, rfl, hversion, hcookie⟩ := checkCookie_eq_ok h
      obtain ⟨hello', hfrom', hneg⟩ := hs
      exact ⟨⟨hello', hfrom', hneg.withRecvSequence seq⟩,
        .inr ⟨rfl, _, hello, hfrom, hversion, hcookie⟩⟩
    · exact (exec_throw_eq_ok.mp h).elim

theorem Flight2.parse_eq_error {cfg : HandshakeConfig} {publicKey privateKey : Bytes}
    {cache : HandshakeCache} {f : Fault} {s s' : State}
    (h : exec (Flight2.parse cfg publicKey privateKey cache) s = (.error f, s'))
    (hf : ¬ Fatal f) : ∃ seq, s' = { s with handshakeRecvSequence := seq } := by
  rcases exec_bind_eq_error.mp h with hget | ⟨_, _, hget, h⟩
  · exact (exec_get_eq_error.mp hget).elim
  obtain ⟨rfl, rfl⟩ := exec_get_eq_ok.mp hget
  split at h
  · exact Flight0.parse_eq_error h hf
  · rename_i seq msgs hmap
    rcases exec_bind_eq_error.mp h with hmodify | ⟨_, _, hmodify, h⟩
    · exact (exec_modify_eq_error.mp hmodify).elim
    obtain rfl := exec_modify_eq_ok.mp hmodify
    split at h
    · exact ⟨seq, checkCookie_eq_error h⟩
    · exact ⟨seq, (exec_throw_eq_error.mp h).2.symm⟩

/-! ## What reading leaves alone -/

/-- What the server drew, its next message number and the client's certificates. -/
def State.unread (s : State) : Bytes × HandshakeRandom × Int × List Bytes :=
  (s.cookie, s.localRandom, s.handshakeSendSequence, s.peerCertificates)

theorem keeps_offers (cfg : HandshakeConfig) (extensions : List Extension) :
    Keeps State.unread (offers cfg extensions) := by
  induction extensions with
  | nil => exact Keeps.pure ()
  | cons e extensions ih =>
      refine Keeps.bind ?_ fun _ => ih
      unfold offer
      split
      · split
        · exact Keeps.throw _
        · exact Keeps.modify fun _ => rfl
      · split
        · exact Keeps.modify fun _ => rfl
        · exact Keeps.throw _
      · split
        · exact Keeps.modify fun _ => rfl
        · exact Keeps.pure ()
      · exact Keeps.modify fun _ => rfl
      · exact Keeps.pure ()

theorem keeps_acceptHello (cfg : HandshakeConfig) (publicKey privateKey : Bytes)
    (hello : ClientHello) : Keeps State.unread (acceptHello cfg publicKey privateKey hello) := by
  unfold acceptHello
  split
  · exact Keeps.throw _
  refine Keeps.bind (Keeps.modify ?_) fun _ => Keeps.bind ?_ fun _ =>
    (keeps_offers cfg _).bind fun _ => Keeps.bind ?_ fun _ => Keeps.bind ?_ fun _ => Keeps.pure _
  · exact fun _ => rfl
  · unfold chooseCipherSuite
    split
    · split
      · exact Keeps.modify fun _ => rfl
      · exact Keeps.pure ()
    · exact Keeps.throw _
  · refine Keeps.get.bind fun s => ?_
    split
    · exact Keeps.throw _
    · exact Keeps.pure ()
  · refine Keeps.get.bind fun s => ?_
    split
    · split
      · exact Keeps.modify fun _ => rfl
      · exact Keeps.throw _
    · exact Keeps.pure ()

theorem keeps_pullMap {γ : Type} (f : State → γ) (cache : HandshakeCache) (seq : Int)
    (rules : List HandshakeCachePullRule) : Keeps f (pullMap cache seq rules) := by
  unfold pullMap
  split
  · exact Keeps.pure _
  · exact Keeps.throw _

theorem keeps_parse0 (cfg : HandshakeConfig) (publicKey privateKey : Bytes)
    (cache : HandshakeCache) :
    Keeps State.unread (Flight0.parse cfg publicKey privateKey cache) := by
  refine (keeps_pullMap _ _ _ _).bind fun ⟨_, _⟩ => Keeps.bind (Keeps.modify ?_) fun _ => ?_
  · exact fun _ => rfl
  split
  · exact keeps_acceptHello cfg publicKey privateKey _
  · exact Keeps.throw _

theorem keeps_parse2 (cfg : HandshakeConfig) (publicKey privateKey : Bytes)
    (cache : HandshakeCache) :
    Keeps State.unread (Flight2.parse cfg publicKey privateKey cache) := by
  refine Keeps.get.bind fun s => ?_
  split
  · exact keeps_parse0 cfg publicKey privateKey cache
  · refine Keeps.bind (Keeps.modify ?_) fun _ => ?_
    · exact fun _ => rfl
    split
    · unfold checkCookie
      split
      · exact Keeps.throw _
      split
      · exact Keeps.throw _
      refine Keeps.get.bind fun s => ?_
      split
      · exact Keeps.throw _
      · exact Keeps.pure _
    · exact Keeps.throw _

end Dtls

end XashProxy
