import XashProxy.DtlsOutcomes
import XashProxy.DtlsTranscripts

/-!
# Message numbers

The server numbers its messages as it prepares them, and starts again at zero
whenever it prepares the cookie. Whatever is sent again, there is one message
under a number, so the server's messages are those of one `Sender` and a client
puts them together in order.
-/

namespace XashProxy

namespace Dtls

open Codec Programs Lts

/-- The handshakes of some packets. -/
def handshakes (ps : List Packet) : List HandshakePacket := ps.filterMap Packet.handshakePacket?

theorem handshakes_append (ps qs : List Packet) :
    handshakes (ps ++ qs) = handshakes ps ++ handshakes qs := List.filterMap_append

/-- A packet that has not been numbered. What is encrypted has an epoch of its
own. -/
def Plain (p : Packet) : Prop :=
  ∀ h, p.record.content = .handshake h → h = .new h.handshakeMessage
    ∧ p.record.recordLayerHeader.contentType = .handshake
    ∧ p.record.recordLayerHeader.protocolVersion = protocolVersion1_2
    ∧ (p.shouldEncrypt = true ↔ p.record.recordLayerHeader.epoch ≠ 0)

/-- The `i`-th message as it is sent. -/
structure AtNumber (epoch : UInt16) (i : Nat) (p : HandshakePacket) : Prop where
  contentType : p.recordLayerHeader.contentType = .handshake
  version : p.recordLayerHeader.protocolVersion = protocolVersion1_2
  encrypts : p.shouldEncrypt = true ↔ p.recordLayerHeader.epoch ≠ epoch
  header : p.handshake.handshakeHeader
    = { (Handshake.new p.handshake.handshakeMessage).handshakeHeader with
        messageSequence := UInt16.ofNat i }

theorem plain_handshakePacket {epoch : UInt16} {shouldEncrypt : Bool}
    (hepoch : shouldEncrypt = true ↔ epoch ≠ 0) (reset : Bool) (m : HandshakeMessage) :
    Plain (handshakePacket epoch shouldEncrypt reset m) := by
  intro h hcontent
  obtain rfl := Content.handshake.inj hcontent
  exact ⟨rfl, rfl, rfl, hepoch⟩

theorem ofInt_ofNat (n : Nat) : UInt16.ofInt (n : Int) = UInt16.ofNat n := by
  apply UInt16.toNat_inj.mp
  rw [UInt16.ofInt, UInt16.toNat_ofNat', UInt16.toNat_ofNat']
  omega

theorem getElem?_cons_of {α : Type} {P : Nat → α → Prop} {x : α} {xs : List α} {n : Nat}
    (hx : P n x) (hxs : ∀ i y, xs[i]? = some y → P (n + 1 + i) y) :
    ∀ i y, (x :: xs)[i]? = some y → P (n + i) y := by
  intro i y h
  cases i with
  | zero =>
      obtain rfl := Option.some.inj h
      exact hx
  | succ i =>
      have hy := hxs i y h
      rwa [Nat.add_assoc, Nat.add_comm 1 i] at hy

theorem numberFrom_spec (epoch : UInt16) {ps : List Packet} (hplain : ∀ p ∈ ps, Plain p)
    (n : Nat) : (∀ i p, (handshakes (DtlsConn.numberFrom epoch n ps).1)[i]? = some p →
        AtNumber epoch (n + i) p)
      ∧ (DtlsConn.numberFrom epoch n ps).2
        = n + (handshakes (DtlsConn.numberFrom epoch n ps).1).length
      ∧ (handshakes (DtlsConn.numberFrom epoch n ps).1).length ≤ ps.length := by
  induction ps generalizing n with
  | nil => simp [DtlsConn.numberFrom, handshakes]
  | cons q ps ih =>
      have hlater := fun p hp => hplain p (List.mem_cons_of_mem q hp)
      rw [DtlsConn.numberFrom]
      split
      · rename_i h hcontent
        obtain ⟨hnumbered, hnext, hlen⟩ := ih hlater (n + 1)
        obtain ⟨hnew, htype, hversion, hencrypts⟩ := hplain q List.mem_cons_self h hcontent
        rw [Int.natCast_add, Int.natCast_one] at hnumbered hnext hlen
        have hcons : ∀ (x : Packet) (xs : List Packet) (y : HandshakePacket),
            x.handshakePacket? = some y → handshakes (x :: xs) = y :: handshakes xs :=
          fun x xs y hxy => List.filterMap_cons_some hxy
        rw [hcons _ _ _ rfl]
        have hencrypted : q.shouldEncrypt = true
            ↔ q.record.recordLayerHeader.epoch + epoch ≠ epoch :=
          hencrypts.trans (not_congr UInt16.add_eq_right).symm
        refine ⟨getElem?_cons_of ⟨htype, hversion, hencrypted, ?_⟩ hnumbered, ?_, ?_⟩
        · rw [← hnew, ofInt_ofNat]
        · rw [hnext, List.length_cons]
          omega
        · rw [List.length_cons, List.length_cons]
          omega
      · rename_i hnot
        obtain ⟨hnumbered, hnext, hlen⟩ := ih hlater n
        have hskip : ∀ header shouldEncrypt reset xs,
            handshakes (⟨⟨header, q.record.content⟩, shouldEncrypt, reset⟩ :: xs)
              = handshakes xs := by
          intro header shouldEncrypt reset xs
          refine List.filterMap_cons_none ?_
          unfold Packet.handshakePacket?
          split
          · rename_i h hcontent
            exact absurd hcontent (hnot h)
          · rfl
        rw [hskip]
        exact ⟨hnumbered, hnext, Nat.le_succ_of_le hlen⟩

/-! ## The packets of a flight -/

/-- How many packets a flight has. -/
def Flight.room : Flight → Nat
  | .flight0 => 0
  | .flight2 => 1
  | .flight4 => 6
  | .flight6 => 2

section
variable {crypto : Crypto} {cfg : HandshakeConfig} {cache : HandshakeCache} {s s' : State}
  {pkts : List Packet}

theorem keyExchangePackets_plain {certificate : LocalCertificate}
    {algorithm : SignatureHashAlgorithm}
    (h : exec (keyExchangePackets crypto certificate algorithm) s = (.ok pkts, s')) :
    (∀ p ∈ pkts, Plain p) ∧ pkts.length ≤ 1 := by
  obtain ⟨_, _, -, h⟩ := exec_bind_eq_ok.mp h
  split at h
  · obtain ⟨rfl, rfl⟩ := exec_pure_eq_ok.mp h
    simp
  · obtain ⟨_, _, -, h⟩ := exec_bind_eq_ok.mp h
    obtain ⟨_, _, -, h⟩ := exec_bind_eq_ok.mp h
    obtain ⟨rfl, rfl⟩ := exec_pure_eq_ok.mp h
    exact ⟨List.forall_mem_singleton.mpr (plain_handshakePacket (by decide) _ _), Nat.le_refl 1⟩

theorem certificateRequestPackets_plain (cfg : HandshakeConfig) :
    (∀ p ∈ certificateRequestPackets cfg, Plain p)
      ∧ (certificateRequestPackets cfg).length ≤ 1 := by
  unfold certificateRequestPackets
  split
  · exact ⟨List.forall_mem_singleton.mpr (plain_handshakePacket (by decide) _ _), Nat.le_refl 1⟩
  · simp

theorem Flight4.generate_plain (h : exec (Flight4.generate crypto cfg) s = (.ok pkts, s')) :
    (∀ p ∈ pkts, Plain p) ∧ pkts.length ≤ 6 := by
  have hplain : ∀ m, Plain (handshakePacket 0 false false m) :=
    plain_handshakePacket (by decide) false
  obtain ⟨_, _, -, h⟩ := exec_bind_eq_ok.mp h
  dsimp only at h
  split at h
  · obtain ⟨certificate, _, -, h⟩ := exec_bind_eq_ok.mp h
    obtain ⟨_, _, -, h⟩ := exec_bind_eq_ok.mp h
    obtain ⟨exchange, _, hexchange, h⟩ := exec_bind_eq_ok.mp h
    obtain ⟨rfl, rfl⟩ := exec_pure_eq_ok.mp h
    obtain ⟨hex, hexlen⟩ := keyExchangePackets_plain hexchange
    obtain ⟨hreq, hreqlen⟩ := certificateRequestPackets_plain cfg
    refine ⟨?_, ?_⟩
    · simp only [List.forall_mem_append, List.forall_mem_cons]
      exact ⟨⟨⟨hplain _, hplain _, hex⟩, hreq⟩, hplain _, List.forall_mem_nil _⟩
    · simp only [List.length_append, List.length_cons, List.length_nil]
      omega
  · split at h
    · obtain ⟨rfl, rfl⟩ := exec_pure_eq_ok.mp h
      simp only [List.forall_mem_cons]
      exact ⟨⟨hplain _, hplain _, hplain _, List.forall_mem_nil _⟩, by simp⟩
    · obtain ⟨rfl, rfl⟩ := exec_pure_eq_ok.mp h
      simp only [List.forall_mem_cons]
      exact ⟨⟨hplain _, hplain _, List.forall_mem_nil _⟩, by simp⟩

theorem generate_plain {drawn : Flight.Drawn} {flight : Flight}
    (h : exec (flight.generate crypto cfg drawn cache) s = (.ok pkts, s')) :
    (∀ p ∈ pkts, Plain p) ∧ pkts.length ≤ flight.room := by
  cases flight with
  | flight0 =>
      obtain ⟨_, _, -, h⟩ := exec_bind_eq_ok.mp h
      obtain ⟨rfl, rfl⟩ := exec_pure_eq_ok.mp h
      simp
  | flight2 =>
      obtain ⟨_, _, -, h⟩ := exec_bind_eq_ok.mp h
      obtain ⟨_, _, -, h⟩ := exec_bind_eq_ok.mp h
      obtain ⟨rfl, rfl⟩ := exec_pure_eq_ok.mp h
      exact ⟨List.forall_mem_singleton.mpr (plain_handshakePacket (by decide) _ _), Nat.le_refl 1⟩
  | flight4 => exact Flight4.generate_plain h
  | flight6 =>
      obtain ⟨verifyData, rfl⟩ := Flight6.generate_spec h
      refine ⟨?_, Nat.le_refl 2⟩
      simp only [List.forall_mem_cons]
      exact ⟨fun h hcontent => (by cases hcontent), plain_handshakePacket (by decide) _ _,
        List.forall_mem_nil _⟩

/-- A flight that cannot be generated ends the handshake. -/
theorem faults_generate (drawn : Flight.Drawn) (flight : Flight) :
    Faults Fatal (flight.generate crypto cfg drawn cache) := by
  have horFail : ∀ {α : Type} (description : AlertDescription) (r : Except Error α),
      Faults Fatal (orFail description r) := by
    intro α description r
    cases r with
    | ok a => exact Faults.pure a
    | error e => exact faults_failWith _ _
  cases flight with
  | flight0 => exact (Faults.modify _).bind fun _ => Faults.pure _
  | flight2 => exact (Faults.modify _).bind fun _ => Faults.get.bind fun _ => Faults.pure _
  | flight4 =>
      refine Faults.get.bind fun s => ?_
      dsimp only
      split
      · refine (horFail _ _).bind fun _ => (horFail _ _).bind fun _ =>
          Faults.bind ?_ fun _ => Faults.pure _
        refine Faults.get.bind fun s => ?_
        split
        · exact Faults.pure _
        · exact (horFail _ _).bind fun _ => (Faults.modify _).bind fun _ => Faults.pure _
      · split
        · exact Faults.pure _
        · exact Faults.pure _
  | flight6 =>
      refine Faults.bind ?_ fun _ => Faults.get.bind fun _ => Faults.pure _
      refine Faults.get.bind fun s => ?_
      split
      · exact (horFail _ _).bind fun _ => Faults.modify _
      · exact Faults.pure ()

end

/-! ## The log -/

/-- The cookie's message as it is sent. -/
def verifyLog (cfg : HandshakeConfig) (cookie : Bytes) : List HandshakePacket :=
  handshakes (DtlsConn.numberFrom cfg.initialEpoch 0 [helloVerifyPacket cookie]).1

/-- The handshakes that were prepared, each under its number. -/
structure Log (cfg : HandshakeConfig) (c : DtlsConn) (log : List HandshakePacket) : Prop where
  numbered : ∀ i p, log[i]? = some p → AtNumber cfg.initialEpoch i p
  written : ∀ p ∈ handshakes c.written, p ∈ log
  flights : ∀ ps, c.flights = some ps → ∀ p ∈ handshakes ps, p ∈ log
  kept : ∀ p ∈ log, p ∈ handshakes c.written ∨ (c.handshakeState = .sending
    ∧ ∃ ps, c.flights = some ps ∧ p ∈ handshakes ps)
  few : log.length ≤ 9

/-- Where the log stands until the handshake is over. -/
structure Progress (cfg : HandshakeConfig) (c : DtlsConn) (log : List HandshakePacket) :
    Prop where
  first : c.currentFlight = .flight0 → log = []
  second : c.currentFlight = .flight2 → log = verifyLog cfg c.state.cookie
    ∨ (log = [] ∧ c.handshakeState = .preparing)
  next : c.currentFlight ≠ .flight0 →
    (c.currentFlight = .flight2 → c.handshakeState ≠ .preparing) →
    c.state.handshakeSendSequence = log.length
  fourth : c.currentFlight = .flight4 → log.length ≤ 7
    ∧ (c.handshakeState = .preparing → log.length ≤ 1)
  sixth : c.currentFlight = .flight6 → c.handshakeState ≠ .waiting
    ∧ (c.handshakeState = .preparing → log.length ≤ 7)

structure Logged (cfg : HandshakeConfig) (c : DtlsConn) (log : List HandshakePacket) : Prop where
  base : Log cfg c log
  progress : (∀ e, c.handshakeState ≠ .errored e) → Progress cfg c log

section
variable {crypto : Crypto} {cfg : HandshakeConfig} {c c' : DtlsConn} {log : List HandshakePacket}

theorem logged_new : Logged cfg .new [] where
  base := {
    numbered := by simp
    written := by simp [DtlsConn.new, handshakes]
    flights := by simp [DtlsConn.new]
    kept := by simp
    few := by simp }
  progress _ := {
    first := fun _ => rfl
    second := fun h => by cases h
    next := fun h => absurd rfl h
    fourth := fun h => by cases h
    sixth := fun h => by cases h }

theorem length_verifyLog (cfg : HandshakeConfig) (cookie : Bytes) :
    (verifyLog cfg cookie).length = 1 := rfl

/-- An alert is no handshake. -/
theorem Log.notify (h : Log cfg c log) (a : Alert) : Log cfg (c.notify a) log := by
  have hsame : handshakes (c.notify a).written = handshakes c.written := by
    rw [DtlsConn.notify, handshakes_append]
    exact List.append_nil _
  exact {
    numbered := h.numbered
    written := hsame ▸ h.written
    flights := h.flights
    kept := hsame ▸ h.kept
    few := h.few }

/-- Away from `sending`, everything in the log has been written. -/
theorem Log.to {go : HandshakeState} (h : Log cfg c log) (hc : c.handshakeState ≠ .sending) :
    Log cfg { c with handshakeState := go } log :=
  { h with
    kept := fun p hp => (h.kept p hp).imp_right fun hsending => absurd hsending.1 hc }

theorem fault_keeps (c : DtlsConn) (f : Fault) (net : Except Error Unit) (go : HandshakeState) :
    (c.fault f net go).currentFlight = c.currentFlight ∧ (c.fault f net go).state = c.state := by
  unfold DtlsConn.fault
  split <;> exact ⟨rfl, rfl⟩

theorem Log.fault (h : Log cfg c log) (hc : c.handshakeState ≠ .sending) (f : Fault)
    (net : Except Error Unit) (go : HandshakeState) : Log cfg (c.fault f net go) log := by
  unfold DtlsConn.fault
  split
  · exact h.to hc
  · exact h.to hc
  · exact (h.notify _).to hc
  · exact (h.notify _).to hc
  · exact (h.notify _).to hc

theorem Log.congr (h : Log cfg c log) (hwritten : c'.written = c.written)
    (hflights : c'.flights = c.flights) (hc : c.handshakeState ≠ .sending) : Log cfg c' log where
  numbered := h.numbered
  written := hwritten ▸ h.written
  flights := hflights ▸ h.flights
  kept p hp := by
    rw [hwritten]
    exact .inl ((h.kept p hp).resolve_right fun hsending => hc hsending.1)
  few := h.few

/-- Between two flights the loop only sends and waits. -/
theorem Progress.go (h : Progress cfg c log) (hc : c.handshakeState ≠ .preparing)
    (hfl : c'.currentFlight = c.currentFlight) (hcookie : c'.state.cookie = c.state.cookie)
    (hseq : c'.state.handshakeSendSequence = c.state.handshakeSendSequence)
    (hgo : c'.handshakeState ≠ .preparing)
    (hlast : c.currentFlight = .flight6 → c'.handshakeState ≠ .waiting) :
    Progress cfg c' log where
  first h0 := h.first (hfl ▸ h0)
  second h2 := by
    rw [hcookie]
    exact .inl ((h.second (hfl ▸ h2)).resolve_right fun hpre => hc hpre.2)
  next h0 _ := hseq.trans (h.next (hfl ▸ h0) fun _ => hc)
  fourth h4 := ⟨(h.fourth (hfl ▸ h4)).1, fun hpre => absurd hpre hgo⟩
  sixth h6 := ⟨hlast (hfl ▸ h6), fun hpre => absurd hpre hgo⟩

/-! ## Sending -/

theorem logged_send {kept : Nat} {net : Except Error Unit} (h : Logged cfg c log)
    (hc : c.handshakeState = .sending) : Logged cfg (c.send kept net) log := by
  have hprogress := h.progress fun e he => by simp [hc] at he
  have hnever : c.afterSend ≠ .preparing := by
    unfold DtlsConn.afterSend
    split <;> simp
  -- what follows the sending, whatever the cache is then
  have hafter : ∀ (written : List Packet) (cache : HandshakeCache),
      Progress cfg { c with
        written := written
        cache := cache
        handshakeState := c.afterSend } log := fun written cache =>
    hprogress.go (by simp [hc]) rfl rfl rfl hnever fun h6 => by
      simp [DtlsConn.afterSend, h6, Flight.isLastSendFlight]
  unfold DtlsConn.send
  split
  · rename_i hnone
    refine ⟨{ h.base with kept := fun p hp => .inl ?_ }, fun _ => hafter _ _⟩
    rcases h.base.kept p hp with hw | ⟨-, ps, hps, -⟩
    · exact hw
    · rw [hnone] at hps
      cases hps
  · rename_i pkts hpkts
    have hlog : ∀ (cache : HandshakeCache) (go : HandshakeState), Log cfg { c with
        written := c.written ++ pkts
        cache := cache
        handshakeState := go } log := fun cache go => {
      numbered := h.base.numbered
      written := fun p hp => by
        rw [handshakes_append] at hp
        rcases List.mem_append.mp hp with hp | hp
        · exact h.base.written p hp
        · exact h.base.flights pkts hpkts p hp
      flights := h.base.flights
      kept := fun p hp => .inl (by
        rw [handshakes_append]
        rcases h.base.kept p hp with hw | ⟨-, ps, hps, hp⟩
        · exact List.mem_append_left _ hw
        · obtain rfl := Option.some.inj (hpkts.symm.trans hps)
          exact List.mem_append_right _ hp)
      few := h.base.few }
    split
    · exact ⟨hlog _ _, fun hne => absurd rfl (hne _)⟩
    · dsimp only
      split
      · exact ⟨hlog _ _, fun _ => hafter _ _⟩
      · exact ⟨hlog _ _, fun hne => absurd rfl (hne _)⟩
      · exact ⟨hlog _ _, fun _ => hafter _ _⟩

/-! ## Preparing -/

/-- A flight whose messages are in the log already. -/
theorem Log.again (h : Log cfg c log) (hc : c.handshakeState ≠ .sending)
    (hwritten : c'.written = c.written) {ps : List Packet} (hps : c'.flights = some ps)
    (hmem : ∀ p ∈ handshakes ps, p ∈ log) : Log cfg c' log where
  numbered := h.numbered
  written := hwritten ▸ h.written
  flights ps' hps' p hp := by
    obtain rfl := Option.some.inj (hps.symm.trans hps')
    exact hmem p hp
  kept p hp := by
    rw [hwritten]
    exact .inl ((h.kept p hp).resolve_right fun hsending => hc hsending.1)
  few := h.few

/-- A new flight has the next numbers. -/
theorem Log.extend (h : Log cfg c log) (hc : c.handshakeState ≠ .sending)
    (hwritten : c'.written = c.written) (hsending : c'.handshakeState = .sending)
    {ps : List Packet} (hps : c'.flights = some ps)
    (hnumbered : ∀ i p, (handshakes ps)[i]? = some p →
      AtNumber cfg.initialEpoch (log.length + i) p)
    (hfew : (log ++ handshakes ps).length ≤ 9) : Log cfg c' (log ++ handshakes ps) where
  numbered i p hp := by
    by_cases hlt : i < log.length
    · rw [List.getElem?_append_left hlt] at hp
      exact h.numbered i p hp
    · rw [List.getElem?_append_right (by omega)] at hp
      have hat := hnumbered _ p hp
      rwa [show log.length + (i - log.length) = i by omega] at hat
  written p hp := List.mem_append_left _ (h.written p (hwritten ▸ hp))
  flights ps' hps' p hp := by
    obtain rfl := Option.some.inj (hps.symm.trans hps')
    exact List.mem_append_right _ hp
  kept p hp := by
    rw [hwritten]
    rcases List.mem_append.mp hp with hp | hp
    · exact .inl ((h.kept p hp).resolve_right fun hold => hc hold.1)
    · exact .inr ⟨hsending, ps, hps, hp⟩
  few := hfew

theorem generate_sendSequence {drawn : Flight.Drawn} {flight : Flight} {cache : HandshakeCache}
    {s s' : State} {r : Except Fault (List Packet)} (h0 : flight ≠ .flight0)
    (h2 : flight ≠ .flight2) (h : exec (flight.generate crypto cfg drawn cache) s = (r, s')) :
    s'.handshakeSendSequence = s.handshakeSendSequence := by
  have hcertified : s'.certified = s.certified := by
    cases flight with
    | flight0 => exact absurd rfl h0
    | flight2 => exact absurd rfl h2
    | flight4 => exact keeps_generate4.of_exec h
    | flight6 => exact keeps_generate6.of_exec h
  have hsettled : s'.settled = s.settled := congrArg Prod.fst hcertified
  have hseq := congrArg State.handshakeSendSequence hsettled
  exact hseq

/-- Flights 4 and 6 go on where the numbers of the log end. -/
theorem logged_numbered (h : Logged cfg c log) (hc : c.handshakeState = .preparing)
    (h0 : c.currentFlight ≠ .flight0) (h2 : c.currentFlight ≠ .flight2)
    (hflight : c'.currentFlight = c.currentFlight) (hwritten : c'.written = c.written)
    (hsending : c'.handshakeState = .sending) {ps : List Packet} (hps : c'.flights = some ps)
    (hnumbered : ∀ i p, (handshakes ps)[i]? = some p →
      AtNumber cfg.initialEpoch (log.length + i) p)
    (hseq : c'.state.handshakeSendSequence = log.length + (handshakes ps).length)
    (hroom : (handshakes ps).length ≤ c.currentFlight.room) :
    Logged cfg c' (log ++ handshakes ps) := by
  have hprogress := h.progress fun e he => by simp [hc] at he
  have hlength : (log ++ handshakes ps).length = log.length + (handshakes ps).length :=
    List.length_append
  have hfourth : c.currentFlight = .flight4 → (log ++ handshakes ps).length ≤ 7 := by
    intro hfl
    have hbound := (hprogress.fourth hfl).2 hc
    rw [hfl] at hroom
    have hsix : (handshakes ps).length ≤ 6 := hroom
    omega
  have hsixth : c.currentFlight = .flight6 → (log ++ handshakes ps).length ≤ 9 := by
    intro hfl
    have hbound := (hprogress.sixth hfl).2 hc
    rw [hfl] at hroom
    have htwo : (handshakes ps).length ≤ 2 := hroom
    omega
  have hfew : (log ++ handshakes ps).length ≤ 9 := by
    cases hfl : c.currentFlight with
    | flight0 => exact absurd hfl h0
    | flight2 => exact absurd hfl h2
    | flight4 => exact (hfourth hfl).trans (by decide)
    | flight6 => exact hsixth hfl
  have hgo : c'.handshakeState ≠ .preparing := by simp [hsending]
  refine ⟨h.base.extend ?_ hwritten hsending hps hnumbered hfew, fun _ => {
    first := fun hfl => absurd (hflight ▸ hfl) h0
    second := fun hfl => absurd (hflight ▸ hfl) h2
    next := fun _ _ => by
      rw [hlength, Int.natCast_add]
      exact hseq
    fourth := fun hfl => ⟨hfourth (hflight ▸ hfl), fun hpre => absurd hpre hgo⟩
    sixth := fun _ => ⟨by simp [hsending], fun hpre => absurd hpre hgo⟩ }⟩
  simp [hc]

theorem logged_prepare {drawn : Flight.Drawn} {net : Except Error Unit} (h : Logged cfg c log)
    (hc : c.handshakeState = .preparing) :
    ∃ log', Logged cfg (c.prepare crypto cfg drawn net) log' := by
  have hprogress := h.progress fun e he => by simp [hc] at he
  have hne : c.handshakeState ≠ .sending := by simp [hc]
  unfold DtlsConn.prepare
  dsimp only
  rcases hexec : exec (c.currentFlight.generate crypto cfg drawn c.cache) c.state with ⟨r, state⟩
  cases r with
  | error f =>
      dsimp only
      have hf := faults_generate drawn c.currentFlight _ _ _ hexec
      refine ⟨log, Log.fault ?_ ?_ f net .sending, fun hlive => ?_⟩
      · exact { h.base with
          flights := fun ps hps => by cases hps
          kept := fun p hp =>
            .inl ((h.base.kept p hp).resolve_right fun hsending => hne hsending.1) }
      · exact hne
      · obtain ⟨e, he⟩ := fault_fatal hf
        exact absurd he (hlive e)
  | ok pkts =>
      obtain ⟨hplain, hroom⟩ := generate_plain hexec
      dsimp only
      by_cases h0 : c.currentFlight = .flight0
      · rw [h0] at hroom
        obtain rfl := List.length_eq_zero_iff.mp (Nat.le_zero.mp hroom)
        refine ⟨log, h.base.again hne rfl rfl fun p hp => ?_, fun _ => ?_⟩
        · cases hp
        · exact {
            first := hprogress.first
            second := fun h2 => by cases h0.symm.trans h2
            next := fun hnot => absurd h0 hnot
            fourth := fun h4 => by cases h0.symm.trans h4
            sixth := fun h6 => by cases h0.symm.trans h6 }
      by_cases h2 : c.currentFlight = .flight2
      · rw [h2] at hexec
        obtain ⟨hpkts, rfl⟩ : Except.ok [helloVerifyPacket c.state.cookie] = Except.ok pkts
            ∧ { c.state with handshakeSendSequence := 0 } = state := Prod.mk.inj hexec
        obtain rfl := Except.ok.inj hpkts
        refine ⟨verifyLog cfg c.state.cookie, ?_, fun _ =>
          { first := fun h => absurd h h0
            second := fun _ => .inl rfl
            next := fun _ _ => rfl
            fourth := fun h4 => by cases h2.symm.trans h4
            sixth := fun h6 => by cases h2.symm.trans h6 }⟩
        rcases hprogress.second h2 with rfl | ⟨rfl, -⟩
        · exact h.base.again hne rfl rfl fun p hp => hp
        · have hspec := numberFrom_spec cfg.initialEpoch hplain 0
          refine h.base.extend hne ?_ ?_ ?_ hspec.1 ?_
          · rfl
          · rfl
          · rfl
          · exact Nat.le_of_ble_eq_true rfl
      · have hseq : state.handshakeSendSequence = log.length := by
          have hkeep : state.handshakeSendSequence = c.state.handshakeSendSequence :=
            generate_sendSequence h0 h2 hexec
          rw [hkeep, hprogress.next h0 fun h => absurd h h2]
        rw [hseq]
        obtain ⟨hnumbered, hnext, hlen⟩ := numberFrom_spec cfg.initialEpoch hplain log.length
        have hbound := hlen.trans hroom
        refine ⟨_, logged_numbered h hc h0 h2 ?_ ?_ ?_ ?_ hnumbered hnext hbound⟩ <;> rfl

/-! ## Reading -/

theorem parse_keeps {drawn : Flight.Drawn} {flight : Flight} {cache : HandshakeCache}
    {queued : Option HandshakeCache} {s s' : State} {r : Except Fault Flight}
    (h : exec (flight.parse crypto cfg drawn cache queued) s = (r, s')) :
    s'.cookie = s.cookie ∧ s'.handshakeSendSequence = s.handshakeSendSequence := by
  have hunread : s'.unread = s.unread →
      s'.cookie = s.cookie ∧ s'.handshakeSendSequence = s.handshakeSendSequence := fun h =>
    ⟨congrArg Prod.fst h, congrArg (fun x => x.2.2.1) h⟩
  have hsettled : s'.settled = s.settled →
      s'.cookie = s.cookie ∧ s'.handshakeSendSequence = s.handshakeSendSequence := by
    intro h
    have hcookie := congrArg State.cookie h
    have hseq := congrArg State.handshakeSendSequence h
    exact ⟨hcookie, hseq⟩
  cases flight with
  | flight0 => exact hunread ((keeps_parse0 _ _ _ _).of_exec h)
  | flight2 => exact hunread ((keeps_parse2 _ _ _ _).of_exec h)
  | flight4 => exact hsettled ((keeps_parse4 queued).of_exec h)
  | flight6 => exact hsettled (congrArg Prod.fst (keeps_parse6.of_exec h))

theorem returns_parse0 {publicKey privateKey : Bytes} {cache : HandshakeCache} :
    Returns (· = .flight2) (Flight0.parse cfg publicKey privateKey cache) := by
  have hfail : ∀ (description : AlertDescription) (e : Error),
      Returns (· = Flight.flight2) (failWith description e) := fun _ _ => Returns.throw _
  refine Returns.bind fun _ => Returns.bind fun _ => ?_
  split
  · unfold acceptHello
    split
    · exact hfail _ _
    · exact Returns.bind fun _ => Returns.bind fun _ => Returns.bind fun _ =>
        Returns.bind fun _ => Returns.bind fun _ => Returns.pure rfl
  · exact Returns.throw _

theorem returns_parse2 {publicKey privateKey : Bytes} {cache : HandshakeCache} :
    Returns (fun next => next = .flight2 ∨ next = .flight4)
      (Flight2.parse cfg publicKey privateKey cache) := by
  refine Returns.bind fun s => ?_
  split
  · exact fun s a s' h => .inl (returns_parse0 s a s' h)
  · refine Returns.bind fun _ => ?_
    split
    · unfold checkCookie
      split
      · exact Returns.throw _
      · split
        · exact Returns.throw _
        · refine Returns.bind fun s => ?_
          split
          · exact Returns.throw _
          · exact Returns.pure (.inr rfl)
    · exact Returns.throw _

theorem returns_parse4 {cache : HandshakeCache} {queued : Option HandshakeCache} :
    Returns (· = .flight6) (Flight4.parse crypto cfg cache queued) := by
  have hfinished : ∀ (seq : Int), Returns (· = .flight6) (readFinished cfg seq queued) := by
    intro seq
    unfold readFinished
    split
    · exact Returns.throw _
    · refine Returns.bind fun _ => Returns.bind fun _ => ?_
      split
      · exact Returns.bind fun _ => Returns.pure rfl
      · exact Returns.throw _
  refine Returns.bind fun s => Returns.bind fun _ => ?_
  dsimp only
  split
  · exact Returns.bind fun _ => Returns.bind fun _ => Returns.bind fun _ => hfinished _
  · exact Returns.throw _

/-- The flights that may follow one another. -/
theorem parse_next {drawn : Flight.Drawn} {flight next : Flight} {cache : HandshakeCache}
    {queued : Option HandshakeCache} {s s' : State} (h6 : flight ≠ .flight6)
    (h : exec (flight.parse crypto cfg drawn cache queued) s = (.ok next, s')) :
    next = .flight2 ∧ flight = .flight0 ∨ next = .flight2 ∧ flight = .flight2
      ∨ next = .flight4 ∧ flight = .flight2 ∨ next = .flight6 ∧ flight = .flight4 := by
  cases flight with
  | flight0 => exact .inl ⟨returns_parse0 _ _ _ h, rfl⟩
  | flight2 =>
      rcases returns_parse2 _ _ _ h with rfl | rfl
      · exact .inr (.inl ⟨rfl, rfl⟩)
      · exact .inr (.inr (.inl ⟨rfl, rfl⟩))
  | flight4 => exact .inr (.inr (.inr ⟨returns_parse4 _ _ _ h, rfl⟩))
  | flight6 => exact absurd rfl h6

theorem logged_parse {drawn : Flight.Drawn} {queued : Option (List (UInt16 × Bytes))}
    {net : Except Error Unit} (h : Logged cfg c log) (hc : c.handshakeState = .waiting) :
    Logged cfg (c.parse crypto cfg drawn queued net) log := by
  have hprogress := h.progress fun e he => by simp [hc] at he
  have hne : c.handshakeState ≠ .sending := by simp [hc]
  have hpre : c.handshakeState ≠ .preparing := by simp [hc]
  have h6 : c.currentFlight ≠ .flight6 := fun h6 => (hprogress.sixth h6).1 hc
  unfold DtlsConn.parse
  dsimp only
  rcases hexec : exec (c.currentFlight.parse crypto cfg drawn c.cache
    (queued.map c.cache.receiveAll)) c.state with ⟨r, state⟩
  obtain ⟨hcookie, hseq⟩ := parse_keeps hexec
  cases r with
  | error f =>
      dsimp only
      refine ⟨Log.fault ?_ ?_ f net .waiting, fun hlive => ?_⟩
      · exact { h.base with }
      · exact hne
      · have hgo := (fault_handshakeState _ f net .waiting).resolve_right fun ⟨e, he⟩ => hlive e he
        obtain ⟨hfl, hstate⟩ := fault_keeps _ f net .waiting
        refine hprogress.go hpre hfl ?_ ?_ ?_ fun hlast => absurd hlast h6
        · rw [hstate]
          exact hcookie
        · rw [hstate]
          exact hseq
        · rw [hgo]
          simp
  | ok next =>
      have hnext := hprogress.next
      dsimp only
      rw [if_neg fun hlast => by cases hlast.1]
      refine ⟨h.base.congr ?_ ?_ hne, fun _ => ?_⟩
      · rfl
      · rfl
      rcases parse_next h6 hexec with ⟨rfl, hfl⟩ | ⟨rfl, hfl⟩ | ⟨rfl, hfl⟩ | ⟨rfl, hfl⟩
      · exact {
          first := fun h => by cases h
          second := fun _ => .inr ⟨hprogress.first hfl, rfl⟩
          next := fun _ hsecond => absurd rfl (hsecond rfl)
          fourth := fun h => by cases h
          sixth := fun h => by cases h }
      · exact {
          first := fun h => by cases h
          second := fun _ => .inl (by
            rw [hcookie]
            exact (hprogress.second hfl).resolve_right fun hold => hpre hold.2)
          next := fun _ hsecond => absurd rfl (hsecond rfl)
          fourth := fun h => by cases h
          sixth := fun h => by cases h }
      · have hlog := (hprogress.second hfl).resolve_right fun hold => hpre hold.2
        have hlen : log.length = 1 := by rw [hlog, length_verifyLog]
        exact {
          first := fun h => by cases h
          second := fun h => by cases h
          next := fun _ _ => hseq.trans (hnext (by simp [hfl]) fun _ => hpre)
          fourth := fun _ => ⟨by omega, fun _ => by omega⟩
          sixth := fun h => by cases h }
      · exact {
          first := fun h => by cases h
          second := fun h => by cases h
          next := fun _ _ => hseq.trans (hnext (by simp [hfl]) fun _ => hpre)
          fourth := fun h => by cases h
          sixth := fun _ => ⟨nofun, fun _ => (hprogress.fourth hfl).1⟩ }

/-! ## Over whole runs -/

theorem logged_step {e : DtlsConn.Event} (h : Logged cfg c log)
    (hstep : DtlsConn.step crypto cfg c e = some c') : ∃ log', Logged cfg c' log' := by
  cases e with
  | receive epoch data =>
      obtain rfl := Option.some.inj hstep
      exact ⟨log, { h.base with }, fun hlive => { h.progress hlive with }⟩
  | alert a =>
      obtain rfl := Option.some.inj hstep
      exact ⟨log, h.base.notify a, fun hlive => { h.progress hlive with }⟩
  | prepare drawn net =>
      obtain ⟨hc, heq⟩ := Option.ite_none_right_eq_some.mp hstep
      obtain rfl := Option.some.inj heq
      exact logged_prepare h hc
  | send kept net =>
      obtain ⟨hc, heq⟩ := Option.ite_none_right_eq_some.mp hstep
      obtain rfl := Option.some.inj heq
      exact ⟨log, logged_send h hc⟩
  | parse drawn queued net =>
      obtain ⟨hc, heq⟩ := Option.ite_none_right_eq_some.mp hstep
      obtain rfl := Option.some.inj heq
      exact ⟨log, logged_parse h hc⟩
  | retransmitTimer =>
      obtain ⟨hc, heq⟩ := Option.ite_none_right_eq_some.mp hstep
      obtain rfl := Option.some.inj heq
      have hprogress := h.progress fun e he => by simp [hc] at he
      refine ⟨log, h.base.to (by simp [hc]), fun _ => hprogress.go (by simp [hc]) ?_ ?_ ?_ ?_ ?_⟩
      · rfl
      · rfl
      · rfl
      · dsimp only
        split <;> simp
      · exact fun h6 => absurd hc (hprogress.sixth h6).1
  | readerGone =>
      obtain ⟨hc, heq⟩ := Option.ite_none_right_eq_some.mp hstep
      obtain rfl := Option.some.inj heq
      exact ⟨log, h.base.to (by simp [hc]), fun hlive => absurd rfl (hlive _)⟩

theorem logged_run {es : List DtlsConn.Event}
    (hrun : run (DtlsConn.step crypto cfg) .new es = some c) : ∃ log, Logged cfg c log :=
  run_invariant (I := fun c => ∃ log, Logged cfg c log)
    (fun ⟨_, h⟩ hstep => logged_step h hstep) hrun ⟨[], logged_new⟩

/-! ## What a client reads -/

variable {es : List DtlsConn.Event}

/-- However often a flight is sent, there is one message under a number. -/
theorem DtlsConn.numbers_unique (hrun : run (step crypto cfg) .new es = some c)
    {p q : HandshakePacket} (hp : p ∈ handshakes c.written) (hq : q ∈ handshakes c.written)
    (hseq : p.handshake.handshakeHeader.messageSequence
      = q.handshake.handshakeHeader.messageSequence) : p = q := by
  obtain ⟨log, h⟩ := logged_run hrun
  obtain ⟨i, hi⟩ := List.mem_iff_getElem?.mp (h.base.written p hp)
  obtain ⟨j, hj⟩ := List.mem_iff_getElem?.mp (h.base.written q hq)
  have hfew := h.base.few
  have hilt := (List.getElem?_eq_some_iff.mp hi).1
  have hjlt := (List.getElem?_eq_some_iff.mp hj).1
  rw [(h.base.numbered i p hi).header, (h.base.numbered j q hj).header] at hseq
  obtain rfl := ofNat_inj (by omega) (by omega) hseq
  exact Option.some.inj (hi.symm.trans hj)

/-- Flight 4 was sent twice. -/
theorem DtlsConn.numbers_unique_resent : ∃ c, SampleRun.run = some c
    ∧ (handshakes c.written).length = 13
    ∧ ∀ p ∈ handshakes c.written, ∀ q ∈ handshakes c.written,
      p.handshake.handshakeHeader.messageSequence = q.handshake.handshakeHeader.messageSequence →
        p = q := by
  have hany : SampleRun.run.any (fun c => (handshakes c.written).length = 13) = true := by
    decide +kernel
  obtain ⟨c, hrun, hlength⟩ := (Option.any_eq_true _ _).mp hany
  exact ⟨c, hrun, of_decide_eq_true hlength, fun p hp q hq => numbers_unique hrun hp hq⟩

/-- The messages of the log, if their lengths fit. -/
def Log.sender (h : Log cfg c log) (hepoch : cfg.initialEpoch = 0)
    (hsize : ∀ p ∈ log, p.handshake.handshakeMessage.size < 2 ^ 24) : Sender where
  packets := log
  prepared i p hp := by
    have hat := h.numbered i p hp
    exact ⟨hat.contentType, .inr hat.version, hepoch ▸ hat.encrypts,
      hsize p (List.mem_of_getElem? hp), hat.header⟩
  few := Nat.lt_of_le_of_lt h.few (by decide)

/-- Between two flights the messages written so far are those of one sender,
however often they went out. So a client with the keys has the first of them, in
order and each once; it has all of them once each fragment has come through. -/
theorem DtlsConn.client_reads_server (hrun : run (step crypto cfg) .new es = some c)
    (hc : c.handshakeState ≠ .sending) (hepoch : cfg.initialEpoch = 0)
    (hsize : ∀ p ∈ handshakes c.written, p.handshake.handshakeMessage.size < 2 ^ 24)
    (client : AeadSuite) :
    ∃ s : Sender, (∀ p, p ∈ s.packets ↔ p ∈ handshakes c.written)
      ∧ (∀ pkts : List Bytes,
        (∀ pkt ∈ pkts, Incoming client (handshakes c.written) (fun _ => True) pkt) →
          (FragmentBuffer.new.receiveAll (pkts.filterMap (ConnReader.opened client))).1.map noted
            <+: s.transcript)
      ∧ ∀ (mtu : Nat) (pkts : List Bytes),
        (∀ pkt ∈ pkts, Incoming client (handshakes c.written) (· = mtu) pkt) →
        ((pkts.filterMap (ConnReader.opened client)).map List.length).sum
          < FragmentBuffer.fragmentBufferMaxSize →
        (∀ p ∈ handshakes c.written, Delivered client mtu p pkts) →
          (FragmentBuffer.new.receiveAll (pkts.filterMap (ConnReader.opened client))).1.map noted
            = s.transcript := by
  obtain ⟨log, h⟩ := logged_run hrun
  have hlog : ∀ p, p ∈ log ↔ p ∈ handshakes c.written := fun p =>
    ⟨fun hp => (h.base.kept p hp).resolve_right fun hsending => hc hsending.1, h.base.written p⟩
  let s := h.base.sender hepoch fun p hp => hsize p ((hlog p).mp hp)
  have hwritten : ∀ p ∈ handshakes c.written, p ∈ s.packets := fun p hp => (hlog p).mpr hp
  refine ⟨s, hlog, fun pkts hpkts => ?_, fun mtu pkts hpkts hroom hdelivered => ?_⟩
  · exact transcript_prefix (Incoming.handed_opened hpkts hwritten)
  · refine transcript_eq (Incoming.handed_opened hpkts hwritten) hroom fun p hp => ?_
    obtain ⟨i, -, hprepared⟩ := s.prepared_of_mem hp
    exact (hdelivered p ((hlog p).mp hp)).arrived hprepared

/-- The records of the whole handshake, the encrypted ones too, cut at 40 bytes
and the last one first. -/
theorem DtlsConn.client_reads_server_reversed : ∃ c, SampleRun.run = some c
    ∧ (∃ p ∈ handshakes c.written, p.shouldEncrypt = true)
    ∧ ∃ s : Sender, s.packets ⊆ handshakes c.written ∧ ∀ pkts : List Bytes,
      pkts = ((handshakes c.written).flatMap (SampleTranscript.records 40)).reverse →
      (FragmentBuffer.new.receiveAll (pkts.filterMap
        (ConnReader.opened ConnWriter.SampleTransfer.suite))).1.map noted <+: s.transcript := by
  have hany : SampleRun.run.any (fun c => decide (c.handshakeState ≠ .sending
      ∧ (∃ p ∈ handshakes c.written, p.shouldEncrypt = true)
      ∧ ∀ p ∈ handshakes c.written, p.handshake.handshakeMessage.size < 2 ^ 24)) = true := by
    decide +kernel
  obtain ⟨c, hrun, hfound⟩ := (Option.any_eq_true _ _).mp hany
  obtain ⟨hc, hencrypted, hsize⟩ := of_decide_eq_true hfound
  obtain ⟨s, hs, hreads, -⟩ :=
    client_reads_server hrun hc rfl hsize ConnWriter.SampleTransfer.suite
  refine ⟨c, hrun, hencrypted, s, fun p hp => (hs p).mp hp, fun pkts hpkts =>
    hreads pkts fun pkt hpkt => ?_⟩
  rw [hpkts, List.mem_reverse, List.mem_flatMap] at hpkt
  obtain ⟨p, hp, hpkt⟩ := hpkt
  exact .inl ⟨p, hp, 40, trivial, SampleTranscript.sent_records 40 p pkt hpkt⟩

end

end Dtls

end XashProxy
