import XashProxy.Session

/-!
# A connection that recovers

`Disconnected` is transient: the monitor leaves the peer open so that the
connection may come back. It empties the holder all the same, and a session
starts one bridge only. The session keeps a live bridge in every run in
which neither that callback nor a read error on an open channel reaches its
bridge; from the first step that does, no bridge of the session is left
untold.
-/

namespace XashProxy

namespace Session

open Lts

/-- Neither `Bridge::new` nor a forwarder has met an error or an idle
timeout. -/
def UpstreamAlive (s : State) : Prop :=
  s.creationFailed = false ∧ ∀ b ∈ s.bridges, b.writeCloseCalled = false

/-- A connected session has a bridge whose forwarder was not told to shut
down. -/
def BridgeAlive (s : State) : Prop :=
  s.handler = .loop → s.peer = .connected → (∀ c, s.channel c = .opened) →
    (∀ c, s.onOpen c = .done) → UpstreamAlive s →
      ∃ b ∈ s.bridges, ¬ Bridge.Told b

/-- The monitor does not run its `Disconnected` case on a filled holder, and
no error of the open read channel is reported to a bridge. -/
def KeepsBridge (s : State) (e : Event) : Prop :=
  (∀ i, e = .monitor i → s.monitors[i]? = some .disconnected → s.bridge = none)
    ∧ ∀ i b, e = .bridge i .readError → s.bridges[i]? = some b →
      b.installed = true → s.channel .read ≠ .opened

/-! ## While the session can still be connected -/

/-- The session is not being torn down from its side. -/
structure Live (s : State) : Prop where
  handler : s.handler = .sendOffer ∨ s.handler = .loop
  peer : s.peer ≠ .failed ∧ s.peer ≠ .closed
  read : s.channel .read = .opened

def Kept (s : State) : Prop := Live s → ∀ b ∈ s.bridges, ¬ Bridge.Told b

/-- A session becomes live by its read channel only. -/
theorem live_of_step {s s' : State} {e : Event} (h : step s e = some s')
    (hl : Live s') : Live s ∨ e = .channelOpen .read := by
  obtain ⟨hh, hpeer, hread⟩ := hl
  cases acts_of_step h with
  | sendOffer hpc => exact Or.inl ⟨Or.inl hpc, hpeer, hread⟩
  | @message m hpc => cases m <;> exact Or.inl ⟨Or.inr hpc, hpeer, hread⟩
  | cleanup hpc => rcases hh with hh | hh <;> cases hh
  | closePeer hpc => rcases hh with hh | hh <;> cases hh
  | peerChange hans hnext =>
      refine Or.inl ⟨hh, ⟨fun hs => ?_, fun hs => ?_⟩, hread⟩
      · rw [hs] at hnext
        exact hpeer.2 (of_decide_eq_true hnext)
      · rw [hs] at hnext
        cases hnext
  | ignored hst hnt => exact Or.inl ⟨hh, hpeer, hread⟩
  | disconnected hst => exact Or.inl ⟨hh, hpeer, hread⟩
  | terminal hst hterm => exact Or.inl ⟨hh, hpeer, hread⟩
  | peerGone hpos => exact Or.inl ⟨hh, hpeer, hread⟩
  | peerClosed hpos => exact absurd rfl hpeer.2
  | @channelOpen c hconn hopen =>
      cases c with
      | read => exact Or.inr rfl
      | write => exact Or.inl ⟨hh, hpeer, hread⟩
  | @channelClose c =>
      cases c with
      | read => cases hread
      | write => exact Or.inl ⟨hh, hpeer, hread⟩
  | onOpen hpc hup => exact Or.inl ⟨hh, hpeer, hread⟩
  | @created c ok hpc => cases ok <;> exact Or.inl ⟨hh, hpeer, hread⟩
  | publish hpc => exact Or.inl ⟨hh, hpeer, hread⟩
  | bridge hb hown hstep => exact Or.inl ⟨hh, hpeer, hread⟩

/-- A take that is still followed by a live session is the monitor's, on
`Disconnected`. -/
theorem disconnected_of_takes {s s' : State} {e : Event} (hp : PeerWf s)
    (ht : Takes s e) (h : step s e = some s') (hs : Live s) (hs' : Live s') :
    ∃ i, e = .monitor i ∧ s.monitors[i]? = some .disconnected := by
  rcases ht with rfl | ⟨i, st, rfl, hst, htakes⟩
  · cases acts_of_step h with
    | cleanup hpc => rcases hs'.handler with hh | hh <;> cases hh
  · have hmem := List.mem_of_getElem? hst
    have hnot : ¬ Terminating s := fun hterm =>
      (hp.terminal hterm).elim hs.peer.1 hs.peer.2
    cases st with
    | disconnected => exact ⟨i, rfl, hst⟩
    | failed => exact absurd (Or.inr (Or.inl hmem)) hnot
    | closed => exact absurd (Or.inr (Or.inr hmem)) hnot
    | _ => cases htakes

/-- Before the read channel opens there is no bridge. -/
theorem bridges_nil_of_connecting {s : State} (hc : Counted s)
    (h : s.channel .read = .connecting) : s.bridges = [] := by
  have hidle := hc.fresh .read h
  have hlt : s.channelsOpen < 2 := by
    have hb := hc.counted
    simp only [both, hidle, OnOpen.counted] at hb
    split at hb <;> omega
  have hzero := hc.early hlt
  simp only [attempts] at hzero
  exact List.length_eq_zero_iff.mp (by omega)

theorem kept_step {s s' : State} {e : Event} (hwf : Wf s) (hk : Kept s)
    (hG : KeepsBridge s e) (h : step s e = some s') : Kept s' := by
  intro hs' b hb
  rcases live_of_step h hs' with hs | rfl
  · have hlive := hk hs
    rcases step_bridges h with ⟨-, hbs⟩ | ⟨ht, -, hbs⟩ | ⟨rfl, -, -⟩
      | ⟨c, -, hpc, rfl⟩ | ⟨i, e', b₀, b', rfl, hb₀, hown, hstep, rfl⟩
    · rw [hbs] at hb
      exact hlive b hb
    · obtain ⟨i, rfl, hst⟩ := disconnected_of_takes hwf.peer ht h hs hs'
      have hnone := hG.1 i rfl hst
      simp only [hbs, takeBridge, hnone] at hb
      exact hlive b hb
    · cases acts_of_step h with
      | channelClose => cases hs'.read
    · obtain ⟨-, hbs⟩ := bridges_startBridge hwf.counted hpc
      rw [hbs, List.mem_singleton] at hb
      subst hb
      rintro (h | h) <;> cases h
    · rcases List.mem_or_eq_of_mem_set hb with hb | rfl
      · exact hlive b hb
      · have hmem := List.mem_of_getElem? hb₀
        rcases Bridge.unseen_step hown hstep with hun | ⟨rfl, hinst, -⟩
        · unfold Bridge.Told
          rw [hun.shutdownCalled, hun.readEnded]
          exact hlive b₀ hmem
        · exact absurd hs.read (hG.2 i b₀ rfl hb₀ hinst)
  · cases acts_of_step h with
    | channelOpen hconn hopen =>
        rw [bridges_nil_of_connecting hwf.counted hconn] at hb
        cases hb

theorem bridgeAlive_of_kept {s : State} (hwf : Wf s) (hk : Kept s) :
    BridgeAlive s := by
  intro hh hpeer hchan hdone hup
  have hlive : Live s := by
    refine ⟨Or.inr hh, ⟨?_, ?_⟩, hchan .read⟩ <;> rw [hpeer] <;> nofun
  have htwo : s.channelsOpen = 2 := by
    rw [← hwf.counted.counted, both, hdone .write, hdone .read]
    rfl
  have hone : attempts s = 1 := by
    rcases hwf.counted.settled htwo with h | h | h
    · exact h
    · rw [hup.1] at h
      cases h
    · rw [hh] at h
      cases h
  simp only [attempts, both, hdone .write, hdone .read, OnOpen.active] at hone
  obtain ⟨b, hb⟩ := List.length_eq_one_iff.mp (by omega : s.bridges.length = 1)
  have hmem : b ∈ s.bridges := by simp [hb]
  exact ⟨b, hmem, hk hlive b hmem⟩

/-! ## After the bridge was told -/

/-- The session's bridge was told to shut down. -/
def Spent (s : State) : Prop := s.bridges ≠ [] ∧ ∀ b ∈ s.bridges, Bridge.Told b

theorem told_closeRead {b : Bridge.State} (h : Bridge.Told b) :
    Bridge.Told (closeRead b) := by
  rcases closeRead_cases b with heq | heq <;> rw [heq]
  · exact h
  · unfold Bridge.onReadEnd
    split
    · exact Or.inr rfl
    · exact h

/-- Whoever empties the holder leaves every bridge told. -/
theorem spent_of_taken {s s' : State} (hh : Held s) (hne : s.bridges ≠ [])
    (hbs : s'.bridges = (takeBridge s).bridges) : Spent s' := by
  refine ⟨?_, fun b hb => ?_⟩
  · have hlen := length_takeBridge s
    rw [← hbs] at hlen
    intro hnil
    rw [hnil] at hlen
    exact hne (List.length_eq_zero_iff.mp hlen.symm)
  · rw [hbs] at hb
    obtain ⟨i, hi⟩ := List.mem_iff_getElem?.mp hb
    exact Or.inl (hh.signalled_takeBridge hi)

theorem spent_step {s s' : State} {e : Event} (hwf : Wf s) (hs : Spent s)
    (h : step s e = some s') : Spent s' := by
  rcases step_bridges h with ⟨-, hbs⟩ | ⟨-, -, hbs⟩ | ⟨-, -, hbs⟩
    | ⟨c, -, hpc, rfl⟩ | ⟨i, e', b₀, b', -, hb₀, hown, hstep, rfl⟩
  · unfold Spent
    rw [hbs]
    exact hs
  · exact spent_of_taken hwf.held hs.1 hbs
  · unfold Spent
    rw [hbs]
    refine ⟨by simpa using hs.1, fun b hb => ?_⟩
    obtain ⟨b₀, hb₀, rfl⟩ := List.mem_map.mp hb
    exact told_closeRead (hs.2 b₀ hb₀)
  · -- a bridge was started, so none is being started
    obtain ⟨-, -, hnil⟩ := hwf.counted.of_active (c := c) (by rw [hpc]; rfl)
    exact absurd hnil hs.1
  · refine ⟨by simpa using hs.1, fun b hb => ?_⟩
    rcases List.mem_or_eq_of_mem_set hb with hb | rfl
    · exact hs.2 b hb
    · have htold := hs.2 b₀ (List.mem_of_getElem? hb₀)
      rcases Bridge.unseen_step hown hstep with hun | ⟨-, -, rfl⟩
      · unfold Bridge.Told
        rw [hun.shutdownCalled, hun.readEnded]
        exact htold
      · exact Or.inr rfl

theorem Counted.eq_singleton {s : State} (hc : Counted s) {i : Nat}
    {b : Bridge.State} (hb : s.bridges[i]? = some b) : i = 0 ∧ s.bridges = [b] := by
  have honce := hc.once
  unfold attempts at honce
  have hlt := (List.getElem?_eq_some_iff.mp hb).1
  obtain rfl : i = 0 := by omega
  obtain ⟨b₁, hb₁⟩ := List.length_eq_one_iff.mp (by omega : s.bridges.length = 1)
  rw [hb₁] at hb
  exact ⟨rfl, hb₁.trans (congrArg (fun b => [b]) (Option.some.inj hb))⟩

theorem spent_of_not_keepsBridge {s s' : State} {e : Event} (hwf : Wf s)
    (hG : ¬ KeepsBridge s e) (h : step s e = some s') : Spent s' := by
  unfold KeepsBridge at hG
  rw [not_and_or] at hG
  push Not at hG
  rcases hG with ⟨i, rfl, hst, hfull⟩ | ⟨i, b, rfl, hb, hinst, -⟩
  · have hfilled := hwf.held.filled hfull
    cases acts_of_step h with
    | ignored hst' hnt =>
        obtain rfl := Option.some.inj (hst'.symm.trans hst)
        cases hnt
    | disconnected hst' => exact spent_of_taken hwf.held hfilled rfl
    | terminal hst' hterm => exact spent_of_taken hwf.held hfilled rfl
  · cases acts_of_step h with
    | bridge hb₀ hown hstep =>
        obtain rfl := Option.some.inj (hb₀.symm.trans hb)
        obtain ⟨rfl, hone⟩ := hwf.counted.eq_singleton hb
        obtain rfl := Option.some.inj hstep
        simp only [Spent, hone, List.set_cons_zero]
        refine ⟨List.cons_ne_nil _ _, fun b hb => ?_⟩
        obtain rfl := List.mem_singleton.mp hb
        rw [Bridge.onReadEnd, if_pos hinst]
        exact Or.inr rfl

/-! ## Runs -/

/-- A connected session keeps a live bridge in every run whose monitor never
meets `Disconnected` with a bridge in the holder and whose bridge is told of
no error on an open read channel; after the first step that does one of the
two, every bridge the session ever has was told to shut down. -/
theorem bridge_survives_recovery (es : List Event) :
    (EachStep step KeepsBridge init es → Always step BridgeAlive init es)
    ∧ ∀ s e s' es' t, run step init es = some s → ¬ KeepsBridge s e →
        step s e = some s' → run step s' es' = some t →
        ∀ b ∈ t.bridges, Bridge.Told b := by
  constructor
  · intro hG
    refine Always.of_invariant (I := fun s => Wf s ∧ Kept s)
      (fun h => bridgeAlive_of_kept h.1 h.2)
      (fun h hG he => ⟨wf_step h.1 he, kept_step h.1 h.2 hG he⟩) hG ⟨wf_init, ?_⟩
    intro _ b hb
    cases hb
  · intro s e s' es' t hrun hG hstep hrun'
    have hwf := wf_reach hrun
    have hspent := run_invariant (I := fun s => Wf s ∧ Spent s)
      (fun h he => ⟨wf_step h.1 he, spent_step h.1 h.2 he⟩) hrun'
      ⟨wf_step hwf hstep, spent_of_not_keepsBridge hwf hG hstep⟩
    exact hspent.2.2

/-- A session that reaches its bridge and loses its connection for a
moment. -/
def untilDisconnected : List Event :=
  untilCreating ++ [.created .read true, .publish .read, .peerChange .disconnected]

/-- Both halves at work: the monitor does not get to run in between, and it
does. -/
theorem bridge_survives_recovery_runs :
    Always step BridgeAlive init
        [.sendOffer true, .message (.answer true), .peerChange .connected,
          .channelOpen .read, .channelOpen .write, .onOpen .read true,
          .onOpen .write true, .created .write true, .publish .write,
          .peerChange .disconnected, .peerChange .connected]
      ∧ ∃ t, run step init (untilDisconnected
          ++ .monitor 0 :: [.peerChange .connected, .monitor 0]) = some t
        ∧ ∀ b ∈ t.bridges, Bridge.Told b := by
  constructor
  · refine (bridge_survives_recovery _).1 (EachStep.of_forall ?_ _)
    intro e he s
    refine ⟨fun i hi => ?_, fun i b hi => ?_⟩ <;> subst hi <;> simp at he
  · obtain ⟨t, ht⟩ : ∃ t, run step init (untilDisconnected
        ++ .monitor 0 :: [.peerChange .connected, .monitor 0]) = some t := ⟨_, rfl⟩
    obtain ⟨s, hs, hr⟩ := run_append_eq_some.mp ht
    obtain ⟨s', he, hr'⟩ := run_cons_eq_some.mp hr
    refine ⟨t, ht, (bridge_survives_recovery _).2 s _ s' _ t hs ?_ he hr'⟩
    obtain rfl := Option.some.inj hs
    intro hG
    have := hG.1 0 rfl rfl
    cases this

/-- `Connected`, `Disconnected`, `Connected`: the WebSocket loop runs, both
channels are open, the upstream is alive, and the only bridge was shut
down. -/
theorem bridge_lost_to_recovery :
    ∃ s, run step init (untilDisconnected
        ++ [.monitor 0, .peerChange .connected, .monitor 0]) = some s
      ∧ ¬ BridgeAlive s := by
  refine ⟨_, rfl, fun hP => ?_⟩
  have hex := hP rfl rfl (fun c => by cases c <;> rfl)
    (fun c => by cases c <;> rfl) ⟨rfl, fun b hb => ?_⟩
  · obtain ⟨b, hb, htold⟩ := hex
    obtain rfl := List.mem_singleton.mp hb
    exact htold (Or.inl rfl)
  · obtain rfl := List.mem_singleton.mp hb
    rfl

end Session

end XashProxy
