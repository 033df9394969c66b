import XashProxy.Session

/-!
# The end of a session

The holder is emptied by the cleanup of `handle_websocket` and by the
monitor callbacks of `Failed`, `Disconnected` and `Closed`; each of them
signals what it finds. `start_bridge` fills the holder after an `await` of
any length. A bridge is therefore signalled exactly when one of those takes
is still to come at the moment it is published, and
`cleanup_signals_bridge` says so for every complete run.
-/

namespace XashProxy

namespace Session

open Lts

/-- The handler has returned and no callback is in flight. -/
structure Complete (s : State) : Prop where
  handler : s.handler = .returned
  monitors : s.monitors = []
  closers : s.closers = 0
  onOpen : ∀ c, s.onOpen c = .idle ∨ s.onOpen c = .done

/-- No bridge is left in the holder, and every bridge was told. -/
def AllSignalled (s : State) : Prop :=
  s.bridge = none ∧ ∀ b ∈ s.bridges, b.shutdownCalled = true

/-- Somebody will still empty the holder: the cleanup, `close()` on a peer
that is not closed yet, or a monitor callback that has not run. -/
def TakeToCome (s : State) : Prop :=
  (s.handler = .loop ∨ s.handler = .cleanup) ∨ s.peer ≠ .closed
    ∨ ∃ st ∈ s.monitors, st.takes = true

/-- A bridge is published only while somebody will still take it. -/
def PublishedInTime (s : State) (e : Event) : Prop :=
  ∀ c, e = .publish c → TakeToCome s

/-- What is in the holder will be taken. -/
def WillBeTaken (s : State) : Prop := s.bridge ≠ none → TakeToCome s

/-! ## A take that is to come -/

/-- `close()` on a peer that is not closed brings a take, and it drops none. -/
theorem take_closePeer {s : State}
    (ht : s.peer ≠ .closed ∨ ∃ st ∈ s.monitors, st.takes = true) :
    ∃ st ∈ (closePeer s).monitors, st.takes = true := by
  unfold closePeer
  rcases ht with ht | ⟨st, hmem, htakes⟩
  · exact ⟨.closed, by simp [ht], rfl⟩
  · refine ⟨st, ?_, htakes⟩
    dsimp only
    split
    · exact hmem
    · exact List.mem_append_left _ hmem

/-- As long as no take happens, one that was to come still is. -/
theorem takeToCome_step {s s' : State} {e : Event} (hp : PeerWf s)
    (ht : TakeToCome s) (hno : ¬ Takes s e) (h : step s e = some s') :
    TakeToCome s' := by
  cases acts_of_step h with
  | sendOffer hpc =>
      refine Or.inr (Or.inl ?_)
      show s.peer ≠ .closed
      rw [(hp.offering hpc).2]
      decide
  | @message m hpc =>
      cases m with
      | answer applied => exact Or.inl (Or.inl hpc)
      | other => exact Or.inl (Or.inl hpc)
      | ended => exact Or.inl (Or.inr rfl)
  | cleanup hpc => exact absurd (Or.inl rfl) hno
  | closePeer hpc =>
      refine Or.inr (Or.inr (take_closePeer (ht.resolve_left ?_)))
      rw [hpc]
      nofun
  | @peerChange st hans hnext =>
      rcases ht with ht | ht | ⟨st', hmem, htakes⟩
      · exact Or.inl ht
      · by_cases hst : st = .closed
        · subst hst
          exact Or.inr (Or.inr ⟨.closed, by simp, rfl⟩)
        · exact Or.inr (Or.inl hst)
      · exact Or.inr (Or.inr ⟨st', List.mem_append_left _ hmem, htakes⟩)
  | @ignored i st hst hnt =>
      rcases ht with ht | ht | ⟨st', hmem, htakes⟩
      · exact Or.inl ht
      · exact Or.inr (Or.inl ht)
      · refine Or.inr (Or.inr ⟨st', ?_, htakes⟩)
        obtain ⟨j, hj⟩ := List.mem_iff_getElem?.mp hmem
        refine List.mem_eraseIdx_iff_getElem?.mpr ⟨j, ?_, hj⟩
        rintro rfl
        rw [hst] at hj
        obtain rfl := Option.some.inj hj
        rw [hnt] at htakes
        cases htakes
  | disconnected hst => exact absurd (Or.inr ⟨_, _, rfl, hst, rfl⟩) hno
  | terminal hst hterm =>
      have htakes := PeerState.takes_of_terminal hterm
      exact absurd (Or.inr ⟨_, _, rfl, hst, htakes⟩) hno
  | peerGone hpos => exact ht
  | peerClosed hpos =>
      rcases ht with ht | ht
      · exact Or.inl ht
      · exact Or.inr (Or.inr (take_closePeer ht))
  | channelOpen hconn hopen => exact ht
  | channelClose => exact ht
  | onOpen hpc hup => exact ht
  | @created c ok hpc => cases ok <;> exact ht
  | publish hpc => exact ht
  | bridge hb hown hstep => exact ht

theorem not_takes_of_not_takeToCome {s s' : State} {e : Event} (hn : ¬ TakeToCome s)
    (h : step s e = some s') : ¬ Takes s e := by
  rintro (rfl | ⟨i, st, -, hst, htakes⟩)
  · cases acts_of_step h with
    | cleanup hpc => exact hn (Or.inl (Or.inr hpc))
  · exact hn (Or.inr (Or.inr ⟨st, List.mem_of_getElem? hst, htakes⟩))

/-- A handler and monitor callbacks that come from before bring no take to a
closed peer. -/
theorem not_takeToCome_of_closed {s s' : State} (hn : ¬ TakeToCome s)
    (hh : s'.handler = .loop ∨ s'.handler = .cleanup →
      s.handler = .loop ∨ s.handler = .cleanup)
    (hpeer : s'.peer = .closed) (hsub : s'.monitors ⊆ s.monitors) :
    ¬ TakeToCome s' := by
  rintro (ht | ht | ⟨st, hmem, htakes⟩)
  · exact hn (Or.inl (hh ht))
  · exact ht hpeer
  · exact hn (Or.inr (Or.inr ⟨st, hsub hmem, htakes⟩))

/-- When no take is to come, none will ever be. -/
theorem not_takeToCome_step {s s' : State} {e : Event} (hp : PeerWf s)
    (hn : ¬ TakeToCome s) (h : step s e = some s') : ¬ TakeToCome s' := by
  have hno := not_takes_of_not_takeToCome hn h
  have hclosed : s.peer = .closed :=
    Decidable.byContradiction fun h => hn (Or.inr (Or.inl h))
  have hquiet : (closePeer s).monitors ⊆ s.monitors := by simp [closePeer, hclosed]
  cases acts_of_step h with
  | sendOffer hpc =>
      rw [(hp.offering hpc).2] at hclosed
      cases hclosed
  | message hpc => exact absurd (Or.inl (Or.inl hpc)) hn
  | cleanup hpc => exact absurd (Or.inl rfl) hno
  | closePeer hpc =>
      exact not_takeToCome_of_closed hn nofun rfl hquiet
  | peerChange hans hnext =>
      rw [hclosed] at hnext
      cases hnext
  | ignored hst hnt =>
      exact not_takeToCome_of_closed hn id hclosed (List.eraseIdx_sublist ..).subset
  | disconnected hst => exact absurd (Or.inr ⟨_, _, rfl, hst, rfl⟩) hno
  | terminal hst hterm =>
      have htakes := PeerState.takes_of_terminal hterm
      exact absurd (Or.inr ⟨_, _, rfl, hst, htakes⟩) hno
  | peerGone hpos => exact hn
  | peerClosed hpos =>
      exact not_takeToCome_of_closed hn id rfl hquiet
  | channelOpen hconn hopen => exact absurd hclosed hopen
  | channelClose => exact hn
  | onOpen hpc hup => exact hn
  | @created c ok hpc => cases ok <;> exact hn
  | publish hpc => exact hn
  | bridge hb hown hstep => exact hn

/-! ## Runs -/

theorem willBeTaken_step {s s' : State} {e : Event} (hwf : Wf s)
    (hw : WillBeTaken s) (hG : PublishedInTime s e) (h : step s e = some s') :
    WillBeTaken s' := by
  intro hne
  by_cases htakes : Takes s e
  · exact absurd (bridge_of_takes htakes h) hne
  · refine takeToCome_step hwf.peer ?_ htakes h
    rcases step_bridges h with ⟨hhold, -⟩ | ⟨ht, -⟩ | ⟨-, hhold, -⟩
      | ⟨c, rfl, -⟩ | ⟨i, e', b, b', -, -, -, -, rfl⟩
    · rw [hhold] at hne
      exact hw hne
    · exact absurd ht htakes
    · rw [hhold] at hne
      exact hw hne
    · exact hG c rfl
    · exact hw hne

/-- With no take to come, a filled holder stays filled. -/
theorem not_willBeTaken_step {s s' : State} {e : Event} (hwf : Wf s)
    (hw : ¬ WillBeTaken s) (h : step s e = some s') : ¬ WillBeTaken s' := by
  unfold WillBeTaken at hw
  push Not at hw
  obtain ⟨hne, hn⟩ := hw
  intro hw'
  refine not_takeToCome_step hwf.peer hn h (hw' ?_)
  rcases step_bridges h with ⟨hhold, -⟩ | ⟨ht, -⟩ | ⟨-, hhold, -⟩
    | ⟨c, -, -, rfl⟩ | ⟨i, e', b, b', -, -, -, -, rfl⟩
  · rw [hhold]
    exact hne
  · exact absurd ht (not_takes_of_not_takeToCome hn h)
  · rw [hhold]
    exact hne
  · exact nofun
  · exact hne

theorem not_willBeTaken_of_publish {s s' : State} {e : Event} (hwf : Wf s)
    (hG : ¬ PublishedInTime s e) (h : step s e = some s') :
    ¬ WillBeTaken s' := by
  unfold PublishedInTime at hG
  push Not at hG
  obtain ⟨c, rfl, hn⟩ := hG
  intro hw'
  refine not_takeToCome_step hwf.peer hn h (hw' ?_)
  cases acts_of_step h with
  | publish hpc => exact Option.some_ne_none _

/-- At the end nobody comes any more. -/
theorem willBeTaken_iff_of_complete {s : State} (hwf : Wf s) (hs : Complete s) :
    WillBeTaken s ↔ AllSignalled s := by
  have hn : ¬ TakeToCome s := by
    rintro ((h | h) | h | ⟨st, hmem, -⟩)
    · rw [hs.handler] at h
      cases h
    · rw [hs.handler] at h
      cases h
    · exact h (hwf.peer.returned hs.handler)
    · rw [hs.monitors] at hmem
      cases hmem
  constructor
  · intro hw
    have hnone : s.bridge = none := Decidable.byContradiction fun h => hn (hw h)
    refine ⟨hnone, fun b hb => ?_⟩
    obtain ⟨i, hi⟩ := List.mem_iff_getElem?.mp hb
    cases hcall : b.shutdownCalled with
    | true => rfl
    | false =>
        have := hwf.held.unsignalled i b hi hcall
        rw [hnone] at this
        cases this
  · exact fun h hne => absurd h.1 hne

/-- A session starts at most one bridge; and a session that is over has
signalled it, with nothing left in the holder, exactly when the bridge was
published while a take was still to come. -/
theorem cleanup_signals_bridge {s : State} {es : List Event}
    (h : run step init es = some s) :
    s.bridges.length ≤ 1 ∧ (Complete s →
      (AllSignalled s ↔ EachStep step PublishedInTime init es)) := by
  have hwf := run_invariant (I := Wf) wf_step h wf_init
  constructor
  · have honce := hwf.counted.once
    unfold attempts at honce
    omega
  · intro hs
    rw [← willBeTaken_iff_of_complete hwf hs]
    exact run_iff_eachStep (I := Wf) (fun hwf he => wf_step hwf he)
      (fun hwf hw hG he => willBeTaken_step hwf hw hG he)
      (fun hwf hG he => not_willBeTaken_of_publish hwf hG he)
      (fun hwf hw he => not_willBeTaken_step hwf hw he) h wf_init
      (fun h => absurd rfl h)

/-- The cleanup and every callback it brings. -/
def untilClosed : List Event :=
  [.message .ended, .cleanup, .closePeer, .monitor 0, .monitorClose true]

/-- The bridge is published first, and the session ends with it signalled. -/
theorem cleanup_signals_bridge_published :
    ∃ s, run step init (untilCreating ++ .created .read true ::
        .publish .read :: untilClosed) = some s ∧ AllSignalled s := by
  obtain ⟨s, hs, hcomplete⟩ : ∃ s, run step init (untilCreating
      ++ .created .read true :: .publish .read :: untilClosed) = some s
      ∧ Complete s := by
    refine ⟨_, rfl, rfl, rfl, rfl, fun c => ?_⟩
    cases c <;> exact Or.inr rfl
  have hquiet : ∀ es : List Event, (∀ c, .publish c ∉ es) → ∀ u,
      EachStep step PublishedInTime u es := by
    intro es hes u
    refine EachStep.of_forall (fun e he v c hc => ?_) u
    subst hc
    exact absurd he (hes c)
  refine ⟨s, hs, ((cleanup_signals_bridge hs).2 hcomplete).mpr ?_⟩
  refine (hquiet _ (fun c => by cases c <;> decide) _).append fun u hu => ?_
  obtain rfl := Option.some.inj hu
  refine fun v hv => ⟨nofun, fun w hw => ⟨fun _ _ => Or.inl (Or.inl ?_), ?_⟩⟩
  · obtain rfl := Option.some.inj hv
    rfl
  · exact hquiet _ (fun c => by cases c <;> decide) _

/-- The session ends while `start_bridge` waits in `Bridge::new`: the bridge
stays in the holder and is never told. -/
theorem cleanup_misses_late_bridge :
    ∃ s, run step init (untilCreating ++ untilClosed
        ++ [.created .read true, .publish .read]) = some s
      ∧ Complete s ∧ s.bridge = some 0
      ∧ ∃ b ∈ s.bridges, b.shutdownCalled = false := by
  refine ⟨_, rfl, ⟨rfl, rfl, rfl, fun c => ?_⟩, rfl, _, List.mem_singleton_self _, rfl⟩
  cases c <;> exact Or.inr rfl

end Session

end XashProxy
