import XashProxy.Bridge

/-!
# One shutdown signal

`Bridge::shutdown` calls `notify_one`, and two tasks wait on that `Notify`:
`start()`, which aborts the forwarder when it wakes, and the forwarder's own
`select!`. If `start()` gets the notification both end. If the forwarder
consumes it, `start()` stays parked, unless another notification is
outstanding.

`Wf` ties the registrations in the `Notify` to the program points, and
`Signalled` is the token argument: after the call a notification is
outstanding or `start()` is past its wait. Only the forwarder's shutdown
branch can break it, and `shutdown_ends_bridge` shows both directions.
-/

namespace XashProxy

namespace Bridge

open Lts

/-! ## The property -/

/-- The events that need nothing new from outside the two tasks. The
completion of an awaited send or close is not one of them. -/
def Internal : Event → Prop
  | .start | .cancel => True
  | .forward p => p = .park ∨ p = .recv ∨ p = .idle ∨ p = .notified
  | _ => False

/-- When neither task can go on by itself, a called shutdown has ended
both. -/
def ShutdownComplete (s : State) : Prop :=
  Quiescent step Internal s → s.shutdownCalled = true →
    s.startPc = .returned
      ∧ (s.forwarderPc = .ended ∨ s.forwarderPc = .aborted)

/-- `start()` is past its wait. -/
def StartWoken (s : State) : Prop := s.startPc = .abort ∨ s.startPc = .returned

/-- The forwarder does not consume the last outstanding notification in its
shutdown branch while `start()` still needs one. -/
def NoticeLeftForStart (s : State) (e : Event) : Prop :=
  e = .forward .notified →
    StartWoken s ∨ (s.shutdown.poll .forwarder).2.Outstanding

/-- The events that send a notification from outside the two tasks. -/
def Notifies : Event → Prop
  | .readClose | .readError | .shutdown => True
  | _ => False

/-! ## Registrations and program points -/

structure Wf (s : State) : Prop where
  start_waits : s.shutdown.Waits .start ↔ s.startPc = .parked
  forwarder_waits :
    s.shutdown.Waits .forwarder ↔ ∃ sleep, s.forwarderPc = .parked sleep
  unspawned : s.forwarderPc = .unspawned ↔ s.startPc = .spawn
  returned : s.startPc = .returned → s.abortRequested = true

theorem wf_init : Wf init where
  start_waits := by simp [init]
  forwarder_waits := by simp [init]
  unspawned := by simp [init]
  returned := nofun

/-- The forwarder leaves its `select!`, or never was in it: its future is
gone and the other one is untouched. -/
theorem Wf.leave_select {s s' : State} (hwf : Wf s)
    (hw : ∀ w, s'.shutdown.Waits w ↔ w ≠ .forwarder ∧ s.shutdown.Waits w)
    (hpc : ∀ sleep, s'.forwarderPc ≠ .parked sleep)
    (hspawned : s.forwarderPc ≠ .unspawned)
    (hspawned' : s'.forwarderPc ≠ .unspawned)
    (hstart : s'.startPc = s.startPc)
    (habort : s'.abortRequested = s.abortRequested) : Wf s' where
  start_waits := by
    rw [hw, hstart, ← hwf.start_waits]
    simp
  forwarder_waits := by
    rw [hw]
    constructor
    · rintro ⟨hne, -⟩
      exact absurd rfl hne
    · rintro ⟨sleep, h⟩
      exact absurd h (hpc sleep)
  unspawned := by
    rw [hstart, ← hwf.unspawned]
    exact ⟨fun h => absurd h hspawned', fun h => absurd h hspawned⟩
  returned := by
    rw [hstart, habort]
    exact hwf.returned

/-- A step outside the two tasks moves neither of them. -/
theorem Wf.of_notify {s s' : State} (hwf : Wf s)
    (hw : ∀ w, s'.shutdown.Waits w ↔ s.shutdown.Waits w)
    (hpc : s'.forwarderPc = s.forwarderPc) (hstart : s'.startPc = s.startPc)
    (habort : s'.abortRequested = s.abortRequested) : Wf s' where
  start_waits := by rw [hw, hstart]; exact hwf.start_waits
  forwarder_waits := by rw [hw, hpc]; exact hwf.forwarder_waits
  unspawned := by rw [hpc, hstart]; exact hwf.unspawned
  returned := by rw [hstart, habort]; exact hwf.returned

theorem ne_unspawned_of_selecting {pc : ForwarderPc}
    (h : selecting pc = true) : pc ≠ .unspawned := by
  rintro rfl
  cases h

/-- `start()` moves from one point outside its wait to another. -/
theorem Wf.start_moves {s s' : State} (hwf : Wf s)
    (hw : ∀ w, s'.shutdown.Waits w ↔ w ≠ .start ∧ s.shutdown.Waits w)
    (hpc : s'.forwarderPc = s.forwarderPc)
    (hne : s.startPc ≠ .spawn) (hne' : s'.startPc ≠ .spawn)
    (hpark : s'.startPc ≠ .parked)
    (hret : s'.startPc = .returned → s'.abortRequested = true) : Wf s' where
  start_waits := by
    rw [hw]
    exact ⟨fun h => absurd rfl h.1, fun h => absurd h hpark⟩
  forwarder_waits := by
    rw [hw, hpc, ← hwf.forwarder_waits]
    simp
  unspawned := by
    rw [hpc, hwf.unspawned]
    exact ⟨fun h => absurd h hne, fun h => absurd h hne'⟩
  returned := hret

/-- `start()` finds no notification and parks. -/
theorem Wf.start_parks {s s' : State} (hwf : Wf s)
    (hw : ∀ w, s'.shutdown.Waits w ↔ w = .start ∨ s.shutdown.Waits w)
    (hpc : s'.forwarderPc = s.forwarderPc)
    (hne : s.startPc ≠ .spawn) (hpark : s'.startPc = .parked) : Wf s' where
  start_waits := by
    rw [hw]
    simp [hpark]
  forwarder_waits := by
    rw [hw, hpc, ← hwf.forwarder_waits]
    simp
  unspawned := by
    rw [hpc, hwf.unspawned, hpark]
    exact ⟨fun h => absurd h hne, nofun⟩
  returned := by
    rw [hpark]
    exact nofun

/-- The forwarder's `select!` finds nothing ready and parks. -/
theorem Wf.forwarder_parks {s s' : State} {sleep : Option Nat} (hwf : Wf s)
    (hw : ∀ w, s'.shutdown.Waits w ↔ w = .forwarder ∨ s.shutdown.Waits w)
    (hpc : s.forwarderPc ≠ .unspawned) (hpark : s'.forwarderPc = .parked sleep)
    (hstart : s'.startPc = s.startPc)
    (habort : s'.abortRequested = s.abortRequested) : Wf s' where
  start_waits := by
    rw [hw, hstart, ← hwf.start_waits]
    simp
  forwarder_waits := by
    rw [hw]
    simp [hpark]
  unspawned := by
    rw [hpark, hstart, ← hwf.unspawned]
    exact ⟨nofun, fun h => absurd h hpc⟩
  returned := by
    rw [hstart, habort]
    exact hwf.returned

/-- `start()` has a future in the `Notify` only while it is parked. -/
theorem Wf.not_waits_of_ne_parked {s : State} (hwf : Wf s)
    (hpc : s.startPc ≠ .parked) (w : Task) :
    s.shutdown.Waits w ↔ w ≠ .start ∧ s.shutdown.Waits w := by
  refine ⟨fun hw => ⟨?_, hw⟩, fun hw => hw.2⟩
  rintro rfl
  exact hpc (hwf.start_waits.mp hw)

/-- Outside its `select!` the forwarder has no future to drop. -/
theorem Wf.not_waits_of_not_parked {s : State} (hwf : Wf s)
    (hpc : ∀ sleep, s.forwarderPc ≠ .parked sleep) (w : Task) :
    s.shutdown.Waits w ↔ w ≠ .forwarder ∧ s.shutdown.Waits w := by
  refine ⟨fun hw => ⟨?_, hw⟩, fun hw => hw.2⟩
  rintro rfl
  obtain ⟨sleep, hsleep⟩ := hwf.forwarder_waits.mp hw
  exact hpc sleep hsleep

theorem wf_onReadEnd {s : State} (hwf : Wf s) : Wf (onReadEnd s) := by
  rcases onReadEnd_cases s with ⟨-, heq⟩ | ⟨-, heq⟩ <;> rw [heq]
  · exact hwf.of_notify (Notify.waits_notifyOne _) rfl rfl rfl
  · exact hwf

theorem wf_step {s s' : State} {e : Event} (hwf : Wf s)
    (h : step s e = some s') : Wf s' := by
  have hdrop := s.shutdown.waits_drop .forwarder
  cases acts_of_step h with
  | spawn hpc =>
      -- the spawned task starts at its `select!`, registered nowhere
      have hun := hwf.unspawned.mpr hpc
      exact {
        start_waits := by
          have := hwf.start_waits
          simpa [hpc] using this
        forwarder_waits := by
          have := hwf.forwarder_waits
          simpa [hun] using this
        unspawned := by simp
        returned := nofun }
  | install hpc =>
      have hw := hwf.not_waits_of_ne_parked (by rw [hpc]; nofun)
      exact hwf.start_moves hw rfl (by rw [hpc]; nofun) nofun nofun nofun
  | wake hpc hpoll =>
      refine hwf.start_moves (Notify.waits_of_poll_ready hpoll) rfl ?_
        nofun nofun nofun
      rcases hpc with hpc | hpc <;> rw [hpc] <;> nofun
  | wait hpc hpoll =>
      exact hwf.start_parks (Notify.waits_of_poll_pending hpoll) rfl
        (by rw [hpc]; nofun) rfl
  | abort hpc =>
      have hw := hwf.not_waits_of_ne_parked (by rw [hpc]; nofun)
      exact hwf.start_moves hw rfl (by rw [hpc]; nofun) nofun nofun (fun _ => rfl)
  | park hpc hsock hpoll =>
      exact hwf.forwarder_parks (Notify.waits_of_poll_pending hpoll)
        (by rw [hpc]; nofun) rfl rfl rfl
  | recv hsock hsel hne =>
      exact hwf.leave_select hdrop nofun (ne_unspawned_of_selecting hsel) nofun rfl rfl
  | recvEmpty hsock hsel =>
      exact hwf.leave_select hdrop nofun (ne_unspawned_of_selecting hsel) nofun rfl rfl
  | recvError hsock hsel =>
      exact hwf.leave_select hdrop nofun (ne_unspawned_of_selecting hsel) nofun rfl rfl
  | idle hpc hle =>
      exact hwf.leave_select hdrop nofun (by rw [hpc]; nofun) nofun rfl rfl
  | notified hsel hpoll =>
      exact hwf.leave_select (Notify.waits_of_poll_ready hpoll) nofun
        (ne_unspawned_of_selecting hsel) nofun rfl rfl
  | sent hpc =>
      have hw := hwf.not_waits_of_not_parked (by rw [hpc]; nofun)
      exact hwf.leave_select hw nofun (by rw [hpc]; nofun) nofun rfl rfl
  | sendFailed hpc =>
      have hw := hwf.not_waits_of_not_parked (by rw [hpc]; nofun)
      exact hwf.leave_select hw nofun (by rw [hpc]; nofun) nofun rfl rfl
  | writeClosed hpc =>
      have hw := hwf.not_waits_of_not_parked (by rw [hpc]; nofun)
      exact hwf.leave_select hw nofun (by rw [hpc]; nofun) nofun rfl rfl
  | readClosed hpc =>
      have hw := hwf.not_waits_of_not_parked (by rw [hpc]; nofun)
      exact hwf.leave_select (fun w => by rw [Notify.waits_notifyOne]; exact hw w)
        nofun (by rw [hpc]; nofun) nofun rfl rfl
  | cancel hab hlive =>
      have hun : s.forwarderPc ≠ .unspawned := by
        intro hpc
        rw [hpc] at hlive
        cases hlive
      exact hwf.leave_select hdrop nofun hun nofun rfl rfl
  | datagram => exact hwf.of_notify (fun _ => Iff.rfl) rfl rfl rfl
  | message hinst => exact hwf.of_notify (fun _ => Iff.rfl) rfl rfl rfl
  | unheard hinst => exact hwf
  | readClose hopen =>
      exact wf_onReadEnd (hwf.of_notify (fun _ => Iff.rfl) rfl rfl rfl)
  | readError => exact wf_onReadEnd hwf
  | shutdown => exact hwf.of_notify (Notify.waits_notifyOne _) rfl rfl rfl
  | elapse => exact hwf.of_notify (fun _ => Iff.rfl) rfl rfl rfl

/-! ## The token argument -/

/-- `start()` has had a notification, or one is outstanding. -/
def Noticed (s : State) : Prop := StartWoken s ∨ s.shutdown.Outstanding

/-- Before its wait, and while parked in it, `start()` has had none. -/
theorem not_startWoken {s : State} (habort : s.startPc ≠ .abort)
    (hret : s.startPc ≠ .returned) : ¬ StartWoken s := by
  rintro (h | h)
  · exact habort h
  · exact hret h

theorem noticed_onReadEnd {s : State} (hn : Noticed s) : Noticed (onReadEnd s) := by
  rcases onReadEnd_cases s with ⟨-, heq⟩ | ⟨-, heq⟩ <;> rw [heq]
  · exact Or.inr (Notify.outstanding_notifyOne _)
  · exact hn

/-- A notification is only lost by the forwarder's shutdown branch. -/
theorem noticed_step {s s' : State} {e : Event} (hn : Noticed s)
    (hG : NoticeLeftForStart s e) (h : step s e = some s') : Noticed s' := by
  have hdrop := hn.imp id fun ho => ho.drop Task.forwarder
  cases acts_of_step h with
  | spawn hpc =>
      have hnot := not_startWoken (by rw [hpc]; nofun) (by rw [hpc]; nofun)
      exact Or.inr (hn.resolve_left hnot)
  | install hpc =>
      have hnot := not_startWoken (by rw [hpc]; nofun) (by rw [hpc]; nofun)
      exact Or.inr (hn.resolve_left hnot)
  | wake hpc hpoll => exact Or.inl (Or.inl rfl)
  | wait hpc hpoll =>
      have hnot := not_startWoken (by rw [hpc]; nofun) (by rw [hpc]; nofun)
      exact Or.inr ((Notify.outstanding_poll_pending hpoll).mpr (hn.resolve_left hnot))
  | abort hpc => exact Or.inl (Or.inr rfl)
  | park hpc hsock hpoll =>
      exact hn.imp id (Notify.outstanding_poll_pending hpoll).mpr
  | recv hsock hsel hne => exact hdrop
  | recvEmpty hsock hsel => exact hdrop
  | recvError hsock hsel => exact hdrop
  | idle hpc hle => exact hdrop
  | notified hsel hpoll => exact hG rfl
  | sent hpc => exact hn
  | sendFailed hpc => exact hn
  | writeClosed hpc => exact hn
  | readClosed hpc => exact Or.inr (Notify.outstanding_notifyOne _)
  | cancel hab hlive => exact hdrop
  | datagram => exact hn
  | message hinst => exact hn
  | unheard hinst => exact hn
  | readClose hopen => exact noticed_onReadEnd hn
  | readError => exact noticed_onReadEnd hn
  | shutdown => exact Or.inr (Notify.outstanding_notifyOne _)
  | elapse => exact hn

/-- After the call, a notification is outstanding or `start()` has had
one. -/
def Signalled (s : State) : Prop :=
  s.shutdownCalled = true → StartWoken s ∨ s.shutdown.Outstanding

/-- Only its session calls a bridge's `shutdown`. -/
theorem shutdownCalled_step {s s' : State} {e : Event} (h : step s e = some s')
    (hcall : s'.shutdownCalled = true) : s.shutdownCalled = true ∨ e = .shutdown := by
  cases acts_of_step h with
  | shutdown => exact Or.inr rfl
  | readClose hopen =>
      rcases onReadEnd_cases { s with readOpen := false } with
        ⟨-, heq⟩ | ⟨-, heq⟩ <;> rw [heq] at hcall <;> exact Or.inl hcall
  | readError =>
      rcases onReadEnd_cases s with ⟨-, heq⟩ | ⟨-, heq⟩ <;> rw [heq] at hcall <;>
        exact Or.inl hcall
  | _ => exact Or.inl hcall

theorem signalled_step {s s' : State} {e : Event} (hsig : Signalled s)
    (hG : NoticeLeftForStart s e) (h : step s e = some s') :
    Signalled s' := by
  intro hcall
  rcases shutdownCalled_step h hcall with hcall | rfl
  · exact noticed_step (hsig hcall) hG h
  · obtain rfl := Option.some.inj h
    exact Or.inr (Notify.outstanding_notifyOne _)

/-! ## Quiescent states -/

theorem not_quiescent_of_start {s : State} (h : start s ≠ none) :
    ¬ Quiescent step Internal s := fun hq => h (hq .start trivial)

/-- A future that was handed a notification lets its task go on. -/
theorem not_quiescent_of_notified {s : State} (hwf : Wf s) {w : Task}
    (hw : w ∈ s.shutdown.notified) : ¬ Quiescent step Internal s := by
  have hready := (Notify.poll_ready_of_waits (Or.inl hw)).mpr hw
  obtain ⟨n, hn⟩ : ∃ n, s.shutdown.poll w = (true, n) :=
    ⟨_, Prod.ext hready rfl⟩
  cases w with
  | start =>
      have hpc := hwf.start_waits.mp (Or.inl hw)
      exact not_quiescent_of_start (by simp [start, hpc, hn])
  | forwarder =>
      intro hq
      obtain ⟨sleep, hpc⟩ := hwf.forwarder_waits.mp (Or.inl hw)
      have := hq (.forward .notified) (Or.inr (Or.inr (Or.inr rfl)))
      simp only [step, forwardUdpToWebrtc, hpc, selecting, if_true, hn] at this
      cases this

/-- Before its wait, `start()` can always go on. -/
theorem not_quiescent_of_not_waiting {s : State} (hpc : s.startPc ≠ .parked)
    (hret : s.startPc ≠ .returned) : ¬ Quiescent step Internal s := by
  cases h : s.startPc with
  | spawn => exact not_quiescent_of_start (by simp [start, h])
  | install => exact not_quiescent_of_start (by simp [start, h])
  | notified =>
      cases hpoll : s.shutdown.poll .start with
      | mk ready n =>
          cases ready <;>
            exact not_quiescent_of_start (by simp [start, h, hpoll])
  | parked => exact absurd h hpc
  | abort => exact not_quiescent_of_start (by simp [start, h])
  | returned => exact absurd h hret

/-- A requested abort ends the forwarder. -/
theorem not_live_of_quiescent {s : State} (hab : s.abortRequested = true)
    (hq : Quiescent step Internal s) : s.forwarderPc.live = false := by
  cases hlive : s.forwarderPc.live with
  | false => rfl
  | true =>
      have := hq .cancel trivial
      simp only [step, cancel, hab, hlive, and_self, if_true] at this
      cases this

theorem shutdownComplete_of_signalled {s : State} (hwf : Wf s)
    (hsig : Signalled s) : ShutdownComplete s := by
  intro hq hcall
  have hpc : s.startPc = .returned := by
    by_contra hret
    by_cases hpark : s.startPc = .parked
    · -- parked: somebody holds the outstanding notification
      have hout : s.shutdown.Outstanding := by
        refine (hsig hcall).resolve_left ?_
        rintro (h | h) <;> rw [hpark] at h <;> cases h
      have hex : ∃ w, w ∈ s.shutdown.notified := by
        rcases hwf.start_waits.mpr hpark with hw | hw
        · exact ⟨_, hw⟩
        · exact hout.exists_notified hw
      obtain ⟨w, hw⟩ := hex
      exact not_quiescent_of_notified hwf hw hq
    · exact not_quiescent_of_not_waiting hpark hret hq
  have hlive := not_live_of_quiescent (hwf.returned hpc) hq
  refine ⟨hpc, ?_⟩
  cases hf : s.forwarderPc with
  | unspawned =>
      rw [hwf.unspawned, hpc] at hf
      cases hf
  | ended => exact Or.inl rfl
  | aborted => exact Or.inr rfl
  | _ =>
      rw [hf] at hlive
      cases hlive

/-! ## The lost notification -/

/-- The forwarder has ended and `start()` waits for a notification nobody
has sent. -/
structure Stranded (s : State) : Prop where
  ended : s.forwarderPc = .ended
  not_woken : ¬ StartWoken s
  none_left : ¬ s.shutdown.Outstanding

theorem Stranded.of_started {s s' : State} (hst : Stranded s)
    (hpc : s'.forwarderPc = s.forwarderPc) (habort : s'.startPc ≠ .abort)
    (hret : s'.startPc ≠ .returned)
    (hout : s'.shutdown.Outstanding → s.shutdown.Outstanding) : Stranded s' :=
  ⟨hpc.trans hst.ended, not_startWoken habort hret, fun h => hst.none_left (hout h)⟩

/-- An ended forwarder takes no step, and `start()` finds no notification. -/
theorem stranded_step {s s' : State} {e : Event} (hwf : Wf s)
    (hst : Stranded s) (he : ¬ Notifies e) (h : step s e = some s') :
    Stranded s' := by
  have hended := hst.ended
  cases acts_of_step h with
  | spawn hpc =>
      rw [hwf.unspawned.mpr hpc] at hended
      cases hended
  | install hpc => exact hst.of_started rfl nofun nofun id
  | wake hpc hpoll =>
      -- a completed poll found a notification
      exact absurd (Notify.outstanding_of_poll_ready hpoll) hst.none_left
  | wait hpc hpoll =>
      exact hst.of_started rfl nofun nofun (Notify.outstanding_poll_pending hpoll).mp
  | abort hpc => exact absurd (Or.inl hpc) hst.not_woken
  | datagram => exact ⟨hst.ended, hst.not_woken, hst.none_left⟩
  | message hinst => exact ⟨hst.ended, hst.not_woken, hst.none_left⟩
  | unheard hinst => exact hst
  | readClose hopen => exact absurd trivial he
  | readError => exact absurd trivial he
  | shutdown => exact absurd trivial he
  | elapse => exact ⟨hst.ended, hst.not_woken, hst.none_left⟩
  | _ =>
      have hlive := live_of_step rfl h
      rw [hended] at hlive
      cases hlive

/-! ## Runs -/

theorem wf_reach {s : State} {es : List Event}
    (h : run step init es = some s) : Wf s :=
  run_invariant (fun hwf he => wf_step hwf he) h wf_init

theorem stranded_of_not_noticeLeft {s s' : State}
    (hG : ¬ NoticeLeftForStart s (.forward .notified))
    (h : step s (.forward .notified) = some s') : Stranded s' := by
  unfold NoticeLeftForStart at hG
  push Not at hG
  obtain ⟨-, hstart, hout⟩ := hG
  cases acts_of_step h with
  | notified hsel hpoll => exact ⟨rfl, hstart, hout⟩

theorem stranded_run {s t : State} {es : List Event} (hwf : Wf s)
    (hst : Stranded s) (hes : ∀ e ∈ es, ¬ Notifies e)
    (h : run step s es = some t) : Stranded t := by
  induction es generalizing s with
  | nil =>
      obtain rfl := Option.some.inj h
      exact hst
  | cons e es ih =>
      obtain ⟨s', he, hr⟩ := run_cons_eq_some.mp h
      have hst' := stranded_step hwf hst (hes e (List.mem_cons_self ..)) he
      exact ih (wf_step hwf he) hst'
        (fun e' h' => hes e' (List.mem_cons_of_mem _ h')) hr

/-- A called shutdown ends `start()` and the forwarder in every run in which
the forwarder's shutdown branch never consumes the last notification under
a `start()` that has had none; once it does, `start()` does not return
before somebody notifies again. -/
theorem shutdown_ends_bridge (es : List Event) :
    (EachStep step NoticeLeftForStart init es → Always step ShutdownComplete init es)
    ∧ ∀ s s' es' t, run step init es = some s →
        ¬ NoticeLeftForStart s (.forward .notified) →
        step s (.forward .notified) = some s' →
        (∀ e ∈ es', ¬ Notifies e) → run step s' es' = some t →
        t.forwarderPc = .ended ∧ t.startPc ≠ .returned := by
  constructor
  · intro hG
    refine Always.of_invariant (I := fun s => Wf s ∧ Signalled s)
      (fun h => shutdownComplete_of_signalled h.1 h.2)
      (fun h hG he => ⟨wf_step h.1 he, signalled_step h.2 hG he⟩) hG
      ⟨wf_init, nofun⟩
  · intro s s' es' t hrun hG hstep hes hrun'
    have hwf := wf_reach hrun
    have hst := stranded_run (wf_step hwf hstep)
      (stranded_of_not_noticeLeft hG hstep) hes hrun'
    exact ⟨hst.ended, fun h => hst.not_woken (Or.inr h)⟩

/-- Both halves at work: `start()` parked first, and `start()` stranded. -/
theorem shutdown_ends_bridge_runs :
    Always step ShutdownComplete init
        [.start, .start, .start, .forward .park, .shutdown, .start, .start,
          .cancel]
      ∧ ∃ t, run step init ([.start, .forward .park, .start, .start, .shutdown]
            ++ .forward .notified :: [.elapse idleTimeout]) = some t
          ∧ t.startPc ≠ .returned := by
  constructor
  · refine (shutdown_ends_bridge _).1 (EachStep.of_forall ?_ _)
    intro e he s hforward
    subst hforward
    simp at he
  · obtain ⟨t, ht⟩ : ∃ t, run step init ([.start, .forward .park, .start,
        .start, .shutdown] ++ .forward .notified :: [.elapse idleTimeout])
        = some t := ⟨_, rfl⟩
    obtain ⟨s, hs, hr⟩ := run_append_eq_some.mp ht
    obtain ⟨s', hs', hr'⟩ := run_cons_eq_some.mp hr
    refine ⟨t, ht, ((shutdown_ends_bridge _).2 s s' _ t hs ?_ hs' ?_ hr').2⟩
    · obtain rfl := Option.some.inj hs
      intro hG
      rcases hG rfl with (h | h) | (h | h)
      · cases h
      · cases h
      · cases h
      · exact h rfl
    · intro e he
      rw [List.mem_singleton.mp he]
      exact id

/-- The forwarder registered first and takes the only notification: the
shutdown was called, nothing can go on, and `start()` is still parked. -/
theorem shutdown_strands_start :
    ∃ s, run step init [.start, .forward .park, .start, .start, .shutdown,
        .forward .notified] = some s ∧ ¬ ShutdownComplete s := by
  refine ⟨_, rfl, fun hP => absurd (hP (fun e he => ?_) rfl).1 nofun⟩
  cases e with
  | start => rfl
  | cancel => rfl
  | forward p =>
      rcases he with rfl | rfl | rfl | rfl <;> rfl
  | _ => exact he.elim

end Bridge

end XashProxy
