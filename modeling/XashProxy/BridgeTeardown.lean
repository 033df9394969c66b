import XashProxy.BridgeShutdown

/-!
# How a bridge dies

`teardown` closes the write channel, then the read channel, and then
notifies `start()`. Two things can keep it from doing all three. The loop
of the forwarder leaves without it when a send on the write channel fails;
and `start()`, once somebody else has woken it, aborts the task at whichever
`await` it has reached, which may be the first of the two closes.

Both are exact. `teardown_all_or_nothing_iff` says that the channels are
closed together in every run in which no abort lands in the first close, and
in no other; `death_reported_iff` says the same of a bridge whose upstream
direction has died, with the failed sends added.
-/

namespace XashProxy

namespace Bridge

open Lts

/-! ## The two closes -/

/-- The forwarder task has ended, by itself or by an abort. -/
def ForwarderPc.dead : ForwarderPc → Bool
  | .ended | .aborted => true
  | _ => false

/-- The forwarder has called a close, or has nothing left to call. -/
def ForwarderPc.left : ForwarderPc → Bool
  | .closingWrite | .closingRead | .ended | .aborted => true
  | _ => false

/-- How far the closes have come at each point of the forwarder. -/
structure Closing (s : State) : Prop where
  left : s.writeCloseCalled = true → s.forwarderPc.left = true
  ordered : s.readCloseCalled = true → s.writeCloseCalled = true
  writing : s.forwarderPc = .closingWrite →
    s.writeCloseCalled = true ∧ s.readCloseCalled = false
  reading : s.forwarderPc = .closingRead → s.readCloseCalled = true
  aborted : s.abortRequested = true → s.startPc = .returned

/-- If one close is called so is the other; the second may still be to come
while the first is awaited. -/
def AllOrNothing (s : State) : Prop :=
  (s.writeCloseCalled = true →
    s.readCloseCalled = true ∨ s.forwarderPc = .closingWrite)
  ∧ (s.readCloseCalled = true → s.writeCloseCalled = true)

/-- The abort does not take effect while `teardown` awaits the close of the
write channel. -/
def AbortSparesTeardown (s : State) (e : Event) : Prop :=
  e = .cancel → s.forwarderPc ≠ .closingWrite

theorem closing_init : Closing init := ⟨nofun, nofun, nofun, nofun, nofun⟩

/-- Before the forwarder leaves its loop, no close was called. -/
theorem Closing.not_called {s : State} (hc : Closing s)
    (hpc : s.forwarderPc.left = false) :
    s.writeCloseCalled = false ∧ s.readCloseCalled = false := by
  have hw : s.writeCloseCalled = false := by
    refine Bool.eq_false_iff.mpr fun h => ?_
    rw [hc.left h] at hpc
    cases hpc
  refine ⟨hw, Bool.eq_false_iff.mpr fun h => ?_⟩
  rw [hc.ordered h] at hw
  cases hw

theorem not_left_of_selecting {pc : ForwarderPc} (h : selecting pc = true) :
    pc.left = false := by
  cases pc <;> first | rfl | cases h

/-- Steps that do not move the forwarder. -/
theorem Closing.frame {s s' : State} (hc : Closing s)
    (hpc : s'.forwarderPc = s.forwarderPc)
    (hw : s'.writeCloseCalled = s.writeCloseCalled)
    (hr : s'.readCloseCalled = s.readCloseCalled)
    (hab : s'.abortRequested = true → s'.startPc = .returned) : Closing s' := by
  refine ⟨?_, ?_, ?_, ?_, hab⟩
  · rw [hw, hpc]
    exact hc.left
  · rw [hw, hr]
    exact hc.ordered
  · rw [hw, hr, hpc]
    exact hc.writing
  · rw [hr, hpc]
    exact hc.reading

/-- Moves of the forwarder inside its loop. -/
theorem Closing.looping {s s' : State} (hc : Closing s)
    (hpc : s.forwarderPc.left = false) (hpc' : s'.forwarderPc ≠ .closingWrite)
    (hpc'' : s'.forwarderPc ≠ .closingRead)
    (hw : s'.writeCloseCalled = s.writeCloseCalled)
    (hr : s'.readCloseCalled = s.readCloseCalled)
    (hab : s'.abortRequested = true → s'.startPc = .returned) : Closing s' := by
  obtain ⟨hwf, hrf⟩ := hc.not_called hpc
  refine ⟨?_, ?_, fun h => absurd h hpc', fun h => absurd h hpc'', hab⟩
  · intro h
    cases hwf.symm.trans (hw.symm.trans h)
  · intro h
    cases hrf.symm.trans (hr.symm.trans h)

/-- `teardown` begins with no close called. -/
theorem Closing.teardown {s : State} (hc : Closing s) (hpc : s.forwarderPc.left = false)
    (socket : List RecvResult) (shutdown : Notify Task) :
    Closing (teardown { s with socket := socket, shutdown := shutdown }) := by
  obtain ⟨-, hr⟩ := hc.not_called hpc
  exact ⟨fun _ => rfl, fun _ => rfl, fun _ => ⟨rfl, hr⟩, nofun, hc.aborted⟩

theorem closing_onReadEnd {s : State} (hc : Closing s) : Closing (onReadEnd s) := by
  rcases onReadEnd_cases s with ⟨-, heq⟩ | ⟨-, heq⟩ <;> rw [heq]
  · exact hc.frame rfl rfl rfl hc.aborted
  · exact hc

/-- Ending the task with the closes as they are. -/
theorem Closing.dies {s s' : State} (hc : Closing s) (hpc : s'.forwarderPc.dead = true)
    (hw : s'.writeCloseCalled = s.writeCloseCalled)
    (hr : s'.readCloseCalled = s.readCloseCalled)
    (hab : s'.abortRequested = true → s'.startPc = .returned) : Closing s' := by
  have hleft : s'.forwarderPc.left = true := by
    cases h : s'.forwarderPc <;> rw [h] at hpc <;> first | rfl | cases hpc
  refine ⟨fun _ => hleft, ?_, ?_, ?_, hab⟩
  · rw [hw, hr]
    exact hc.ordered
  · intro h
    rw [h] at hpc
    cases hpc
  · intro h
    rw [h] at hpc
    cases hpc

theorem closing_step {s s' : State} {e : Event} (hwf : Wf s) (hc : Closing s)
    (h : step s e = some s') : Closing s' := by
  cases acts_of_step h with
  | spawn hpc =>
      have hun := hwf.unspawned.mpr hpc
      refine hc.looping (by rw [hun]; rfl) nofun nofun rfl rfl fun hab => ?_
      rw [hc.aborted hab] at hpc
      cases hpc
  | install hpc =>
      refine hc.frame rfl rfl rfl fun hab => ?_
      rw [hc.aborted hab] at hpc
      cases hpc
  | wake hpc hpoll =>
      refine hc.frame rfl rfl rfl fun hab => ?_
      rw [hc.aborted hab] at hpc
      rcases hpc with hpc | hpc <;> cases hpc
  | wait hpc hpoll =>
      refine hc.frame rfl rfl rfl fun hab => ?_
      rw [hc.aborted hab] at hpc
      cases hpc
  | abort hpc => exact hc.frame rfl rfl rfl (fun _ => rfl)
  | park hpc hsock hpoll =>
      exact hc.looping (by rw [hpc]; rfl) nofun nofun rfl rfl hc.aborted
  | recv hsock hsel hne =>
      exact hc.looping (not_left_of_selecting hsel) nofun nofun rfl rfl hc.aborted
  | recvEmpty hsock hsel =>
      exact hc.looping (not_left_of_selecting hsel) nofun nofun rfl rfl hc.aborted
  | recvError hsock hsel => exact hc.teardown (not_left_of_selecting hsel) _ _
  | idle hpc hle => exact hc.teardown (by rw [hpc]; rfl) _ _
  | notified hsel hpoll => exact hc.dies rfl rfl rfl hc.aborted
  | sent hpc => exact hc.looping (by rw [hpc]; rfl) nofun nofun rfl rfl hc.aborted
  | sendFailed hpc => exact hc.dies rfl rfl rfl hc.aborted
  | writeClosed hpc =>
      exact ⟨fun _ => rfl, fun _ => (hc.writing hpc).1, nofun, fun _ => rfl, hc.aborted⟩
  | readClosed hpc => exact hc.dies rfl rfl rfl hc.aborted
  | cancel hab hlive => exact hc.dies rfl rfl rfl hc.aborted
  | datagram => exact hc.frame rfl rfl rfl hc.aborted
  | message hinst => exact hc.frame rfl rfl rfl hc.aborted
  | unheard hinst => exact hc
  | readClose hopen => exact closing_onReadEnd (hc.frame rfl rfl rfl hc.aborted)
  | readError => exact closing_onReadEnd hc
  | shutdown => exact hc.frame rfl rfl rfl hc.aborted
  | elapse => exact hc.frame rfl rfl rfl hc.aborted

theorem AllOrNothing.of_not_called {s' : State} (hw : s'.writeCloseCalled = false)
    (hr : s'.readCloseCalled = false) : AllOrNothing s' := by
  refine ⟨fun h => ?_, fun h => ?_⟩
  · rw [hw] at h
    cases h
  · rw [hr] at h
    cases h

/-- Moves of the forwarder out of its loop that close nothing. -/
theorem Closing.allOrNothing {s s' : State} (hc : Closing s)
    (hpc : s.forwarderPc.left = false)
    (hw : s'.writeCloseCalled = s.writeCloseCalled)
    (hr : s'.readCloseCalled = s.readCloseCalled) : AllOrNothing s' := by
  obtain ⟨hwf, hrf⟩ := hc.not_called hpc
  exact .of_not_called (hw.trans hwf) (hr.trans hrf)

theorem allOrNothing_onReadEnd {s : State} (hP : AllOrNothing s) :
    AllOrNothing (onReadEnd s) := by
  rcases onReadEnd_cases s with ⟨-, heq⟩ | ⟨-, heq⟩ <;> rw [heq] <;> exact hP

theorem allOrNothing_step {s s' : State} {e : Event} (hwf : Wf s) (hc : Closing s)
    (hP : AllOrNothing s) (hG : AbortSparesTeardown s e) (h : step s e = some s') :
    AllOrNothing s' := by
  cases acts_of_step h with
  | spawn hpc =>
      exact hc.allOrNothing (by rw [hwf.unspawned.mpr hpc]; rfl) rfl rfl
  | install hpc => exact hP
  | wake hpc hpoll => exact hP
  | wait hpc hpoll => exact hP
  | abort hpc => exact hP
  | park hpc hsock hpoll =>
      exact hc.allOrNothing (by rw [hpc]; rfl) rfl rfl
  | recv hsock hsel hne =>
      exact hc.allOrNothing (not_left_of_selecting hsel) rfl rfl
  | recvEmpty hsock hsel =>
      exact hc.allOrNothing (not_left_of_selecting hsel) rfl rfl
  | recvError hsock hsel => exact ⟨fun _ => Or.inr rfl, fun _ => rfl⟩
  | idle hpc hle => exact ⟨fun _ => Or.inr rfl, fun _ => rfl⟩
  | notified hsel hpoll =>
      exact hc.allOrNothing (not_left_of_selecting hsel) rfl rfl
  | sent hpc =>
      exact hc.allOrNothing (by rw [hpc]; rfl) rfl rfl
  | sendFailed hpc =>
      exact hc.allOrNothing (by rw [hpc]; rfl) rfl rfl
  | writeClosed hpc => exact ⟨fun _ => Or.inl rfl, fun _ => (hc.writing hpc).1⟩
  | readClosed hpc => exact ⟨fun _ => Or.inl (hc.reading hpc), hP.2⟩
  | cancel hab hlive =>
      exact ⟨fun hw => Or.inl ((hP.1 hw).resolve_right (hG rfl)), hP.2⟩
  | datagram => exact hP
  | message hinst => exact hP
  | unheard hinst => exact hP
  | readClose hopen => exact allOrNothing_onReadEnd hP
  | readError => exact allOrNothing_onReadEnd hP
  | shutdown => exact hP
  | elapse => exact hP

/-- An abort in the first close leaves one channel closed and the other not. -/
theorem not_allOrNothing_of_abort {s s' : State} {e : Event} (hc : Closing s)
    (hG : ¬ AbortSparesTeardown s e) (h : step s e = some s') : ¬ AllOrNothing s' := by
  unfold AbortSparesTeardown at hG
  push Not at hG
  obtain ⟨rfl, hpc⟩ := hG
  obtain ⟨hw, hr⟩ := hc.writing hpc
  cases acts_of_step h with
  | cancel hab hlive =>
      rintro ⟨hP, -⟩
      rcases hP hw with h | h
      · rw [hr] at h
        cases h
      · cases h

/-- `teardown` closes both channels or none in every state of a run exactly
when no abort takes effect while it awaits the close of the write channel. -/
theorem teardown_all_or_nothing_iff (es : List Event) :
    Always step AllOrNothing init es ↔ EachStep step AbortSparesTeardown init es :=
  always_iff_eachStep (I := fun s => Wf s ∧ Closing s)
    (fun hI h => ⟨wf_step hI.1 h, closing_step hI.1 hI.2 h⟩)
    (fun hI hP hG h => allOrNothing_step hI.1 hI.2 hP hG h)
    (fun hI _ hG h => not_allOrNothing_of_abort hI.2 hG h)
    ⟨wf_init, closing_init⟩ (.of_not_called rfl rfl) es

/-- A receive error begins the teardown; while it closes the write channel
the session shuts the bridge down, `start()` wakes and its abort lands
there. The forwarder is gone and the read channel was never closed. -/
theorem abort_splits_teardown :
    ∃ s, run step init [.start, .start, .start, .datagram .err, .forward .recv,
        .shutdown, .start, .start, .cancel] = some s
      ∧ s.forwarderPc = .aborted ∧ s.writeCloseCalled = true
      ∧ s.readCloseCalled = false ∧ ¬ AllOrNothing s := by
  refine ⟨_, rfl, rfl, rfl, rfl, ?_⟩
  rintro ⟨hP, -⟩
  rcases hP rfl with h | h <;> cases h

/-! ## Why the loop ended -/

/-- What the forwarder left its loop for. -/
inductive Exit where
  | notified
  | recvError
  | idle
  | sendFailed
deriving DecidableEq, Repr

/-- The history variable of the loop's exit. -/
def observeExit (s : State) : Event → Option Exit → Option Exit
  | .forward .notified, _ => some .notified
  | .forward .idle, _ => some .idle
  | .forward (.sent false), _ => some .sendFailed
  | .forward .recv, exit => if s.socket.head? = some .err then some .recvError else exit
  | _, exit => exit

/-- The upstream direction has died, and not because of a notification. -/
def UpstreamDead (exit : Option Exit) : Prop := ∃ x, exit = some x ∧ x ≠ .notified

/-- A forwarder that is gone because its upstream direction died has closed
both channels, and `start()` has been notified or is about to be. -/
def DeathReported (r : State × Option Exit) : Prop :=
  UpstreamDead r.2 → r.1.forwarderPc.dead = true →
    r.1.writeCloseCalled = true ∧ r.1.readCloseCalled = true ∧ Noticed r.1

/-- No send on the write channel fails, and no abort lands in the first
close of `teardown`. -/
def DiesByTeardown (r : State × Option Exit) (e : Event) : Prop :=
  e ≠ .forward (.sent false) ∧ AbortSparesTeardown r.1 e

/-- Where the forwarder is, once its upstream direction has died. -/
structure Exited (r : State × Option Exit) : Prop where
  dead : UpstreamDead r.2 → r.1.forwarderPc.left = true
  closing : r.1.forwarderPc = .closingWrite ∨ r.1.forwarderPc = .closingRead →
    UpstreamDead r.2

theorem upstreamDead_some {x : Exit} (h : x ≠ .notified) : UpstreamDead (some x) :=
  ⟨x, rfl, h⟩

theorem not_upstreamDead_notified : ¬ UpstreamDead (some .notified) := by
  rintro ⟨x, hx, hne⟩
  exact hne (Option.some.inj hx).symm

/-- Steps that neither move the forwarder nor end its loop. -/
theorem Exited.frame {s s' : State} {x : Option Exit} (hx : Exited (s, x))
    (hpc : s'.forwarderPc = s.forwarderPc) : Exited (s', x) := by
  refine ⟨?_, ?_⟩
  · intro hd
    rw [hpc]
    exact hx.dead hd
  · intro h
    rw [hpc] at h
    exact hx.closing h

/-- Moves inside the loop. -/
theorem Exited.looping {s s' : State} {x : Option Exit} (hx : Exited (s, x))
    (hpc : s.forwarderPc.left = false) (hpc' : s'.forwarderPc.left = false) :
    Exited (s', x) := by
  refine ⟨fun hd => ?_, ?_⟩
  · have hleft := hx.dead hd
    rw [hpc] at hleft
    cases hleft
  · rintro (h | h) <;> rw [h] at hpc' <;> cases hpc'

theorem observeExit_recv_ok {s : State} {datagram : Bytes} {rest : List RecvResult}
    (hsock : s.socket = .ok datagram :: rest) (x : Option Exit) :
    observeExit s (.forward .recv) x = x := by
  simp [observeExit, hsock]

theorem observeExit_recv_err {s : State} {rest : List RecvResult}
    (hsock : s.socket = .err :: rest) (x : Option Exit) :
    observeExit s (.forward .recv) x = some .recvError := by
  simp [observeExit, hsock]

theorem exited_onReadEnd {s : State} {x : Option Exit} (hx : Exited (s, x)) :
    Exited (onReadEnd s, x) := by
  rcases onReadEnd_cases s with ⟨-, heq⟩ | ⟨-, heq⟩ <;> rw [heq]
  · exact hx.frame rfl
  · exact hx

theorem exited_step {s s' : State} {e : Event} {x : Option Exit} (hwf : Wf s)
    (hx : Exited (s, x)) (h : step s e = some s') :
    Exited (s', observeExit s e x) := by
  cases acts_of_step h with
  | spawn hpc => exact hx.looping (by rw [hwf.unspawned.mpr hpc]; rfl) rfl
  | install hpc => exact hx.frame rfl
  | wake hpc hpoll => exact hx.frame rfl
  | wait hpc hpoll => exact hx.frame rfl
  | abort hpc => exact hx.frame rfl
  | park hpc hsock hpoll => exact hx.looping (by rw [hpc]; rfl) rfl
  | recv hsock hsel hne =>
      rw [observeExit_recv_ok hsock]
      exact hx.looping (not_left_of_selecting hsel) rfl
  | recvEmpty hsock hsel =>
      rw [observeExit_recv_ok hsock]
      exact hx.looping (not_left_of_selecting hsel) rfl
  | recvError hsock hsel =>
      rw [observeExit_recv_err hsock]
      exact ⟨fun _ => rfl, fun _ => upstreamDead_some (by decide)⟩
  | idle hpc hle => exact ⟨fun _ => rfl, fun _ => upstreamDead_some (by decide)⟩
  | notified hsel hpoll => exact ⟨fun _ => rfl, by rintro (h | h) <;> cases h⟩
  | sent hpc => exact hx.looping (by rw [hpc]; rfl) rfl
  | sendFailed hpc => exact ⟨fun _ => rfl, by rintro (h | h) <;> cases h⟩
  | writeClosed hpc => exact ⟨fun _ => rfl, fun _ => hx.closing (Or.inl hpc)⟩
  | readClosed hpc => exact ⟨fun _ => rfl, by rintro (h | h) <;> cases h⟩
  | cancel hab hlive => exact ⟨fun _ => rfl, by rintro (h | h) <;> cases h⟩
  | datagram => exact hx.frame rfl
  | message hinst => exact hx.frame rfl
  | unheard hinst => exact hx
  | readClose hopen => exact exited_onReadEnd (hx.frame rfl)
  | readError => exact exited_onReadEnd hx
  | shutdown => exact hx.frame rfl
  | elapse => exact hx.frame rfl

/-! ## The report of a death -/

theorem DeathReported.of_not_dead {s : State} {x : Option Exit}
    (h : s.forwarderPc.dead = false) : DeathReported (s, x) := by
  intro _ hdead
  rw [h] at hdead
  cases hdead

/-- Steps that leave the forwarder and the closes alone. -/
theorem DeathReported.frame {s s' : State} {x : Option Exit}
    (hP : DeathReported (s, x)) (hpc : s'.forwarderPc = s.forwarderPc)
    (hw : s'.writeCloseCalled = s.writeCloseCalled)
    (hr : s'.readCloseCalled = s.readCloseCalled)
    (hn : Noticed s → Noticed s') : DeathReported (s', x) := by
  intro hd hdead
  rw [hpc] at hdead
  obtain ⟨hw', hr', hn'⟩ := hP hd hdead
  exact ⟨hw.trans hw', hr.trans hr', hn hn'⟩

theorem deathReported_onReadEnd {s : State} {x : Option Exit}
    (hP : DeathReported (s, x)) : DeathReported (onReadEnd s, x) := by
  rcases onReadEnd_cases s with ⟨-, heq⟩ | ⟨-, heq⟩ <;> rw [heq]
  · exact hP.frame rfl rfl rfl (fun _ => Or.inr (Notify.outstanding_notifyOne _))
  · exact hP

theorem deathReported_step {s s' : State} {e : Event} {x : Option Exit}
    (hc : Closing s) (hx : Exited (s, x)) (hP : DeathReported (s, x))
    (hG : DiesByTeardown (s, x) e) (h : step s e = some s') :
    DeathReported (s', observeExit s e x) := by
  have hnotice : e ≠ .forward .notified → Noticed s → Noticed s' :=
    fun hne hn => noticed_step hn (fun heq => absurd heq hne) h
  cases acts_of_step h with
  | spawn hpc => exact .of_not_dead rfl
  | install hpc => exact hP.frame rfl rfl rfl (hnotice nofun)
  | wake hpc hpoll => exact hP.frame rfl rfl rfl (hnotice nofun)
  | wait hpc hpoll => exact hP.frame rfl rfl rfl (hnotice nofun)
  | abort hpc => exact hP.frame rfl rfl rfl (hnotice nofun)
  | park hpc hsock hpoll => exact .of_not_dead rfl
  | recv hsock hsel hne => exact .of_not_dead rfl
  | recvEmpty hsock hsel => exact .of_not_dead rfl
  | recvError hsock hsel => exact .of_not_dead rfl
  | idle hpc hle => exact .of_not_dead rfl
  | notified hsel hpoll => exact fun hd => absurd hd not_upstreamDead_notified
  | sent hpc => exact .of_not_dead rfl
  | sendFailed hpc => exact absurd rfl hG.1
  | writeClosed hpc => exact .of_not_dead rfl
  | readClosed hpc =>
      have hr := hc.reading hpc
      exact fun _ _ => ⟨hc.ordered hr, hr, Or.inr (Notify.outstanding_notifyOne _)⟩
  | cancel hab hlive =>
      intro hd _
      -- a live forwarder that has left its loop is in `teardown`
      have hleft := hx.dead hd
      have hne := hG.2 rfl
      have hpc : s.forwarderPc = .closingRead := by
        cases hpc : s.forwarderPc with
        | closingRead => rfl
        | closingWrite => exact absurd hpc hne
        | ended => rw [hpc] at hlive; cases hlive
        | aborted => rw [hpc] at hlive; cases hlive
        | _ => rw [hpc] at hleft; cases hleft
      have hr := hc.reading hpc
      exact ⟨hc.ordered hr, hr, Or.inl (Or.inr (hc.aborted hab))⟩
  | datagram => exact hP.frame rfl rfl rfl (hnotice nofun)
  | message hinst => exact hP.frame rfl rfl rfl (hnotice nofun)
  | unheard hinst => exact hP
  | readClose hopen => exact deathReported_onReadEnd (hP.frame rfl rfl rfl id)
  | readError => exact deathReported_onReadEnd hP
  | shutdown => exact hP.frame rfl rfl rfl (hnotice nofun)
  | elapse => exact hP.frame rfl rfl rfl (hnotice nofun)

/-- A failed send, and an abort in the first close, both end the forwarder
with a channel left open. -/
theorem not_deathReported_of_not_teardown {s s' : State} {e : Event}
    {x : Option Exit} (hc : Closing s) (hx : Exited (s, x))
    (hG : ¬ DiesByTeardown (s, x) e) (h : step s e = some s') :
    ¬ DeathReported (s', observeExit s e x) := by
  unfold DiesByTeardown at hG
  rw [not_and_or, not_not] at hG
  rcases hG with rfl | hG
  · cases acts_of_step h with
    | sendFailed hpc =>
        intro hP
        obtain ⟨hw, -⟩ := hc.not_called (by rw [hpc]; rfl)
        have := (hP (upstreamDead_some (by decide)) rfl).1
        rw [hw] at this
        cases this
  · unfold AbortSparesTeardown at hG
    push Not at hG
    obtain ⟨rfl, hpc⟩ := hG
    cases acts_of_step h with
    | cancel hab hlive =>
        intro hP
        have := (hP (hx.closing (Or.inl hpc)) rfl).2.1
        rw [(hc.writing hpc).2] at this
        cases this

/-- The death of the upstream direction is reported in every state of a run
exactly when no send on the write channel fails and no abort takes effect
while `teardown` awaits the close of the write channel. -/
theorem death_reported_iff (es : List Event) :
    Always (recorded step observeExit) DeathReported (init, none) es
      ↔ EachStep (recorded step observeExit) DiesByTeardown (init, none) es := by
  refine recorded_always_iff_eachStep (I := fun r => Wf r.1 ∧ Closing r.1 ∧ Exited r)
    ?_ ?_ ?_ ⟨wf_init, closing_init, ?_⟩ (.of_not_dead rfl) es
  · rintro s x e s' ⟨hwf, hc, hx⟩ h
    exact ⟨wf_step hwf h, closing_step hwf hc h, exited_step hwf hx h⟩
  · rintro s x e s' ⟨-, hc, hx⟩ hP hG h
    exact deathReported_step hc hx hP hG h
  · rintro s x e s' ⟨-, hc, hx⟩ - hG h
    exact not_deathReported_of_not_teardown hc hx hG h
  · refine ⟨?_, by rintro (h | h) <;> cases h⟩
    rintro ⟨x, hx, -⟩
    cases hx

/-- The upstream answers and the send on the write channel fails: the loop
is left, no channel is closed, and `start()` stays parked. -/
theorem failed_send_is_silent :
    ∃ r, run (recorded step observeExit) (init, none) [.start, .start, .start,
        .datagram (.ok [0]), .forward .recv, .forward (.sent false)] = some r
      ∧ r.1.startPc = .parked ∧ r.1.readOpen = true ∧ ¬ DeathReported r := by
  refine ⟨_, rfl, rfl, rfl, fun hP => ?_⟩
  have := (hP (upstreamDead_some (by decide)) rfl).1
  cases this

end Bridge

end XashProxy
