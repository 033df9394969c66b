import XashProxy.Bridge

/-!
# The idle timeout of the bridge

`IDLE_TIMEOUT` is meant to count down whenever the upstream is silent
although the viewer has started: `saw_packet` or `browser_started`. Both
are read once, when the `select!` is entered. A flag that rises while the
forwarder is parked is therefore not seen before the next iteration, and a
silent upstream never gives one.

`idleArmed_always_iff` says that this is the only way to lose the timeout:
the forwarder is armed in every state of a run exactly when no browser
message finds it parked in an unarmed `select!`.
-/

namespace XashProxy

namespace Bridge

open Lts

/-! ## The property and the step that breaks it -/

/-- A parked forwarder whose viewer has started, or whose upstream has
answered, counts an idle timeout down. -/
def IdleArmed (s : State) : Prop :=
  ∀ sleep, s.forwarderPc = .parked sleep →
    s.sawPacket = true ∨ s.browserStarted = true → sleep.isSome = true

/-- The callback does not set `browser_started` under a forwarder that is
parked without a timeout. -/
def MessageFindsArmed (s : State) (e : Event) : Prop :=
  ∀ data, e = .browserMessage data → s.installed = true →
    s.forwarderPc ≠ .parked none

theorem IdleArmed.of_not_parked {s : State}
    (h : ∀ sleep, s.forwarderPc ≠ .parked sleep) : IdleArmed s :=
  fun sleep hpc _ => absurd hpc (h sleep)

/-- Entering the `select!` evaluates the precondition on the current flags. -/
theorem sleep_isSome_of_flags {s : State}
    (h : s.sawPacket = true ∨ s.browserStarted = true) :
    (if armed s then some (s.now + idleTimeout) else none).isSome = true := by
  have harmed : armed s = true := by simpa [armed] using h
  rw [if_pos harmed]
  rfl

/-! ## Steps and runs -/

theorem idleArmed_step {s s' : State} {e : Event} (hP : IdleArmed s)
    (hG : MessageFindsArmed s e) (h : step s e = some s') : IdleArmed s' := by
  cases acts_of_step h with
  | spawn hpc => exact .of_not_parked nofun
  | install hpc => exact hP
  | wake hpc hpoll => exact hP
  | wait hpc hpoll => exact hP
  | abort hpc => exact hP
  | park hpc hsock hpoll =>
      intro sleep hpc' hflags
      rw [← ForwarderPc.parked.inj hpc']
      exact sleep_isSome_of_flags hflags
  | recv hsock hsel hne => exact .of_not_parked nofun
  | recvEmpty hsock hsel => exact .of_not_parked nofun
  | recvError hsock hsel => exact .of_not_parked nofun
  | idle hpc hle => exact .of_not_parked nofun
  | notified hsel hpoll => exact .of_not_parked nofun
  | sent hpc => exact .of_not_parked nofun
  | sendFailed hpc => exact .of_not_parked nofun
  | writeClosed hpc => exact .of_not_parked nofun
  | readClosed hpc => exact .of_not_parked nofun
  | cancel hab hlive => exact .of_not_parked nofun
  | datagram => exact hP
  | @message data hinst =>
      intro sleep hpc _
      -- the message only finds the forwarder parked with a timeout
      have hne := hG data rfl hinst
      cases sleep with
      | none => exact absurd hpc hne
      | some deadline => rfl
  | unheard hinst => exact hP
  | readClose hopen =>
      rcases onReadEnd_cases { s with readOpen := false } with
        ⟨-, heq⟩ | ⟨-, heq⟩ <;> rw [heq] <;> exact hP
  | readError =>
      rcases onReadEnd_cases s with ⟨-, heq⟩ | ⟨-, heq⟩ <;> rw [heq] <;> exact hP
  | shutdown => exact hP
  | elapse => exact hP

/-- A message that finds the forwarder parked without a timeout leaves it
parked without one. -/
theorem not_idleArmed_of_message {s s' : State} {e : Event}
    (hG : ¬ MessageFindsArmed s e) (h : step s e = some s') :
    ¬ IdleArmed s' := by
  unfold MessageFindsArmed at hG
  push Not at hG
  obtain ⟨data, rfl, hinst, hpc⟩ := hG
  cases acts_of_step h with
  | message hinst' =>
      intro hP
      have := hP none hpc (Or.inr rfl)
      cases this
  | unheard hinst' =>
      rw [hinst] at hinst'
      cases hinst'

/-- The idle timeout is armed in every state of a run exactly when no
browser message reaches the callback while the forwarder is parked in a
`select!` it entered before any datagram and before any message. -/
theorem idleArmed_always_iff (es : List Event) :
    Always step IdleArmed init es ↔ EachStep step MessageFindsArmed init es :=
  always_iff_eachStep (I := fun _ => True) (fun _ _ => trivial)
    (fun _ hP hG h => idleArmed_step hP hG h)
    (fun _ _ hG h => not_idleArmed_of_message hG h)
    trivial (.of_not_parked fun _ h => by cases h) es

/-- The forwarder enters its `select!`, then the viewer speaks: no timeout
counts down, and no passage of time brings one. -/
theorem idle_never_fires_for_late_message :
    ∃ s, run step init [.start, .forward .park, .start, .start,
        .browserMessage [0xff, 0xff, 0xff, 0xff], .elapse 1000000] = some s
      ∧ ¬ IdleArmed s ∧ forwardUdpToWebrtc s .idle = none := by
  refine ⟨_, rfl, ?_, rfl⟩
  intro hP
  have := hP none rfl (Or.inr rfl)
  cases this

end Bridge

end XashProxy
