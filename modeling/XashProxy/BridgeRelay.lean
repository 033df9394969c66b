import XashProxy.Bridge

/-!
# What a shut-down bridge still relays

The direction from the browser to the server is no task: it is the callback
on the read channel, with its own clone of the UDP socket. `start()` aborts
the forwarder when it wakes and leaves the callback installed, so the
direction ends with the channel and not with the bridge: `relayed_run` says
that after the return every message still goes to the server, whoever
signalled the shutdown.
-/

namespace XashProxy

namespace Bridge

open Lts

/-- The messages of a run on the read channel, in order. -/
def received (es : List Event) : List Bytes :=
  es.filterMap fun e =>
    match e with
    | .browserMessage data => some data
    | _ => none

/-- Past its second stretch `start()` has set the callbacks. -/
def Installs (s : State) : Prop :=
  s.startPc = .spawn ∨ s.startPc = .install ∨ s.installed = true

theorem installs_step {s s' : State} {e : Event} (hi : Installs s)
    (h : step s e = some s') : Installs s' := by
  cases acts_of_step h with
  | spawn hpc => exact Or.inr (Or.inl rfl)
  | install hpc => exact Or.inr (Or.inr rfl)
  | wake hpc hpoll =>
      rcases hi with hi | hi | hi
      · rw [hi] at hpc
        rcases hpc with hpc | hpc <;> cases hpc
      · rw [hi] at hpc
        rcases hpc with hpc | hpc <;> cases hpc
      · exact Or.inr (Or.inr hi)
  | wait hpc hpoll =>
      rcases hi with hi | hi | hi
      · rw [hpc] at hi
        cases hi
      · rw [hpc] at hi
        cases hi
      · exact Or.inr (Or.inr hi)
  | abort hpc =>
      rcases hi with hi | hi | hi
      · rw [hpc] at hi
        cases hi
      · rw [hpc] at hi
        cases hi
      · exact Or.inr (Or.inr hi)
  | readClose hopen =>
      rcases onReadEnd_cases { s with readOpen := false } with
        ⟨-, heq⟩ | ⟨-, heq⟩ <;> rw [heq] <;> exact hi
  | readError =>
      rcases onReadEnd_cases s with ⟨-, heq⟩ | ⟨-, heq⟩ <;> rw [heq] <;> exact hi
  | _ => exact hi

/-- `start()` has returned, with its callbacks left on the channel. -/
structure Returned (s : State) : Prop where
  returned : s.startPc = .returned
  installed : s.installed = true

/-- One step of a bridge that was shut down: it stays so, and only a message
reaches the server's socket. -/
theorem relayed_step {s s' : State} {e : Event} (hr : Returned s)
    (h : step s e = some s') :
    Returned s' ∧ s'.toServer = s.toServer ++ received [e] := by
  have hret := hr.returned
  have hkeep : ∀ u : State, u.startPc = s.startPc → u.installed = s.installed →
      Returned u := fun u hpc hinst => ⟨hpc.trans hret, hinst.trans hr.installed⟩
  cases acts_of_step h with
  | spawn hpc => rw [hpc] at hret; cases hret
  | install hpc => rw [hpc] at hret; cases hret
  | wake hpc hpoll =>
      rw [hret] at hpc
      rcases hpc with hpc | hpc <;> cases hpc
  | wait hpc hpoll => rw [hpc] at hret; cases hret
  | abort hpc => rw [hpc] at hret; cases hret
  | message hinst => exact ⟨hkeep _ rfl rfl, rfl⟩
  | unheard hinst =>
      rw [hr.installed] at hinst
      cases hinst
  | readClose hopen =>
      rcases onReadEnd_cases { s with readOpen := false } with
        ⟨-, heq⟩ | ⟨-, heq⟩ <;> rw [heq] <;>
        exact ⟨hkeep _ rfl rfl, (List.append_nil _).symm⟩
  | readError =>
      rcases onReadEnd_cases s with ⟨-, heq⟩ | ⟨-, heq⟩ <;> rw [heq] <;>
        exact ⟨hkeep _ rfl rfl, (List.append_nil _).symm⟩
  | _ => exact ⟨hkeep _ rfl rfl, (List.append_nil _).symm⟩

/-- After `start()` has returned the server gets every message that arrives
on the read channel, in order. -/
theorem relayed_run {s t : State} {es : List Event} (hr : Returned s)
    (h : run step s es = some t) : t.toServer = s.toServer ++ received es := by
  induction es generalizing s with
  | nil =>
      obtain rfl := Option.some.inj h
      simp [received]
  | cons e es ih =>
      obtain ⟨s', he, hr'⟩ := run_cons_eq_some.mp h
      obtain ⟨hret, hsent⟩ := relayed_step hr he
      rw [ih hret hr', hsent, List.append_assoc]
      congr 1
      simp [received, ← List.filterMap_append]

theorem returned_of_run {s : State} {es : List Event} (h : run step init es = some s)
    (hret : s.startPc = .returned) : Returned s := by
  have hi := run_invariant (I := Installs) installs_step h (Or.inl rfl)
  refine ⟨hret, ?_⟩
  rcases hi with hi | hi | hi
  · rw [hret] at hi
    cases hi
  · rw [hret] at hi
    cases hi
  · exact hi

/-- A bridge whose `start()` has returned relays nothing more exactly when
nothing more arrives on its read channel. -/
theorem relays_nothing_iff {s t : State} {es es' : List Event}
    (h : run step init es = some s) (hret : s.startPc = .returned)
    (h' : run step s es' = some t) :
    t.toServer = s.toServer ↔ received es' = [] := by
  rw [relayed_run (returned_of_run h hret) h']
  exact List.append_right_eq_self

/-- A bridge from its start to the return of `start()`. -/
def untilReturned : List Event :=
  [.start, .start, .start, .browserMessage [1], .shutdown, .start, .start, .cancel]

/-- The session closes its peer, and with it the read channel, after the
return. -/
theorem relays_nothing_closed :
    ∃ s t, run step init untilReturned = some s ∧ s.startPc = .returned
      ∧ run step s [.readClose, .elapse 1000] = some t
      ∧ t.toServer = s.toServer := by
  obtain ⟨s, hs, hret⟩ : ∃ s, run step init untilReturned = some s
      ∧ s.startPc = .returned := ⟨_, rfl, rfl⟩
  obtain ⟨t, ht⟩ : ∃ t, run step s [.readClose, .elapse 1000] = some t := by
    obtain rfl := Option.some.inj hs
    exact ⟨_, rfl⟩
  exact ⟨s, t, hs, hret, ht, (relays_nothing_iff hs hret ht).mpr rfl⟩

/-- The channels stay open, as they do on a transient `Disconnected`, and
the browser goes on speaking: the bridge that was shut down sends it on. -/
theorem returned_bridge_relays :
    ∃ s t, run step init untilReturned = some s ∧ s.startPc = .returned
      ∧ s.forwarderPc = .aborted ∧ run step s [.browserMessage [2]] = some t
      ∧ t.toServer = s.toServer ++ [[2]] :=
  ⟨_, _, rfl, rfl, rfl, rfl, rfl⟩

end Bridge

end XashProxy
