import XashProxy.FrameShim

/-!
# The main loop of a hidden tab

The shim chooses the queue when a frame is requested, so a request made in
a visible tab waits for a frame even if the tab is hidden before it runs.
`keptAlive_always_iff` says that nothing else can stop the loop: every
outstanding callback of a hidden tab is on a timer, throughout a run,
exactly when the tab is never hidden over a callback that waits for a frame.
-/

namespace XashProxy

namespace FrameShim

open Lts

/-- In a hidden tab every outstanding callback is on a timer, and none waits
for a frame. -/
def KeptAlive (s : State) : Prop :=
  s.hidden = true → ∀ k, Outstanding s.requests k →
    s.timers.Holds k ∧ ¬ s.frames.Holds k

/-- The tab is not hidden over a callback that waits for a frame. -/
def HidesNoFrame (s : State) (e : Event) : Prop :=
  e = .hide → ∀ k, Outstanding s.requests k → ¬ s.frames.Holds k

/-- No callback of a request that was not made yet waits anywhere. -/
theorem not_holds_fresh {q : Queue} {rs : List Request} (hq : Numbered q rs) :
    ¬ q.Holds rs.length := by
  rintro ⟨e, he, hk⟩
  obtain ⟨r, hr, -⟩ := hq e he _ hk
  exact Nat.lt_irrefl _ (List.getElem?_eq_some_iff.mp hr).1

theorem keptAlive_request {s : State} (hwf : Wf s) (hP : KeptAlive s) :
    KeptAlive (requestAnimationFrame s) := by
  unfold requestAnimationFrame
  dsimp only
  split
  · rename_i hh
    intro _ k hk
    rw [Queue.holds_add]
    rcases outstanding_append.mp hk with hk | rfl
    · obtain ⟨ht, hf⟩ := hP hh k hk
      exact ⟨Or.inl ht, hf⟩
    · exact ⟨Or.inr rfl, not_holds_fresh hwf.frames⟩
  · rename_i hh
    exact fun h => absurd h hh

theorem keptAlive_cancel {s : State} (hwf : Wf s) (hP : KeptAlive s) (id : Nat) :
    KeptAlive (cancelAnimationFrame s id) := by
  unfold cancelAnimationFrame
  dsimp only
  split
  · rename_i hh
    intro _ k hk
    obtain ⟨hout, hne⟩ := outstanding_of_markCancelled hk
    obtain ⟨ht, hf⟩ := hP hh k hout
    exact ⟨ht.clear hwf.timers hne, hf⟩
  · rename_i hh
    exact fun h => absurd h hh

theorem keptAlive_step {s s' : State} {e : Event} (hwf : Wf s) (hP : KeptAlive s)
    (hG : HidesNoFrame s e) (h : step s e = some s') : KeptAlive s' := by
  cases e with
  | request =>
      obtain rfl := Option.some.inj h
      exact keptAlive_request hwf hP
  | cancel id =>
      obtain rfl := Option.some.inj h
      exact keptAlive_cancel hwf hP id
  | hide =>
      simp only [step, Option.ite_none_left_eq_some] at h
      obtain rfl := Option.some.inj h.2
      intro _ k hk
      have hf := hG rfl k hk
      exact ⟨(hwf.queued k hk).resolve_right hf, hf⟩
  | unhide =>
      simp only [step, Option.ite_none_right_eq_some] at h
      obtain rfl := Option.some.inj h.2
      exact fun hh => absurd hh Bool.false_ne_true
  | runTimer i =>
      obtain ⟨e, he, rfl⟩ := runTimer_eq_some h
      intro hh k hk
      rw [runJob_hidden] at hh
      rw [runJob_timers, runJob_frames]
      obtain ⟨hout, hne⟩ := outstanding_of_runJob hk
      obtain ⟨ht, hf⟩ := hP hh k hout
      exact ⟨ht.remove he hne, hf⟩
  | runFrame i =>
      obtain ⟨hvis, e, -, rfl⟩ := runFrame_eq_some h
      intro hh
      rw [runJob_hidden] at hh
      exact absurd (hvis.symm.trans hh) Bool.false_ne_true
  | otherTimer =>
      obtain rfl := Option.some.inj h
      intro hh k hk
      obtain ⟨ht, hf⟩ := hP hh k hk
      exact ⟨Queue.holds_add.mpr (Or.inl ht), hf⟩
  | otherFrame =>
      obtain rfl := Option.some.inj h
      intro hh k hk
      obtain ⟨ht, hf⟩ := hP hh k hk
      refine ⟨ht, fun h => ?_⟩
      rcases Queue.holds_add.mp h with h | h
      · exact hf h
      · cases h

theorem not_keptAlive_of_hide {s s' : State} {e : Event} (hG : ¬ HidesNoFrame s e)
    (h : step s e = some s') : ¬ KeptAlive s' := by
  unfold HidesNoFrame at hG
  push Not at hG
  obtain ⟨rfl, k, hk, hf⟩ := hG
  simp only [step, Option.ite_none_left_eq_some] at h
  obtain rfl := Option.some.inj h.2
  exact fun hP => (hP rfl k hk).2 hf

/-- Every outstanding callback of a hidden tab is on a timer, in every state
of a run, exactly when the tab is never hidden while an outstanding callback
waits for a frame. -/
theorem keptAlive_always_iff (es : List Event) :
    Always step KeptAlive init es ↔ EachStep step HidesNoFrame init es :=
  always_iff_eachStep (I := Wf) wf_step
    (fun hwf hP hG h => keptAlive_step hwf hP hG h)
    (fun _ _ hG h => not_keptAlive_of_hide hG h) wf_init nofun es

/-- A frame is requested, then the tab is hidden: the callback is
outstanding, and nothing can run it before the tab is visible again. -/
theorem hide_stops_loop :
    ∃ s, run step init [.request, .hide] = some s ∧ ¬ KeptAlive s
      ∧ Outstanding s.requests 0
      ∧ ∀ i, step s (.runTimer i) = none ∧ step s (.runFrame i) = none := by
  refine ⟨_, rfl, fun hP => ?_, ⟨_, rfl, rfl, rfl⟩, fun i => ⟨rfl, rfl⟩⟩
  exact (hP rfl 0 ⟨_, rfl, rfl, rfl⟩).2 ⟨_, List.mem_singleton_self _, rfl⟩

end FrameShim

end XashProxy
