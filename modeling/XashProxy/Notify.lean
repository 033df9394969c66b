import Mathlib.Data.List.Basic
import Mathlib.Data.List.Nodup

/-!
# `tokio::sync::Notify`

The state of one `Notify`: at most one stored permit, the parked futures
in FIFO order, and the futures that were handed a notification and have
not been polled since. `τ` names the tasks; a task has at most one
`notified()` future at a time, so the task names its future.

The two invariants of the structure are fields. The rest of the file is
the interface the clients use: `Waits` (the task has a live, registered
future) and `Outstanding` (some notification was sent and not consumed),
with one lemma for each operation.
-/

namespace XashProxy

/-- A `Notify`. -/
structure Notify (τ : Type*) where
  permit : Bool
  waiters : List τ
  notified : List τ
  /-- A permit is stored only when nobody waits. -/
  permit_idle : permit = true → waiters = []
  nodup : (notified ++ waiters).Nodup

namespace Notify

variable {τ : Type*}

/-- `Notify::new`. -/
def new : Notify τ := ⟨false, [], [], fun _ => rfl, List.nodup_nil⟩

/-- `notify_one`: hand the notification to the oldest waiter, or store the
permit when nobody waits. A stored permit is not counted twice. -/
def notifyOne : Notify τ → Notify τ
  | ⟨_, [], woken, _, hn⟩ => ⟨true, [], woken, fun _ => rfl, hn⟩
  | ⟨_, w :: ws, woken, _, hn⟩ =>
      ⟨false, ws, woken ++ [w], nofun, by simpa using hn⟩

variable [DecidableEq τ]

/-- Poll the future of `w`: it completes when it was handed a notification
or when a permit is stored, and is otherwise registered at the end of the
queue. -/
def poll (n : Notify τ) (w : τ) : Bool × Notify τ :=
  if w ∈ n.notified then
    (true, { n with
      notified := n.notified.erase w
      nodup := n.nodup.sublist (List.erase_sublist.append_right _) })
  else if hp : n.permit = true then
    (true, { n with permit := false, permit_idle := nofun })
  else if hw : w ∈ n.notified ++ n.waiters then
    (false, n)
  else
    (false, { n with
      waiters := n.waiters ++ [w]
      permit_idle := fun h => absurd h hp
      nodup := by
        rw [← List.append_assoc]
        exact n.nodup.append (List.nodup_singleton w)
          (List.disjoint_singleton.mpr hw) })

/-- Drop the future of `w`. A future that was handed a notification and
not polled since passes it on. -/
def drop (n : Notify τ) (w : τ) : Notify τ :=
  if w ∈ n.notified then
    notifyOne { n with
      notified := n.notified.erase w
      nodup := n.nodup.sublist (List.erase_sublist.append_right _) }
  else
    { n with
      waiters := n.waiters.erase w
      permit_idle := fun h => by rw [n.permit_idle h]; rfl
      nodup := n.nodup.sublist (List.erase_sublist.append_left _) }

/-! ## Who waits -/

omit [DecidableEq τ] in
/-- The future of `w` is registered: parked, or woken and not yet polled. -/
def Waits (n : Notify τ) (w : τ) : Prop := w ∈ n.notified ∨ w ∈ n.waiters

omit [DecidableEq τ] in
@[simp] theorem not_waits_new (w : τ) : ¬ (new : Notify τ).Waits w := by
  simp [Waits, new]

omit [DecidableEq τ] in
@[simp] theorem waits_notifyOne (n : Notify τ) (w : τ) :
    n.notifyOne.Waits w ↔ n.Waits w := by
  obtain ⟨p, ws, woken, hp, hn⟩ := n
  cases ws with
  | nil => rfl
  | cons v vs =>
      simp [Waits, notifyOne, or_assoc]

/-- Erasing from the notified list forgets exactly that future. -/
private theorem mem_erase_notified {n : Notify τ} {v w : τ}
    (hv : v ∈ n.notified) :
    (w ∈ n.notified.erase v ∨ w ∈ n.waiters) ↔ w ≠ v ∧ n.Waits w := by
  have hnd : n.notified.Nodup := (List.nodup_append.mp n.nodup).1
  rw [hnd.mem_erase_iff, Waits]
  constructor
  · rintro (⟨hne, hw⟩ | hw)
    · exact ⟨hne, Or.inl hw⟩
    · refine ⟨?_, Or.inr hw⟩
      rintro rfl
      exact (List.nodup_append.mp n.nodup).2.2 w hv w hw rfl
  · rintro ⟨hne, hw | hw⟩
    · exact Or.inl ⟨hne, hw⟩
    · exact Or.inr hw

theorem waits_drop (n : Notify τ) (v w : τ) :
    (n.drop v).Waits w ↔ w ≠ v ∧ n.Waits w := by
  unfold drop
  split
  · rename_i hv
    rw [waits_notifyOne]
    exact mem_erase_notified hv
  · rename_i hv
    have hnd : n.waiters.Nodup := (List.nodup_append.mp n.nodup).2.1
    simp only [Waits, hnd.mem_erase_iff]
    constructor
    · rintro (hw | ⟨hne, hw⟩)
      · exact ⟨fun h => hv (h ▸ hw), Or.inl hw⟩
      · exact ⟨hne, Or.inr hw⟩
    · rintro ⟨hne, hw | hw⟩
      · exact Or.inl hw
      · exact Or.inr ⟨hne, hw⟩

/-- A poll that completes unregisters the future. -/
theorem waits_of_poll_ready {n : Notify τ} {v : τ} (h : (n.poll v).1 = true)
    (w : τ) : (n.poll v).2.Waits w ↔ w ≠ v ∧ n.Waits w := by
  unfold poll at h ⊢
  split at h
  · rename_i hv
    rw [if_pos hv]
    exact mem_erase_notified hv
  · rename_i hv
    rw [if_neg hv]
    split at h
    · rename_i hp
      rw [dif_pos hp]
      have hws := n.permit_idle hp
      simp only [Waits, hws, List.not_mem_nil, or_false]
      exact ⟨fun hw => ⟨fun heq => hv (heq ▸ hw), hw⟩, fun hw => hw.2⟩
    · split at h <;> cases h

/-- A poll that does not complete registers the future. -/
theorem waits_of_poll_pending {n : Notify τ} {v : τ}
    (h : (n.poll v).1 = false) (w : τ) :
    (n.poll v).2.Waits w ↔ w = v ∨ n.Waits w := by
  unfold poll at h ⊢
  split at h
  · cases h
  · rename_i hv
    rw [if_neg hv]
    split at h
    · cases h
    · rename_i hp
      rw [dif_neg hp]
      split
      · rename_i hw
        have hvw : n.Waits v := List.mem_append.mp hw
        exact ⟨Or.inr, fun h => h.elim (fun heq => heq ▸ hvw) id⟩
      · simp only [Waits, List.mem_append, List.mem_singleton]
        tauto

/-- A registered future completes exactly when it was handed a notification. -/
theorem poll_ready_of_waits {n : Notify τ} {w : τ} (hw : n.Waits w) :
    (n.poll w).1 = true ↔ w ∈ n.notified := by
  unfold poll
  split
  · rename_i h
    simp [h]
  · rename_i h
    have hmem : w ∈ n.waiters := hw.resolve_left h
    have hp : n.permit ≠ true := fun hp => by
      rw [n.permit_idle hp] at hmem
      cases hmem
    rw [dif_neg hp]
    split <;> simp [h]

/-- A fresh future completes exactly when a permit is stored. -/
theorem poll_ready_of_not_waits {n : Notify τ} {w : τ} (hw : ¬ n.Waits w) :
    (n.poll w).1 = true ↔ n.permit = true := by
  have hn : w ∉ n.notified := fun h => hw (Or.inl h)
  unfold poll
  rw [if_neg hn]
  split
  · rename_i hp
    simp [hp]
  · rename_i hp
    split <;> simp [hp]

/-! ## Outstanding notifications -/

omit [DecidableEq τ] in
/-- Some notification was sent and no future has consumed it yet. -/
def Outstanding (n : Notify τ) : Prop := n.permit = true ∨ n.notified ≠ []

omit [DecidableEq τ] in
theorem outstanding_notifyOne (n : Notify τ) : n.notifyOne.Outstanding := by
  obtain ⟨p, ws, woken, hp, hn⟩ := n
  cases ws with
  | nil => exact Or.inl rfl
  | cons v vs => exact Or.inr (by simp [notifyOne])

/-- Dropping a future never loses a notification. -/
theorem Outstanding.drop {n : Notify τ} (h : n.Outstanding) (w : τ) :
    (n.drop w).Outstanding := by
  unfold Notify.drop
  split
  · exact outstanding_notifyOne _
  · exact h

/-- A poll that does not complete consumes nothing. -/
theorem outstanding_poll_pending {n : Notify τ} {w : τ}
    (hw : (n.poll w).1 = false) :
    (n.poll w).2.Outstanding ↔ n.Outstanding := by
  unfold poll at hw ⊢
  split at hw
  · cases hw
  · rename_i hn
    rw [if_neg hn]
    split at hw
    · cases hw
    · rename_i hp
      rw [dif_neg hp]
      split <;> rfl

/-- A poll that completes found an outstanding notification. -/
theorem outstanding_of_poll_ready {n : Notify τ} {w : τ}
    (hw : (n.poll w).1 = true) : n.Outstanding := by
  by_cases h : n.Waits w
  · exact Or.inr (List.ne_nil_of_mem ((poll_ready_of_waits h).mp hw))
  · exact Or.inl ((poll_ready_of_not_waits h).mp hw)

omit [DecidableEq τ] in
/-- While somebody waits, an outstanding notification has a receiver. -/
theorem Outstanding.exists_notified {n : Notify τ} (h : n.Outstanding) {w : τ}
    (hw : w ∈ n.waiters) : ∃ v, v ∈ n.notified := by
  rcases h with hp | hne
  · rw [n.permit_idle hp] at hw
    cases hw
  · exact List.exists_mem_of_ne_nil _ hne

end Notify

end XashProxy
