import XashProxy.Lts
import Mathlib.Data.List.Basic
import Mathlib.Data.List.Nodup

/-!
# The visibility-aware frame shim

The inline script of `index.html` replaces `requestAnimationFrame` and
`cancelAnimationFrame` so that the engine's main loop runs on a timer while
the document is hidden. Both replacements look at `document.hidden` when
they are called; the browser looks at it again when it runs a callback.

Timers and frames are numbered separately. What is assumed of the browser:
frame callbacks run only while the document is visible, timers always do,
and every callback runs once.
-/

namespace XashProxy

namespace FrameShim

/-- What a timer or a frame runs: the callback of a request made through
the shim, by its serial number, or something else on the page. -/
inductive Job where
  | callback (request : Nat)
  | other
deriving DecidableEq, Repr

structure Entry where
  id : Nat
  job : Job
deriving DecidableEq, Repr

/-- The pending timers, or the pending frames: a counter that hands the
numbers out, and what waits under the numbers handed out so far. -/
structure Queue where
  next : Nat
  pending : List Entry
  fresh : ∀ e ∈ pending, e.id < next
  nodup : (pending.map Entry.id).Nodup

namespace Queue

def empty : Queue := ⟨1, [], by simp, List.nodup_nil⟩

/-- `setTimeout` and the browser's `requestAnimationFrame`; the number it
returns is `next`. -/
def add (q : Queue) (job : Job) : Queue where
  next := q.next + 1
  pending := q.pending ++ [⟨q.next, job⟩]
  fresh e he := by
    rcases List.mem_append.mp he with he | he
    · exact Nat.lt_succ_of_lt (q.fresh e he)
    · rw [List.mem_singleton.mp he]
      exact Nat.lt_succ_self _
  nodup := by
    rw [List.map_append]
    refine q.nodup.append (List.nodup_singleton _) ?_
    intro id hid hid'
    obtain ⟨e, he, rfl⟩ := List.mem_map.mp hid
    exact Nat.ne_of_lt (q.fresh e he) (List.mem_singleton.mp hid')

/-- `clearTimeout` and the browser's `cancelAnimationFrame`. -/
def clear (q : Queue) (id : Nat) : Queue :=
  { q with
    pending := q.pending.filter (fun e => e.id ≠ id)
    fresh := fun e he => q.fresh e (List.mem_filter.mp he).1
    nodup := q.nodup.sublist (List.filter_sublist.map _) }

/-- The browser takes an entry off the queue to run it. -/
def remove (q : Queue) (i : Nat) : Queue :=
  { q with
    pending := q.pending.eraseIdx i
    fresh := fun e he => q.fresh e ((List.eraseIdx_sublist q.pending i).subset he)
    nodup := q.nodup.sublist ((List.eraseIdx_sublist q.pending i).map _) }

/-- The callback of request `k` waits in the queue. -/
def Holds (q : Queue) (k : Nat) : Prop := ∃ e ∈ q.pending, e.job = .callback k

end Queue

/-- A call of the shimmed `requestAnimationFrame`: what it returned, and
whether that number was passed to `cancelAnimationFrame` or the callback has
run. -/
structure Request where
  handle : Nat
  cancelled : Bool
  ran : Bool
deriving DecidableEq, Repr

structure State where
  hidden : Bool
  timers : Queue
  frames : Queue
  requests : List Request

def init : State := ⟨false, .empty, .empty, []⟩

/-- The shimmed `requestAnimationFrame`. -/
def requestAnimationFrame (s : State) : State :=
  let job := .callback s.requests.length
  if s.hidden then
    { s with
      timers := s.timers.add job
      requests := s.requests ++ [⟨s.timers.next, false, false⟩] }
  else
    { s with
      frames := s.frames.add job
      requests := s.requests ++ [⟨s.frames.next, false, false⟩] }

/-- The caller gives up whatever it holds this handle for. -/
def markCancelled (id : Nat) (r : Request) : Request :=
  if r.handle = id then { r with cancelled := true } else r

/-- The shimmed `cancelAnimationFrame`. -/
def cancelAnimationFrame (s : State) (id : Nat) : State :=
  let requests := s.requests.map (markCancelled id)
  if s.hidden then
    { s with timers := s.timers.clear id, requests := requests }
  else
    { s with frames := s.frames.clear id, requests := requests }

/-- A job runs. What its callback calls is an event of its own. -/
def runJob (s : State) : Job → State
  | .callback k =>
      { s with requests := s.requests.modify k fun r => { r with ran := true } }
  | .other => s

inductive Event where
  | request
  | cancel (id : Nat)
  | hide
  | unhide
  | runTimer (i : Nat)
  | runFrame (i : Nat)
  | otherTimer
  | otherFrame
deriving DecidableEq, Repr

def step (s : State) : Event → Option State
  | .request => some (requestAnimationFrame s)
  | .cancel id => some (cancelAnimationFrame s id)
  | .hide => if s.hidden then none else some { s with hidden := true }
  | .unhide => if s.hidden then some { s with hidden := false } else none
  | .runTimer i =>
      match s.timers.pending[i]? with
      | some e =>
          some (runJob { s with timers := s.timers.remove i } e.job)
      | none => none
  | .runFrame i =>
      match s.hidden, s.frames.pending[i]? with
      | false, some e =>
          some (runJob { s with frames := s.frames.remove i } e.job)
      | _, _ => none
  | .otherTimer => some { s with timers := s.timers.add .other }
  | .otherFrame => some { s with frames := s.frames.add .other }

/-! ## Outstanding requests -/

/-- Request `k` was made, not cancelled, and has not run. -/
def Outstanding (rs : List Request) (k : Nat) : Prop :=
  ∃ r, rs[k]? = some r ∧ r.cancelled = false ∧ r.ran = false

theorem outstanding_append {rs : List Request} {id k : Nat} :
    Outstanding (rs ++ [⟨id, false, false⟩]) k ↔
      Outstanding rs k ∨ k = rs.length := by
  unfold Outstanding
  constructor
  · rintro ⟨r, hr, hc, hn⟩
    rcases Nat.lt_or_ge k rs.length with hlt | hge
    · rw [List.getElem?_append_left hlt] at hr
      exact Or.inl ⟨r, hr, hc, hn⟩
    · have hlt := (List.getElem?_eq_some_iff.mp hr).1
      rw [List.length_append, List.length_singleton] at hlt
      exact Or.inr (by omega)
  · rintro (⟨r, hr, hc, hn⟩ | rfl)
    · have hlt := (List.getElem?_eq_some_iff.mp hr).1
      exact ⟨r, by rw [List.getElem?_append_left hlt]; exact hr, hc, hn⟩
    · exact ⟨_, List.getElem?_concat_length, rfl, rfl⟩

/-- A request that survives a cancel has another handle. -/
theorem outstanding_of_markCancelled {rs : List Request} {id k : Nat}
    (h : Outstanding (rs.map (markCancelled id)) k) :
    Outstanding rs k ∧ ∀ r, rs[k]? = some r → r.handle ≠ id := by
  obtain ⟨r', hr', hc, hn⟩ := h
  rw [List.getElem?_map] at hr'
  obtain ⟨r, hr, rfl⟩ := Option.map_eq_some_iff.mp hr'
  unfold markCancelled at hc hn
  split at hc
  · cases hc
  · rename_i hne
    rw [if_neg hne] at hn
    refine ⟨⟨r, hr, hc, hn⟩, fun r₁ hr₁ => ?_⟩
    obtain rfl := Option.some.inj (hr.symm.trans hr₁)
    exact hne

/-- A job that runs finishes its own request only. -/
theorem outstanding_of_runJob {s : State} {job : Job} {k : Nat}
    (h : Outstanding (runJob s job).requests k) :
    Outstanding s.requests k ∧ job ≠ .callback k := by
  cases job with
  | other => exact ⟨h, nofun⟩
  | callback j =>
      obtain ⟨r', hr', hc, hn⟩ := h
      simp only [runJob, List.getElem?_modify] at hr'
      split at hr'
      · obtain ⟨r, -, rfl⟩ := Option.map_eq_some_iff.mp hr'
        cases hn
      · rename_i hne
        simp only [Option.map_eq_map, Option.map_id'] at hr'
        exact ⟨⟨r', hr', hc, hn⟩, fun h => hne (Job.callback.inj h)⟩

/-! ## What waits, and under which number -/

theorem Queue.holds_add {q : Queue} {job : Job} {k : Nat} :
    (q.add job).Holds k ↔ q.Holds k ∨ job = .callback k := by
  simp only [Queue.Holds, Queue.add, List.mem_append, List.mem_singleton]
  constructor
  · rintro ⟨e, he | rfl, hk⟩
    · exact Or.inl ⟨e, he, hk⟩
    · exact Or.inr hk
  · rintro (⟨e, he, hk⟩ | hk)
    · exact ⟨e, Or.inl he, hk⟩
    · exact ⟨_, Or.inr rfl, hk⟩

/-- Running one entry leaves every other callback where it is. -/
theorem Queue.Holds.remove {q : Queue} {k i : Nat} {e : Entry} (h : q.Holds k)
    (he : q.pending[i]? = some e) (hne : e.job ≠ .callback k) :
    (q.remove i).Holds k := by
  obtain ⟨e', hmem, hk⟩ := h
  obtain ⟨j, hj⟩ := List.mem_iff_getElem?.mp hmem
  refine ⟨e', List.mem_eraseIdx_iff_getElem?.mpr ⟨j, ?_, hj⟩, hk⟩
  rintro rfl
  obtain rfl := Option.some.inj (hj.symm.trans he)
  exact hne hk

/-- A request's callback waits under the handle the request returned. -/
def Numbered (q : Queue) (rs : List Request) : Prop :=
  ∀ e ∈ q.pending, ∀ k, e.job = .callback k →
    ∃ r, rs[k]? = some r ∧ r.handle = e.id

/-- Handles never change, and requests are never forgotten. -/
def KeepsHandles (rs rs' : List Request) : Prop :=
  ∀ (k : Nat) (r : Request), rs[k]? = some r →
    ∃ r', rs'[k]? = some r' ∧ r'.handle = r.handle

theorem Numbered.mono {q q' : Queue} {rs rs' : List Request} (h : Numbered q rs)
    (hsub : q'.pending ⊆ q.pending) (hrs : KeepsHandles rs rs') :
    Numbered q' rs' := by
  intro e he k hk
  obtain ⟨r, hr, hid⟩ := h e (hsub he) k hk
  obtain ⟨r', hr', hid'⟩ := hrs k r hr
  exact ⟨r', hr', hid'.trans hid⟩

theorem Numbered.add {q : Queue} {rs : List Request} (h : Numbered q rs) :
    Numbered (q.add (.callback rs.length)) (rs ++ [⟨q.next, false, false⟩]) := by
  intro e he k hk
  rcases List.mem_append.mp he with he | he
  · obtain ⟨r, hr, hid⟩ := h e he k hk
    have hlt := (List.getElem?_eq_some_iff.mp hr).1
    exact ⟨r, by rw [List.getElem?_append_left hlt]; exact hr, hid⟩
  · obtain rfl := List.mem_singleton.mp he
    obtain rfl := Job.callback.inj hk
    exact ⟨_, List.getElem?_concat_length, rfl⟩

theorem Numbered.add_other {q : Queue} {rs : List Request} (h : Numbered q rs) :
    Numbered (q.add .other) rs := by
  intro e he k hk
  rcases List.mem_append.mp he with he | he
  · exact h e he k hk
  · obtain rfl := List.mem_singleton.mp he
    cases hk

theorem Queue.Holds.clear {q : Queue} {rs : List Request} {k id : Nat}
    (h : q.Holds k) (hq : Numbered q rs)
    (hne : ∀ r, rs[k]? = some r → r.handle ≠ id) : (q.clear id).Holds k := by
  obtain ⟨e, he, hk⟩ := h
  obtain ⟨r, hr, hid⟩ := hq e he k hk
  refine ⟨e, List.mem_filter.mpr ⟨he, ?_⟩, hk⟩
  rw [← hid]
  exact decide_eq_true (hne r hr)

theorem handles_append {rs : List Request} {r : Request} :
    KeepsHandles rs (rs ++ [r]) := by
  intro k r₁ h
  have hlt := (List.getElem?_eq_some_iff.mp h).1
  exact ⟨r₁, by rw [List.getElem?_append_left hlt]; exact h, rfl⟩

theorem handles_markCancelled {rs : List Request} {id : Nat} :
    KeepsHandles rs (rs.map (markCancelled id)) := by
  intro k r h
  refine ⟨markCancelled id r, by rw [List.getElem?_map, h]; rfl, ?_⟩
  unfold markCancelled
  split <;> rfl

theorem handles_runJob (s : State) (job : Job) :
    KeepsHandles s.requests (runJob s job).requests := by
  intro k r h
  cases job with
  | other => exact ⟨r, h, rfl⟩
  | callback j =>
      simp only [runJob, List.getElem?_modify, h]
      split <;> exact ⟨_, rfl, rfl⟩

@[simp] theorem runJob_timers (s : State) (job : Job) :
    (runJob s job).timers = s.timers := by cases job <;> rfl

@[simp] theorem runJob_frames (s : State) (job : Job) :
    (runJob s job).frames = s.frames := by cases job <;> rfl

@[simp] theorem runJob_hidden (s : State) (job : Job) :
    (runJob s job).hidden = s.hidden := by cases job <;> rfl

/-- Every outstanding callback waits somewhere. -/
structure Wf (s : State) : Prop where
  timers : Numbered s.timers s.requests
  frames : Numbered s.frames s.requests
  queued : ∀ k, Outstanding s.requests k → s.timers.Holds k ∨ s.frames.Holds k

theorem wf_init : Wf init := by
  refine ⟨?_, ?_, ?_⟩
  · intro e he
    cases he
  · intro e he
    cases he
  · rintro k ⟨r, hr, -⟩
    cases hr

theorem wf_request {s : State} (hwf : Wf s) : Wf (requestAnimationFrame s) := by
  unfold requestAnimationFrame
  dsimp only
  split
  · refine ⟨hwf.timers.add, hwf.frames.mono (fun _ => id) handles_append, ?_⟩
    intro k hk
    rcases outstanding_append.mp hk with hk | rfl
    · exact (hwf.queued k hk).imp (fun h => Queue.holds_add.mpr (Or.inl h)) id
    · exact Or.inl (Queue.holds_add.mpr (Or.inr rfl))
  · refine ⟨hwf.timers.mono (fun _ => id) handles_append, hwf.frames.add, ?_⟩
    intro k hk
    rcases outstanding_append.mp hk with hk | rfl
    · exact (hwf.queued k hk).imp id (fun h => Queue.holds_add.mpr (Or.inl h))
    · exact Or.inr (Queue.holds_add.mpr (Or.inr rfl))

theorem wf_cancel {s : State} (hwf : Wf s) (id : Nat) :
    Wf (cancelAnimationFrame s id) := by
  unfold cancelAnimationFrame
  dsimp only
  split
  · refine ⟨hwf.timers.mono (List.filter_sublist.subset) handles_markCancelled,
      hwf.frames.mono (fun _ h => h) handles_markCancelled, fun k hk => ?_⟩
    obtain ⟨hout, hne⟩ := outstanding_of_markCancelled hk
    exact (hwf.queued k hout).imp (fun h => h.clear hwf.timers hne) (fun h => h)
  · refine ⟨hwf.timers.mono (fun _ h => h) handles_markCancelled,
      hwf.frames.mono (List.filter_sublist.subset) handles_markCancelled, fun k hk => ?_⟩
    obtain ⟨hout, hne⟩ := outstanding_of_markCancelled hk
    exact (hwf.queued k hout).imp (fun h => h) (fun h => h.clear hwf.frames hne)

theorem runTimer_eq_some {s s' : State} {i : Nat}
    (h : step s (.runTimer i) = some s') :
    ∃ e, s.timers.pending[i]? = some e
      ∧ s' = runJob { s with timers := s.timers.remove i } e.job := by
  simp only [step] at h
  split at h
  · rename_i e he
    exact ⟨e, he, (Option.some.inj h).symm⟩
  · cases h

theorem runFrame_eq_some {s s' : State} {i : Nat}
    (h : step s (.runFrame i) = some s') :
    s.hidden = false ∧ ∃ e, s.frames.pending[i]? = some e
      ∧ s' = runJob { s with frames := s.frames.remove i } e.job := by
  simp only [step] at h
  split at h
  · rename_i e hh he
    exact ⟨hh, e, he, (Option.some.inj h).symm⟩
  · cases h

/-- An entry was taken off a queue, and its job runs. -/
theorem Wf.runJob {s u : State} {job : Job} (hwf : Wf s) (hrequests : u.requests = s.requests)
    (htimers : u.timers.pending ⊆ s.timers.pending)
    (hframes : u.frames.pending ⊆ s.frames.pending)
    (hqueued : ∀ k, job ≠ .callback k → s.timers.Holds k ∨ s.frames.Holds k →
      u.timers.Holds k ∨ u.frames.Holds k) : Wf (runJob u job) := by
  have hhandles := handles_runJob u job
  rw [hrequests] at hhandles
  refine ⟨?_, ?_, fun k hk => ?_⟩
  · rw [runJob_timers]
    exact hwf.timers.mono htimers hhandles
  · rw [runJob_frames]
    exact hwf.frames.mono hframes hhandles
  · obtain ⟨hout, hne⟩ := outstanding_of_runJob hk
    rw [hrequests] at hout
    rw [runJob_timers, runJob_frames]
    exact hqueued k hne (hwf.queued k hout)

theorem wf_step {s s' : State} {e : Event} (hwf : Wf s)
    (h : step s e = some s') : Wf s' := by
  cases e with
  | request =>
      obtain rfl := Option.some.inj h
      exact wf_request hwf
  | cancel id =>
      obtain rfl := Option.some.inj h
      exact wf_cancel hwf id
  | hide =>
      simp only [step, Option.ite_none_left_eq_some] at h
      obtain rfl := Option.some.inj h.2
      exact ⟨hwf.timers, hwf.frames, hwf.queued⟩
  | unhide =>
      simp only [step, Option.ite_none_right_eq_some] at h
      obtain rfl := Option.some.inj h.2
      exact ⟨hwf.timers, hwf.frames, hwf.queued⟩
  | runTimer i =>
      obtain ⟨e, he, rfl⟩ := runTimer_eq_some h
      exact hwf.runJob rfl (List.eraseIdx_sublist ..).subset (fun _ h => h)
        fun k hne hk => hk.imp (fun h => h.remove he hne) id
  | runFrame i =>
      obtain ⟨-, e, he, rfl⟩ := runFrame_eq_some h
      exact hwf.runJob rfl (fun _ h => h) (List.eraseIdx_sublist ..).subset
        fun k hne hk => hk.imp id fun h => h.remove he hne
  | otherTimer =>
      obtain rfl := Option.some.inj h
      refine ⟨hwf.timers.add_other, hwf.frames, fun k hk => ?_⟩
      exact (hwf.queued k hk).imp (fun h => Queue.holds_add.mpr (Or.inl h)) id
  | otherFrame =>
      obtain rfl := Option.some.inj h
      refine ⟨hwf.timers, hwf.frames.add_other, fun k hk => ?_⟩
      exact (hwf.queued k hk).imp id (fun h => Queue.holds_add.mpr (Or.inl h))

end FrameShim

end XashProxy
