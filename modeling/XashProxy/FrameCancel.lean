import XashProxy.FrameShim

/-!
# Cancelling a frame

A handle is a bare number, and each of the two numberings has one. The shim
looks a handle up in the queue it would use now, which is the one the
callback waits in only if the document's visibility is what it was at the
request. `cancel_exact_iff` says when a cancel hits its callback and nothing
else; otherwise the callback goes on waiting, and whatever has the number in
the other queue is lost.
-/

namespace XashProxy

namespace FrameShim

open Lts

/-! ## The two queues -/

/-- The queue the shim uses while `document.hidden` is `hidden`. -/
def queue (s : State) (hidden : Bool) : Queue := if hidden then s.timers else s.frames

/-- The callback of request `k` waits for a timer or a frame. -/
def Waits (s : State) (k : Nat) : Prop := ∃ hidden, (queue s hidden).Holds k

/-- The callback of request `k` does not run, whatever happens. -/
def NeverRuns (s : State) (k : Nat) : Prop :=
  ∀ es t, run step s es = some t → ∀ r, t.requests[k]? = some r → r.ran = false

/-- Cancelling the handle `id` of request `k` stops its callback for good,
and leaves every other timer and frame pending. -/
structure CancelsExactly (s : State) (k id : Nat) : Prop where
  never : NeverRuns (cancelAnimationFrame s id) k
  untouched : ∀ hidden e, e.job ≠ .callback k →
    (e ∈ (queue (cancelAnimationFrame s id) hidden).pending
      ↔ e ∈ (queue s hidden).pending)

/-- The visibility at each request, for the requests of a run. -/
def observeVisibility (s : State) (e : Event) (g : List Bool) : List Bool :=
  match e with
  | .request => g ++ [s.hidden]
  | _ => g

@[simp] theorem queue_true (s : State) : queue s true = s.timers := rfl

@[simp] theorem queue_false (s : State) : queue s false = s.frames := rfl

theorem queue_runJob (s : State) (job : Job) (hidden : Bool) :
    queue (runJob s job) hidden = queue s hidden := by
  cases hidden <;> simp

/-- The visibility at the call decides which queue is searched. -/
theorem queue_cancel (s : State) (id : Nat) (hidden : Bool) :
    queue (cancelAnimationFrame s id) hidden
      = if hidden = s.hidden then (queue s hidden).clear id else queue s hidden := by
  unfold cancelAnimationFrame
  dsimp only
  cases hs : s.hidden <;> cases hidden <;> rfl

theorem queue_request (s : State) (hidden : Bool) :
    queue (requestAnimationFrame s) hidden
      = if hidden = s.hidden then (queue s hidden).add (.callback s.requests.length)
        else queue s hidden := by
  unfold requestAnimationFrame
  dsimp only
  cases hs : s.hidden <;> cases hidden <;> rfl

theorem handles_request (s : State) :
    (requestAnimationFrame s).requests.map Request.handle
      = s.requests.map Request.handle ++ [(queue s s.hidden).next] := by
  unfold requestAnimationFrame
  dsimp only
  cases hs : s.hidden <;> simp

theorem map_handle_markCancelled (rs : List Request) (id : Nat) :
    (rs.map (markCancelled id)).map Request.handle = rs.map Request.handle := by
  rw [List.map_map]
  refine List.map_congr_left fun r _ => ?_
  simp only [Function.comp_apply, markCancelled]
  split <;> rfl

theorem map_handle_runJob (s : State) (job : Job) :
    (runJob s job).requests.map Request.handle = s.requests.map Request.handle := by
  cases job with
  | other => rfl
  | callback j =>
      refine List.ext_getElem? fun k => ?_
      simp only [runJob, List.getElem?_map, List.getElem?_modify]
      split
      · cases s.requests[k]? <;> rfl
      · cases s.requests[k]? <;> rfl

/-! ## Whose number it is -/

/-- What each request returned, and the visibility it was made in. -/
def origins (s : State) (g : List Bool) : List (Nat × Bool) :=
  (s.requests.map Request.handle).zip g

/-- The queue `q` of the visibility `hidden`: the callbacks in it were
requested under that visibility, and a number it gave to a request is not
given to anything else. -/
structure Owns (q : Queue) (hidden : Bool) (os : List (Nat × Bool)) : Prop where
  waits : ∀ e ∈ q.pending, ∀ k : Nat, e.job = .callback k → os[k]? = some (e.id, hidden)
  handed : ∀ id, (id, hidden) ∈ os → id < q.next
  owner : ∀ (k : Nat) id, os[k]? = some (id, hidden) →
    ∀ e ∈ q.pending, e.id = id → e.job = .callback k

theorem getElem?_concat_eq_some {α : Type*} {l : List α} {a b : α} {k : Nat} :
    (l ++ [a])[k]? = some b ↔ l[k]? = some b ∨ (k = l.length ∧ a = b) := by
  by_cases hlt : k < l.length
  · rw [List.getElem?_append_left hlt]
    exact ⟨Or.inl, fun h => h.resolve_right fun h => Nat.ne_of_lt hlt h.1⟩
  · have hnone : l[k]? = none := List.getElem?_eq_none (Nat.not_lt.mp hlt)
    rw [List.getElem?_append_right (Nat.not_lt.mp hlt), List.getElem?_singleton, hnone]
    constructor
    · intro h
      rw [Option.ite_none_right_eq_some] at h
      exact Or.inr ⟨by omega, Option.some.inj h.2⟩
    · rintro (h | ⟨rfl, rfl⟩)
      · cases h
      · simp

theorem Owns.mono {q q' : Queue} {hidden : Bool} {os : List (Nat × Bool)}
    (h : Owns q hidden os) (hsub : q'.pending ⊆ q.pending) (hnext : q'.next = q.next) :
    Owns q' hidden os where
  waits e he := h.waits e (hsub he)
  handed id hid := hnext ▸ h.handed id hid
  owner k id hk e he := h.owner k id hk e (hsub he)

theorem Owns.add_other {q : Queue} {hidden : Bool} {os : List (Nat × Bool)}
    (h : Owns q hidden os) : Owns (q.add .other) hidden os := by
  refine ⟨fun e he k hk => ?_, fun id hid => Nat.lt_succ_of_lt (h.handed id hid),
    fun k id hk e he hid => ?_⟩
  · rcases List.mem_append.mp he with he | he
    · exact h.waits e he k hk
    · obtain rfl := List.mem_singleton.mp he
      cases hk
  · rcases List.mem_append.mp he with he | he
    · exact h.owner k id hk e he hid
    · -- the new number is larger than every number handed out
      obtain rfl := List.mem_singleton.mp he
      have hlt := h.handed id (List.mem_of_getElem? hk)
      exact absurd hid (Nat.ne_of_gt hlt)

/-- A request that goes to the other queue. -/
theorem Owns.other {q : Queue} {hidden other : Bool} {os : List (Nat × Bool)}
    (h : Owns q hidden os) (hne : hidden ≠ other) (id : Nat) :
    Owns q hidden (os ++ [(id, other)]) := by
  refine ⟨fun e he k hk => ?_, fun id' hid => ?_, fun k id' hk => ?_⟩
  · exact getElem?_concat_eq_some.mpr (Or.inl (h.waits e he k hk))
  · rcases List.mem_append.mp hid with hid | hid
    · exact h.handed id' hid
    · exact absurd (Prod.mk.inj (List.mem_singleton.mp hid)).2 hne
  · rcases getElem?_concat_eq_some.mp hk with hk | ⟨-, hk⟩
    · exact h.owner k id' hk
    · exact absurd (Prod.mk.inj hk).2.symm hne

/-- A request that goes to this queue. -/
theorem Owns.add {q : Queue} {hidden : Bool} {os : List (Nat × Bool)}
    (h : Owns q hidden os) :
    Owns (q.add (.callback os.length)) hidden (os ++ [(q.next, hidden)]) := by
  refine ⟨fun e he k hk => ?_, fun id hid => ?_, fun k id hk e he hid => ?_⟩
  · rcases List.mem_append.mp he with he | he
    · exact getElem?_concat_eq_some.mpr (Or.inl (h.waits e he k hk))
    · obtain rfl := List.mem_singleton.mp he
      obtain rfl := Job.callback.inj hk
      exact getElem?_concat_eq_some.mpr (Or.inr ⟨rfl, rfl⟩)
  · rcases List.mem_append.mp hid with hid | hid
    · exact Nat.lt_succ_of_lt (h.handed id hid)
    · rw [(Prod.mk.inj (List.mem_singleton.mp hid)).1]
      exact Nat.lt_succ_self _
  · rcases getElem?_concat_eq_some.mp hk with hk | ⟨rfl, heq⟩
    · have hlt := h.handed id (List.mem_of_getElem? hk)
      rcases List.mem_append.mp he with he | he
      · exact h.owner k id hk e he hid
      · obtain rfl := List.mem_singleton.mp he
        exact absurd hid (Nat.ne_of_gt hlt)
    · obtain ⟨rfl, -⟩ := Prod.mk.inj heq
      rcases List.mem_append.mp he with he | he
      · exact absurd hid (Nat.ne_of_lt (q.fresh e he))
      · obtain rfl := List.mem_singleton.mp he
        rfl

/-- Each queue knows the requests made through it. -/
structure Owned (s : State) (g : List Bool) : Prop where
  length : s.requests.length = g.length
  queues : ∀ hidden, Owns (queue s hidden) hidden (origins s g)

theorem owned_init : Owned init [] := by
  refine ⟨rfl, fun hidden => ?_⟩
  cases hidden <;> exact ⟨nofun, nofun, nofun⟩

/-- A step that makes no request and brings no new number. -/
theorem Owned.mono {s s' : State} {g : List Bool} (h : Owned s g)
    (hhandles : s'.requests.map Request.handle = s.requests.map Request.handle)
    (hsub : ∀ hidden, (queue s' hidden).pending ⊆ (queue s hidden).pending)
    (hnext : ∀ hidden, (queue s' hidden).next = (queue s hidden).next) : Owned s' g := by
  refine ⟨?_, fun hidden => ?_⟩
  · have hlen := congrArg List.length hhandles
    rw [List.length_map, List.length_map] at hlen
    rw [hlen]
    exact h.length
  · rw [origins, hhandles]
    exact (h.queues hidden).mono (hsub hidden) (hnext hidden)

theorem length_origins {s : State} {g : List Bool} (h : Owned s g) :
    (origins s g).length = s.requests.length := by
  rw [origins, List.length_zip, List.length_map, h.length, Nat.min_self]

theorem owned_request {s : State} {g : List Bool} (h : Owned s g) :
    Owned (requestAnimationFrame s) (g ++ [s.hidden]) := by
  have hlen : (s.requests.map Request.handle).length = g.length := by
    rw [List.length_map, h.length]
  have horigins : origins (requestAnimationFrame s) (g ++ [s.hidden])
      = origins s g ++ [((queue s s.hidden).next, s.hidden)] := by
    rw [origins, handles_request, List.zip_append hlen]
    rfl
  refine ⟨?_, fun hidden => ?_⟩
  · have hmap := congrArg List.length (handles_request s)
    rw [List.length_map, List.length_append, List.length_map] at hmap
    rw [hmap, h.length, List.length_append]
    rfl
  · rw [horigins, queue_request]
    split
    · rename_i hhidden
      rw [← length_origins h, hhidden]
      exact (h.queues s.hidden).add
    · rename_i hne
      exact (h.queues hidden).other hne _

theorem owned_step {s s' : State} {e : Event} {g : List Bool} (ho : Owned s g)
    (h : step s e = some s') : Owned s' (observeVisibility s e g) := by
  cases e with
  | request =>
      obtain rfl := Option.some.inj h
      exact owned_request ho
  | cancel id =>
      obtain rfl := Option.some.inj h
      refine ho.mono ?_ (fun hidden => ?_) (fun hidden => ?_)
      · unfold cancelAnimationFrame
        dsimp only
        split <;> exact map_handle_markCancelled s.requests id
      · rw [queue_cancel]
        split
        · exact List.filter_sublist.subset
        · exact fun _ he => he
      · rw [queue_cancel]
        split <;> rfl
  | hide =>
      simp only [step, Option.ite_none_left_eq_some] at h
      obtain rfl := Option.some.inj h.2
      exact ho.mono rfl (fun _ _ he => he) fun _ => rfl
  | unhide =>
      simp only [step, Option.ite_none_right_eq_some] at h
      obtain rfl := Option.some.inj h.2
      exact ho.mono rfl (fun _ _ he => he) fun _ => rfl
  | runTimer i =>
      obtain ⟨e, he, rfl⟩ := runTimer_eq_some h
      refine ho.mono (map_handle_runJob _ _) (fun hidden => ?_) (fun hidden => ?_)
      · rw [queue_runJob]
        cases hidden with
        | false => exact fun _ he => he
        | true => exact (List.eraseIdx_sublist ..).subset
      · rw [queue_runJob]
        cases hidden <;> rfl
  | runFrame i =>
      obtain ⟨-, e, he, rfl⟩ := runFrame_eq_some h
      refine ho.mono (map_handle_runJob _ _) (fun hidden => ?_) (fun hidden => ?_)
      · rw [queue_runJob]
        cases hidden with
        | false => exact (List.eraseIdx_sublist ..).subset
        | true => exact fun _ he => he
      · rw [queue_runJob]
        cases hidden <;> rfl
  | otherTimer =>
      obtain rfl := Option.some.inj h
      refine ⟨ho.length, fun hidden => ?_⟩
      cases hidden with
      | false => exact ho.queues false
      | true => exact (ho.queues true).add_other
  | otherFrame =>
      obtain rfl := Option.some.inj h
      refine ⟨ho.length, fun hidden => ?_⟩
      cases hidden with
      | false => exact (ho.queues false).add_other
      | true => exact ho.queues true

/-! ## A callback that waits nowhere -/

/-- Request `k` was made, has not run, and waits nowhere. -/
structure Gone (s : State) (k : Nat) : Prop where
  made : k < s.requests.length
  ran : ∀ r, s.requests[k]? = some r → r.ran = false
  gone : ¬ Waits s k

theorem waits_iff {s : State} {k : Nat} :
    Waits s k ↔ s.timers.Holds k ∨ s.frames.Holds k := by
  constructor
  · rintro ⟨hidden, h⟩
    cases hidden with
    | false => exact Or.inr h
    | true => exact Or.inl h
  · rintro (h | h)
    · exact ⟨true, h⟩
    · exact ⟨false, h⟩

theorem Queue.Holds.mono {q q' : Queue} {k : Nat} (h : q'.Holds k)
    (hsub : q'.pending ⊆ q.pending) : q.Holds k := by
  obtain ⟨e, he, hk⟩ := h
  exact ⟨e, hsub he, hk⟩

theorem Gone.frame {s s' : State} {k : Nat} (h : Gone s k) (hrequests : s'.requests = s.requests)
    (hwaits : Waits s' k → Waits s k) : Gone s' k :=
  ⟨hrequests ▸ h.made, hrequests ▸ h.ran, fun hw => h.gone (hwaits hw)⟩

/-- A job that is not the callback of `k` leaves the request as it is. -/
theorem Gone.runJob {s s' : State} {k : Nat} {job : Job} (h : Gone s k)
    (hne : job ≠ .callback k) (hrequests : s'.requests = s.requests)
    (hwaits : Waits s' k → Waits s k) : Gone (runJob s' job) k := by
  refine ⟨?_, fun r hr => ?_, fun hw => h.gone (hwaits ?_)⟩
  · have hlen := congrArg List.length (map_handle_runJob s' job)
    rw [List.length_map, List.length_map] at hlen
    rw [hlen, hrequests]
    exact h.made
  · cases job with
    | other => exact h.ran r (hrequests ▸ hr)
    | callback j =>
        have hjk : j ≠ k := fun heq => hne (congrArg Job.callback heq)
        simp only [FrameShim.runJob, List.getElem?_modify, if_neg hjk, hrequests] at hr
        exact h.ran r (by simpa using hr)
  · obtain ⟨hidden, hq⟩ := hw
    exact ⟨hidden, by rwa [queue_runJob] at hq⟩

theorem gone_request {s : State} {k : Nat} (hg : Gone s k) :
    Gone (requestAnimationFrame s) k := by
  have hmade := hg.made
  have hlen := congrArg List.length (handles_request s)
  rw [List.length_map, List.length_append, List.length_map] at hlen
  refine ⟨by rw [hlen]; omega, fun r hr => ?_, ?_⟩
  · refine hg.ran r ?_
    unfold requestAnimationFrame at hr
    dsimp only at hr
    split at hr <;> rwa [List.getElem?_append_left hmade] at hr
  · rintro ⟨hidden, hq⟩
    rw [queue_request] at hq
    split at hq
    · rcases Queue.holds_add.mp hq with hq | hq
      · exact hg.gone ⟨hidden, hq⟩
      · exact absurd (Job.callback.inj hq) (Nat.ne_of_gt hmade)
    · exact hg.gone ⟨hidden, hq⟩

theorem gone_cancel {s : State} {k : Nat} (hg : Gone s k) (id : Nat) :
    Gone (cancelAnimationFrame s id) k := by
  have hrequests : (cancelAnimationFrame s id).requests
      = s.requests.map (markCancelled id) := by
    unfold cancelAnimationFrame
    dsimp only
    split <;> rfl
  refine ⟨by rw [hrequests, List.length_map]; exact hg.made, fun r hr => ?_, ?_⟩
  · rw [hrequests, List.getElem?_map] at hr
    obtain ⟨r₀, hr₀, rfl⟩ := Option.map_eq_some_iff.mp hr
    have hran := hg.ran r₀ hr₀
    unfold markCancelled
    split <;> exact hran
  · rintro ⟨hidden, hq⟩
    rw [queue_cancel] at hq
    split at hq
    · exact hg.gone ⟨hidden, hq.mono List.filter_sublist.subset⟩
    · exact hg.gone ⟨hidden, hq⟩

theorem gone_step {s s' : State} {e : Event} {k : Nat} (hg : Gone s k)
    (h : step s e = some s') : Gone s' k := by
  cases e with
  | request =>
      obtain rfl := Option.some.inj h
      exact gone_request hg
  | cancel id =>
      obtain rfl := Option.some.inj h
      exact gone_cancel hg id
  | hide =>
      simp only [step, Option.ite_none_left_eq_some] at h
      obtain rfl := Option.some.inj h.2
      exact hg.frame rfl id
  | unhide =>
      simp only [step, Option.ite_none_right_eq_some] at h
      obtain rfl := Option.some.inj h.2
      exact hg.frame rfl id
  | runTimer i =>
      obtain ⟨e, he, rfl⟩ := runTimer_eq_some h
      refine hg.runJob ?_ rfl fun hw => ?_
      · exact fun hk => hg.gone ⟨true, e, List.mem_of_getElem? he, hk⟩
      · refine waits_iff.mpr ((waits_iff.mp hw).imp_left fun hq => ?_)
        exact hq.mono (List.eraseIdx_sublist ..).subset
  | runFrame i =>
      obtain ⟨-, e, he, rfl⟩ := runFrame_eq_some h
      refine hg.runJob ?_ rfl fun hw => ?_
      · exact fun hk => hg.gone ⟨false, e, List.mem_of_getElem? he, hk⟩
      · refine waits_iff.mpr ((waits_iff.mp hw).imp_right fun hq => ?_)
        exact hq.mono (List.eraseIdx_sublist ..).subset
  | otherTimer =>
      obtain rfl := Option.some.inj h
      refine hg.frame rfl fun hw => waits_iff.mpr ((waits_iff.mp hw).imp_left fun hq => ?_)
      exact (Queue.holds_add.mp hq).resolve_right (by simp)
  | otherFrame =>
      obtain rfl := Option.some.inj h
      refine hg.frame rfl fun hw => waits_iff.mpr ((waits_iff.mp hw).imp_right fun hq => ?_)
      exact (Queue.holds_add.mp hq).resolve_right (by simp)

/-- Running the callback of a request. -/
theorem ran_runJob {s : State} {k : Nat} {r : Request} (hr : s.requests[k]? = some r) :
    (runJob s (.callback k)).requests[k]? = some { r with ran := true } := by
  simp [runJob, hr]

/-- A callback that waits can still run: a timer at once, a frame as soon as
the tab is visible. -/
theorem runs_of_waits {s : State} {k : Nat} {r : Request} (hr : s.requests[k]? = some r)
    (hw : Waits s k) : ¬ NeverRuns s k := by
  intro hnever
  rcases waits_iff.mp hw with ⟨e, he, hk⟩ | ⟨e, he, hk⟩
  · obtain ⟨i, hi⟩ := List.mem_iff_getElem?.mp he
    have hrun : run step s [.runTimer i]
        = some (runJob { s with timers := s.timers.remove i } e.job) := by
      simp [run, step, hi]
    have hran := hnever _ _ hrun _ (by rw [hk]; exact ran_runJob hr)
    cases hran
  · obtain ⟨i, hi⟩ := List.mem_iff_getElem?.mp he
    cases hh : s.hidden with
    | false =>
        have hrun : run step s [.runFrame i]
            = some (runJob { s with frames := s.frames.remove i } e.job) := by
          simp [run, step, hi, hh]
        have hran := hnever _ _ hrun _ (by rw [hk]; exact ran_runJob hr)
        cases hran
    | true =>
        have hrun : run step s [.unhide, .runFrame i]
            = some (runJob { s with hidden := false, frames := s.frames.remove i } e.job) := by
          simp [run, step, hi, hh]
        have hran := hnever _ _ hrun _ (by rw [hk]; exact ran_runJob hr)
        cases hran

theorem neverRuns_iff {s : State} {k : Nat} {r : Request} (hr : s.requests[k]? = some r)
    (hran : r.ran = false) : NeverRuns s k ↔ ¬ Waits s k := by
  constructor
  · intro hnever hw
    exact runs_of_waits hr hw hnever
  · intro hgone es t h
    have hg : Gone s k := by
      refine ⟨(List.getElem?_eq_some_iff.mp hr).1, fun r' hr' => ?_, hgone⟩
      obtain rfl := Option.some.inj (hr.symm.trans hr')
      exact hran
    exact (run_invariant (I := fun s => Gone s k) gone_step h hg).ran

/-! ## The cancel -/

theorem getElem?_cancel {s : State} {k id : Nat} {r : Request}
    (hr : s.requests[k]? = some r) :
    (cancelAnimationFrame s id).requests[k]? = some (markCancelled id r) := by
  unfold cancelAnimationFrame
  dsimp only
  split <;> simp [hr]

theorem ran_markCancelled (id : Nat) (r : Request) : (markCancelled id r).ran = r.ran := by
  unfold markCancelled
  split <;> rfl

/-- A cancel does not run the callback, so it comes down to where it waits. -/
theorem neverRuns_cancel_iff {s : State} {k : Nat} {r : Request} (id : Nat)
    (hr : s.requests[k]? = some r) (hran : r.ran = false) :
    NeverRuns (cancelAnimationFrame s id) k ↔ ¬ Waits (cancelAnimationFrame s id) k := by
  refine neverRuns_iff (getElem?_cancel hr) ?_
  rw [ran_markCancelled]
  exact hran

/-- Nothing that is searched has the number: nothing is removed. -/
theorem mem_queue_cancel_of_free {s : State} {id : Nat}
    (hfree : ∀ e ∈ (queue s s.hidden).pending, e.id ≠ id) (hidden : Bool) (e : Entry) :
    e ∈ (queue (cancelAnimationFrame s id) hidden).pending ↔ e ∈ (queue s hidden).pending := by
  rw [queue_cancel]
  split
  · rename_i heq
    subst heq
    exact ⟨fun he => (List.mem_filter.mp he).1,
      fun he => List.mem_filter.mpr ⟨he, decide_eq_true (hfree e he)⟩⟩
  · exact Iff.rfl

/-- The visibility is that of the request: the number is the callback's own. -/
theorem cancelsExactly_of_eq {s : State} {g : List Bool} {k : Nat} {r : Request}
    (ho : Owned s g) (hr : s.requests[k]? = some r) (hran : r.ran = false)
    (hk : (origins s g)[k]? = some (r.handle, s.hidden)) :
    CancelsExactly s k r.handle := by
  refine ⟨?_, fun hidden e hne => ?_⟩
  · refine (neverRuns_cancel_iff _ hr hran).mpr ?_
    rintro ⟨hidden, hq⟩
    rw [queue_cancel] at hq
    split at hq
    · obtain ⟨e, he, hjob⟩ := hq
      obtain ⟨he, hid⟩ := List.mem_filter.mp he
      have hwaits := (ho.queues hidden).waits e he k hjob
      rw [hk] at hwaits
      have hid' := (Prod.mk.inj (Option.some.inj hwaits)).1
      exact absurd hid'.symm (of_decide_eq_true hid)
    · rename_i hother
      obtain ⟨e, he, hjob⟩ := hq
      have hwaits := (ho.queues hidden).waits e he k hjob
      rw [hk] at hwaits
      exact hother (Prod.mk.inj (Option.some.inj hwaits)).2.symm
  · rw [queue_cancel]
    split
    · rename_i hhidden
      refine ⟨fun he => (List.mem_filter.mp he).1, fun he => List.mem_filter.mpr ⟨he, ?_⟩⟩
      refine decide_eq_true fun hid => hne ?_
      subst hhidden
      exact (ho.queues s.hidden).owner k r.handle hk e he hid
    · exact Iff.rfl

/-- The visibility is the other one: the callback's own queue is not searched,
and nothing in the one that is belongs to it. -/
theorem cancelsExactly_iff_of_ne {s : State} {g : List Bool} {k : Nat} {r : Request}
    {hidden : Bool} (ho : Owned s g) (hr : s.requests[k]? = some r) (hran : r.ran = false)
    (hk : (origins s g)[k]? = some (r.handle, hidden)) (hne : hidden ≠ s.hidden) :
    CancelsExactly s k r.handle ↔
      ¬ Waits s k ∧ ∀ e ∈ (queue s s.hidden).pending, e.id ≠ r.handle := by
  have hforeign : ∀ e ∈ (queue s s.hidden).pending, e.job ≠ .callback k := by
    intro e he hjob
    have hwaits := (ho.queues s.hidden).waits e he k hjob
    rw [hk] at hwaits
    exact hne (Prod.mk.inj (Option.some.inj hwaits)).2
  have hcleared : queue (cancelAnimationFrame s r.handle) s.hidden
      = (queue s s.hidden).clear r.handle := by rw [queue_cancel, if_pos rfl]
  rw [← neverRuns_iff hr hran]
  constructor
  · intro hexact
    refine ⟨(neverRuns_iff hr hran).mpr ?_, fun e he hid => ?_⟩
    · rintro ⟨hidden', e, he, hjob⟩
      refine (neverRuns_cancel_iff _ hr hran).mp hexact.never ⟨hidden', e, ?_, hjob⟩
      rw [queue_cancel]
      split
      · rename_i heq
        subst heq
        exact absurd hjob (hforeign e he)
      · exact he
    · have hkept := (hexact.untouched s.hidden e (hforeign e he)).mpr he
      rw [hcleared] at hkept
      exact absurd hid (of_decide_eq_true (List.mem_filter.mp hkept).2)
  · rintro ⟨hnever, hfree⟩
    have hgone := (neverRuns_iff hr hran).mp hnever
    have hsame := mem_queue_cancel_of_free hfree
    refine ⟨(neverRuns_cancel_iff _ hr hran).mpr ?_, fun hidden' e _ => hsame hidden' e⟩
    rintro ⟨hidden', e, he, hjob⟩
    exact hgone ⟨hidden', e, (hsame hidden' e).mp he, hjob⟩

/-- Before its callback has run, cancelling the handle of a request is exact
if and only if the visibility is what it was at the request, or the callback
was cancelled already and nothing has its number in the other queue. -/
theorem cancel_exact_iff {es : List Event} {s : State} {g : List Bool} {k : Nat}
    {r : Request} (h : run (recorded step observeVisibility) (init, []) es = some (s, g))
    (hr : s.requests[k]? = some r) (hran : r.ran = false) :
    CancelsExactly s k r.handle ↔
      g[k]? = some s.hidden
        ∨ (¬ Waits s k ∧ ∀ e ∈ (queue s s.hidden).pending, e.id ≠ r.handle) := by
  have ho : Owned s g := recorded_invariant owned_step h owned_init
  have hlt : k < g.length := by
    rw [← ho.length]
    exact (List.getElem?_eq_some_iff.mp hr).1
  have hg : g[k]? = some g[k] := List.getElem?_eq_getElem hlt
  have hk : (origins s g)[k]? = some (r.handle, g[k]) := by
    refine List.getElem?_zip_eq_some.mpr ⟨?_, hg⟩
    rw [List.getElem?_map, hr]
    rfl
  by_cases hsame : g[k] = s.hidden
  · rw [hsame] at hk hg
    exact ⟨fun _ => Or.inl hg, fun _ => cancelsExactly_of_eq ho hr hran hk⟩
  · rw [cancelsExactly_iff_of_ne ho hr hran hk hsame]
    refine ⟨Or.inr, fun h => h.resolve_left fun heq => ?_⟩
    rw [hg] at heq
    exact hsame (Option.some.inj heq)

/-- A frame requested and cancelled in a visible tab, over a timer that has
the same number. -/
theorem cancel_exact_visible :
    ∃ s g r, run (recorded step observeVisibility) (init, []) [.otherTimer, .request]
        = some (s, g)
      ∧ s.requests[0]? = some r ∧ CancelsExactly s 0 r.handle := by
  obtain ⟨s, g, r, h, hr, hran, hg⟩ : ∃ s g r,
      run (recorded step observeVisibility) (init, []) [.otherTimer, .request] = some (s, g)
      ∧ s.requests[0]? = some r ∧ r.ran = false ∧ g[0]? = some s.hidden :=
    ⟨_, _, _, rfl, rfl, rfl, rfl⟩
  exact ⟨s, g, r, h, hr, (cancel_exact_iff h hr hran).mpr (Or.inl hg)⟩

/-- The tab is hidden in between: the cancel removes the timer, and the frame
runs when the tab is shown again. -/
theorem cancel_hits_timer :
    ∃ s r, run step init [.otherTimer, .request, .hide] = some s
      ∧ s.requests[0]? = some r ∧ r.ran = false
      ∧ s.timers.pending = [⟨r.handle, .other⟩]
      ∧ (cancelAnimationFrame s r.handle).timers.pending = []
      ∧ (cancelAnimationFrame s r.handle).frames.Holds 0
      ∧ ¬ CancelsExactly s 0 r.handle := by
  refine ⟨_, _, rfl, rfl, rfl, rfl, rfl, ⟨_, List.mem_singleton_self _, rfl⟩, fun h => ?_⟩
  have hkept := (h.untouched true ⟨1, .other⟩ nofun).mpr (List.mem_singleton_self _)
  cases hkept

end FrameShim

end XashProxy
