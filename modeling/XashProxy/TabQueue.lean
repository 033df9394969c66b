import XashProxy.TabActs

/-!
# What a rejoin leaves in the queue

A rejoin clears the queue right before its `connect`, so that the new session
gets no packet of the old one. `netClear` empties only what is queued: a `Blob`
that is still being converted is enqueued later, whenever it arrived. The
queue of the new session is clean exactly as long as no such conversion is
left over: `cleanQueue_always_iff`.
-/

namespace XashProxy

namespace Tab

open Lts

/-- The packets that had arrived at the second `netClear` of the latest rejoin
of the page; 0 before any. -/
def observeClear (s : State) (e : Event) (boundary : Nat) : Nat :=
  match e with
  | .load _ => 0
  | .rejoinTimer _ _ => s.page.net.arrivals
  | _ => boundary

/-- Whatever the engine can dequeue arrived after that `netClear`. -/
def CleanQueue (r : State × Nat) : Prop :=
  ∀ p ∈ r.1.page.net.incoming.items, r.2 ≤ p.serial

/-- No second `netClear` throws at a queue with packets in it, and no packet
that arrived before the latest one finishes its conversion. -/
def LeavesClean (r : State × Nat) : Event → Prop
  | .rejoinTimer _ true => r.1.page.net.netBacklog = 0
  | .converted i => ∀ p, r.1.page.net.converting[i]? = some p → r.2 ≤ p.serial
  | _ => True

/-- The boundary lies in the past. -/
def Reached (r : State × Nat) : Prop :=
  r.1.page.net.Numbered ∧ r.2 ≤ r.1.page.net.arrivals

theorem arrivals_cleared (n : Net) (throws : Bool) :
    (cleared n throws).arrivals = n.arrivals := by
  cases throws <;> rfl

theorem observeClear_of_net {s : State} {e : Event} {ne : Net.Event} {b now : Nat}
    (he : e.net now = some ne) : observeClear s e b = b := by
  cases e <;> first | rfl | cases he

theorem observeClear_of_isCallback {s : State} {e : Event} {b : Nat}
    (he : e.isCallback = true) : observeClear s e b = b := by
  cases e <;> first | rfl | cases he

theorem reached_step {s s' : State} {e : Event} {b : Nat} (hr : Reached (s, b))
    (h : step s e = some s') : Reached (s', observeClear s e b) := by
  refine ⟨numbered_step hr.1 h, ?_⟩
  cases acts_of_step h with
  | elapse => exact hr.2
  | load => exact Nat.le_refl _
  | createClient hx => exact hr.2
  | @start threw hx hs => cases threw <;> exact hr.2
  | net he hnet =>
      rw [observeClear_of_net he]
      exact Nat.le_trans hr.2 (Net.arrivals_step hnet)
  | aside h _ he =>
      rw [observeClear_of_isCallback he, h.net]
      exact hr.2
  | begun h hb he =>
      rw [observeClear_of_isCallback he, hb.net, h.net]
      exact Nat.le_trans hr.2 (Nat.le_of_eq (arrivals_cleared ..).symm)
  | finished h =>
      rw [h.net]
      exact Nat.le_of_eq (arrivals_cleared ..).symm

/-- A queue stays clean under an event that feeds no packet of the past. -/
theorem clean_net {n n' : Net} {ne : Net.Event} {b : Nat} (hb : b ≤ n.arrivals)
    (hclean : ∀ p ∈ n.incoming.items, b ≤ p.serial)
    (hG : ∀ i p, ne = .converted i → n.converting[i]? = some p → b ≤ p.serial)
    (h : Net.step n ne = some n') : ∀ p ∈ n'.incoming.items, b ≤ p.serial := by
  intro p hp
  cases Net.acts_of_step h with
  | blob => exact hclean p hp
  | direct hdata =>
      rcases RollingBuffer.mem_enqueue hp with hp | rfl
      · exact hclean p hp
      · exact hb
  | @converted i packet hi =>
      rcases RollingBuffer.mem_enqueue hp with hp | rfl
      · exact hclean p hp
      · rw [Net.serial_convert]
        exact hG i packet rfl hi
  | dequeue hd =>
      obtain ⟨hitems, -⟩ := RollingBuffer.dequeue_eq_some hd
      exact hclean p (hitems ▸ List.mem_cons_of_mem _ hp)
  | clear => cases hp

theorem clean_cleared {n : Net} {throws : Bool} {b : Nat}
    (hclean : ∀ p ∈ n.incoming.items, b ≤ p.serial) :
    ∀ p ∈ (cleared n throws).incoming.items, b ≤ p.serial := by
  cases throws with
  | false => exact nofun
  | true => exact hclean

theorem cleanQueue_step {s s' : State} {e : Event} {b : Nat} (hr : Reached (s, b))
    (hP : CleanQueue (s, b)) (hG : LeavesClean (s, b) e) (h : step s e = some s') :
    CleanQueue (s', observeClear s e b) := by
  unfold CleanQueue at hP ⊢
  cases acts_of_step h with
  | elapse => exact hP
  | load => exact nofun
  | createClient hx => exact hP
  | @start threw hx hs => cases threw <;> exact hP
  | net he hnet =>
      rw [observeClear_of_net he]
      refine clean_net hr.2 hP ?_ hnet
      rintro i p rfl hi
      cases e <;> cases he
      exact hG p hi
  | aside h _ he =>
      rw [observeClear_of_isCallback he, h.net]
      exact hP
  | begun h hb he =>
      rw [observeClear_of_isCallback he, hb.net, h.net]
      exact clean_cleared hP
  | @finished i throws _ h =>
      rw [h.net]
      cases throws with
      | false => exact nofun
      | true =>
          have hnil : s.page.net.incoming.items = [] := List.length_eq_zero_iff.mp hG
          intro p hp
          exact absurd (hnil ▸ hp) List.not_mem_nil

/-- A step outside the condition puts a packet of the past in the queue. -/
theorem not_cleanQueue_of_left_over {s s' : State} {e : Event} {b : Nat}
    (hr : Reached (s, b)) (hG : ¬ LeavesClean (s, b) e) (h : step s e = some s') :
    ¬ CleanQueue (s', observeClear s e b) := by
  intro hP'
  cases e with
  | rejoinTimer i throws =>
      cases throws with
      | false => exact hG trivial
      | true =>
          cases acts_of_step h with
          | net he _ => cases he
          | aside _ _ he => cases he
          | begun _ _ he => cases he
          | finished h =>
              -- the queue is as it was, and everything in it is of the past
              have hne : s.page.net.incoming.items ≠ [] :=
                fun hnil => hG (List.length_eq_zero_iff.mpr hnil)
              obtain ⟨p, ps, hitems⟩ := List.exists_cons_of_ne_nil hne
              have hmem : p ∈ s.page.net.incoming.items := by simp [hitems]
              have hle : s.page.net.arrivals ≤ p.serial := hP' p (h.net ▸ hmem)
              exact absurd (hr.1.queued p hmem) (Nat.not_lt.mpr hle)
  | converted i =>
      refine hG fun p hi => ?_
      obtain ⟨net, hnet, rfl⟩ := Option.map_eq_some_iff.mp h
      cases Net.acts_of_converted hnet with
      | @converted _ packet hi' =>
          obtain rfl := Option.some.inj (hi.symm.trans hi')
          have hle := hP' _ (RollingBuffer.mem_enqueue_self (Net.convert p))
          rwa [Net.serial_convert] at hle
  | _ => exact hG trivial

/-- In every state of a run, each packet that the engine can dequeue arrived
after the second `netClear` of the latest rejoin, exactly when no such
`netClear` throws at a queue with packets in it and no conversion of an older
packet finishes afterwards. -/
theorem cleanQueue_always_iff {now maxPackets : Nat} (now_pos : 0 < now)
    (pos : 0 < maxPackets) (hidden : Bool) (es : List Event) :
    Always (recorded step observeClear) CleanQueue
        (init now now_pos maxPackets pos hidden, 0) es
      ↔ EachStep (recorded step observeClear) LeavesClean
        (init now now_pos maxPackets pos hidden, 0) es:= by
  have hP : CleanQueue (init now now_pos maxPackets pos hidden, 0) := nofun
  refine recorded_always_iff_eachStep (I := Reached) ?_ ?_ ?_
    ⟨Net.numbered_init pos, Nat.le_refl _⟩ hP es
  · intro s b e s' hr h
    exact reached_step hr h
  · intro s b e s' hr hP hG h
    exact cleanQueue_step hr hP hG h
  · intro s b e s' hr _ hG h
    exact not_cleanQueue_of_left_over hr hG h

/-- Packets before and during a rejoin; the new session gets the one that
arrived after it. -/
theorem cleanQueue_rejoined :
    ∃ r, run (recorded step observeClear)
        (init 1 (by decide) 16384 (by decide) false, 0)
        [.createClient, .start false, .message (.arrayBuffer [1]), .reconnected false,
          .message (.arrayBuffer [2]), .elapse 300, .rejoinTimer 0 false,
          .message (.arrayBuffer [3])] = some r
      ∧ r.2 = 2 ∧ r.1.page.net.incoming.items = [⟨2, .arrayBuffer [3]⟩]
      ∧ Always (recorded step observeClear) CleanQueue
          (init 1 (by decide) 16384 (by decide) false, 0)
          [.createClient, .start false, .message (.arrayBuffer [1]), .reconnected false,
            .message (.arrayBuffer [2]), .elapse 300, .rejoinTimer 0 false,
            .message (.arrayBuffer [3])] :=
  ⟨_, rfl, rfl, rfl, (cleanQueue_always_iff _ _ _ _).mpr
    (EachStep.of_forall (by simp [LeavesClean]) _)⟩

/-- A `Blob` that arrives before the rejoin and is converted after it: the new
session is given a packet of the old one. -/
theorem conversion_outlives_rejoin :
    ∃ r, run (recorded step observeClear)
        (init 1 (by decide) 16384 (by decide) false, 0)
        [.createClient, .start false, .message (.blob [1]), .reconnected false,
          .elapse 300, .rejoinTimer 0 false, .converted 0] = some r
      ∧ r.2 = 1 ∧ r.1.page.net.incoming.items = [⟨0, .arrayBuffer [1]⟩]
      ∧ (step r.1 .dequeue).isSome = true ∧ ¬ CleanQueue r := by
  refine ⟨_, rfl, rfl, rfl, rfl, fun hP => ?_⟩
  have := hP ⟨0, .arrayBuffer [1]⟩ (List.mem_singleton_self _)
  exact absurd this (by decide)

end Tab

end XashProxy
