import XashProxy.Tab

/-!
# What one event does to the page

Two callbacks and the watchdog may call `rejoin()`, and each of them does
something else as well. `acts_of_step` says once what a step can do to the
queue, to the guard flag with its timer, and to the log; the invariants of
the page are derived from it, the tick alone being read more closely in
`tick_cases`.
-/

namespace XashProxy

namespace Tab

open Lts

/-- The event of the packet queue that an event of the page is. -/
def Event.net (now : Nat) : Event → Option Net.Event
  | .message data => some (.message now data)
  | .converted i => some (.converted i)
  | .dequeue => some .dequeue
  | _ => none

/-- Whether a call of `netClear` throws in the event. -/
def Event.clearThrows : Event → Bool
  | .unhide throws | .reconnected throws | .rejoinTimer _ throws | .tick throws => throws
  | _ => false

/-- A callback that looks at the page, and may call `rejoin()`. -/
def Event.isCallback : Event → Bool
  | .hide | .unhide _ | .reconnected _ | .tick _ => true
  | _ => false

/-- `netClear()` that may throw. -/
def cleared (n : Net) (throws : Bool) : Net := if throws then n else n.netClear

/-- Neither the queue nor a rejoin is touched, and at most a note is logged. -/
structure Aside (s s' : State) (note : Option Act) : Prop where
  now : s'.now = s.now
  x : s'.page.x = s.page.x
  started : s'.page.started = s.page.started
  net : s'.page.net = s.page.net
  rejoinInFlight : s'.page.rejoinInFlight = s.page.rejoinInFlight
  rejoinTimers : s'.page.rejoinTimers = s.page.rejoinTimers
  quiet : ∀ a ∈ note, a = .reconnected ∨ a = .reload ∨ a = .forceReconnect
  log : s'.log = s.log ++ note.toList

/-- The first half of a rejoin. -/
structure Begun (s s' : State) (throws : Bool) : Prop where
  idle : s.page.rejoinInFlight = false
  x : s.page.x = true
  started : s.page.started = true
  now : s'.now = s.now
  page : s'.page = { s.page with
    net := cleared s.page.net throws, rejoinInFlight := true
    rejoinTimers := s.page.rejoinTimers ++ [s.now + rejoinDelay] }
  log : s'.log = s.log ++ [.netClear, .disconnect]

/-- The second half, with the timer `i`. -/
structure Finished (s s' : State) (i : Nat) (throws : Bool) : Prop where
  due : ∃ due, s.page.rejoinTimers[i]? = some due ∧ due ≤ s.now
  now : s'.now = s.now
  page : s'.page = { s.page with
    net := cleared s.page.net throws, rejoinInFlight := false
    rejoinTimers := s.page.rejoinTimers.eraseIdx i }
  log : s'.log = s.log ++ [.netClear, .connect]

/-- A call of `rejoin()` returns early. -/
def Refuses (s : State) : Prop :=
  s.page.rejoinInFlight = true ∨ s.page.x = false ∨ s.page.started = false

/-- The ways an event changes the page. -/
inductive Acts (s : State) : Event → State → Prop where
  | elapse {ms : Nat} :
      Acts s (.elapse ms)
        { s with now := s.now + ms, now_pos := Nat.add_pos_left s.now_pos ms }
  | load {hidden : Bool} :
      Acts s (.load hidden) (record { s with
        page := Tab.load s.page.net.incoming.capacity s.page.net.incoming.pos hidden } .load)
  | createClient (hx : s.page.x = false) :
      Acts s .createClient { s with page := { s.page with x := true } }
  | start {threw : Bool} (hx : s.page.x = true) (hs : s.page.started = false) :
      Acts s (.start threw) (start s threw)
  | net {e : Event} {ne : Net.Event} {net : Net} (he : e.net s.now = some ne)
      (hnet : Net.step s.page.net ne = some net) :
      Acts s e { s with page := { s.page with net := net } }
  | aside {e : Event} {s' : State} {note : Option Act} (h : Aside s s' note)
      (hr : note = some .reconnected → Refuses s) (he : e.isCallback = true) : Acts s e s'
  | begun {e : Event} {u s' : State} {note : Option Act} (h : Aside s u note)
      (hb : Begun u s' e.clearThrows) (he : e.isCallback = true) : Acts s e s'
  | finished {i : Nat} {throws : Bool} {s' : State} (h : Finished s s' i throws) :
      Acts s (.rejoinTimer i throws) s'

theorem Begun.net {s s' : State} {throws : Bool} (h : Begun s s' throws) :
    s'.page.net = cleared s.page.net throws := by rw [h.page]

theorem Finished.net {s s' : State} {i : Nat} {throws : Bool}
    (h : Finished s s' i throws) : s'.page.net = cleared s.page.net throws := by
  rw [h.page]

/-! ## The functions of the page -/

/-- Visibility and the counters are the business of one callback each. -/
theorem aside_page (s : State) (hidden : Bool) (hiddenSince stallCount
    backlogRejoins : Nat) :
    Aside s { s with page := { s.page with
      hidden := hidden, hiddenSince := hiddenSince, stallCount := stallCount
      backlogRejoins := backlogRejoins } } none :=
  ⟨rfl, rfl, rfl, rfl, rfl, rfl, nofun, (List.append_nil _).symm⟩

theorem Aside.refuses {s s' : State} {note : Option Act} (h : Aside s s' note)
    (hr : Refuses s') : Refuses s := by
  unfold Refuses at hr ⊢
  rwa [h.rejoinInFlight, h.x, h.started] at hr

/-- `rejoin()` returns early, or begins a rejoin. -/
theorem rejoin_cases (s : State) (throws : Bool) :
    (Refuses s ∧ rejoin s throws = s) ∨ Begun s (rejoin s throws) throws := by
  unfold rejoin
  split
  · rename_i hr
    refine Or.inl ⟨?_, rfl⟩
    simpa [Refuses, or_assoc] using hr
  · rename_i hr
    simp only [Bool.or_eq_true, Bool.not_eq_true', not_or, Bool.not_eq_true,
      Bool.not_eq_false] at hr
    obtain ⟨⟨hidle, hx⟩, hs⟩ := hr
    refine Or.inr ⟨hidle, hx, hs, ?_, ?_, ?_⟩
    · cases throws <;> rfl
    · cases throws <;> rfl
    · cases throws <;> simp [netClear, record]

/-- A call of `rejoin()` after what a callback does on its own. -/
theorem acts_of_rejoin {s u : State} {e : Event} {note : Option Act} {throws : Bool}
    (h : Aside s u note) (ht : e.clearThrows = throws) (he : e.isCallback = true) :
    Acts s e (rejoin u throws) := by
  rcases rejoin_cases u throws with ⟨hr, heq⟩ | hb
  · rw [heq]
    exact .aside h (fun _ => h.refuses hr) he
  · rw [← ht] at hb ⊢
    exact .begun h hb he

theorem finished_finishRejoin {s : State} {i due : Nat} (throws : Bool)
    (hi : s.page.rejoinTimers[i]? = some due) (hdue : due ≤ s.now) :
    Finished s (finishRejoin { s with page := { s.page with
      rejoinTimers := s.page.rejoinTimers.eraseIdx i } } throws) i throws := by
  refine ⟨⟨due, hi, hdue⟩, ?_, ?_, ?_⟩
  · cases throws <;> rfl
  · cases throws <;> rfl
  · cases throws <;> simp [finishRejoin, netClear, record]

/-- What the watchdog does about a stalled stream: a note in the log, or a
call of `rejoin()`. -/
theorem escalate_cases (s : State) (throws : Bool) :
    (∃ note, note ≠ some .reconnected ∧ Aside s (escalate s throws).2 note)
      ∨ (escalate s throws).2 = rejoin s throws := by
  unfold escalate
  split
  · split
    · refine Or.inl ⟨some .reload, by decide, rfl, rfl, rfl, rfl, rfl, rfl, ?_, rfl⟩
      simp
    · split
      · refine Or.inl ⟨some .forceReconnect, by decide, rfl, rfl, rfl, rfl, rfl, rfl, ?_, rfl⟩
        simp
      · exact Or.inr rfl
  · exact Or.inr rfl

/-- The tick returns early; or it finds the backlog over the watermark and
calls `rejoin()`; or the backlog is below, and what it does depends on the
silence. -/
theorem tick_cases (s : State) (throws : Bool) :
    ((s.page.started = false ∨ s.page.x = false ∨ s.page.hidden = true
        ∨ s.page.net.lastPacketAt = 0) ∧ (tick s throws).2 = s)
    ∨ (s.page.net.netCapacity * 4 ≤ s.page.net.netBacklog * 5
        ∧ ∃ u, Aside s u none ∧ (tick s throws).2 = rejoin u throws)
    ∨ (s.page.net.netBacklog * 5 < s.page.net.netCapacity * 4
        ∧ ∃ u note, note ≠ some .reconnected ∧ Aside s u note
          ∧ ((tick s throws).2 = u ∨ (tick s throws).2 = rejoin u throws)) := by
  unfold tick
  split
  · rename_i hr
    refine Or.inl ⟨?_, rfl⟩
    simp only [Bool.or_eq_true, Bool.not_eq_true'] at hr
    rcases hr with (hs | hx) | hh
    · exact Or.inl hs
    · exact Or.inr (Or.inl hx)
    · exact Or.inr (Or.inr (Or.inl hh))
  · split
    · rename_i h0
      exact Or.inl ⟨Or.inr (Or.inr (Or.inr h0)), rfl⟩
    · split
      · rename_i hw
        refine Or.inr (Or.inl ⟨hw, _, ?_, rfl⟩)
        exact aside_page ..
      · rename_i hw
        refine Or.inr (Or.inr ⟨Nat.not_le.mp hw, ?_⟩)
        split
        · exact ⟨_, none, nofun, aside_page .., Or.inl rfl⟩
        · dsimp only
          rcases escalate_cases { s with page := { s.page with
              stallCount := s.page.stallCount + 1 } } throws with ⟨note, hn, ha⟩ | heq
          · refine ⟨_, note, hn, ?_, Or.inl rfl⟩
            exact ⟨ha.now, ha.x, ha.started, ha.net, ha.rejoinInFlight, ha.rejoinTimers,
              ha.quiet, ha.log⟩
          · exact ⟨_, none, nofun, aside_page .., Or.inr heq⟩

/-! ## One step -/

theorem acts_of_step {s s' : State} {e : Event} (h : step s e = some s') :
    Acts s e s' := by
  cases e with
  | elapse ms =>
      obtain rfl := Option.some.inj h
      exact .elapse
  | load hidden =>
      obtain rfl := Option.some.inj h
      exact .load
  | createClient =>
      simp only [step, Option.ite_none_left_eq_some] at h
      obtain rfl := Option.some.inj h.2
      exact .createClient (Bool.not_eq_true _ ▸ h.1)
  | start threw =>
      simp only [step, Option.ite_none_right_eq_some] at h
      obtain ⟨⟨hx, hs⟩, h⟩ := h
      obtain rfl := Option.some.inj h
      exact .start hx hs
  | message data =>
      simp only [step, Option.ite_none_right_eq_some] at h
      obtain rfl := Option.some.inj h.2
      exact .net rfl rfl
  | converted i =>
      obtain ⟨net, hnet, rfl⟩ := Option.map_eq_some_iff.mp h
      exact .net rfl hnet
  | dequeue =>
      simp only [step, Option.ite_none_right_eq_some] at h
      obtain ⟨net, hnet, rfl⟩ := Option.map_eq_some_iff.mp h.2
      exact .net rfl hnet
  | hide =>
      simp only [step, Option.ite_none_left_eq_some] at h
      obtain rfl := Option.some.inj h.2
      exact .aside (aside_page ..) nofun rfl
  | unhide throws =>
      simp only [step, Option.ite_none_right_eq_some] at h
      obtain rfl := Option.some.inj h.2
      unfold onVisible
      dsimp only
      split
      · exact acts_of_rejoin (aside_page ..) rfl rfl
      · exact .aside (aside_page ..) nofun rfl
  | reconnected throws =>
      simp only [step, Option.ite_none_right_eq_some] at h
      obtain rfl := Option.some.inj h.2
      have hu : Aside s (record s .reconnected) (some .reconnected) :=
        ⟨rfl, rfl, rfl, rfl, rfl, rfl, by simp, rfl⟩
      split
      · exact acts_of_rejoin hu rfl rfl
      · rename_i hs
        exact .aside hu (fun _ => Or.inr (Or.inr (Bool.not_eq_true _ ▸ hs))) rfl
  | rejoinTimer i throws =>
      simp only [step] at h
      split at h
      · rename_i due hi
        rw [Option.ite_none_right_eq_some] at h
        obtain ⟨hdue, h⟩ := h
        obtain rfl := Option.some.inj h
        exact .finished (finished_finishRejoin throws hi hdue)
      · cases h
  | tick throws =>
      obtain rfl := Option.some.inj h
      rcases tick_cases s throws with ⟨-, heq⟩ | ⟨-, u, hu, heq⟩ | ⟨-, u, note, hn, hu, heq⟩
      · rw [heq]
        exact .aside (aside_page s ..) nofun rfl
      · rw [heq]
        exact acts_of_rejoin hu rfl rfl
      · rcases heq with heq | heq
        · rw [heq]
          exact .aside hu (fun h => absurd h hn) rfl
        · rw [heq]
          exact acts_of_rejoin hu rfl rfl

/-! ## The queue

The page drives its packet queue through `Net.step`, and a load starts a new
one. -/

theorem net_cleared (n : Net) (throws : Bool) :
    cleared n throws = n ∨ Net.step n .clear = some (cleared n throws) := by
  cases throws
  · exact Or.inr rfl
  · exact Or.inl rfl

/-- Whatever a new queue has and every event of the queue keeps, the queue of
the page has. -/
theorem net_invariant {I : Net → Prop} {s s' : State} {e : Event}
    (hload : ∀ pos, I s.page.net → I (.init s.page.net.netCapacity pos))
    (hstep : ∀ {n ne n'}, (∀ now data, ne = .message now data → 0 < now) → I n →
      Net.step n ne = some n' → I n')
    (h : step s e = some s') (hs : I s.page.net) : I s'.page.net := by
  have hclear : ∀ throws, I (cleared s.page.net throws) := fun throws => by
    rcases net_cleared s.page.net throws with heq | hc
    · rwa [heq]
    · exact hstep (by simp) hs hc
  cases acts_of_step h with
  | elapse => exact hs
  | load => exact hload _ hs
  | createClient hx => exact hs
  | @start threw hx hstarted => cases threw <;> exact hs
  | net he hnet =>
      refine hstep (fun now data hne => ?_) hs hnet
      subst hne
      cases e with
      | message d =>
          obtain ⟨rfl, -⟩ := Net.Event.message.inj (Option.some.inj he)
          exact s.now_pos
      | converted i => exact absurd (Option.some.inj he) Net.Event.noConfusion
      | dequeue => exact absurd (Option.some.inj he) Net.Event.noConfusion
      | _ => cases he
  | aside h hr => exact h.net ▸ hs
  | begun h hb =>
      rw [hb.net, h.net]
      exact hclear _
  | finished h =>
      rw [h.net]
      exact hclear _

/-- Every page has had a run of the packet queue. -/
theorem run_net {now maxPackets : Nat} (now_pos : 0 < now) (pos : 0 < maxPackets)
    (hidden : Bool) {es : List Event} {s : State}
    (h : run step (init now now_pos maxPackets pos hidden) es = some s) :
    ∃ nes, run Net.step (.init maxPackets pos) nes = some s.page.net := by
  have hI := run_invariant (I := fun s => s.page.net.netCapacity = maxPackets
    ∧ ∃ nes, run Net.step (.init maxPackets pos) nes = some s.page.net)
    (fun hs he => net_invariant (I := fun n => n.netCapacity = maxPackets
        ∧ ∃ nes, run Net.step (.init maxPackets pos) nes = some n)
      ?_ ?_ he hs) h ⟨rfl, [], rfl⟩
  · exact hI.2
  · rintro hpos ⟨hcap, -⟩
    subst hcap
    exact ⟨rfl, [], rfl⟩
  · rintro n ne n' - ⟨hcap, nes, hr⟩ hne
    refine ⟨(Net.netCapacity_step hne).trans hcap, nes ++ [ne], ?_⟩
    exact run_append_eq_some.mpr ⟨n, hr, run_cons_eq_some.mpr ⟨n', hne, rfl⟩⟩

theorem numbered_step {s s' : State} {e : Event} (hs : s.page.net.Numbered)
    (h : step s e = some s') : s'.page.net.Numbered :=
  net_invariant (fun pos _ => Net.numbered_init pos)
    (fun _ hn hne => Net.numbered_step hn hne) h hs

/-! ## Invariants -/

structure Wf (s : State) : Prop where
  x : s.page.started = true → s.page.x = true
  stamped : s.page.net.Stamped

theorem wf_init {now : Nat} (now_pos : 0 < now) {maxPackets : Nat}
    (pos : 0 < maxPackets) (hidden : Bool) :
    Wf (init now now_pos maxPackets pos hidden) := ⟨nofun, Iff.rfl⟩

theorem x_step {s s' : State} {e : Event} (hs : s.page.started = true → s.page.x = true)
    (h : step s e = some s') : s'.page.started = true → s'.page.x = true := by
  cases acts_of_step h with
  | elapse => exact hs
  | load => exact nofun
  | createClient hx => exact fun _ => rfl
  | @start threw hx hstarted => cases threw <;> exact fun _ => hx
  | net he hnet => exact hs
  | aside h hr =>
      rw [h.started, h.x]
      exact hs
  | begun h hb =>
      rw [hb.page]
      exact fun _ => hb.x
  | finished h =>
      rw [h.page]
      exact hs

theorem wf_step {s s' : State} {e : Event} (hwf : Wf s)
    (h : step s e = some s') : Wf s' :=
  ⟨x_step hwf.x h, net_invariant (fun _ _ => Iff.rfl)
    (fun hnow hn hne => Net.stamped_step hn hnow hne) h hwf.stamped⟩

/-- Only a load ends a game. -/
theorem started_step {s s' : State} {e : Event} (hs : s.page.started = true)
    (he : ∀ hidden, e ≠ .load hidden) (h : step s e = some s') :
    s'.page.started = true := by
  cases acts_of_step h with
  | elapse => exact hs
  | load => exact absurd rfl (he _)
  | createClient hx => exact hs
  | @start threw hx hstarted => cases threw <;> rfl
  | net he hnet => exact hs
  | aside h hr => exact h.started.trans hs
  | begun h hb =>
      rw [hb.page]
      exact hb.started
  | finished h =>
      rw [h.page]
      exact hs

/-- `rejoinInFlight` is set exactly while one rejoin timer is pending, which
is then due within the delay. -/
structure Guard (s : State) : Prop where
  idle : s.page.rejoinInFlight = false → s.page.rejoinTimers = []
  flight : s.page.rejoinInFlight = true →
    ∃ due, s.page.rejoinTimers = [due] ∧ due ≤ s.now + rejoinDelay

theorem guard_init {now : Nat} (now_pos : 0 < now) {maxPackets : Nat}
    (pos : 0 < maxPackets) (hidden : Bool) :
    Guard (init now now_pos maxPackets pos hidden) := ⟨fun _ => rfl, nofun⟩

/-- A pending timer is the only one. -/
theorem Guard.timer {s : State} (hg : Guard s) {i due : Nat}
    (hi : s.page.rejoinTimers[i]? = some due) :
    s.page.rejoinInFlight = true ∧ i = 0 ∧ s.page.rejoinTimers = [due]
      ∧ due ≤ s.now + rejoinDelay := by
  cases hf : s.page.rejoinInFlight with
  | false =>
      rw [hg.idle hf] at hi
      cases hi
  | true =>
      obtain ⟨due', htimers, hdue⟩ := hg.flight hf
      rw [htimers] at hi
      cases i with
      | zero =>
          obtain rfl := Option.some.inj hi
          exact ⟨rfl, rfl, htimers, hdue⟩
      | succ i => cases hi

theorem guard_step {s s' : State} {e : Event} (hg : Guard s)
    (h : step s e = some s') : Guard s' := by
  cases acts_of_step h with
  | elapse =>
      refine ⟨hg.idle, fun hf => ?_⟩
      obtain ⟨due, htimers, hdue⟩ := hg.flight hf
      refine ⟨due, htimers, ?_⟩
      dsimp only
      omega
  | load => exact ⟨fun _ => rfl, nofun⟩
  | createClient hx => exact ⟨hg.idle, hg.flight⟩
  | @start threw hx hs => cases threw <;> exact ⟨hg.idle, hg.flight⟩
  | net he hnet => exact ⟨hg.idle, hg.flight⟩
  | aside h hr =>
      refine ⟨?_, ?_⟩
      · rw [h.rejoinInFlight, h.rejoinTimers]
        exact hg.idle
      · rw [h.rejoinInFlight, h.rejoinTimers, h.now]
        exact hg.flight
  | @begun _ u s' note h hb =>
      have hnil : u.page.rejoinTimers = [] := by
        rw [h.rejoinTimers]
        exact hg.idle (h.rejoinInFlight.symm.trans hb.idle)
      have hdue : u.now + rejoinDelay = s'.now + rejoinDelay := by rw [hb.now]
      refine ⟨?_, fun _ => ⟨u.now + rejoinDelay, ?_, Nat.le_of_eq hdue⟩⟩
      · rw [hb.page]
        exact nofun
      · rw [hb.page, hnil]
        rfl
  | finished h =>
      obtain ⟨due, hi, -⟩ := h.due
      obtain ⟨-, rfl, htimers, -⟩ := hg.timer hi
      refine ⟨fun _ => ?_, ?_⟩
      · rw [h.page, htimers]
        rfl
      · rw [h.page]
        exact nofun

/-- What every page has, from its load on. -/
structure Sound (s : State) : Prop where
  wf : Wf s
  guard : Guard s
  numbered : s.page.net.Numbered

theorem sound_step {s s' : State} {e : Event} (hs : Sound s)
    (h : step s e = some s') : Sound s' :=
  ⟨wf_step hs.wf h, guard_step hs.guard h, numbered_step hs.numbered h⟩

theorem sound_init {now : Nat} (now_pos : 0 < now) {maxPackets : Nat}
    (pos : 0 < maxPackets) (hidden : Bool) :
    Sound (init now now_pos maxPackets pos hidden) :=
  ⟨wf_init now_pos pos hidden, guard_init now_pos pos hidden, Net.numbered_init pos⟩

theorem sound_run {now maxPackets : Nat} (now_pos : 0 < now) (pos : 0 < maxPackets)
    (hidden : Bool) {es : List Event} {s : State}
    (h : run step (init now now_pos maxPackets pos hidden) es = some s) : Sound s :=
  run_invariant (I := Sound) sound_step h (sound_init now_pos pos hidden)

end Tab

end XashProxy
