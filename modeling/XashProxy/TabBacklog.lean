import XashProxy.TabActs

/-!
# The backlog of a watched page

The watchdog looks at the backlog every two seconds and rejoins at 80 % of
the capacity; a rejoin empties the queue twice, 300 ms apart. What arrives
between two ticks therefore fits into the remaining 20 %, also around a tick
whose own call of `rejoin()` is refused: `no_overflow`.

A drop cannot be undone, and nothing reacts to it. But the queue is full
then, and the next tick that looks at it finds it over the watermark unless a
rejoin was faster: `drop_repaired`.
-/

namespace XashProxy

namespace Tab

open Lts

/-! ## The watermark -/

/-- The least backlog the watchdog acts on, 0.8 of the capacity rounded up. -/
def highWatermark (capacity : Nat) : Nat := (capacity * 4 + 4) / 5

/-- What fits into the queue beyond the watermark. -/
def headroom (capacity : Nat) : Nat := capacity - highWatermark capacity

theorem highWatermark_le_iff {capacity backlog : Nat} :
    highWatermark capacity ≤ backlog ↔ capacity * 4 ≤ backlog * 5 := by
  unfold highWatermark
  omega

theorem highWatermark_pos {capacity : Nat} (pos : 0 < capacity) :
    0 < highWatermark capacity := by
  unfold highWatermark
  omega

theorem highWatermark_add_headroom (capacity : Nat) :
    highWatermark capacity + headroom capacity = capacity := by
  unfold headroom highWatermark
  omega

/-- Two intervals' worth of packets stay below the watermark. -/
theorem two_headroom_lt {capacity : Nat} (pos : 0 < capacity) :
    headroom capacity + headroom capacity < highWatermark capacity := by
  unfold headroom highWatermark
  omega

/-! ## The tick -/

/-- The tick has begun a rejoin, or it leaves the queue alone: it is below the
watermark then, or a rejoin is already in flight. -/
theorem tick_relieves {s : State} (hsound : Sound s) (hs : s.page.started = true)
    (hv : s.page.hidden = false) (throws : Bool) :
    (∃ u note, Aside s u note ∧ Begun u (tick s throws).2 throws)
    ∨ ((∃ note, Aside s (tick s throws).2 note)
      ∧ (s.page.net.netBacklog < highWatermark s.page.net.netCapacity
        ∨ s.page.rejoinInFlight = true)) := by
  have hpos : 0 < s.page.net.netCapacity := s.page.net.incoming.pos
  -- a refused rejoin is one in flight
  have hcall : ∀ u note, Aside s u note → Begun u (rejoin u throws) throws
      ∨ (s.page.rejoinInFlight = true ∧ rejoin u throws = u) := by
    intro u note hu
    rcases rejoin_cases u throws with ⟨hr, heq⟩ | hb
    · rcases hu.refuses hr with hf | hx | hns
      · exact Or.inr ⟨hf, heq⟩
      · cases (hsound.wf.x hs).symm.trans hx
      · cases hs.symm.trans hns
    · exact Or.inl hb
  rcases tick_cases s throws with ⟨hidle, heq⟩ | ⟨-, u, hu, heq⟩ | ⟨hlow, u, note, -, hu, heq⟩
  · refine Or.inr ⟨⟨none, heq.symm ▸ aside_page s ..⟩, Or.inl ?_⟩
    have hzero : s.page.net.lastPacketAt = 0 := by
      rcases hidle with hns | hx | hh | hzero
      · cases hs.symm.trans hns
      · cases (hsound.wf.x hs).symm.trans hx
      · cases hv.symm.trans hh
      · exact hzero
    rw [hsound.numbered.netBacklog_eq_zero (hsound.wf.stamped.mp hzero)]
    exact highWatermark_pos hpos
  · rw [heq]
    rcases hcall u none hu with hb | ⟨hf, hsame⟩
    · exact Or.inl ⟨u, none, hu, hb⟩
    · rw [hsame]
      exact Or.inr ⟨⟨none, hu⟩, Or.inr hf⟩
  · have hlow' : s.page.net.netBacklog < highWatermark s.page.net.netCapacity := by
      rw [← Nat.not_le, highWatermark_le_iff]
      exact Nat.not_le.mpr hlow
    rcases heq with heq | heq
    · rw [heq]
      exact Or.inr ⟨⟨note, hu⟩, Or.inl hlow'⟩
    · rw [heq]
      rcases hcall u note hu with hb | ⟨-, hsame⟩
      · exact Or.inl ⟨u, note, hu, hb⟩
      · rw [hsame]
        exact Or.inr ⟨⟨note, hu⟩, Or.inl hlow'⟩

/-! ## Schedules -/

/-- The event hands a packet to `enqueueIncoming`. -/
def Event.feeds : Event → Bool
  | .message (.blob _) => false
  | .message _ | .converted _ => true
  | _ => false

theorem feeds_of_net {e : Event} {ne : Net.Event} {now : Nat}
    (h : e.net now = some ne) : ne.feeds = e.feeds := by
  cases e with
  | message data =>
      obtain rfl := Option.some.inj h
      cases data <;> rfl
  | converted i =>
      obtain rfl := Option.some.inj h
      rfl
  | dequeue =>
      obtain rfl := Option.some.inj h
      rfl
  | _ => cases h

/-- The number of the next tick, and the packets that arrived since the last
one. -/
structure Interval where
  tick : Nat
  arrived : Nat
deriving DecidableEq, Repr

def observeInterval (_ : State) (e : Event) (i : Interval) : Interval :=
  match e with
  | .tick _ => ⟨i.tick + 1, 0⟩
  | e => { i with arrived := i.arrived + if e.feeds then 1 else 0 }

/-- A visible page on which the `n`-th tick is due at `due n`, done before the
next one is due, and never ahead of a rejoin timer that was due before it;
`netClear` works, and no more packets arrive between two ticks than the
watermark leaves room for. -/
structure Scheduled (due : Nat → Nat) (r : State × Interval) (e : Event) : Prop where
  visible : r.1.page.hidden = false
  noLoad : ∀ hidden, e ≠ .load hidden
  clears : e.clearThrows = false
  tick : ∀ throws, e = .tick throws → due r.2.tick ≤ r.1.now
    ∧ r.1.now < due (r.2.tick + 1) ∧ ∀ d ∈ r.1.page.rejoinTimers, due r.2.tick ≤ d
  rate : e.feeds = true → r.2.arrived < headroom r.1.page.net.netCapacity

/-- The bound that a schedule keeps. A rejoin in flight has emptied the queue
in this interval, or in the last one but too late to end before the tick. -/
structure Bounded (due : Nat → Nat) (s : State) (i : Interval) : Prop where
  arrived : i.arrived ≤ headroom s.page.net.netCapacity
  backlog : s.page.net.netBacklog
    < highWatermark s.page.net.netCapacity + i.arrived
  flight : ∀ d ∈ s.page.rejoinTimers, s.page.net.netBacklog ≤ i.arrived
    ∨ (s.page.net.netBacklog ≤ headroom s.page.net.netCapacity + i.arrived
      ∧ d < due i.tick + rejoinDelay)
    ∨ d < due i.tick

/-- A cleared queue is within the bound. -/
theorem bounded_of_empty {due : Nat → Nat} {s : State} {i : Interval}
    (harr : i.arrived ≤ headroom s.page.net.netCapacity)
    (hempty : s.page.net.netBacklog = 0) : Bounded due s i := by
  refine ⟨harr, ?_, fun d _ => Or.inl ?_⟩
  · have := highWatermark_pos s.page.net.incoming.pos
    have : 0 < highWatermark s.page.net.netCapacity := this
    omega
  · omega

/-- Between the ticks the queue grows by what arrives. -/
theorem Bounded.grow {due : Nat → Nat} {s s' : State} {i : Interval} {k : Nat}
    (hb : Bounded due s i) (hcap : s'.page.net.netCapacity = s.page.net.netCapacity)
    (hgrow : s'.page.net.netBacklog ≤ s.page.net.netBacklog + k)
    (htimers : s'.page.rejoinTimers = s.page.rejoinTimers)
    (hrate : i.arrived + k ≤ headroom s.page.net.netCapacity) :
    Bounded due s' { i with arrived := i.arrived + k } := by
  have hlow := hb.backlog
  refine ⟨?_, ?_, fun d hd => ?_⟩
  · rw [hcap]
    exact hrate
  · rw [hcap]
    dsimp only
    omega
  · rw [htimers] at hd
    have := hb.flight d hd
    rw [hcap]
    dsimp only
    omega

theorem Begun.emptied {s s' : State} (h : Begun s s' false) :
    s'.page.net.netBacklog = 0 ∧ s'.page.net.netCapacity = s.page.net.netCapacity := by
  rw [h.net]
  exact ⟨rfl, rfl⟩

theorem Finished.emptied {s s' : State} {i : Nat} (h : Finished s s' i false) :
    s'.page.net.netBacklog = 0 ∧ s'.page.net.netCapacity = s.page.net.netCapacity := by
  rw [h.net]
  exact ⟨rfl, rfl⟩

/-- A tick starts the next interval below the watermark. -/
theorem bounded_tick {due : Nat → Nat} (hdue : ∀ n, due n + 2000 ≤ due (n + 1))
    {s : State} {i : Interval} (hsound : Sound s) (hs : s.page.started = true)
    (hb : Bounded due s i) (hG : Scheduled due (s, i) (.tick false)) :
    Bounded due (tick s false).2 ⟨i.tick + 1, 0⟩ := by
  obtain ⟨hfired, hnext, hpending⟩ := hG.tick false rfl
  rcases tick_relieves hsound hs hG.visible false with
    ⟨u, note, hu, hbegun⟩ | ⟨⟨note, ha⟩, hlow⟩
  · exact bounded_of_empty (Nat.zero_le _) hbegun.emptied.1
  · have hcap : 0 < s.page.net.netCapacity := s.page.net.incoming.pos
    have htwo := two_headroom_lt hcap
    have harr := hb.arrived
    have hlater := hdue i.tick
    -- what is in flight at the tick has cleared the queue not long ago
    have hflight : ∀ d ∈ s.page.rejoinTimers,
        s.page.net.netBacklog < highWatermark s.page.net.netCapacity
        ∧ ((s.page.net.netBacklog ≤ headroom s.page.net.netCapacity
            ∧ d < due (i.tick + 1) + rejoinDelay) ∨ d < due (i.tick + 1)) := by
      intro d hd
      have hge := hpending d hd
      obtain ⟨j, hj⟩ := List.getElem?_of_mem hd
      have hnow := (hsound.guard.timer hj).2.2.2
      have := hb.flight d hd
      unfold rejoinDelay at *
      dsimp only at *
      omega
    refine ⟨Nat.zero_le _, ?_, ?_⟩
    · rw [ha.net]
      rcases hlow with hlow | hf
      · exact hlow
      · obtain ⟨d, htimers, -⟩ := hsound.guard.flight hf
        exact (hflight d (by simp [htimers])).1
    · rw [ha.rejoinTimers, ha.net]
      intro d hd
      exact Or.inr ((hflight d hd).2)

theorem bounded_step {due : Nat → Nat} (hdue : ∀ n, due n + 2000 ≤ due (n + 1))
    {s s' : State} {i : Interval} {e : Event} (hsound : Sound s)
    (hs : s.page.started = true) (hb : Bounded due s i) (hG : Scheduled due (s, i) e)
    (h : step s e = some s') :
    Bounded due s' (observeInterval s e i) := by
  by_cases htick : ∃ throws, e = .tick throws
  · obtain ⟨throws, rfl⟩ := htick
    obtain rfl : throws = false := hG.clears
    obtain rfl := Option.some.inj h
    exact bounded_tick hdue hsound hs hb hG
  · have hobs : observeInterval s e i
        = { i with arrived := i.arrived + if e.feeds then 1 else 0 } := by
      cases e with
      | tick throws => exact absurd ⟨throws, rfl⟩ htick
      | _ => rfl
    have hrate : i.arrived + (if e.feeds then 1 else 0)
        ≤ headroom s.page.net.netCapacity := by
      have harr := hb.arrived
      split
      · exact hG.rate ‹_›
      · exact harr
    rw [hobs]
    have hsame := Nat.le_add_right s.page.net.netBacklog (if e.feeds then 1 else 0)
    cases acts_of_step h with
    | elapse => exact hb.grow rfl hsame rfl hrate
    | load => exact absurd rfl (hG.noLoad _)
    | createClient hx => exact hb.grow rfl hsame rfl hrate
    | @start threw hx hns => cases threw <;> exact hb.grow rfl hsame rfl hrate
    | net he hnet =>
        have hgrow := Net.netBacklog_step_le hnet
        rw [feeds_of_net he] at hgrow
        exact hb.grow (Net.netCapacity_step hnet) hgrow rfl hrate
    | aside h hr =>
        refine hb.grow ?_ ?_ h.rejoinTimers hrate
        · rw [h.net]
        · rw [h.net]
          exact hsame
    | begun h hbegun =>
        rw [hG.clears] at hbegun
        obtain ⟨hempty, hcap⟩ := hbegun.emptied
        refine bounded_of_empty ?_ hempty
        rw [hcap, h.net]
        exact hrate
    | finished h =>
        obtain rfl := hG.clears
        obtain ⟨hempty, hcap⟩ := h.emptied
        refine bounded_of_empty ?_ hempty
        rw [hcap]
        exact hrate

/-- A packet never finds the queue full. -/
theorem Bounded.not_full {due : Nat → Nat} {s : State} {i : Interval} {e : Event}
    (hb : Bounded due s i) (hG : Scheduled due (s, i) e) (hf : e.feeds = true) :
    s.page.net.incoming.isFull = false := by
  rw [← Bool.not_eq_true, RollingBuffer.isFull_iff]
  intro hfull
  have hfull' : s.page.net.netBacklog = s.page.net.netCapacity := hfull
  have hrate := hG.rate hf
  have hlow := hb.backlog
  have hsum := highWatermark_add_headroom s.page.net.netCapacity
  dsimp only at hrate
  omega

theorem overflowDrops_cleared (n : Net) (throws : Bool) :
    (cleared n throws).overflowDrops = n.overflowDrops := by
  cases throws <;> rfl

/-- Only a load and an event of the queue change the count of drops. -/
theorem overflowDrops_cases {s s' : State} {e : Event} (h : step s e = some s') :
    (∃ hidden, e = .load hidden ∧ s'.page.net.overflowDrops = 0)
    ∨ s'.page.net.overflowDrops = s.page.net.overflowDrops
    ∨ ∃ ne, e.net s.now = some ne ∧ Net.step s.page.net ne = some s'.page.net := by
  cases acts_of_step h with
  | elapse => exact Or.inr (Or.inl rfl)
  | load => exact Or.inl ⟨_, rfl, rfl⟩
  | createClient hx => exact Or.inr (Or.inl rfl)
  | @start threw hx hs => cases threw <;> exact Or.inr (Or.inl rfl)
  | net he hnet => exact Or.inr (Or.inr ⟨_, he, hnet⟩)
  | aside h hr => exact Or.inr (Or.inl (by rw [h.net]))
  | begun h hb =>
      refine Or.inr (Or.inl ?_)
      rw [hb.net, h.net]
      exact overflowDrops_cleared ..
  | finished h =>
      refine Or.inr (Or.inl ?_)
      rw [h.net]
      exact overflowDrops_cleared ..

/-- Nothing is dropped in a step that finds room. -/
theorem overflowDrops_step {s s' : State} {e : Event} (hl : ∀ hidden, e ≠ .load hidden)
    (hroom : e.feeds = true → s.page.net.incoming.isFull = false)
    (h : step s e = some s') : s'.page.net.overflowDrops = s.page.net.overflowDrops := by
  rcases overflowDrops_cases h with ⟨hidden, he, -⟩ | hsame | ⟨ne, he, hnet⟩
  · exact absurd he (hl hidden)
  · exact hsame
  · cases hf : ne.feeds with
    | false => exact (Net.step_of_not_feeds hnet hf).1
    | true =>
        have hfull := hroom (feeds_of_net he ▸ hf)
        have hdrops := (Net.step_of_feeds hnet hf).2
        rw [hfull] at hdrops
        exact hdrops

/-- On a started page whose queue is empty, in every schedule that lets no
more packets arrive between two ticks than the watermark leaves room for, no
packet finds the queue full and the count of drops never changes. -/
theorem no_overflow {now maxPackets : Nat} (now_pos : 0 < now) (pos : 0 < maxPackets)
    (hidden : Bool) {es₀ : List Event} {s : State}
    (h₀ : run step (init now now_pos maxPackets pos hidden) es₀ = some s)
    (hs : s.page.started = true) (hempty : s.page.net.netBacklog = 0)
    (due : Nat → Nat) (hdue : ∀ n, due n + 2000 ≤ due (n + 1)) {es : List Event}
    (hes : EachStep (recorded step observeInterval) (Scheduled due) (s, ⟨0, 0⟩) es) :
    Always (recorded step observeInterval)
        (fun r => r.1.page.net.overflowDrops = s.page.net.overflowDrops) (s, ⟨0, 0⟩) es
      ∧ EachStep (recorded step observeInterval)
        (fun r e => e.feeds = true → r.1.page.net.incoming.isFull = false)
        (s, ⟨0, 0⟩) es := by
  let I : State × Interval → Prop := fun r => Sound r.1 ∧ r.1.page.started = true
    ∧ Bounded due r.1 r.2 ∧ r.1.page.net.overflowDrops = s.page.net.overflowDrops
  have hI : I (s, ⟨0, 0⟩) := by
    exact ⟨sound_run now_pos pos hidden h₀, hs,
      bounded_of_empty (Nat.zero_le _) hempty, rfl⟩
  have hstep : ∀ {r e r'}, I r → Scheduled due r e →
      recorded step observeInterval r e = some r' → I r' := by
    rintro ⟨u, i⟩ e ⟨u', i'⟩ ⟨hsound, hstarted, hb, hdrops⟩ hG he
    obtain ⟨hu, rfl⟩ := recorded_eq_some.mp he
    exact ⟨sound_step hsound hu, started_step hstarted hG.noLoad hu,
      bounded_step hdue hsound hstarted hb hG hu,
      (overflowDrops_step hG.noLoad (hb.not_full hG) hu).trans hdrops⟩
  exact ⟨.of_invariant (fun hI => hI.2.2.2) hstep hes hI,
    .of_invariant (fun hI hG _ => hI.2.2.1.not_full hG) hstep hes hI⟩

/-- Two packets before each of the ticks of a page with room for ten. -/
theorem no_overflow_ten :
    ∃ s, run step (init 1 (by decide) 10 (by decide) false)
        [.createClient, .start false] = some s
      ∧ Always (recorded step observeInterval)
          (fun r => r.1.page.net.overflowDrops = s.page.net.overflowDrops) (s, ⟨0, 0⟩)
          [.message (.arrayBuffer [1]), .message (.arrayBuffer [2]), .elapse 2000,
            .tick false, .message (.arrayBuffer [3]), .message (.arrayBuffer [4])] := by
  refine ⟨_, rfl, (@no_overflow 1 10 (by decide) (by decide) false
    [.createClient, .start false] _ rfl rfl rfl (fun n => 2000 * (n + 1))
    (fun n => by omega) _ ?_).1⟩
  refine (eachStep_cons_iff rfl).mpr ⟨⟨rfl, nofun, rfl, nofun, by decide⟩, ?_⟩
  refine (eachStep_cons_iff rfl).mpr ⟨⟨rfl, nofun, rfl, nofun, by decide⟩, ?_⟩
  refine (eachStep_cons_iff rfl).mpr ⟨⟨rfl, nofun, rfl, nofun, nofun⟩, ?_⟩
  refine (eachStep_cons_iff rfl).mpr ⟨⟨rfl, nofun, rfl, ?_, nofun⟩, ?_⟩
  · exact fun _ _ => ⟨by decide, by decide, nofun⟩
  · refine (eachStep_cons_iff rfl).mpr ⟨⟨rfl, nofun, rfl, nofun, by decide⟩, ?_⟩
    exact (eachStep_cons_iff rfl).mpr ⟨⟨rfl, nofun, rfl, nofun, by decide⟩, trivial⟩

/-! ## Repair -/

/-- Since the log was `log`, a rejoin has cleared the queue and connected, or
one is in flight: its timer is pending and due within the delay. -/
def Repaired (log : List Act) (s : State) : Prop :=
  ∃ acts, s.log = log ++ acts
    ∧ ((s.page.rejoinInFlight = true
        ∧ ∃ due, s.page.rejoinTimers = [due] ∧ due ≤ s.now + rejoinDelay)
      ∨ [.netClear, .connect] <:+: acts)

/-- Since the log was `log`, a rejoin was begun or is over, or the queue has lost
no more than `taken` packets since it was full. -/
def Repairable (log : List Act) (taken : Nat) (s : State) : Prop :=
  ∃ acts, s.log = log ++ acts
    ∧ (s.page.rejoinInFlight = true ∨ [.netClear, .connect] <:+: acts
      ∨ s.page.net.netCapacity ≤ s.page.net.netBacklog + taken)

theorem repairable_step {log : List Act} {taken : Nat} {s s' : State} {e : Event}
    (hr : Repairable log taken s) (hl : ∀ hidden, e ≠ .load hidden)
    (h : step s e = some s') :
    Repairable log (taken + if e = .dequeue then 1 else 0) s' := by
  obtain ⟨acts, hlog, hr⟩ := hr
  have hfewer : s.page.net.netCapacity ≤ s.page.net.netBacklog + taken →
      s.page.net.netCapacity
        ≤ s.page.net.netBacklog + (taken + if e = .dequeue then 1 else 0) :=
    fun hle => Nat.le_trans hle (by omega)
  cases acts_of_step h with
  | elapse => exact ⟨acts, hlog, hr.imp_right (Or.imp_right hfewer)⟩
  | load => exact absurd rfl (hl _)
  | createClient hx => exact ⟨acts, hlog, hr.imp_right (Or.imp_right hfewer)⟩
  | @start threw hx hs =>
      cases threw with
      | true => exact ⟨acts, hlog, hr.imp_right (Or.imp_right hfewer)⟩
      | false =>
          refine ⟨acts ++ [.connect], ?_, ?_⟩
          · rw [← List.append_assoc, ← hlog]
            rfl
          · exact hr.imp_right (Or.imp (·.trans (List.infix_append' [] ..)) hfewer)
  | @net _ ne net he hnet =>
      refine ⟨acts, hlog, hr.imp_right (Or.imp_right fun hle => ?_)⟩
      have hne : ne ≠ .clear := by
        rintro rfl
        cases e <;> cases he
      have hback := Net.netBacklog_le_step hnet hne
      have hdeq : (ne = .dequeue) ↔ e = .dequeue := by
        cases e <;> cases he <;> simp
      simp only [hdeq] at hback
      dsimp only
      rw [Net.netCapacity_step hnet]
      omega
  | @aside _ _ note h hr' =>
      refine ⟨acts ++ note.toList, ?_, ?_⟩
      · rw [← List.append_assoc, ← hlog]
        exact h.log
      · rw [h.rejoinInFlight, h.net]
        exact hr.imp_right (Or.imp (·.trans (List.infix_append' [] ..)) hfewer)
  | @begun _ u _ note h hb =>
      refine ⟨acts ++ note.toList ++ [.netClear, .disconnect], ?_, Or.inl ?_⟩
      · rw [hb.log, h.log, hlog]
        simp only [List.append_assoc]
      · rw [hb.page]
  | finished h =>
      refine ⟨acts ++ [.netClear, .connect], ?_, Or.inr (Or.inl ?_)⟩
      · rw [← List.append_assoc, ← hlog]
        exact h.log
      · exact List.infix_append' ..

theorem repairable_run {log : List Act} {taken : Nat} {s t : State} {es : List Event}
    (hr : Repairable log taken s) (hl : ∀ hidden, .load hidden ∉ es)
    (h : run step s es = some t) :
    Repairable log (taken + es.count .dequeue) t := by
  induction es generalizing s taken with
  | nil =>
      obtain rfl := Option.some.inj h
      exact hr
  | cons e es ih =>
      obtain ⟨s', he, hrun⟩ := run_cons_eq_some.mp h
      have hl' : ∀ hidden, e ≠ .load hidden := by
        rintro hidden rfl
        exact hl hidden (List.mem_cons_self ..)
      have hcount : taken + (e :: es).count .dequeue
          = taken + (if e = .dequeue then 1 else 0) + es.count .dequeue := by
        rw [List.count_cons]
        simp only [beq_iff_eq]
        omega
      rw [hcount]
      exact ih (repairable_step hr hl' he)
        (fun hidden hmem => hl hidden (List.mem_cons_of_mem _ hmem)) hrun

/-- A drop leaves the queue full, and is not a load. -/
theorem full_of_drop {s s' : State} {e : Event} (h : step s e = some s')
    (hdrop : s.page.net.overflowDrops < s'.page.net.overflowDrops) :
    s'.page.net.netBacklog = s'.page.net.netCapacity ∧ ∀ hidden, e ≠ .load hidden := by
  rcases overflowDrops_cases h with ⟨-, -, hzero⟩ | hsame | ⟨ne, he, hnet⟩
  · omega
  · omega
  · refine ⟨Net.full_of_drop hnet hdrop, ?_⟩
    rintro hidden rfl
    cases he

/-- Whenever a packet is dropped on a started page, a rejoin has cleared the
queue and connected since, or its timer is pending, at the end of any later tick
of the same page that runs while it is visible and before which the engine has
taken at most 20 % of the capacity. -/
theorem drop_repaired {now maxPackets : Nat} (now_pos : 0 < now) (pos : 0 < maxPackets)
    (hidden : Bool) {es₀ : List Event} {s : State}
    (h₀ : run step (init now now_pos maxPackets pos hidden) es₀ = some s)
    (hs : s.page.started = true) {e : Event} {s' : State} (h : step s e = some s')
    (hdrop : s.page.net.overflowDrops < s'.page.net.overflowDrops)
    {es : List Event} {t : State} (hes : run step s' es = some t)
    (hload : ∀ hidden, .load hidden ∉ es)
    (hdequeues : es.count .dequeue * 5 ≤ t.page.net.netCapacity)
    (hvisible : t.page.hidden = false) {throws : Bool} {t' : State}
    (ht : step t (.tick throws) = some t') : Repaired s'.log t' := by
  obtain ⟨hfull, hl⟩ := full_of_drop h hdrop
  have hstarted : t.page.started = true := by
    refine run_invariant_of_mem (I := fun s => s.page.started = true) ?_ hes
      (started_step hs hl h)
    intro u e u' hmem hu he
    exact started_step hu (fun hidden heq => hload hidden (heq ▸ hmem)) he
  have hsound : Sound t := sound_run now_pos pos hidden
    (run_append_eq_some.mpr ⟨s, h₀, run_cons_eq_some.mpr ⟨s', h, hes⟩⟩)
  have hr : Repairable s'.log 0 s' :=
    ⟨[], (List.append_nil _).symm, Or.inr (Or.inr (Nat.le_of_eq hfull.symm))⟩
  obtain ⟨acts, hlog, hr⟩ := repairable_run hr hload hes
  have hflight := (guard_step hsound.guard ht).flight
  obtain rfl := Option.some.inj ht
  rcases tick_relieves hsound hstarted hvisible throws with
    ⟨u, note, hu, hb⟩ | ⟨⟨note, ha⟩, hlow⟩
  · have hbegun : (tick t throws).2.page.rejoinInFlight = true := by rw [hb.page]
    refine ⟨acts ++ note.toList ++ [.netClear, .disconnect], ?_, Or.inl ⟨hbegun, hflight hbegun⟩⟩
    rw [hb.log, hu.log, hlog]
    simp only [List.append_assoc]
  · have hkept : t.page.rejoinInFlight = true →
        (tick t throws).2.page.rejoinInFlight = true := ha.rejoinInFlight.trans
    refine ⟨acts ++ note.toList, ?_, ?_⟩
    · rw [ha.log, hlog, List.append_assoc]
    · rcases hr with hf | hacts | hle
      · exact Or.inl ⟨hkept hf, hflight (hkept hf)⟩
      · exact Or.inr (hacts.trans (List.infix_append' [] ..))
      · have hf := hkept (hlow.resolve_left (Nat.not_lt.mpr (by
          rw [highWatermark_le_iff]
          omega)))
        exact Or.inl ⟨hf, hflight hf⟩

/-- Three packets for a queue with room for two, while the tab is hidden. The
first tick after it is visible again finds the queue full. -/
theorem drop_repaired_two :
    ∃ s s' t t', run step (init 1 (by decide) 2 (by decide) false)
        [.createClient, .start false, .hide, .message (.arrayBuffer [1]),
          .message (.arrayBuffer [2])] = some s
      ∧ step s (.message (.arrayBuffer [3])) = some s'
      ∧ run step s' [.elapse 1000, .unhide false] = some t
      ∧ step t (.tick false) = some t' ∧ Repaired s'.log t' := by
  obtain ⟨s, h₀, hs, s', h, hdrop, t, hes, hcap, hv, t', ht⟩ : ∃ s,
      run step (init 1 (by decide) 2 (by decide) false)
        [.createClient, .start false, .hide, .message (.arrayBuffer [1]),
          .message (.arrayBuffer [2])] = some s
      ∧ s.page.started = true
      ∧ ∃ s', step s (.message (.arrayBuffer [3])) = some s'
      ∧ s.page.net.overflowDrops < s'.page.net.overflowDrops
      ∧ ∃ t, run step s' [.elapse 1000, .unhide false] = some t
      ∧ t.page.net.netCapacity = 2 ∧ t.page.hidden = false
      ∧ ∃ t', step t (.tick false) = some t' :=
    ⟨_, rfl, rfl, _, rfl, by decide, _, rfl, rfl, rfl, _, rfl⟩
  refine ⟨s, s', t, t', h₀, h, hes, ht,
    drop_repaired _ _ _ h₀ hs h hdrop hes (by simp) ?_ hv ht⟩
  rw [hcap]
  decide

end Tab

end XashProxy
