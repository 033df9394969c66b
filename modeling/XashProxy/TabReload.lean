import XashProxy.TabWatchdog

/-!
# The reload

`stallCount` counts the ticks that find the stream stalled, and the tick that
makes it `REJOIN_ATTEMPTS_BEFORE_RELOAD` does not rejoin: it reloads. Before a
reload there have been five rejoins at most, one fewer than the constant says.
What else the policy asks for holds on every run, across loads: the guard lets
one reload through, and the rejoins before it are consecutive.
-/

namespace XashProxy

namespace Tab

open Lts

/-! ## Attempts -/

/-- The tick gets as far as counting a stall. -/
structure Silent (s : State) : Prop where
  started : s.page.started = true
  x : s.page.x = true
  visible : s.page.hidden = false
  stamp : s.page.net.lastPacketAt ≠ 0
  backlog : s.page.net.netBacklog * 5 < s.page.net.netCapacity * 4
  silent : stallMs < s.now - s.page.net.lastPacketAt

instance (s : State) : Decidable (Silent s) :=
  decidable_of_iff (s.page.started = true ∧ s.page.x = true ∧ s.page.hidden = false
      ∧ s.page.net.lastPacketAt ≠ 0
      ∧ s.page.net.netBacklog * 5 < s.page.net.netCapacity * 4
      ∧ stallMs < s.now - s.page.net.lastPacketAt)
    ⟨fun ⟨h₁, h₂, h₃, h₄, h₅, h₆⟩ => ⟨h₁, h₂, h₃, h₄, h₅, h₆⟩,
      fun ⟨h₁, h₂, h₃, h₄, h₅, h₆⟩ => ⟨h₁, h₂, h₃, h₄, h₅, h₆⟩⟩

/-- What the watchdog has done about the silence of the tab's stream. -/
structure Attempts where
  /-- Stall rejoins begun since the last game packet, whatever was loaded since. -/
  rejoins : Nat
  /-- Their number at each reload. -/
  reloads : List Nat

/-- No packet yet, nothing tried. -/
def Attempts.none : Attempts := ⟨0, []⟩

def observeAttempts (s : State) (e : Event) (g : Attempts) : Attempts :=
  match e with
  | .message _ => { g with rejoins := 0 }
  | .tick clearThrows =>
      if Silent s then
        match (tick s clearThrows).1 with
        | some .rejoin =>
            if s.page.rejoinInFlight then g else { g with rejoins := g.rejoins + 1 }
        | some .reload => { g with reloads := g.reloads ++ [g.rejoins] }
        | _ => g
      else g
  | _ => g

/-- The documented policy: a single reload, and only after so many attempts. -/
structure ReloadPolicy (r : State × Attempts) : Prop where
  once : r.1.log.count .reload ≤ 1
  tried : ∀ n ∈ r.2.reloads, rejoinAttemptsBeforeReload ≤ n

/-- The stall counted next is the one that reloads. -/
structure ReloadDue (s : State) : Prop where
  silent : Silent s
  unused : s.watchStallReloaded = false
  count : rejoinAttemptsBeforeReload ≤ s.page.stallCount + 1

instance (s : State) : Decidable (ReloadDue s) :=
  decidable_of_iff (Silent s ∧ s.watchStallReloaded = false
      ∧ rejoinAttemptsBeforeReload ≤ s.page.stallCount + 1)
    ⟨fun ⟨h₁, h₂, h₃⟩ => ⟨h₁, h₂, h₃⟩,
      fun ⟨h₁, h₂, h₃⟩ => ⟨h₁, h₂, h₃⟩⟩

/-- The event is a tick that reloads. -/
def Reloads (s : State) : Event → Prop
  | .tick _ => ReloadDue s
  | _ => False

instance (s : State) : (e : Event) → Decidable (Reloads s e)
  | .tick _ => inferInstanceAs (Decidable (ReloadDue s))
  | .elapse _ | .load _ | .createClient | .start _ | .message _ | .converted _ | .dequeue
  | .hide | .unhide _ | .reconnected _ | .rejoinTimer .. => isFalse id

/-! ## What an event does to the count -/

/-- The stall count becomes `stallCount`, and nothing else that decides about
a reload is touched. -/
structure Keeps (s s' : State) (stallCount : Nat) : Prop where
  now : s.now ≤ s'.now
  guard : s'.watchStallReloaded = s.watchStallReloaded
  stallCount : s'.page.stallCount = stallCount
  stamp : s'.page.net.lastPacketAt = s.page.net.lastPacketAt
  reloads : s'.log.count .reload = s.log.count .reload

theorem Keeps.trans {s u s' : State} {m n : Nat} (h : Keeps s u m)
    (h' : Keeps u s' n) : Keeps s s' n where
  now := Nat.le_trans h.now h'.now
  guard := h'.guard.trans h.guard
  stallCount := h'.stallCount
  stamp := h'.stamp.trans h.stamp
  reloads := h'.reloads.trans h.reloads

theorem lastPacketAt_cleared (n : Net) (throws : Bool) :
    (cleared n throws).lastPacketAt = n.lastPacketAt := by
  cases throws <;> rfl

theorem Begun.keeps {s s' : State} {throws : Bool} (h : Begun s s' throws)
    (hg : s'.watchStallReloaded = s.watchStallReloaded) :
    Keeps s s' s.page.stallCount where
  now := Nat.le_of_eq h.now.symm
  guard := hg
  stallCount := by rw [h.page]
  stamp := by rw [h.net, lastPacketAt_cleared]
  reloads := by rw [h.log, List.count_append]; rfl

theorem guard_rejoin (s : State) (throws : Bool) :
    (rejoin s throws).watchStallReloaded = s.watchStallReloaded := by
  unfold rejoin
  split
  · rfl
  · cases throws <;> rfl

theorem keeps_refl (s : State) : Keeps s s s.page.stallCount :=
  ⟨Nat.le_refl _, rfl, rfl, rfl, rfl⟩

theorem keeps_rejoin (s : State) (throws : Bool) :
    Keeps s (rejoin s throws) s.page.stallCount := by
  rcases rejoin_cases s throws with ⟨-, heq⟩ | hb
  · rw [heq]
    exact keeps_refl s
  · exact hb.keeps (guard_rejoin s throws)

theorem keeps_finishRejoin (s : State) (throws : Bool) :
    Keeps s (finishRejoin s throws) s.page.stallCount := by
  cases throws with
  | false => exact ⟨Nat.le_refl _, rfl, rfl, rfl, by simp [finishRejoin, netClear, record]⟩
  | true => exact ⟨Nat.le_refl _, rfl, rfl, rfl, by simp [finishRejoin, netClear, record]⟩

/-- Everything but a load, a message and the tick. -/
theorem keeps_step {s s' : State} {e : Event} (h : step s e = some s')
    (hload : ∀ hidden, e ≠ .load hidden) (hmessage : ∀ data, e ≠ .message data)
    (htick : ∀ throws, e ≠ .tick throws) : Keeps s s' s.page.stallCount := by
  cases e with
  | elapse ms =>
      obtain rfl := Option.some.inj h
      exact ⟨Nat.le_add_right _ _, rfl, rfl, rfl, rfl⟩
  | load hidden => exact absurd rfl (hload hidden)
  | createClient =>
      simp only [step, Option.ite_none_left_eq_some] at h
      obtain rfl := Option.some.inj h.2
      exact ⟨Nat.le_refl _, rfl, rfl, rfl, rfl⟩
  | start threw =>
      simp only [step, Option.ite_none_right_eq_some] at h
      obtain rfl := Option.some.inj h.2
      cases threw with
      | false => exact ⟨Nat.le_refl _, rfl, rfl, rfl, by simp [start, record]⟩
      | true => exact ⟨Nat.le_refl _, rfl, rfl, rfl, rfl⟩
  | message data => exact absurd rfl (hmessage data)
  | converted i =>
      obtain ⟨net, hnet, rfl⟩ := Option.map_eq_some_iff.mp h
      have hstamp := Net.lastPacketAt_step (e := .converted i) hnet (by simp)
      exact ⟨Nat.le_refl _, rfl, rfl, hstamp, rfl⟩
  | dequeue =>
      simp only [step, Option.ite_none_right_eq_some] at h
      obtain ⟨net, hnet, rfl⟩ := Option.map_eq_some_iff.mp h.2
      have hstamp := Net.lastPacketAt_step (e := .dequeue) hnet (by simp)
      exact ⟨Nat.le_refl _, rfl, rfl, hstamp, rfl⟩
  | hide =>
      simp only [step, Option.ite_none_left_eq_some] at h
      obtain rfl := Option.some.inj h.2
      exact ⟨Nat.le_refl _, rfl, rfl, rfl, rfl⟩
  | unhide throws =>
      simp only [step, Option.ite_none_right_eq_some] at h
      obtain rfl := Option.some.inj h.2
      have hshown : Keeps s { s with page := { s.page with hidden := false } }
          s.page.stallCount := ⟨Nat.le_refl _, rfl, rfl, rfl, rfl⟩
      unfold onVisible
      dsimp only
      split
      · exact hshown.trans (keeps_rejoin _ throws)
      · exact hshown
  | reconnected throws =>
      simp only [step, Option.ite_none_right_eq_some] at h
      obtain rfl := Option.some.inj h.2
      have hnoted : Keeps s (record s .reconnected) s.page.stallCount :=
        ⟨Nat.le_refl _, rfl, rfl, rfl, by simp [record]⟩
      split
      · exact hnoted.trans (keeps_rejoin _ throws)
      · exact hnoted
  | rejoinTimer i throws =>
      simp only [step] at h
      split at h
      · rw [Option.ite_none_right_eq_some] at h
        obtain rfl := Option.some.inj h.2
        have hfired : Keeps s { s with page := { s.page with
            rejoinTimers := s.page.rejoinTimers.eraseIdx i } } s.page.stallCount :=
          ⟨Nat.le_refl _, rfl, rfl, rfl, rfl⟩
        exact hfired.trans (keeps_finishRejoin _ throws)
      · cases h
  | tick throws => exact absurd rfl (htick throws)

/-! ## The tick -/

/-- The state in which a counted stall is acted on. -/
def counted (s : State) : State :=
  { s with page := { s.page with stallCount := s.page.stallCount + 1 } }

theorem tick_of_silent {s : State} (h : Silent s) (throws : Bool) :
    tick s throws
      = (some (escalate (counted s) throws).1, (escalate (counted s) throws).2) := by
  unfold tick
  rw [if_neg (by simp [h.started, h.x, h.visible]), if_neg h.stamp,
    if_neg (Nat.not_le.mpr h.backlog), if_neg (Nat.not_le.mpr h.silent)]
  rfl

/-- A tick that counts no stall leaves the count, or finds the stream alive. -/
theorem keeps_tick_of_not_silent {s : State} (h : ¬ Silent s) (throws : Bool) :
    Keeps s (tick s throws).2 s.page.stallCount
      ∨ (s.now - s.page.net.lastPacketAt ≤ stallMs ∧ Keeps s (tick s throws).2 0) := by
  unfold tick
  split
  · exact Or.inl (keeps_refl s)
  · rename_i hon
    split
    · exact Or.inl (keeps_refl s)
    · rename_i hstamp
      split
      · have hbacklog : Keeps s { s with page := { s.page with
            backlogRejoins := s.page.backlogRejoins + 1 } } s.page.stallCount :=
          ⟨Nat.le_refl _, rfl, rfl, rfl, rfl⟩
        exact Or.inl (hbacklog.trans (keeps_rejoin _ throws))
      · rename_i hbacklog
        split
        · rename_i halive
          exact Or.inr ⟨halive, Nat.le_refl _, rfl, rfl, rfl, rfl⟩
        · rename_i hlate
          simp only [Bool.or_eq_true, Bool.not_eq_true', not_or, Bool.not_eq_true,
            Bool.not_eq_false] at hon
          obtain ⟨⟨hs, hx⟩, hv⟩ := hon
          exact absurd ⟨hs, hx, hv, hstamp, Nat.not_le.mp hbacklog, Nat.not_le.mp hlate⟩ h

/-- A stall counted while no reload is due ends in a rejoin or a rebuild. -/
theorem escalate_of_not_due {s : State} (hs : Silent s) (hd : ¬ ReloadDue s)
    (throws : Bool) :
    Keeps s (escalate (counted s) throws).2 (s.page.stallCount + 1)
      ∧ (escalate (counted s) throws).1 ≠ .reload := by
  have hcounted : Keeps s (counted s) (s.page.stallCount + 1) :=
    ⟨Nat.le_refl _, rfl, rfl, rfl, rfl⟩
  have hrejoin := hcounted.trans (keeps_rejoin (counted s) throws)
  unfold escalate
  split
  · rename_i hcount
    have hused : s.watchStallReloaded = true := by
      by_contra hu
      exact hd ⟨hs, Bool.not_eq_true _ ▸ hu, hcount⟩
    rw [if_neg (by simp [counted, hused])]
    split
    · exact ⟨⟨Nat.le_refl _, rfl, rfl, rfl, by simp [record, counted]⟩, by simp⟩
    · exact ⟨hrejoin, by simp⟩
  · exact ⟨hrejoin, by simp⟩

theorem escalate_of_due {s : State} (hd : ReloadDue s) (throws : Bool) :
    escalate (counted s) throws
      = (.reload, record { counted s with watchStallReloaded := true } .reload) := by
  have hcount : rejoinAttemptsBeforeReload ≤ (counted s).page.stallCount := hd.count
  unfold escalate
  rw [if_pos hcount, if_pos (by simp [counted, hd.unused])]

/-! ## The policy -/

/-- The ways an event changes what a reload depends on, and what is recorded
of it. -/
inductive Counts (s : State) : Event → State → Prop where
  | kept {e : Event} {s' : State} (hg : ∀ g, observeAttempts s e g = g)
      (h : Keeps s s' s.page.stallCount) (hd : ¬ Reloads s e) : Counts s e s'
  | loaded {hidden : Bool} {s' : State} (guard : s'.watchStallReloaded = s.watchStallReloaded)
      (stallCount : s'.page.stallCount = 0) (stamp : s'.page.net.lastPacketAt = 0)
      (reloads : s'.log.count .reload = s.log.count .reload) : Counts s (.load hidden) s'
  | message {data : Payload} {s' : State} (guard : s'.watchStallReloaded = s.watchStallReloaded)
      (stallCount : s'.page.stallCount = s.page.stallCount) (log : s'.log = s.log) :
      Counts s (.message data) s'
  | alive {throws : Bool} {s' : State} (hs : ¬ Silent s)
      (halive : s.now - s.page.net.lastPacketAt ≤ stallMs) (h : Keeps s s' 0) :
      Counts s (.tick throws) s'
  | stalled {throws : Bool} {s' : State} (hs : Silent s) (hd : ¬ ReloadDue s)
      (hg : ∀ g, observeAttempts s (.tick throws) g = g
        ∨ observeAttempts s (.tick throws) g = { g with rejoins := g.rejoins + 1 })
      (h : Keeps s s' (s.page.stallCount + 1)) : Counts s (.tick throws) s'
  | reloaded {throws : Bool} {s' : State} (hd : ReloadDue s)
      (hg : ∀ g, observeAttempts s (.tick throws) g
        = { g with reloads := g.reloads ++ [g.rejoins] })
      (guard : s'.watchStallReloaded = true)
      (stallCount : s'.page.stallCount = s.page.stallCount + 1) (now : s'.now = s.now)
      (stamp : s'.page.net.lastPacketAt = s.page.net.lastPacketAt)
      (reloads : s'.log.count .reload = s.log.count .reload + 1) :
      Counts s (.tick throws) s'

theorem counts_tick (s : State) (throws : Bool) :
    Counts s (.tick throws) (tick s throws).2 := by
  by_cases hs : Silent s
  · have htick := tick_of_silent hs throws
    by_cases hd : ReloadDue s
    · have hesc := escalate_of_due hd throws
      rw [hesc] at htick
      refine .reloaded hd (fun g => ?_) ?_ ?_ ?_ ?_ ?_
      · rw [observeAttempts, if_pos hs, htick]
      all_goals rw [htick]
      · rfl
      · rfl
      · rfl
      · rfl
      · simp [record, counted]
    · obtain ⟨hkeeps, hrec⟩ := escalate_of_not_due hs hd throws
      refine .stalled hs hd (fun g => ?_) ?_
      · rw [observeAttempts, if_pos hs, htick]
        dsimp only
        cases hr : (escalate (counted s) throws).1 with
        | rejoin =>
            dsimp only
            split
            · exact Or.inl rfl
            · exact Or.inr rfl
        | reload => exact absurd hr hrec
        | forceReconnect => exact Or.inl rfl
      · rw [htick]
        exact hkeeps
  · rcases keeps_tick_of_not_silent hs throws with hkeeps | ⟨halive, hkeeps⟩
    · exact .kept (fun g => by rw [observeAttempts, if_neg hs]) hkeeps (fun hd => hs hd.silent)
    · exact .alive hs halive hkeeps

theorem counts_of_step {s s' : State} {e : Event} (h : step s e = some s') :
    Counts s e s' := by
  cases e with
  | load hidden =>
      obtain rfl := Option.some.inj h
      exact .loaded rfl rfl rfl (by simp [record])
  | message data =>
      simp only [step, Option.ite_none_right_eq_some] at h
      obtain rfl := Option.some.inj h.2
      exact .message rfl rfl rfl
  | tick throws =>
      obtain rfl := Option.some.inj h
      exact counts_tick s throws
  | _ => exact .kept (fun _ => rfl) (keeps_step h (by simp) (by simp) (by simp)) id

/-- The guard lets one reload through. -/
structure Tally (s : State) (g : Attempts) : Prop where
  length : g.reloads.length = s.log.count .reload
  once : s.log.count .reload ≤ 1
  /-- Until the guard is used the count is below the constant. -/
  unused : s.watchStallReloaded = false →
    s.log.count .reload = 0 ∧ s.page.stallCount < rejoinAttemptsBeforeReload
  reloads : ∀ n ∈ g.reloads, n < rejoinAttemptsBeforeReload

/-- The rejoins since the last packet are stalls this page has counted. -/
def Consecutive (s : State) (rejoins : Nat) : Prop :=
  rejoins = 0 ∨ s.page.net.lastPacketAt = 0
    ∨ (rejoins ≤ s.page.stallCount ∧ stallMs < s.now - s.page.net.lastPacketAt)

theorem Consecutive.le {s : State} {n : Nat} (hc : Consecutive s n)
    (hstamp : s.page.net.lastPacketAt ≠ 0) : n ≤ s.page.stallCount := by
  rcases hc with h0 | h0 | ⟨hle, -⟩
  · omega
  · exact absurd h0 hstamp
  · exact hle

/-- Nothing of the tally is lost when no reload is made. -/
theorem Tally.congr {s s' : State} {g g' : Attempts} (ht : Tally s g)
    (hg : g'.reloads = g.reloads) (hguard : s'.watchStallReloaded = s.watchStallReloaded)
    (hreloads : s'.log.count .reload = s.log.count .reload)
    (hcount : s.watchStallReloaded = false →
      s'.page.stallCount < rejoinAttemptsBeforeReload) : Tally s' g' := by
  refine ⟨?_, ?_, ?_, ?_⟩
  · rw [hg, hreloads]
    exact ht.length
  · rw [hreloads]
    exact ht.once
  · rw [hguard, hreloads]
    exact fun hu => ⟨(ht.unused hu).1, hcount hu⟩
  · rw [hg]
    exact ht.reloads

theorem tally_step {s s' : State} {e : Event} {g : Attempts} (ht : Tally s g)
    (hc : Consecutive s g.rejoins) (h : step s e = some s') :
    Tally s' (observeAttempts s e g) := by
  have hsmall : s.watchStallReloaded = false →
      s.page.stallCount < rejoinAttemptsBeforeReload := fun hu => (ht.unused hu).2
  cases counts_of_step h with
  | kept hg hkeeps hd =>
      refine ht.congr (by rw [hg]) hkeeps.guard hkeeps.reloads ?_
      rw [hkeeps.stallCount]
      exact hsmall
  | loaded hguard hcount hstamp hreloads =>
      refine ht.congr rfl hguard hreloads fun _ => ?_
      rw [hcount]
      decide
  | message hguard hcount hlog =>
      refine ht.congr rfl hguard (by rw [hlog]) ?_
      rw [hcount]
      exact hsmall
  | alive hs halive hkeeps =>
      refine ht.congr (by rw [observeAttempts, if_neg hs]) hkeeps.guard hkeeps.reloads fun _ => ?_
      rw [hkeeps.stallCount]
      decide
  | stalled hs hd hg hkeeps =>
      refine ht.congr ?_ hkeeps.guard hkeeps.reloads fun hu => ?_
      · rcases hg g with heq | heq <;> rw [heq]
      · rw [hkeeps.stallCount]
        by_contra hge
        exact hd ⟨hs, hu, Nat.not_lt.mp hge⟩
  | reloaded hd hg hguard hcount hnow hstamp hreloads =>
      obtain ⟨hzero, hlt⟩ := ht.unused hd.unused
      rw [hg]
      refine ⟨?_, ?_, ?_, ?_⟩
      · rw [List.length_append, hreloads, ht.length]
        rfl
      · omega
      · rw [hguard]
        exact nofun
      · intro n hn
        rcases List.mem_append.mp hn with hn | hn
        · exact ht.reloads n hn
        · obtain rfl := List.mem_singleton.mp hn
          exact Nat.lt_of_le_of_lt (hc.le hd.silent.stamp) hlt

theorem consecutive_step {s s' : State} {e : Event} {g : Attempts}
    (hc : Consecutive s g.rejoins) (h : step s e = some s') :
    Consecutive s' (observeAttempts s e g).rejoins := by
  cases counts_of_step h with
  | kept hg hkeeps hd =>
      rw [hg]
      rcases hc with h0 | h0 | ⟨hle, hlate⟩
      · exact Or.inl h0
      · exact Or.inr (Or.inl (hkeeps.stamp.trans h0))
      · have hnow := hkeeps.now
        refine Or.inr (Or.inr ⟨by rwa [hkeeps.stallCount], ?_⟩)
        rw [hkeeps.stamp]
        omega
  | loaded hguard hcount hstamp hreloads => exact Or.inr (Or.inl hstamp)
  | message hguard hcount hlog => exact Or.inl rfl
  | alive hs halive hkeeps =>
      rw [observeAttempts, if_neg hs]
      -- a packet within the limit leaves no attempt to be consecutive to
      rcases hc with h0 | h0 | ⟨-, hlate⟩
      · exact Or.inl h0
      · exact Or.inr (Or.inl (hkeeps.stamp.trans h0))
      · exact absurd hlate (Nat.not_lt.mpr halive)
  | @stalled throws s' hs hd hg hkeeps =>
      have hle := hc.le hs.stamp
      have hnow := hkeeps.now
      have hsilent := hs.silent
      refine Or.inr (Or.inr ⟨?_, ?_⟩)
      · rw [hkeeps.stallCount]
        rcases hg g with heq | heq
        · rw [heq]
          exact Nat.le_succ_of_le hle
        · rw [heq]
          exact Nat.succ_le_succ hle
      · rw [hkeeps.stamp]
        omega
  | reloaded hd hg hguard hcount hnow hstamp hreloads =>
      have hle := hc.le hd.silent.stamp
      rw [hg]
      refine Or.inr (Or.inr ⟨?_, ?_⟩)
      · rw [hcount]
        exact Nat.le_succ_of_le hle
      · rw [hnow, hstamp]
        exact hd.silent.silent

/-- What the watchdog keeps about its attempts. -/
structure Tried (s : State) (g : Attempts) : Prop where
  tally : Tally s g
  rejoins : Consecutive s g.rejoins

theorem tried_step {s s' : State} {e : Event} {g : Attempts} (ht : Tried s g)
    (h : step s e = some s') : Tried s' (observeAttempts s e g) :=
  ⟨tally_step ht.tally ht.rejoins h, consecutive_step ht.rejoins h⟩

theorem tried_init {now : Nat} (now_pos : 0 < now) {maxPackets : Nat}
    (pos : 0 < maxPackets) (hidden : Bool) :
    Tried (init now now_pos maxPackets pos hidden) .none :=
  ⟨⟨rfl, Nat.zero_le _, fun _ => ⟨rfl, Nat.succ_pos _⟩, nofun⟩, Or.inl rfl⟩

/-- On every run there is one reload at most, after at most five rejoins that
no packet came between. -/
theorem reloads_early {now maxPackets : Nat} (now_pos : 0 < now)
    (pos : 0 < maxPackets) (hidden : Bool) {es : List Event} {s : State} {g : Attempts}
    (h : run (recorded step observeAttempts) (init now now_pos maxPackets pos hidden, .none) es
      = some (s, g)) :
    s.log.count .reload ≤ 1 ∧ ∀ n ∈ g.reloads, n ≤ 5 := by
  have ht := recorded_invariant tried_step h (tried_init now_pos pos hidden)
  exact ⟨ht.tally.once, fun n hn => Nat.le_of_lt_succ (ht.tally.reloads n hn)⟩

/-- The policy is kept exactly on the runs that never reload by themselves. -/
theorem reload_policy_iff {now maxPackets : Nat} (now_pos : 0 < now)
    (pos : 0 < maxPackets) (hidden : Bool) (es : List Event) :
    Always (recorded step observeAttempts) ReloadPolicy
        (init now now_pos maxPackets pos hidden, .none) es
      ↔ EachStep (recorded step observeAttempts) (fun r e => ¬ Reloads r.1 e)
        (init now now_pos maxPackets pos hidden, .none) es := by
  refine recorded_always_iff_eachStep (I := fun r => Tried r.1 r.2) tried_step ?_ ?_
    (tried_init now_pos pos hidden) ⟨Nat.zero_le _, nofun⟩ es
  · intro s g e s' ht hp hG h
    have hreloads : (observeAttempts s e g).reloads = g.reloads := by
      cases counts_of_step h with
      | kept hg hkeeps hd => rw [hg]
      | loaded hguard hcount hstamp hreloads => rfl
      | message hguard hcount hlog => rfl
      | alive hs halive hkeeps => rw [observeAttempts, if_neg hs]
      | stalled hs hd hg hkeeps => rcases hg g with heq | heq <;> rw [heq]
      | reloaded hd hg hguard hcount hnow hstamp hreloads => exact absurd hd hG
    refine ⟨(tried_step ht h).tally.once, fun n hn => ?_⟩
    have hn' : n ∈ (observeAttempts s e g).reloads := hn
    rw [hreloads] at hn'
    exact hp.tried n hn'
  · intro s g e s' ht hp hG h hp'
    have hdue : Reloads s e := Classical.not_not.mp hG
    cases counts_of_step h with
    | kept hg hkeeps hd => exact hd hdue
    | loaded hguard hcount hstamp hreloads => exact hdue
    | message hguard hcount hlog => exact hdue
    | alive hs halive hkeeps => exact hs hdue.silent
    | stalled hs hd hg hkeeps => exact hd hdue
    | @reloaded throws s' hd hg hguard hcount hnow hstamp hreloads =>
        have hmem : g.rejoins ∈ (observeAttempts s (.tick throws) g).reloads := by
          rw [hg]
          exact List.mem_append_right _ (List.mem_singleton_self _)
        have hlt := (tally_step ht.tally ht.rejoins h).reloads g.rejoins hmem
        exact absurd (hp'.tried g.rejoins hmem) (Nat.not_le.mpr hlt)

/-- Five stalled ticks rejoin, and the policy is kept. -/
theorem reload_policy_rejoining :
    Always (recorded step observeAttempts) ReloadPolicy
      (init 1 (by decide) 16384 (by decide) false, .none)
      (untilStalled ++ stalledTick ++ stalledTick ++ stalledTick ++ stalledTick
        ++ stalledTick) :=
  (reload_policy_iff (by decide) (by decide) false _).mpr (by decide)

/-- The sixth stalled tick reloads, after five rejoins. -/
theorem reload_policy_violated :
    ∃ s g, run (recorded step observeAttempts)
        (init 1 (by decide) 16384 (by decide) false, .none)
        (untilStalled ++ stalledTick ++ stalledTick ++ stalledTick ++ stalledTick
          ++ stalledTick ++ [.tick false]) = some (s, g)
      ∧ s.log.count .reload = 1 ∧ g.reloads = [5] ∧ ¬ ReloadPolicy (s, g) := by
  refine ⟨_, _, rfl, by decide, rfl, fun h => ?_⟩
  exact absurd (h.tried 5 (List.mem_singleton_self _)) (by decide)

end Tab

end XashProxy
