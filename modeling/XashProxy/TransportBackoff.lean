import XashProxy.Backoff
import XashProxy.TransportSockets

/-!
# The backoff

`scheduleReconnect` doubles the delay at every call, and a socket that opens
resets it. The delay is therefore a function of the reports since a socket
last opened, and not of the attempts that have failed since a session did:
one outage that is reported twice counts twice, and an attempt that fails
after its socket opened counts as the first. `backoff_iff` says when the two
counts give the same delay.
-/

namespace XashProxy

namespace Transport

open Lts

/-! ## Attempts and their failures -/

/-- The event reports on the current attempt: its socket, or the peer that
was started for it. -/
def ofCurrent (s : State) : Event → Bool
  | .socketError k => decide (s.ws = some k)
  | .connectionState .. =>
      match s.peer with
      | some q => decide ((s.peers q).socket = s.ws)
      | none => false
  | .channelClose p _ | .channelError p _ => decide ((s.peers p).socket = s.ws)
  | _ => false

/-- The event makes both channels of a peer open. -/
def establishes (s : State) : Event → Bool
  | .channelOpen p label => decide (∀ l, l = label ∨ (s.peers p).channels l = .opened)
  | _ => false

/-- The failures since both channels of a session were last open. -/
structure Outage where
  /-- Attempts that have failed, however often each was reported. -/
  failures : Nat
  /-- The current attempt is one of them. -/
  failed : Bool
  /-- `forceReconnect` was called. -/
  forced : Bool
  /-- The time of the last report. -/
  reportedAt : Nat
  /-- Reports since a socket last opened, or `forceReconnect` was called. -/
  reports : Nat

def Outage.none : Outage := ⟨0, false, false, 0, 0⟩

def observeOutage (s : State) (e : Event) (g : Outage) : Outage :=
  if reports s e then
    { g with
      failures := if ofCurrent s e && !g.failed then g.failures + 1 else g.failures
      failed := g.failed || ofCurrent s e
      reportedAt := s.now
      reports := g.reports + 1 }
  else if establishes s e then { g with failures := 0, failed := false, forced := false }
  else match e with
    | .socketOpen k => if s.ws = some k then { g with reports := 0 } else g
    | .connect | .timer _ => { g with failed := false }
    | .forceReconnect => { g with failed := false, forced := true, reports := 0 }
    | _ => g

/-- After `n` failed attempts the next one starts `min (1000 * 2 ^ (n - 1)) 30000`
after the last report. -/
structure PerFailure (r : State × Outage) : Prop where
  delay : r.2.forced = false → 0 < r.2.failures → ∀ t ∈ r.1.timeouts,
    t.due = r.2.reportedAt + min (1000 * 2 ^ (r.2.failures - 1)) 30000
  started : r.2.failed = true → r.1.timeouts ≠ []

/-- A report finds as many reports since a socket last opened as there are
failed attempts since a session last did, itself included; the delay no
longer changes from the sixth on. -/
def CountsFailures (r : State × Outage) (e : Event) : Prop :=
  reports r.1 e = true →
    (observeOutage r.1 e r.2).forced = true ∨ (observeOutage r.1 e r.2).failures = 0
      ∨ (observeOutage r.1 e r.2).reports = (observeOutage r.1 e r.2).failures
      ∨ (6 ≤ (observeOutage r.1 e r.2).reports ∧ 6 ≤ (observeOutage r.1 e r.2).failures)

instance (r : State × Outage) (e : Event) : Decidable (CountsFailures r e) :=
  inferInstanceAs (Decidable (reports r.1 e = true →
    (observeOutage r.1 e r.2).forced = true ∨ (observeOutage r.1 e r.2).failures = 0
      ∨ (observeOutage r.1 e r.2).reports = (observeOutage r.1 e r.2).failures
      ∨ (6 ≤ (observeOutage r.1 e r.2).reports
        ∧ 6 ≤ (observeOutage r.1 e r.2).failures)))

/-! ## The delay the client keeps -/

/-- The delay after `n` doublings. -/
def backoff (n : Nat) : Nat := Backoff.delay 2 1000 30000 n

theorem backoff_zero : backoff 0 = 1000 := Backoff.delay_zero (by decide)

theorem cap_le_iff (n : Nat) : 30000 ≤ 1000 * 2 ^ n ↔ 5 ≤ n := by
  constructor
  · intro h
    by_contra hlt
    have hpow : 2 ^ n ≤ 2 ^ 4 := Nat.pow_le_pow_right (by decide) (by omega)
    omega
  · intro h
    have hpow : 2 ^ 5 ≤ 2 ^ n := Nat.pow_le_pow_right (by decide) h
    omega

theorem backoff_eq_iff {a b : Nat} : backoff a = backoff b ↔ a = b ∨ (5 ≤ a ∧ 5 ≤ b) := by
  rw [backoff, backoff, Backoff.delay_eq_iff (by decide) (by decide), cap_le_iff, cap_le_iff]

/-- The stored delay counts the reports since a socket opened. -/
structure Delays (s : State) (g : Outage) : Prop where
  wf : Wf s
  reconnectDelay : s.reconnectDelay = backoff g.reports

theorem delays_init (onReconnected : Bool) {maxPackets : Nat} (pos : 0 < maxPackets) :
    Delays (init onReconnected maxPackets pos) .none :=
  ⟨wf_init onReconnected pos, backoff_zero.symm⟩

/-- A report, whether it is of the current attempt or not. -/
theorem observeOutage_of_reports {s : State} {e : Event} (g : Outage)
    (hr : reports s e = true) :
    (observeOutage s e g).reportedAt = s.now
      ∧ (observeOutage s e g).reports = g.reports + 1 := by
  unfold observeOutage
  rw [if_pos hr]
  exact ⟨rfl, rfl⟩

/-- Events that touch neither a socket nor a timer may establish a session. -/
theorem observeOutage_of_rests {s : State} {e : Event} (g : Outage)
    (hr : reports s e = false) (hn : renews e = false) (ho : ofSocket s e = false) :
    observeOutage s e g = g
      ∨ observeOutage s e g = { g with failures := 0, failed := false, forced := false } := by
  unfold observeOutage
  rw [if_neg (by simp [hr])]
  by_cases hest : establishes s e = true
  · rw [if_pos hest]
    exact Or.inr rfl
  · rw [if_neg hest]
    cases e with
    | connect => cases hn
    | forceReconnect => cases hn
    | timer i => cases hn
    | socketOpen k => exact Or.inl (if_neg (of_decide_eq_false ho))
    | _ => exact Or.inl rfl

/-- A new attempt, forced or not. -/
theorem observeOutage_of_renews {s : State} {e : Event} (g : Outage)
    (hn : renews e = true) :
    observeOutage s e g
      = if e = .forceReconnect then { g with failed := false, forced := true, reports := 0 }
        else { g with failed := false } := by
  cases e <;> first | rfl | cases hn

theorem delays_step {s s' : State} {e : Event} {g : Outage} (hd : Delays s g)
    (h : step s e = some s') : Delays s' (observeOutage s e g) := by
  refine ⟨wf_step hd.wf h, ?_⟩
  have hdelay := hd.reconnectDelay
  have hsched : reports s e = true → Schedules s s' →
      s'.reconnectDelay = backoff (observeOutage s e g).reports := by
    intro hr hs
    rw [hs.reconnectDelay, hdelay, (observeOutage_of_reports g hr).2]
    exact Backoff.delay_succ g.reports
  cases signals_of_step hd.wf.toCore h with
  | rests hr hn ho hrests =>
      rw [hrests.reconnectDelay, hdelay]
      rcases observeOutage_of_rests g hr hn ho with heq | heq <;> rw [heq]
  | reported hr hn ho hs hkeep => exact hsched hr hs
  | renewed hn hrenews =>
      rw [hrenews.reconnectDelay, observeOutage_of_renews g hn]
      split
      · exact backoff_zero.symm
      · exact hdelay
  | @opened k s' hws hopens =>
      have hg : observeOutage s (.socketOpen k) g = { g with reports := 0 } := if_pos hws
      rw [hopens.reconnectDelay, hg]
      exact backoff_zero.symm
  | erred hws hr hs hstop => exact hsched hr hs
  | closed hws hnext hcur htimeouts hkept hstop =>
      rw [hkept]
      exact hdelay

/-! ## When the delay is that of the failures -/

/-- The timeouts stay, and nothing is counted. -/
theorem PerFailure.keeps {s s' : State} {g g' : Outage} (hp : PerFailure (s, g))
    (htimeouts : s'.timeouts = s.timeouts) (hfailures : g'.failures = g.failures)
    (hfailed : g'.failed = g.failed) (hforced : g'.forced = g.forced)
    (hat : g'.reportedAt = g.reportedAt) : PerFailure (s', g') := by
  refine ⟨fun hf hn t ht => ?_, fun hf => ?_⟩
  · dsimp only at hf hn ht ⊢
    rw [hforced] at hf
    rw [hfailures] at hn ⊢
    rw [htimeouts] at ht
    rw [hat]
    exact hp.delay hf hn t ht
  · dsimp only at hf ⊢
    rw [htimeouts]
    exact hp.started (hfailed ▸ hf)

/-- After a report the next attempt is due by the law exactly if the counts
give the same delay. -/
theorem perFailure_of_reports_iff {s s' : State} {e : Event} {g : Outage} (hd : Delays s g)
    (hr : reports s e = true) (hs : Schedules s s') :
    PerFailure (s', observeOutage s e g) ↔ CountsFailures (s, g) e := by
  obtain ⟨hat, hreports⟩ := observeOutage_of_reports g hr
  have hdue : s'.timeouts = [⟨s.nextTimer, s.now + backoff g.reports⟩] := by
    rw [hs.timeouts, hd.reconnectDelay]
  constructor
  · intro hp _
    by_cases hf : (observeOutage s e g).forced = true
    · exact Or.inl hf
    · by_cases hn : (observeOutage s e g).failures = 0
      · exact Or.inr (Or.inl hn)
      · have hlaw := hp.delay (Bool.not_eq_true _ ▸ hf) (Nat.pos_of_ne_zero hn)
          ⟨s.nextTimer, s.now + backoff g.reports⟩
          (by rw [hdue]; exact List.mem_singleton_self _)
        have heq : backoff g.reports = backoff ((observeOutage s e g).failures - 1) := by
          rw [hat] at hlaw
          exact Nat.add_left_cancel hlaw
        dsimp only
        rw [hreports]
        rcases backoff_eq_iff.mp heq with heq | ⟨ha, hb⟩
        · exact Or.inr (Or.inr (Or.inl (by omega)))
        · exact Or.inr (Or.inr (Or.inr (by omega)))
  · intro hc
    refine ⟨fun hf hn t ht => ?_, fun _ => ?_⟩
    · dsimp only at hf hn ht ⊢
      rw [hdue, List.mem_singleton] at ht
      have hcounts := hc hr
      dsimp only at hcounts
      rw [hreports] at hcounts
      have heq : backoff g.reports = backoff ((observeOutage s e g).failures - 1) := by
        refine backoff_eq_iff.mpr ?_
        rcases hcounts with hforced | hzero | heq | ⟨ha, hb⟩
        · exact absurd (hf.symm.trans hforced) Bool.false_ne_true
        · exact absurd hzero (Nat.ne_of_gt hn)
        · exact Or.inl (by omega)
        · exact Or.inr (by omega)
      rw [ht, hat, heq]
      rfl
    · dsimp only
      rw [hdue]
      exact List.cons_ne_nil _ _

theorem perFailure_step {s s' : State} {e : Event} {g : Outage} (hd : Delays s g)
    (hp : PerFailure (s, g)) (h : step s e = some s') :
    PerFailure (s', observeOutage s e g) ↔ CountsFailures (s, g) e := by
  have hquiet : reports s e = false → CountsFailures (s, g) e :=
    fun hr hr' => absurd (hr.symm.trans hr') Bool.false_ne_true
  cases signals_of_step hd.wf.toCore h with
  | rests hr hn ho hrests =>
      refine iff_of_true ?_ (hquiet hr)
      rcases observeOutage_of_rests g hr hn ho with heq | heq <;> rw [heq]
      · exact hp.keeps hrests.timeouts rfl rfl rfl rfl
      · exact ⟨fun _ hn => absurd hn (Nat.lt_irrefl 0), nofun⟩
  | reported hr hn ho hs hkeep => exact perFailure_of_reports_iff hd hr hs
  | renewed hn hrenews =>
      have hr : reports s e = false := by cases e <;> first | rfl | cases hn
      refine iff_of_true ⟨fun _ _ t ht => ?_, fun hf => ?_⟩ (hquiet hr)
      · rw [hrenews.timeouts] at ht
        cases ht
      · rw [observeOutage_of_renews g hn] at hf
        split at hf <;> cases hf
  | @opened k s' hws hopens =>
      have hg : observeOutage s (.socketOpen k) g = { g with reports := 0 } := if_pos hws
      refine iff_of_true ?_ (hquiet rfl)
      rw [hg]
      exact hp.keeps hopens.timeouts rfl rfl rfl rfl
  | erred hws hr hs hstop => exact perFailure_of_reports_iff hd hr hs
  | closed hws hnext hcur htimeouts hkept hstop =>
      exact iff_of_true (hp.keeps htimeouts rfl rfl rfl rfl) (hquiet rfl)

/-- The delay is that of the failed attempts, in every state of a run, exactly
when every report finds the counts in step. -/
theorem backoff_iff (onReconnected : Bool) {maxPackets : Nat} (pos : 0 < maxPackets)
    (es : List Event) :
    Always (recorded step observeOutage) PerFailure
        (init onReconnected maxPackets pos, .none) es
      ↔ EachStep (recorded step observeOutage) CountsFailures
        (init onReconnected maxPackets pos, .none) es := by
  refine recorded_always_iff_eachStep (I := fun r => Delays r.1 r.2) delays_step
    (fun hd hp hG h => (perFailure_step hd hp h).mpr hG)
    (fun hd hp hG h hp' => hG ((perFailure_step hd hp h).mp hp'))
    (delays_init onReconnected pos) ⟨fun _ hn => absurd hn (Nat.lt_irrefl 0), nofun⟩ es

/-- The signaling socket fails three times in a row. -/
theorem backoff_sockets :
    Always (recorded step observeOutage) PerFailure (init true 16384 (by decide), .none)
      [.connect, .socketError 0, .socketClose 0, .elapse 1000, .timer 0, .socketError 1,
        .socketClose 1, .elapse 2000, .timer 0, .socketError 2] :=
  (backoff_iff true (by decide) _).mpr (by decide)

/-- The proxy takes an open session down: both of its channels close, and the
first retry is 2000 ms away. -/
theorem backoff_doubled :
    ∃ s g, run (recorded step observeOutage) (init true 16384 (by decide), .none)
        [.connect, .socketOpen 0, .dataChannel 0 .write, .dataChannel 0 .read,
          .channelOpen 0 .write, .channelOpen 0 .read, .channelClose 0 .write,
          .channelClose 0 .read] = some (s, g)
      ∧ g.failures = 1 ∧ s.timeouts.map Timeout.due = [g.reportedAt + 2000]
      ∧ ¬ PerFailure (s, g) := by
  refine ⟨_, _, rfl, rfl, rfl, fun h => ?_⟩
  have hdue := h.delay rfl (by decide) _ (List.mem_singleton_self _)
  exact absurd hdue (by decide)

/-- Two attempts fail after their sockets have opened: the delay is 1000 ms
again. -/
theorem backoff_reset :
    ∃ s g, run (recorded step observeOutage) (init true 16384 (by decide), .none)
        [.connect, .socketOpen 0, .connectionState 0 .failed, .elapse 1000, .timer 0,
          .socketOpen 1, .connectionState 1 .failed] = some (s, g)
      ∧ g.failures = 2 ∧ s.timeouts.map Timeout.due = [g.reportedAt + 1000]
      ∧ ¬ PerFailure (s, g) := by
  refine ⟨_, _, rfl, rfl, rfl, fun h => ?_⟩
  have hdue := h.delay rfl (by decide) _ (List.mem_singleton_self _)
  exact absurd hdue (by decide)

end Transport

end XashProxy
