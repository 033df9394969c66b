import XashProxy.TabActs

/-!
# What the watchdog acts on

The watchdog returns at once while `lastPacketAt` is 0, and a reload sets
it back to 0. A page that has not had a packet since it was loaded is
therefore never recovered, however long it is silent; every other stalled
page is, whatever its counters and the reload guard say.
-/

namespace XashProxy

namespace Tab

open Lts

/-- The start of the silence: the last game packet of this page, or the
start of its game session. -/
def silentSince (s : State) : Nat :=
  if s.page.net.arrivals = 0 then s.page.startedAt else s.page.net.lastPacketAt

/-- The game is started, the tab visible, and no game packet has arrived for
more than `STALL_MS`. -/
structure Stalled (s : State) : Prop where
  started : s.page.started = true
  visible : s.page.hidden = false
  silent : stallMs < s.now - silentSince s

/-! ## The tick -/

/-- Past its early returns, the watchdog acts on every stalled stream. -/
theorem tick_recovers_of_stamp {s : State} (hx : s.page.x = true) (hs : Stalled s)
    (harr : s.page.net.arrivals ≠ 0) (hstamp : s.page.net.lastPacketAt ≠ 0)
    (throws : Bool) : (tick s throws).1.isSome = true := by
  have hsilent := hs.silent
  rw [silentSince, if_neg harr] at hsilent
  have hlate : ¬ s.now - s.page.net.lastPacketAt ≤ stallMs := Nat.not_le.mpr hsilent
  unfold tick
  rw [if_neg (by simp [hs.started, hs.visible, hx]), if_neg hstamp, if_neg hlate]
  split <;> rfl

/-- At a tick that finds the stream stalled, the watchdog acts exactly when
the page has had a game packet since it was loaded. -/
theorem tick_recovers_iff {now maxPackets : Nat} (now_pos : 0 < now)
    (pos : 0 < maxPackets) (hidden : Bool) {es : List Event} {s : State}
    (h : run step (init now now_pos maxPackets pos hidden) es = some s)
    (hs : Stalled s) (throws : Bool) :
    (tick s throws).1.isSome = true ↔ s.page.net.arrivals ≠ 0 := by
  have hwf := run_invariant (I := Wf) wf_step h (wf_init now_pos pos hidden)
  constructor
  · intro hsome harr
    have hstamp := hwf.stamped.mpr harr
    unfold tick at hsome
    rw [if_pos hstamp] at hsome
    split at hsome <;> cases hsome
  · intro harr
    have hstamp : s.page.net.lastPacketAt ≠ 0 := fun h => harr (hwf.stamped.mp h)
    exact tick_recovers_of_stamp (hwf.x hs.started) hs harr hstamp throws

/-- A page that had one packet and then none for 16 seconds. -/
def untilStalled : List Event :=
  [.createClient, .start false, .message (.arrayBuffer [0]), .elapse 16000]

/-- The first stalled tick of such a page acts. -/
theorem tick_recovers_stalled :
    ∃ s, run step (init 1 (by decide) 16384 (by decide) false) untilStalled = some s
      ∧ (tick s false).1.isSome = true := by
  obtain ⟨s, hs, hstalled, harr⟩ : ∃ s, run step
      (init 1 (by decide) 16384 (by decide) false) untilStalled = some s
      ∧ Stalled s ∧ s.page.net.arrivals ≠ 0 :=
    ⟨_, rfl, ⟨rfl, rfl, by decide⟩, by decide⟩
  exact ⟨s, hs, (tick_recovers_iff _ _ _ hs hstalled false).mpr harr⟩

/-- A stalled tick with its rejoin, up to the next tick. -/
def stalledTick : List Event :=
  [.tick false, .elapse 300, .rejoinTimer 0 false, .elapse 1700]

/-- Five rejoins do not bring the stream back and the sixth stalled tick
reloads the page. The upstream stays dead, and on the new page the watchdog
does nothing, whatever time has passed. -/
theorem tick_ignores_silent_reload :
    ∃ s, run step (init 1 (by decide) 16384 (by decide) false)
        (untilStalled ++ stalledTick ++ stalledTick ++ stalledTick ++ stalledTick
          ++ stalledTick ++ [.tick false, .load false, .createClient, .start false,
            .elapse 1000000]) = some s
      ∧ s.watchStallReloaded = true ∧ Stalled s ∧ (tick s false).1 = none :=
  ⟨_, rfl, rfl, ⟨rfl, rfl, by decide⟩, rfl⟩

end Tab

end XashProxy
