import Mathlib.Data.List.DropRight
import XashProxy.TabActs

/-!
# The rejoin protocol

A rejoin is two callbacks 300 ms apart, and `rejoinInFlight` lets only one of
them be under way. A call that returns early loses nothing: the connect still
to come is later than the rebuild it was called for.

The session begins with the `connect` of `main()`, which sets `started` well
before it and guards none of the calls in between. The protocol holds exactly
as long as `main()` gets there: `rejoin_protocol_iff`.
-/

namespace XashProxy

namespace Tab

open Lts

/-! ## Logs -/

def Act.isCommand : Act → Bool
  | .disconnect | .connect => true
  | _ => false

/-- The session commands, in the order they were issued. -/
def commands (log : List Act) : List Act := log.filter Act.isCommand

/-- The log since the last load. -/
def pageLog (s : State) : List Act := s.log.rtakeWhile (· ≠ .load)

/-- A `connect` after a `disconnect` comes right after a `netClear`. -/
def Cleared (log : List Act) : Prop :=
  ∀ before after, log = before ++ .connect :: after → .disconnect ∈ before →
    before.getLast? = some .netClear

/-- Every rebuild has a `connect` after it. -/
def Served (log : List Act) : Prop :=
  ∀ before after, log = before ++ .reconnected :: after → .connect ∈ after

theorem append_singleton_eq_append_cons {α : Type*} {l before after : List α} {a x : α}
    (h : l ++ [a] = before ++ x :: after) :
    (x = a ∧ before = l) ∨ ∃ rest, after = rest ++ [a] ∧ l = before ++ x :: rest := by
  rcases List.eq_nil_or_concat after with rfl | ⟨rest, b, rfl⟩
  · obtain ⟨hl, ha⟩ := List.append_inj' h rfl
    exact Or.inl ⟨(List.singleton_inj.mp ha).symm, hl.symm⟩
  · rw [List.concat_eq_append, ← List.cons_append, ← List.append_assoc] at h
    obtain ⟨hl, ha⟩ := List.append_inj' h rfl
    obtain rfl := List.singleton_inj.mp ha
    exact Or.inr ⟨rest, List.concat_eq_append, hl⟩

theorem Cleared.append {log : List Act} {a : Act} (h : Cleared log)
    (ha : a = .connect → .disconnect ∈ log → log.getLast? = some .netClear) :
    Cleared (log ++ [a]) := by
  intro before after heq hd
  rcases append_singleton_eq_append_cons heq with ⟨hx, rfl⟩ | ⟨rest, -, hl⟩
  · exact ha hx.symm hd
  · exact h before rest hl hd

theorem Served.append {log : List Act} {a : Act} (h : Served log)
    (ha : a ≠ .reconnected) : Served (log ++ [a]) := by
  intro before after heq
  rcases append_singleton_eq_append_cons heq with ⟨hx, -⟩ | ⟨rest, rfl, hl⟩
  · exact absurd hx.symm ha
  · exact List.mem_append_left _ (h before rest hl)

theorem served_append_connect (log : List Act) : Served (log ++ [.connect]) := by
  intro before after heq
  rcases append_singleton_eq_append_cons heq with ⟨hx, -⟩ | ⟨rest, rfl, -⟩
  · cases hx
  · exact List.mem_append_right _ (List.mem_singleton_self _)

theorem commands_append (log acts : List Act) :
    commands (log ++ acts) = commands log ++ commands acts := List.filter_append ..

theorem mem_commands {log : List Act} {a : Act} :
    a ∈ commands log ↔ a ∈ log ∧ a.isCommand = true := List.mem_filter

theorem pageLog_append {s s' : State} {acts : List Act} (h : s'.log = s.log ++ acts)
    (hacts : .load ∉ acts) : pageLog s' = pageLog s ++ acts := by
  have hpos : ∀ a ∈ acts.reverse, decide (a ≠ .load) = true := by
    intro a ha
    rw [decide_eq_true_eq]
    rintro rfl
    exact hacts (List.mem_reverse.mp ha)
  rw [pageLog, pageLog, h, List.rtakeWhile, List.reverse_append,
    List.takeWhile_append_of_pos hpos, List.reverse_append, List.reverse_reverse]
  rfl

/-- A note is no command, and no `load`. -/
theorem Aside.commands {s s' : State} {note : Option Act} (h : Aside s s' note) :
    pageLog s' = pageLog s ++ note.toList
      ∧ commands (pageLog s') = Tab.commands (pageLog s) := by
  have hquiet : ∀ a ∈ note.toList, a ≠ .load ∧ a.isCommand = false := by
    intro a ha
    rcases h.quiet a (Option.mem_toList.mp ha) with rfl | rfl | rfl <;>
      exact ⟨by decide, rfl⟩
  have hlog := pageLog_append h.log fun hl => (hquiet _ hl).1 rfl
  refine ⟨hlog, ?_⟩
  rw [hlog, commands_append]
  have hnil : Tab.commands note.toList = [] :=
    List.filter_eq_nil_iff.mpr fun a ha => by simp [(hquiet a ha).2]
  rw [hnil, List.append_nil]

theorem Aside.cleared {s s' : State} {note : Option Act} (h : Aside s s' note)
    (hc : Cleared (pageLog s)) : Cleared (pageLog s') := by
  rw [h.commands.1]
  cases note with
  | none =>
      rw [Option.toList_none, List.append_nil]
      exact hc
  | some a =>
      refine hc.append ?_
      rintro rfl
      have := h.quiet .connect rfl
      simp at this

/-! ## The protocol -/

/-- The `disconnect` whose `connect` is still to come. -/
def pending (s : State) : List Act :=
  if s.page.rejoinInFlight then [.disconnect] else []

structure Protocol (s : State) : Prop where
  /-- The commands are `connect (disconnect connect)*`, and one more
  `disconnect` while a rejoin is in flight. -/
  sequence : ∃ k, commands (pageLog s)
    = .connect :: (List.replicate k [.disconnect, .connect]).flatten ++ pending s
  guard : Guard s
  cleared : Cleared (pageLog s)
  /-- The connect of a rejoin in flight serves every rebuild so far. -/
  served : s.page.rejoinInFlight = false → Served (pageLog s)

theorem Protocol.head {s : State} (h : Protocol s) :
    (commands (pageLog s)).head? = some .connect := by
  obtain ⟨k, hseq⟩ := h.sequence
  rw [hseq]
  rfl

/-- Nothing has been issued before the game is started. -/
def Fresh (s : State) : Prop :=
  s.page.started = false →
    commands (pageLog s) = [] ∧ s.page.rejoinInFlight = false

/-- `main()` does not throw between `started = true` and its `connect`. -/
def StartsCleanly (_ : State) (e : Event) : Prop := e ≠ .start true

instance (s : State) (e : Event) : Decidable (StartsCleanly s e) :=
  inferInstanceAs (Decidable (e ≠ .start true))

theorem fresh_step {s s' : State} {e : Event} (hg : Guard s) (hf : Fresh s)
    (h : step s e = some s') : Fresh s' := by
  intro hs'
  cases acts_of_step h with
  | elapse => exact hf hs'
  | load =>
      refine ⟨?_, rfl⟩
      simp [pageLog, record, commands]
  | createClient hx => exact hf hs'
  | @start threw hx hs => cases threw <;> cases hs'
  | net he hnet => exact hf hs'
  | aside h hr =>
      rw [h.commands.2, h.rejoinInFlight]
      exact hf (h.started.symm.trans hs')
  | begun h hb =>
      rw [hb.page] at hs'
      cases hb.started.symm.trans hs'
  | finished h =>
      rw [h.page] at hs'
      obtain ⟨due, hi, -⟩ := h.due
      cases (hg.timer hi).1.symm.trans (hf hs').2

/-- A step that logs nothing. -/
theorem Protocol.frame {s s' : State} (hP : Protocol s) (hg' : Guard s')
    (hlog : s'.log = s.log) (hf : s'.page.rejoinInFlight = s.page.rejoinInFlight) :
    Protocol s' := by
  obtain ⟨hseq, -, hcl, hsv⟩ := hP
  refine ⟨?_, hg', ?_, ?_⟩
  · rw [pageLog, hlog, pending, hf]
    exact hseq
  · rw [pageLog, hlog]
    exact hcl
  · rw [pageLog, hlog, hf]
    exact hsv

/-- The session opens with the `connect` of `main()`. -/
theorem protocol_start {s : State} (hf : Fresh s) (hs : s.page.started = false)
    (hg' : Guard (start s false)) : Protocol (start s false) := by
  obtain ⟨hnil, hidle⟩ := hf hs
  have hlog : pageLog (start s false) = pageLog s ++ [.connect] :=
    pageLog_append rfl (by decide)
  have hnone : ∀ a, a.isCommand = true → a ∉ pageLog s := fun a ha hmem =>
    List.not_mem_nil (hnil ▸ mem_commands.mpr ⟨hmem, ha⟩)
  refine ⟨⟨0, ?_⟩, hg', ?_, fun _ => ?_⟩
  · have hidle' : (start s false).page.rejoinInFlight = false := hidle
    rw [hlog, commands_append, hnil, pending, hidle']
    rfl
  · rw [hlog]
    refine Cleared.append ?_ fun _ hd => absurd hd (hnone .disconnect rfl)
    rintro before after heq -
    exact absurd (heq ▸ by simp) (hnone .connect rfl)
  · rw [hlog]
    exact served_append_connect _

/-- A rebuild that finds no rejoin in flight begins one, so what is only noted
needs no `connect`. -/
theorem Protocol.aside {s s' : State} {note : Option Act} (hP : Protocol s)
    (hg' : Guard s') (hx : s.page.x = true) (hs : s.page.started = true)
    (h : Aside s s' note) (hr : note = some .reconnected → Refuses s) :
    Protocol s' := by
  obtain ⟨⟨k, hseq⟩, -, hcl, hsv⟩ := hP
  refine ⟨⟨k, ?_⟩, hg', h.cleared hcl, fun hidle => ?_⟩
  · rw [h.commands.2, pending, h.rejoinInFlight]
    exact hseq
  · rw [h.rejoinInFlight] at hidle
    rw [h.commands.1]
    cases note with
    | none =>
        rw [Option.toList_none, List.append_nil]
        exact hsv hidle
    | some a =>
        refine (hsv hidle).append ?_
        rintro rfl
        rcases hr rfl with hflight | hnx | hns
        · cases hidle.symm.trans hflight
        · cases hx.symm.trans hnx
        · cases hs.symm.trans hns

theorem Protocol.begun {s u s' : State} {note : Option Act} {throws : Bool}
    (hP : Protocol s) (hg' : Guard s') (h : Aside s u note) (hb : Begun u s' throws) :
    Protocol s' := by
  obtain ⟨⟨k, hseq⟩, -, hcl, -⟩ := hP
  have hlog : pageLog s' = pageLog u ++ [.netClear] ++ [.disconnect] := by
    rw [List.append_assoc]
    exact pageLog_append hb.log (by decide)
  have hflight : s'.page.rejoinInFlight = true := by rw [hb.page]
  refine ⟨⟨k, ?_⟩, hg', ?_, fun hidle => ?_⟩
  · rw [pending, ← h.rejoinInFlight, hb.idle] at hseq
    rw [hlog, commands_append, commands_append, h.commands.2, hseq, pending, hflight]
    simp [commands, Act.isCommand]
  · rw [hlog]
    exact Cleared.append ((h.cleared hcl).append nofun) nofun
  · cases hflight.symm.trans hidle

theorem Protocol.finished {s s' : State} {i : Nat} {throws : Bool} (hP : Protocol s)
    (hg' : Guard s') (h : Finished s s' i throws) : Protocol s' := by
  obtain ⟨⟨k, hseq⟩, hg, hcl, -⟩ := hP
  obtain ⟨due, hi, -⟩ := h.due
  have hflight := (hg.timer hi).1
  have hidle : s'.page.rejoinInFlight = false := by rw [h.page]
  have hlog : pageLog s' = pageLog s ++ [.netClear] ++ [.connect] := by
    rw [List.append_assoc]
    exact pageLog_append h.log (by decide)
  refine ⟨⟨k + 1, ?_⟩, hg', ?_, fun _ => ?_⟩
  · rw [pending, hflight] at hseq
    rw [hlog, commands_append, commands_append, hseq, pending, hidle,
      List.replicate_succ', List.flatten_append]
    simp [commands, Act.isCommand]
  · rw [hlog]
    refine Cleared.append (hcl.append nofun) fun _ _ => ?_
    exact List.getLast?_concat
  · rw [hlog]
    exact served_append_connect _

theorem protocol_step {s s' : State} {e : Event} (hsound : Sound s) (hf : Fresh s)
    (hP : s.page.started = true → Protocol s) (hG : StartsCleanly s e)
    (h : step s e = some s') (hs' : s'.page.started = true) : Protocol s' := by
  have hg' := guard_step hsound.guard h
  cases acts_of_step h with
  | elapse => exact (hP hs').frame hg' rfl rfl
  | load => cases hs'
  | createClient hx => exact (hP hs').frame hg' rfl rfl
  | @start threw hx hs =>
      cases threw with
      | false => exact protocol_start hf hs hg'
      | true => exact absurd rfl hG
  | net he hnet => exact (hP hs').frame hg' rfl rfl
  | aside h hr =>
      have hs := h.started.symm.trans hs'
      exact (hP hs).aside hg' (hsound.wf.x hs) hs h hr
  | begun h hb => exact (hP (h.started.symm.trans hb.started)).begun hg' h hb
  | finished h =>
      have hs : s.page.started = true := by
        rw [h.page] at hs'
        exact hs'
      exact (hP hs).finished hg' h

/-- A start that throws leaves a session without its first `connect`. -/
theorem not_protocol_of_throw {s s' : State} {e : Event} (hf : Fresh s)
    (hG : ¬ StartsCleanly s e) (h : step s e = some s') :
    s'.page.started = true ∧ ¬ Protocol s' := by
  obtain rfl : e = .start true := Classical.not_not.mp hG
  simp only [step, Option.ite_none_right_eq_some] at h
  obtain ⟨⟨-, hs⟩, h⟩ := h
  obtain rfl := Option.some.inj h
  refine ⟨rfl, fun hP => ?_⟩
  have hnil : commands (pageLog (start s true)) = [] := (hf hs).1
  have := hP.head
  rw [hnil] at this
  cases this

/-- The rejoin in flight ends: its timer is due within the delay, and its
callback issues the `connect` whatever throws. -/
theorem flight_connects {s : State} (hg : Guard s)
    (hf : s.page.rejoinInFlight = true) (throws : Bool) :
    ∃ s', run step s [.elapse rejoinDelay, .rejoinTimer 0 throws] = some s'
      ∧ s'.log = s.log ++ [.netClear, .connect] ∧ s'.page.rejoinInFlight = false := by
  obtain ⟨due, htimers, hdue⟩ := hg.flight hf
  let u : State := { s with
    now := s.now + rejoinDelay, now_pos := Nat.add_pos_left s.now_pos rejoinDelay }
  have hi : u.page.rejoinTimers[0]? = some due := by
    rw [show u.page.rejoinTimers = [due] from htimers]
    rfl
  have hfin := finished_finishRejoin throws hi hdue
  refine ⟨_, run_cons_eq_some.mpr ⟨u, rfl, run_cons_eq_some.mpr ⟨_, ?_, rfl⟩⟩,
    hfin.log, ?_⟩
  · rw [step, hi]
    exact if_pos hdue
  · rw [hfin.page]

/-- Every rebuild so far has its `connect`, at the latest when the rejoin in
flight ends. -/
theorem Protocol.eventually_served {s : State} (hP : Protocol s) (throws : Bool) :
    ∃ es s', (es = [] ∨ es = [.elapse rejoinDelay, .rejoinTimer 0 throws])
      ∧ run step s es = some s' ∧ Served (pageLog s') := by
  cases hf : s.page.rejoinInFlight with
  | false => exact ⟨[], s, Or.inl rfl, rfl, hP.served hf⟩
  | true =>
      obtain ⟨s', hrun, hlog, -⟩ := flight_connects hP.guard hf throws
      refine ⟨_, s', Or.inr rfl, hrun, ?_⟩
      have hpage : pageLog s' = pageLog s ++ [.netClear] ++ [.connect] := by
        rw [List.append_assoc]
        exact pageLog_append hlog (by decide)
      rw [hpage]
      exact served_append_connect _

/-- In every state of a run that is past `started = true` the commands, the
guard and the rebuilds are as the protocol says, exactly when no `main()` of
the run throws before its `connect`. -/
theorem rejoin_protocol_iff {now maxPackets : Nat} (now_pos : 0 < now)
    (pos : 0 < maxPackets) (hidden : Bool) (es : List Event) :
    Always step (fun s => s.page.started = true → Protocol s)
        (init now now_pos maxPackets pos hidden) es
      ↔ EachStep step StartsCleanly (init now now_pos maxPackets pos hidden) es := by
  refine always_iff_eachStep (I := fun s => Sound s ∧ Fresh s) ?_ ?_ ?_
    ⟨sound_init now_pos pos hidden, fun _ => ⟨rfl, rfl⟩⟩ nofun es
  · rintro s e s' ⟨hsound, hf⟩ h
    exact ⟨sound_step hsound h, fresh_step hsound.guard hf h⟩
  · rintro s e s' ⟨hsound, hf⟩ hP hG h
    exact protocol_step hsound hf hP hG h
  · rintro s e s' ⟨-, hf⟩ - hG h hP'
    obtain ⟨hs', hP⟩ := not_protocol_of_throw hf hG h
    exact hP (hP' hs')

/-- A rebuild while a rejoin is in flight, and both calls of the callback
throw: the commands are `connect`, `disconnect`, `connect` all the same. -/
theorem rejoin_protocol_coalesced :
    ∃ s, run step (init 1 (by decide) 16384 (by decide) false)
        [.createClient, .start false, .reconnected true, .reconnected false,
          .elapse 300, .rejoinTimer 0 true] = some s
      ∧ s.page.started = true
      ∧ commands (pageLog s) = [.connect, .disconnect, .connect]
      ∧ Always step (fun s => s.page.started = true → Protocol s)
          (init 1 (by decide) 16384 (by decide) false)
          [.createClient, .start false, .reconnected true, .reconnected false,
            .elapse 300, .rejoinTimer 0 true] :=
  ⟨_, rfl, rfl, by decide, (rejoin_protocol_iff _ _ _ _).mpr (by decide)⟩

/-- `main()` throws after `started = true`; a rejoin then disconnects from a
session that was never opened. -/
theorem throwing_start_lacks_connect :
    ∃ s, run step (init 1 (by decide) 16384 (by decide) false)
        [.createClient, .start true, .reconnected false, .elapse 300,
          .rejoinTimer 0 false] = some s
      ∧ s.page.started = true
      ∧ commands (pageLog s) = [.disconnect, .connect] ∧ ¬ Protocol s :=
  ⟨_, rfl, rfl, by decide, fun hP => absurd hP.head (by decide)⟩

end Tab

end XashProxy
