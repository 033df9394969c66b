import Mathlib.Logic.Basic
import Mathlib.Tactic.TypeStar

/-!
# Runs of a partial step function

A component is a state type, an event type and `step : σ → ε → Option σ`:
the event resolves every choice of the scheduler and of the environment,
and `none` says that the event is not enabled. Everything else here is
about lists of events.

Two predicates speak about a whole run. `Always P` is a property of the
states the run visits, `EachStep G` a property of the events it takes.
`run_invariant` is the induction rule for the end of a run and
`Always.of_invariant` the one for all of its states;
`always_iff_of_eachStep` is the rule for a property that fails exactly at
the steps that leave `G`. A property of the past of a run is one of the
states of `recorded step observe`, which carries a history variable along;
`recorded_invariant` and `recorded_always_iff_eachStep` are the same two rules
for these.
-/

namespace XashProxy

namespace Lts

variable {σ ε : Type*} {step : σ → ε → Option σ}

/-- Take the events in order; `none` as soon as one of them is not enabled. -/
def run (step : σ → ε → Option σ) : σ → List ε → Option σ
  | s, [] => some s
  | s, e :: es => (step s e).bind fun s' => run step s' es

/-- `P` holds in every state the run visits, both ends included. The run
stops at the first event that is not enabled. -/
def Always (step : σ → ε → Option σ) (P : σ → Prop) : σ → List ε → Prop
  | s, [] => P s
  | s, e :: es => P s ∧ ∀ s', step s e = some s' → Always step P s' es

/-- `G` holds of every event the run takes, at the state it is taken from. -/
def EachStep (step : σ → ε → Option σ) (G : σ → ε → Prop) : σ → List ε → Prop
  | _, [] => True
  | s, e :: es => ∀ s', step s e = some s' → G s e ∧ EachStep step G s' es

/-- No event of the kind `internal` is enabled. -/
def Quiescent (step : σ → ε → Option σ) (internal : ε → Prop) (s : σ) : Prop :=
  ∀ e, internal e → step s e = none

/-! ## Runs -/

@[simp] theorem run_nil (s : σ) : run step s [] = some s := rfl

theorem run_cons_eq_some {s t : σ} {e : ε} {es : List ε} :
    run step s (e :: es) = some t ↔
      ∃ s', step s e = some s' ∧ run step s' es = some t := by
  rw [run, Option.bind_eq_some_iff]

theorem run_append_eq_some {s t : σ} {es es' : List ε} :
    run step s (es ++ es') = some t ↔
      ∃ u, run step s es = some u ∧ run step u es' = some t := by
  induction es generalizing s with
  | nil => simp
  | cons e es ih =>
      rw [List.cons_append, run_cons_eq_some]
      constructor
      · rintro ⟨s', he, hr⟩
        obtain ⟨u, hu, ht⟩ := ih.mp hr
        exact ⟨u, run_cons_eq_some.mpr ⟨s', he, hu⟩, ht⟩
      · rintro ⟨u, hu, ht⟩
        obtain ⟨s', he, hs'⟩ := run_cons_eq_some.mp hu
        exact ⟨s', he, ih.mpr ⟨u, hs', ht⟩⟩

/-- What the events of a run keep, the run keeps. -/
theorem run_invariant_of_mem {I : σ → Prop} {s t : σ} {es : List ε}
    (hstep : ∀ {u e u'}, e ∈ es → I u → step u e = some u' → I u')
    (h : run step s es = some t) (hs : I s) : I t := by
  induction es generalizing s with
  | nil =>
      obtain rfl := Option.some.inj h
      exact hs
  | cons e es ih =>
      obtain ⟨s', he, hr⟩ := run_cons_eq_some.mp h
      exact ih (fun hmem => hstep (List.mem_cons_of_mem _ hmem)) hr
        (hstep (List.mem_cons_self ..) hs he)

/-- An invariant of every step is an invariant of every run. -/
theorem run_invariant {I : σ → Prop}
    (hstep : ∀ {s e s'}, I s → step s e = some s' → I s')
    {s t : σ} {es : List ε} (h : run step s es = some t) (hs : I s) : I t :=
  run_invariant_of_mem (fun _ => hstep) h hs

/-- What a run adds to a log is what its events may add, in their order. -/
theorem run_logs {δ : Type*} {f : σ → List δ} {bs : ε → List δ} {s t : σ} {es : List ε}
    (hstep : ∀ {u e u'}, e ∈ es → step u e = some u' →
      ∃ cs, cs.Sublist (bs e) ∧ f u' = f u ++ cs)
    (h : run step s es = some t) : ∃ cs, cs.Sublist (es.flatMap bs) ∧ f t = f s ++ cs := by
  induction es generalizing s with
  | nil =>
      obtain rfl := Option.some.inj h
      exact ⟨[], List.nil_sublist _, (List.append_nil _).symm⟩
  | cons e es ih =>
      obtain ⟨s', he, hr⟩ := run_cons_eq_some.mp h
      obtain ⟨cs, hcs, hs'⟩ := hstep (List.mem_cons_self ..) he
      obtain ⟨ds, hds, ht⟩ := ih (fun hmem => hstep (List.mem_cons_of_mem _ hmem)) hr
      refine ⟨cs ++ ds, ?_, ?_⟩
      · rw [List.flatMap_cons]
        exact hcs.append hds
      · rw [ht, hs', List.append_assoc]

/-! ## Properties of whole runs -/

/-- In a run that takes only steps in `G`, what its events keep at such steps
holds at its end. -/
theorem run_invariant_of_eachStep {I : σ → Prop} {G : σ → ε → Prop} {s t : σ} {es : List ε}
    (hstep : ∀ {u e u'}, e ∈ es → I u → G u e → step u e = some u' → I u')
    (h : run step s es = some t) (hG : EachStep step G s es) (hs : I s) : I t := by
  induction es generalizing s with
  | nil =>
      obtain rfl := Option.some.inj h
      exact hs
  | cons e es ih =>
      obtain ⟨s', he, hr⟩ := run_cons_eq_some.mp h
      obtain ⟨hGe, hG'⟩ := hG s' he
      exact ih (fun hmem => hstep (List.mem_cons_of_mem _ hmem)) hr hG'
        (hstep (List.mem_cons_self ..) hs hGe he)

theorem eachStep_cons_iff {G : σ → ε → Prop} {s s' : σ} {e : ε} {es : List ε}
    (he : step s e = some s') :
    EachStep step G s (e :: es) ↔ G s e ∧ EachStep step G s' es := by
  constructor
  · intro h
    exact h s' he
  · intro h u hu
    obtain rfl := Option.some.inj (he.symm.trans hu)
    exact h

/-- A run is checked step by step. -/
instance EachStep.decidable {G : σ → ε → Prop} [∀ s e, Decidable (G s e)] :
    (s : σ) → (es : List ε) → Decidable (EachStep step G s es)
  | _, [] => isTrue trivial
  | s, e :: es =>
      match h : step s e with
      | none => isTrue fun _ he => absurd (h.symm.trans he) nofun
      | some s' =>
          have := EachStep.decidable (G := G) s' es
          decidable_of_iff _ (eachStep_cons_iff h).symm

/-- A property of the events alone. -/
theorem EachStep.of_forall {G : σ → ε → Prop} {es : List ε}
    (h : ∀ e ∈ es, ∀ s, G s e) (s : σ) : EachStep step G s es := by
  induction es generalizing s with
  | nil => trivial
  | cons e es ih =>
      intro s' _
      exact ⟨h e (List.mem_cons_self ..) s,
        ih (fun e' h' => h e' (List.mem_cons_of_mem _ h')) s'⟩

theorem EachStep.congr {G G' : σ → ε → Prop}
    (h : ∀ {s e s'}, step s e = some s' → (G s e ↔ G' s e)) {s : σ} {es : List ε} :
    EachStep step G s es ↔ EachStep step G' s es := by
  induction es generalizing s with
  | nil => rfl
  | cons e es ih =>
      constructor
      · intro hG s' he
        exact ⟨(h he).mp (hG s' he).1, ih.mp (hG s' he).2⟩
      · intro hG s' he
        exact ⟨(h he).mpr (hG s' he).1, ih.mpr (hG s' he).2⟩

theorem EachStep.append {G : σ → ε → Prop} {s : σ} {es es' : List ε}
    (h : EachStep step G s es)
    (h' : ∀ u, run step s es = some u → EachStep step G u es') :
    EachStep step G s (es ++ es') := by
  induction es generalizing s with
  | nil => exact h' s rfl
  | cons e es ih =>
      intro s' he
      obtain ⟨hG, hG'⟩ := h s' he
      exact ⟨hG, ih hG' fun u hu => h' u (run_cons_eq_some.mpr ⟨s', he, hu⟩)⟩

theorem Always.of_invariant {I P : σ → Prop} {G : σ → ε → Prop}
    (hIP : ∀ {s}, I s → P s)
    (hstep : ∀ {s e s'}, I s → G s e → step s e = some s' → I s')
    {s : σ} {es : List ε} (hG : EachStep step G s es) (hs : I s) :
    Always step P s es := by
  induction es generalizing s with
  | nil => exact hIP hs
  | cons e es ih =>
      refine ⟨hIP hs, fun s' he => ?_⟩
      obtain ⟨hGe, hG'⟩ := hG s' he
      exact ih hG' (hstep hs hGe he)

/-- In a run that takes only steps in `H`: if the steps in `G` keep an
invariant `I` that implies `P`, and every step outside `G` breaks `P`, then
`P` holds throughout exactly when the run stays in `G`. -/
theorem always_iff_of_eachStep {I P : σ → Prop} {H G : σ → ε → Prop}
    (hIP : ∀ {s}, I s → P s)
    (hgood : ∀ {s e s'}, I s → H s e → G s e → step s e = some s' → I s')
    (hbad : ∀ {s e s'}, I s → H s e → ¬ G s e → step s e = some s' → ¬ P s')
    {s : σ} {es : List ε} (hH : EachStep step H s es) (hIs : I s) :
    Always step P s es ↔ EachStep step G s es := by
  induction es generalizing s with
  | nil => exact ⟨fun _ => trivial, fun _ => hIP hIs⟩
  | cons e es ih =>
      constructor
      · rintro ⟨-, h⟩ s' he
        have hP' : P s' := by
          cases es with
          | nil => exact h s' he
          | cons e' es' => exact (h s' he).1
        obtain ⟨hHe, hH'⟩ := hH s' he
        by_cases hG : G s e
        · exact ⟨hG, (ih hH' (hgood hIs hHe hG he)).mp (h s' he)⟩
        · exact absurd hP' (hbad hIs hHe hG he)
      · intro h
        refine ⟨hIP hIs, fun s' he => ?_⟩
        obtain ⟨hHe, hH'⟩ := hH s' he
        obtain ⟨hG, h'⟩ := h s' he
        exact (ih hH' (hgood hIs hHe hG he)).mpr h'

/-- If, under an invariant `I`, the steps in `G` keep `P` and every step
outside `G` breaks it, then `P` holds throughout a run exactly when the run
stays in `G`. -/
theorem always_iff_eachStep {I P : σ → Prop} {G : σ → ε → Prop}
    (hI : ∀ {s e s'}, I s → step s e = some s' → I s')
    (hgood : ∀ {s e s'}, I s → P s → G s e → step s e = some s' → P s')
    (hbad : ∀ {s e s'}, I s → P s → ¬ G s e → step s e = some s' → ¬ P s')
    {s : σ} (hIs : I s) (hPs : P s) (es : List ε) :
    Always step P s es ↔ EachStep step G s es := by
  have hH : EachStep step (fun _ _ => True) s es :=
    EachStep.of_forall (fun _ _ _ => trivial) s
  exact always_iff_of_eachStep (I := fun s => I s ∧ P s) And.right
    (fun hs _ hG he => ⟨hI hs.1 he, hgood hs.1 hs.2 hG he⟩)
    (fun hs _ hG he => hbad hs.1 hs.2 hG he) hH ⟨hIs, hPs⟩

/-- If `P`, once lost, stays lost, and is lost exactly by the steps outside
`G`, then a run ends in `P` exactly when it stays in `G`. -/
theorem run_iff_eachStep {I P : σ → Prop} {G : σ → ε → Prop}
    (hI : ∀ {s e s'}, I s → step s e = some s' → I s')
    (hgood : ∀ {s e s'}, I s → P s → G s e → step s e = some s' → P s')
    (hbad : ∀ {s e s'}, I s → ¬ G s e → step s e = some s' → ¬ P s')
    (hlost : ∀ {s e s'}, I s → ¬ P s → step s e = some s' → ¬ P s')
    {s t : σ} {es : List ε} (h : run step s es = some t) (hIs : I s)
    (hPs : P s) : P t ↔ EachStep step G s es := by
  induction es generalizing s with
  | nil =>
      obtain rfl := Option.some.inj h
      exact ⟨fun _ => trivial, fun _ => hPs⟩
  | cons e es ih =>
      obtain ⟨s', he, hr⟩ := run_cons_eq_some.mp h
      rw [eachStep_cons_iff he]
      by_cases hP' : P s'
      · have hG : G s e :=
          Classical.byContradiction fun hG => hbad hIs hG he hP'
        rw [ih hr (hI hIs he) hP']
        exact ⟨fun h => ⟨hG, h⟩, And.right⟩
      · have hlost' := run_invariant (I := fun u => I u ∧ ¬ P u)
          (fun hu he => ⟨hI hu.1 he, hlost hu.1 hu.2 he⟩) hr ⟨hI hIs he, hP'⟩
        exact ⟨fun h => absurd h hlost'.2,
          fun h => absurd (hgood hIs hPs h.1 he) hP'⟩

/-- An invariant that every step in `G` keeps, and that makes each of those
steps meet `H`. -/
theorem EachStep.of_invariant {I : σ → Prop} {G H : σ → ε → Prop}
    (hIH : ∀ {s e s'}, I s → G s e → step s e = some s' → H s e)
    (hstep : ∀ {s e s'}, I s → G s e → step s e = some s' → I s')
    {s : σ} {es : List ε} (hG : EachStep step G s es) (hs : I s) :
    EachStep step H s es := by
  induction es generalizing s with
  | nil => trivial
  | cons e es ih =>
      intro s' he
      obtain ⟨hGe, hG'⟩ := hG s' he
      exact ⟨hIH hs hGe he, ih hG' (hstep hs hGe he)⟩

/-! ## History variables -/

variable {γ : Type*} {observe : σ → ε → γ → γ}

/-- The component with a variable that `observe` updates at every step. The
variable influences nothing. -/
def recorded (step : σ → ε → Option σ) (observe : σ → ε → γ → γ) :
    σ × γ → ε → Option (σ × γ)
  | (s, g), e => (step s e).map fun s' => (s', observe s e g)

theorem recorded_eq_some {s t : σ} {g g' : γ} {e : ε} :
    recorded step observe (s, g) e = some (t, g') ↔
      step s e = some t ∧ observe s e g = g' := by
  rw [recorded, Option.map_eq_some_iff]
  constructor
  · rintro ⟨s', he, heq⟩
    obtain ⟨rfl, rfl⟩ := Prod.mk.inj heq
    exact ⟨he, rfl⟩
  · rintro ⟨he, rfl⟩
    exact ⟨t, he, rfl⟩

/-- An invariant that relates the component to its history. -/
theorem recorded_invariant {I : σ → γ → Prop}
    (hI : ∀ {s g e s'}, I s g → step s e = some s' → I s' (observe s e g))
    {s t : σ} {g g' : γ} {es : List ε}
    (h : run (recorded step observe) (s, g) es = some (t, g')) (hs : I s g) : I t g' := by
  refine run_invariant (I := fun r : σ × γ => I r.1 r.2) (fun {r e r'} hr he => ?_) h hs
  obtain ⟨he, hg⟩ := recorded_eq_some.mp he
  rw [← hg]
  exact hI hr he

/-- The same, for every state of the run. -/
theorem recorded_always {I : σ → γ → Prop} {P : σ × γ → Prop}
    (hIP : ∀ {s g}, I s g → P (s, g))
    (hI : ∀ {s g e s'}, I s g → step s e = some s' → I s' (observe s e g))
    {s : σ} {g : γ} (hs : I s g) (es : List ε) :
    Always (recorded step observe) P (s, g) es := by
  refine Always.of_invariant (I := fun r : σ × γ => I r.1 r.2) (G := fun _ _ => True) hIP
    (fun {r e r'} hr _ he => ?_) (EachStep.of_forall (fun _ _ _ => trivial) _) hs
  obtain ⟨he, hg⟩ := recorded_eq_some.mp he
  rw [← hg]
  exact hI hr he

/-- The same, for every step of the run. -/
theorem recorded_eachStep {I : σ → γ → Prop} {H : σ × γ → ε → Prop}
    (hIH : ∀ {s g e s'}, I s g → step s e = some s' → H (s, g) e)
    (hI : ∀ {s g e s'}, I s g → step s e = some s' → I s' (observe s e g))
    {s : σ} {g : γ} (hs : I s g) (es : List ε) :
    EachStep (recorded step observe) H (s, g) es := by
  refine EachStep.of_invariant (I := fun r : σ × γ => I r.1 r.2) (G := fun _ _ => True)
    (fun {r e r'} hr _ he => ?_) (fun {r e r'} hr _ he => ?_)
    (EachStep.of_forall (fun _ _ _ => trivial) _) hs
  · exact hIH hr (recorded_eq_some.mp he).1
  · obtain ⟨he, hg⟩ := recorded_eq_some.mp he
    rw [← hg]
    exact hI hr he

/-- `always_iff_eachStep` for a property of the past: the hypotheses are about
the steps of the component. -/
theorem recorded_always_iff_eachStep {I P : σ × γ → Prop} {G : σ × γ → ε → Prop}
    (hI : ∀ {s g e s'}, I (s, g) → step s e = some s' → I (s', observe s e g))
    (hgood : ∀ {s g e s'}, I (s, g) → P (s, g) → G (s, g) e → step s e = some s' →
      P (s', observe s e g))
    (hbad : ∀ {s g e s'}, I (s, g) → P (s, g) → ¬ G (s, g) e → step s e = some s' →
      ¬ P (s', observe s e g))
    {s : σ} {g : γ} (hIs : I (s, g)) (hPs : P (s, g)) (es : List ε) :
    Always (recorded step observe) P (s, g) es
      ↔ EachStep (recorded step observe) G (s, g) es := by
  refine always_iff_eachStep (I := I) ?_ ?_ ?_ hIs hPs es
  · rintro ⟨s, g⟩ e ⟨s', g'⟩ hr h
    obtain ⟨he, rfl⟩ := recorded_eq_some.mp h
    exact hI hr he
  · rintro ⟨s, g⟩ e ⟨s', g'⟩ hr hP hG h
    obtain ⟨he, rfl⟩ := recorded_eq_some.mp h
    exact hgood hr hP hG he
  · rintro ⟨s, g⟩ e ⟨s', g'⟩ hr hP hG h
    obtain ⟨he, rfl⟩ := recorded_eq_some.mp h
    exact hbad hr hP hG he

end Lts

end XashProxy
