import Mathlib.Logic.Basic

/-!
# Programs with a state and a fault

A program changes a state and returns a value or stops with a fault; what it
changed before the fault stays changed. The equations `exec_*_eq_*` take a
program that returned, or stopped, apart. `Keeps f m` says that the program
leaves a part of the state alone on either way out, `Faults P m` that it stops
with no other faults, `Returns P m` that it returns no other values.
`Preserves I m` keeps an invariant on either way out, and `Logs f bs m` adds to
a log no more than `bs`, in its order.
-/

namespace XashProxy

namespace Programs

abbrev Prog (σ ε α : Type) := ExceptT ε (StateM σ) α

variable {σ ε α β γ : Type}

def exec (m : Prog σ ε α) (s : σ) : Except ε α × σ := m.run s

def orThrow : Except ε α → Prog σ ε α
  | .ok a => pure a
  | .error e => throw e

theorem exec_bind (m : Prog σ ε α) (f : α → Prog σ ε β) (s : σ) :
    exec (m >>= f) s = match exec m s with
      | (.ok a, s') => exec (f a) s'
      | (.error e, s') => (.error e, s') := by
  have hrun : exec (m >>= f) s = ExceptT.bindCont f (exec m s).1 (exec m s).2 := rfl
  rw [hrun]
  obtain ⟨r, s'⟩ := exec m s
  cases r <;> rfl

/-- Either way out of a sequence. -/
theorem exec_bind_eq {m : Prog σ ε α} {f : α → Prog σ ε β} {s s' : σ} {r : Except ε β}
    (h : exec (m >>= f) s = (r, s')) : (∃ e, exec m s = (.error e, s') ∧ r = .error e)
      ∨ ∃ a t, exec m s = (.ok a, t) ∧ exec (f a) t = (r, s') := by
  rw [exec_bind] at h
  rcases hexec : exec m s with ⟨e | a, t⟩
  · rw [hexec] at h
    obtain ⟨rfl, rfl⟩ := Prod.mk.inj h
    exact .inl ⟨e, rfl, rfl⟩
  · rw [hexec] at h
    exact .inr ⟨a, t, rfl, h⟩

theorem exec_orThrow_bind (r : Except ε α) (f : α → Prog σ ε β) (s : σ) :
    exec (orThrow r >>= f) s = match r with
      | .ok a => exec (f a) s
      | .error e => (.error e, s) := by
  cases r <;> rfl

/-! ## What a program returned -/

theorem exec_pure_eq_ok {a b : α} {s s' : σ} :
    exec (pure a : Prog σ ε α) s = (.ok b, s') ↔ a = b ∧ s = s' := by
  change (Except.ok a, s) = (.ok b, s') ↔ _
  rw [Prod.mk.injEq, Except.ok.injEq]

theorem exec_throw_eq_ok {e : ε} {b : α} {s s' : σ} :
    exec (throw e : Prog σ ε α) s = (.ok b, s') ↔ False := by
  change (Except.error e, s) = (.ok b, s') ↔ _
  simp

theorem exec_modify_eq_ok {f : σ → σ} {u : Unit} {s s' : σ} :
    exec (modify f : Prog σ ε Unit) s = (.ok u, s') ↔ f s = s' := by
  change (Except.ok (), f s) = (.ok u, s') ↔ _
  simp

theorem exec_get_eq_ok {a s s' : σ} :
    exec (get : Prog σ ε σ) s = (.ok a, s') ↔ s = a ∧ s = s' := by
  change (Except.ok s, s) = (.ok a, s') ↔ _
  rw [Prod.mk.injEq, Except.ok.injEq]

theorem exec_bind_eq_ok {m : Prog σ ε α} {f : α → Prog σ ε β} {s s' : σ} {b : β} :
    exec (m >>= f) s = (.ok b, s')
      ↔ ∃ a t, exec m s = (.ok a, t) ∧ exec (f a) t = (.ok b, s') := by
  rw [exec_bind]
  obtain ⟨r, t⟩ := exec m s
  cases r with
  | error e => simp
  | ok a =>
    constructor
    · intro h
      exact ⟨a, t, rfl, h⟩
    · rintro ⟨a', t', heq, h⟩
      obtain ⟨rfl, rfl⟩ : a = a' ∧ t = t' := by simpa using heq
      exact h

/-! ## Where a program stopped -/

theorem exec_pure_eq_error {a : α} {e : ε} {s s' : σ} :
    exec (pure a : Prog σ ε α) s = (.error e, s') ↔ False := by
  change (Except.ok a, s) = (.error e, s') ↔ _
  simp

theorem exec_throw_eq_error {e e' : ε} {s s' : σ} :
    exec (throw e : Prog σ ε α) s = (.error e', s') ↔ e = e' ∧ s = s' := by
  change (Except.error e, s) = (.error e', s') ↔ _
  rw [Prod.mk.injEq, Except.error.injEq]

theorem exec_modify_eq_error {f : σ → σ} {e : ε} {s s' : σ} :
    exec (modify f : Prog σ ε Unit) s = (.error e, s') ↔ False := by
  change (Except.ok (), f s) = (.error e, s') ↔ _
  simp

theorem exec_get_eq_error {e : ε} {s s' : σ} :
    exec (get : Prog σ ε σ) s = (.error e, s') ↔ False := by
  change (Except.ok s, s) = (.error e, s') ↔ _
  simp

theorem exec_bind_eq_error {m : Prog σ ε α} {f : α → Prog σ ε β} {s s' : σ} {e : ε} :
    exec (m >>= f) s = (.error e, s') ↔ exec m s = (.error e, s')
      ∨ ∃ a t, exec m s = (.ok a, t) ∧ exec (f a) t = (.error e, s') := by
  rw [exec_bind]
  obtain ⟨r, t⟩ := exec m s
  cases r with
  | error e' => simp
  | ok a =>
    constructor
    · intro h
      exact .inr ⟨a, t, rfl, h⟩
    · rintro (heq | ⟨a', t', heq, h⟩)
      · simp at heq
      · obtain ⟨rfl, rfl⟩ : a = a' ∧ t = t' := by simpa using heq
        exact h

/-! ## What a program leaves alone -/

def Keeps (f : σ → γ) (m : Prog σ ε α) : Prop := ∀ s, f (exec m s).2 = f s

variable {f : σ → γ}

theorem Keeps.pure (a : α) : Keeps f (pure a : Prog σ ε α) := fun _ => rfl

theorem Keeps.throw (e : ε) : Keeps f (throw e : Prog σ ε α) := fun _ => rfl

theorem Keeps.get : Keeps f (get : Prog σ ε σ) := fun _ => rfl

theorem Keeps.modify {g : σ → σ} (h : ∀ s, f (g s) = f s) :
    Keeps f (modify g : Prog σ ε Unit) := h

theorem Keeps.bind {m : Prog σ ε α} {k : α → Prog σ ε β} (hm : Keeps f m)
    (hk : ∀ a, Keeps f (k a)) : Keeps f (m >>= k) := by
  intro s
  have h := hm s
  rw [exec_bind]
  rcases hexec : exec m s with ⟨r, t⟩
  rw [hexec] at h
  cases r with
  | ok a => exact (hk a t).trans h
  | error e => exact h

theorem Keeps.of_exec {m : Prog σ ε α} (h : Keeps f m) {s s' : σ} {r : Except ε α}
    (hexec : exec m s = (r, s')) : f s' = f s := by
  have hkeep := h s
  rwa [hexec] at hkeep

theorem Keeps.orThrow (r : Except ε α) : Keeps f (orThrow r : Prog σ ε α) := by
  cases r with
  | ok a => exact Keeps.pure a
  | error e => exact Keeps.throw e

/-! ## Invariants -/

def Preserves (I : σ → Prop) (m : Prog σ ε α) : Prop := ∀ s, I s → I (exec m s).2

variable {I : σ → Prop}

theorem Preserves.pure (a : α) : Preserves I (pure a : Prog σ ε α) := fun _ h => h

theorem Preserves.orThrow (r : Except ε α) : Preserves I (orThrow r : Prog σ ε α) := by
  cases r <;> exact fun _ h => h

theorem Preserves.modify {g : σ → σ} (h : ∀ s, I s → I (g s)) :
    Preserves I (modify g : Prog σ ε Unit) := h

theorem Preserves.bind {m : Prog σ ε α} {k : α → Prog σ ε β} (hm : Preserves I m)
    (hk : ∀ a, Preserves I (k a)) : Preserves I (m >>= k) := by
  intro s hs
  have h := hm s hs
  rw [exec_bind]
  rcases hexec : exec m s with ⟨r, t⟩
  rw [hexec] at h
  cases r with
  | ok a => exact hk a t h
  | error e => exact h

/-! ## Logs -/

def Logs {δ : Type} (f : σ → List δ) (bs : List δ) (m : Prog σ ε α) : Prop :=
  ∀ s, ∃ cs, cs.Sublist bs ∧ f (exec m s).2 = f s ++ cs

section
variable {δ : Type} {f : σ → List δ} {bs bs' : List δ}

theorem Logs.of_keeps {m : Prog σ ε α} (h : Keeps f m) : Logs f bs m :=
  fun s => ⟨[], List.nil_sublist bs, (h s).trans (List.append_nil _).symm⟩

theorem Logs.bind {m : Prog σ ε α} {k : α → Prog σ ε β} (hm : Logs f bs m)
    (hk : ∀ a, Logs f bs' (k a)) : Logs f (bs ++ bs') (m >>= k) := by
  intro s
  obtain ⟨cs, hcs, hlog⟩ := hm s
  rw [exec_bind]
  rcases hexec : exec m s with ⟨r, t⟩
  rw [hexec] at hlog
  cases r with
  | ok a =>
      obtain ⟨ds, hds, hlog'⟩ := hk a t
      refine ⟨cs ++ ds, hcs.append hds, ?_⟩
      rw [← List.append_assoc, ← hlog]
      exact hlog'
  | error e => exact ⟨cs, hcs.trans (List.sublist_append_left bs bs'), hlog⟩

/-- What comes before adds nothing. -/
theorem Logs.after {m : Prog σ ε α} {k : α → Prog σ ε β} (hm : Keeps f m)
    (hk : ∀ a, Logs f bs (k a)) : Logs f bs (m >>= k) := by
  have hfirst : Logs f [] m := Logs.of_keeps hm
  exact hfirst.bind hk

/-- What comes after adds nothing. -/
theorem Logs.before {m : Prog σ ε α} {k : α → Prog σ ε β} (hm : Logs f bs m)
    (hk : ∀ a, Keeps f (k a)) : Logs f bs (m >>= k) := by
  have hrest : ∀ a, Logs f [] (k a) := fun a => Logs.of_keeps (hk a)
  have h := hm.bind hrest
  rwa [List.append_nil] at h

end

/-! ## How a program may stop -/

def Faults (P : ε → Prop) (m : Prog σ ε α) : Prop :=
  ∀ s e s', exec m s = (.error e, s') → P e

variable {P : ε → Prop}

theorem Faults.pure (a : α) : Faults P (pure a : Prog σ ε α) :=
  fun _ _ _ h => (exec_pure_eq_error.mp h).elim

theorem Faults.throw {e : ε} (h : P e) : Faults P (throw e : Prog σ ε α) :=
  fun _ _ _ hexec => (exec_throw_eq_error.mp hexec).1 ▸ h

theorem Faults.get : Faults P (get : Prog σ ε σ) :=
  fun _ _ _ h => (exec_get_eq_error.mp h).elim

theorem Faults.modify (g : σ → σ) : Faults P (modify g : Prog σ ε Unit) :=
  fun _ _ _ h => (exec_modify_eq_error.mp h).elim

theorem Faults.bind {m : Prog σ ε α} {k : α → Prog σ ε β} (hm : Faults P m)
    (hk : ∀ a, Faults P (k a)) : Faults P (m >>= k) := by
  intro s e s' h
  rcases exec_bind_eq_error.mp h with hfirst | ⟨a, t, -, hrest⟩
  · exact hm s e s' hfirst
  · exact hk a t e s' hrest

/-! ## What a program may return -/

def Returns (Q : α → Prop) (m : Prog σ ε α) : Prop :=
  ∀ s a s', exec m s = (.ok a, s') → Q a

theorem Returns.pure {Q : α → Prop} {a : α} (h : Q a) : Returns Q (pure a : Prog σ ε α) :=
  fun _ _ _ hexec => (exec_pure_eq_ok.mp hexec).1 ▸ h

theorem Returns.throw {Q : α → Prop} (e : ε) : Returns Q (throw e : Prog σ ε α) :=
  fun _ _ _ h => (exec_throw_eq_ok.mp h).elim

theorem Returns.bind {Q : β → Prop} {m : Prog σ ε α} {k : α → Prog σ ε β}
    (hk : ∀ a, Returns Q (k a)) : Returns Q (m >>= k) := by
  intro s b s' h
  obtain ⟨a, t, -, hrest⟩ := exec_bind_eq_ok.mp h
  exact hk a t b s' hrest

end Programs

end XashProxy
