import XashProxy.Bridge

/-!
# What an idle teardown knows

The timeout of the `select!` is created anew on every iteration, under a
precondition read at that moment. An idle teardown therefore measures from
the last iteration: `Watch` records when the loop last received a datagram,
empty ones included, and when and with what outcome it last read the flags,
and `idle_teardown_justified` says that the branch only fires on a bridge
that was started by then and has been silent for the whole timeout.
-/

namespace XashProxy

namespace Bridge

open Lts

/-- The history of the loop's receives and of its reads of the flags. -/
structure Watch where
  /-- When the loop last received a datagram. -/
  receivedAt : Option Nat
  /-- When the precondition of the idle branch was last evaluated. -/
  consultedAt : Option Nat
  /-- A non-empty datagram has been received. -/
  answered : Bool
  /-- The browser has sent a message. -/
  spoke : Bool
  /-- One of the two was so when the precondition was last evaluated. -/
  started : Bool
deriving DecidableEq, Repr

def Watch.init : Watch := ⟨none, none, false, false, false⟩

/-- The `select!` is entered at time `now`. -/
def Watch.consult (w : Watch) (now : Nat) : Watch :=
  { w with consultedAt := some now, started := w.answered || w.spoke }

def Watch.receive (w : Watch) (now : Nat) (datagram : Bytes) : Watch :=
  { w with receivedAt := some now, answered := w.answered || !datagram.isEmpty }

/-- A branch that is ready on entry is chosen after the preconditions were
evaluated, like any other. -/
def observeWatch (s : State) (e : Event) (w : Watch) : Watch :=
  match e with
  | .forward p =>
      let w := if s.forwarderPc = .select then w.consult s.now else w
      match p, s.socket with
      | .recv, .ok datagram :: _ => w.receive s.now datagram
      | _, _ => w
  | .browserMessage _ => { w with spoke := true }
  | _ => w

/-- `IDLE_TIMEOUT` has passed since the last datagram and since the flags
were last read, and by then the bridge had started. -/
structure Justified (s : State) (w : Watch) : Prop where
  received : ∀ r, w.receivedAt = some r → r + idleTimeout ≤ s.now
  consulted : ∃ t, w.consultedAt = some t ∧ t + idleTimeout ≤ s.now
  started : w.started = true

/-- The idle branch is only taken on a justified watch. -/
def IdleJustified (r : State × Watch) (e : Event) : Prop :=
  e = .forward .idle → Justified r.1 r.2

/-- While the browser is silent and the upstream has sent nothing but empty
datagrams, the idle branch is not enabled, at whatever time. -/
def NotStartedNotIdle (r : State × Watch) : Prop :=
  r.2.answered = false → r.2.spoke = false →
    ∀ ms, forwardUdpToWebrtc { r.1 with now := r.1.now + ms } .idle = none

/-! ## The timer and the history -/

structure Watched (s : State) (w : Watch) : Prop where
  answered : s.sawPacket = true → w.answered = true
  spoke : s.browserStarted = true → w.spoke = true
  past : ∀ r, w.receivedAt = some r → r ≤ s.now
  started : w.started = true → w.answered = true ∨ w.spoke = true
  /-- A parked forwarder has read the flags since the last datagram. -/
  parked : ∀ deadline, s.forwarderPc = .parked (some deadline) →
    ∃ t, w.consultedAt = some t ∧ deadline = t + idleTimeout ∧ w.started = true
      ∧ ∀ r, w.receivedAt = some r → r ≤ t

theorem watched_init : Watched init .init := ⟨nofun, nofun, nofun, nofun, nofun⟩

theorem Watched.consult {s : State} {w : Watch} (hw : Watched s w)
    (hpc : s.forwarderPc = .select) : Watched s (w.consult s.now) := by
  refine ⟨hw.answered, hw.spoke, hw.past, ?_, ?_⟩
  · intro h
    simpa [Watch.consult] using h
  · intro deadline h
    rw [hpc] at h
    cases h

/-- What the forwarder finds when its `select!` is polled. -/
theorem Watched.polled {s : State} {w : Watch} (hw : Watched s w) :
    Watched s (if s.forwarderPc = .select then w.consult s.now else w) := by
  split
  · rename_i hpc
    exact hw.consult hpc
  · exact hw

/-- Steps that leave the forwarder's flags and its timer alone. -/
theorem Watched.frame {s s' : State} {w : Watch} (hw : Watched s w)
    (hsaw : s'.sawPacket = s.sawPacket) (hstart : s'.browserStarted = s.browserStarted)
    (hnow : s.now ≤ s'.now)
    (hpc : ∀ deadline, s'.forwarderPc = .parked (some deadline) →
      s.forwarderPc = .parked (some deadline)) : Watched s' w := by
  refine ⟨?_, ?_, fun r hr => Nat.le_trans (hw.past r hr) hnow, hw.started, ?_⟩
  · rw [hsaw]
    exact hw.answered
  · rw [hstart]
    exact hw.spoke
  · exact fun deadline h => hw.parked deadline (hpc deadline h)

theorem watched_onReadEnd {s : State} {w : Watch} (hw : Watched s w) :
    Watched (onReadEnd s) w := by
  rcases onReadEnd_cases s with ⟨-, heq⟩ | ⟨-, heq⟩ <;> rw [heq]
  · exact hw.frame rfl rfl (Nat.le_refl _) (fun _ => id)
  · exact hw

/-- A datagram is received, and the forwarder is not parked any more. -/
theorem Watched.receive {s s' : State} {w : Watch} (hw : Watched s w)
    (datagram : Bytes) (hsaw : s'.sawPacket = true → s.sawPacket = true ∨ datagram ≠ [])
    (hstart : s'.browserStarted = s.browserStarted) (hnow : s'.now = s.now)
    (hpc : ∀ sleep, s'.forwarderPc ≠ .parked sleep) :
    Watched s' (w.receive s.now datagram) := by
  refine ⟨?_, ?_, ?_, ?_, fun deadline h => absurd h (hpc _)⟩
  · intro h
    rcases hsaw h with h | h
    · simp [Watch.receive, hw.answered h]
    · simp [Watch.receive, h]
  · rw [hstart]
    exact hw.spoke
  · intro r hr
    obtain rfl := Option.some.inj hr
    exact Nat.le_of_eq hnow.symm
  · intro h
    rcases hw.started h with h | h
    · exact Or.inl (by simp [Watch.receive, h])
    · exact Or.inr h

/-- The forwarder parks on the precondition it has just evaluated. -/
theorem Watched.park {s : State} {w : Watch} (hw : Watched s w)
    (hpc : s.forwarderPc = .select) (shutdown : Notify Task) :
    Watched { s with
      forwarderPc := .parked (if armed s then some (s.now + idleTimeout) else none)
      shutdown := shutdown } (w.consult s.now) := by
  have hc := hw.consult hpc
  refine ⟨hc.answered, hc.spoke, hc.past, hc.started, ?_⟩
  intro deadline hdl
  have hsleep := ForwarderPc.parked.inj hdl
  split at hsleep
  · rename_i harmed
    refine ⟨s.now, rfl, (Option.some.inj hsleep).symm, ?_, hw.past⟩
    rw [armed, Bool.or_eq_true] at harmed
    rcases harmed with h | h
    · simp [Watch.consult, hw.answered h]
    · simp [Watch.consult, hw.spoke h]
  · cases hsleep

theorem watched_step {s s' : State} {e : Event} {w : Watch} (hw : Watched s w)
    (h : step s e = some s') : Watched s' (observeWatch s e w) := by
  have hp := hw.polled
  have hle := Nat.le_refl s.now
  cases acts_of_step h with
  | spawn hpc => exact hw.frame rfl rfl hle nofun
  | install hpc => exact hw.frame rfl rfl hle (fun _ => id)
  | wake hpc hpoll => exact hw.frame rfl rfl hle (fun _ => id)
  | wait hpc hpoll => exact hw.frame rfl rfl hle (fun _ => id)
  | abort hpc => exact hw.frame rfl rfl hle (fun _ => id)
  | park hpc hsock hpoll =>
      simp only [observeWatch, hpc, if_true]
      exact hw.park hpc _
  | recv hsock hsel hne =>
      simp only [observeWatch, hsock]
      exact hp.receive _ (fun _ => Or.inr hne) rfl rfl nofun
  | recvEmpty hsock hsel =>
      simp only [observeWatch, hsock]
      exact hp.receive [] (fun h => Or.inl h) rfl rfl nofun
  | recvError hsock hsel =>
      simp only [observeWatch, hsock]
      exact hp.frame rfl rfl hle nofun
  | idle hpc hle' => exact hp.frame rfl rfl hle nofun
  | notified hsel hpoll => exact hp.frame rfl rfl hle nofun
  | sent hpc => exact hp.frame rfl rfl hle nofun
  | sendFailed hpc => exact hp.frame rfl rfl hle nofun
  | writeClosed hpc => exact hp.frame rfl rfl hle nofun
  | readClosed hpc => exact hp.frame rfl rfl hle nofun
  | cancel hab hlive => exact hw.frame rfl rfl hle nofun
  | datagram => exact hw.frame rfl rfl hle (fun _ => id)
  | message hinst =>
      exact ⟨hw.answered, fun _ => rfl, hw.past, fun _ => Or.inr rfl, hw.parked⟩
  | unheard hinst =>
      exact ⟨hw.answered, fun _ => rfl, hw.past, fun _ => Or.inr rfl, hw.parked⟩
  | readClose hopen => exact watched_onReadEnd (hw.frame rfl rfl hle (fun _ => id))
  | readError => exact watched_onReadEnd hw
  | shutdown => exact hw.frame rfl rfl hle (fun _ => id)
  | elapse => exact hw.frame rfl rfl (Nat.le_add_right _ _) (fun _ => id)

/-! ## The idle branch -/

/-- The branch fires on the timer of the last iteration. -/
theorem justified_of_idle {s s' : State} {w : Watch} (hw : Watched s w)
    (h : step s (.forward .idle) = some s') : Justified s w := by
  cases acts_of_step h with
  | idle hpc hle =>
      obtain ⟨t, hc, rfl, hstarted, hpast⟩ := hw.parked _ hpc
      refine ⟨fun r hr => ?_, ⟨t, hc, hle⟩, hstarted⟩
      have := hpast r hr
      omega

theorem notStartedNotIdle_of_watched {s : State} {w : Watch} (hw : Watched s w) :
    NotStartedNotIdle (s, w) := by
  intro hans hspoke ms
  cases h : forwardUdpToWebrtc { s with now := s.now + ms } .idle with
  | none => rfl
  | some s' =>
      have hlater : Watched { s with now := s.now + ms } w :=
        hw.frame rfl rfl (Nat.le_add_right _ _) (fun _ => id)
      have hj := justified_of_idle hlater h
      rcases hw.started hj.started with hs | hs
      · rw [hans] at hs
        cases hs
      · rw [hspoke] at hs
        cases hs

/-- In every run: the idle branch tears the bridge down only when
`IDLE_TIMEOUT` has passed since the last datagram and since the flags were
last read, with the bridge started by then; and it never fires while the
browser has sent nothing and the upstream nothing but empty datagrams. -/
theorem idle_teardown_justified (es : List Event) :
    EachStep (recorded step observeWatch) IdleJustified (init, .init) es
      ∧ Always (recorded step observeWatch) NotStartedNotIdle (init, .init) es := by
  constructor
  · refine recorded_eachStep ?_ watched_step watched_init es
    rintro s w e s' hw h rfl
    exact justified_of_idle hw h
  · exact recorded_always notStartedNotIdle_of_watched watched_step watched_init es

/-- The viewer has spoken before the `select!` is entered; 25 seconds of
silence later the branch is taken. -/
example : ∃ s, run step init [.start, .start, .browserMessage [1], .forward .park,
    .elapse idleTimeout, .forward .idle] = some s ∧ s.writeCloseCalled = true :=
  ⟨_, rfl, rfl⟩

end Bridge

end XashProxy
