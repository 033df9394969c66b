import XashProxy.TransportSimulation

/-!
# No candidate is lost

The client adds every candidate of a session exactly once: the ledger counts
them, and its buffer is empty of them when the session's answer has been
sent. The proxy adds what the client sends in the order it arrives, so its
side is a property of the outboxes; `none_lost_iff` says that it holds
exactly when no replaced peer emits a candidate on a new socket before the
answer of that socket's session.
-/

namespace XashProxy

namespace Transport

open Lts

/-! ## What the client adds -/

/-- The session of socket `k` and peer `p` is the current one, has sent its
answer, and has no operation left. -/
structure Negotiated (s : State) (k p : Nat) : Prop where
  ws : s.ws = some k
  peer : s.peer = some p
  socket : (s.peers p).socket = some k
  answered : ∃ a : Answer, a.peer = p ∧ .answer a ∈ (s.sockets k).outbox
  ops : (s.peers p).ops = []

/-- Every candidate received on socket `k` has been added to peer `p` once. -/
structure Delivered (s : State) (k p : Nat) : Prop where
  added : ((s.peers p).added.filter fun c => c.socket = k).Perm (s.sockets k).received
  buffer : ∀ c ∈ s.candidates, c.socket ≠ k

structure Ledger.Kept (l : Ledger) : Prop where
  placed : Ledger.Placed l
  counted : Ledger.Counted l
  flushed : Ledger.Flushed l
  emitted : Ledger.Emitted l

theorem Ledger.kept_step {l l' : Ledger} {e : Event} (h : Ledger.Kept l)
    (hs : Ledger.Step l e l') : Ledger.Kept l' :=
  ⟨Ledger.placed_step h.placed hs, Ledger.counted_step h.placed h.counted hs,
    Ledger.flushed_step h.placed h.counted h.flushed hs,
    Ledger.emitted_step h.placed h.emitted hs⟩

theorem kept_init (onReconnected : Bool) {maxPackets : Nat} (pos : 0 < maxPackets) :
    Ledger.Kept (ledger (init onReconnected maxPackets pos)) where
  placed := ⟨nofun, nofun, fun _ _ => ⟨rfl, rfl⟩, nofun, nofun, nofun, nofun,
    fun _ _ => rfl⟩
  counted := ⟨fun _ _ hs => absurd hs.1 nofun, fun _ _ hs => absurd hs.1 nofun⟩
  flushed _ _ hs := absurd hs.1 nofun
  emitted := nofun

theorem delivered_of_kept {s : State} (h : Ledger.Kept (ledger s)) {k p : Nat}
    (hn : Negotiated s k p) : Delivered s k p := by
  have hs : (ledger s).Session k p := ⟨hn.ws, hn.peer, hn.socket⟩
  obtain ⟨-, -, hbuffer⟩ := h.flushed k p hs hn.answered
  refine ⟨List.perm_iff_count.mpr fun c => ?_, hbuffer⟩
  by_cases hc : c.socket = k
  · rw [List.count_filter (by simpa using hc)]
    have htally : (s.sockets k).received.count c
        = (s.peers p).added.count c + ((s.peers p).ops.filterMap Op.candidate).count c
          + s.candidates.count c := h.counted.tally k p hs c hc
    have hnone : s.candidates.count c = 0 :=
      List.count_eq_zero.mpr fun hmem => hbuffer c hmem hc
    rw [hn.ops, hnone] at htally
    exact htally.symm
  · -- nothing of another socket is in either list
    have hleft : c ∉ (s.peers p).added.filter fun c => c.socket = k :=
      fun hmem => hc (by simpa using (List.mem_filter.mp hmem).2)
    have hright : c ∉ (s.sockets k).received := fun hmem => hc (h.placed.own k c hmem)
    rw [List.count_eq_zero.mpr hleft, List.count_eq_zero.mpr hright]

/-! ## What the proxy adds -/

inductive ProxyCall where
  | setRemoteDescription (a : Answer)
  | addIceCandidate (c : LocalCandidate)
deriving DecidableEq, Repr

/-- One turn of `handle_ws_messages`: `handle_answer`, `handle_candidate`. -/
def handleWsMessage : Signal → Option ProxyCall
  | .answer a => some (.setRemoteDescription a)
  | .candidate c => some (.addIceCandidate c)
  | .ping => none

/-- `handle_ws_messages`, which awaits each call before the next message. -/
def handleWsMessages (msgs : List Signal) : List ProxyCall :=
  msgs.filterMap handleWsMessage

/-- Each candidate is added after an answer of the session. -/
def AnswerFirst (own : Answer → Prop) (calls : List ProxyCall) : Prop :=
  ∀ before c after, calls = before ++ .addIceCandidate c :: after →
    ∃ a, own a ∧ .setRemoteDescription a ∈ before

theorem AnswerFirst.mono {own own' : Answer → Prop} {calls : List ProxyCall}
    (h : AnswerFirst own calls) (hown : ∀ a, own a → own' a) : AnswerFirst own' calls := by
  intro before c after heq
  obtain ⟨a, ha, hmem⟩ := h before c after heq
  exact ⟨a, hown a ha, hmem⟩

theorem answerFirst_concat {own : Answer → Prop} {calls : List ProxyCall}
    {call : ProxyCall} : AnswerFirst own (calls ++ [call]) ↔ AnswerFirst own calls
      ∧ ∀ c, call = .addIceCandidate c →
        ∃ a, own a ∧ .setRemoteDescription a ∈ calls := by
  constructor
  · intro h
    refine ⟨fun before c after heq => ?_, fun c heq => ?_⟩
    · exact h before c (after ++ [call]) (by rw [heq]; simp)
    · exact h calls c [] (by rw [heq])
  · rintro ⟨h, hlast⟩ before c after heq
    rcases List.eq_nil_or_concat after with rfl | ⟨after', last, rfl⟩
    · obtain ⟨rfl, hcall⟩ := List.append_inj' heq rfl
      exact hlast c (List.singleton_inj.mp hcall)
    · rw [List.concat_eq_append, ← List.cons_append, ← List.append_assoc] at heq
      obtain ⟨hcalls, -⟩ := List.append_inj' heq rfl
      exact h before c after' hcalls

theorem answer_mem_calls {msgs : List Signal} {a : Answer} :
    .setRemoteDescription a ∈ handleWsMessages msgs ↔ .answer a ∈ msgs := by
  unfold handleWsMessages
  rw [List.mem_filterMap]
  constructor
  · rintro ⟨msg, hmem, heq⟩
    cases msg with
    | answer b =>
        obtain rfl : b = a := by simpa [handleWsMessage] using heq
        exact hmem
    | candidate c => cases heq
    | ping => cases heq
  · intro hmem
    exact ⟨.answer a, hmem, rfl⟩

/-- The messages of every socket reach the proxy's peer in order. -/
def Ledger.Ordered (l : Ledger) : Prop :=
  ∀ k, AnswerFirst (fun a => (l.accounts a.peer).socket = some k)
    (handleWsMessages (l.outbox k))

/-- The message is an answer of the session of socket `k`. -/
def Signal.AnswerOf (peers : Nat → Peer) (k : Nat) : Signal → Prop
  | .answer a => (peers a.peer).socket = some k
  | .candidate _ | .ping => False

/-- A peer emits a candidate while a socket is open only if the socket is its
own or the answer of that session has been sent. -/
def GathersOwn (s : State) (e : Event) : Prop :=
  ∀ p ∈ gatherer e, ∀ k ∈ s.ws, (s.sockets k).readyState = .opened →
    (s.peers p).socket = some k
      ∨ ∃ msg ∈ (s.sockets k).outbox, msg.AnswerOf s.peers k

theorem ordered_send {l : Ledger} (h : Ledger.Ordered l) {k : Nat} {msg : Signal}
    (hmsg : ∀ c, msg = .candidate c → ∃ a : Answer,
      (l.accounts a.peer).socket = some k ∧ .answer a ∈ l.outbox k) :
    Ledger.Ordered (l.send k msg) := by
  intro j
  rw [Ledger.outbox_send]
  split
  · rename_i heq
    subst heq
    have hone : handleWsMessages (l.outbox j ++ [msg])
        = handleWsMessages (l.outbox j) ++ (handleWsMessage msg).toList := by
      unfold handleWsMessages
      rw [List.filterMap_append]
      cases msg <;> rfl
    rw [hone]
    cases msg with
    | ping =>
        rw [show handleWsMessage .ping = none from rfl, Option.toList_none, List.append_nil]
        exact h j
    | answer a => exact answerFirst_concat.mpr ⟨h j, nofun⟩
    | candidate c =>
        refine answerFirst_concat.mpr ⟨h j, fun d _ => ?_⟩
        obtain ⟨a, ha, hmem⟩ := hmsg c rfl
        exact ⟨a, ha, answer_mem_calls.mpr hmem⟩
  · exact h j

theorem ordered_modify {l : Ledger} (h : Ledger.Ordered l) {p : Nat}
    {f : Account → Account} (hsock : (f (l.accounts p)).socket = (l.accounts p).socket) :
    Ledger.Ordered (l.modify p f) := by
  refine fun k => (h k).mono fun a ha => ?_
  rw [Ledger.accounts_modify]
  split
  · rename_i heq
    rw [hsock, ← heq]
    exact ha
  · exact ha

theorem ordered_flush {l : Ledger} (h : Ledger.Ordered l) : Ledger.Ordered l.flush := by
  rcases Ledger.flush_cases l with ⟨p, -, heq⟩ | ⟨-, heq⟩ <;> rw [heq]
  · have hm : Ledger.Ordered (l.modify p fun q =>
        { q with pending := q.pending ++ l.candidates }) := ordered_modify h rfl
    exact hm
  · exact h

theorem ordered_step {s : State} {l' : Ledger} {e : Event} (hk : Ledger.Kept (ledger s))
    (h : Ledger.Ordered (ledger s)) (hG : GathersOwn s e)
    (hs : Ledger.Step (ledger s) e l') : Ledger.Ordered l' := by
  cases hs with
  | same => exact h
  | renewed hnew hold =>
      intro k
      dsimp only
      rw [Function.update_apply]
      split
      · intro before c after heq
        cases before <;> cases heq
      · exact h k
  | closed => exact h
  | opened hws hconn =>
      -- the peers that have answered are not the one that is started
      refine fun k => (h k).mono fun a ha => ?_
      have hlt := (hk.placed.started a.peer k ha).1
      dsimp only
      rw [Function.update_of_ne (Nat.ne_of_lt hlt)]
      exact ha
  | dropped => exact h
  | pinged hopen => exact ordered_send h nofun
  | gathered hlocal hws hopen =>
      rename_i p id k
      refine ordered_send h fun _ _ => ?_
      rcases hG p rfl k hws hopen with hown | ⟨msg, hmem, hof⟩
      · obtain ⟨a, rfl, hmem⟩ := hk.emitted k p hlocal hown hws hopen
        exact ⟨a, hown, hmem⟩
      · cases msg with
        | answer a => exact ⟨a, hof, hmem⟩
        | candidate c => exact hof.elim
        | ping => exact hof.elim
  | received hws hopen hc =>
      unfold Ledger.deliver
      split
      · exact ordered_flush h
      · exact h
  | remoteSet => exact ordered_modify h rfl
  | answerCreated hremote => exact ordered_modify h rfl
  | answered hlast hws hopen =>
      rename_i p k a
      have hm : Ledger.Ordered ((ledger s).modify p fun q => { q with localSet := true }) :=
        ordered_modify h rfl
      have hsent : Ledger.Ordered (((ledger s).modify p fun q =>
          { q with localSet := true }).send k (.answer a)) := ordered_send hm nofun
      exact ordered_flush hsent
  | unanswered hshut =>
      rename_i p
      have hm : Ledger.Ordered ((ledger s).modify p fun q => { q with localSet := true }) :=
        ordered_modify h rfl
      exact ordered_flush hm
  | stuck hshut => exact ordered_modify h rfl
  | added hpending hremote => exact ordered_modify h rfl
  | pushedBack hpending hremote =>
      rename_i p c pending
      have hm : Ledger.Ordered ((ledger s).modify p fun q => { q with pending := pending }) :=
        ordered_modify h rfl
      exact hm

/-! ## Whole runs -/

structure NoneLost (s : State) : Prop where
  delivered : ∀ k p, Negotiated s k p → Delivered s k p
  early : ∀ p, (s.peers p).remote = none → (s.peers p).added = []
  ordered : ∀ k, AnswerFirst (fun a => (s.peers a.peer).socket = some k)
    (handleWsMessages (s.sockets k).outbox)

instance (peers : Nat → Peer) (k : Nat) : (msg : Signal) → Decidable (msg.AnswerOf peers k)
  | .answer a => inferInstanceAs (Decidable ((peers a.peer).socket = some k))
  | .candidate _ | .ping => isFalse id

instance (s : State) (e : Event) : Decidable (GathersOwn s e) :=
  inferInstanceAs (Decidable (∀ p ∈ gatherer e, ∀ k ∈ s.ws,
    (s.sockets k).readyState = .opened → (s.peers p).socket = some k
      ∨ ∃ msg ∈ (s.sockets k).outbox, msg.AnswerOf s.peers k))

theorem handleWsMessages_concat_candidate (msgs : List Signal) (c : LocalCandidate) :
    handleWsMessages (msgs ++ [.candidate c])
      = handleWsMessages msgs ++ [.addIceCandidate c] :=
  List.filterMap_append

theorem not_none_lost_of_gathered {s s' : State} {e : Event} (hG : ¬ GathersOwn s e)
    (h : step s e = some s') : ¬ NoneLost s' := by
  unfold GathersOwn at hG
  push Not at hG
  obtain ⟨p, hp, k, hws, hopen, -, hnone⟩ := hG
  cases e with
  | iceCandidate q id =>
      cases id with
      | none => cases hp
      | some id =>
          obtain rfl : q = p := Option.some.inj hp
          simp only [step, Option.ite_none_right_eq_some] at h
          obtain rfl := Option.some.inj h.2
          rw [wsSend_of_opened _ hws hopen]
          intro hN
          have hfirst : AnswerFirst (fun a => (s.peers a.peer).socket = some k)
              (handleWsMessages ((modifySocket s k fun j =>
                j.send (.candidate ⟨q, id⟩)).sockets k).outbox) := hN.ordered k
          rw [sockets_modifySocket, if_pos rfl] at hfirst
          unfold Socket.send at hfirst
          rw [handleWsMessages_concat_candidate] at hfirst
          obtain ⟨a, ha, hmem⟩ := (answerFirst_concat.mp hfirst).2 _ rfl
          exact hnone _ (answer_mem_calls.mp hmem) ha
  | _ => cases hp

/-- In every run the client adds every candidate of a session exactly once;
and the proxy adds every candidate after the answer of its session exactly
when no older peer emits one before that answer. -/
theorem none_lost_iff (onReconnected : Bool) {maxPackets : Nat} (pos : 0 < maxPackets)
    (es : List Event) :
    Always step NoneLost (init onReconnected maxPackets pos) es
      ↔ EachStep step GathersOwn (init onReconnected maxPackets pos) es := by
  have hlost : ∀ {s}, Ledger.Kept (ledger s) → Ledger.Ordered (ledger s) → NoneLost s :=
    fun hk ho => ⟨fun _ _ hn => delivered_of_kept hk hn, hk.placed.early, ho⟩
  refine always_iff_eachStep (I := fun s => Wf s ∧ Ledger.Kept (ledger s)) ?_ ?_ ?_
    ⟨wf_init onReconnected pos, kept_init onReconnected pos⟩ ?_ es
  · rintro s e s' ⟨hwf, hk⟩ h
    exact ⟨wf_step hwf h, Ledger.kept_step hk (ledger_step hwf.toCore h)⟩
  · rintro s e s' ⟨hwf, hk⟩ hn hG h
    have hs := ledger_step hwf.toCore h
    exact hlost (Ledger.kept_step hk hs) (ordered_step hk hn.ordered hG hs)
  · rintro s e s' - - hG h
    exact not_none_lost_of_gathered hG h
  · refine hlost (kept_init onReconnected pos) fun k before c after heq => ?_
    cases before <;> cases heq

theorem none_lost_twice :
    Always step NoneLost (init true 16384 (by decide)) negotiatedTwice := by
  refine (none_lost_iff true (by decide) negotiatedTwice).mpr ?_
  decide

example : ∃ s, run step (init true 16384 (by decide)) negotiatedTwice = some s
    ∧ Negotiated s 1 1 ∧ (s.peers 1).added = [⟨1, 0⟩] :=
  ⟨_, rfl, ⟨rfl, rfl, rfl, ⟨⟨1, ⟨1, 0⟩⟩, rfl, by decide⟩, rfl⟩, rfl⟩

/-- A peer that was replaced while it still gathers sends a candidate on the
new socket, and the proxy adds it before it has an answer. -/
theorem late_gathering_precedes_answer :
    ∃ s, run step (init true 16384 (by decide))
        [.connect, .socketOpen 0, .offer 0 0, .complete 0 true, .complete 0 true,
          .complete 0 true, .forceReconnect, .socketOpen 1, .iceCandidate 0 (some 0),
          .offer 1 0, .complete 1 true, .complete 1 true, .complete 1 true] = some s
      ∧ Negotiated s 1 1 ∧ ¬ NoneLost s := by
  refine ⟨_, rfl, ⟨rfl, rfl, rfl, ⟨⟨1, ⟨1, 0⟩⟩, rfl, by decide⟩, rfl⟩, fun hN => ?_⟩
  obtain ⟨a, -, hmem⟩ := hN.ordered 1 [] ⟨0, 0⟩ [.setRemoteDescription ⟨1, ⟨1, 0⟩⟩] rfl
  cases hmem

end Transport

end XashProxy
