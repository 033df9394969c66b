import XashProxy.Transport

/-!
# The ledger of candidates

An abstract view of the transport that keeps what happens to a candidate and
drops the rest: who received it, which peer is about to add it, which has
added it, and what is still buffered. An account is a peer without the
operations that are not about candidates.

In a session, that is while a peer and its socket are the current ones, every
candidate the socket has received is in exactly one of three places
(`Counted`), and once the session's answer has been sent the buffer holds
none of them (`Flushed`). Both hold of every step, whatever the session
before it left behind.
-/

namespace XashProxy

namespace Transport

structure Account where
  socket : Option Nat
  pending : List RemoteCandidate
  added : List RemoteCandidate
  remote : Option Offer
  lastAnswer : Option Answer
  localSet : Bool

def Account.fresh (socket : Option Nat) : Account := ⟨socket, [], [], none, none, false⟩

structure Ledger where
  ws : Option Nat
  peer : Option Nat
  nextSocket : Nat
  nextPeer : Nat
  candidates : List RemoteCandidate
  wasRemote : Bool
  readyState : Nat → ReadyState
  received : Nat → List RemoteCandidate
  outbox : Nat → List Signal
  accounts : Nat → Account

namespace Ledger

def modify (l : Ledger) (p : Nat) (f : Account → Account) : Ledger :=
  { l with accounts := Function.update l.accounts p (f (l.accounts p)) }

def send (l : Ledger) (k : Nat) (msg : Signal) : Ledger :=
  { l with outbox := Function.update l.outbox k (l.outbox k ++ [msg]) }

def push (l : Ledger) (c : RemoteCandidate) : Ledger :=
  { l with candidates := l.candidates ++ [c] }

/-- The buffer is handed to the current peer. -/
def flush (l : Ledger) : Ledger :=
  match l.peer with
  | some p =>
      { l.modify p fun q => { q with pending := q.pending ++ l.candidates } with
        candidates := [] }
  | none => l

def receive (l : Ledger) (k : Nat) (c : RemoteCandidate) : Ledger :=
  { l with received := Function.update l.received k (l.received k ++ [c]) }

def deliver (l : Ledger) (k : Nat) (c : RemoteCandidate) : Ledger :=
  if l.wasRemote then ((l.receive k c).push c).flush else (l.receive k c).push c

/-- Peer `p` has set its local description, and the answer has been sent. -/
def answer (l : Ledger) (p k : Nat) (a : Answer) : Ledger :=
  { (l.modify p fun q => { q with localSet := true }).send k (.answer a) with
    wasRemote := true }

inductive Step (l : Ledger) : Event → Ledger → Prop where
  | same {e : Event} : Step l e l
  | renewed {e : Event} {readyState : Nat → ReadyState}
      (hnew : readyState l.nextSocket = .connecting)
      (hold : ∀ k, k ≠ l.nextSocket → readyState k = l.readyState k
        ∨ readyState k = .closing ∨ readyState k = .closed) :
      Step l e { l with
        ws := some l.nextSocket, nextSocket := l.nextSocket + 1, readyState := readyState
        received := Function.update l.received l.nextSocket []
        outbox := Function.update l.outbox l.nextSocket [] }
  | closed {e : Event} {k : Nat} :
      Step l e { l with readyState := Function.update l.readyState k .closed }
  | opened {e : Event} {k : Nat} (hws : l.ws = some k)
      (hconn : l.readyState k = .connecting) :
      Step l e { l with
        readyState := Function.update l.readyState k .opened
        accounts := Function.update l.accounts l.nextPeer (.fresh l.ws)
        peer := some l.nextPeer, nextPeer := l.nextPeer + 1 }
  | dropped {e : Event} :
      Step l e { l with peer := none, candidates := [], wasRemote := false }
  | pinged {e : Event} {k : Nat} (hopen : l.readyState k = .opened) :
      Step l e (l.send k .ping)
  | gathered {p id k : Nat} (hlocal : (l.accounts p).localSet = true)
      (hws : l.ws = some k) (hopen : l.readyState k = .opened) :
      Step l (.iceCandidate p (some id)) (l.send k (.candidate ⟨p, id⟩))
  | received {e : Event} {k : Nat} {c : RemoteCandidate} (hws : l.ws = some k)
      (hopen : l.readyState k = .opened) (hc : c.socket = k) : Step l e (l.deliver k c)
  | remoteSet {e : Event} {p : Nat} {o : Offer} :
      Step l e (l.modify p fun q => { q with remote := some o })
  | answerCreated {e : Event} {p : Nat} {o : Offer}
      (hremote : (l.accounts p).remote = some o) :
      Step l e (l.modify p fun q => { q with lastAnswer := some ⟨p, o⟩ })
  | answered {e : Event} {p k : Nat} {a : Answer}
      (hlast : (l.accounts p).lastAnswer = some a) (hws : l.ws = some k)
      (hopen : l.readyState k = .opened) : Step l e (l.answer p k a).flush
  | unanswered {e : Event} {p : Nat}
      (hshut : ∀ k, l.ws = some k → l.readyState k ≠ .opened) :
      Step l e (flush { l.modify p fun q => { q with localSet := true } with
        wasRemote := true })
  | stuck {e : Event} {p : Nat}
      (hshut : ∀ k, l.ws = some k → l.readyState k ≠ .opened) :
      Step l e (l.modify p fun q => { q with localSet := true })
  | added {e : Event} {p : Nat} {c : RemoteCandidate} {pending : List RemoteCandidate}
      (hpending : (l.accounts p).pending = c :: pending)
      (hremote : (l.accounts p).remote.isSome = true) :
      Step l e (l.modify p fun q =>
        { q with pending := pending, added := q.added ++ [c] })
  | pushedBack {e : Event} {p : Nat} {c : RemoteCandidate}
      {pending : List RemoteCandidate}
      (hpending : (l.accounts p).pending = c :: pending)
      (hremote : (l.accounts p).remote = none) :
      Step l e ((l.modify p fun q => { q with pending := pending }).push c)

/-! ## Where things are -/

def HasOpened (l : Ledger) (k : Nat) : Prop :=
  k < l.nextSocket ∧ l.readyState k ≠ .connecting

structure Placed (l : Ledger) : Prop where
  current : ∀ k, l.ws = some k → k < l.nextSocket
  started : ∀ p k, (l.accounts p).socket = some k → p < l.nextPeer ∧ l.HasOpened k
  /-- Nothing passes through a socket before it opens. -/
  silent : ∀ k, l.readyState k = .connecting → l.received k = [] ∧ l.outbox k = []
  own : ∀ k, ∀ c ∈ l.received k, c.socket = k
  buffered : ∀ c ∈ l.candidates, l.HasOpened c.socket
  pending : ∀ p, ∀ c ∈ (l.accounts p).pending, l.HasOpened c.socket
  lastAnswer : ∀ p a, (l.accounts p).lastAnswer = some a →
    a.peer = p ∧ (l.accounts p).remote.isSome = true
  early : ∀ p, (l.accounts p).remote = none → (l.accounts p).added = []

theorem accounts_modify (l : Ledger) (p : Nat) (f : Account → Account) (j : Nat) :
    (l.modify p f).accounts j = if j = p then f (l.accounts p) else l.accounts j := by
  simp only [modify, Function.update_apply]

theorem outbox_send (l : Ledger) (k : Nat) (msg : Signal) (j : Nat) :
    (l.send k msg).outbox j = if j = k then l.outbox k ++ [msg] else l.outbox j := by
  simp only [send, Function.update_apply]

theorem received_receive (l : Ledger) (k : Nat) (c : RemoteCandidate) (j : Nat) :
    (l.receive k c).received j
      = if j = k then l.received k ++ [c] else l.received j := by
  simp only [receive, Function.update_apply]

theorem placed_modify {l : Ledger} (h : Placed l) {p : Nat} {f : Account → Account}
    (hsock : (f (l.accounts p)).socket = (l.accounts p).socket)
    (hpending : ∀ c ∈ (f (l.accounts p)).pending, l.HasOpened c.socket)
    (hlast : ∀ a, (f (l.accounts p)).lastAnswer = some a →
      a.peer = p ∧ (f (l.accounts p)).remote.isSome = true)
    (hearly : (f (l.accounts p)).remote = none → (f (l.accounts p)).added = []) :
    Placed (l.modify p f) := by
  refine ⟨h.current, ?_, h.silent, h.own, h.buffered, ?_, ?_, ?_⟩ <;> intro j <;>
    rw [accounts_modify] <;> split
  · rename_i heq
    subst heq
    rw [hsock]
    exact h.started j
  · exact h.started j
  · exact hpending
  · exact h.pending j
  · rename_i heq
    subst heq
    exact hlast
  · exact h.lastAnswer j
  · exact hearly
  · exact h.early j

theorem placed_setLocal {l : Ledger} (h : Placed l) (p : Nat) :
    Placed (l.modify p fun q => { q with localSet := true }) :=
  placed_modify h rfl (h.pending p) (h.lastAnswer p) (h.early p)

/-- What a peer has left once its first candidate is taken off. -/
theorem Placed.pending_tail {l : Ledger} (h : Placed l) {p : Nat} {c : RemoteCandidate}
    {pending : List RemoteCandidate} (hpending : (l.accounts p).pending = c :: pending) :
    ∀ d ∈ pending, l.HasOpened d.socket := by
  intro d hd
  refine h.pending p d ?_
  rw [hpending]
  exact List.mem_cons_of_mem _ hd

/-- A socket that is open sends. -/
theorem placed_send {l : Ledger} (h : Placed l) {k : Nat} {msg : Signal}
    (hopen : l.readyState k = .opened) : Placed (l.send k msg) := by
  refine ⟨h.current, h.started, fun j hj => ?_, h.own, h.buffered, h.pending,
    h.lastAnswer, h.early⟩
  have hne : j ≠ k := by
    rintro rfl
    exact absurd (hopen.symm.trans hj) nofun
  rw [outbox_send, if_neg hne]
  exact h.silent j hj

theorem placed_push {l : Ledger} (h : Placed l) {c : RemoteCandidate}
    (hc : l.HasOpened c.socket) : Placed (l.push c) := by
  refine ⟨h.current, h.started, h.silent, h.own, ?_, h.pending, h.lastAnswer, h.early⟩
  intro d hd
  rcases List.mem_append.mp hd with hd | hd
  · exact h.buffered d hd
  · obtain rfl := List.mem_singleton.mp hd
    exact hc

theorem placed_flush {l : Ledger} (h : Placed l) : Placed l.flush := by
  unfold flush
  split
  · rename_i p hp
    have hm : Placed (l.modify p fun q =>
        { q with pending := q.pending ++ l.candidates }) := by
      refine placed_modify h rfl (fun c hc => ?_) (h.lastAnswer p) (h.early p)
      rcases List.mem_append.mp hc with hc | hc
      · exact h.pending p c hc
      · exact h.buffered c hc
    exact ⟨hm.current, hm.started, hm.silent, hm.own, nofun, hm.pending, hm.lastAnswer,
      hm.early⟩
  · exact h

theorem placed_receive {l : Ledger} (h : Placed l) {k : Nat} {c : RemoteCandidate}
    (hopen : l.readyState k = .opened) (hc : c.socket = k) :
    Placed (l.receive k c) := by
  refine ⟨h.current, h.started, fun j hj => ?_, fun j d hd => ?_, h.buffered, h.pending,
    h.lastAnswer, h.early⟩
  · have hne : j ≠ k := by
      rintro rfl
      exact absurd (hopen.symm.trans hj) nofun
    rw [received_receive, if_neg hne]
    exact h.silent j hj
  · rw [received_receive] at hd
    split at hd
    · rename_i heq
      subst heq
      rcases List.mem_append.mp hd with hd | hd
      · exact h.own _ d hd
      · obtain rfl := List.mem_singleton.mp hd
        exact hc
    · exact h.own j d hd

theorem placed_deliver {l : Ledger} (h : Placed l) {k : Nat} {c : RemoteCandidate}
    (hws : l.ws = some k) (hopen : l.readyState k = .opened) (hc : c.socket = k) :
    Placed (l.deliver k c) := by
  have hopened : l.HasOpened c.socket := by
    rw [hc]
    exact ⟨h.current k hws, by rw [hopen]; decide⟩
  have hpush := placed_push (placed_receive h hopen hc) hopened
  unfold deliver
  split
  · exact placed_flush hpush
  · exact hpush

theorem placed_renewed {l : Ledger} (h : Placed l) {readyState : Nat → ReadyState}
    (hold : ∀ k, k ≠ l.nextSocket → readyState k = l.readyState k
      ∨ readyState k = .closing ∨ readyState k = .closed) :
    Placed { l with
      ws := some l.nextSocket, nextSocket := l.nextSocket + 1, readyState := readyState
      received := Function.update l.received l.nextSocket []
      outbox := Function.update l.outbox l.nextSocket [] } := by
  have hkeep : ∀ k, l.HasOpened k →
      k < l.nextSocket + 1 ∧ readyState k ≠ .connecting := by
    rintro k ⟨hlt, hne⟩
    refine ⟨Nat.lt_succ_of_lt hlt, ?_⟩
    rcases hold k (Nat.ne_of_lt hlt) with heq | heq | heq <;> rw [heq]
    · exact hne
    · decide
    · decide
  refine ⟨?_, ?_, ?_, ?_, ?_, ?_, h.lastAnswer, h.early⟩
  · intro k hk
    obtain rfl := Option.some.inj hk
    exact Nat.lt_succ_self _
  · intro p k hk
    exact ⟨(h.started p k hk).1, hkeep k (h.started p k hk).2⟩
  · intro k hk
    dsimp only at hk ⊢
    rw [Function.update_apply, Function.update_apply]
    split
    · exact ⟨rfl, rfl⟩
    · rename_i hne
      rcases hold k hne with heq | heq | heq <;> rw [heq] at hk
      · exact h.silent k hk
      · cases hk
      · cases hk
  · intro k c hc
    dsimp only at hc
    rw [Function.update_apply] at hc
    split at hc
    · cases hc
    · exact h.own k c hc
  · intro c hc
    exact hkeep _ (h.buffered c hc)
  · intro p c hc
    exact hkeep _ (h.pending p c hc)

/-- A socket leaves `CONNECTING`, or changes after it has. -/
theorem placed_readyState {l : Ledger} (h : Placed l) (k : Nat) {st : ReadyState}
    (hst : st ≠ .connecting) :
    Placed { l with readyState := Function.update l.readyState k st } := by
  have hkeep : ∀ j, l.HasOpened j →
      j < l.nextSocket ∧ Function.update l.readyState k st j ≠ .connecting := by
    rintro j ⟨hlt, hne⟩
    refine ⟨hlt, ?_⟩
    rw [Function.update_apply]
    split
    · exact hst
    · exact hne
  refine ⟨h.current, ?_, ?_, h.own, ?_, ?_, h.lastAnswer, h.early⟩
  · intro p j hj
    exact ⟨(h.started p j hj).1, hkeep j (h.started p j hj).2⟩
  · intro j hj
    dsimp only at hj
    rw [Function.update_apply] at hj
    split at hj
    · exact absurd hj hst
    · exact h.silent j hj
  · intro c hc
    exact hkeep _ (h.buffered c hc)
  · intro p c hc
    exact hkeep _ (h.pending p c hc)

theorem placed_start {l : Ledger} (h : Placed l)
    (hws : ∀ k, l.ws = some k → l.HasOpened k) :
    Placed { l with
      accounts := Function.update l.accounts l.nextPeer (.fresh l.ws)
      peer := some l.nextPeer, nextPeer := l.nextPeer + 1 } := by
  refine ⟨h.current, ?_, h.silent, h.own, h.buffered, ?_, ?_, ?_⟩ <;> intro p <;>
    dsimp only <;> rw [Function.update_apply] <;> split
  · rename_i heq
    subst heq
    intro k hk
    exact ⟨Nat.lt_succ_self _, hws k hk⟩
  · intro k hk
    exact ⟨Nat.lt_succ_of_lt (h.started p k hk).1, (h.started p k hk).2⟩
  · nofun
  · exact h.pending p
  · nofun
  · exact h.lastAnswer p
  · exact fun _ => rfl
  · exact h.early p

theorem placed_step {l l' : Ledger} {e : Event} (h : Placed l) (hs : Step l e l') :
    Placed l' := by
  cases hs with
  | same => exact h
  | renewed hnew hold => exact placed_renewed h hold
  | closed => exact placed_readyState h _ (by decide)
  | opened hws hconn =>
      rename_i k
      have hopen : Placed { l with
          readyState := Function.update l.readyState k .opened } :=
        placed_readyState h k (by decide)
      refine placed_start hopen fun j hj => ?_
      obtain rfl := Option.some.inj (hws.symm.trans hj)
      refine ⟨h.current k hws, ?_⟩
      dsimp only
      rw [Function.update_self]
      decide
  | dropped =>
      exact ⟨h.current, h.started, h.silent, h.own, nofun, h.pending, h.lastAnswer,
        h.early⟩
  | pinged hopen => exact placed_send h hopen
  | gathered hlocal hws hopen => exact placed_send h hopen
  | received hws hopen hc => exact placed_deliver h hws hopen hc
  | remoteSet =>
      rename_i p o
      exact placed_modify h rfl (h.pending p) (fun a ha => ⟨(h.lastAnswer p a ha).1, rfl⟩)
        nofun
  | answerCreated hremote =>
      rename_i p o
      refine placed_modify h rfl (h.pending p) (fun a ha => ?_) (h.early p)
      obtain rfl := Option.some.inj ha
      exact ⟨rfl, Option.isSome_of_eq_some hremote⟩
  | answered hlast hws hopen =>
      rename_i p k a
      have ha : Placed ((l.modify p fun q => { q with localSet := true }).send k
        (.answer a)) := placed_send (placed_setLocal h p) hopen
      exact placed_flush ⟨ha.current, ha.started, ha.silent, ha.own, ha.buffered,
        ha.pending, ha.lastAnswer, ha.early⟩
  | unanswered hshut =>
      rename_i p
      have hm := placed_setLocal h p
      exact placed_flush ⟨hm.current, hm.started, hm.silent, hm.own, hm.buffered,
        hm.pending, hm.lastAnswer, hm.early⟩
  | stuck hshut => exact placed_setLocal h _
  | added hpending hremote =>
      rename_i p c pending
      refine placed_modify h rfl (h.pending_tail hpending) (h.lastAnswer p) ?_
      intro hnone
      exact absurd (Option.isSome_iff_ne_none.mp hremote) (not_not_intro hnone)
  | pushedBack hpending hremote =>
      rename_i p c pending
      have hm : Placed (l.modify p fun q => { q with pending := pending }) :=
        placed_modify h rfl (h.pending_tail hpending) (h.lastAnswer p) (h.early p)
      refine placed_push hm (h.pending p c ?_)
      rw [hpending]
      exact List.mem_cons_self ..

/-! ## A session counts its candidates -/

/-- Peer `p` is the current one and belongs to the current socket `k`. -/
def Session (l : Ledger) (k p : Nat) : Prop :=
  l.ws = some k ∧ l.peer = some p ∧ (l.accounts p).socket = some k

structure Counted (l : Ledger) : Prop where
  tally : ∀ k p, l.Session k p → ∀ c : RemoteCandidate, c.socket = k →
    (l.received k).count c
      = (l.accounts p).added.count c + (l.accounts p).pending.count c
        + l.candidates.count c
  others : ∀ k p, l.Session k p → ∀ q, q ≠ p → ∀ c ∈ (l.accounts q).pending, c.socket ≠ k

theorem session_modify {l : Ledger} {p : Nat} {f : Account → Account}
    (hsock : (f (l.accounts p)).socket = (l.accounts p).socket) {k q : Nat}
    (h : (l.modify p f).Session k q) : l.Session k q := by
  obtain ⟨hws, hq, hk⟩ := h
  rw [accounts_modify] at hk
  split at hk
  · rename_i heq
    subst heq
    exact ⟨hws, hq, hsock.symm.trans hk⟩
  · exact ⟨hws, hq, hk⟩

theorem not_session_of_renewed {l : Ledger} (h : Placed l) (p : Nat) :
    (l.accounts p).socket ≠ some l.nextSocket := by
  intro hp
  exact absurd (h.started p _ hp).2.1 (Nat.lt_irrefl _)

theorem flush_of_some {l : Ledger} {p : Nat} (hp : l.peer = some p) :
    l.flush = { l.modify p fun q => { q with pending := q.pending ++ l.candidates } with
      candidates := [] } := by
  unfold flush
  rw [hp]

theorem flush_of_none {l : Ledger} (hp : l.peer = none) : l.flush = l := by
  unfold flush
  rw [hp]

theorem flush_of_nil {l : Ledger} (hc : l.candidates = []) : l.flush = l := by
  obtain ⟨ws, peer, nextSocket, nextPeer, candidates, wasRemote, readyState, received,
    outbox, accounts⟩ := l
  obtain rfl : candidates = [] := hc
  cases peer with
  | none => rfl
  | some p => simp only [flush, modify, List.append_nil, Function.update_eq_self]

theorem flush_cases (l : Ledger) :
    (∃ p, l.peer = some p ∧ l.flush = { l.modify p fun q =>
        { q with pending := q.pending ++ l.candidates } with candidates := [] })
      ∨ (l.peer = none ∧ l.flush = l) := by
  cases hp : l.peer with
  | none => exact Or.inr ⟨rfl, flush_of_none hp⟩
  | some p => exact Or.inl ⟨p, rfl, flush_of_some hp⟩

/-- Changes of an account that leave its candidates alone. -/
theorem counted_modify {l : Ledger} (h : Counted l) {p : Nat} {f : Account → Account}
    (hsock : (f (l.accounts p)).socket = (l.accounts p).socket)
    (hadded : (f (l.accounts p)).added = (l.accounts p).added)
    (hpending : (f (l.accounts p)).pending = (l.accounts p).pending) :
    Counted (l.modify p f) := by
  refine ⟨fun k q hs c hc => ?_, fun k q hs j hj c => ?_⟩ <;> rw [accounts_modify] <;>
    split
  · rename_i heq
    subst heq
    rw [hadded, hpending]
    exact h.tally k _ (session_modify hsock hs) c hc
  · exact h.tally k q (session_modify hsock hs) c hc
  · rename_i heq
    subst heq
    rw [hpending]
    exact h.others k q (session_modify hsock hs) _ hj c
  · exact h.others k q (session_modify hsock hs) j hj c

theorem counted_setLocal {l : Ledger} (h : Counted l) (p : Nat) :
    Counted (l.modify p fun q => { q with localSet := true }) :=
  counted_modify h rfl rfl rfl

theorem counted_flush {l : Ledger} (h : Counted l) : Counted l.flush := by
  rcases flush_cases l with ⟨p, hp, heq⟩ | ⟨-, heq⟩ <;> rw [heq]
  · refine ⟨fun k q hs c hc => ?_, fun k q hs j hj c => ?_⟩
    · have hs' : l.Session k q := session_modify (l := l) (p := p)
        (f := fun q => { q with pending := q.pending ++ l.candidates }) rfl hs
      obtain rfl := Option.some.inj (hs'.2.1.symm.trans hp)
      have htally := h.tally k q hs' c hc
      dsimp only
      rw [accounts_modify, if_pos rfl]
      dsimp only
      rw [List.count_append, List.count_nil]
      show (l.received k).count c = _
      omega
    · have hs' : l.Session k q := session_modify (l := l) (p := p)
        (f := fun q => { q with pending := q.pending ++ l.candidates }) rfl hs
      obtain rfl := Option.some.inj (hs'.2.1.symm.trans hp)
      dsimp only
      rw [accounts_modify, if_neg hj]
      exact h.others k q hs' j hj c
  · exact h

theorem counted_push_receive {l : Ledger} (h : Counted l) {k : Nat} {c : RemoteCandidate}
    (hws : l.ws = some k) : Counted ((l.receive k c).push c) := by
  refine ⟨fun j p hs d hd => ?_, h.others⟩
  have hs : l.Session j p := hs
  obtain rfl := Option.some.inj (hs.1.symm.trans hws)
  have htally := h.tally j p hs d hd
  show ((l.receive j c).received j).count d = (l.accounts p).added.count d
    + (l.accounts p).pending.count d + (l.candidates ++ [c]).count d
  rw [received_receive, if_pos rfl, List.count_append, List.count_append]
  omega

theorem counted_opened {l : Ledger} (h : Placed l) {k : Nat} (hws : l.ws = some k)
    (hconn : l.readyState k = .connecting) :
    Counted { l with
      readyState := Function.update l.readyState k .opened
      accounts := Function.update l.accounts l.nextPeer (.fresh l.ws)
      peer := some l.nextPeer, nextPeer := l.nextPeer + 1 } := by
  have hk : ∀ c : RemoteCandidate, l.HasOpened c.socket → c.socket ≠ k := by
    rintro c ⟨-, hne⟩ heq
    rw [heq] at hne
    exact hne hconn
  refine ⟨?_, ?_⟩
  · rintro j p ⟨hj, hp, -⟩ c hc
    obtain rfl := Option.some.inj (hj.symm.trans hws)
    obtain rfl := Option.some.inj hp
    have hnone : l.candidates.count c = 0 :=
      List.count_eq_zero.mpr fun hmem => hk c (h.buffered c hmem) hc
    dsimp only
    rw [Function.update_self, (h.silent j hconn).1, hnone]
    rfl
  · rintro j p ⟨hj, hp, -⟩ q hq c hmem
    obtain rfl := Option.some.inj (hj.symm.trans hws)
    obtain rfl := Option.some.inj hp
    dsimp only at hmem
    rw [Function.update_of_ne hq] at hmem
    exact hk c (h.pending q c hmem)

theorem counted_added {l : Ledger} (h : Counted l) {p : Nat} {c : RemoteCandidate}
    {pending : List RemoteCandidate} (hpending : (l.accounts p).pending = c :: pending) :
    Counted (l.modify p fun q =>
      { q with pending := pending, added := q.added ++ [c] }) := by
  refine ⟨fun k q hs d hd => ?_, fun k q hs j hj d => ?_⟩
  · have hs' := session_modify rfl hs
    have htally := h.tally k q hs' d hd
    rw [accounts_modify]
    split
    · rename_i heq
      subst heq
      rw [hpending] at htally
      dsimp only
      rw [List.count_append]
      show (l.received k).count d = _ + l.candidates.count d
      rw [List.count_cons] at htally
      rw [List.count_singleton]
      omega
    · exact htally
  · have hothers := h.others k q (session_modify rfl hs) j hj d
    rw [accounts_modify]
    split
    · rename_i heq
      subst heq
      rw [hpending] at hothers
      exact fun hmem => hothers (List.mem_cons_of_mem _ hmem)
    · exact hothers

theorem counted_pushedBack {l : Ledger} (h : Counted l) {p : Nat} {c : RemoteCandidate}
    {pending : List RemoteCandidate} (hpending : (l.accounts p).pending = c :: pending) :
    Counted ((l.modify p fun q => { q with pending := pending }).push c) := by
  have hses : ∀ {k q}, ((l.modify p fun q => { q with pending := pending }).push
      c).Session k q → l.Session k q := fun hs =>
    session_modify (l := l) (p := p) (f := fun q => { q with pending := pending }) rfl hs
  refine ⟨fun k q hs d hd => ?_, fun k q hs j hj d => ?_⟩
  · have htally := h.tally k q (hses hs) d hd
    show (l.received k).count d
      = ((l.modify p fun q => { q with pending := pending }).accounts q).added.count d
        + ((l.modify p fun q => { q with pending := pending }).accounts q).pending.count d
        + (l.candidates ++ [c]).count d
    rw [accounts_modify, List.count_append, List.count_singleton]
    split
    · rename_i heq
      subst heq
      rw [hpending, List.count_cons] at htally
      dsimp only
      omega
    · -- what another peer pushes back is of another session
      rename_i hne
      have hc := h.others k q (hses hs) p (Ne.symm hne) c
        (hpending ▸ List.mem_cons_self ..)
      have hcd : (c == d) = false := beq_false_of_ne fun heq => hc (heq ▸ hd)
      rw [hcd, if_neg Bool.false_ne_true]
      exact htally
  · have hothers := h.others k q (hses hs) j hj d
    show d ∈ ((l.modify p fun q => { q with pending := pending }).accounts j).pending →
      d.socket ≠ k
    rw [accounts_modify]
    split
    · rename_i heq
      subst heq
      rw [hpending] at hothers
      exact fun hmem => hothers (List.mem_cons_of_mem _ hmem)
    · exact hothers

theorem counted_step {l l' : Ledger} {e : Event} (hp : Placed l) (h : Counted l)
    (hs : Step l e l') : Counted l' := by
  cases hs with
  | same => exact h
  | renewed hnew hold =>
      constructor
      · rintro k p ⟨hk, -, hsock⟩
        obtain rfl := Option.some.inj hk
        exact absurd hsock (not_session_of_renewed hp p)
      · rintro k p ⟨hk, -, hsock⟩
        obtain rfl := Option.some.inj hk
        exact absurd hsock (not_session_of_renewed hp p)
  | closed => exact ⟨h.tally, h.others⟩
  | opened hws hconn => exact counted_opened hp hws hconn
  | dropped => exact ⟨fun _ _ hs => absurd hs.2.1 nofun, fun _ _ hs => absurd hs.2.1 nofun⟩
  | pinged hopen => exact ⟨h.tally, h.others⟩
  | gathered hlocal hws hopen => exact ⟨h.tally, h.others⟩
  | received hws hopen hc =>
      rename_i k c
      have hm := counted_push_receive (c := c) h hws
      unfold deliver
      split
      · exact counted_flush hm
      · exact hm
  | remoteSet => exact counted_modify h rfl rfl rfl
  | answerCreated hremote => exact counted_modify h rfl rfl rfl
  | answered hlast hws hopen =>
      rename_i p k a
      have hm := counted_setLocal h p
      exact counted_flush ⟨hm.tally, hm.others⟩
  | unanswered hshut =>
      rename_i p
      have hm := counted_setLocal h p
      exact counted_flush ⟨hm.tally, hm.others⟩
  | stuck hshut => exact counted_setLocal h _
  | added hpending hremote => exact counted_added h hpending
  | pushedBack hpending hremote => exact counted_pushedBack h hpending

/-! ## Answers -/

/-- Peer `p` has sent an answer on socket `k`. -/
def Answered (l : Ledger) (k p : Nat) : Prop :=
  ∃ a : Answer, a.peer = p ∧ .answer a ∈ l.outbox k

theorem Answered.send {l : Ledger} {k p : Nat} (h : l.Answered k p) (j : Nat)
    (msg : Signal) : (l.send j msg).Answered k p := by
  obtain ⟨a, ha, hmem⟩ := h
  refine ⟨a, ha, ?_⟩
  rw [outbox_send]
  split
  · rename_i heq
    subst heq
    exact List.mem_append_left _ hmem
  · exact hmem

theorem Answered.of_send {l : Ledger} {k p j : Nat} {msg : Signal}
    (h : (l.send j msg).Answered k p) :
    l.Answered k p ∨ ∃ a : Answer, a.peer = p ∧ msg = .answer a := by
  obtain ⟨a, ha, hmem⟩ := h
  rw [outbox_send] at hmem
  split at hmem
  · rename_i heq
    subst heq
    rcases List.mem_append.mp hmem with hmem | hmem
    · exact Or.inl ⟨a, ha, hmem⟩
    · exact Or.inr ⟨a, ha, (List.mem_singleton.mp hmem).symm⟩
  · exact Or.inl ⟨a, ha, hmem⟩

/-- After its answer a session buffers nothing: `wasRemote` is set, and its
peer rejects no candidate. -/
def Flushed (l : Ledger) : Prop :=
  ∀ k p, l.Session k p → l.Answered k p →
    l.wasRemote = true ∧ (l.accounts p).remote.isSome = true
      ∧ ∀ c ∈ l.candidates, c.socket ≠ k

/-- The peer of the open socket has set a local description only if its
answer has been sent. -/
def Emitted (l : Ledger) : Prop :=
  ∀ k p, (l.accounts p).localSet = true → (l.accounts p).socket = some k →
    l.ws = some k → l.readyState k = .opened → l.Answered k p

/-- Changes of an account that keep its socket and its remote description. -/
theorem flushed_modify {l : Ledger} (h : Flushed l) {p : Nat} {f : Account → Account}
    (hsock : (f (l.accounts p)).socket = (l.accounts p).socket)
    (hremote : (l.accounts p).remote.isSome = true →
      (f (l.accounts p)).remote.isSome = true) : Flushed (l.modify p f) := by
  intro k q hs ha
  obtain ⟨hwas, hsome, hcands⟩ := h k q (session_modify hsock hs) ha
  refine ⟨hwas, ?_, hcands⟩
  rw [accounts_modify]
  split
  · rename_i heq
    subst heq
    exact hremote hsome
  · exact hsome

/-- After a flush there is nothing to say about the buffer. -/
theorem flushed_flush {l : Ledger}
    (h : ∀ k p, l.Session k p → l.Answered k p →
      l.wasRemote = true ∧ (l.accounts p).remote.isSome = true) : Flushed l.flush := by
  rcases flush_cases l with ⟨p, hp, heq⟩ | ⟨hnone, heq⟩ <;> rw [heq]
  · intro k q hs ha
    have hs' : l.Session k q := session_modify (l := l) (p := p)
      (f := fun q => { q with pending := q.pending ++ l.candidates }) rfl hs
    obtain ⟨hwas, hsome⟩ := h k q hs' ha
    refine ⟨hwas, ?_, nofun⟩
    dsimp only
    rw [accounts_modify]
    split
    · rename_i heq
      subst heq
      exact hsome
    · exact hsome
  · rintro k q ⟨-, hq, -⟩
    exact absurd (hnone.symm.trans hq) nofun

/-- Only an answer makes a session one that has answered. -/
theorem flushed_send {l : Ledger} (h : Flushed l) {k : Nat} {msg : Signal}
    (hmsg : ∀ a, msg ≠ .answer a) : Flushed (l.send k msg) := by
  intro j p hs ha
  exact h j p hs (ha.of_send.resolve_right fun ⟨a, _, heq⟩ => hmsg a heq)

/-- The peer that has answered has its remote description. -/
theorem flushed_answered {l : Ledger} (hp : Placed l) (h : Flushed l) {p k : Nat} {a : Answer}
    (hlast : (l.accounts p).lastAnswer = some a) : Flushed (l.answer p k a).flush := by
  refine flushed_flush fun j q hs ha => ⟨rfl, ?_⟩
  have hs' : l.Session j q := session_modify (l := l) (p := p)
    (f := fun q => { q with localSet := true }) rfl hs
  have hsome : (l.accounts q).remote.isSome = true := by
    rcases Answered.of_send ha with ha | ⟨b, hb, heq⟩
    · exact (h j q hs' ha).2.1
    · obtain rfl : a = b := Signal.answer.inj heq
      obtain ⟨hpeer, hremote⟩ := hp.lastAnswer p a hlast
      rwa [← hb, hpeer]
  show ((l.modify p fun q => { q with localSet := true }).accounts q).remote.isSome = true
  rw [accounts_modify]
  split
  · rename_i heq
    subst heq
    exact hsome
  · exact hsome

/-- The session's peer rejects nothing, and others hold nothing of it. -/
theorem flushed_pushedBack {l : Ledger} (hc : Counted l) (h : Flushed l) {p : Nat}
    {c : RemoteCandidate} {pending : List RemoteCandidate}
    (hpending : (l.accounts p).pending = c :: pending)
    (hremote : (l.accounts p).remote = none) :
    Flushed ((l.modify p fun q => { q with pending := pending }).push c) := by
  have hm : Flushed (l.modify p fun q => { q with pending := pending }) :=
    flushed_modify h rfl id
  intro k q hs ha
  have hs' : l.Session k q := session_modify (l := l) (p := p)
    (f := fun q => { q with pending := pending }) rfl hs
  obtain ⟨hwas, hsome, hcands⟩ := h k q hs' ha
  refine ⟨hwas, (hm k q hs ha).2.1, fun d hd => ?_⟩
  rcases List.mem_append.mp hd with hd | hd
  · exact hcands d hd
  · obtain rfl := List.mem_singleton.mp hd
    have hne : p ≠ q := by
      rintro rfl
      rw [hremote] at hsome
      cases hsome
    exact hc.others k q hs' p hne d (hpending ▸ List.mem_cons_self ..)

theorem flushed_step {l l' : Ledger} {e : Event} (hp : Placed l) (hc : Counted l)
    (h : Flushed l) (hs : Step l e l') : Flushed l' := by
  cases hs with
  | same => exact h
  | renewed hnew hold =>
      rintro k p ⟨hk, -, hsock⟩
      obtain rfl := Option.some.inj hk
      exact absurd hsock (not_session_of_renewed hp p)
  | closed => exact h
  | opened hws hconn =>
      -- nothing has been sent on a socket that opens
      rintro k p ⟨hk, -, -⟩ ⟨a, -, hmem⟩
      obtain rfl := Option.some.inj (hk.symm.trans hws)
      dsimp only at hmem
      rw [(hp.silent k hconn).2] at hmem
      cases hmem
  | dropped => exact fun _ _ hs => absurd hs.2.1 nofun
  | pinged hopen => exact flushed_send h (by simp)
  | gathered hlocal hws hopen => exact flushed_send h (by simp)
  | received hws hopen hc =>
      rename_i k c
      unfold deliver
      split
      · refine flushed_flush fun j p hs ha => ?_
        obtain ⟨hwas, hsome, -⟩ := h j p hs ha
        exact ⟨hwas, hsome⟩
      · rename_i hwas
        intro j p hs ha
        exact absurd (h j p hs ha).1 hwas
  | remoteSet => exact flushed_modify h rfl fun _ => rfl
  | answerCreated hremote => exact flushed_modify h rfl id
  | answered hlast hws hopen => exact flushed_answered hp h hlast
  | unanswered hshut =>
      rename_i p
      have hm : Flushed (l.modify p fun q => { q with localSet := true }) :=
        flushed_modify h rfl id
      exact flushed_flush fun k q hs ha => ⟨rfl, (hm k q hs ha).2.1⟩
  | stuck hshut => exact flushed_modify h rfl id
  | added hpending hremote => exact flushed_modify h rfl id
  | pushedBack hpending hremote => exact flushed_pushedBack hc h hpending hremote

theorem emitted_modify {l : Ledger} (h : Emitted l) {p : Nat} {f : Account → Account}
    (hsock : (f (l.accounts p)).socket = (l.accounts p).socket)
    (hlocal : (f (l.accounts p)).localSet = (l.accounts p).localSet) :
    Emitted (l.modify p f) := by
  intro k q hset hk
  rw [accounts_modify] at hset hk
  split at hset
  · rename_i heq
    subst heq
    rw [if_pos rfl] at hk
    exact h k q (hlocal.symm.trans hset) (hsock.symm.trans hk)
  · rename_i hne
    rw [if_neg hne] at hk
    exact h k q hset hk

theorem emitted_flush {l : Ledger} (h : Emitted l) : Emitted l.flush := by
  rcases flush_cases l with ⟨p, hp, heq⟩ | ⟨-, heq⟩ <;> rw [heq]
  · have hm : Emitted (l.modify p fun q =>
        { q with pending := q.pending ++ l.candidates }) := emitted_modify h rfl rfl
    exact hm
  · exact h

/-- A local description set while the current socket is not open. -/
theorem emitted_shut {l : Ledger} {p : Nat}
    (hshut : ∀ k, l.ws = some k → l.readyState k ≠ .opened) :
    Emitted (l.modify p fun q => { q with localSet := true }) :=
  fun k _ _ _ hws hopen => absurd hopen (hshut k hws)

theorem emitted_send {l : Ledger} (h : Emitted l) (k : Nat) (msg : Signal) :
    Emitted (l.send k msg) :=
  fun j p hlocal hsock hws hopen => (h j p hlocal hsock hws hopen).send k msg

/-- A new peer has set nothing, and no other belongs to a socket that opens. -/
theorem emitted_opened {l : Ledger} (hp : Placed l) {j : Nat} (hws : l.ws = some j)
    (hconn : l.readyState j = .connecting) :
    Emitted { l with
      readyState := Function.update l.readyState j .opened
      accounts := Function.update l.accounts l.nextPeer (.fresh l.ws)
      peer := some l.nextPeer, nextPeer := l.nextPeer + 1 } := by
  intro k p hlocal hsock hk
  dsimp only at hlocal hsock
  rw [Function.update_apply] at hlocal hsock
  split at hlocal
  · cases hlocal
  · rename_i hne
    rw [if_neg hne] at hsock
    obtain rfl := Option.some.inj (hws.symm.trans hk)
    exact absurd hconn (hp.started p _ hsock).2.2

theorem emitted_answered {l : Ledger} (hp : Placed l) (h : Emitted l) {p j : Nat} {a : Answer}
    (hlast : (l.accounts p).lastAnswer = some a) (hws : l.ws = some j)
    (hopen : l.readyState j = .opened) : Emitted (l.answer p j a).flush := by
  refine emitted_flush fun k q hlocal hsock hk hopen' => ?_
  obtain rfl := Option.some.inj (hws.symm.trans hk)
  have hlocal' : ((l.modify p fun q =>
    { q with localSet := true }).accounts q).localSet = true := hlocal
  have hsock' : ((l.modify p fun q =>
    { q with localSet := true }).accounts q).socket = some j := hsock
  rw [accounts_modify] at hlocal' hsock'
  by_cases hq : q = p
  · subst hq
    refine ⟨a, (hp.lastAnswer q a hlast).1, ?_⟩
    show Signal.answer a ∈ (l.send j (.answer a)).outbox j
    rw [outbox_send, if_pos rfl]
    exact List.mem_append_right _ (List.mem_singleton_self _)
  · rw [if_neg hq] at hlocal' hsock'
    exact (h j q hlocal' hsock' hws hopen).send j _

theorem emitted_step {l l' : Ledger} {e : Event} (hp : Placed l) (h : Emitted l)
    (hs : Step l e l') : Emitted l' := by
  cases hs with
  | same => exact h
  | renewed hnew hold =>
      intro k p _ hsock hk
      obtain rfl := Option.some.inj hk
      exact absurd hsock (not_session_of_renewed hp p)
  | closed =>
      rename_i j
      intro k p hlocal hsock hk hopen
      dsimp only at hopen
      rw [Function.update_apply] at hopen
      split at hopen
      · cases hopen
      · exact h k p hlocal hsock hk hopen
  | opened hws hconn => exact emitted_opened hp hws hconn
  | dropped => exact h
  | pinged hopen => exact emitted_send h _ _
  | gathered hlocal hws hopen => exact emitted_send h _ _
  | received hws hopen hc =>
      unfold deliver
      split
      · exact emitted_flush h
      · exact h
  | remoteSet => exact emitted_modify h rfl rfl
  | answerCreated hremote => exact emitted_modify h rfl rfl
  | answered hlast hws hopen => exact emitted_answered hp h hlast hws hopen
  | unanswered hshut => exact emitted_flush (emitted_shut hshut)
  | stuck hshut => exact emitted_shut hshut
  | added hpending hremote => exact emitted_modify h rfl rfl
  | pushedBack hpending hremote =>
      rename_i p c pending
      have hm : Emitted (l.modify p fun q => { q with pending := pending }) :=
        emitted_modify h rfl rfl
      exact hm

end Ledger

end Transport

end XashProxy
