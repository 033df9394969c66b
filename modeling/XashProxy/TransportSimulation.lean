import XashProxy.TransportLedger
import XashProxy.TransportNegotiation

/-!
# The transport keeps the ledger

`ledger` forgets what the ledger does not count, and `ledger_step` is the
simulation: every step of the transport is a step of the ledger. Calls that
are not about candidates leave it as it is, and `handleCandidates` is its
`flush`.
-/

namespace XashProxy

namespace Transport

def Op.candidate : Op → Option RemoteCandidate
  | .addIceCandidate c => some c
  | .setRemoteDescription _ | .createAnswer | .setLocalDescription _ => none

def Peer.account (q : Peer) : Account where
  socket := q.socket
  pending := q.ops.filterMap Op.candidate
  added := q.added
  remote := q.remote
  lastAnswer := q.lastAnswer
  localSet := q.localSet

def ledger (s : State) : Ledger where
  ws := s.ws
  peer := s.peer
  nextSocket := s.nextSocket
  nextPeer := s.nextPeer
  candidates := s.candidates
  wasRemote := s.wasRemote
  readyState k := (s.sockets k).readyState
  received k := (s.sockets k).received
  outbox k := (s.sockets k).outbox
  accounts p := (s.peers p).account

theorem ledger_modifyPeer {s : State} {p : Nat} {f : Peer → Peer} {g : Account → Account}
    (h : (f (s.peers p)).account = g (s.peers p).account) :
    ledger (modifyPeer s p f) = (ledger s).modify p g := by
  simp only [ledger, modifyPeer, Ledger.modify]
  congr 1
  funext j
  by_cases hj : j = p
  · subst hj
    rw [Function.update_self, Function.update_self, h]
  · rw [Function.update_of_ne hj, Function.update_of_ne hj]

/-- Operations that are not about candidates leave the account as it is. -/
theorem ledger_modifyPeer_of_eq {s : State} {p : Nat} {f : Peer → Peer}
    (h : (f (s.peers p)).account = (s.peers p).account) :
    ledger (modifyPeer s p f) = ledger s := by
  rw [ledger_modifyPeer (g := id) h]
  simp only [Ledger.modify, id, Function.update_eq_self]

theorem ledger_modifySocket (s : State) (k : Nat) (f : Socket → Socket) :
    ledger (modifySocket s k f) = { ledger s with
      readyState := Function.update (ledger s).readyState k (f (s.sockets k)).readyState
      received := Function.update (ledger s).received k (f (s.sockets k)).received
      outbox := Function.update (ledger s).outbox k (f (s.sockets k)).outbox } := by
  simp only [ledger, modifySocket]
  congr 1 <;> funext j <;> by_cases hj : j = k
  all_goals first
    | subst hj; rw [Function.update_self, Function.update_self]
    | rw [Function.update_of_ne hj, Function.update_of_ne hj]

theorem ledger_send (s : State) (k : Nat) (msg : Signal) :
    ledger (modifySocket s k fun j => j.send msg) = (ledger s).send k msg := by
  rw [ledger_modifySocket]
  show ({ ledger s with
    readyState := Function.update (ledger s).readyState k ((ledger s).readyState k)
    received := Function.update (ledger s).received k ((ledger s).received k)
    outbox := _ } : Ledger) = _
  rw [Function.update_eq_self, Function.update_eq_self]
  rfl

theorem ledger_receive (s : State) (k : Nat) (c : RemoteCandidate) :
    ledger (modifySocket s k fun j => { j with received := j.received ++ [c] })
      = (ledger s).receive k c := by
  rw [ledger_modifySocket]
  show ({ ledger s with
    readyState := Function.update (ledger s).readyState k ((ledger s).readyState k)
    received := _
    outbox := Function.update (ledger s).outbox k ((ledger s).outbox k) } : Ledger) = _
  rw [Function.update_eq_self, Function.update_eq_self]
  rfl

theorem ledger_readyState (s : State) (k : Nat) (st : ReadyState) :
    ledger (modifySocket s k fun j => { j with readyState := st })
      = { ledger s with readyState := Function.update (ledger s).readyState k st } := by
  rw [ledger_modifySocket]
  show ({ ledger s with
    readyState := _
    received := Function.update (ledger s).received k ((ledger s).received k)
    outbox := Function.update (ledger s).outbox k ((ledger s).outbox k) } : Ledger) = _
  rw [Function.update_eq_self, Function.update_eq_self]

/-- An operation that is called and is not about a candidate. -/
theorem account_call {q : Peer} {op : Op} (h : op.candidate = none) :
    (q.call [op]).account = q.account := by
  simp [Peer.account, Peer.call, h]

theorem ledger_handleDescription (s : State) : ledger (handleDescription s) = ledger s := by
  rcases handleDescription_cases s with ⟨o, p, -, -, heq⟩ | ⟨-, heq⟩ <;> rw [heq]
  show ledger (modifyPeer s p fun q => q.call [.setRemoteDescription o]) = ledger s
  exact ledger_modifyPeer_of_eq (account_call rfl)

theorem ledger_callPeer (s : State) {op : Op} (h : op.candidate = none) :
    ledger (callPeer s op) = ledger s := by
  rcases callPeer_cases s op with ⟨p, -, heq⟩ | ⟨-, heq⟩ <;> rw [heq]
  · exact ledger_modifyPeer_of_eq (account_call h)
  · rfl

theorem ledger_handleCandidates (s : State) :
    ledger (handleCandidates s) = (ledger s).flush := by
  rcases handleCandidates_cases s with ⟨p, hp, heq⟩ | ⟨hnone, heq⟩ <;> rw [heq]
  · have hcall : ledger (modifyPeer s p fun q =>
          q.call (s.candidates.map .addIceCandidate))
        = (ledger s).modify p fun q => { q with pending := q.pending ++ s.candidates } := by
      refine ledger_modifyPeer ?_
      have hsome : Op.candidate ∘ Op.addIceCandidate = some := rfl
      simp only [Peer.account, Peer.call, List.filterMap_append, List.filterMap_map, hsome,
        List.filterMap_some]
    rw [Ledger.flush_of_some hp]
    exact congrArg (fun l : Ledger => { l with candidates := [] }) hcall
  · rcases hnone with hnil | hnone
    · exact (Ledger.flush_of_nil hnil).symm
    · exact (Ledger.flush_of_none hnone).symm

theorem ledger_onCandidate (s : State) (c : RemoteCandidate) :
    ledger (onCandidate s c)
      = if s.wasRemote then ((ledger s).push c).flush else (ledger s).push c := by
  unfold onCandidate
  dsimp only
  split
  · exact ledger_handleCandidates _
  · rfl

theorem ledger_connectWs (s : State) : ledger (connectWs s) = { ledger s with
    ws := some s.nextSocket, nextSocket := s.nextSocket + 1
    readyState := fun k => ((connectWs s).sockets k).readyState
    received := Function.update (ledger s).received s.nextSocket []
    outbox := Function.update (ledger s).outbox s.nextSocket [] } := by
  have hsock : ∀ k, ((connectWs s).sockets k).received
        = Function.update (ledger s).received s.nextSocket [] k
      ∧ ((connectWs s).sockets k).outbox
        = Function.update (ledger s).outbox s.nextSocket [] k := by
    intro k
    rw [sockets_connectWs, supersede_apply, Function.update_apply, Function.update_apply]
    split
    · exact ⟨rfl, rfl⟩
    · split <;> exact ⟨rfl, rfl⟩
  have hreceived := funext fun k => (hsock k).1
  have houtbox := funext fun k => (hsock k).2
  rw [← hreceived, ← houtbox]
  rfl

theorem ledger_startConnection (s : State) : ledger (startConnection s) = { ledger s with
    accounts := Function.update (ledger s).accounts s.nextPeer (.fresh s.ws)
    peer := some s.nextPeer, nextPeer := s.nextPeer + 1 } := by
  unfold startConnection
  rw [ledger_handleDescription]
  have haccounts : (fun p => (Function.update s.peers s.nextPeer (.fresh s.ws) p).account)
      = Function.update (ledger s).accounts s.nextPeer (.fresh s.ws) := by
    funext p
    rw [Function.update_apply, Function.update_apply]
    split <;> rfl
  rw [← haccounts]
  rfl

theorem ledger_of_negotiation {s s' : State} (h : negotiation s' = negotiation s) :
    ledger s' = ledger s := by
  show ledger (negotiation s') = ledger (negotiation s)
  rw [h]

theorem ledger_resetDescription (s : State) : ledger (resetDescription s) = ledger s := rfl

/-- The three ways `wsSend` ends. -/
theorem step_afterSetLocal {s : State} {e : Event} {p : Nat} {a : Answer} {l : Ledger}
    (hl : ledger s = l.modify p fun q => { q with localSet := true })
    (hlast : (l.accounts p).lastAnswer = some a) :
    Ledger.Step l e (ledger (afterSetLocal s a)) := by
  have hws : s.ws = l.ws := congrArg Ledger.ws hl
  have hready : (fun k => (s.sockets k).readyState) = l.readyState :=
    congrArg Ledger.readyState hl
  unfold afterSetLocal
  by_cases hopened : ∃ k, s.ws = some k ∧ (s.sockets k).readyState = .opened
  · obtain ⟨k, hk, hopen⟩ := hopened
    simp only [wsSend_of_opened _ hk hopen]
    rw [ledger_handleCandidates]
    have hsent : ledger (modifySocket s k fun j => j.send (.answer a))
        = (l.modify p fun q => { q with localSet := true }).send k (.answer a) := by
      rw [ledger_send, hl]
    have hanswer : ledger { modifySocket s k fun j => j.send (.answer a) with
        wasRemote := true } = l.answer p k a :=
      congrArg (fun l : Ledger => { l with wasRemote := true }) hsent
    rw [hanswer]
    exact .answered hlast (hws ▸ hk) ((congrFun hready k).symm.trans hopen)
  · have hshut : ∀ k, l.ws = some k → l.readyState k ≠ .opened := by
      intro k hk hopen
      exact hopened ⟨k, hws.trans hk, (congrFun hready k).trans hopen⟩
    split
    · rename_i s' hs
      rcases wsSend_eq_some hs with rfl | ⟨k, hk, hopen, -⟩
      · rw [ledger_handleCandidates]
        have hset : ledger { s' with wasRemote := true }
            = { l.modify p fun q => { q with localSet := true } with wasRemote := true } :=
          congrArg (fun l : Ledger => { l with wasRemote := true }) hl
        rw [hset]
        exact .unanswered hshut
      · exact absurd ⟨k, hk, hopen⟩ hopened
    · rw [hl]
      exact .stuck hshut

theorem step_settled {s s' : State} {p : Nat} {ok : Bool} (h : Settles s p ok s') :
    Ledger.Step (ledger s) (.complete p ok) (ledger s') := by
  cases h with
  | setRemote hops =>
      rename_i o ops
      have hm : ledger (modifyPeer s p fun q =>
            { q with ops := ops, remote := some o, haveRemoteOffer := true })
          = (ledger s).modify p fun q => { q with remote := some o } := by
        refine ledger_modifyPeer ?_
        simp [Peer.account, hops, List.filterMap_cons, Op.candidate]
      unfold afterSetRemote
      rw [ledger_callPeer _ rfl, ledger_resetDescription, hm]
      exact .remoteSet
  | createAnswer hops hremote =>
      rename_i o ops
      have hm : ledger (modifyPeer s p fun q =>
            { q with ops := ops, lastAnswer := some ⟨p, o⟩ })
          = (ledger s).modify p fun q => { q with lastAnswer := some ⟨p, o⟩ } := by
        refine ledger_modifyPeer ?_
        simp [Peer.account, hops, List.filterMap_cons, Op.candidate]
      unfold afterCreateAnswer
      rw [ledger_callPeer _ rfl, hm]
      exact .answerCreated hremote
  | setLocal hops hlast =>
      rename_i a ops
      refine step_afterSetLocal (p := p) (ledger_modifyPeer ?_) hlast
      simp [Peer.account, hops, List.filterMap_cons, Op.candidate]
  | added hops hremote =>
      rename_i c ops
      have hm : ledger (modifyPeer s p fun q =>
            { q with ops := ops, added := q.added ++ [c] })
          = (ledger s).modify p fun q => { q with
              pending := ops.filterMap Op.candidate, added := q.added ++ [c] } :=
        ledger_modifyPeer rfl
      rw [hm]
      refine .added ?_ hremote
      simp [ledger, Peer.account, hops, Op.candidate]
  | pushedBack hops hremote =>
      rename_i c ops
      have hm : ledger (modifyPeer s p fun q => { q with ops := ops })
          = (ledger s).modify p fun q => { q with pending := ops.filterMap Op.candidate } :=
        ledger_modifyPeer rfl
      have hpush : ledger { modifyPeer s p fun q => { q with ops := ops } with
            candidates := s.candidates ++ [c] }
          = ((ledger s).modify p fun q =>
              { q with pending := ops.filterMap Op.candidate }).push c :=
        congrArg (fun l : Ledger => l.push c) hm
      rw [hpush]
      refine .pushedBack ?_ hremote
      simp [ledger, Peer.account, hops, Op.candidate]
  | rejected hops hop =>
      rename_i op ops
      have hm : ledger (modifyPeer s p fun q => { q with ops := ops }) = ledger s := by
        refine ledger_modifyPeer_of_eq ?_
        cases op with
        | addIceCandidate c => exact absurd rfl (hop c)
        | _ => simp [Peer.account, hops, List.filterMap_cons, Op.candidate]
      rw [hm]
      exact .same

/-- Every step of the transport is one of the ledger. -/
theorem ledger_step {s s' : State} {e : Event} (hwf : Core s)
    (h : step s e = some s') : Ledger.Step (ledger s) e (ledger s') := by
  cases moves_of_step hwf h with
  | same heq =>
      have hl  := ledger_of_negotiation heq
      rw [hl]
      exact .same
  | renewed heq =>
      have hl  := ledger_of_negotiation heq
      rw [hl, ledger_connectWs]
      refine .renewed ?_ fun k hk => ?_
      · show ((connectWs s).sockets s.nextSocket).readyState = .connecting
        rw [sockets_connectWs, if_pos rfl]
        rfl
      · have hne : k ≠ s.nextSocket := hk
        rw [sockets_connectWs, if_neg hne, supersede_apply]
        split
        · unfold Socket.supersede
          dsimp only
          split
          · exact Or.inr (Or.inr rfl)
          · exact Or.inr (Or.inl rfl)
        · exact Or.inl rfl
  | closed heq =>
      rename_i k
      have hl := ledger_of_negotiation heq
      rw [hl, ledger_readyState]
      exact .closed
  | opened hws hconn heq =>
      rename_i k
      have hl := ledger_of_negotiation heq
      rw [hl, ledger_startConnection, ledger_readyState]
      exact .opened hws hconn
  | dropped hp heq =>
      have hl := ledger_of_negotiation heq
      rw [hl]
      exact .dropped
  | pinged hopen =>
      rw [ledger_send]
      exact .pinged hopen
  | offered hws hopen =>
      unfold onOffer
      rw [ledger_handleDescription]
      exact .same
  | received hws hopen =>
      rw [ledger_onCandidate, ledger_receive]
      exact .received hws hopen rfl
  | settled hs => exact step_settled hs
  | gathered hlocal hws hopen =>
      rw [ledger_send]
      exact .gathered hlocal hws hopen

end Transport

end XashProxy
