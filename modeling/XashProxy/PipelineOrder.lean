import XashProxy.Pipeline
import Mathlib.Data.List.Perm.Basic
import Mathlib.Data.List.Sort

/-!
# What the engine gets

The account of the page's queue over any number of lanes. A packet is followed
by its serial from the message to the engine: `held` lists the packets that
have arrived and are still somewhere, and `origins` says which send of which
lane each of them was. Conversions may reorder the packets, a full queue and
`netClear` may lose some, but nothing is invented, altered or taken twice
(`engine_safety`); without a reordering each lane's datagrams come in the order
the proxy received them (`engine_in_order`).
-/

namespace XashProxy

namespace Pipeline

open Lts
open Bridge (Bytes)

/-! ## Lists of positions -/

theorem filterMap_getElem?_range {α : Type*} (xs : List α) (n : Nat) :
    (List.range n).filterMap (fun i => xs[i]?) = xs.take n := by
  induction n with
  | zero => rfl
  | succ n ih =>
      rw [List.range_succ, List.filterMap_append, ih, List.take_add_one]
      congr 1

/-- The elements at increasing positions are a sublist. -/
theorem filterMap_getElem?_sublist {α : Type*} {xs : List α} {is : List Nat}
    (hsorted : is.Pairwise (· < ·)) (hlt : ∀ i ∈ is, i < xs.length) :
    List.Sublist (is.filterMap fun i => xs[i]?) xs := by
  have hsub : is.Sublist (List.range xs.length) := by
    refine List.sublist_of_subperm_of_pairwise ?_ (hsorted.imp Nat.le_of_lt)
      (List.pairwise_lt_range.imp Nat.le_of_lt)
    refine List.subperm_of_subset (hsorted.imp Nat.ne_of_lt) fun i hi => ?_
    exact List.mem_range.mpr (hlt i hi)
  have hpos := hsub.filterMap fun i => xs[i]?
  rwa [filterMap_getElem?_range, List.take_length] at hpos

theorem nodup_of_subperm {α : Type*} {xs ys : List α} (h : List.Subperm xs ys)
    (hys : ys.Nodup) : xs.Nodup := by
  obtain ⟨zs, hperm, hsub⟩ := h
  exact hperm.nodup_iff.mp (hys.sublist hsub)

/-! ## Serials

A packet keeps its serial from the message to the engine. -/

/-- The packets that have arrived and were not lost: the engine's, the queue's,
and those still being converted. -/
def held (s : State) : List Packet :=
  s.engine ++ (s.net.incoming.items ++ s.net.converting)

def serials (s : State) : List Nat := (held s).map Packet.serial

/-- The serial the event gives to its message. -/
def arriving (s : State) : Event → List Nat
  | .deliver _ _ _ => [s.net.arrivals]
  | _ => []

theorem mem_held_iff {s : State} {p : Packet} :
    p ∈ held s ↔ p ∈ s.engine ∨ p ∈ s.net.incoming.items ∨ p ∈ s.net.converting := by
  rw [held, List.mem_append, List.mem_append]

/-- The queue after `enqueueIncoming`: the packet comes last, and at most the
oldest is lost, which is counted. -/
theorem enqueue_sublist (n : Net) (packet : Packet) :
    List.Sublist (n.enqueueIncoming packet).incoming.items (n.incoming.items ++ [packet])
      ∧ ((n.enqueueIncoming packet).overflowDrops = n.overflowDrops →
        (n.enqueueIncoming packet).incoming.items = n.incoming.items ++ [packet]) := by
  rw [Net.enqueueIncoming, RollingBuffer.items_enqueue]
  split
  · exact ⟨(List.tail_sublist _).append (List.Sublist.refl _),
      fun h => absurd h (Nat.succ_ne_self _)⟩
  · exact ⟨List.Sublist.refl _, fun _ => rfl⟩

/-- The next send of lane `i` becomes a message of the page. -/
def Comes (s : State) (i : Nat) (bytes : Bytes) (s' : State) : Prop :=
  ∃ lane, s.lanes[i]? = some lane ∧ lane.bridge.sent[lane.delivered]? = some bytes
    ∧ s'.origins = s.origins ++ [(i, lane.delivered)]

/-- What a step does to the packets and the count of drops. Every fact about
the queue below is by cases on this list. -/
inductive Holds (s : State) : Event → State → Prop where
  | arrive {i now : Nat} {bytes : Bytes} {s' : State} (hengine : s'.engine = s.engine)
      (hitems : s'.net.incoming.items = s.net.incoming.items)
      (hconverting : s'.net.converting
        = s.net.converting ++ [⟨s.net.arrivals, .blob bytes⟩])
      (hcomes : Comes s i bytes s') : Holds s (.deliver i now true) s'
  | enqueue {i now : Nat} {bytes : Bytes} {s' : State} (hengine : s'.engine = s.engine)
      (hitems : List.Sublist s'.net.incoming.items
        (s.net.incoming.items ++ [⟨s.net.arrivals, .arrayBuffer bytes⟩]))
      (hall : s'.net.overflowDrops = s.net.overflowDrops → s'.net.incoming.items
        = s.net.incoming.items ++ [⟨s.net.arrivals, .arrayBuffer bytes⟩])
      (hconverting : s'.net.converting = s.net.converting)
      (hcomes : Comes s i bytes s') : Holds s (.deliver i now false) s'
  | convert {j : Nat} {packet : Packet} {s' : State} (hengine : s'.engine = s.engine)
      (hj : s.net.converting[j]? = some packet)
      (hitems : List.Sublist s'.net.incoming.items
        (s.net.incoming.items ++ [Net.convert packet]))
      (hall : s'.net.overflowDrops = s.net.overflowDrops →
        s'.net.incoming.items = s.net.incoming.items ++ [Net.convert packet])
      (hconverting : s'.net.converting = s.net.converting.eraseIdx j)
      (horigins : s'.origins = s.origins) : Holds s (.converted j) s'
  | take {packet : Packet} {s' : State} (hengine : s'.engine = s.engine ++ [packet])
      (hitems : s.net.incoming.items = packet :: s'.net.incoming.items)
      (hconverting : s'.net.converting = s.net.converting)
      (horigins : s'.origins = s.origins) : Holds s .dequeue s'
  | clear {s' : State} (hengine : s'.engine = s.engine)
      (hitems : s'.net.incoming.items = [])
      (hconverting : s'.net.converting = s.net.converting)
      (horigins : s'.origins = s.origins) : Holds s .clear s'
  | other {e : Event} {s' : State} (hengine : s'.engine = s.engine)
      (hnet : s'.net = s.net) (harriving : arriving s e = [])
      (horigins : s'.origins = s.origins) : Holds s e s'

theorem holds_of_step {s s' : State} {e : Event} (h : step s e = some s') :
    Holds s e s' := by
  cases acts_of_step h with
  | @deliver i now blob lane bytes hl hsent =>
      cases blob with
      | true => exact .arrive rfl rfl rfl ⟨lane, hl, hsent, rfl⟩
      | false =>
          obtain ⟨hsub, hall⟩ := enqueue_sublist
            { s.net with lastPacketAt := now, arrivals := s.net.arrivals + 1 }
            ⟨s.net.arrivals, .arrayBuffer bytes⟩
          exact .enqueue rfl hsub hall rfl ⟨lane, hl, hsent, rfl⟩
  | @converted j n hn =>
      cases Net.acts_of_converted hn with
      | @converted _ packet hj =>
          obtain ⟨hsub, hall⟩ := enqueue_sublist
            { s.net with converting := s.net.converting.eraseIdx j } (Net.convert packet)
          exact .convert rfl hj hsub hall rfl rfl
  | dequeue hd => exact .take rfl (RollingBuffer.dequeue_eq_some hd).1 rfl rfl
  | clear => exact .clear rfl rfl rfl rfl
  | _ => exact .other rfl rfl rfl rfl

/-- Packets are lost, and conversions reorder them; no serial comes twice. -/
theorem serials_subperm {s s' : State} {e : Event} (h : Holds s e s') :
    List.Subperm (serials s') (serials s ++ arriving s e) := by
  cases h with
  | arrive hengine hitems hconverting hcomes =>
      simp [serials, held, arriving, hengine, hitems, hconverting, List.Subperm.refl]
  | @enqueue i now bytes _ hengine hitems hall hconverting hcomes =>
      have hsub := (hitems.append (List.Sublist.refl s.net.converting)).map Packet.serial
      simp only [serials, held, arriving, hengine, hconverting, List.map_append,
        List.append_assoc, List.subperm_append_left] at hsub ⊢
      refine hsub.subperm.trans (List.Perm.subperm ?_)
      exact List.Perm.append_left _ List.perm_append_comm
  | @convert j packet _ hengine hj hitems hall hconverting horigins =>
      obtain ⟨hlt, hget⟩ := List.getElem?_eq_some_iff.mp hj
      have hsub := (hitems.append (List.Sublist.refl (s.net.converting.eraseIdx j))).map
        Packet.serial
      have hperm := (List.getElem_cons_eraseIdx_perm hlt).map Packet.serial
      rw [hget] at hperm
      simp only [serials, held, arriving, hengine, hconverting, List.map_append,
        List.append_assoc, List.subperm_append_left, List.append_nil, List.map_cons,
        Net.serial_convert, List.singleton_append] at hsub hperm ⊢
      exact hsub.subperm.trans (List.Perm.append_left _ hperm).subperm
  | take hengine hitems hconverting horigins =>
      simp [serials, held, arriving, hengine, hitems, hconverting, List.Subperm.refl]
  | clear hengine hitems hconverting horigins =>
      simp only [serials, held, arriving, hengine, hitems, hconverting, List.nil_append,
        List.append_nil]
      refine (List.Sublist.map _ ?_).subperm
      exact (List.Sublist.refl _).append (List.sublist_append_right _ _)
  | other hengine hnet harriving horigins =>
      simp [serials, held, hengine, hnet, harriving, List.Subperm.refl]

/-- The step overtakes no pending conversion. -/
def InTurn (s : State) : Event → Prop
  | .deliver _ _ false => s.net.converting = []
  | .converted j => j = 0
  | _ => True

/-- In turn, the packets stay in the order of their messages; with no drop and
no `netClear` they all stay. -/
theorem serials_sublist {s s' : State} {e : Event} (h : Holds s e s') (hturn : InTurn s e) :
    List.Sublist (serials s') (serials s ++ arriving s e)
      ∧ (e ≠ .clear → s'.net.overflowDrops = s.net.overflowDrops →
        serials s' = serials s ++ arriving s e) := by
  cases h with
  | arrive hengine hitems hconverting hcomes =>
      have heq : serials s' = serials s ++ [s.net.arrivals] := by
        simp [serials, held, hengine, hitems, hconverting]
      rw [heq]
      exact ⟨List.Sublist.refl _, fun _ _ => rfl⟩
  | @enqueue i now bytes _ hengine hitems hall hconverting hcomes =>
      have hnone : s.net.converting = [] := hturn
      rw [hnone] at hconverting
      refine ⟨?_, fun _ hdrops => ?_⟩
      · have hsub := (hitems.append_left s.engine).map Packet.serial
        simpa [serials, held, arriving, hengine, hconverting, hnone] using hsub
      · simp [serials, held, arriving, hengine, hconverting, hnone, hall hdrops]
  | @convert j packet _ hengine hj hitems hall hconverting horigins =>
      obtain rfl : j = 0 := hturn
      obtain ⟨rest, hrest⟩ : ∃ rest, s.net.converting = packet :: rest := by
        cases hc : s.net.converting with
        | nil => rw [hc] at hj; cases hj
        | cons p rest =>
            rw [hc] at hj
            obtain rfl := Option.some.inj hj
            exact ⟨rest, rfl⟩
      rw [hrest, List.eraseIdx_cons_zero] at hconverting
      refine ⟨?_, fun _ hdrops => ?_⟩
      · have hsub := ((hitems.append_right rest).append_left s.engine).map Packet.serial
        simpa [serials, held, arriving, hengine, hconverting, hrest] using hsub
      · simp [serials, held, arriving, hengine, hconverting, hrest, hall hdrops]
  | take hengine hitems hconverting horigins =>
      have heq : serials s' = serials s ++ arriving s .dequeue := by
        simp [serials, held, arriving, hengine, hitems, hconverting]
      rw [heq]
      exact ⟨List.Sublist.refl _, fun _ _ => rfl⟩
  | clear hengine hitems hconverting horigins =>
      refine ⟨?_, fun hne => absurd rfl hne⟩
      simp only [serials, held, arriving, hengine, hitems, hconverting, List.nil_append,
        List.append_nil]
      exact List.Sublist.map _ ((List.sublist_append_right _ _).append_left _)
  | other hengine hnet harriving horigins =>
      have heq : serials s' = serials s ++ arriving s e := by
        simp [serials, held, harriving, hengine, hnet]
      rw [heq]
      exact ⟨List.Sublist.refl _, fun _ _ => rfl⟩

/-! ## Where the packets come from -/

/-- A send of a lane. -/
def source (s : State) (o : Nat × Nat) : Option Bytes :=
  s.lanes[o.1]?.bind fun lane => lane.bridge.sent[o.2]?

/-- The packet is, byte for byte, the send its serial stands for. -/
def Carries (s : State) (p : Packet) : Prop :=
  ∃ o bytes, s.origins[p.serial]? = some o ∧ source s o = some bytes
    ∧ (Net.convert p).data = .arrayBuffer bytes

/-- The sends of a lane among the messages, in the order of their arrival. -/
def sendsOf (origins : List (Nat × Nat)) (i : Nat) : List Nat :=
  origins.filterMap fun o => if o.1 = i then some o.2 else none

theorem sendsOf_append (origins : List (Nat × Nat)) (o : Nat × Nat) (i : Nat) :
    sendsOf (origins ++ [o]) i = sendsOf origins i ++ if o.1 = i then [o.2] else [] := by
  rw [sendsOf, List.filterMap_append]
  congr 1
  split <;> simp_all

/-- The lanes only send more, and the messages keep their origins. -/
structure Grows (s s' : State) : Prop where
  source : ∀ {o bytes}, source s o = some bytes → Pipeline.source s' o = some bytes
  origins : s.origins <+: s'.origins

theorem Grows.carries {s s' : State} (h : Grows s s') {p : Packet} (hp : Carries s p) :
    Carries s' p := by
  obtain ⟨o, bytes, ho, hsource, hdata⟩ := hp
  obtain ⟨more, hmore⟩ := h.origins
  refine ⟨o, bytes, ?_, h.source hsource, hdata⟩
  rw [← hmore, List.getElem?_append_left (List.getElem?_eq_some_iff.mp ho).1]
  exact ho

theorem source_setLane {s s' : State} {i : Nat} {lane : Lane}
    (hl : s.lanes[i]? = some lane) (hlanes : ∃ lane', s'.lanes = (s.setLane i lane').lanes
      ∧ lane.bridge.sent <+: lane'.bridge.sent) {o : Nat × Nat} {bytes : Bytes}
    (h : source s o = some bytes) : source s' o = some bytes := by
  obtain ⟨lane', hlanes, hsent⟩ := hlanes
  obtain ⟨l, hlo, hbytes⟩ := Option.bind_eq_some_iff.mp h
  have hlt := (List.getElem?_eq_some_iff.mp hl).1
  rw [source, hlanes, State.setLane, List.getElem?_set]
  by_cases hio : i = o.1
  · subst hio
    rw [if_pos rfl, if_pos hlt, Option.bind_some]
    obtain rfl := Option.some.inj (hl.symm.trans hlo)
    obtain ⟨more, hmore⟩ := hsent
    rw [← hmore, List.getElem?_append_left (List.getElem?_eq_some_iff.mp hbytes).1]
    exact hbytes
  · rw [if_neg hio]
    exact h

theorem grows_step {s s' : State} {e : Event} (hlinked : Linked s) (h : step s e = some s') :
    Grows s s' := by
  cases acts_of_step h with
  | connect =>
      refine ⟨fun {o bytes} ho => ?_, List.prefix_rfl⟩
      obtain ⟨lane, hl, hbytes⟩ := Option.bind_eq_some_iff.mp ho
      rw [source, List.getElem?_append_left (List.getElem?_eq_some_iff.mp hl).1]
      exact ho
  | bridge hl he hstep =>
      have hsent := (relays_step (run_trace (hlinked.ok hl) hstep).2.1).sent
      refine ⟨fun ho => source_setLane hl ?_ ho, List.prefix_rfl⟩
      exact ⟨_, rfl, hsent⟩
  | deliver hl hsent =>
      refine ⟨fun ho => source_setLane hl ?_ ho, List.prefix_append _ _⟩
      exact ⟨_, rfl, List.prefix_rfl⟩
  | uplink hl hdata hstep =>
      have hsent := (relays_step (run_trace (hlinked.ok hl) hstep).2.1).sent
      refine ⟨fun ho => source_setLane hl ?_ ho, List.prefix_rfl⟩
      exact ⟨_, rfl, hsent⟩
  | posted hc hl hready hok =>
      refine ⟨fun ho => source_setLane hl ?_ ho, List.prefix_rfl⟩
      exact ⟨_, rfl, List.prefix_rfl⟩
  | _ => exact ⟨id, List.prefix_rfl⟩

/-! ## The account of the queue -/

/-- Each lane's sends become messages in order and once each; every packet
still held is one of them, and no two are the same. -/
structure Fed (s : State) : Prop where
  counted : s.origins.length = s.net.arrivals
  delivered : ∀ {i : Nat} {lane : Lane}, s.lanes[i]? = some lane →
    sendsOf s.origins i = List.range lane.delivered
  known : ∀ o ∈ s.origins, o.1 < s.lanes.length
  carried : ∀ p ∈ held s, Carries s p
  settled : ∀ p, p ∈ s.engine ∨ p ∈ s.net.incoming.items → Net.convert p = p
  nodup : (serials s).Nodup

theorem Carries.lt {s : State} {p : Packet} (h : Carries s p) :
    p.serial < s.origins.length := by
  obtain ⟨o, bytes, ho, -⟩ := h
  exact (List.getElem?_eq_some_iff.mp ho).1

theorem Fed.serial_lt {s : State} (h : Fed s) : ∀ n ∈ serials s, n < s.net.arrivals := by
  intro n hn
  obtain ⟨p, hp, rfl⟩ := List.mem_map.mp hn
  rw [← h.counted]
  exact (h.carried p hp).lt

theorem convert_convert (p : Packet) : Net.convert (Net.convert p) = Net.convert p := by
  obtain ⟨n, data⟩ := p
  cases data <;> rfl

theorem Carries.convert {s : State} {p : Packet} (h : Carries s p) :
    Carries s (Net.convert p) := by
  obtain ⟨o, bytes, ho, hsource, hdata⟩ := h
  refine ⟨o, bytes, ?_, hsource, ?_⟩
  · rw [Net.serial_convert]
    exact ho
  · rw [convert_convert]
    exact hdata

theorem Comes.carries {s s' : State} {i : Nat} {bytes : Bytes} (h : Comes s i bytes s')
    (hcounted : s.origins.length = s.net.arrivals) (hgrows : Grows s s') {data : Payload}
    (hdata : (Net.convert ⟨s.net.arrivals, data⟩).data = .arrayBuffer bytes) :
    Carries s' ⟨s.net.arrivals, data⟩ := by
  obtain ⟨lane, hl, hsent, horigins⟩ := h
  refine ⟨(i, lane.delivered), bytes, ?_, hgrows.source ?_, hdata⟩
  · rw [horigins, ← hcounted]
    exact List.getElem?_concat_length
  · rw [source, hl]
    exact hsent

theorem counted_step {s s' : State} {e : Event} (hcounted : s.origins.length = s.net.arrivals)
    (h : step s e = some s') : s'.origins.length = s'.net.arrivals := by
  cases acts_of_step h with
  | @deliver i now blob lane bytes hl hsent =>
      dsimp only
      rw [List.length_append, hcounted]
      cases blob <;> rfl
  | converted hn =>
      cases Net.acts_of_converted hn with
      | converted hj => exact hcounted
  | _ => exact hcounted

/-- The messages of each lane are its sends from the first on. -/
theorem delivered_step {s s' : State} {e : Event} (hlinked : Linked s)
    (hdel : ∀ {i lane}, s.lanes[i]? = some lane → sendsOf s.origins i = List.range lane.delivered)
    (hknown : ∀ o ∈ s.origins, o.1 < s.lanes.length) (h : step s e = some s') {i : Nat}
    {lane : Lane} (hl : s'.lanes[i]? = some lane) :
    sendsOf s'.origins i = List.range lane.delivered := by
  cases acts_of_step h with
  | connect =>
      rcases getElem?_connect hl with hl | ⟨rfl, rfl⟩
      · exact hdel hl
      · refine List.filterMap_eq_nil_iff.mpr fun o ho => if_neg ?_
        exact Nat.ne_of_lt (hknown o ho)
  | bridge hj he hstep =>
      rcases getElem?_setLane hl with ⟨rfl, rfl⟩ | ⟨-, hl⟩
      · rw [(run_trace (hlinked.ok hj) hstep).2.2.1]
        exact hdel hj
      · exact hdel hl
  | deliver hj hsent =>
      rw [sendsOf_append]
      rcases getElem?_setLane hl with ⟨rfl, rfl⟩ | ⟨hne, hl⟩
      · rw [if_pos rfl, hdel hj, List.range_succ]
      · rw [if_neg (Ne.symm hne), List.append_nil]
        exact hdel hl
  | uplink hj hdata hstep =>
      rcases getElem?_setLane hl with ⟨rfl, rfl⟩ | ⟨-, hl⟩
      · dsimp only
        rw [(run_trace (hlinked.ok hj) hstep).2.2.1]
        exact hdel hj
      · exact hdel hl
  | posted hc hj hready hok =>
      rcases getElem?_setLane hl with ⟨rfl, rfl⟩ | ⟨-, hl⟩
      · have hsame := hdel hj
        exact hsame
      · exact hdel hl
  | _ => exact hdel hl

theorem known_step {s s' : State} {e : Event}
    (hknown : ∀ o ∈ s.origins, o.1 < s.lanes.length) (h : step s e = some s') :
    ∀ o ∈ s'.origins, o.1 < s'.lanes.length := by
  have hset : ∀ i lane, (s.setLane i lane).lanes.length = s.lanes.length :=
    fun i lane => List.length_set
  cases acts_of_step h with
  | connect =>
      intro o ho
      rw [List.length_append]
      exact Nat.lt_add_right _ (hknown o ho)
  | bridge hj he hstep =>
      rw [hset]
      exact hknown
  | deliver hj hsent =>
      intro o ho
      dsimp only
      rw [hset]
      rcases List.mem_append.mp ho with ho | ho
      · exact hknown o ho
      · rw [List.mem_singleton.mp ho]
        exact (List.getElem?_eq_some_iff.mp hj).1
  | uplink hj hdata hstep =>
      rw [hset]
      exact hknown
  | posted hc hj hready hok =>
      dsimp only
      rw [hset]
      exact hknown
  | _ => exact hknown

/-- No packet is invented: each one that is held was held, was converted, or
has just arrived. -/
theorem carried_step {s s' : State} {e : Event} (hfed : Fed s) (hgrows : Grows s s')
    (h : Holds s e s') : ∀ p ∈ held s', Carries s' p := by
  intro p hp
  have hold : ∀ p, p ∈ held s → Carries s' p := fun p hp => hgrows.carries (hfed.carried p hp)
  rw [mem_held_iff] at hp
  cases h with
  | arrive hengine hitems hconverting hcomes =>
      rw [hengine, hitems, hconverting, List.mem_append, List.mem_singleton] at hp
      rcases hp with hp | hp | hp | rfl
      · exact hold p (mem_held_iff.mpr (Or.inl hp))
      · exact hold p (mem_held_iff.mpr (Or.inr (Or.inl hp)))
      · exact hold p (mem_held_iff.mpr (Or.inr (Or.inr hp)))
      · exact hcomes.carries hfed.counted hgrows rfl
  | enqueue hengine hitems hall hconverting hcomes =>
      rw [hengine, hconverting] at hp
      rcases hp with hp | hp | hp
      · exact hold p (mem_held_iff.mpr (Or.inl hp))
      · rcases List.mem_append.mp (hitems.subset hp) with hp | hp
        · exact hold p (mem_held_iff.mpr (Or.inr (Or.inl hp)))
        · rw [List.mem_singleton.mp hp]
          exact hcomes.carries hfed.counted hgrows rfl
      · exact hold p (mem_held_iff.mpr (Or.inr (Or.inr hp)))
  | convert hengine hj hitems hall hconverting horigins =>
      rw [hengine, hconverting] at hp
      rcases hp with hp | hp | hp
      · exact hold p (mem_held_iff.mpr (Or.inl hp))
      · rcases List.mem_append.mp (hitems.subset hp) with hp | hp
        · exact hold p (mem_held_iff.mpr (Or.inr (Or.inl hp)))
        · rw [List.mem_singleton.mp hp]
          have hmem := List.mem_of_getElem? hj
          exact (hold _ (mem_held_iff.mpr (Or.inr (Or.inr hmem)))).convert
      · have hmem := (List.eraseIdx_sublist ..).subset hp
        exact hold p (mem_held_iff.mpr (Or.inr (Or.inr hmem)))
  | take hengine hitems hconverting horigins =>
      refine hold p (mem_held_iff.mpr ?_)
      rw [hengine, hconverting, List.mem_append, List.mem_singleton] at hp
      rw [hitems, List.mem_cons]
      tauto
  | clear hengine hitems hconverting horigins =>
      refine hold p (mem_held_iff.mpr ?_)
      rw [hengine, hitems, hconverting] at hp
      rcases hp with hp | hp | hp
      · exact Or.inl hp
      · cases hp
      · exact Or.inr (Or.inr hp)
  | other hengine hnet harriving horigins =>
      refine hold p (mem_held_iff.mpr ?_)
      rwa [hengine, hnet] at hp

/-- What is past the conversions needs none. -/
theorem settled_step {s s' : State} {e : Event} (hfed : Fed s) (h : Holds s e s') :
    ∀ p, p ∈ s'.engine ∨ p ∈ s'.net.incoming.items → Net.convert p = p := by
  intro p hp
  have hold := hfed.settled p
  cases h with
  | arrive hengine hitems hconverting hcomes =>
      rw [hengine, hitems] at hp
      exact hold hp
  | enqueue hengine hitems hall hconverting hcomes =>
      rw [hengine] at hp
      rcases hp with hp | hp
      · exact hold (Or.inl hp)
      · rcases List.mem_append.mp (hitems.subset hp) with hp | hp
        · exact hold (Or.inr hp)
        · rw [List.mem_singleton.mp hp]
          rfl
  | convert hengine hj hitems hall hconverting horigins =>
      rw [hengine] at hp
      rcases hp with hp | hp
      · exact hold (Or.inl hp)
      · rcases List.mem_append.mp (hitems.subset hp) with hp | hp
        · exact hold (Or.inr hp)
        · rw [List.mem_singleton.mp hp, convert_convert]
  | take hengine hitems hconverting horigins =>
      refine hold ?_
      rw [hengine, List.mem_append, List.mem_singleton] at hp
      rw [hitems, List.mem_cons]
      tauto
  | clear hengine hitems hconverting horigins =>
      rw [hengine, hitems] at hp
      rcases hp with hp | hp
      · exact hold (Or.inl hp)
      · cases hp
  | other hengine hnet harriving horigins =>
      rw [hengine, hnet] at hp
      exact hold hp

theorem Fed.nodup_arriving {s : State} (h : Fed s) (e : Event) :
    (serials s ++ arriving s e).Nodup := by
  unfold arriving
  split
  · refine List.nodup_append.mpr ⟨h.nodup, List.nodup_singleton _, ?_⟩
    intro n hn m hm
    rw [List.mem_singleton.mp hm]
    exact Nat.ne_of_lt (h.serial_lt n hn)
  · rw [List.append_nil]
    exact h.nodup

theorem fed_step {s s' : State} {e : Event} (h : Linked s ∧ Fed s)
    (hs : step s e = some s') : Linked s' ∧ Fed s' := by
  obtain ⟨hlinked, hfed⟩ := h
  have hholds := holds_of_step hs
  have hgrows := grows_step hlinked hs
  exact ⟨linked_step hlinked hs, counted_step hfed.counted hs,
    delivered_step hlinked hfed.delivered hfed.known hs, known_step hfed.known hs,
    carried_step hfed hgrows hholds, settled_step hfed hholds,
    nodup_of_subperm (serials_subperm hholds) (hfed.nodup_arriving e)⟩

theorem fed_init {maxPackets : Nat} (pos : 0 < maxPackets) :
    Linked (init maxPackets pos) ∧ Fed (init maxPackets pos) := by
  refine ⟨linked_init pos, rfl, fun h => ?_, nofun, fun p hp => ?_, fun p hp => ?_, .nil⟩
  · cases h
  · rcases mem_held_iff.mp hp with hp | hp | hp <;> cases hp
  · rcases hp with hp | hp <;> cases hp

/-! ## No packet twice -/

theorem count_sendsOf (origins : List (Nat × Nat)) (i k : Nat) :
    (sendsOf origins i).count k = origins.count (i, k) := by
  induction origins with
  | nil => rfl
  | cons o origins ih =>
      obtain ⟨j, m⟩ := o
      by_cases hj : j = i
      · subst hj
        have hcons : sendsOf ((j, m) :: origins) j = m :: sendsOf origins j := by
          simp [sendsOf]
        rw [hcons, List.count_cons, List.count_cons, ih]
        simp
      · have hcons : sendsOf ((j, m) :: origins) i = sendsOf origins i := by
          simp [sendsOf, hj]
        rw [hcons, ih, List.count_cons]
        simp [hj]

/-- No send of a lane becomes two messages. -/
theorem Fed.nodup_origins {s : State} (h : Fed s) : s.origins.Nodup := by
  refine List.nodup_iff_count_le_one.mpr fun ⟨i, k⟩ => ?_
  rw [← count_sendsOf]
  by_cases hi : i < s.lanes.length
  · rw [h.delivered (List.getElem?_eq_getElem hi)]
    exact List.nodup_iff_count_le_one.mp List.nodup_range k
  · have hnone : sendsOf s.origins i = [] := by
      refine List.filterMap_eq_nil_iff.mpr fun o ho => if_neg ?_
      have hlt := h.known o ho
      omega
    rw [hnone]
    exact Nat.zero_le _

/-- In every state of a run, with any number of bridges, any order of
conversions and any losses: each packet the engine has taken is, byte for
byte, what a bridge made of one datagram, and no datagram of a bridge has been
taken twice. -/
theorem engine_safety {maxPackets : Nat} (pos : 0 < maxPackets) {es : List Event}
    {s : State} (h : run step (init maxPackets pos) es = some s) :
    (∀ p ∈ s.engine, ∃ i k lane bytes consumed, s.origins[p.serial]? = some (i, k)
      ∧ s.lanes[i]? = some lane
      ∧ run Bridge.step Bridge.init lane.trace = some lane.bridge
      ∧ Bridge.arrived lane.trace = consumed ++ lane.bridge.socket
      ∧ ((consumed.map Bridge.fitted).filterMap Bridge.toBrowser)[k]? = some bytes
      ∧ p.data = .arrayBuffer bytes)
    ∧ (s.engine.map fun p => s.origins[p.serial]?).Nodup := by
  obtain ⟨hlinked, hfed⟩ := run_invariant (I := fun s => Linked s ∧ Fed s) fed_step h
    (fed_init pos)
  constructor
  · intro p hp
    obtain ⟨⟨i, k⟩, bytes, ho, hsource, hdata⟩ :=
      hfed.carried p (mem_held_iff.mpr (Or.inl hp))
    obtain ⟨lane, hl, hbytes⟩ := Option.bind_eq_some_iff.mp hsource
    have hran := (hlinked.ok hl).ran
    obtain ⟨consumed, harrived, hsent⟩ :=
      (Bridge.forwarded_run Bridge.wf_init Bridge.forwarded_init hran).received
    rw [List.nil_append] at harrived
    rw [hsent] at hbytes
    rw [hfed.settled p (Or.inl hp)] at hdata
    exact ⟨i, k, lane, bytes, consumed, ho, hl, hran, harrived, hbytes, hdata⟩
  · have hnodup : (s.engine.map Packet.serial).Nodup := by
      have hall := hfed.nodup
      rw [serials, held, List.map_append, List.nodup_append] at hall
      exact hall.1
    have hmap : s.engine.map (fun p => s.origins[p.serial]?)
        = (s.engine.map Packet.serial).map fun n => s.origins[n]? := by
      rw [List.map_map]
      rfl
    rw [hmap]
    refine hnodup.map_on fun n hn m hm heq => ?_
    obtain ⟨p, hp, rfl⟩ := List.mem_map.mp hn
    have hlt := (hfed.carried p (mem_held_iff.mpr (Or.inl hp))).lt
    exact (List.getElem?_inj hlt hfed.nodup_origins).mp heq

/-- Two bridges, and the conversions resolve the other way round. -/
def crossed : List Event :=
  [.connect, .bridge 0 .start, .connect, .bridge 1 .start,
    .bridge 0 (.datagram (.ok [1])), .bridge 1 (.datagram (.ok [2])),
    .bridge 0 (.forward .recv), .bridge 1 (.forward .recv), .deliver 0 5 true,
    .deliver 1 6 true, .converted 1, .converted 0, .dequeue, .dequeue]

theorem engine_safety_crossed :
    ∃ s, run step (init 16384 (by decide)) crossed = some s
      ∧ s.engine = [⟨1, .arrayBuffer [2]⟩, ⟨0, .arrayBuffer [1]⟩]
      ∧ s.origins = [(0, 0), (1, 0)]
      ∧ (s.engine.map fun p => s.origins[p.serial]?).Nodup := by
  obtain ⟨s, hs, hengine, horigins⟩ : ∃ s, run step (init 16384 (by decide)) crossed = some s
      ∧ s.engine = [⟨1, .arrayBuffer [2]⟩, ⟨0, .arrayBuffer [1]⟩]
      ∧ s.origins = [(0, 0), (1, 0)] := ⟨_, rfl, rfl, rfl⟩
  exact ⟨s, hs, hengine, horigins, (engine_safety (by decide) hs).2⟩

/-! ## In order -/

theorem arrivals_step {s s' : State} {e : Event} (h : step s e = some s') :
    s'.net.arrivals = s.net.arrivals + (arriving s e).length := by
  cases acts_of_step h with
  | @deliver i now blob lane bytes hl hsent => cases blob <;> rfl
  | converted hn =>
      cases Net.acts_of_converted hn with
      | converted hj => rfl
  | _ => rfl

theorem drops_enqueue (n : Net) (packet : Packet) :
    n.overflowDrops ≤ (n.enqueueIncoming packet).overflowDrops := by
  unfold Net.enqueueIncoming
  dsimp only
  split <;> omega

theorem drops_step {s s' : State} {e : Event} (h : step s e = some s') :
    s.net.overflowDrops ≤ s'.net.overflowDrops := by
  cases acts_of_step h with
  | @deliver i now blob lane bytes hl hsent =>
      cases blob with
      | true => exact Nat.le_refl _
      | false => exact drops_enqueue { s.net with
          lastPacketAt := now, arrivals := s.net.arrivals + 1 } _
  | @converted j n hn =>
      cases Net.acts_of_converted hn with
      | @converted _ packet hj => exact drops_enqueue { s.net with
          converting := s.net.converting.eraseIdx j } _
  | _ => exact Nat.le_refl _

/-- The serials are in order. -/
def Sorted (s : State) : Prop := (serials s).Pairwise (· < ·)

theorem sorted_step {s s' : State} {e : Event} (hfed : Fed s) (hsorted : Sorted s)
    (hturn : InTurn s e) (h : step s e = some s') : Sorted s' := by
  refine List.Pairwise.sublist (serials_sublist (holds_of_step h) hturn).1 ?_
  unfold arriving
  split
  · refine List.pairwise_append.mpr ⟨hsorted, List.pairwise_singleton .., ?_⟩
    intro n hn m hm
    rw [List.mem_singleton.mp hm]
    exact hfed.serial_lt n hn
  · rw [List.append_nil]
    exact hsorted

/-- With no drop so far, every message that has arrived is held. -/
def Lossless (s : State) : Prop :=
  s.net.overflowDrops = 0 → serials s = List.range s.net.arrivals

theorem lossless_step {s s' : State} {e : Event} (hloss : Lossless s) (hturn : InTurn s e)
    (he : e ≠ .clear) (h : step s e = some s') : Lossless s' := by
  intro hzero
  have hdrops := drops_step h
  have hsame : s'.net.overflowDrops = s.net.overflowDrops := by omega
  rw [(serials_sublist (holds_of_step h) hturn).2 he hsame, hloss (hsame.symm.trans hzero),
    arrivals_step h]
  unfold arriving
  split
  · exact List.range_succ.symm
  · exact List.append_nil _

/-- The packets of lane `i` among some. -/
def fromLane (s : State) (i : Nat) (ps : List Packet) : List Packet :=
  ps.filter fun p => (s.origins[p.serial]?).map Prod.fst = some i

/-- The bytes of lane `i`'s packets are those of its sends. -/
theorem data_fromLane {s : State} {i : Nat} {lane : Lane} (hl : s.lanes[i]? = some lane)
    {ps : List Packet} (hps : ∀ p ∈ ps, Carries s p) :
    (fromLane s i ps).map (fun p => (Net.convert p).data)
      = (sendsOf (ps.filterMap fun p => s.origins[p.serial]?) i).filterMap
          fun k => lane.bridge.sent[k]?.map Payload.arrayBuffer := by
  unfold fromLane
  induction ps with
  | nil => rfl
  | cons p ps ih =>
      have hrest := ih fun q hq => hps q (List.mem_cons_of_mem _ hq)
      obtain ⟨⟨j, k⟩, bytes, ho, hsource, hdata⟩ := hps p (List.mem_cons_self ..)
      rw [List.filterMap_cons, ho, List.filter_cons, ho]
      by_cases hj : j = i
      · subst hj
        obtain ⟨l, hl', hbytes⟩ := Option.bind_eq_some_iff.mp hsource
        obtain rfl := Option.some.inj (hl.symm.trans hl')
        dsimp only at hbytes
        simp [hrest, sendsOf, hbytes, hdata]
      · simp [hrest, sendsOf, hj]

theorem filterMap_sent_range (lane : Lane) (n : Nat) :
    (List.range n).filterMap (fun k => lane.bridge.sent[k]?.map Payload.arrayBuffer)
      = (lane.bridge.sent.take n).map Payload.arrayBuffer := by
  rw [← filterMap_getElem?_range, List.map_filterMap]

theorem filterMap_origins (s : State) (ps : List Packet) :
    ps.filterMap (fun p => s.origins[p.serial]?)
      = (ps.map Packet.serial).filterMap fun n => s.origins[n]? := by
  rw [List.filterMap_map]
  rfl

/-- In a run in which nothing overtakes a pending conversion, what the engine
has taken of a bridge, what is queued and what is being converted are datagrams
of the bridge in the order in which the proxy received them; with no drop and
no `netClear` they are all that have come to the page. -/
theorem engine_in_order {maxPackets : Nat} (pos : 0 < maxPackets) {es : List Event}
    {s : State} (h : run step (init maxPackets pos) es = some s)
    (hturn : EachStep step InTurn (init maxPackets pos) es) {i : Nat} {lane : Lane}
    (hl : s.lanes[i]? = some lane) :
    ∃ consumed sent, Bridge.arrived lane.trace = consumed ++ lane.bridge.socket
      ∧ sent = ((consumed.map Bridge.fitted).filterMap Bridge.toBrowser).map .arrayBuffer
      ∧ List.Sublist ((fromLane s i (s.engine ++ (s.net.incoming.items ++ s.net.converting))).map
          fun p => (Net.convert p).data) sent
      ∧ (s.net.overflowDrops = 0 → .clear ∉ es →
          (fromLane s i (s.engine ++ (s.net.incoming.items ++ s.net.converting))).map
            (fun p => (Net.convert p).data) = sent.take lane.delivered) := by
  obtain ⟨⟨hlinked, hfed⟩, hsorted⟩ := run_invariant_of_eachStep
    (I := fun s => (Linked s ∧ Fed s) ∧ Sorted s)
    (fun _ hu hG hs => ⟨fed_step hu.1 hs, sorted_step hu.1.2 hu.2 hG hs⟩) h hturn
    ⟨fed_init pos, .nil⟩
  obtain ⟨consumed, harrived, hsent⟩ := (Bridge.forwarded_run Bridge.wf_init
    Bridge.forwarded_init (hlinked.ok hl).ran).received
  rw [List.nil_append] at harrived
  have hall := hfed.delivered hl
  rw [sendsOf] at hall
  have hdata := data_fromLane hl hfed.carried
  rw [filterMap_origins, held] at hdata
  refine ⟨consumed, _, harrived, rfl, ?_, fun hzero hclear => ?_⟩
  · rw [hdata, ← hsent]
    have hlt : ∀ n ∈ (held s).map Packet.serial, n < s.origins.length := by
      intro n hn
      obtain ⟨p, hp, rfl⟩ := List.mem_map.mp hn
      exact (hfed.carried p hp).lt
    have hsub := (filterMap_getElem?_sublist hsorted hlt).filterMap fun o =>
      if o.1 = i then some o.2 else none
    have hsends := hsub.filterMap fun k => lane.bridge.sent[k]?.map Payload.arrayBuffer
    refine hsends.trans ?_
    rw [hall, filterMap_sent_range]
    exact (List.take_sublist _ _).map _
  · have hloss : Lossless s := run_invariant_of_eachStep
      (fun he hu hG hs => lossless_step hu hG (fun heq => hclear (heq ▸ he)) hs) h hturn
      fun _ => rfl
    have hserials : (held s).map Packet.serial = List.range s.origins.length := by
      rw [hfed.counted]
      exact hloss hzero
    rw [held] at hserials
    rw [hdata, hserials, filterMap_getElem?_range, List.take_length, sendsOf, hall,
      filterMap_sent_range, ← hsent, List.map_take]

instance InTurn.decidable (s : State) : (e : Event) → Decidable (InTurn s e)
  | .deliver _ _ false => inferInstanceAs (Decidable (s.net.converting = []))
  | .converted j => inferInstanceAs (Decidable (j = 0))
  | .deliver _ _ true | .connect | .bridge _ _ | .uplink _ | .readOpened _ | .readEnded
  | .sendto _ _ _ | .dequeue | .clear => isTrue trivial

/-- A datagram that the browser hands over as a `Blob`, one as an
`ArrayBuffer`, and one more `Blob`. The engine has taken the first. -/
def straight : List Event :=
  [.connect, .bridge 0 .start, .bridge 0 (.datagram (.ok [1])), .bridge 0 (.forward .recv),
    .deliver 0 5 true, .converted 0, .bridge 0 (.forward (.sent true)),
    .bridge 0 (.datagram (.ok [2, 3])), .bridge 0 (.forward .recv), .deliver 0 6 false,
    .dequeue, .bridge 0 (.forward (.sent true)), .bridge 0 (.datagram (.ok [4])),
    .bridge 0 (.forward .recv), .deliver 0 7 true]

theorem engine_in_order_straight :
    ∃ s lane, run step (init 16384 (by decide)) straight = some s
      ∧ s.lanes[0]? = some lane
      ∧ s.engine = [⟨0, .arrayBuffer [1]⟩]
      ∧ s.net.incoming.items = [⟨1, .arrayBuffer [2, 3]⟩]
      ∧ s.net.converting = [⟨2, .blob [4]⟩]
      ∧ ∃ consumed sent, Bridge.arrived lane.trace = consumed ++ lane.bridge.socket
        ∧ sent = ((consumed.map Bridge.fitted).filterMap Bridge.toBrowser).map .arrayBuffer
        ∧ (fromLane s 0 (s.engine ++ (s.net.incoming.items ++ s.net.converting))).map
          (fun p => (Net.convert p).data) = sent.take lane.delivered := by
  obtain ⟨s, hs, hlen, hengine, hitems, hconverting, hdrops⟩ :
      ∃ s, run step (init 16384 (by decide)) straight = some s
        ∧ s.lanes.length = 1
        ∧ s.engine = [⟨0, .arrayBuffer [1]⟩]
        ∧ s.net.incoming.items = [⟨1, .arrayBuffer [2, 3]⟩]
        ∧ s.net.converting = [⟨2, .blob [4]⟩]
        ∧ s.net.overflowDrops = 0 := ⟨_, rfl, rfl, rfl, rfl, rfl, rfl⟩
  have hl : s.lanes[0]? = some s.lanes[0] := List.getElem?_eq_getElem (by omega)
  obtain ⟨consumed, sent, harrived, hsent, -, hall⟩ :=
    engine_in_order (by decide) hs (by decide) hl
  exact ⟨s, s.lanes[0], hs, hl, hengine, hitems, hconverting, consumed, sent, harrived, hsent,
    hall hdrops (by decide)⟩

end Pipeline

end XashProxy
