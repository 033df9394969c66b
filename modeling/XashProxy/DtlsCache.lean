import XashProxy.DtlsContent

/-!
# The handshake cache

Both sides keep the handshake messages of a connection, their own and those of
the other side, and draw them by rules: each rule asks for the last message of
its type, and a map of several messages is given only if their numbers follow
one another.
-/

namespace XashProxy

namespace Dtls

open Codec

structure HandshakeCacheItem where
  typ : HandshakeType
  isClient : Bool
  epoch : UInt16
  messageSequence : UInt16
  data : Bytes
deriving DecidableEq, Repr

structure HandshakeCachePullRule where
  typ : HandshakeType
  epoch : UInt16
  isClient : Bool
  optional : Bool
deriving DecidableEq, Repr

abbrev HandshakeCache := List HandshakeCacheItem

namespace HandshakeCache

/-- A second message of the same number and side is refused. -/
def push (cache : HandshakeCache) (item : HandshakeCacheItem) : HandshakeCache :=
  if cache.any fun i => i.messageSequence = item.messageSequence ∧ i.isClient = item.isClient then
    cache
  else cache ++ [item]

def matchesRule (r : HandshakeCachePullRule) (c : HandshakeCacheItem) : Prop :=
  c.typ = r.typ ∧ c.isClient = r.isClient ∧ c.epoch = r.epoch

instance (r : HandshakeCachePullRule) (c : HandshakeCacheItem) : Decidable (matchesRule r c) :=
  inferInstanceAs (Decidable (_ ∧ _))

/-- The loop over the cache: the item with the largest number, and of several
the first. -/
def latestFrom (r : HandshakeCachePullRule) :
    Option HandshakeCacheItem → HandshakeCache → Option HandshakeCacheItem
  | item, [] => item
  | item, c :: cs =>
      if matchesRule r c then
        match item with
        | some x => latestFrom r (if x.messageSequence < c.messageSequence then some c else item) cs
        | none => latestFrom r (some c) cs
      else latestFrom r item cs

def latest (cache : HandshakeCache) (r : HandshakeCachePullRule) : Option HandshakeCacheItem :=
  latestFrom r none cache

def pull (cache : HandshakeCache) (rules : List HandshakeCachePullRule) :
    List HandshakeCacheItem := rules.filterMap (latest cache)

def pullAndMerge (cache : HandshakeCache) (rules : List HandshakeCachePullRule) : Bytes :=
  (pull cache rules).flatMap HandshakeCacheItem.data

/-- The second loop of `full_pull_map`. -/
def mapFrom (cache : HandshakeCache) (seq : Int) :
    List HandshakeCachePullRule → Except Error (Int × List (HandshakeType × HandshakeMessage))
  | [] => .ok (seq, [])
  | r :: rules =>
      match latest cache r with
      | none => mapFrom cache seq rules
      | some i =>
          match Handshake.unmarshal.run i.data with
          | .error e => .error e
          | .ok (rawHandshake, _) =>
              if UInt16.ofInt seq ≠ rawHandshake.handshakeHeader.messageSequence then
                .error (.other "There is a gap. Some messages are not arrived.")
              else
                match mapFrom cache (seq + 1) rules with
                | .error e => .error e
                | .ok (next, out) => .ok (next, (r.typ, rawHandshake.handshakeMessage) :: out)

def fullPullMap (cache : HandshakeCache) (startSeq : Int) (rules : List HandshakeCachePullRule) :
    Except Error (Int × List (HandshakeType × HandshakeMessage)) :=
  if rules.any fun r => !r.optional && (latest cache r).isNone then
    .error (.other "Missing mandatory message")
  else mapFrom cache startSeq rules

/-- A message of the other side, put together from its fragments, enters the
cache under the number and the type in its own header. One that cannot be read
is dropped. -/
def receive (cache : HandshakeCache) (epoch : UInt16) (data : Bytes) : HandshakeCache :=
  match Handshake.unmarshal.run data with
  | .error _ => cache
  | .ok (rawHandshake, _) =>
      push cache {
        typ := rawHandshake.handshakeHeader.handshakeType
        isClient := true
        epoch := epoch
        messageSequence := rawHandshake.handshakeHeader.messageSequence
        data := data }

def receiveAll (cache : HandshakeCache) (items : List (UInt16 × Bytes)) : HandshakeCache :=
  items.foldl (fun cache item => receive cache item.1 item.2) cache

/-! ## What a rule draws -/

theorem latestFrom_eq_some {r : HandshakeCachePullRule} {item : Option HandshakeCacheItem}
    {cs : HandshakeCache} {i : HandshakeCacheItem} (h : latestFrom r item cs = some i) :
    item = some i ∨ (i ∈ cs ∧ matchesRule r i) := by
  induction cs generalizing item with
  | nil => exact .inl h
  | cons c cs ih =>
      have hlater : ∀ {item'}, latestFrom r item' cs = some i →
          item' = item ∨ (item' = some c ∧ matchesRule r c) →
          item = some i ∨ (i ∈ c :: cs ∧ matchesRule r i) := by
        intro item' h hitem'
        rcases ih h with heq | ⟨hmem, hr⟩
        · rcases hitem' with rfl | ⟨hc, hr⟩
          · exact .inl heq
          · obtain rfl : c = i := Option.some.inj (hc.symm.trans heq)
            exact .inr ⟨List.mem_cons_self, hr⟩
        · exact .inr ⟨List.mem_cons_of_mem _ hmem, hr⟩
      unfold latestFrom at h
      split at h
      · rename_i hr
        split at h
        · split at h
          · exact hlater h (.inr ⟨rfl, hr⟩)
          · exact hlater h (.inl rfl)
        · exact hlater h (.inr ⟨rfl, hr⟩)
      · exact hlater h (.inl rfl)

theorem latest_eq_some {cache : HandshakeCache} {r : HandshakeCachePullRule}
    {i : HandshakeCacheItem} (h : latest cache r = some i) : i ∈ cache ∧ matchesRule r i :=
  (latestFrom_eq_some h).resolve_left (Option.some_ne_none i ∘ Eq.symm)

/-! ## What the cache holds -/

/-- There is one item for a number of a side, and the client's messages stand
under their own numbers and types. -/
structure Kept (cache : HandshakeCache) : Prop where
  unique : ∀ i ∈ cache, ∀ j ∈ cache,
    i.messageSequence = j.messageSequence → i.isClient = j.isClient → i = j
  parsed : ∀ i ∈ cache, i.isClient = true → ∃ rawHandshake rest,
    Handshake.unmarshal.run i.data = .ok (rawHandshake, rest)
      ∧ i.messageSequence = rawHandshake.handshakeHeader.messageSequence
      ∧ i.typ = rawHandshake.handshakeHeader.handshakeType

/-- The client's message of a number, with the epoch of its record. -/
def FromClient (cache : HandshakeCache) (epoch seq : UInt16) (m : HandshakeMessage) : Prop :=
  ∃ i ∈ cache, i.isClient = true ∧ i.epoch = epoch ∧ i.messageSequence = seq ∧
    ∃ rawHandshake rest, Handshake.unmarshal.run i.data = .ok (rawHandshake, rest)
      ∧ rawHandshake.handshakeMessage = m

theorem FromClient.eq {cache : HandshakeCache} {epoch epoch' seq : UInt16}
    {m m' : HandshakeMessage} (hkept : cache.Kept) (h : cache.FromClient epoch seq m)
    (h' : cache.FromClient epoch' seq m') : m = m' := by
  obtain ⟨i, hi, hclient, -, rfl, raw, rest, hread, rfl⟩ := h
  obtain ⟨j, hj, hclient', -, hseq, raw', rest', hread', rfl⟩ := h'
  obtain rfl : j = i := hkept.unique j hj i hi hseq (hclient'.trans hclient.symm)
  obtain ⟨rfl, -⟩ : raw = raw' ∧ rest = rest' := by simpa [hread] using hread'
  rfl

theorem FromClient.mono {cache cache' : HandshakeCache} {epoch seq : UInt16}
    {m : HandshakeMessage} (hgrow : cache <+: cache') (h : cache.FromClient epoch seq m) :
    cache'.FromClient epoch seq m := by
  obtain ⟨i, hi, hrest⟩ := h
  exact ⟨i, hgrow.subset hi, hrest⟩

theorem prefix_push (cache : HandshakeCache) (item : HandshakeCacheItem) :
    cache <+: push cache item := by
  unfold push
  split
  · exact List.prefix_rfl
  · exact List.prefix_append _ _

theorem mem_push {cache : HandshakeCache} {item i : HandshakeCacheItem}
    (h : i ∈ push cache item) : i ∈ cache ∨ (i = item ∧ ∀ j ∈ cache,
      j.messageSequence = item.messageSequence → j.isClient ≠ item.isClient) := by
  unfold push at h
  split at h
  · exact .inl h
  · rename_i hany
    rcases List.mem_append.mp h with hold | hnew
    · exact .inl hold
    · refine .inr ⟨List.mem_singleton.mp hnew, fun j hj hseq hside => hany ?_⟩
      exact List.any_eq_true.mpr ⟨j, hj, decide_eq_true ⟨hseq, hside⟩⟩

theorem Kept.push {cache : HandshakeCache} {item : HandshakeCacheItem} (h : cache.Kept)
    (hitem : item.isClient = true → ∃ rawHandshake rest,
      Handshake.unmarshal.run item.data = .ok (rawHandshake, rest)
        ∧ item.messageSequence = rawHandshake.handshakeHeader.messageSequence
        ∧ item.typ = rawHandshake.handshakeHeader.handshakeType) :
    (HandshakeCache.push cache item).Kept where
  unique i hi j hj hseq hside := by
    rcases mem_push hi with hold | ⟨hi', hfresh⟩ <;> rcases mem_push hj with hold' | ⟨hj', hfresh'⟩
    · exact h.unique i hold j hold' hseq hside
    · rw [hj'] at hseq hside
      exact absurd hside (hfresh' i hold hseq)
    · rw [hi'] at hseq hside
      exact absurd hside.symm (hfresh j hold' hseq.symm)
    · rw [hi', hj']
  parsed i hi hclient := by
    rcases mem_push hi with hi | ⟨rfl, -⟩
    · exact h.parsed i hi hclient
    · exact hitem hclient

theorem prefix_receive (cache : HandshakeCache) (epoch : UInt16) (data : Bytes) :
    cache <+: receive cache epoch data := by
  unfold receive
  split
  · exact List.prefix_rfl
  · exact prefix_push cache _

theorem Kept.receive {cache : HandshakeCache} (h : cache.Kept) (epoch : UInt16) (data : Bytes) :
    (HandshakeCache.receive cache epoch data).Kept := by
  unfold HandshakeCache.receive
  split
  · exact h
  · rename_i raw rest hread
    exact h.push fun _ => ⟨raw, rest, hread, rfl, rfl⟩

theorem receiveAll_spec {cache : HandshakeCache} (h : cache.Kept) (items : List (UInt16 × Bytes)) :
    cache <+: receiveAll cache items ∧ (receiveAll cache items).Kept := by
  induction items generalizing cache with
  | nil => exact ⟨List.prefix_rfl, h⟩
  | cons item items ih =>
      obtain ⟨hgrow, hkept⟩ := ih (h.receive item.1 item.2)
      exact ⟨(prefix_receive cache _ _).trans hgrow, hkept⟩

/-! ## Maps of messages -/

theorem mapFrom_cons_eq_ok {cache : HandshakeCache} {seq next : Int} {r : HandshakeCachePullRule}
    {rules : List HandshakeCachePullRule} {msgs : List (HandshakeType × HandshakeMessage)}
    (h : mapFrom cache seq (r :: rules) = .ok (next, msgs)) :
    mapFrom cache seq rules = .ok (next, msgs) ∨ ∃ i rawHandshake rest out,
      latest cache r = some i ∧ Handshake.unmarshal.run i.data = .ok (rawHandshake, rest)
        ∧ UInt16.ofInt seq = rawHandshake.handshakeHeader.messageSequence
        ∧ mapFrom cache (seq + 1) rules = .ok (next, out)
        ∧ msgs = (r.typ, rawHandshake.handshakeMessage) :: out := by
  rw [mapFrom] at h
  split at h
  · exact .inl h
  · rename_i i hi
    split at h
    · cases h
    · rename_i raw rest hread
      split at h
      · cases h
      · rename_i hseq
        split at h
        · cases h
        · rename_i next' out hmap
          obtain ⟨rfl, rfl⟩ := Prod.mk.injEq .. |>.mp (Except.ok.inj h)
          exact .inr ⟨i, raw, rest, out, hi, hread, not_not.mp hseq, hmap, rfl⟩

theorem mapFrom_next {cache : HandshakeCache} {seq next : Int}
    {rules : List HandshakeCachePullRule} {msgs : List (HandshakeType × HandshakeMessage)}
    (h : mapFrom cache seq rules = .ok (next, msgs)) : next = seq + msgs.length := by
  induction rules generalizing seq msgs with
  | nil =>
      simp only [mapFrom, Except.ok.injEq, Prod.mk.injEq] at h
      simp [← h.1, ← h.2]
  | cons r rules ih =>
      rcases mapFrom_cons_eq_ok h with hmap | ⟨i, raw, rest, out, -, -, -, hmap, rfl⟩
      · exact ih hmap
      · rw [ih hmap, List.length_cons]
        omega

/-- Every message of the map is one of the client's, and they have the numbers
from `seq` on. -/
theorem fromClient_of_mapFrom {cache : HandshakeCache} (hkept : cache.Kept) {seq next : Int}
    {rules : List HandshakeCachePullRule} {msgs : List (HandshakeType × HandshakeMessage)}
    {epoch : UInt16} (hclient : ∀ r ∈ rules, r.isClient = true ∧ r.epoch = epoch)
    (h : mapFrom cache seq rules = .ok (next, msgs)) {t : HandshakeType} {m : HandshakeMessage}
    (hm : (t, m) ∈ msgs) :
    ∃ n, seq ≤ n ∧ n < next ∧ cache.FromClient epoch (UInt16.ofInt n) m := by
  induction rules generalizing seq msgs with
  | nil =>
      simp only [mapFrom, Except.ok.injEq, Prod.mk.injEq] at h
      simp [← h.2] at hm
  | cons r rules ih =>
      have hrules := fun r' hr' => hclient r' (List.mem_cons_of_mem r hr')
      rcases mapFrom_cons_eq_ok h with hmap | ⟨i, raw, rest, out, hi, hread, hseq, hmap, rfl⟩
      · exact ih hrules hmap hm
      · have hnext := mapFrom_next hmap
        rcases List.mem_cons.mp hm with heq | hout
        · obtain ⟨-, rfl⟩ := Prod.mk.injEq .. |>.mp heq
          obtain ⟨hmem, -, hside, hepoch⟩ := latest_eq_some hi
          obtain ⟨hr, hr'⟩ := hclient r List.mem_cons_self
          have hi' := hside.trans hr
          obtain ⟨raw', rest', hread', hnumber, -⟩ := hkept.parsed i hmem hi'
          obtain ⟨rfl, -⟩ : raw = raw' ∧ rest = rest' := by simpa [hread] using hread'
          refine ⟨seq, le_rfl, by omega, i, hmem, hi', hepoch.trans hr', ?_, raw, rest, hread, rfl⟩
          rw [hnumber, hseq]
        · obtain ⟨n, hle, hlt, hfrom⟩ := ih hrules hmap hout
          exact ⟨n, by omega, hlt, hfrom⟩

theorem mapFrom_of_fullPullMap {cache : HandshakeCache} {seq : Int}
    {rules : List HandshakeCachePullRule} {out : Int × List (HandshakeType × HandshakeMessage)}
    (h : fullPullMap cache seq rules = .ok out) : mapFrom cache seq rules = .ok out := by
  unfold fullPullMap at h
  split at h
  · cases h
  · exact h

theorem fromClient_of_fullPullMap {cache : HandshakeCache} (hkept : cache.Kept) {seq next : Int}
    {rules : List HandshakeCachePullRule} {msgs : List (HandshakeType × HandshakeMessage)}
    {epoch : UInt16} (hclient : ∀ r ∈ rules, r.isClient = true ∧ r.epoch = epoch)
    (h : fullPullMap cache seq rules = .ok (next, msgs)) {t : HandshakeType} {m : HandshakeMessage}
    (hm : msgs.lookup t = some m) :
    ∃ n, seq ≤ n ∧ n < next ∧ cache.FromClient epoch (UInt16.ofInt n) m := by
  obtain ⟨front, back, rfl, -⟩ := List.lookup_eq_some_iff.mp hm
  exact fromClient_of_mapFrom hkept hclient (mapFrom_of_fullPullMap h)
    (List.mem_append_right front List.mem_cons_self)

/-- A map of one message has the one with the number. -/
theorem fullPullMap_single {cache : HandshakeCache} (hkept : cache.Kept) {seq next : Int}
    {r : HandshakeCachePullRule} {msgs : List (HandshakeType × HandshakeMessage)}
    (hclient : r.isClient = true) (h : fullPullMap cache seq [r] = .ok (next, msgs))
    {t : HandshakeType} {m : HandshakeMessage} (hm : msgs.lookup t = some m) :
    next = seq + 1 ∧ cache.FromClient r.epoch (UInt16.ofInt seq) m := by
  have hclient' : ∀ r' ∈ [r], r'.isClient = true ∧ r'.epoch = r.epoch := by simpa using hclient
  obtain ⟨n, hle, hlt, hfrom⟩ := fromClient_of_fullPullMap hkept hclient' h hm
  have hnext : next = seq ∨ next = seq + 1 := by
    have hmap := mapFrom_of_fullPullMap h
    rcases mapFrom_cons_eq_ok hmap with hnil | ⟨i, raw, rest, out, -, -, -, hnil, -⟩
    · exact .inl (Prod.mk.inj (Except.ok.inj hnil)).1.symm
    · exact .inr (Prod.mk.inj (Except.ok.inj hnil)).1.symm
  obtain rfl : n = seq := by omega
  exact ⟨by omega, hfrom⟩

end HandshakeCache

end Dtls

end XashProxy
