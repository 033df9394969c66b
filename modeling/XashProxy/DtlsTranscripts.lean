import XashProxy.DtlsReassembly

/-!
# Transcripts

The runs of the receiver on the records of one sender. The messages that come
out are a front part of the sender's transcript, whatever the network does
(`cache_transcript`, over the runs of the reading task); and they are all of it
once every fragment has come through (`receiveAll_complete`).
-/

namespace XashProxy

namespace Dtls

open Codec Programs Lts Slices

/-- The handshakes of a connection, each with its own number. -/
structure Sender where
  packets : List HandshakePacket
  prepared : ∀ i p, packets[i]? = some p → Prepared i p
  few : packets.length < 2 ^ 16

/-- What the sender keeps of its handshakes: their bytes and their epochs. -/
def Sender.transcript (s : Sender) : List (Except Error Bytes × UInt16) :=
  s.packets.map fun p => (p.handshake.marshal, p.recordLayerHeader.epoch)

/-- The same of a message that was put together. -/
def noted (out : Bytes × UInt16) : Except Error Bytes × UInt16 := (.ok out.1, out.2)

variable {s : Sender} {mtus : Nat → Prop}

/-- A fragment of the `i`-th message, cut at one of the lengths. -/
structure Filed (s : Sender) (mtus : Nat → Prop) (i : Nat) (f : Fragment) : Prop where
  cut : ∃ p mtu content raw, s.packets[i]? = some p ∧ mtus mtu ∧ Carries mtu p content raw f

theorem Filed.lt {i : Nat} {f : Fragment} (h : Filed s mtus i f) : i < s.packets.length := by
  obtain ⟨p, -, -, -, hp, -, -⟩ := h.cut
  exact (List.getElem?_eq_some_iff.mp hp).1

theorem Filed.messageSequence {i : Nat} {f : Fragment} (h : Filed s mtus i f) :
    f.handshakeHeader.messageSequence = UInt16.ofNat i := by
  obtain ⟨p, mtu, content, raw, hp, -, hcarries⟩ := h.cut
  rw [hcarries.header, HandshakeHeader.fragment, (s.prepared i p hp).header]

theorem Carries.pieceOf {mtu : Nat} {p : HandshakePacket} {content raw : Bytes} {f : Fragment}
    (h : Carries mtu p content raw f) : f.PieceOf p.handshake.handshakeHeader content := by
  have hchunked := chunked_cut h.pos content
  refine ⟨h.header, hchunked.slice h.placed, fun hnil => ?_⟩
  have hplaced := h.placed
  rw [hnil] at hplaced
  exact hchunked.empty hplaced

/-- Numbers below `2 ^ 16` are told apart by their 16 bits. -/
theorem ofNat_inj {i j : Nat} (hi : i < 2 ^ 16) (hj : j < 2 ^ 16)
    (h : UInt16.ofNat i = UInt16.ofNat j) : i = j := by
  have hnat := congrArg UInt16.toNat h
  rwa [toNat_ofNat_of_lt hi, toNat_ofNat_of_lt hj] at hnat

/-- The receiver has put `n` messages together and waits for the next one. -/
structure Inv (s : Sender) (mtus : Nat → Prop) (fb : FragmentBuffer) (n : Nat) : Prop where
  le : n ≤ s.packets.length
  current : fb.currentMessageSequenceNumber = UInt16.ofNat n
  cache : ∀ f ∈ fb.cache, ∃ i, Filed s mtus i f

theorem Inv.filed_of_mem_entry {fb : FragmentBuffer} {n : Nat} (h : Inv s mtus fb n)
    {f : Fragment} (hf : f ∈ fb.entry fb.currentMessageSequenceNumber) : Filed s mtus n f := by
  obtain ⟨hmem, hseq⟩ := List.mem_filter.mp hf
  obtain ⟨i, hi⟩ := h.cache f hmem
  have hfew := s.few
  have hle := h.le
  have hlt := hi.lt
  rw [decide_eq_true_eq, hi.messageSequence, h.current] at hseq
  rw [ofNat_inj (by omega) (by omega) hseq] at hi
  exact hi

/-- What is put together is the next message of the sender. -/
theorem Inv.pop {fb fb' : FragmentBuffer} {n : Nat} {out : Bytes × UInt16} (h : Inv s mtus fb n)
    (hpop : fb.pop = .ok (out, fb')) :
    s.transcript[n]? = some (noted out) ∧ Inv s mtus fb' (n + 1) := by
  obtain ⟨f, frags, rawMessage, rawHeader, hentry, hmessage, hheader, rfl, rfl⟩ :=
    FragmentBuffer.pop_eq_ok hpop
  have hall : ∀ g ∈ f :: frags, Filed s mtus n g := by
    rw [← hentry]
    exact fun g hg => h.filed_of_mem_entry hg
  have hf := hall f (List.mem_cons_self ..)
  obtain ⟨p, mtu, content, raw, hp, -, hcarries⟩ := hf.cut
  have hprepared := s.prepared n p hp
  obtain ⟨hlen, hlt⟩ := hprepared.length hcarries.message
  have hpieces : ∀ g ∈ f :: frags, g.PieceOf p.handshake.handshakeHeader content := by
    intro g hg
    obtain ⟨p', mtu', content', raw', hp', -, hcarries'⟩ := (hall g hg).cut
    obtain rfl := Option.some.inj (hp.symm.trans hp')
    obtain rfl := Except.ok.inj (hcarries.message.symm.trans hcarries'.message)
    exact hcarries'.pieceOf
  have hcontent := appendMessage_sound hlen hpieces hmessage
  rw [List.drop_zero] at hcontent
  have hsame : { f.handshakeHeader with
      fragmentOffset := 0
      fragmentLength := f.handshakeHeader.length } = p.handshake.handshakeHeader := by
    rw [hcarries.header, hprepared.header]
    rfl
  have hmarshal : p.handshake.marshal = .ok (rawHeader ++ rawMessage) := by
    rw [hsame] at hheader
    rw [Handshake.marshal, hheader, hcarries.message, hcontent]
    rfl
  refine ⟨?_, Nat.succ_le_of_lt hf.lt, ?_, fun g hg => h.cache g (List.mem_of_mem_filter hg)⟩
  · rw [Sender.transcript, List.getElem?_map, hp, Option.map_some, hmarshal, ← hcarries.epoch]
    rfl
  · rw [h.current]
    apply UInt16.toNat_inj.mp
    simp [UInt16.toNat_add]

/-- Between `n` and `m` messages, `outs` came out. -/
def Between (s : Sender) (n m : Nat) (outs : List (Bytes × UInt16)) : Prop :=
  s.transcript.drop n = outs.map noted ++ s.transcript.drop m

theorem Between.trans {n m k : Nat} {outs outs' : List (Bytes × UInt16)}
    (h : Between s n m outs) (h' : Between s m k outs') : Between s n k (outs ++ outs') := by
  unfold Between at h h' ⊢
  rw [h, h', List.map_append, List.append_assoc]

theorem Inv.popAll {fb : FragmentBuffer} {n : Nat} (h : Inv s mtus fb n) :
    Inv s mtus fb.popAll.2 (n + fb.popAll.1.length)
      ∧ Between s n (n + fb.popAll.1.length) fb.popAll.1 := by
  fun_induction FragmentBuffer.popAll fb generalizing n with
  | case1 fb e hpop => exact ⟨h, rfl⟩
  | case2 fb out fb' hpop =>
      rename_i rest ih
      obtain ⟨hout, hinv⟩ := h.pop hpop
      obtain ⟨hm, hbetween⟩ := ih hinv
      have hone : Between s n (n + 1) [out] := by
        rw [Between, List.drop_eq_getElem?_toList_append, hout]
        rfl
      rw [List.length_cons, Nat.add_comm rest.1.length, ← Nat.add_assoc]
      exact ⟨hm, hone.trans hbetween⟩

/-- Nothing is left that could be taken out. -/
theorem pop_popAll (fb : FragmentBuffer) : ∃ e, fb.popAll.2.pop = .error e := by
  fun_induction FragmentBuffer.popAll fb with
  | case1 fb e hpop => exact ⟨e, hpop⟩
  | case2 fb out fb' hpop =>
      rename_i rest ih
      exact ih

/-- The fragments of later messages stay. -/
theorem Inv.mem_popAll {fb : FragmentBuffer} {n i : Nat} {f : Fragment} (h : Inv s mtus fb n)
    (hmem : f ∈ fb.cache) (hf : Filed s mtus i f) (hle : n + fb.popAll.1.length ≤ i) :
    f ∈ fb.popAll.2.cache := by
  fun_induction FragmentBuffer.popAll fb generalizing n with
  | case1 fb e hpop => exact hmem
  | case2 fb out fb' hpop =>
      rename_i rest ih
      rw [List.length_cons, Nat.add_comm rest.1.length, ← Nat.add_assoc] at hle
      have hcurrent := h.current
      have hinv := (h.pop hpop).2
      refine ih hinv ?_ hle
      obtain ⟨-, -, -, -, -, -, -, -, rfl⟩ := FragmentBuffer.pop_eq_ok hpop
      refine List.mem_filter.mpr ⟨hmem, decide_eq_true fun heq => ?_⟩
      have hfew := s.few
      have hlt := hf.lt
      rw [hf.messageSequence, hcurrent] at heq
      have hsame := ofNat_inj (by omega) (by omega) heq
      omega

/-! ## Records as they come in -/

/-- No handshake, or nothing that can be read. -/
def Foreign (raw : Bytes) : Prop :=
  ∀ header tail, RecordLayerHeader.unmarshal.run raw = .ok (header, tail) →
    header.contentType ≠ .handshake

/-- A record as the fragment buffer gets it: one with a fragment of the sender,
or a foreign one. -/
def Handed (s : Sender) (mtus : Nat → Prop) (raw : Bytes) : Prop :=
  (∃ (i : Nat) (p : HandshakePacket) (mtu : Nat) (content : Bytes) (f : Fragment),
      s.packets[i]? = some p ∧ mtus mtu ∧ Carries mtu p content raw f)
    ∨ Foreign raw

/-- A record of some packets, which may have been on the way for any time and any
number of times, or one with no handshake in it once it is opened. -/
def Incoming (c : AeadSuite) (ps : List HandshakePacket) (mtus : Nat → Prop) (pkt : Bytes) : Prop :=
  (∃ p ∈ ps, ∃ mtu, mtus mtu ∧ Sent c mtu p pkt)
    ∨ ∀ raw, ConnReader.opened c pkt = some raw → Foreign raw

theorem Sender.prepared_of_mem (s : Sender) {p : HandshakePacket} (hp : p ∈ s.packets) :
    ∃ i, s.packets[i]? = some p ∧ Prepared i p := by
  obtain ⟨i, hi⟩ := List.mem_iff_getElem?.mp hp
  exact ⟨i, hi, s.prepared i p hi⟩

theorem Incoming.handed {c : AeadSuite} {ps : List HandshakePacket} {pkt raw : Bytes}
    (h : Incoming c ps mtus pkt) (hps : ∀ p ∈ ps, p ∈ s.packets)
    (hopen : ConnReader.opened c pkt = some raw) : Handed s mtus raw := by
  rcases h with ⟨p, hp, mtu, hmtu, hsent⟩ | hforeign
  · obtain ⟨i, hi, hprepared⟩ := s.prepared_of_mem (hps p hp)
    obtain ⟨raw', content, f, hopen', hcarries⟩ := hsent.carries hprepared
    obtain rfl := Option.some.inj (hopen.symm.trans hopen')
    exact .inl ⟨i, p, mtu, content, f, hi, hmtu, hcarries⟩
  · exact .inr (hforeign raw hopen)

theorem Incoming.handed_opened {c : AeadSuite} {ps : List HandshakePacket} {pkts : List Bytes}
    (h : ∀ pkt ∈ pkts, Incoming c ps mtus pkt) (hps : ∀ p ∈ ps, p ∈ s.packets) :
    ∀ raw ∈ pkts.filterMap (ConnReader.opened c), Handed s mtus raw := by
  intro raw hraw
  obtain ⟨pkt, hpkt, hopen⟩ := List.mem_filterMap.mp hraw
  exact (h pkt hpkt).handed hps hopen

theorem Foreign.receive {raw : Bytes} (h : Foreign raw) (fb : FragmentBuffer) :
    fb.receive raw = ([], fb) := by
  have hpush : ∃ r, fb.push raw = (r, fb) ∧ r ≠ .ok true := by
    unfold FragmentBuffer.push
    split
    · exact ⟨_, rfl, by simp⟩
    · split
      · exact ⟨_, rfl, by simp⟩
      · rename_i header body hread
        rw [if_pos (h header body hread)]
        exact ⟨_, rfl, by simp⟩
  obtain ⟨r, hr, hne⟩ := hpush
  rw [FragmentBuffer.receive, hr]
  cases r with
  | error e => rfl
  | ok filed =>
      cases filed with
      | false => rfl
      | true => exact absurd rfl hne

/-- A record of the sender is refused for want of room, or filed. -/
theorem Carries.receive {i mtu : Nat} {p : HandshakePacket} {content raw : Bytes} {f : Fragment}
    (hp : Prepared i p) (h : Carries mtu p content raw f) (fb : FragmentBuffer) :
    fb.receive raw = if fb.size + raw.length ≥ FragmentBuffer.fragmentBufferMaxSize then ([], fb)
      else FragmentBuffer.popAll { fb with cache := fb.cache ++ [f] } := by
  have hpush := FragmentBuffer.push_carries hp h fb
  by_cases hroom : fb.size + raw.length ≥ FragmentBuffer.fragmentBufferMaxSize
  · rw [if_pos hroom] at hpush ⊢
    rw [FragmentBuffer.receive, hpush]
  · rw [if_neg hroom] at hpush ⊢
    rw [FragmentBuffer.receive, hpush]

theorem Inv.file {fb : FragmentBuffer} {n i : Nat} {f : Fragment} (h : Inv s mtus fb n)
    (hf : Filed s mtus i f) : Inv s mtus { fb with cache := fb.cache ++ [f] } n := by
  refine ⟨h.le, h.current, fun g hg => ?_⟩
  rcases List.mem_append.mp hg with hg | hg
  · exact h.cache g hg
  · rw [List.mem_singleton.mp hg]
    exact ⟨i, hf⟩

theorem Inv.receive {fb : FragmentBuffer} {n : Nat} {raw : Bytes} (h : Inv s mtus fb n)
    (hraw : Handed s mtus raw) :
    Inv s mtus (fb.receive raw).2 (n + (fb.receive raw).1.length)
      ∧ Between s n (n + (fb.receive raw).1.length) (fb.receive raw).1 := by
  rcases hraw with ⟨i, p, mtu, content, f, hp, hmtu, hcarries⟩ | hforeign
  · rw [hcarries.receive (s.prepared i p hp)]
    split
    · exact ⟨h, rfl⟩
    · have hf : Filed s mtus i f := ⟨p, mtu, content, raw, hp, hmtu, hcarries⟩
      exact (h.file hf).popAll
  · rw [hforeign.receive]
    exact ⟨h, rfl⟩

theorem Inv.receiveAll {fb : FragmentBuffer} {n : Nat} {pkts : List Bytes} (h : Inv s mtus fb n)
    (hpkts : ∀ raw ∈ pkts, Handed s mtus raw) :
    ∃ m, Inv s mtus (fb.receiveAll pkts).2 m ∧ Between s n m (fb.receiveAll pkts).1 := by
  induction pkts generalizing fb n with
  | nil => exact ⟨n, h, rfl⟩
  | cons raw pkts ih =>
      obtain ⟨hm, hfirst⟩ := h.receive (hpkts raw (List.mem_cons_self ..))
      obtain ⟨k, hk, hrest⟩ := ih hm fun r hr => hpkts r (List.mem_cons_of_mem _ hr)
      exact ⟨k, hk, hfirst.trans hrest⟩

theorem Inv.new (s : Sender) (mtus : Nat → Prop) : Inv s mtus .new 0 :=
  ⟨Nat.zero_le _, rfl, fun _ h => absurd h List.not_mem_nil⟩

/-- What comes out of the fragment buffer. -/
theorem transcript_prefix {raws : List Bytes} (hraws : ∀ raw ∈ raws, Handed s mtus raw) :
    (FragmentBuffer.new.receiveAll raws).1.map noted <+: s.transcript := by
  obtain ⟨m, -, hbetween⟩ := (Inv.new s mtus).receiveAll hraws
  rw [Between, List.drop_zero] at hbetween
  exact ⟨_, hbetween.symm⟩

namespace SampleTranscript

open ConnWriter.SampleTransfer

/-- The `i`-th message of the sample. -/
def packet (i epoch : UInt16) (shouldEncrypt : Bool) (m : HandshakeMessage) : HandshakePacket where
  recordLayerHeader := (RecordLayer.new protocolVersion1_2 epoch
    (.handshake (.new m))).recordLayerHeader
  shouldEncrypt := shouldEncrypt
  handshake := ⟨{ (Handshake.new m).handshakeHeader with messageSequence := i }, m⟩

/-- A message in the clear and, with the new keys, an encrypted one. -/
def sender : Sender where
  packets := [packet 0 0 false .serverHelloDone, packet 1 1 true (.finished ⟨[1, 2, 3]⟩)]
  prepared i p hp := by
    match i with
    | 0 =>
        obtain rfl := Option.some.inj hp
        exact ⟨rfl, .inr rfl, by decide, by decide, rfl⟩
    | 1 =>
        obtain rfl := Option.some.inj hp
        exact ⟨rfl, .inr rfl, by decide, by decide, rfl⟩
  few := by decide

/-- The records of a message. -/
def records (mtu : Nat) (p : HandshakePacket) : List Bytes :=
  ConnWriter.recordsOf env mtu
    ⟨⟨p.recordLayerHeader, .handshake p.handshake⟩, p.shouldEncrypt, false⟩ p.handshake .new

theorem sent_records (mtu : Nat) (p : HandshakePacket) :
    ∀ pkt ∈ records mtu p, Sent suite mtu p pkt :=
  fun _ hpkt => sent_of_mem_recordsOf (fun _ _ => ⟨suite, _, rfl, mirrors⟩) rfl hpkt

/-- The encrypted records come first, the last one before the first, and wait
for the change of the cipher. -/
def datagrams : List Bytes :=
  (sender.packets.flatMap (records 2)).reverse ++ [changeCipherSpec 1]

def events : List ConnReader.Event :=
  (datagrams.map fun raw => .datagram raw fun _ => true) ++ [.queued fun _ => true]

end SampleTranscript

namespace FragmentBuffer

theorem sum_filter_le {α : Type} (f : α → Nat) (p : α → Bool) (xs : List α) :
    ((xs.filter p).map f).sum ≤ (xs.map f).sum := by
  induction xs with
  | nil => exact Nat.le_refl 0
  | cons x xs ih =>
      rw [List.filter_cons, List.map_cons, List.sum_cons]
      split
      · rw [List.map_cons, List.sum_cons]
        omega
      · omega

theorem size_pushFrom (header : RecordLayerHeader) (cache : List Fragment) (buf : Bytes) :
    ((pushFrom header cache buf).2.map fun f => f.data.length).sum
      ≤ (cache.map fun f => f.data.length).sum + buf.length := by
  fun_induction pushFrom header cache buf with
  | case1 cache => exact Nat.le_add_right ..
  | case2 cache buf hne e hread => exact Nat.le_add_right ..
  | case3 cache buf hne handshakeHeader body hread ih =>
      obtain ⟨-, -, -, hlen⟩ := HandshakeHeader.of_unmarshal hread
      rw [List.map_append, List.sum_append, List.map_singleton, List.sum_singleton,
        List.length_take, List.length_drop] at ih
      omega

theorem size_push_le (fb : FragmentBuffer) (buf : Bytes) :
    (fb.push buf).2.size ≤ fb.size + buf.length := by
  unfold push
  split
  · exact Nat.le_add_right ..
  · split
    · exact Nat.le_add_right ..
    · rename_i header body hread
      split
      · exact Nat.le_add_right ..
      · have hle := size_pushFrom header fb.cache body
        obtain ⟨-, t, front, -, hbuf, -⟩ := RecordLayerHeader.of_unmarshal hread
        have hbody : body.length ≤ buf.length := by
          rw [hbuf, List.length_append]
          exact Nat.le_add_left ..
        split
        all_goals
          rename_i heq
          rw [heq] at hle
          exact hle.trans (Nat.add_le_add_left hbody _)

theorem size_push_lt {fb : FragmentBuffer} (h : fb.size < fragmentBufferMaxSize) (buf : Bytes) :
    (fb.push buf).2.size < fragmentBufferMaxSize := by
  by_cases hroom : fb.size + buf.length ≥ fragmentBufferMaxSize
  · rw [push, if_pos hroom]
    exact h
  · exact Nat.lt_of_le_of_lt (size_push_le fb buf) (Nat.lt_of_not_ge hroom)

theorem size_popAll_le (fb : FragmentBuffer) : fb.popAll.2.size ≤ fb.size := by
  fun_induction popAll fb with
  | case1 fb e hpop => exact Nat.le_refl _
  | case2 fb out fb' hpop =>
      rename_i rest ih
      obtain ⟨-, -, -, -, -, -, -, -, rfl⟩ := pop_eq_ok hpop
      exact ih.trans (sum_filter_le _ _ _)

theorem receive_size (fb : FragmentBuffer) (raw : Bytes) :
    (fb.receive raw).2.size ≤ (fb.push raw).2.size := by
  unfold receive
  split
  · rename_i heq
    rw [heq]
    exact size_popAll_le _
  · rename_i heq
    rw [heq]

end FragmentBuffer

/-- The messages carry the numbers from `n` on, and each is whole. -/
def Numbered (n : Nat) (outs : List (Bytes × UInt16)) : Prop :=
  ∀ (k : Nat) (out : Bytes × UInt16), outs[k]? = some out →
    ∃ (header : HandshakeHeader) (raw body : Bytes), header.marshal = .ok raw
      ∧ out.1 = raw ++ body ∧ header.messageSequence = UInt16.ofNat (n + k)
      ∧ header.fragmentOffset = 0 ∧ header.fragmentLength = header.length

theorem Numbered.append {n : Nat} {outs outs' : List (Bytes × UInt16)} (h : Numbered n outs)
    (h' : Numbered (n + outs.length) outs') : Numbered n (outs ++ outs') := by
  intro k out hout
  by_cases hlt : k < outs.length
  · rw [List.getElem?_append_left hlt] at hout
    exact h k out hout
  · rw [List.getElem?_append_right (by omega)] at hout
    obtain ⟨header, raw, body, hm, hbytes, hseq, hoff, hlen⟩ := h' _ out hout
    rw [show n + outs.length + (k - outs.length) = n + k by omega] at hseq
    exact ⟨header, raw, body, hm, hbytes, hseq, hoff, hlen⟩

namespace FragmentBuffer

theorem ofNat_succ (n : Nat) : UInt16.ofNat n + 1 = UInt16.ofNat (n + 1) := by
  apply UInt16.toNat_inj.mp
  simp [UInt16.toNat_add]

theorem pop_numbered {fb fb' : FragmentBuffer} {n : Nat} {out : Bytes × UInt16}
    (h : fb.currentMessageSequenceNumber = UInt16.ofNat n) (hpop : fb.pop = .ok (out, fb')) :
    Numbered n [out] ∧ fb'.currentMessageSequenceNumber = UInt16.ofNat (n + 1) := by
  obtain ⟨f, frags, rawMessage, rawHeader, hentry, -, hheader, rfl, rfl⟩ := pop_eq_ok hpop
  have hmem : f ∈ fb.entry fb.currentMessageSequenceNumber := by
    rw [hentry]
    exact List.mem_cons_self ..
  have hseq : f.handshakeHeader.messageSequence = fb.currentMessageSequenceNumber := by
    simpa using (List.mem_filter.mp hmem).2
  refine ⟨fun k out hout => ?_, ?_⟩
  · obtain rfl | hk := Nat.eq_zero_or_pos k
    · obtain rfl := Option.some.inj hout
      exact ⟨_, rawHeader, rawMessage, hheader, rfl, hseq.trans h, rfl, rfl⟩
    · rw [List.getElem?_eq_none (by rwa [List.length_singleton])] at hout
      cases hout
  · exact (congrArg (· + 1) h).trans (ofNat_succ n)

theorem popAll_numbered {fb : FragmentBuffer} {n : Nat}
    (h : fb.currentMessageSequenceNumber = UInt16.ofNat n) :
    Numbered n fb.popAll.1
      ∧ fb.popAll.2.currentMessageSequenceNumber = UInt16.ofNat (n + fb.popAll.1.length) := by
  fun_induction popAll fb generalizing n with
  | case1 fb e hpop => exact ⟨fun _ _ hout => (by cases hout), h⟩
  | case2 fb out fb' hpop =>
      rename_i rest ih
      obtain ⟨hone, hnext⟩ := pop_numbered h hpop
      obtain ⟨hrest, hlast⟩ := ih hnext
      refine ⟨hone.append hrest, ?_⟩
      rw [hlast, List.length_cons, Nat.add_assoc, Nat.add_comm 1]

theorem receive_numbered {fb : FragmentBuffer} {n : Nat} (raw : Bytes)
    (h : fb.currentMessageSequenceNumber = UInt16.ofNat n) :
    Numbered n (fb.receive raw).1 ∧ (fb.receive raw).2.currentMessageSequenceNumber
      = UInt16.ofNat (n + (fb.receive raw).1.length) := by
  have hsame : (fb.push raw).2.currentMessageSequenceNumber = fb.currentMessageSequenceNumber := by
    unfold push
    repeat' split
    all_goals rfl
  unfold receive
  split
  · rename_i heq
    rw [heq] at hsame
    exact popAll_numbered (hsame.trans h)
  · rename_i heq
    rw [heq] at hsame
    exact ⟨fun _ _ hout => (by cases hout), hsame.trans h⟩

end FragmentBuffer

/-- Whatever comes in, from whomever: the messages come out in the order of
their numbers, none twice and none left out, and the fragments that are kept
stay within bounds. The numbers go on from zero after `2 ^ 16` messages: the
counter is a `u16`, and a release build does not check its sum. -/
theorem receiveAll_bounded (pkts : List Bytes) :
    Numbered 0 (FragmentBuffer.new.receiveAll pkts).1
      ∧ (FragmentBuffer.new.receiveAll pkts).2.currentMessageSequenceNumber
        = UInt16.ofNat (FragmentBuffer.new.receiveAll pkts).1.length
      ∧ (FragmentBuffer.new.receiveAll pkts).2.size < FragmentBuffer.fragmentBufferMaxSize := by
  have hrun : ∀ (fb : FragmentBuffer) (n : Nat),
      fb.currentMessageSequenceNumber = UInt16.ofNat n →
      fb.size < FragmentBuffer.fragmentBufferMaxSize →
      Numbered n (fb.receiveAll pkts).1
        ∧ (fb.receiveAll pkts).2.currentMessageSequenceNumber
          = UInt16.ofNat (n + (fb.receiveAll pkts).1.length)
        ∧ (fb.receiveAll pkts).2.size < FragmentBuffer.fragmentBufferMaxSize := by
    induction pkts with
    | nil => exact fun fb n hn hsize => ⟨fun _ _ hout => (by cases hout), hn, hsize⟩
    | cons raw pkts ih =>
        intro fb n hn hsize
        obtain ⟨hfirst, hnext⟩ := fb.receive_numbered raw hn
        have hroom :=
          Nat.lt_of_le_of_lt (fb.receive_size raw) (FragmentBuffer.size_push_lt hsize raw)
        obtain ⟨hrest, hlast, hbound⟩ := ih _ _ hnext hroom
        refine ⟨hfirst.append hrest, ?_, hbound⟩
        rw [FragmentBuffer.receiveAll, List.length_append, ← Nat.add_assoc]
        exact hlast
  have hnew := hrun .new 0 rfl (by decide)
  rwa [Nat.zero_add] at hnew

/-! ## Nothing is missing in the end -/

/-- What has come in of later messages is kept, and nothing waits to be taken
out. -/
structure Live (s : Sender) (mtu : Nat) (fb : FragmentBuffer) (n : Nat) (seen : List Bytes) :
    Prop where
  inv : Inv s (· = mtu) fb n
  idle : ∃ e, fb.pop = .error e
  kept : ∀ raw ∈ seen, ∀ i p content f, s.packets[i]? = some p → Carries mtu p content raw f →
    n ≤ i → f ∈ fb.cache
  size : fb.size ≤ (seen.map List.length).sum

variable {mtu : Nat}

/-- A foreign record carries nothing. -/
theorem Foreign.not_carries {raw : Bytes} (h : Foreign raw) {i : Nat} {p : HandshakePacket}
    {content : Bytes} {f : Fragment} (hp : Prepared i p) (hcarries : Carries mtu p content raw f) :
    False := by
  obtain ⟨rawRecord, rawHandshake, hrecord, -, rfl⟩ := hcarries.bytes
  exact h _ _ (RecordLayerHeader.reads_unmarshal (hcarries.versioned hp) hrecord _)
    (hcarries.contentType hp)

theorem Live.receive {fb : FragmentBuffer} {n : Nat} {seen : List Bytes} {raw : Bytes}
    (h : Live s mtu fb n seen) (hraw : Handed s (· = mtu) raw)
    (hroom : ((seen ++ [raw]).map List.length).sum < FragmentBuffer.fragmentBufferMaxSize) :
    Live s mtu (fb.receive raw).2 (n + (fb.receive raw).1.length) (seen ++ [raw]) := by
  have hsum : ((seen ++ [raw]).map List.length).sum = (seen.map List.length).sum + raw.length := by
    rw [List.map_append, List.sum_append, List.map_singleton, List.sum_singleton]
  have hsize := h.size
  refine ⟨(h.inv.receive hraw).1, ?_, ?_, ?_⟩
  · rcases hraw with ⟨i, p, mtu', content, f, hp, rfl, hcarries⟩ | hforeign
    · rw [hcarries.receive (s.prepared i p hp), if_neg (by omega)]
      exact pop_popAll _
    · rw [hforeign.receive]
      exact h.idle
  · intro r hr i p content f hp hcarries hle
    have hprepared := s.prepared i p hp
    have hf : Filed s (· = mtu) i f := ⟨p, mtu, content, r, hp, rfl, hcarries⟩
    rcases hraw with ⟨j, q, mtu', content', g, hq, rfl, hcarries'⟩ | hforeign
    · have hprepared' := s.prepared j q hq
      rcases List.mem_append.mp hr with hr | hr
      · have hkept := h.kept r hr i p content f hp hcarries
          ((Nat.le_add_right ..).trans hle)
        rw [hcarries'.receive hprepared', if_neg (by omega)] at hle ⊢
        exact (h.inv.file ⟨q, mtu', content', raw, hq, rfl, hcarries'⟩).mem_popAll
          (List.mem_append_left _ hkept) hf hle
      · rw [List.mem_singleton.mp hr] at hcarries
        rw [hcarries.receive hprepared, if_neg (by omega)] at hle ⊢
        exact (h.inv.file hf).mem_popAll (List.mem_append_right _ (List.mem_singleton_self f))
          hf hle
    · rw [hforeign.receive] at hle ⊢
      rcases List.mem_append.mp hr with hr | hr
      · exact h.kept r hr i p content f hp hcarries hle
      · rw [List.mem_singleton.mp hr] at hcarries
        exact (hforeign.not_carries hprepared hcarries).elim
  · have hreceive := (fb.receive_size raw).trans (fb.size_push_le raw)
    omega

theorem Live.receiveAll {fb : FragmentBuffer} {n : Nat} {seen pkts : List Bytes}
    (h : Live s mtu fb n seen) (hpkts : ∀ raw ∈ pkts, Handed s (· = mtu) raw)
    (hroom : ((seen ++ pkts).map List.length).sum < FragmentBuffer.fragmentBufferMaxSize) :
    ∃ m, Live s mtu (fb.receiveAll pkts).2 m (seen ++ pkts)
      ∧ Between s n m (fb.receiveAll pkts).1 := by
  induction pkts generalizing fb n seen with
  | nil => exact ⟨n, by rwa [List.append_nil], rfl⟩
  | cons raw pkts ih =>
      have hraw := hpkts raw (List.mem_cons_self ..)
      have hsplit : seen ++ raw :: pkts = seen ++ [raw] ++ pkts := by
        rw [List.append_assoc, List.singleton_append]
      rw [hsplit] at hroom ⊢
      have hfront : ((seen ++ [raw]).map List.length).sum
          < FragmentBuffer.fragmentBufferMaxSize := by
        rw [List.map_append, List.sum_append] at hroom
        omega
      obtain ⟨m, hm, hrest⟩ := ih (h.receive hraw hfront)
        (fun r hr => hpkts r (List.mem_cons_of_mem _ hr)) hroom
      exact ⟨m, hm, (h.inv.receive hraw).2.trans hrest⟩

/-- Every fragment of the packet has come to the fragment buffer. -/
def Arrived (mtu : Nat) (p : HandshakePacket) (raws : List Bytes) : Prop :=
  ∃ frags, fragmentHandshake mtu p.handshake = .ok frags
    ∧ ∀ frag ∈ frags, ∃ raw ∈ raws, (∃ content f, Carries mtu p content raw f)
      ∧ raw.drop recordLayerHeaderSize = frag

/-- A fragment that came through is kept until its message is put together. -/
theorem Live.mem_entry {fb : FragmentBuffer} {n : Nat} {pkts : List Bytes} {p : HandshakePacket}
    (h : Live s mtu fb n pkts) (hp : s.packets[n]? = some p) (harrived : Arrived mtu p pkts)
    {content : Bytes} (hm : p.handshake.handshakeMessage.marshal = .ok content) {o : Nat}
    {chunk : Bytes} (hplaced : (o, chunk) ∈ placed 0 (cut mtu content)) :
    ∃ f ∈ fb.entry fb.currentMessageSequenceNumber, f.handshakeHeader.fragmentOffset = o := by
  obtain ⟨frags, hfrag, hall⟩ := harrived
  obtain ⟨hpos, content', hm', hfrags⟩ := fragmentHandshake_eq_ok hfrag
  obtain rfl := Except.ok.inj (hm.symm.trans hm')
  have hprepared := s.prepared n p hp
  obtain ⟨hlen, hlt⟩ := hprepared.length hm
  have hflat := (chunked_cut hpos content).flatten
  have hle := ((chunked_cut hpos content).slice hplaced).le
  obtain ⟨raw, hraw⟩ :
      ∃ raw, (p.handshake.handshakeHeader.fragment o chunk.length).marshal = .ok raw :=
    ⟨_, HandshakeHeader.marshal_eq_ok.mpr
      ⟨⟨hlen.trans_lt hlt, (by omega : o < 2 ^ 24), (by omega : chunk.length < 2 ^ 24)⟩, rfl⟩⟩
  have hmem := (mem_fragmentsFrom hfrags (by rw [hflat]; omega) _).mpr
    ⟨o, chunk, raw, hplaced, hraw, rfl⟩
  obtain ⟨r, hr, ⟨content', f, hcarries⟩, hdrop⟩ := hall _ hmem
  obtain ⟨rawRecord, rawHandshake, hrecord, hheader, rfl⟩ := hcarries.bytes
  rw [List.drop_left' (RecordLayerHeader.length_marshal hrecord)] at hdrop
  have hread := HandshakeHeader.reads_unmarshal hheader f.data
  rw [hdrop, HandshakeHeader.reads_unmarshal hraw chunk] at hread
  have hsame := (Prod.mk.injEq .. |>.mp (Except.ok.inj hread)).1
  have hf : Filed s (· = mtu) n f := ⟨p, mtu, content', _, hp, rfl, hcarries⟩
  refine ⟨f, List.mem_filter.mpr ⟨h.kept _ hr n p content' f hp hcarries (Nat.le_refl n), ?_⟩, ?_⟩
  · rw [hf.messageSequence, h.inv.current]
    exact decide_eq_true rfl
  · exact (congrArg HandshakeHeader.fragmentOffset hsame).symm

theorem Live.incomplete {fb : FragmentBuffer} {n : Nat} {pkts : List Bytes} {p : HandshakePacket}
    (h : Live s mtu fb n pkts) (hp : s.packets[n]? = some p) : ¬ Arrived mtu p pkts := by
  intro harrived
  obtain ⟨frags, hfrag, -⟩ := id harrived
  obtain ⟨hpos, content, hm, -⟩ := fragmentHandshake_eq_ok hfrag
  have hprepared := s.prepared n p hp
  obtain ⟨hlen, hlt⟩ := hprepared.length hm
  have hchunked := chunked_cut hpos content
  have hentry : ∀ f ∈ fb.entry fb.currentMessageSequenceNumber,
      ∃ raw, Carries mtu p content raw f := by
    intro f hf
    obtain ⟨p', mtu', content', raw, hp', rfl, hcarries⟩ := (h.inv.filed_of_mem_entry hf).cut
    obtain rfl := Option.some.inj (hp.symm.trans hp')
    obtain rfl := Except.ok.inj (hm.symm.trans hcarries.message)
    exact ⟨raw, hcarries⟩
  have hpieces : AllPieces p.handshake.handshakeHeader (cut mtu content)
      (fb.entry fb.currentMessageSequenceNumber) := by
    refine ⟨fun f hf => ?_, fun f hf => ?_, fun o chunk hmem =>
      h.mem_entry hp harrived hm hmem⟩
    · obtain ⟨raw, hcarries⟩ := hentry f hf
      exact hcarries.header
    · obtain ⟨raw, hcarries⟩ := hentry f hf
      exact hcarries.placed
  obtain ⟨chunk, chunks, hcut⟩ := List.exists_cons_of_ne_nil hchunked.some
  have hfirst : (0, chunk) ∈ placed 0 (cut mtu content) := by
    rw [hcut]
    exact List.mem_cons_self ..
  have hsome := appendMessage_complete hlen hchunked hpieces hfirst
  obtain ⟨rawMessage, hmessage⟩ := Option.isSome_iff_exists.mp hsome
  obtain ⟨e, hidle⟩ := h.idle
  unfold FragmentBuffer.pop at hidle
  split at hidle
  · rename_i hnil
    obtain ⟨f, hf, -⟩ := hpieces.all 0 chunk hfirst
    rw [hnil] at hf
    cases hf
  · rename_i f fs hcons
    rw [← hcons, hmessage] at hidle
    dsimp only at hidle
    obtain ⟨raw, hcarries⟩ := hentry f (by rw [hcons]; exact List.mem_cons_self ..)
    have hlength : f.handshakeHeader.length < 2 ^ 24 := by
      rw [hcarries.header, HandshakeHeader.fragment, hlen]
      exact hlt
    have hheader : HandshakeHeader.marshal { f.handshakeHeader with
        fragmentOffset := 0
        fragmentLength := f.handshakeHeader.length } = .ok _ :=
      HandshakeHeader.marshal_eq_ok.mpr ⟨⟨hlength, (by decide : 0 < 2 ^ 24), hlength⟩, rfl⟩
    rw [hheader] at hidle
    cases hidle

/-- Once everything has come to the fragment buffer, everything has come out. -/
theorem transcript_eq {raws : List Bytes} (hraws : ∀ raw ∈ raws, Handed s (· = mtu) raw)
    (hroom : (raws.map List.length).sum < FragmentBuffer.fragmentBufferMaxSize)
    (harrived : ∀ p ∈ s.packets, Arrived mtu p raws) :
    (FragmentBuffer.new.receiveAll raws).1.map noted = s.transcript := by
  have hnew : Live s mtu .new 0 [] :=
    ⟨Inv.new s _, ⟨.errEmptyFragment, rfl⟩, fun _ h => absurd h List.not_mem_nil, Nat.le_refl 0⟩
  obtain ⟨m, hm, hbetween⟩ := hnew.receiveAll hraws (by rwa [List.nil_append])
  rw [List.nil_append] at hm
  have hall : s.packets.length ≤ m := by
    by_contra hlt
    have hp := List.getElem?_eq_getElem (Nat.lt_of_not_le hlt)
    exact hm.incomplete hp (harrived _ (List.getElem_mem _))
  rw [Between, List.drop_zero, List.drop_of_length_le, List.append_nil] at hbetween
  · exact hbetween.symm
  · rw [Sender.transcript, List.length_map]
    exact hall

/-- Every fragment of the packet came through, in whatever transmission. -/
def Delivered (c : AeadSuite) (mtu : Nat) (p : HandshakePacket) (pkts : List Bytes) : Prop :=
  ∃ frags, fragmentHandshake mtu p.handshake = .ok frags
    ∧ ∀ frag ∈ frags, ∃ pkt ∈ pkts, Sent c mtu p pkt
      ∧ ∃ raw, ConnReader.opened c pkt = some raw ∧ raw.drop recordLayerHeaderSize = frag

theorem Delivered.arrived {c : AeadSuite} {p : HandshakePacket} {pkts : List Bytes} {i : Nat}
    (hp : Prepared i p) (h : Delivered c mtu p pkts) :
    Arrived mtu p (pkts.filterMap (ConnReader.opened c)) := by
  obtain ⟨frags, hfrag, hall⟩ := h
  refine ⟨frags, hfrag, fun frag hmem => ?_⟩
  obtain ⟨pkt, hpkt, hsent, raw, hopen, hdrop⟩ := hall frag hmem
  obtain ⟨raw', content, f, hopen', hcarries⟩ := hsent.carries hp
  obtain rfl := Option.some.inj (hopen.symm.trans hopen')
  exact ⟨raw, List.mem_filterMap.mpr ⟨pkt, hpkt, hopen⟩, ⟨content, f, hcarries⟩, hdrop⟩

/-- Once every fragment of every message has come through to the fragment
buffer, cut at one length and in whatever order, the receiver has the whole
transcript, provided that all the records together fit the buffer. -/
theorem receiveAll_complete (s : Sender) {c : AeadSuite} {mtu : Nat} {pkts : List Bytes}
    (hpkts : ∀ pkt ∈ pkts, Incoming c s.packets (· = mtu) pkt)
    (hroom : ((pkts.filterMap (ConnReader.opened c)).map List.length).sum
      < FragmentBuffer.fragmentBufferMaxSize)
    (hdelivered : ∀ p ∈ s.packets, Delivered c mtu p pkts) :
    (FragmentBuffer.new.receiveAll (pkts.filterMap (ConnReader.opened c))).1.map noted
      = s.transcript := by
  refine transcript_eq (Incoming.handed_opened hpkts fun _ hp => hp) hroom fun p hp => ?_
  obtain ⟨i, -, hprepared⟩ := s.prepared_of_mem hp
  exact (hdelivered p hp).arrived hprepared

/-- The records of the sample, the last one first. -/
theorem receiveAll_complete_sample :
    (FragmentBuffer.new.receiveAll ((SampleTranscript.sender.packets.flatMap
        (SampleTranscript.records 2)).reverse.filterMap
          (ConnReader.opened ConnWriter.SampleTransfer.suite))).1.map noted
      = SampleTranscript.sender.transcript := by
  have hsent : ∀ p ∈ SampleTranscript.sender.packets, ∀ pkt ∈ SampleTranscript.records 2 p,
      pkt ∈ (SampleTranscript.sender.packets.flatMap (SampleTranscript.records 2)).reverse :=
    fun p hp pkt hpkt => List.mem_reverse.mpr (List.mem_flatMap.mpr ⟨p, hp, hpkt⟩)
  refine @receiveAll_complete _ ConnWriter.SampleTransfer.suite 2 _ (fun pkt hpkt => ?_)
    (by decide +kernel) fun p hp => ?_
  · obtain ⟨p, hp, hpkt⟩ := List.mem_flatMap.mp (List.mem_reverse.mp hpkt)
    exact .inl ⟨p, hp, 2, rfl, SampleTranscript.sent_records 2 p pkt hpkt⟩
  · have hfrags : ∀ p ∈ SampleTranscript.sender.packets, fragmentHandshake 2 p.handshake
        = .ok ((SampleTranscript.records 2 p).filterMap fun pkt =>
          (ConnReader.opened ConnWriter.SampleTransfer.suite pkt).map
            (List.drop recordLayerHeaderSize)) := by decide +kernel
    refine ⟨_, hfrags p hp, fun frag hfrag => ?_⟩
    obtain ⟨pkt, hpkt, heq⟩ := List.mem_filterMap.mp hfrag
    obtain ⟨raw, hopen, hdrop⟩ := Option.map_eq_some_iff.mp heq
    exact ⟨pkt, hsent p hp pkt hpkt, SampleTranscript.sent_records 2 p pkt hpkt, raw, hopen, hdrop⟩

end Dtls

end XashProxy
