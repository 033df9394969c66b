import XashProxy.DtlsWriter
import XashProxy.DtlsReader

/-!
# Reassembly

What the records of a sender are made of, how the receiver gets at it, and how
it files and puts together what it gets. A record of the last flight is
encrypted; the reader opens it before the fragment buffer sees it, and the
length in its header stays that of the encrypted record.
-/

namespace XashProxy

namespace Dtls

open Codec Programs Slices

/-! ## What the sender puts on the wire -/

/-- The header of a fragment. -/
def HandshakeHeader.fragment (header : HandshakeHeader) (offset length : Nat) : HandshakeHeader :=
  { header with
    fragmentOffset := offset
    fragmentLength := length }

theorem mem_fragmentsFrom {header : HandshakeHeader} {offset : Nat} {chunks frags : List Bytes}
    (h : fragmentsFrom header offset chunks = .ok frags)
    (hlt : offset + chunks.flatten.length < 2 ^ 32) (frag : Bytes) :
    frag ∈ frags ↔ ∃ o chunk raw, (o, chunk) ∈ placed offset chunks
      ∧ (header.fragment o chunk.length).marshal = .ok raw ∧ frag = raw ++ chunk := by
  induction chunks generalizing offset frags with
  | nil =>
      obtain rfl := Except.ok.inj h
      simp [placed]
  | cons c cs ih =>
      rw [List.flatten_cons, List.length_append] at hlt
      have hmod : offset % 2 ^ 32 = offset ∧ c.length % 2 ^ 32 = c.length :=
        ⟨Nat.mod_eq_of_lt (by omega), Nat.mod_eq_of_lt (by omega)⟩
      rw [fragmentsFrom, hmod.1, hmod.2] at h
      change (do
        let raw ← (header.fragment offset c.length).marshal
        let rest ← fragmentsFrom header (offset + c.length) cs
        return (raw ++ c) :: rest) = _ at h
      cases hraw : (header.fragment offset c.length).marshal with
      | error e =>
          rw [hraw] at h
          cases h
      | ok raw =>
          cases hrest : fragmentsFrom header (offset + c.length) cs with
          | error e =>
              rw [hraw, hrest] at h
              cases h
          | ok rest =>
              rw [hraw, hrest] at h
              obtain rfl := Except.ok.inj h
              rw [List.mem_cons, ih hrest (by omega)]
              constructor
              · rintro (rfl | ⟨o, chunk, raw', hmem, hm, rfl⟩)
                · exact ⟨offset, c, raw, List.mem_cons_self .., hraw, rfl⟩
                · exact ⟨o, chunk, raw', List.mem_cons_of_mem _ hmem, hm, rfl⟩
              · rintro ⟨o, chunk, raw', hmem, hm, rfl⟩
                rcases List.mem_cons.mp hmem with heq | hmem
                · obtain ⟨rfl, rfl⟩ := Prod.mk.injEq .. |>.mp heq
                  rw [hraw] at hm
                  exact .inl (by rw [Except.ok.inj hm])
                · exact .inr ⟨o, chunk, raw', hmem, hm, rfl⟩

/-- The chunks into which a message is cut. -/
def cut (mtu : Nat) (content : Bytes) : List Bytes :=
  let blocks := (List.range' 0 ((content.length + mtu - 1) / mtu) mtu).map
    fun i => (content.drop i).take mtu
  if blocks = [] then [[]] else blocks

/-- Chunks of a message: none is empty, unless the message is. -/
structure Chunked (content : Bytes) (chunks : List Bytes) : Prop where
  flatten : chunks.flatten = content
  nonempty : chunks = [[]] ∨ ∀ chunk ∈ chunks, chunk ≠ []
  some : chunks ≠ []

theorem chunked_cut {mtu : Nat} (hpos : 0 < mtu) (content : Bytes) :
    Chunked content (cut mtu content) := by
  have hflat := flatten_blocks_all content hpos
  unfold cut
  dsimp only
  split
  · rename_i hnil
    rw [hnil] at hflat
    exact ⟨hflat, .inl rfl, by simp⟩
  · rename_i hnil
    exact ⟨hflat, .inr fun c hc => block_ne_nil hpos hc, hnil⟩

theorem Chunked.slice {content : Bytes} {chunks : List Bytes} (h : Chunked content chunks)
    {o : Nat} {chunk : Bytes} (hmem : (o, chunk) ∈ placed 0 chunks) : Slice content o chunk := by
  have hslice := @slice_of_mem_placed _ [] _ _ _ hmem
  rwa [List.nil_append, h.flatten] at hslice

theorem Chunked.empty {content : Bytes} {chunks : List Bytes} (h : Chunked content chunks)
    {o : Nat} (hmem : (o, []) ∈ placed 0 chunks) : content = [] := by
  rcases h.nonempty with rfl | hne
  · exact h.flatten.symm
  · exact absurd rfl (hne [] (mem_of_mem_placed hmem))

theorem fragmentHandshake_eq_ok {mtu : Nat} {h : Handshake} {frags : List Bytes}
    (hf : fragmentHandshake mtu h = .ok frags) :
    0 < mtu ∧ ∃ content, h.handshakeMessage.marshal = .ok content
      ∧ fragmentsFrom h.handshakeHeader 0 (cut mtu content) = .ok frags := by
  unfold fragmentHandshake at hf
  cases hm : h.handshakeMessage.marshal with
  | error e =>
      rw [hm] at hf
      cases hf
  | ok content =>
      rw [hm] at hf
      change (do
        let contentFragments ← splitBytes content mtu
        fragmentsFrom h.handshakeHeader 0
          (if contentFragments = [] then [[]] else contentFragments)) = _ at hf
      unfold splitBytes at hf
      split at hf
      · cases hf
      · rename_i hmtu
        exact ⟨Nat.pos_of_ne_zero hmtu, content, rfl, hf⟩

/-- A record of a fragment, whatever its number. -/
theorem ConnWriter.mem_processFragments {env : Env} {p : Packet} {frags raws : List Bytes}
    {w w' : ConnWriter} (h : exec (processFragments env p frags) w = (.ok raws, w')) {raw : Bytes}
    (hmem : raw ∈ raws) :
    ∃ frag ∈ frags, ∃ header front, (∃ n, header = { p.record.recordLayerHeader with
          contentLen := UInt16.ofNat frag.length
          sequenceNumber := n })
      ∧ header.marshal = .ok front
      ∧ encryptRecord env p.shouldEncrypt header (front ++ frag) = .ok raw := by
  induction frags generalizing w raws with
  | nil =>
      obtain ⟨rfl, -⟩ := exec_pure_eq_ok.mp h
      cases hmem
  | cons f fs ih =>
      obtain ⟨first, w₁, hmake, h⟩ := exec_bind_eq_ok.mp h
      obtain ⟨rest, w₂, hrest, h⟩ := exec_bind_eq_ok.mp h
      obtain ⟨rfl, rfl⟩ := exec_pure_eq_ok.mp h
      rcases List.mem_cons.mp hmem with rfl | hmem
      · rcases exec_makeRecord hmake with ⟨-, e, he⟩ | ⟨o, ho, hfirst, -⟩
        · cases he
        obtain rfl := Except.ok.inj hfirst
        have hplain := ho.plain
        cases hfront : o.header.marshal with
        | error e =>
            rw [hfront] at hplain
            cases hplain
        | ok front =>
            rw [hfront] at hplain
            refine ⟨f, List.mem_cons_self, o.header, front, ⟨_, ho.header⟩, hfront, ?_⟩
            rw [Except.ok.inj hplain]
            exact ho.raw
      · obtain ⟨frag, hfrag, hrecord⟩ := ih hrest hmem
        exact ⟨frag, List.mem_cons_of_mem _ hfrag, hrecord⟩

/-- The `i`-th handshake of a connection as `prepare` leaves it. What goes out
under an epoch of its own keys is encrypted. -/
structure Prepared (i : Nat) (p : HandshakePacket) : Prop where
  contentType : p.recordLayerHeader.contentType = .handshake
  versioned : p.recordLayerHeader.Versioned
  encrypts : p.shouldEncrypt = true ↔ p.recordLayerHeader.epoch ≠ 0
  size : p.handshake.handshakeMessage.size < 2 ^ 24
  header : p.handshake.handshakeHeader
    = { (Handshake.new p.handshake.handshakeMessage).handshakeHeader with
        messageSequence := UInt16.ofNat i }

/-- The writing task has the keys that the reader has. -/
def Keyed (c : AeadSuite) (env : Env) (epoch : UInt16) : Prop :=
  ∀ n, ∃ writer nonce, env epoch n = (.ready writer, nonce) ∧ Mirrors c writer

/-- One of the records that the writing task makes of a packet, in one of its
transmissions. -/
def Sent (c : AeadSuite) (mtu : Nat) (p : HandshakePacket) (pkt : Bytes) : Prop :=
  ∃ env q w raws w', (p.shouldEncrypt = true → Keyed c env p.recordLayerHeader.epoch)
    ∧ q.handshakePacket? = some p
    ∧ exec (ConnWriter.processHandshakePacket env mtu q p.handshake) w = (.ok raws, w')
    ∧ pkt ∈ raws

/-- What a record of the sender has in it once it is opened. -/
structure Carries (mtu : Nat) (p : HandshakePacket) (content : Bytes) (raw : Bytes) (f : Fragment) :
    Prop where
  pos : 0 < mtu
  message : p.handshake.handshakeMessage.marshal = .ok content
  record : ∃ len n, f.recordLayerHeader = { p.recordLayerHeader with
    contentLen := len
    sequenceNumber := n }
  header : f.handshakeHeader
    = p.handshake.handshakeHeader.fragment f.handshakeHeader.fragmentOffset f.data.length
  placed : (f.handshakeHeader.fragmentOffset, f.data) ∈ placed 0 (cut mtu content)
  bytes : ∃ rawRecord rawHandshake, f.recordLayerHeader.marshal = .ok rawRecord
    ∧ f.handshakeHeader.marshal = .ok rawHandshake ∧ raw = rawRecord ++ (rawHandshake ++ f.data)

theorem Prepared.length {i : Nat} {p : HandshakePacket} (h : Prepared i p) {content : Bytes}
    (hm : p.handshake.handshakeMessage.marshal = .ok content) :
    p.handshake.handshakeHeader.length = content.length ∧ content.length < 2 ^ 24 := by
  have hsize := HandshakeMessage.length_marshal hm
  have hlt := h.size
  rw [h.header, hsize]
  exact ⟨Nat.mod_eq_of_lt (by omega), hlt⟩

/-- The reader gets at what was encrypted; only the length is another. -/
theorem opened_encryptRecord {c : AeadSuite} {env : Env} {shouldEncrypt : Bool}
    {header : RecordLayerHeader} {front payload pkt : Bytes} (hversioned : header.Versioned)
    (htype : header.contentType ≠ .changeCipherSpec)
    (hencrypts : shouldEncrypt = true ↔ header.epoch ≠ 0)
    (hkeys : shouldEncrypt = true → Keyed c env header.epoch) (hm : header.marshal = .ok front)
    (henc : ConnWriter.encryptRecord env shouldEncrypt header (front ++ payload) = .ok pkt) :
    ∃ len front', RecordLayerHeader.marshal { header with contentLen := len } = .ok front'
      ∧ ConnReader.opened c pkt = some (front' ++ payload) := by
  unfold ConnWriter.encryptRecord at henc
  split at henc
  · rename_i htrue
    obtain ⟨writer, nonce, henv, hmirrors⟩ := hkeys htrue header.sequenceNumber
    rw [henv] at henc
    dsimp only at henc
    obtain ⟨front', body, hm', rfl, -, hdecrypt⟩ :=
      AeadSuite.decrypt_encrypt hmirrors hversioned htype hm henc
    refine ⟨_, front', hm', ?_⟩
    have hversioned' : RecordLayerHeader.Versioned
        { header with contentLen := UInt16.ofNat body.length } := hversioned
    rw [ConnReader.opened, RecordLayerHeader.reads_unmarshal hversioned' hm']
    dsimp only
    rw [if_neg (hencrypts.mp htrue), hdecrypt]
    rfl
  · rename_i hfalse
    obtain rfl := Except.ok.inj henc
    refine ⟨header.contentLen, front, hm, ?_⟩
    rw [ConnReader.opened, RecordLayerHeader.reads_unmarshal hversioned hm]
    exact if_pos (not_not.mp fun hepoch => hfalse (hencrypts.mpr hepoch))

/-- A record of the sender carries a fragment of its message. -/
theorem Sent.carries {c : AeadSuite} {mtu i : Nat} {p : HandshakePacket} {pkt : Bytes}
    (hp : Prepared i p) (h : Sent c mtu p pkt) :
    ∃ raw content f, ConnReader.opened c pkt = some raw ∧ Carries mtu p content raw f := by
  obtain ⟨env, q, w, raws, w', hkeys, hq, hexec, hmem⟩ := h
  obtain ⟨hheader, hencrypt⟩ : q.record.recordLayerHeader = p.recordLayerHeader
      ∧ q.shouldEncrypt = p.shouldEncrypt := by
    unfold Packet.handshakePacket? at hq
    split at hq
    · obtain rfl := Option.some.inj hq
      exact ⟨rfl, rfl⟩
    · cases hq
  rw [ConnWriter.processHandshakePacket, exec_orThrow_bind] at hexec
  split at hexec
  · rename_i frags hfrag
    obtain ⟨frag, hfragmem, header, front, ⟨n, hh⟩, hfront, henc⟩ :=
      ConnWriter.mem_processFragments hexec hmem
    rw [hheader] at hh
    rw [hencrypt] at henc
    obtain ⟨hpos, content, hm, hparts⟩ := fragmentHandshake_eq_ok hfrag
    obtain ⟨hlen, hlt⟩ := hp.length hm
    have hflat := (chunked_cut hpos content).flatten
    obtain ⟨o, chunk, rawHandshake, hplaced, hhandshake, rfl⟩ :=
      (mem_fragmentsFrom hparts (by rw [hflat]; omega) frag).mp hfragmem
    have hversioned : header.Versioned := by
      rw [hh]
      exact hp.versioned
    have htype : header.contentType ≠ .changeCipherSpec := by
      rw [hh, hp.contentType]
      simp
    have hepoch : header.epoch = p.recordLayerHeader.epoch := by rw [hh]
    obtain ⟨len, front', hfront', hopen⟩ := opened_encryptRecord hversioned htype
      (hepoch ▸ hp.encrypts) (hepoch ▸ hkeys) hfront henc
    exact ⟨_, content, ⟨{ header with contentLen := len },
      p.handshake.handshakeHeader.fragment o chunk.length, chunk⟩, hopen, hpos, hm,
      ⟨len, n, by rw [hh]⟩, rfl, hplaced, front', rawHandshake, hfront', hhandshake, rfl⟩
  · cases hexec

/-- The records that the writing task makes of a handshake, if it can. -/
def ConnWriter.recordsOf (env : Env) (mtu : Nat) (q : Packet) (h : Handshake) (w : ConnWriter) :
    List Bytes :=
  match exec (processHandshakePacket env mtu q h) w with
  | (.ok raws, _) => raws
  | (.error _, _) => []

theorem sent_of_mem_recordsOf {c : AeadSuite} {env : Env} {mtu : Nat} {p : HandshakePacket}
    {q : Packet} {w : ConnWriter} {pkt : Bytes}
    (hkeys : p.shouldEncrypt = true → Keyed c env p.recordLayerHeader.epoch)
    (hq : q.handshakePacket? = some p)
    (hmem : pkt ∈ ConnWriter.recordsOf env mtu q p.handshake w) : Sent c mtu p pkt := by
  unfold ConnWriter.recordsOf at hmem
  split at hmem
  · rename_i raws w' hexec
    exact ⟨env, q, w, raws, w', hkeys, hq, hexec, hmem⟩
  · cases hmem

section
variable {mtu i : Nat} {p : HandshakePacket} {content raw : Bytes} {f : Fragment}

theorem Carries.versioned (hp : Prepared i p) (h : Carries mtu p content raw f) :
    f.recordLayerHeader.Versioned := by
  obtain ⟨len, n, hn⟩ := h.record
  rw [hn]
  exact hp.versioned

theorem Carries.contentType (hp : Prepared i p) (h : Carries mtu p content raw f) :
    f.recordLayerHeader.contentType = .handshake := by
  obtain ⟨len, n, hn⟩ := h.record
  rw [hn]
  exact hp.contentType

theorem Carries.epoch (h : Carries mtu p content raw f) :
    f.recordLayerHeader.epoch = p.recordLayerHeader.epoch := by
  obtain ⟨len, n, hn⟩ := h.record
  rw [hn]

end

/-! ## What the receiver files -/

namespace FragmentBuffer

theorem push_carries {mtu i : Nat} {p : HandshakePacket} {content raw : Bytes} {f : Fragment}
    (hp : Prepared i p) (h : Carries mtu p content raw f) (fb : FragmentBuffer) :
    fb.push raw = if fb.size + raw.length ≥ fragmentBufferMaxSize then
        (.error (.errFragmentBufferOverflow (fb.size + raw.length) fragmentBufferMaxSize), fb)
      else (.ok true, { fb with cache := fb.cache ++ [f] }) := by
  obtain ⟨rawRecord, rawHandshake, hrecord, hheader, rfl⟩ := h.bytes
  have htype : ¬ f.recordLayerHeader.contentType ≠ .handshake := not_not.mpr (h.contentType hp)
  have hread :=
    RecordLayerHeader.reads_unmarshal (h.versioned hp) hrecord (rawHandshake ++ f.data)
  have hne : ¬ rawHandshake ++ f.data = [] := by
    intro hnil
    have hlen := HandshakeHeader.length_marshal hheader
    rw [(List.append_eq_nil_iff.mp hnil).1] at hlen
    cases hlen
  have hlength : f.data.length ≤ f.handshakeHeader.length := by
    have hlen := (hp.length h.message).1
    have hle := ((chunked_cut h.pos content).slice h.placed).le
    rw [h.header]
    change _ ≤ p.handshake.handshakeHeader.length
    omega
  have hloop : pushFrom f.recordLayerHeader fb.cache (rawHandshake ++ f.data)
      = (.ok (), fb.cache ++ [f]) := by
    rw [pushFrom, if_neg hne]
    split
    · rename_i e heq
      rw [HandshakeHeader.reads_unmarshal hheader] at heq
      cases heq
    · rename_i hh body heq
      rw [HandshakeHeader.reads_unmarshal hheader] at heq
      obtain ⟨rfl, rfl⟩ := Prod.mk.injEq .. |>.mp (Except.ok.inj heq)
      rw [List.take_of_length_le hlength, List.drop_of_length_le hlength, pushFrom, if_pos rfl]
  rw [push, hread]
  dsimp only
  rw [if_neg htype, hloop]

end FragmentBuffer

/-! ## What is put together -/

/-- A fragment of the message `content` that has the header `header`. -/
structure Fragment.PieceOf (f : Fragment) (header : HandshakeHeader) (content : Bytes) : Prop where
  header : f.handshakeHeader
    = header.fragment f.handshakeHeader.fragmentOffset f.data.length
  slice : Slice content f.handshakeHeader.fragmentOffset f.data
  empty : f.data = [] → content = []

/-- Whatever is put together from pieces of a message is the rest of it. -/
theorem appendMessage_sound {header : HandshakeHeader} {content : Bytes} {frags : List Fragment}
    (hlen : header.length = content.length) (hfrags : ∀ f ∈ frags, f.PieceOf header content)
    {target : Nat} {out : Bytes} (h : appendMessage frags target = some out) :
    out = content.drop target := by
  fun_induction appendMessage frags target generalizing out with
  | case1 => cases h
  | case2 target f hfind fragmentEnd hmore =>
      rename_i ih
      have hpiece := hfrags f (List.mem_of_find?_eq_some hfind)
      have hat : f.handshakeHeader.fragmentOffset = target := by
        simpa using List.find?_some hfind
      have hend : fragmentEnd = target + f.data.length := by
        rw [← hat]
        exact congrArg (_ + ·) (congrArg HandshakeHeader.fragmentLength hpiece.header)
      obtain ⟨rest, hrest, rfl⟩ := Option.map_eq_some_iff.mp h
      rw [ih hrest, hend, ← hat]
      exact hpiece.slice.append_drop
  | case3 target f hfind fragmentEnd =>
      rename_i hmore
      obtain rfl := Option.some.inj h
      have hpiece := hfrags f (List.mem_of_find?_eq_some hfind)
      have hat : f.handshakeHeader.fragmentOffset = target := by
        simpa using List.find?_some hfind
      have hfrag : f.handshakeHeader.fragmentLength = f.data.length :=
        congrArg HandshakeHeader.fragmentLength hpiece.header
      have hlast : f.handshakeHeader.length = content.length :=
        (congrArg HandshakeHeader.length hpiece.header).trans hlen
      rw [← hat]
      rcases not_and_or.mp hmore with hend | hzero
      · refine hpiece.slice.eq_drop ?_
        rw [← hlast, ← hfrag]
        exact not_not.mp hend
      · have hnil : f.data = [] := List.length_eq_zero_iff.mp (by omega)
        rw [hnil, hpiece.empty hnil, List.drop_nil]

/-- The fragments are those of one cut of the message, and all of them are
there. -/
structure AllPieces (header : HandshakeHeader) (chunks : List Bytes) (frags : List Fragment) :
    Prop where
  piece : ∀ f ∈ frags, f.handshakeHeader
    = header.fragment f.handshakeHeader.fragmentOffset f.data.length
  placed : ∀ f ∈ frags, (f.handshakeHeader.fragmentOffset, f.data) ∈ placed 0 chunks
  all : ∀ o chunk, (o, chunk) ∈ Slices.placed 0 chunks →
    ∃ f ∈ frags, f.handshakeHeader.fragmentOffset = o

theorem appendMessage_complete {header : HandshakeHeader} {content : Bytes}
    {chunks : List Bytes} {frags : List Fragment} (hlen : header.length = content.length)
    (hchunked : Chunked content chunks) (h : AllPieces header chunks frags)
    {target : Nat} {chunk : Bytes} (hmem : (target, chunk) ∈ placed 0 chunks) :
    (appendMessage frags target).isSome := by
  fun_induction appendMessage frags target generalizing chunk with
  | case1 target hfind =>
      obtain ⟨f, hf, hat⟩ := h.all target chunk hmem
      have hnot := List.find?_eq_none.mp hfind f hf
      simp [hat] at hnot
  | case2 target f hfind fragmentEnd hmore =>
      rename_i ih
      have hf := List.mem_of_find?_eq_some hfind
      have hpiece := h.piece f hf
      have hfrag : f.handshakeHeader.fragmentLength = f.data.length :=
        congrArg HandshakeHeader.fragmentLength hpiece
      have hlast : f.handshakeHeader.length = content.length :=
        (congrArg HandshakeHeader.length hpiece).trans hlen
      rw [Option.isSome_map]
      rcases next_of_mem_placed (h.placed f hf) with hend | ⟨d, hd⟩
      · refine absurd ?_ hmore.1
        rw [hlast, ← hchunked.flatten]
        change f.handshakeHeader.fragmentOffset + f.handshakeHeader.fragmentLength = _
        omega
      · rw [← hfrag] at hd
        exact ih hd
  | case3 => rfl

end Dtls

end XashProxy
