import Mathlib.Algebra.Order.Ring.Nat
import Mathlib.Data.List.Induction
import Mathlib.Tactic.Ring

/-!
# Byte readers

A binary format is a reader, which takes bytes from the front of a buffer, and
a writer, which gives the bytes of a value. `Reads r bs a` is the law that ties
them: whatever follows `bs`, `r` takes exactly these and returns `a`. The laws
compose along `>>=`, so the round trip of a record is the list of those of its
fields. A format that reads to the end of its buffer has the weaker law
`ReadsAll`.

The equations `run_*_eq_ok` go the other way: from what a reader returned to
what it was given.
-/

namespace XashProxy

namespace Codec

abbrev Bytes := List UInt8

variable {ε α β : Type}

/-! ## Big-endian numbers -/

/-- The low `w` bytes of `n`, the most significant first. -/
def be : Nat → Nat → Bytes
  | 0, _ => []
  | w + 1, n => be w (n / 256) ++ [UInt8.ofNat n]

def ofBE (bs : Bytes) : Nat := bs.foldl (fun n b => 256 * n + b.toNat) 0

@[simp] theorem length_be (w n : Nat) : (be w n).length = w := by
  induction w generalizing n with
  | zero => rfl
  | succ w ih => rw [be, List.length_append, ih, List.length_singleton]

@[simp] theorem ofBE_nil : ofBE [] = 0 := rfl

theorem ofBE_concat (bs : Bytes) (b : UInt8) : ofBE (bs ++ [b]) = 256 * ofBE bs + b.toNat := by
  rw [ofBE, List.foldl_append]
  rfl

theorem ofBE_be (w n : Nat) : ofBE (be w n) = n % 256 ^ w := by
  induction w generalizing n with
  | zero => rw [be, ofBE_nil, pow_zero, Nat.mod_one]
  | succ w ih =>
      have hlow : (UInt8.ofNat n).toNat = n % 256 := UInt8.toNat_ofNat'
      rw [be, ofBE_concat, ih, hlow, pow_succ', Nat.mod_mul, Nat.add_comm]

theorem ofBE_be_of_lt {w n : Nat} (h : n < 256 ^ w) : ofBE (be w n) = n := by
  rw [ofBE_be, Nat.mod_eq_of_lt h]

theorem be_inj {w n m : Nat} (hn : n < 256 ^ w) (hm : m < 256 ^ w) (h : be w n = be w m) :
    n = m := by
  have hof := congrArg ofBE h
  rwa [ofBE_be_of_lt hn, ofBE_be_of_lt hm] at hof

theorem be_ofBE (bs : Bytes) : be bs.length (ofBE bs) = bs := by
  induction bs using List.reverseRecOn with
  | nil => rfl
  | append_singleton bs b ih =>
      have hb := b.toNat_lt
      rw [List.length_append, List.length_singleton, be, ofBE_concat]
      congr 1
      · rw [show (256 * ofBE bs + b.toNat) / 256 = ofBE bs by omega]
        exact ih
      · congr 1
        apply UInt8.toNat_inj.mp
        rw [UInt8.toNat_ofNat']
        omega

theorem ofBE_lt (bs : Bytes) : ofBE bs < 256 ^ bs.length := by
  have h := ofBE_be bs.length (ofBE bs)
  rw [be_ofBE] at h
  rw [h]
  exact Nat.mod_lt _ (pow_pos (by decide) _)

/-! ## Readers -/

/-- A reader takes bytes from the front of its buffer, or fails. -/
abbrev Reader (ε α : Type) := StateT Bytes (Except ε) α

/-- The next `n` bytes; `short` when there are not as many. -/
def exact (short : ε) (n : Nat) : Reader ε Bytes := fun bs =>
  if n ≤ bs.length then .ok (bs.take n, bs.drop n) else .error short

/-- The next `n` bytes, with the proof that there are `n`: an array. -/
def sized (short : ε) (n : Nat) : Reader ε { bs : Bytes // bs.length = n } := fun bs =>
  if h : n ≤ bs.length then .ok (⟨bs.take n, List.length_take_of_le h⟩, bs.drop n)
  else .error short

/-- A big-endian number of `w` bytes. -/
def uint (short : ε) (w : Nat) : Reader ε Nat := do
  let bs ← exact short w
  return ofBE bs

/-- All that is left. -/
def toEnd : Reader ε Bytes := fun bs => .ok (bs, [])

/-- The buffer is refused. -/
def refuse (e : ε) : Reader ε α := fun _ => .error e

/-- `n` values, one after the other. -/
def counted (r : Reader ε α) : Nat → Reader ε (List α)
  | 0 => return []
  | n + 1 => do
      let a ← r
      let as ← counted r n
      return a :: as

theorem run_pure_eq_ok {a b : α} {bs tail : Bytes} :
    (pure a : Reader ε α).run bs = .ok (b, tail) ↔ a = b ∧ bs = tail := by
  change Except.ok (a, bs) = Except.ok (b, tail) ↔ _
  rw [Except.ok.injEq, Prod.mk.injEq]

theorem run_bind_eq_ok {r : Reader ε α} {f : α → Reader ε β} {bs tail : Bytes} {b : β} :
    (r >>= f).run bs = .ok (b, tail)
      ↔ ∃ a mid, r.run bs = .ok (a, mid) ∧ (f a).run mid = .ok (b, tail) := by
  have hbind : (r >>= f).run bs = (r.run bs).bind fun p => (f p.1).run p.2 := rfl
  rw [hbind]
  cases h : r.run bs with
  | error e => simp [Except.bind]
  | ok p =>
      obtain ⟨a, mid⟩ := p
      simp [Except.bind]

theorem run_exact_eq_ok {short : ε} {n : Nat} {bs tail front : Bytes} :
    (exact short n).run bs = .ok (front, tail) ↔ front.length = n ∧ bs = front ++ tail := by
  have hrun : (exact short n).run bs
      = if n ≤ bs.length then .ok (bs.take n, bs.drop n) else .error short := rfl
  rw [hrun]
  constructor
  · intro h
    split at h
    · rename_i hle
      rw [Except.ok.injEq, Prod.mk.injEq] at h
      obtain ⟨rfl, rfl⟩ := h
      exact ⟨List.length_take_of_le hle, (List.take_append_drop n bs).symm⟩
    · cases h
  · rintro ⟨rfl, rfl⟩
    rw [if_pos (by simp), List.take_left, List.drop_left]

theorem run_uint_eq_ok {short : ε} {w n : Nat} {bs tail : Bytes} :
    (uint short w).run bs = .ok (n, tail) ↔ n < 256 ^ w ∧ bs = be w n ++ tail := by
  rw [uint, run_bind_eq_ok]
  constructor
  · rintro ⟨front, mid, hfront, hpure⟩
    obtain ⟨rfl, rfl⟩ := run_exact_eq_ok.mp hfront
    obtain ⟨rfl, rfl⟩ := run_pure_eq_ok.mp hpure
    exact ⟨ofBE_lt front, by rw [be_ofBE]⟩
  · rintro ⟨hlt, rfl⟩
    refine ⟨be w n, tail, run_exact_eq_ok.mpr ⟨length_be w n, rfl⟩, ?_⟩
    rw [ofBE_be_of_lt hlt]
    rfl

/-! ## Laws -/

/-- The reader takes exactly `bs` and returns `a`, whatever follows. -/
def Reads (r : Reader ε α) (bs : Bytes) (a : α) : Prop :=
  ∀ tail, r.run (bs ++ tail) = .ok (a, tail)

/-- Given `bs` and nothing more, the reader takes it all and returns `a`. -/
def ReadsAll (r : Reader ε α) (bs : Bytes) (a : α) : Prop := r.run bs = .ok (a, [])

theorem Reads.readsAll {r : Reader ε α} {bs : Bytes} {a : α} (h : Reads r bs a) :
    ReadsAll r bs a := by
  have hnil := h []
  rwa [List.append_nil] at hnil

theorem reads_pure (a : α) : Reads (pure a : Reader ε α) [] a := fun _ => rfl

theorem Reads.bind {r : Reader ε α} {f : α → Reader ε β} {bs cs : Bytes} {a : α} {b : β}
    (hr : Reads r bs a) (hf : Reads (f a) cs b) : Reads (r >>= f) (bs ++ cs) b := by
  intro tail
  rw [List.append_assoc]
  exact run_bind_eq_ok.mpr ⟨a, cs ++ tail, hr _, hf tail⟩

theorem Reads.bindAll {r : Reader ε α} {f : α → Reader ε β} {bs cs : Bytes} {a : α} {b : β}
    (hr : Reads r bs a) (hf : ReadsAll (f a) cs b) : ReadsAll (r >>= f) (bs ++ cs) b :=
  run_bind_eq_ok.mpr ⟨a, cs, hr _, hf⟩

/-- Nothing is read after the last field of a record. -/
theorem Reads.last {r : Reader ε α} {f : α → Reader ε β} {bs : Bytes} {a : α} {b : β}
    (hr : Reads r bs a) (hf : Reads (f a) [] b) : Reads (r >>= f) bs b := by
  have hbind := hr.bind hf
  rwa [List.append_nil] at hbind

theorem Reads.map {r : Reader ε α} {f : α → β} {bs : Bytes} {a : α} (hr : Reads r bs a) :
    Reads (do let x ← r; return f x) bs (f a) := hr.last (reads_pure (f a))

theorem ReadsAll.last {r : Reader ε α} {f : α → Reader ε β} {bs : Bytes} {a : α} {b : β}
    (hr : ReadsAll r bs a) (hf : ReadsAll (f a) [] b) : ReadsAll (r >>= f) bs b :=
  run_bind_eq_ok.mpr ⟨a, [], hr, hf⟩

theorem ReadsAll.map {r : Reader ε α} {f : α → β} {bs : Bytes} {a : α}
    (hr : ReadsAll r bs a) : ReadsAll (do let x ← r; return f x) bs (f a) := hr.last rfl

theorem reads_exact (short : ε) {n : Nat} {bs : Bytes} (h : bs.length = n) :
    Reads (exact short n) bs bs := fun _ => run_exact_eq_ok.mpr ⟨h, rfl⟩

theorem reads_sized (short : ε) {n : Nat} (bs : { bs : Bytes // bs.length = n }) :
    Reads (sized short n) bs.val bs := by
  obtain ⟨bs, rfl⟩ := bs
  intro tail
  have hrun : (sized short bs.length).run (bs ++ tail)
      = if h : bs.length ≤ (bs ++ tail).length then
          .ok (⟨(bs ++ tail).take bs.length, List.length_take_of_le h⟩,
            (bs ++ tail).drop bs.length)
        else .error short := rfl
  rw [hrun, dif_pos (by simp)]
  simp

theorem reads_uint (short : ε) {w n : Nat} (h : n < 256 ^ w) :
    Reads (uint short w) (be w n) n := fun _ => run_uint_eq_ok.mpr ⟨h, rfl⟩

theorem readsAll_toEnd (bs : Bytes) : ReadsAll (toEnd : Reader ε Bytes) bs bs := rfl

/-- The reader returns `a`, and it does not matter what it leaves. -/
def Gives (r : Reader ε α) (bs : Bytes) (a : α) : Prop := ∃ tail, r.run bs = .ok (a, tail)

theorem ReadsAll.gives {r : Reader ε α} {bs : Bytes} {a : α} (h : ReadsAll r bs a) :
    Gives r bs a := ⟨[], h⟩

theorem Reads.gives {r : Reader ε α} {bs : Bytes} {a : α} (h : Reads r bs a) (tail : Bytes) :
    Gives r (bs ++ tail) a := ⟨tail, h tail⟩

theorem Reads.bindGives {r : Reader ε α} {f : α → Reader ε β} {bs cs : Bytes} {a : α} {b : β}
    (hr : Reads r bs a) (hf : Gives (f a) cs b) : Gives (r >>= f) (bs ++ cs) b := by
  obtain ⟨tail, htail⟩ := hf
  exact ⟨tail, run_bind_eq_ok.mpr ⟨a, cs, hr _, htail⟩⟩

theorem Gives.map {r : Reader ε α} {f : α → β} {bs : Bytes} {a : α} (hr : Gives r bs a) :
    Gives (do let x ← r; return f x) bs (f a) := by
  obtain ⟨tail, htail⟩ := hr
  exact ⟨tail, run_bind_eq_ok.mpr ⟨a, tail, htail, rfl⟩⟩

/-- The writer gives as many bytes as it says, and the reader makes `a` of
them. -/
def Encodes (write : Except ε Bytes) (size : Nat) (r : Reader ε α) (a : α) : Prop :=
  ∃ bs, write = .ok bs ∧ bs.length = size ∧ Gives r bs a

theorem Encodes.map {write : Except ε Bytes} {size : Nat} {r : Reader ε α} {a : α} {f : α → β}
    (h : Encodes write size r a) : Encodes write size (do let x ← r; return f x) (f a) := by
  obtain ⟨bs, hwrite, hsize, hgives⟩ := h
  exact ⟨bs, hwrite, hsize, hgives.map⟩

/-- The reader fails on `bs`, whatever follows. -/
def Fails (r : Reader ε α) (bs : Bytes) (e : ε) : Prop :=
  ∀ tail, r.run (bs ++ tail) = .error e

theorem fails_refuse (e : ε) : Fails (refuse e : Reader ε α) [] e := fun _ => rfl

theorem Fails.bind {r : Reader ε α} {f : α → Reader ε β} {bs : Bytes} {e : ε}
    (h : Fails r bs e) : Fails (r >>= f) bs e := by
  intro tail
  have hbind : (r >>= f).run (bs ++ tail)
      = (r.run (bs ++ tail)).bind fun p => (f p.1).run p.2 := rfl
  rw [hbind, h tail]
  rfl

/-- A record fails at a field behind those that are read. -/
theorem Reads.bindFails {r : Reader ε α} {f : α → Reader ε β} {bs cs : Bytes} {a : α} {e : ε}
    (hr : Reads r bs a) (hf : Fails (f a) cs e) : Fails (r >>= f) (bs ++ cs) e := by
  intro tail
  have hbind : (r >>= f).run (bs ++ cs ++ tail)
      = (r.run (bs ++ cs ++ tail)).bind fun p => (f p.1).run p.2 := rfl
  rw [hbind, List.append_assoc, hr]
  exact hf tail

theorem Reads.lastFails {r : Reader ε α} {f : α → Reader ε β} {bs : Bytes} {a : α} {e : ε}
    (hr : Reads r bs a) (hf : Fails (f a) [] e) : Fails (r >>= f) bs e := by
  have hbind := hr.bindFails hf
  rwa [List.append_nil] at hbind

/-- A run of values is read back if each of them is. -/
theorem reads_counted {r : Reader ε α} {write : α → Bytes} {xs : List α}
    (h : ∀ x ∈ xs, Reads r (write x) x) :
    Reads (counted r xs.length) (xs.flatMap write) xs := by
  induction xs with
  | nil => exact reads_pure []
  | cons x xs ih =>
      have hrest := ih fun y hy => h y (List.mem_cons_of_mem _ hy)
      rw [List.flatMap_cons, List.length_cons]
      exact (h x (List.mem_cons_self ..)).bind (hrest.map (f := fun as => x :: as))

end Codec

end XashProxy
