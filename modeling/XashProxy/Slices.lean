import Mathlib.Algebra.Order.Ring.Nat
import Mathlib.Tactic.Ring

/-!
# Slices

A sequence cut into chunks, and each chunk with the place where it starts. A
slice says of itself where it stands in the whole; so slices that end where the
next one starts make up the whole, in whatever order they are found.
-/

namespace XashProxy

namespace Slices

variable {α : Type}

/-- `c` stands at `o` in `whole`. -/
def Slice (whole : List α) (o : Nat) (c : List α) : Prop :=
  ∃ front rest, whole = front ++ c ++ rest ∧ front.length = o

theorem Slice.le {whole : List α} {o : Nat} {c : List α} (h : Slice whole o c) :
    o + c.length ≤ whole.length := by
  obtain ⟨front, rest, rfl, rfl⟩ := h
  rw [List.length_append, List.length_append]
  exact Nat.le_add_right ..

/-- A slice goes in front of what stands behind it. -/
theorem Slice.append_drop {whole : List α} {o : Nat} {c : List α} (h : Slice whole o c) :
    c ++ whole.drop (o + c.length) = whole.drop o := by
  obtain ⟨front, rest, rfl, rfl⟩ := h
  rw [← List.length_append, List.drop_left, List.append_assoc, List.drop_left]

theorem Slice.eq_drop {whole : List α} {o : Nat} {c : List α} (h : Slice whole o c)
    (hend : o + c.length = whole.length) : c = whole.drop o := by
  rw [← h.append_drop, hend, List.drop_length, List.append_nil]

/-- Chunks with the place where each of them starts. -/
def placed (offset : Nat) : List (List α) → List (Nat × List α)
  | [] => []
  | c :: cs => (offset, c) :: placed (offset + c.length) cs

theorem mem_of_mem_placed {offset o : Nat} {cs : List (List α)} {c : List α}
    (h : (o, c) ∈ placed offset cs) : c ∈ cs := by
  induction cs generalizing offset with
  | nil => cases h
  | cons d ds ih =>
      rcases List.mem_cons.mp h with heq | h
      · rw [(Prod.mk.injEq .. |>.mp heq).2]
        exact List.mem_cons_self ..
      · exact List.mem_cons_of_mem _ (ih h)

theorem slice_of_mem_placed {front : List α} {cs : List (List α)} {o : Nat} {c : List α}
    (h : (o, c) ∈ placed front.length cs) : Slice (front ++ cs.flatten) o c := by
  induction cs generalizing front with
  | nil => cases h
  | cons d ds ih =>
      rcases List.mem_cons.mp h with heq | h
      · obtain ⟨rfl, rfl⟩ := Prod.mk.injEq .. |>.mp heq
        exact ⟨front, ds.flatten, by rw [List.flatten_cons, List.append_assoc], rfl⟩
      · rw [← List.length_append] at h
        have hslice := ih h
        rwa [List.append_assoc, ← List.flatten_cons] at hslice

/-- Behind a chunk stands the next one, or the end. -/
theorem next_of_mem_placed {offset o : Nat} {cs : List (List α)} {c : List α}
    (h : (o, c) ∈ placed offset cs) :
    o + c.length = offset + cs.flatten.length ∨ ∃ d, (o + c.length, d) ∈ placed offset cs := by
  induction cs generalizing offset with
  | nil => cases h
  | cons e es ih =>
      rcases List.mem_cons.mp h with heq | h
      · obtain ⟨rfl, rfl⟩ := Prod.mk.injEq .. |>.mp heq
        cases es with
        | nil => exact .inl (by simp)
        | cons d ds => exact .inr ⟨d, by simp [placed]⟩
      · rcases ih h with hend | ⟨d, hd⟩
        · refine .inl ?_
          rw [hend, List.flatten_cons, List.length_append, Nat.add_assoc]
        · exact .inr ⟨d, List.mem_cons_of_mem _ hd⟩

/-- The blocks of `n` from every `n`-th place. -/
theorem flatten_blocks (xs : List α) (start count n : Nat) :
    ((List.range' start count n).map fun i => (xs.drop i).take n).flatten
      = (xs.drop start).take (count * n) := by
  induction count generalizing start with
  | zero => simp
  | succ count ih =>
      rw [List.range'_succ, List.map_cons, List.flatten_cons, ih, Nat.succ_mul,
        Nat.add_comm (count * n) n, List.take_add, List.drop_drop]

theorem le_ceil_mul {len n : Nat} (h : 0 < n) : len ≤ (len + n - 1) / n * n := by
  have hmod := Nat.div_add_mod (len + n - 1) n
  have hlt := Nat.mod_lt (len + n - 1) h
  rw [Nat.mul_comm] at hmod
  omega

theorem flatten_blocks_all (xs : List α) {n : Nat} (h : 0 < n) :
    ((List.range' 0 ((xs.length + n - 1) / n) n).map fun i => (xs.drop i).take n).flatten = xs := by
  rw [flatten_blocks, List.drop_zero, List.take_of_length_le (le_ceil_mul h)]

theorem block_ne_nil {xs : List α} {n : Nat} (h : 0 < n) {c : List α}
    (hc : c ∈ (List.range' 0 ((xs.length + n - 1) / n) n).map fun i => (xs.drop i).take n) :
    c ≠ [] := by
  obtain ⟨i, hi, rfl⟩ := List.mem_map.mp hc
  obtain ⟨j, hj, rfl⟩ := List.mem_range'.mp hi
  have hle := Nat.div_mul_le_self (xs.length + n - 1) n
  have hmul : (j + 1) * n ≤ (xs.length + n - 1) / n * n := Nat.mul_le_mul_right n hj
  rw [Nat.succ_mul, Nat.mul_comm j] at hmul
  refine List.ne_nil_of_length_pos ?_
  rw [List.length_take, List.length_drop]
  omega

end Slices

end XashProxy
