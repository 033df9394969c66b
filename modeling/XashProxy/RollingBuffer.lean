import Mathlib.Data.List.Basic

/-!
# The bounded queue under the network layer

`enqueue` on a full buffer drops the oldest element. The bound is a field,
so no operation can exceed the capacity.
-/

namespace XashProxy

structure RollingBuffer (α : Type*) where
  capacity : Nat
  items : List α
  pos : 0 < capacity
  bounded : items.length ≤ capacity

namespace RollingBuffer

variable {α : Type*}

def empty (capacity : Nat) (pos : 0 < capacity) : RollingBuffer α :=
  ⟨capacity, [], pos, Nat.zero_le _⟩

def size (b : RollingBuffer α) : Nat := b.items.length

def isFull (b : RollingBuffer α) : Bool := b.items.length = b.capacity

def enqueue (b : RollingBuffer α) (a : α) : RollingBuffer α :=
  if h : b.items.length = b.capacity then
    { b with
      items := b.items.tail ++ [a]
      bounded := by
        have := b.pos
        simp only [List.length_append, List.length_tail, List.length_singleton]
        omega }
  else
    { b with
      items := b.items ++ [a]
      bounded := by
        have := b.bounded
        simp only [List.length_append, List.length_singleton]
        omega }

/-- The oldest element, if there is one. -/
def dequeue (b : RollingBuffer α) : Option (α × RollingBuffer α) :=
  match b with
  | ⟨_, [], _, _⟩ => none
  | ⟨capacity, a :: items, pos, h⟩ =>
      some (a, ⟨capacity, items, pos, Nat.le_of_succ_le h⟩)

def clear (b : RollingBuffer α) : RollingBuffer α :=
  { b with items := [], bounded := Nat.zero_le _ }

variable {b : RollingBuffer α}

@[simp] theorem capacity_enqueue (a : α) : (b.enqueue a).capacity = b.capacity := by
  unfold enqueue
  split <;> rfl

theorem isFull_iff : b.isFull = true ↔ b.size = b.capacity := by
  simp [isFull, size]

/-- The new element comes last; a full buffer has lost its first. -/
theorem items_enqueue (a : α) :
    (b.enqueue a).items = (if b.isFull then b.items.tail else b.items) ++ [a] := by
  unfold enqueue isFull
  by_cases h : b.items.length = b.capacity <;> simp [h]

theorem mem_enqueue {a x : α} (h : x ∈ (b.enqueue a).items) : x ∈ b.items ∨ x = a := by
  rw [items_enqueue, List.mem_append, List.mem_singleton] at h
  refine h.imp (fun hx => ?_) id
  split at hx
  · exact List.mem_of_mem_tail hx
  · exact hx

theorem mem_enqueue_self (a : α) : a ∈ (b.enqueue a).items := by
  simp [items_enqueue]

/-- An element is added, or replaces the oldest one. -/
theorem size_enqueue (a : α) :
    (b.enqueue a).size = if b.isFull then b.size else b.size + 1 := by
  have := b.pos
  rw [size, items_enqueue, List.length_append, List.length_singleton]
  split
  · rename_i hfull
    rw [isFull_iff] at hfull
    rw [List.length_tail]
    unfold size at hfull ⊢
    omega
  · rfl

theorem dequeue_eq_some {a : α} {b' : RollingBuffer α} (h : b.dequeue = some (a, b')) :
    b.items = a :: b'.items ∧ b'.capacity = b.capacity := by
  obtain ⟨capacity, items, pos, hb⟩ := b
  cases items with
  | nil => cases h
  | cons x xs =>
      obtain ⟨rfl, rfl⟩ := Prod.mk.inj (Option.some.inj h)
      exact ⟨rfl, rfl⟩

end RollingBuffer

end XashProxy
