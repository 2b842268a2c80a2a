import Mathlib

/-!
# Mutable objects by identity

A heap hands out identities in order and gives each its current value. An identity that has not been
handed out reads as the default value.
-/

structure Heap (α : Type) where
  next : Nat
  get : Nat → α

namespace Heap
variable {α : Type}

def empty [Inhabited α] : Heap α := ⟨0, fun _ => default⟩

/-- A new object; its identity is `h.next`. -/
def alloc (a : α) (h : Heap α) : Heap α := ⟨h.next + 1, fun i => if i = h.next then a else h.get i⟩

def modify (i : Nat) (f : α → α) (h : Heap α) : Heap α := ⟨h.next, fun j => if j = i then f (h.get j) else h.get j⟩

variable {h : Heap α} {a : α} {f : α → α} {i j : Nat}

@[simp] theorem next_alloc : (h.alloc a).next = h.next + 1 := rfl

@[simp] theorem get_alloc_self : (h.alloc a).get h.next = a := if_pos rfl

theorem get_alloc_of_ne (hi : i ≠ h.next) : (h.alloc a).get i = h.get i := if_neg hi

theorem get_alloc_of_lt (hi : i < h.next) : (h.alloc a).get i = h.get i := get_alloc_of_ne (Nat.ne_of_lt hi)

@[simp] theorem next_modify : (h.modify i f).next = h.next := rfl

@[simp] theorem get_modify_self : (h.modify i f).get i = f (h.get i) := if_pos rfl

theorem get_modify_of_ne (hj : j ≠ i) : (h.modify i f).get j = h.get j := if_neg hj

theorem get_modify : (h.modify i f).get j = if j = i then f (h.get j) else h.get j := rfl

end Heap
