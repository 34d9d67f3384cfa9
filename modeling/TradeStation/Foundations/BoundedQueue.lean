import Mathlib.Data.List.Basic
import Mathlib.Data.Nat.Notation

/-!
# Bounded queues

A queue that remembers what was put into it and what was taken out. What was taken is the beginning
of what was put (`taken_prefix`), and what is left never exceeds the bound.

The last section is about what goes through such a queue: data, and behind the data something that is
none. `eq_of_map_append` says that whoever has found the first of that has had all the data.
-/

namespace TradeStation.Foundations

/-- A queue of at most `bound` items, with its history. -/
structure BoundedQueue (α : Type*) (bound : ℕ) where
  items : List α
  accepted : List α
  taken : List α
  conserved : accepted = taken ++ items
  bounded : items.length ≤ bound

namespace BoundedQueue

variable {α : Type*} {bound : ℕ} (q : BoundedQueue α bound)

/-- Nothing in it, nothing put, nothing taken. -/
def empty : BoundedQueue α bound where
  items := []
  accepted := []
  taken := []
  conserved := rfl
  bounded := Nat.zero_le _

/-- Put an item in where there is room. -/
def put (a : α) (h : q.items.length < bound) : BoundedQueue α bound where
  items := q.items ++ [a]
  accepted := q.accepted ++ [a]
  taken := q.taken
  conserved := by rw [q.conserved, List.append_assoc]
  bounded := by
    rw [List.length_append]
    exact h

/-- Take the first item out. -/
def get {a : α} {rest : List α} (h : q.items = a :: rest) : BoundedQueue α bound where
  items := rest
  accepted := q.accepted
  taken := q.taken ++ [a]
  conserved := by rw [q.conserved, h, List.append_assoc, List.singleton_append]
  bounded := by
    have hbound := q.bounded
    rw [h, List.length_cons] at hbound
    omega

section
variable {q} {a : α} {rest : List α}

@[simp] theorem put_items (h : q.items.length < bound) : (q.put a h).items = q.items ++ [a] := rfl

@[simp] theorem put_accepted (h : q.items.length < bound) :
    (q.put a h).accepted = q.accepted ++ [a] := rfl

@[simp] theorem put_taken (h : q.items.length < bound) : (q.put a h).taken = q.taken := rfl

@[simp] theorem get_items (h : q.items = a :: rest) : (q.get h).items = rest := rfl

@[simp] theorem get_accepted (h : q.items = a :: rest) : (q.get h).accepted = q.accepted := rfl

@[simp] theorem get_taken (h : q.items = a :: rest) : (q.get h).taken = q.taken ++ [a] := rfl

/-- Where there is something to take, it comes next. -/
theorem accepted_eq (h : q.items = a :: rest) : q.accepted = q.taken ++ a :: rest := by
  rw [q.conserved, h]

end

/-- **What was taken is the beginning of what was put.** -/
theorem taken_prefix : q.taken <+: q.accepted := ⟨q.items, q.conserved.symm⟩

end BoundedQueue

/-! ## Data and what comes behind it -/

section
variable {α β : Type*} {f : α → β} {xs zs : List α} {ys tail : List β}

/-- What is found among the data comes next in it. -/
theorem prefix_of_map_append (hf : f.Injective) (htail : ∀ z, f z ∉ tail) {x : α}
    (h : xs.map f ++ f x :: ys = zs.map f ++ tail) : xs ++ [x] <+: zs := by
  induction xs generalizing zs with
  | nil =>
    cases zs with
    | nil =>
      have htail' : f x :: ys = tail := h
      exact absurd (htail' ▸ List.mem_cons_self) (htail x)
    | cons z zs =>
      obtain rfl := hf (List.cons.inj h).1
      exact ⟨zs, rfl⟩
  | cons y xs ih =>
    cases zs with
    | nil =>
      have htail' : f y :: (xs.map f ++ f x :: ys) = tail := h
      exact absurd (htail' ▸ List.mem_cons_self) (htail y)
    | cons z zs =>
      obtain ⟨hy, hrest⟩ := List.cons.inj h
      have hprefix := ih hrest
      rw [hf hy]
      exact (List.prefix_cons_inj z).2 hprefix

/-- **Where something is found that is no data, there has been all of it.** -/
theorem eq_of_map_append (hf : f.Injective) (htail : ∀ z, f z ∉ tail) {b : β} (hb : ∀ z, f z ≠ b)
    (h : xs.map f ++ b :: ys = zs.map f ++ tail) : xs = zs ∧ b :: ys = tail := by
  induction xs generalizing zs with
  | nil =>
    cases zs with
    | nil => exact ⟨rfl, h⟩
    | cons z zs => exact absurd (List.cons.inj h).1.symm (hb z)
  | cons y xs ih =>
    cases zs with
    | nil =>
      have htail' : f y :: (xs.map f ++ b :: ys) = tail := h
      exact absurd (htail' ▸ List.mem_cons_self) (htail y)
    | cons z zs =>
      obtain ⟨hy, hrest⟩ := List.cons.inj h
      obtain ⟨hxs, hys⟩ := ih hrest
      exact ⟨by rw [hf hy, hxs], hys⟩

end

end TradeStation.Foundations
