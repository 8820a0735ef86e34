import Mathlib.Data.List.Infix
import Mathlib.Logic.Function.Iterate

/-!
# Overwriting ring buffers

A ring of capacity `c` keeps its last `c` unread elements: sending to a full ring overwrites the
oldest one. `RingBuf` carries its bound, so a ring over capacity cannot be built.

The history of a ring is the list of sends and receives made on it. Whatever they are, the unread
content is a suffix of what was sent (`items_suffix_sent`).
-/

namespace OverwriteRing

variable {α : Type*}

/-- A bounded buffer, oldest unread element first. -/
structure RingBuf (α : Type*) where
  capacity : ℕ
  items : List α
  bounded : items.length ≤ capacity

namespace RingBuf

def empty (capacity : ℕ) : RingBuf α := ⟨capacity, [], Nat.zero_le _⟩

/-- Send an element, overwriting the oldest one when the ring is full. -/
def send (r : RingBuf α) (x : α) : RingBuf α where
  capacity := r.capacity
  items := (r.items ++ [x]).drop (r.items.length + 1 - r.capacity)
  bounded := by simp; omega

def recv (r : RingBuf α) : Option (α × RingBuf α) :=
  match h : r.items with
  | [] => none
  | x :: xs =>
    some (x, ⟨r.capacity, xs, by have := r.bounded; rw [h] at this; exact Nat.le_of_succ_le this⟩)

/-- Take and discard the oldest unread element, if any. -/
def advance (r : RingBuf α) : RingBuf α where
  capacity := r.capacity
  items := r.items.tail
  bounded := by have := r.bounded; simp; omega

@[simp] theorem items_empty (c : ℕ) : (empty c : RingBuf α).items = [] := rfl

@[simp] theorem items_advance (r : RingBuf α) : r.advance.items = r.items.tail := rfl

theorem items_iterate_advance (n : ℕ) (r : RingBuf α) : (advance^[n] r).items = r.items.drop n := by
  induction n generalizing r with
  | zero => rfl
  | succ n ih => rw [Function.iterate_succ_apply, ih, items_advance, List.drop_tail]

theorem send_suffix (r : RingBuf α) (x : α) : (r.send x).items <:+ r.items ++ [x] :=
  List.drop_suffix _ _

/-- What a send overwrites. In a ring without capacity that is the element itself. -/
def dropped (r : RingBuf α) (x : α) : List α :=
  (r.items ++ [x]).take (r.items.length + 1 - r.capacity)

theorem dropped_append_send (r : RingBuf α) (x : α) :
    r.dropped x ++ (r.send x).items = r.items ++ [x] := List.take_append_drop _ _

theorem recv_of_cons {r : RingBuf α} {x : α} {xs : List α} (h : r.items = x :: xs) :
    r.recv = some (x, r.advance) := by
  obtain ⟨c, items, hb⟩ := r
  subst h
  rfl

theorem recv_of_nil {r : RingBuf α} (h : r.items = []) : r.recv = none := by
  obtain ⟨c, items, hb⟩ := r
  subst h
  rfl

theorem exists_of_recv {r r' : RingBuf α} {x : α} (h : r.recv = some (x, r')) :
    ∃ rest, r.items = x :: rest ∧ r' = r.advance := by
  cases hitems : r.items with
  | nil => rw [recv_of_nil hitems] at h; cases h
  | cons y rest =>
    rw [recv_of_cons hitems] at h
    cases h
    exact ⟨rest, rfl, rfl⟩

/-! ### Rings of other elements -/

variable {β : Type*}

def map (f : α → β) (r : RingBuf α) : RingBuf β where
  capacity := r.capacity
  items := r.items.map f
  bounded := by rw [List.length_map]; exact r.bounded

theorem ext_items {r r' : RingBuf α} (hcapacity : r.capacity = r'.capacity)
    (hitems : r.items = r'.items) : r = r' := by
  obtain ⟨c, items, hb⟩ := r
  obtain ⟨c', items', hb'⟩ := r'
  cases hcapacity
  cases hitems
  rfl

@[simp] theorem map_empty (f : α → β) (c : ℕ) : (empty c).map f = empty c := rfl

theorem map_send (f : α → β) (r : RingBuf α) (x : α) : (r.send x).map f = (r.map f).send (f x) := by
  refine ext_items rfl ?_
  simp only [map, send, List.map_drop, List.map_append, List.map_cons, List.map_nil,
    List.length_map]

theorem map_advance (f : α → β) (r : RingBuf α) : r.advance.map f = (r.map f).advance :=
  ext_items rfl List.map_tail

end RingBuf

/-! ## Histories -/

/-- What can happen to a ring. -/
inductive Act (α : Type*)
  | send (x : α)
  | recv

def Act.apply (r : RingBuf α) : Act α → RingBuf α
  | .send x => r.send x
  | .recv => r.advance

def sent : List (Act α) → List α
  | [] => []
  | .send x :: as => x :: sent as
  | .recv :: as => sent as

theorem sent_append (as bs : List (Act α)) : sent (as ++ bs) = sent as ++ sent bs := by
  induction as with
  | nil => rfl
  | cons a as ih => cases a <;> simp [sent, ih]

theorem sent_map_send (xs : List α) : sent (xs.map .send) = xs := by
  induction xs with
  | nil => rfl
  | cons x xs ih => rw [List.map_cons, sent, ih]

/-- One act appends to a suffix of the past what it sends, or shortens it from the front. -/
theorem suffix_apply {r : RingBuf α} {past : List α} (h : r.items <:+ past) (a : Act α) :
    (a.apply r).items <:+ past ++ sent [a] := by
  cases a with
  | send x =>
    obtain ⟨front, rfl⟩ := h
    refine (r.send_suffix x).trans ?_
    exact ⟨front, by simp [sent]⟩
  | recv =>
    simp only [Act.apply, RingBuf.items_advance, sent, List.append_nil]
    exact (List.tail_suffix _).trans h

/-- **The unread content is a suffix of what was sent**, over any history. -/
theorem items_suffix_sent {r : RingBuf α} {past : List α} (h : r.items <:+ past)
    (as : List (Act α)) :
    (as.foldl Act.apply r).items <:+ past ++ sent as := by
  induction as generalizing r past with
  | nil => simpa [sent] using h
  | cons a as ih =>
    have hstep := ih (suffix_apply h a)
    rwa [List.append_assoc, ← sent_append] at hstep

theorem capacity_foldl (r : RingBuf α) (as : List (Act α)) :
    (as.foldl Act.apply r).capacity = r.capacity := by
  induction as generalizing r with
  | nil => rfl
  | cons a as ih =>
    rw [List.foldl_cons, ih]
    cases a <;> rfl

end OverwriteRing
