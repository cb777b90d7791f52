import Mathlib.Algebra.Ring.Nat
import Mathlib.Logic.Function.Basic

/-!
# A memory of cells

Cells at integer addresses, relative to the beginning of some object, so that an address in front
of the object is one as well. A list is written to, and read from, the cells at successive
addresses.
-/

namespace ChatMultithread.Lib

variable {α : Type}

/-- The contents of the cells. -/
abbrev Memory (α : Type) := Int → α

/-- The memory after the list has been written from an address on. -/
def store (m : Memory α) : Int → List α → Memory α
  | _, [] => m
  | a, x :: xs => store (Function.update m a x) (a + 1) xs

/-- The contents of `n` cells from an address on. -/
def load (m : Memory α) : Int → Nat → List α
  | _, 0 => []
  | a, n + 1 => m a :: load m (a + 1) n

@[simp] theorem length_load (m : Memory α) (a : Int) (n : Nat) : (load m a n).length = n := by
  induction n generalizing a with
  | zero => rfl
  | succ n ih => rw [load, List.length_cons, ih]

/-- A store changes nothing in front of the list and nothing behind it. -/
theorem store_frame {m : Memory α} {a x : Int} {xs : List α}
    (h : x < a ∨ a + xs.length ≤ x) : store m a xs x = m x := by
  induction xs generalizing m a with
  | nil => rfl
  | cons y ys ih =>
    have hne : x ≠ a := by
      rw [List.length_cons] at h
      omega
    have hrest : x < a + 1 ∨ a + 1 + ys.length ≤ x := by
      rw [List.length_cons] at h
      omega
    rw [store, ih hrest, Function.update_of_ne hne]

/-- What is read depends on the cells that are read. -/
theorem load_congr {m m' : Memory α} {a : Int} {n : Nat}
    (h : ∀ x, a ≤ x → x < a + n → m x = m' x) : load m a n = load m' a n := by
  induction n generalizing a with
  | zero => rfl
  | succ n ih =>
    have hrest : load m (a + 1) n = load m' (a + 1) n := by
      apply ih
      intro x hlo hhi
      exact h x (by omega) (by omega)
    rw [load, load, hrest, h a (Int.le_refl a) (by omega)]

theorem load_add (m : Memory α) (a : Int) (i j : Nat) :
    load m a (i + j) = load m a i ++ load m (a + i) j := by
  induction i generalizing a with
  | zero => simp [load]
  | succ i ih =>
    have haddr : a + ((i + 1 : Nat) : Int) = a + 1 + i := by omega
    rw [Nat.add_right_comm, load, load, ih, List.cons_append, haddr]

/-- A list that has been written is read back. -/
theorem load_store (m : Memory α) (a : Int) (xs : List α) :
    load (store m a xs) a xs.length = xs := by
  induction xs generalizing m a with
  | nil => rfl
  | cons x xs ih =>
    have hfirst : store (Function.update m a x) (a + 1) xs a = x := by
      rw [store_frame (.inl (Int.lt_succ a)), Function.update_self]
    rw [List.length_cons, load, store, ih, hfirst]

/-- A list written behind another is read back with it. -/
theorem load_store_append {m : Memory α} {a : Int} {xs : List α}
    (h : load m a xs.length = xs) (ys : List α) :
    load (store m (a + xs.length) ys) a (xs.length + ys.length) = xs ++ ys := by
  have hkeep : load (store m (a + xs.length) ys) a xs.length = load m a xs.length := by
    apply load_congr
    intro x _ hhi
    exact store_frame (.inl hhi)
  rw [load_add, hkeep, h, load_store]

/-- The first cells of what is read. -/
theorem load_take {m : Memory α} {a : Int} {xs ys : List α}
    (h : load m a (xs ++ ys).length = xs ++ ys) : load m a xs.length = xs := by
  rw [List.length_append, load_add] at h
  exact (List.append_inj h (length_load m a xs.length)).1

end ChatMultithread.Lib
