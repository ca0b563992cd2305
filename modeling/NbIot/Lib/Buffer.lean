import Mathlib.Data.List.Range
import Mathlib.Logic.Function.Basic

/-!
# Arrays of bytes, with the indices that are touched

A local array of a C program: the memory from its start on, how many cells of
it are the array, and a log of the indices that were read and written. An index
past the end is not refused, it reaches memory that is not the array, and the
log says so. What the cells hold before the first write is arbitrary.
-/

namespace Lib

structure Buffer where
  size : Nat
  cells : Nat → UInt8
  reads : List Nat := []
  writes : List Nat := []

namespace Buffer

/-- `a[i]` as a value. -/
def get (b : Buffer) (i : Nat) : UInt8 := b.cells i

/-- The array after a read of `a[i]`. -/
def touch (b : Buffer) (i : Nat) : Buffer := { b with reads := b.reads ++ [i] }

/-- `a[i] = v`. -/
def set (b : Buffer) (i : Nat) (v : UInt8) : Buffer :=
  { b with cells := Function.update b.cells i v, writes := b.writes ++ [i] }

/-- The bytes one after the other, from index `i` on. -/
def store (b : Buffer) (i : Nat) : List UInt8 → Buffer
  | [] => b
  | v :: vs => (b.set i v).store (i + 1) vs

/-- The loop `dst[i] = src[i]` up to index `n`. -/
def copy (src dst : Buffer) : Nat → Buffer × Buffer
  | 0 => (src, dst)
  | n + 1 =>
      let done := copy src dst n
      (done.1.touch n, done.2.set n (done.1.get n))

/-- The first cells. -/
def slice (b : Buffer) (n : Nat) : List UInt8 := (List.range n).map b.cells

/-- Every index that was touched is an index of the array. -/
def Inside (b : Buffer) : Prop :=
  (∀ i ∈ b.reads, i < b.size) ∧ ∀ i ∈ b.writes, i < b.size

instance (b : Buffer) : Decidable b.Inside := inferInstanceAs (Decidable (_ ∧ _))

theorem touch_inside {b : Buffer} {i : Nat} :
    (b.touch i).Inside ↔ b.Inside ∧ i < b.size := by
  simp only [Inside, touch, List.mem_append, List.mem_singleton, or_imp, forall_and,
    forall_eq]
  exact and_right_comm

theorem set_inside {b : Buffer} {i : Nat} {v : UInt8} :
    (b.set i v).Inside ↔ b.Inside ∧ i < b.size := by
  simp only [Inside, set, List.mem_append, List.mem_singleton, or_imp, forall_and, forall_eq]
  exact and_assoc.symm

@[simp] theorem set_cells_self (b : Buffer) (i : Nat) (v : UInt8) :
    (b.set i v).cells i = v := by
  show Function.update b.cells i v i = v
  exact Function.update_self ..

theorem set_cells_of_ne {b : Buffer} {i k : Nat} {v : UInt8} (h : k ≠ i) :
    (b.set i v).cells k = b.cells k := by
  show Function.update b.cells i v k = b.cells k
  exact Function.update_of_ne h ..

@[simp] theorem store_size (b : Buffer) (i : Nat) (vs : List UInt8) :
    (b.store i vs).size = b.size := by
  induction vs generalizing b i with
  | nil => rfl
  | cons v vs ih => exact ih (b.set i v) (i + 1)

@[simp] theorem store_reads (b : Buffer) (i : Nat) (vs : List UInt8) :
    (b.store i vs).reads = b.reads := by
  induction vs generalizing b i with
  | nil => rfl
  | cons v vs ih => exact ih (b.set i v) (i + 1)

@[simp] theorem store_writes (b : Buffer) (i : Nat) (vs : List UInt8) :
    (b.store i vs).writes = b.writes ++ List.range' i vs.length := by
  induction vs generalizing b i with
  | nil => simp [store]
  | cons v vs ih =>
      rw [store, ih, List.length_cons, List.range'_succ, set, List.append_assoc]
      rfl

theorem store_inside {b : Buffer} {i : Nat} {vs : List UInt8} (hb : b.Inside)
    (hfits : i + vs.length ≤ b.size) : (b.store i vs).Inside := by
  induction vs generalizing b i with
  | nil => exact hb
  | cons v vs ih =>
      rw [List.length_cons] at hfits
      exact ih (set_inside.mpr ⟨hb, by omega⟩) (by show i + 1 + vs.length ≤ b.size; omega)

theorem inside_of_store {b : Buffer} {i : Nat} {vs : List UInt8} (h : (b.store i vs).Inside) :
    b.Inside := by
  induction vs generalizing b i with
  | nil => exact h
  | cons v vs ih => exact (set_inside.mp (ih h)).1

theorem store_before {b : Buffer} {i k : Nat} {vs : List UInt8} (h : k < i) :
    (b.store i vs).cells k = b.cells k := by
  induction vs generalizing b i with
  | nil => rfl
  | cons v vs ih =>
      rw [store, ih (by omega)]
      exact set_cells_of_ne (by omega)

theorem store_after {b : Buffer} {i k : Nat} {vs : List UInt8} (h : i + vs.length ≤ k) :
    (b.store i vs).cells k = b.cells k := by
  induction vs generalizing b i with
  | nil => rfl
  | cons v vs ih =>
      rw [List.length_cons] at h
      rw [store, ih (by omega)]
      exact set_cells_of_ne (by omega)

theorem store_cells (b : Buffer) (i : Nat) {k : Nat} {vs : List UInt8}
    (hk : k < vs.length) :
    (b.store i vs).cells (i + k) = vs[k] := by
  induction vs generalizing b i k with
  | nil => exact absurd hk (by simp)
  | cons v vs ih =>
      rw [store]
      cases k with
      | zero =>
          rw [store_before (by omega)]
          exact set_cells_self b i v
      | succ k =>
          have hstep := ih (b.set i v) (i + 1) (k := k) (by rw [List.length_cons] at hk; omega)
          rw [show i + (k + 1) = i + 1 + k by omega, hstep]
          rfl

/-- What was stored from the start on is read back. -/
theorem slice_store (b : Buffer) (vs : List UInt8) :
    (b.store 0 vs).slice vs.length = vs := by
  refine List.ext_getElem (by simp [slice]) fun k h₁ h₂ => ?_
  have hcell := store_cells b 0 h₂
  rw [Nat.zero_add] at hcell
  simpa [slice] using hcell

/-- Behind what was stored comes what was there before. -/
theorem slice_store_append (b : Buffer) {vs : List UInt8} {n : Nat} (h : vs.length ≤ n) :
    (b.store 0 vs).slice n =
      vs ++ (List.range' vs.length (n - vs.length)).map b.cells := by
  obtain ⟨more, rfl⟩ := Nat.exists_eq_add_of_le h
  have hrest : (List.range' vs.length more).map (b.store 0 vs).cells =
      (List.range' vs.length more).map b.cells := by
    refine List.map_congr_left fun k hk => store_after ?_
    have hle := (List.mem_range'_1.mp hk).1
    omega
  rw [Nat.add_sub_cancel_left, ← hrest, slice, List.range_add, List.map_append]
  refine congrArg₂ (· ++ ·) (slice_store b vs) ?_
  rw [List.map_map, List.range'_eq_map_range, List.map_map]

/-- What was stored behind the first cells is read back with them. -/
theorem slice_store_from (b : Buffer) (i : Nat) (vs : List UInt8) :
    (b.store i vs).slice (i + vs.length) = b.slice i ++ vs := by
  have hbefore : (List.range i).map (b.store i vs).cells = (List.range i).map b.cells :=
    List.map_congr_left fun k hk => store_before (List.mem_range.mp hk)
  rw [slice, List.range_add, List.map_append, hbefore, List.map_map]
  refine congrArg (b.slice i ++ ·) (List.ext_getElem (by simp) fun k h₁ h₂ => ?_)
  rw [List.getElem_map, List.getElem_range]
  exact store_cells b i h₂

theorem slice_take (b : Buffer) {m n : Nat} (h : m ≤ n) :
    (b.slice n).take m = b.slice m := by
  rw [slice, ← List.map_take, List.take_range, Nat.min_eq_left h]
  rfl

theorem slice_succ (b : Buffer) (n : Nat) : b.slice (n + 1) = b.slice n ++ [b.cells n] := by
  rw [slice, List.range_succ, List.map_append]
  rfl

theorem slice_congr {b c : Buffer} {n : Nat} (h : ∀ k < n, b.cells k = c.cells k) :
    b.slice n = c.slice n :=
  List.map_congr_left fun k hk => h k (List.mem_range.mp hk)

theorem copy_snd_cells (src dst : Buffer) (n k : Nat) :
    (copy src dst n).2.cells k = if k < n then src.cells k else dst.cells k := by
  have hsrc : ∀ n, (copy src dst n).1.cells = src.cells := by
    intro n
    induction n with
    | zero => rfl
    | succ n ih => exact ih
  induction n with
  | zero => rfl
  | succ n ih =>
      show Function.update (copy src dst n).2.cells n ((copy src dst n).1.cells n) k = _
      rw [hsrc]
      by_cases h : k = n
      · rw [h, Function.update_self, if_pos (by omega)]
      · rw [Function.update_of_ne h, ih]
        split <;> split <;> first | rfl | omega

theorem copy_log (src dst : Buffer) (n : Nat) :
    (copy src dst n).1.size = src.size ∧ (copy src dst n).2.size = dst.size ∧
      (copy src dst n).1.reads = src.reads ++ List.range n ∧
      (copy src dst n).1.writes = src.writes ∧
      (copy src dst n).2.reads = dst.reads ∧
      (copy src dst n).2.writes = dst.writes ++ List.range n := by
  induction n with
  | zero => simp [copy]
  | succ n ih =>
      obtain ⟨hs, hd, hsr, hsw, hdr, hdw⟩ := ih
      simp only [copy, touch, set, List.range_succ, ← List.append_assoc]
      exact ⟨hs, hd, by rw [hsr], hsw, hdr, by rw [hdw]⟩

end Buffer

end Lib
