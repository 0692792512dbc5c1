import Mathlib

/-!
# Vectors and the memory they give back

A vector keeps its elements at the front of a block. What lies behind them, and what a block held
when it was given back, stays in memory. Two vectors that are `Alike` differ in their elements only,
and give back the same once the elements are overwritten.
-/
namespace LedgerKeePass.Bytes

/-- A vector in a block, and the blocks that it has given back. -/
structure HeapVec (α : Type) where
  block : List α
  size : ℕ
  freed : List (List α)
  fits : size ≤ block.length

namespace HeapVec
variable {α : Type} {v w : HeapVec α} {xs spare : List α} {x : α}

def contents (v : HeapVec α) : List α := v.block.take v.size

/-- A new vector; `spare` is what its block holds behind the elements. -/
def ofList (xs spare : List α) : HeapVec α where
  block := xs ++ spare
  size := xs.length
  freed := []
  fits := by simp

/-- An insertion at the end: in the block where there is room, else in a new one, the old one being
given back as it is. -/
def append (v : HeapVec α) (xs spare : List α) : HeapVec α :=
  if v.size + xs.length ≤ v.block.length then
    ⟨v.contents ++ xs ++ v.block.drop (v.size + xs.length), v.size + xs.length, v.freed, by
      have hv := v.fits
      simp only [contents, List.length_append, List.length_take, List.length_drop]
      omega⟩
  else
    ⟨v.contents ++ xs ++ spare, v.size + xs.length, v.freed ++ [v.block], by
      have hv := v.fits
      simp only [contents, List.length_append, List.length_take]
      omega⟩

def set (v : HeapVec α) (i : ℕ) (x : α) : HeapVec α := ⟨v.block.set i x, v.size, v.freed, by simp [v.fits]⟩

/-- All elements overwritten. -/
def fill (v : HeapVec α) (x : α) : HeapVec α :=
  ⟨List.replicate v.size x ++ v.block.drop v.size, v.size, v.freed, by simp⟩

def clear (v : HeapVec α) : HeapVec α := ⟨v.block, 0, v.freed, Nat.zero_le _⟩

/-- A copy in a block of its own. -/
def copy (v : HeapVec α) (spare : List α) : HeapVec α := ofList v.contents spare

/-- All that a vector gives back by the end of its life. -/
def release (v : HeapVec α) : List (List α) := v.freed ++ [v.block]

theorem length_contents (v : HeapVec α) : v.contents.length = v.size := by
  rw [contents, List.length_take, min_eq_left v.fits]

@[simp] theorem contents_ofList (xs spare : List α) : (ofList xs spare).contents = xs :=
  List.take_left' rfl

@[simp] theorem contents_append (v : HeapVec α) (xs spare : List α) :
    (v.append xs spare).contents = v.contents ++ xs := by
  have hl := v.length_contents
  rw [append]
  split
  · exact List.take_left' (by rw [List.length_append, hl])
  · exact List.take_left' (by rw [List.length_append, hl])

@[simp] theorem contents_set (v : HeapVec α) (i : ℕ) (x : α) : (v.set i x).contents = v.contents.set i x :=
  List.take_set

@[simp] theorem contents_copy (v : HeapVec α) (spare : List α) : (v.copy spare).contents = v.contents :=
  contents_ofList _ _

@[simp] theorem size_append (v : HeapVec α) (xs spare : List α) :
    (v.append xs spare).size = v.size + xs.length := by
  rw [append]
  split
  · rfl
  · rfl

@[simp] theorem size_copy (v : HeapVec α) (spare : List α) : (v.copy spare).size = v.size :=
  v.length_contents

/-- Vectors that differ in their elements only. -/
structure Alike (v w : HeapVec α) : Prop where
  size : v.size = w.size
  freed : v.freed = w.freed
  behind : v.block.drop v.size = w.block.drop w.size

/-- Two copies in blocks that held the same. -/
theorem alike_copy (h : v.size = w.size) (spare : List α) : Alike (v.copy spare) (w.copy spare) where
  size := by rw [size_copy, size_copy, h]
  freed := rfl
  behind := (List.drop_left' rfl).trans (List.drop_left' rfl).symm

/-- Elements of the same number appended to one vector. -/
theorem alike_append (v : HeapVec α) {xs ys : List α} (h : xs.length = ys.length) (spare : List α) :
    Alike (v.append xs spare) (v.append ys spare) := by
  have hl := v.length_contents
  have hd (zs rest : List α) (hz : zs.length = ys.length) :
      (v.contents ++ zs ++ rest).drop (v.size + ys.length) = rest :=
    List.drop_left' (by rw [List.length_append, hl, hz])
  by_cases hroom : v.size + ys.length ≤ v.block.length
  · rw [append, append, if_pos (h ▸ hroom), if_pos hroom]
    exact ⟨by simp only [h], rfl, by simp only [h]; exact (hd xs _ h).trans (hd ys _ rfl).symm⟩
  · rw [append, append, if_neg (h ▸ hroom), if_neg hroom]
    exact ⟨by simp only [h], rfl, by simp only [h]; exact (hd xs _ h).trans (hd ys _ rfl).symm⟩

theorem alike_set (v : HeapVec α) {i : ℕ} (hi : i < v.size) (x : α) : Alike v (v.set i x) where
  size := rfl
  freed := rfl
  behind := by
    rw [set]
    dsimp only
    rw [List.drop_set, if_pos hi]

/-- They are the same when they are overwritten. -/
theorem Alike.fill_eq (h : Alike v w) (x : α) : v.fill x = w.fill x := by
  obtain ⟨vb, vs, vf, hv⟩ := v
  obtain ⟨wb, ws, wf, hw⟩ := w
  obtain ⟨rfl, rfl, hb⟩ := h
  dsimp only at hb
  simp only [fill, hb]

end HeapVec

end LedgerKeePass.Bytes
