import Mathlib

/-!
# Fixed-size byte buffers

A C array of `n` bytes is a vector of length `n`. Copies in and out of it are checked:
`slice` and `copyAt` fail exactly when they would leave the array. `window` and
`overwrite` are the total functions they agree with in bounds, and `byteAt` is the
view in which equalities between buffers are proved. Big-endian integers close the file.
-/
namespace LedgerKeePass.Bytes

abbrev Buf (n : ℕ) := List.Vector UInt8 n

namespace Buf

variable {m n k : ℕ}

/-- The byte at index `i`, zero past the end. -/
def byteAt (b : Buf n) (i : ℕ) : UInt8 := b.toList.getD i 0

/-- The `len` bytes from `off` on, zeros past the end. -/
def window (b : Buf n) (off len : ℕ) : Buf len :=
  ⟨(b.toList.drop off ++ List.replicate len 0).take len, by simp⟩

/-- The buffer with `src` put at `off`; what leaves the buffer is dropped. -/
def overwrite (b : Buf n) (off : ℕ) (src : List UInt8) : Buf n :=
  ⟨(b.toList.take off ++ src ++ b.toList.drop (off + src.length)).take n, by
    simp only [List.length_take, List.length_append, List.length_drop, List.Vector.toList_length]
    omega⟩

/-- A checked read of `len` bytes. -/
def slice (b : Buf n) (off len : ℕ) : Option (Buf len) :=
  if off + len ≤ n then some (b.window off len) else none

/-- A checked copy of `src` into the buffer. -/
def copyAt (b : Buf n) (off : ℕ) (src : List UInt8) : Option (Buf n) :=
  if off + src.length ≤ n then some (b.overwrite off src) else none

def zeros (n : ℕ) : Buf n := List.Vector.replicate n 0

/-- A buffer with the given bytes at its start and zeros behind. -/
def ofList (n : ℕ) (src : List UInt8) : Buf n := (zeros n).overwrite 0 src

/-- The bytes before the first NUL. -/
def cString (b : Buf n) : List UInt8 := b.toList.takeWhile (· ≠ 0)

theorem slice_eq {b : Buf n} {off len : ℕ} (h : off + len ≤ n) :
    b.slice off len = some (b.window off len) := if_pos h

theorem copyAt_eq {b : Buf n} {off : ℕ} {src : List UInt8} (h : off + src.length ≤ n) :
    b.copyAt off src = some (b.overwrite off src) := if_pos h

theorem toList_getD (b : Buf n) (i : ℕ) : b.toList.getD i 0 = b.byteAt i := rfl

theorem byteAt_of_le (b : Buf n) {i : ℕ} (h : n ≤ i) : b.byteAt i = 0 := by
  rw [byteAt, List.getD_eq_default]
  simpa using h

theorem ext_byteAt {b c : Buf n} (h : ∀ i < n, b.byteAt i = c.byteAt i) : b = c := by
  apply List.Vector.toList_injective
  apply List.ext_getElem (by simp)
  intro i h₁ h₂
  have hi : i < n := by simpa using h₁
  have hb := h i hi
  rwa [byteAt, byteAt, List.getD_eq_getElem _ _ h₁, List.getD_eq_getElem _ _ h₂] at hb

theorem mem_toList {b : Buf n} {x : UInt8} : x ∈ b.toList ↔ ∃ i < n, b.byteAt i = x := by
  rw [List.mem_iff_getElem]
  constructor
  · rintro ⟨i, hi, rfl⟩
    exact ⟨i, by simpa using hi, List.getD_eq_getElem _ _ hi⟩
  · rintro ⟨i, hi, rfl⟩
    have hi' : i < b.toList.length := by simpa using hi
    exact ⟨i, hi', (List.getD_eq_getElem _ _ hi').symm⟩

theorem byteAt_window (b : Buf n) (off len i : ℕ) :
    (b.window off len).byteAt i = if i < len then b.byteAt (off + i) else 0 := by
  by_cases hi : i < len
  · simp only [hi, if_true, byteAt, window, List.Vector.toList_mk, List.getD_eq_getElem?_getD,
      List.getElem?_take, List.getElem?_append, List.getElem?_drop, List.getElem?_replicate,
      List.length_drop, List.Vector.toList_length]
    split
    · rfl
    · rw [if_pos (by omega), List.getElem?_eq_none (by simp; omega)]
      rfl
  · rw [if_neg hi, byteAt_of_le _ (by omega)]

theorem byteAt_overwrite (b : Buf n) (off : ℕ) (src : List UInt8) {i : ℕ} (hi : i < n) :
    (b.overwrite off src).byteAt i =
      if off ≤ i ∧ i < off + src.length then src.getD (i - off) 0 else b.byteAt i := by
  simp only [byteAt, overwrite, List.Vector.toList_mk, List.getD_eq_getElem?_getD,
    List.getElem?_take, hi, if_true, List.append_assoc, List.getElem?_append, List.length_take,
    List.Vector.toList_length, List.getElem?_drop]
  by_cases h₁ : i < off
  · have h₂ : i < min off n := by omega
    have h₃ : ¬ (off ≤ i ∧ i < off + src.length) := by omega
    simp only [h₁, h₂, h₃, if_true, if_false]
  · have h₂ : ¬ i < min off n := by omega
    have h₃ : i - min off n = i - off := by omega
    simp only [h₂, h₃, if_false]
    by_cases h₄ : i < off + src.length
    · rw [if_pos (by omega), if_pos ⟨by omega, h₄⟩]
    · rw [if_neg (by omega), if_neg (by omega)]
      congr 2
      omega

/-- What was just written is read back. -/
theorem window_overwrite (b : Buf n) (off : ℕ) (src : Buf k) (h : off + k ≤ n) :
    (b.overwrite off src.toList).window off k = src := by
  apply ext_byteAt
  intro i hi
  rw [byteAt_window, if_pos hi, byteAt_overwrite _ _ _ (by omega), if_pos (by simp; omega)]
  simp [byteAt]

/-- A read inside a write does not see what was there before. -/
theorem window_overwrite_congr (b c : Buf n) {off len : ℕ} {src : List UInt8}
    (h : off + len ≤ src.length) :
    (b.overwrite 0 src).window off len = (c.overwrite 0 src).window off len := by
  apply ext_byteAt
  intro i hi
  rw [byteAt_window, byteAt_window, if_pos hi, if_pos hi]
  by_cases hn : off + i < n
  · rw [byteAt_overwrite _ _ _ hn, byteAt_overwrite _ _ _ hn, if_pos (by omega), if_pos (by omega)]
  · rw [byteAt_of_le _ (by omega), byteAt_of_le _ (by omega)]

theorem window_overwrite_toList (b : Buf n) {off : ℕ} {src : List UInt8}
    (h : off + src.length ≤ n) : ((b.overwrite off src).window off src.length).toList = src :=
  congrArg List.Vector.toList (b.window_overwrite off ⟨src, rfl⟩ h)

/-- A read away from a write sees the old bytes. -/
theorem window_overwrite_of_disjoint (b : Buf n) {off off' len : ℕ} {src : List UInt8}
    (h : off' + len ≤ off ∨ off + src.length ≤ off') :
    (b.overwrite off src).window off' len = b.window off' len := by
  apply ext_byteAt
  intro i hi
  simp only [byteAt_window, if_pos hi]
  by_cases hn : off' + i < n
  · rw [byteAt_overwrite _ _ _ hn, if_neg (by omega)]
  · rw [byteAt_of_le _ (by omega), byteAt_of_le _ (by omega)]

/-- Two adjacent writes are one. -/
theorem overwrite_append (b : Buf n) (off : ℕ) (xs ys : List UInt8) :
    (b.overwrite off xs).overwrite (off + xs.length) ys = b.overwrite off (xs ++ ys) := by
  apply ext_byteAt
  intro i hi
  simp only [byteAt_overwrite _ _ _ hi, List.length_append, List.getD_eq_getElem?_getD,
    List.getElem?_append]
  by_cases h₁ : off + xs.length ≤ i ∧ i < off + xs.length + ys.length
  · rw [if_pos h₁, if_pos (by omega), if_neg (by omega)]
    congr 2
    omega
  · rw [if_neg h₁]
    by_cases h₂ : off ≤ i ∧ i < off + xs.length
    · rw [if_pos h₂, if_pos (by omega), if_pos (by omega)]
    · rw [if_neg h₂, if_neg (by omega)]

@[simp] theorem overwrite_nil (b : Buf n) (off : ℕ) : b.overwrite off [] = b := by
  apply ext_byteAt
  intro i hi
  rw [byteAt_overwrite _ _ _ hi, if_neg (by simp)]

/-- A write hides an earlier one inside it. -/
theorem overwrite_overwrite (b : Buf n) {off off' : ℕ} {src src' : List UInt8}
    (h : off ≤ off' ∧ off' + src'.length ≤ off + src.length) :
    (b.overwrite off' src').overwrite off src = b.overwrite off src := by
  apply ext_byteAt
  intro i hi
  simp only [byteAt_overwrite _ _ _ hi]
  by_cases h₁ : off ≤ i ∧ i < off + src.length
  · rw [if_pos h₁, if_pos h₁]
  · rw [if_neg h₁, if_neg h₁, if_neg (by omega)]

theorem overwrite_full (b c : Buf n) : b.overwrite 0 c.toList = c := by
  apply ext_byteAt
  intro i hi
  rw [byteAt_overwrite _ _ _ hi, if_pos (by simpa using hi), Nat.sub_zero, toList_getD]

theorem copyAt_full (b c : Buf n) : b.copyAt 0 c.toList = some c := by
  rw [copyAt_eq (by simp), overwrite_full]

/-- A later write of one byte inside an earlier one. -/
theorem overwrite_patch (b : Buf n) (off : ℕ) (xs ys : List UInt8) (x y : UInt8) :
    (b.overwrite off (xs ++ x :: ys)).overwrite (off + xs.length) [y] =
      b.overwrite off (xs ++ y :: ys) := by
  apply ext_byteAt
  intro i hi
  simp only [byteAt_overwrite _ _ _ hi, List.length_append, List.length_cons, List.length_nil,
    List.getD_eq_getElem?_getD, List.getElem?_append]
  by_cases h₁ : i = off + xs.length
  · simp [h₁]
  · rw [if_neg (by omega)]
    by_cases h₂ : i - off < xs.length
    · simp only [h₂, if_true]
    · obtain ⟨j, hj⟩ : ∃ j, i - off - xs.length = j + 1 ∨ i < off := by
        by_cases h₃ : i < off
        · exact ⟨0, .inr h₃⟩
        · exact ⟨i - off - xs.length - 1, .inl (by omega)⟩
      rcases hj with hj | hj
      · simp only [h₂, if_false, hj, List.getElem?_cons_succ]
      · rw [if_neg (by omega), if_neg (by omega)]

theorem window_toList (b : Buf n) {off len : ℕ} (h : off + len ≤ n) :
    (b.window off len).toList = (b.toList.drop off).take len := by
  simp only [window, List.Vector.toList_mk]
  rw [List.take_append_of_le_length (by simp; omega)]

theorem overwrite_zero_toList (b : Buf n) {src : List UInt8} (h : src.length ≤ n) :
    (b.overwrite 0 src).toList = src ++ b.toList.drop src.length := by
  simp only [overwrite, List.Vector.toList_mk, List.take_zero, List.nil_append, Nat.zero_add]
  rw [List.take_of_length_le (by simp; omega)]

theorem overwrite_take (b : Buf n) {off : ℕ} {src : List UInt8} (h : off + src.length ≤ n) :
    (b.overwrite off src).toList.take (off + src.length) = b.toList.take off ++ src := by
  have hoff : (b.toList.take off).length = off := by
    rw [List.length_take, List.Vector.toList_length]
    omega
  simp only [overwrite, List.Vector.toList_mk]
  rw [List.take_take, min_eq_left h, List.take_left']
  rw [List.length_append, hoff]

theorem overwrite_take_before (b : Buf n) {off k : ℕ} (src : List UInt8) (h : k ≤ off) :
    (b.overwrite off src).toList.take k = b.toList.take k := by
  simp only [overwrite, List.Vector.toList_mk, List.append_assoc]
  by_cases hk : k ≤ n
  · rw [List.take_take, min_eq_left hk, List.take_append_of_le_length, List.take_take,
      min_eq_left h]
    rw [List.length_take, List.Vector.toList_length]
    omega
  · have hoff : b.toList.take off = b.toList := List.take_of_length_le (by simp; omega)
    rw [hoff, List.take_take, min_eq_right (by omega), List.take_append_of_le_length (by simp),
      List.take_of_length_le (by simp), List.take_of_length_le (by simp; omega)]

theorem window_append (b : Buf n) {off len len' : ℕ} (h : off + len + len' ≤ n) :
    (b.window off (len + len')).toList = (b.window off len).toList ++ (b.window (off + len) len').toList := by
  rw [window_toList b (by omega), window_toList b (by omega), window_toList b (by omega),
    List.take_add, List.drop_drop]

/-- The buffers that a write leaves are those that hold its bytes. -/
theorem exists_overwrite_iff {b : Buf n} {off : ℕ} {src : List UInt8} (h : off + src.length ≤ n) :
    (∃ c : Buf n, b = c.overwrite off src) ↔ (b.window off src.length).toList = src := by
  constructor
  · rintro ⟨c, rfl⟩
    exact window_overwrite_toList c h
  · intro hw
    refine ⟨b, ext_byteAt fun i hi => ?_⟩
    rw [byteAt_overwrite _ _ _ hi]
    split
    · rename_i hr
      have hb := byteAt_window b off src.length (i - off)
      rw [if_pos (by omega), show off + (i - off) = i by omega] at hb
      rw [← hb, byteAt, hw]
    · rfl

/-- Reading back the middle of what was written. -/
theorem window_overwrite_infix (b : Buf n) {xs ys zs : List UInt8}
    (h : (xs ++ ys ++ zs).length ≤ n) :
    ((b.overwrite 0 (xs ++ ys ++ zs)).window xs.length ys.length).toList = ys := by
  simp only [List.length_append] at h
  rw [← overwrite_append, ← overwrite_append, Nat.zero_add, window_overwrite_of_disjoint,
    window_overwrite_toList]
  · omega
  · left
    simp

/-- A NUL-terminated text written at the start is the buffer's C string. -/
theorem cString_overwrite (b : Buf n) {text : List UInt8} (h : text.length < n)
    (hz : (0 : UInt8) ∉ text) : (b.overwrite 0 (text ++ [0])).cString = text := by
  rw [cString, overwrite_zero_toList _ (by simpa using h), List.append_assoc,
    List.takeWhile_append_of_pos]
  · simp
  · intro x hx
    have hx0 : x ≠ 0 := fun h0 => hz (h0 ▸ hx)
    simpa using hx0

end Buf

/-- The low `k` bytes of `v`, most significant first. -/
def toBe : ℕ → ℕ → List UInt8
  | 0, _ => []
  | k + 1, v => UInt8.ofNat (v / 256 ^ k) :: toBe k v

def ofBe : List UInt8 → ℕ
  | [] => 0
  | b :: bs => b.toNat * 256 ^ bs.length + ofBe bs

@[simp] theorem toBe_length (k v : ℕ) : (toBe k v).length = k := by
  induction k with
  | zero => rfl
  | succ k ih => simp [toBe, ih]

theorem ofBe_toBe_mod (k v : ℕ) : ofBe (toBe k v) = v % 256 ^ k := by
  induction k with
  | zero => simp [toBe, ofBe, Nat.mod_one]
  | succ k ih =>
    have hb : (UInt8.ofNat (v / 256 ^ k)).toNat = v / 256 ^ k % 256 := by simp
    rw [toBe, ofBe, toBe_length, ih, hb, pow_succ, Nat.mod_mul]
    ring

theorem ofBe_toBe {k v : ℕ} (h : v < 256 ^ k) : ofBe (toBe k v) = v := by
  rw [ofBe_toBe_mod, Nat.mod_eq_of_lt h]

theorem toBe_add_mul (k c v : ℕ) : toBe k (c * 256 ^ k + v) = toBe k v := by
  induction k generalizing c with
  | zero => rfl
  | succ k ih =>
    have hd : (c * 256 ^ (k + 1) + v) / 256 ^ k = v / 256 ^ k + c * 256 := by
      rw [pow_succ, mul_comm (256 ^ k), ← mul_assoc, Nat.add_comm,
        Nat.add_mul_div_right _ _ (Nat.pow_pos (by omega))]
    have hb : UInt8.ofNat (v / 256 ^ k + c * 256) = UInt8.ofNat (v / 256 ^ k) := by
      apply UInt8.toNat_inj.mp
      simp
    rw [toBe, toBe, hd, hb, pow_succ, mul_comm (256 ^ k), ← mul_assoc, ih]

theorem ofBe_lt (bs : List UInt8) : ofBe bs < 256 ^ bs.length := by
  induction bs with
  | nil => simp [ofBe]
  | cons b bs ih =>
    have hb := b.toNat_lt
    have hm : b.toNat * 256 ^ bs.length + 256 ^ bs.length ≤ 256 * 256 ^ bs.length := by
      rw [← Nat.succ_mul]
      exact Nat.mul_le_mul_right _ hb
    rw [ofBe, List.length_cons, pow_succ, mul_comm (256 ^ bs.length)]
    omega

theorem toBe_ofBe (bs : List UInt8) : toBe bs.length (ofBe bs) = bs := by
  induction bs with
  | nil => rfl
  | cons b bs ih =>
    have hd : (b.toNat * 256 ^ bs.length + ofBe bs) / 256 ^ bs.length = b.toNat := by
      rw [Nat.add_comm, Nat.add_mul_div_right _ _ (Nat.pow_pos (by omega)),
        Nat.div_eq_of_lt (ofBe_lt bs), Nat.zero_add]
    rw [List.length_cons, toBe, ofBe, hd, toBe_add_mul, ih, UInt8.ofNat_toNat]

/-- Numbers and their big-endian bytes. -/
theorem ofBe_eq_iff {bs : List UInt8} {k v : ℕ} (hl : bs.length = k) (hv : v < 256 ^ k) :
    ofBe bs = v ↔ bs = toBe k v := by
  constructor
  · rintro rfl
    rw [← hl, toBe_ofBe]
  · rintro rfl
    exact ofBe_toBe hv

end LedgerKeePass.Bytes
