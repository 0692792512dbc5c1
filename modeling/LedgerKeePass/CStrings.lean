import Mathlib

/-!
# Strings of the C library

A C string is the list of its bytes before the NUL. The functions follow the C standard in
the "C" locale; what it leaves undefined is a field of `Libc`.
-/
namespace LedgerKeePass.CStrings

structure Libc where
  /-- What `tolower` returns for a `char` that may be negative. -/
  lower : UInt8 → UInt8
  /-- What `atoi` returns for a number that is no `int`. -/
  overflow : ℤ → ℤ
  /-- What a local holds in a round of a loop before it is written. -/
  uninit : ℕ → UInt32

def isSpace (c : UInt8) : Bool := c.toNat = 32 ∨ 9 ≤ c.toNat ∧ c.toNat ≤ 13

def isDigit (c : UInt8) : Bool := 48 ≤ c.toNat ∧ c.toNat ≤ 57

def isXDigit (c : UInt8) : Bool :=
  isDigit c ∨ 65 ≤ c.toNat ∧ c.toNat ≤ 70 ∨ 97 ≤ c.toNat ∧ c.toNat ≤ 102

def toLower (libc : Libc) (c : UInt8) : UInt8 :=
  if c.toNat < 128 then if 65 ≤ c.toNat ∧ c.toNat ≤ 90 then c + 32 else c
  else libc.lower c

def digitVal (c : UInt8) : ℕ :=
  if c.toNat ≤ 57 then c.toNat - 48
  else if c.toNat ≤ 90 then c.toNat - 55
  else c.toNat - 87

/-- The value of a string of digits. -/
def number (base : ℕ) (s : List UInt8) : ℕ := s.foldl (fun v c => base * v + digitVal c) 0

/-- An optional sign, and whether it is a minus. -/
def sign : List UInt8 → Bool × List UInt8
  | 43 :: s => (false, s)
  | 45 :: s => (true, s)
  | s => (false, s)

/-- The prefix `0x` of a hexadecimal number, which may be left out. -/
def hexPrefix : List UInt8 → List UInt8
  | 48 :: 120 :: s => s
  | 48 :: 88 :: s => s
  | s => s

def negateIf (minus : Bool) (n : ℕ) : ℤ := if minus then -n else n

def atoi (libc : Libc) (s : List UInt8) : ℤ :=
  let (minus, s) := sign (s.dropWhile isSpace)
  let v := negateIf minus (number 10 (s.takeWhile isDigit))
  if -2147483648 ≤ v ∧ v < 2147483648 then v else libc.overflow v

/-- `sscanf` with `%x` and a width, none where it assigns nothing. The prefix `0x` alone is
the start of a number but not one. -/
def scanHex (width : ℕ) (s : List UInt8) : Option UInt32 :=
  let (minus, s) := sign ((s.dropWhile isSpace).take width)
  let ds := (hexPrefix s).takeWhile isXDigit
  if ds = [] then none else some (UInt32.ofInt (negateIf minus (number 16 ds)))

/-- What C sees of bytes that a NUL follows. -/
def cString (s : List UInt8) : List UInt8 := s.takeWhile (· ≠ 0)

/-- The bytes that `strncpy` writes. -/
def strncpy (src : List UInt8) (n : ℕ) : List UInt8 := (src ++ List.replicate n 0).take n

section
variable {libc : Libc} {s : List UInt8} {a b c : UInt8}

theorem isDigit_iff : isDigit c = true ↔ 48 ≤ c.toNat ∧ c.toNat ≤ 57 := by simp [isDigit]

theorem isXDigit_iff : isXDigit c = true ↔ 48 ≤ c.toNat ∧ c.toNat ≤ 57 ∨
    65 ≤ c.toNat ∧ c.toNat ≤ 70 ∨ 97 ≤ c.toNat ∧ c.toNat ≤ 102 := by simp [isXDigit, isDigit]

theorem toNat_toLower (h : c.toNat < 128) : (toLower libc c).toNat =
    if 65 ≤ c.toNat ∧ c.toNat ≤ 90 then c.toNat + 32 else c.toNat := by
  rw [toLower, if_pos h]
  split
  · rw [UInt8.toNat_add]
    change (c.toNat + 32) % 256 = _
    omega
  · rfl

theorem sign_of_ne (h : c.toNat ≠ 43) (h' : c.toNat ≠ 45) : sign (c :: s) = (false, c :: s) := by
  rw [sign]
  · intro s hs
    rw [(List.cons.inj hs).1] at h
    exact h rfl
  · intro s hs
    rw [(List.cons.inj hs).1] at h'
    exact h' rfl

theorem hexPrefix_of_ne (h : b.toNat ≠ 120) (h' : b.toNat ≠ 88) : hexPrefix (a :: b :: s) = a :: b :: s := by
  rw [hexPrefix]
  · intro s hs
    rw [(List.cons.inj (List.cons.inj hs).2).1] at h
    exact h rfl
  · intro s hs
    rw [(List.cons.inj (List.cons.inj hs).2).1] at h'
    exact h' rfl

/-- A numeral is its own value, unless it is no `int`. -/
theorem atoi_digits (hs : s ≠ []) (hd : ∀ c ∈ s, isDigit c = true) (hv : number 10 s < 2147483648) :
    atoi libc s = number 10 s := by
  obtain ⟨c, s, rfl⟩ := List.exists_cons_of_ne_nil hs
  have hc := isDigit_iff.mp (hd c List.mem_cons_self)
  have hspace : isSpace c = false := by simp [isSpace]; omega
  have htake : (c :: s).takeWhile isDigit = c :: s := List.takeWhile_eq_self_iff.mpr hd
  rw [atoi, List.dropWhile_cons_of_neg (by simp [hspace]), sign_of_ne (by omega) (by omega)]
  simp only [htake, negateIf]
  rw [if_pos (by simp; omega)]
  simp

theorem ofInt_natCast (n : ℕ) : UInt32.ofInt n = UInt32.ofNat n := by
  have hn : ((n : ℤ) % 2 ^ 32).toNat = n % 2 ^ 32 := by omega
  rw [UInt32.ofInt, hn]
  apply UInt32.toNat_inj.mp
  simp

/-- Two hexadecimal digits are scanned whole. -/
theorem scanHex_digits (ha : isXDigit a = true) (hb : isXDigit b = true) :
    scanHex 2 [a, b] = some (UInt32.ofNat (16 * digitVal a + digitVal b)) := by
  have ha' := isXDigit_iff.mp ha
  have hb' := isXDigit_iff.mp hb
  have hspace : isSpace a = false := by simp [isSpace]; omega
  rw [scanHex, List.dropWhile_cons_of_neg (by simp [hspace]), List.take_of_length_le (by simp),
    sign_of_ne (by omega) (by omega)]
  simp only [hexPrefix_of_ne (a := a) (b := b) (s := []) (by omega) (by omega), List.takeWhile, ha, hb,
    negateIf, number, List.foldl]
  rw [if_neg (by simp), Nat.mul_zero, Nat.zero_add]
  exact congrArg some (ofInt_natCast _)

theorem cString_eq (h : (0 : UInt8) ∉ s) : cString s = s := by
  rw [cString, List.takeWhile_eq_self_iff]
  intro c hc
  exact decide_eq_true fun h0 => h (h0 ▸ hc)

theorem cString_append {t : List UInt8} (h : (0 : UInt8) ∉ s) : cString (s ++ 0 :: t) = s := by
  have hs := cString_eq h
  rw [cString, List.takeWhile_eq_self_iff] at hs
  rw [cString, List.takeWhile_append_of_pos hs, List.takeWhile_cons_of_neg (by simp), List.append_nil]

theorem strncpy_length (s : List UInt8) (n : ℕ) : (strncpy s n).length = n := by
  simp [strncpy]

theorem strncpy_of_le {n : ℕ} (h : n ≤ s.length) : strncpy s n = s.take n :=
  List.take_append_of_le_length h

theorem strncpy_of_lt {n : ℕ} (h : s.length < n) :
    strncpy s n = s ++ 0 :: List.replicate (n - s.length - 1) 0 := by
  obtain ⟨k, hk⟩ : ∃ k, n - s.length = k + 1 := ⟨n - s.length - 1, by omega⟩
  rw [strncpy, List.take_append, List.take_of_length_le h.le, List.take_replicate, hk,
    min_eq_left (by omega), List.replicate_succ, Nat.add_sub_cancel]

/-- An array behind `strncpy` that left its last byte `c` alone. -/
theorem strncpy_terminated_iff (h : (0 : UInt8) ∉ s) (n : ℕ) :
    (0 ∈ strncpy s n ++ [c] ∧ cString (strncpy s n ++ [c]) = s.take n) ↔ s.length < n ∨ c = 0 := by
  by_cases hl : s.length < n
  · rw [strncpy_of_lt hl, List.append_assoc, List.cons_append, cString_append h,
      List.take_of_length_le hl.le]
    simp [hl]
  · have htake : (0 : UInt8) ∉ s.take n := fun h0 => h (List.mem_of_mem_take h0)
    rw [strncpy_of_le (not_lt.mp hl), List.mem_append, List.mem_singleton]
    constructor
    · rintro ⟨h0 | h0, -⟩
      · exact absurd h0 htake
      · exact .inr h0.symm
    · rintro (h0 | rfl)
      · exact absurd h0 hl
      · exact ⟨.inr rfl, cString_append htake⟩

end

end LedgerKeePass.CStrings
