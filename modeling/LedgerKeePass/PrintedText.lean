import LedgerKeePass.CStrings

/-!
# Numbers as text

Bytes printed in hexadecimal and numbers printed in decimal, and the Python functions that read
them back. A reader of what was printed gets what it was printed from.
-/
namespace LedgerKeePass.CStrings

/-- `%X` of a number below 16. -/
def upperDigit (n : ℕ) : UInt8 := if n < 10 then UInt8.ofNat (48 + n) else UInt8.ofNat (55 + n)

/-- `%x` of a number below 16. -/
def lowerDigit (n : ℕ) : UInt8 := if n < 10 then UInt8.ofNat (48 + n) else UInt8.ofNat (87 + n)

def printByte (digit : ℕ → UInt8) (v : UInt8) : List UInt8 := [digit (v.toNat / 16), digit (v.toNat % 16)]

def printHex (digit : ℕ → UInt8) (bytes : List UInt8) : List UInt8 := bytes.flatMap (printByte digit)

def printDecLoop : ℕ → ℕ → List UInt8
  | 0, _ => []
  | fuel + 1, n => (if n < 10 then [] else printDecLoop fuel (n / 10)) ++ [UInt8.ofNat (48 + n % 10)]

/-- `%d` of a number that is not negative, which `str` prints in the same way. -/
def printDec (n : ℕ) : List UInt8 := printDecLoop (n + 1) n

/-- `bytes.strip` -/
def strip (s : List UInt8) : List UInt8 := ((s.dropWhile isSpace).reverse.dropWhile isSpace).reverse

/-- `bytes.fromhex`, none where it raises `ValueError`. White space may stand between the bytes. -/
def fromHexText : List UInt8 → Option (List UInt8)
  | [] => some []
  | [a] => if isSpace a then some [] else none
  | a :: b :: s =>
    if isSpace a then fromHexText (b :: s)
    else if isXDigit a && isXDigit b then
      (fromHexText s).map (UInt8.ofNat (16 * digitVal a + digitVal b) :: ·)
    else none

/-- `int` of a text without sign or underscore, none where it raises `ValueError`. -/
def intText (s : List UInt8) : Option ℕ :=
  if strip s ≠ [] ∧ ∀ c ∈ strip s, isDigit c = true then some (number 10 (strip s)) else none

section
variable {s t : List UInt8} {n : ℕ} {v : UInt8} {digit : ℕ → UInt8}

/-- A digit function whose digits have the values that they are printed for. -/
structure Prints (digit : ℕ → UInt8) : Prop where
  isXDigit : ∀ n < 16, isXDigit (digit n) = true
  value : ∀ n < 16, digitVal (digit n) = n

theorem prints_upper : Prints upperDigit where
  isXDigit := by decide
  value := by decide

theorem prints_lower : Prints lowerDigit where
  isXDigit := by decide
  value := by decide

theorem digits_lt (v : UInt8) : v.toNat / 16 < 16 ∧ v.toNat % 16 < 16 := by
  have hv := v.toNat_lt
  omega

theorem printHex_isXDigit (hd : Prints digit) : ∀ c ∈ printHex digit s, isXDigit c = true := by
  intro c hc
  obtain ⟨v, -, hc⟩ := List.mem_flatMap.mp hc
  obtain ⟨hhi, hlo⟩ := digits_lt v
  rcases List.mem_cons.mp hc with rfl | hc
  · exact hd.isXDigit _ hhi
  · rw [List.mem_singleton.mp hc]
    exact hd.isXDigit _ hlo

theorem isSpace_of_isXDigit {c : UInt8} (h : isXDigit c = true) : isSpace c = false := by
  rw [isXDigit_iff] at h
  simp [isSpace]
  omega

theorem digits_value (hd : Prints digit) (v : UInt8) :
    UInt8.ofNat (16 * digitVal (digit (v.toNat / 16)) + digitVal (digit (v.toNat % 16))) = v := by
  obtain ⟨hhi, hlo⟩ := digits_lt v
  rw [hd.value _ hhi, hd.value _ hlo, Nat.div_add_mod]
  exact UInt8.ofNat_toNat

/-- What was printed in hexadecimal is read back. -/
theorem fromHexText_printHex (hd : Prints digit) (s : List UInt8) :
    fromHexText (printHex digit s) = some s := by
  induction s with
  | nil => rfl
  | cons v s ih =>
    obtain ⟨hhi, hlo⟩ := digits_lt v
    have hp : printHex digit (v :: s) =
        digit (v.toNat / 16) :: digit (v.toNat % 16) :: printHex digit s := rfl
    rw [hp, fromHexText, if_neg (by simp [isSpace_of_isXDigit (hd.isXDigit _ hhi)]),
      if_pos (by simp [hd.isXDigit _ hhi, hd.isXDigit _ hlo]), ih, Option.map_some, digits_value hd]

theorem number_append (base : ℕ) (s : List UInt8) (c : UInt8) :
    number base (s ++ [c]) = base * number base s + digitVal c := by
  rw [number, List.foldl_append]
  rfl

theorem digit_isDigit (h : n < 10) : isDigit (UInt8.ofNat (48 + n)) = true ∧
    digitVal (UInt8.ofNat (48 + n)) = n := by
  have hv : (UInt8.ofNat (48 + n)).toNat = 48 + n := by
    rw [UInt8.toNat_ofNat']
    omega
  rw [isDigit_iff, digitVal, hv, if_pos (by omega)]
  omega

theorem printDecLoop_digits (fuel n : ℕ) (h : n < fuel) :
    (∀ c ∈ printDecLoop fuel n, isDigit c = true) ∧ number 10 (printDecLoop fuel n) = n := by
  induction fuel generalizing n with
  | zero => omega
  | succ fuel ih =>
    obtain ⟨hd, hv⟩ := digit_isDigit (Nat.mod_lt n (by decide : 10 > 0))
    rw [printDecLoop, number_append, hv]
    by_cases hn : n < 10
    · rw [if_pos hn]
      refine ⟨by simpa using hd, ?_⟩
      simp only [number, List.foldl_nil]
      omega
    · obtain ⟨hd', hv'⟩ := ih (n / 10) (by omega)
      rw [if_neg hn, hv']
      refine ⟨fun c hc => ?_, by omega⟩
      rcases List.mem_append.mp hc with hc | hc
      · exact hd' c hc
      · rw [List.mem_singleton.mp hc]
        exact hd

theorem printDec_digits (n : ℕ) :
    printDec n ≠ [] ∧ (∀ c ∈ printDec n, isDigit c = true) ∧ number 10 (printDec n) = n := by
  obtain ⟨hd, hv⟩ := printDecLoop_digits (n + 1) n (Nat.lt_succ_self n)
  exact ⟨by simp [printDec, printDecLoop], hd, hv⟩

theorem isSpace_of_isDigit {c : UInt8} (h : isDigit c = true) : isSpace c = false := by
  rw [isDigit_iff] at h
  simp [isSpace]
  omega

/-- White space behind a text is stripped, and nothing of a text with none at its ends. -/
theorem strip_append (hh : ∀ c ∈ s.head?, isSpace c = false) (hl : ∀ c ∈ s.getLast?, isSpace c = false)
    (ht : ∀ c ∈ t, isSpace c = true) : strip (s ++ t) = s := by
  have hrev : ∀ c ∈ t.reverse, isSpace c = true := fun c hc => ht c (List.mem_reverse.mp hc)
  have hfront : (s ++ t).dropWhile isSpace = if s = [] then [] else s ++ t := by
    cases s with
    | nil => simpa using ht
    | cons c s =>
      have hc : isSpace c = false := hh c rfl
      rw [if_neg (List.cons_ne_nil _ _), List.cons_append, List.dropWhile_cons_of_neg (by simp [hc])]
  rw [strip, hfront]
  rcases s.eq_nil_or_concat with rfl | ⟨s', c, rfl⟩
  · rfl
  · have hc : isSpace c = false := hl c (by simp)
    rw [if_neg (by simp), List.reverse_append, List.dropWhile_append_of_pos hrev, List.concat_eq_append,
      List.reverse_append, List.reverse_singleton, List.singleton_append,
      List.dropWhile_cons_of_neg (by simp [hc]), List.reverse_cons, List.reverse_reverse]

theorem strip_solid (hs : ∀ c ∈ s, isSpace c = false) (ht : ∀ c ∈ t, isSpace c = true) :
    strip (s ++ t) = s :=
  strip_append (fun c hc => hs c (List.mem_of_mem_head? hc)) (fun c hc => hs c (List.mem_of_getLast? hc)) ht

theorem strip_printDec (n : ℕ) : strip (printDec n) = printDec n := by
  have h := strip_solid (s := printDec n) (t := [])
    (fun c hc => isSpace_of_isDigit ((printDec_digits n).2.1 c hc)) (by simp)
  rwa [List.append_nil] at h

theorem intText_printDec (n : ℕ) : intText (printDec n) = some n := by
  obtain ⟨hne, hd, hv⟩ := printDec_digits n
  rw [intText, strip_printDec, if_pos ⟨hne, hd⟩, hv]

theorem mapM_intText (ns : List ℕ) :
    (ns.map printDec).mapM (fun v => intText (strip v)) = some ns := by
  induction ns with
  | nil => rfl
  | cons n ns ih =>
    rw [List.map_cons, List.mapM_cons, ih, strip_printDec, intText_printDec]
    rfl

theorem flatMap_separated (x : UInt8) {ls : List (List UInt8)} (h : ls ≠ []) :
    ls.flatMap (fun l => l ++ [x]) = [x].intercalate ls ++ [x] := by
  induction ls with
  | nil => exact absurd rfl h
  | cons l ls ih =>
    rw [List.flatMap_cons]
    by_cases hls : ls = []
    · subst hls
      simp
    · rw [ih hls, List.intercalate_cons_of_ne_nil hls]
      simp

theorem intercalate_ends (x : UInt8) {ls : List (List UInt8)}
    (h : ∀ l ∈ ls, l ≠ [] ∧ ∀ c ∈ l, isSpace c = false) :
    (∀ c ∈ ([x].intercalate ls).head?, isSpace c = false) ∧
      ∀ c ∈ ([x].intercalate ls).getLast?, isSpace c = false := by
  induction ls with
  | nil => simp
  | cons l ls ih =>
    obtain ⟨⟨hne, hl⟩, hls⟩ := List.forall_mem_cons.mp h
    by_cases hn : ls = []
    · subst hn
      simp only [List.intercalate_singleton]
      exact ⟨fun c hc => hl c (List.mem_of_mem_head? hc), fun c hc => hl c (List.mem_of_getLast? hc)⟩
    · have hi : [x].intercalate ls ≠ [] := by
        obtain ⟨l', ls', rfl⟩ := List.exists_cons_of_ne_nil hn
        have hl' := (hls l' List.mem_cons_self).1
        intro h0
        by_cases hn' : ls' = []
        · subst hn'
          exact hl' (by simpa using h0)
        · rw [List.intercalate_cons_of_ne_nil hn'] at h0
          simp at h0
      rw [List.intercalate_cons_of_ne_nil hn]
      refine ⟨fun c hc => hl c ?_, fun c hc => (ih hls).2 c ?_⟩
      · rw [List.append_assoc, List.head?_append_of_ne_nil _ hne] at hc
        exact List.mem_of_mem_head? hc
      · rwa [List.getLast?_append_of_ne_nil _ hi] at hc

/-- Numbers that were printed with a space behind each are read back from the parts between them. -/
theorem mapM_intText_printed {ns : List ℕ} (h : ns ≠ []) :
    ((strip (ns.flatMap (fun n => printDec n ++ [32]) ++ [10])).splitOn 32).mapM
      (fun v => intText (strip v)) = some ns := by
  have hls : ns.map printDec ≠ [] := by simpa using h
  have hsolid : ∀ l ∈ ns.map printDec, l ≠ [] ∧ ∀ c ∈ l, isSpace c = false := by
    intro l hl
    obtain ⟨n, -, rfl⟩ := List.mem_map.mp hl
    obtain ⟨hne, hd, -⟩ := printDec_digits n
    exact ⟨hne, fun c hc => isSpace_of_isDigit (hd c hc)⟩
  have htext : ns.flatMap (fun n => printDec n ++ [32]) ++ [10] =
      [32].intercalate (ns.map printDec) ++ [32, 10] := by
    have hf := flatMap_separated 32 hls
    rw [List.flatMap_map] at hf
    rw [hf, List.append_assoc]
    rfl
  have hend : ∀ c ∈ ([32, 10] : List UInt8), isSpace c = true := by simp [isSpace]
  obtain ⟨hh, hl⟩ := intercalate_ends 32 hsolid
  rw [htext, strip_append hh hl hend, List.splitOn_intercalate 32 _ hls]
  · exact mapM_intText ns
  · intro l hl h32
    exact absurd ((hsolid l hl).2 32 h32) (by decide)

end

end LedgerKeePass.CStrings
