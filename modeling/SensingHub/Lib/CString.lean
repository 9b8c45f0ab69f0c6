import Mathlib.Algebra.Group.Int.Defs
import Mathlib.Algebra.Group.Nat.Defs
import Mathlib.Data.Int.Notation
import Mathlib.Data.List.TakeWhile
import Mathlib.Tactic.Common

/-!
# Bytes, C strings and decimal numbers

Bytes are `UInt8`; memory is a list of them. A C string is what stands before the first NUL, and
reading one from memory without a NUL is undefined, here `none`. `strchr` and the number conversions
follow the C library in the "C" locale: `strtol` skips white space, takes a sign and as many digits
as there are; `atoi` is its result cut down to 32 bits, `stoi` throws instead.
-/

/-- A string of bytes. -/
abbrev Bytes := List UInt8

namespace CLib

/-- The bytes of a string literal. -/
def str (s : String) : Bytes :=
  s.toList.map fun c ↦ UInt8.ofNat c.toNat

/-- `isspace`: blank, and the control characters from horizontal tab to carriage return. -/
def isspace (b : UInt8) : Bool :=
  b = 32 || (9 ≤ b && b ≤ 13)

/-! ### Reading strings from memory -/

/-- The C string at the start of a piece of memory. -/
def cString : Bytes → Option Bytes
  | [] => none
  | b :: bs => if b = 0 then some [] else (cString bs).map (b :: ·)

/-- `strchr`: the offset of the first `c` in the C string at the start of a piece of memory; the
outer `none` is a scan that leaves the memory. -/
def strchr (c : UInt8) : Bytes → Option (Option ℕ)
  | [] => none
  | b :: bs =>
    if b = c then some (some 0)
    else if b = 0 then some none
    else (strchr c bs).map (Option.map (· + 1))

theorem cString_append {k : Bytes} (hk : 0 ∉ k) (post : Bytes) :
    cString (k ++ 0 :: post) = some k := by
  induction k with
  | nil => simp [cString]
  | cons b k ih =>
    simp only [List.mem_cons, not_or] at hk
    simp [cString, Ne.symm hk.1, ih hk.2]

/-- A C string is what stands before the first NUL. -/
theorem cString_eq_some_iff {b s : Bytes} :
    cString b = some s ↔ 0 ∉ s ∧ ∃ post, b = s ++ 0 :: post := by
  constructor
  · intro h
    induction b generalizing s with
    | nil => cases h
    | cons c b ih =>
      rw [cString] at h
      split_ifs at h with hnul
      · obtain rfl := Option.some.inj h
        exact ⟨List.not_mem_nil, b, by rw [hnul, List.nil_append]⟩
      · obtain ⟨t, ht, rfl⟩ := Option.map_eq_some_iff.1 h
        obtain ⟨hfree, post, rfl⟩ := ih ht
        refine ⟨?_, post, rfl⟩
        rw [List.mem_cons, not_or]
        exact ⟨Ne.symm hnul, hfree⟩
  · rintro ⟨hfree, post, rfl⟩
    exact cString_append hfree post

/-- A string that ends within a piece of memory is the string in all of the memory. -/
theorem cString_append_of_eq_some {b s : Bytes} (h : cString b = some s) (post : Bytes) :
    cString (b ++ post) = some s := by
  obtain ⟨hfree, rest, rfl⟩ := cString_eq_some_iff.1 h
  rw [List.append_assoc]
  exact cString_append hfree _

/-- A string that a NUL ends can be read. -/
theorem exists_cString_of_getElem? {b : Bytes} {k : ℕ} (h : b[k]? = some 0) :
    ∃ s, cString b = some s := by
  induction b generalizing k with
  | nil => cases h
  | cons c b ih =>
    rw [cString]
    split_ifs with hnul
    · exact ⟨[], rfl⟩
    · rcases k with _ | k
      · exact absurd (Option.some.inj h) hnul
      · obtain ⟨s, hs⟩ := ih h
        rw [hs]
        exact ⟨_, rfl⟩

/-- A scan does not go beyond a NUL, and what it finds stands before it. -/
theorem exists_strchr_of_getElem? {c : UInt8} (hc : c ≠ 0) {b : Bytes} {k : ℕ}
    (h : b[k]? = some 0) : ∃ found, strchr c b = some found ∧ ∀ i, found = some i → i < k := by
  induction b generalizing k with
  | nil => cases h
  | cons d b ih =>
    rw [strchr]
    split_ifs with hfound hnul
    · refine ⟨_, rfl, ?_⟩
      rintro i ⟨⟩
      rcases k with _ | k
      · exact absurd (hfound.symm.trans (Option.some.inj h)) hc
      · exact Nat.succ_pos k
    · refine ⟨_, rfl, ?_⟩
      rintro i ⟨⟩
    · rcases k with _ | k
      · exact absurd (Option.some.inj h) hnul
      · obtain ⟨found, hrun, hlt⟩ := ih h
        rw [hrun]
        refine ⟨_, rfl, fun i hi ↦ ?_⟩
        obtain ⟨j, hj, rfl⟩ := Option.map_eq_some_iff.1 hi
        exact Nat.succ_lt_succ (hlt j hj)

/-- `strlcpy` into a buffer of `size` bytes keeps the first `size - 1` bytes of the string. -/
def strlcpy (value : Bytes) (size : ℕ) : Bytes :=
  value.take (size - 1)

/-! ### Numbers -/

/-- The decimal digits. -/
def isDigit (b : UInt8) : Bool :=
  48 ≤ b && b ≤ 57

/-- The value of a string of digits. -/
def digitsValue (ds : Bytes) : ℕ :=
  ds.foldl (fun n d ↦ 10 * n + (d.toNat - 48)) 0

/-- The number at the start of a string, `none` when there is no digit. -/
def leadingNumber (s : Bytes) : Option ℤ :=
  match s.takeWhile isDigit with
  | [] => none
  | ds => some (digitsValue ds)

/-- `strtol` with base 10, before the result is brought into range; `none` when there is no
digit. -/
def strtol (s : Bytes) : Option ℤ :=
  match s.dropWhile isspace with
  | 45 :: t => (leadingNumber t).map (- ·)
  | 43 :: t => leadingNumber t
  | t => leadingNumber t

/-- The range of `long`. -/
def clampLong (n : ℤ) : ℤ :=
  max (-2 ^ 63) (min n (2 ^ 63 - 1))

/-- Conversion to a 32-bit `int`. -/
def toInt32 (n : ℤ) : ℤ :=
  n.bmod (2 ^ 32)

/-- `atoi`: the `long` that `strtol` returns, converted to `int`; 0 without a digit. -/
def atoi (s : Bytes) : ℤ :=
  toInt32 (clampLong ((strtol s).getD 0))

/-- What `std::stoi` throws. -/
inductive StoiError
  | invalidArgument
  | outOfRange
  deriving DecidableEq, Repr

/-- `std::stoi`. -/
def stoi (s : Bytes) : Except StoiError ℤ :=
  match strtol s with
  | none => .error .invalidArgument
  | some n => if -2 ^ 31 ≤ n ∧ n < 2 ^ 31 then .ok n else .error .outOfRange

/-- `std::getline` over a string stream until it fails: the pieces between the delimiters, without
an empty last one. -/
def getlines (delim : UInt8) (s : Bytes) : List Bytes :=
  let pieces := s.splitOn delim
  if pieces.getLast? = some [] then pieces.dropLast else pieces

theorem isspace_of_isDigit {b : UInt8} (h : isDigit b = true) : isspace b = false := by
  simp only [isDigit, Bool.and_eq_true, decide_eq_true_eq, UInt8.le_iff_toNat_le] at h
  simp only [isspace, Bool.or_eq_false_iff, Bool.and_eq_false_iff, decide_eq_false_iff_not,
    UInt8.le_iff_toNat_le, ← UInt8.toNat_inj]
  simp only [UInt8.reduceToNat] at h ⊢
  omega

/-- A string of digits converts to its value. -/
theorem strtol_digits {ds : Bytes} (hne : ds ≠ []) (hds : ∀ b ∈ ds, isDigit b = true) :
    strtol ds = some (digitsValue ds : ℤ) := by
  obtain ⟨d, rest, rfl⟩ := List.exists_cons_of_ne_nil hne
  have hd := hds d (List.mem_cons_self ..)
  have hskip : (d :: rest).dropWhile isspace = d :: rest := by
    rw [List.dropWhile_cons, isspace_of_isDigit hd]
    rfl
  have hall : (d :: rest).takeWhile isDigit = d :: rest := List.takeWhile_eq_self_iff.2 hds
  have hminus : d ≠ 45 := by rintro rfl; exact absurd hd (by decide)
  have hplus : d ≠ 43 := by rintro rfl; exact absurd hd (by decide)
  unfold strtol
  rw [hskip]
  split
  · next heq => exact absurd (List.cons.inj heq).1 hminus
  · next heq => exact absurd (List.cons.inj heq).1 hplus
  · rw [leadingNumber, hall]

theorem toInt32_of_lt {n : ℤ} (hlo : -2 ^ 31 ≤ n) (hhi : n < 2 ^ 31) : toInt32 n = n := by
  rw [toInt32, Int.bmod_eq_of_le] <;> omega

theorem atoi_digits {ds : Bytes} (hne : ds ≠ []) (hds : ∀ b ∈ ds, isDigit b = true)
    (hval : digitsValue ds < 2 ^ 31) : atoi ds = digitsValue ds := by
  have hclamp : clampLong (digitsValue ds : ℤ) = digitsValue ds := by
    unfold clampLong
    omega
  rw [atoi, strtol_digits hne hds, Option.getD_some, hclamp]
  exact toInt32_of_lt (by omega) (by omega)

/-! ### Numbers as strings -/

/-- The last `k` decimal digits of a number. -/
def decimal : ℕ → ℕ → Bytes
  | 0, _ => []
  | k + 1, n => decimal k (n / 10) ++ [UInt8.ofNat (48 + n % 10)]

@[simp] theorem length_decimal (k n : ℕ) : (decimal k n).length = k := by
  induction k generalizing n with
  | zero => rfl
  | succ k ih => rw [decimal, List.length_append, ih, List.length_singleton]

theorem toNat_digit (n : ℕ) : (UInt8.ofNat (48 + n % 10)).toNat = 48 + n % 10 := by
  rw [UInt8.toNat_ofNat']
  exact Nat.mod_eq_of_lt (by omega)

theorem isDigit_of_mem_decimal {k n : ℕ} {b : UInt8} (h : b ∈ decimal k n) : isDigit b = true := by
  induction k generalizing n with
  | zero => cases h
  | succ k ih =>
    rcases List.mem_append.1 h with h | h
    · exact ih h
    · have hb := toNat_digit n
      rw [← List.mem_singleton.1 h] at hb
      simp only [isDigit, Bool.and_eq_true, decide_eq_true_eq, UInt8.le_iff_toNat_le]
      simp only [UInt8.reduceToNat]
      omega

theorem digitsValue_append (ds : Bytes) (b : UInt8) :
    digitsValue (ds ++ [b]) = 10 * digitsValue ds + (b.toNat - 48) :=
  List.foldl_append ..

/-- A number is the value of its digits if there are enough of them. -/
theorem digitsValue_decimal {k n : ℕ} (h : n < 10 ^ k) : digitsValue (decimal k n) = n := by
  induction k generalizing n with
  | zero =>
    rw [Nat.lt_one_iff.1 h]
    rfl
  | succ k ih =>
    have hn : n / 10 < 10 ^ k := by
      rw [pow_succ] at h
      omega
    rw [decimal, digitsValue_append, ih hn, toNat_digit]
    omega

end CLib
