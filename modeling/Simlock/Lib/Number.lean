import Mathlib.Algebra.Order.Ring.Int
import Mathlib.Data.List.TakeWhile

/-! The numbers of a language that has only doubles, and how one is read from a text.

    A finite double is a whole number of units of `2^-1074`, the least one; so every value is an
    integer here and none is a fraction. A value that is no double is rounded to the nearest, a tie
    to the even one, and from `2^1024` on to the infinity. Up to `2^53` every integer is a double.

    A text reads as the number it spells in whole: a decimal with an optional exponent, `Infinity`,
    or the digits of another base after `0x`, `0o`, `0b`. Blanks around it are dropped, a text of
    blanks is 0, and any other text is NaN. -/

namespace Simlock.Lib

inductive Number where
  | nan
  | infinite (negative : Bool)
  | finite (units : Int)
  deriving DecidableEq, Repr

namespace Number

/-! ### Rounding -/

/-- The least double is `2 ^ -unitBits`. -/
@[irreducible] def unitBits : Nat := 1074

/-- The units of 1. -/
@[irreducible] def one : Nat := 2 ^ unitBits

/-- The units from which a value is infinite. -/
@[irreducible] def limit : Nat := 2 ^ (1024 + unitBits)

/-- The whole number nearest to `p / q`, a tie to the even one. -/
def nearestEven (p q : Nat) : Nat :=
  if 2 * (p % q) < q then p / q
  else if q < 2 * (p % q) then p / q + 1
  else p / q + p / q % 2

/-- How many units the last of the 53 bits of a value stands for, as a power of two. -/
def lastBit (units : Nat) : Nat := units.log2 - 52

/-- `p / q` units, rounded to 53 bits. -/
def roundUnits (p q : Nat) : Nat :=
  nearestEven p (q * 2 ^ lastBit (p / q)) * 2 ^ lastBit (p / q)

def signed (negative : Bool) (units : Nat) : Number :=
  if limit ≤ units then infinite negative
  else finite (if negative then -(units : Int) else units)

def ofNat (n : Nat) : Number := signed false (roundUnits (n * one) 1)

def ofUnits (units : Int) : Number := signed (units < 0) (roundUnits units.natAbs 1)

/-! ### What rounding keeps -/

theorem nearestEven_mul (m : Nat) {q : Nat} (hq : 0 < q) : nearestEven (m * q) q = m := by
  simp [nearestEven, hq]

theorem le_nearestEven (p q : Nat) : p / q ≤ nearestEven p q := by
  unfold nearestEven
  split
  · exact le_rfl
  · split <;> omega

theorem roundUnits_of_dvd {p : Nat} (h : 2 ^ lastBit p ∣ p) : roundUnits p 1 = p := by
  obtain ⟨m, hm⟩ := h
  have hpow : 0 < 2 ^ lastBit p := Nat.two_pow_pos _
  have hm' : p = m * 2 ^ lastBit p := by rw [Nat.mul_comm]; exact hm
  simp only [roundUnits, Nat.div_one, Nat.one_mul]
  generalize 2 ^ lastBit p = q at hpow hm' ⊢
  rw [hm', nearestEven_mul m hpow]

/-- Rounding stays in the same power of two. -/
theorem log2_le_roundUnits {p : Nat} (hp : p ≠ 0) : 2 ^ p.log2 ≤ roundUnits p 1 := by
  simp only [roundUnits, Nat.div_one, Nat.one_mul]
  have hle : lastBit p ≤ p.log2 := Nat.sub_le ..
  have hpow : 0 < 2 ^ lastBit p := Nat.two_pow_pos _
  calc 2 ^ p.log2 = 2 ^ (p.log2 - lastBit p) * 2 ^ lastBit p := by
        rw [← Nat.pow_add, Nat.sub_add_cancel hle]
    _ ≤ p / 2 ^ lastBit p * 2 ^ lastBit p := by
        refine Nat.mul_le_mul_right _ ((Nat.le_div_iff_mul_le hpow).2 ?_)
        rw [← Nat.pow_add, Nat.sub_add_cancel hle]
        exact Nat.log2_self_le hp
    _ ≤ nearestEven p (2 ^ lastBit p) * 2 ^ lastBit p :=
        Nat.mul_le_mul_right _ (le_nearestEven ..)

theorem roundUnits_pos {p : Nat} (hp : p ≠ 0) : 0 < roundUnits p 1 :=
  lt_of_lt_of_le (Nat.two_pow_pos _) (log2_le_roundUnits hp)

theorem roundUnits_zero : roundUnits 0 1 = 0 := roundUnits_of_dvd (Nat.dvd_zero _)

theorem mul_two_pow_ne_zero {n : Nat} (hn : n ≠ 0) (k : Nat) : n * 2 ^ k ≠ 0 :=
  Nat.mul_ne_zero hn (Nat.two_pow_pos k).ne'

theorem log2_mul_two_pow {n : Nat} (hn : n ≠ 0) (k : Nat) : (n * 2 ^ k).log2 = n.log2 + k := by
  refine (Nat.log2_eq_iff (mul_two_pow_ne_zero hn k)).2 ⟨?_, ?_⟩
  · rw [Nat.pow_add]
    exact Nat.mul_le_mul_right _ (Nat.log2_self_le hn)
  · rw [Nat.add_right_comm, Nat.pow_add]
    exact Nat.mul_lt_mul_of_pos_right Nat.lt_log2_self (Nat.two_pow_pos k)

/-- `53` bits followed by zeros are not rounded. -/
theorem roundUnits_mul_two_pow {n k : Nat} (hn : n ≤ 2 ^ 53) (hk : 0 < k) :
    roundUnits (n * 2 ^ k) 1 = n * 2 ^ k := by
  rcases Nat.eq_zero_or_pos n with rfl | hpos
  · rw [Nat.zero_mul, roundUnits_zero]
  refine roundUnits_of_dvd ?_
  unfold lastBit
  rw [log2_mul_two_pow hpos.ne']
  rcases Nat.lt_or_eq_of_le hn with hlt | rfl
  · have hlog : n.log2 < 53 := (Nat.log2_lt hpos.ne').2 hlt
    exact Dvd.dvd.mul_left (Nat.pow_dvd_pow 2 (by omega)) n
  · rw [Nat.log2_two_pow, ← Nat.pow_add]
    exact Nat.pow_dvd_pow 2 (by omega)

theorem mul_two_pow_le_roundUnits {n : Nat} (k : Nat) (hn : 2 ^ 53 ≤ n) :
    2 ^ 53 * 2 ^ k ≤ roundUnits (n * 2 ^ k) 1 := by
  have hne : n ≠ 0 := (lt_of_lt_of_le (Nat.two_pow_pos 53) hn).ne'
  refine le_trans ?_ (log2_le_roundUnits (mul_two_pow_ne_zero hne k))
  rw [log2_mul_two_pow hne, ← Nat.pow_add]
  exact Nat.pow_le_pow_right (by omega) (Nat.add_le_add_right ((Nat.le_log2 hne).2 hn) k)

theorem limit_pos : 0 < limit := by
  rw [limit]
  exact Nat.two_pow_pos _

theorem one_pos : 0 < one := by
  rw [one]
  exact Nat.two_pow_pos _

theorem safe_lt_limit : 2 ^ 53 * one < limit := by
  rw [one, limit, ← Nat.pow_add]
  exact Nat.pow_lt_pow_right (by omega) (by omega)

/-- Every integer up to `2^53` is a double. -/
theorem ofNat_of_le {n : Nat} (h : n ≤ 2 ^ 53) : ofNat n = finite (n * one : Nat) := by
  have hround : roundUnits (n * one) 1 = n * one := by
    rw [one]
    exact roundUnits_mul_two_pow h (by rw [unitBits]; omega)
  have hlimit : ¬ limit ≤ n * one :=
    Nat.not_le.2 (lt_of_le_of_lt (Nat.mul_le_mul_right _ h) safe_lt_limit)
  rw [ofNat, hround, signed, if_neg hlimit]
  rfl

theorem ofNat_zero : ofNat 0 = finite 0 := by
  rw [ofNat_of_le (Nat.zero_le _), Nat.zero_mul]
  rfl

/-- From `2^53` on an integer may be rounded, to `2^53` at least. -/
theorem ofNat_of_ge {n : Nat} (h : 2 ^ 53 ≤ n) :
    ofNat n = infinite false ∨
      ∃ units : Nat, ofNat n = finite units ∧ 2 ^ 53 * one ≤ units := by
  unfold ofNat signed
  split
  · exact Or.inl rfl
  · refine Or.inr ⟨_, rfl, ?_⟩
    rw [one]
    exact mul_two_pow_le_roundUnits unitBits h

/-! ### Arithmetic -/

def add : Number → Number → Number
  | nan, _ | _, nan => nan
  | infinite s, infinite t => if s = t then infinite s else nan
  | infinite s, finite _ | finite _, infinite s => infinite s
  | finite a, finite b => ofUnits (a + b)

def negate : Number → Number
  | nan => nan
  | infinite s => infinite (!s)
  | finite a => finite (-a)

def sub (x y : Number) : Number := x.add y.negate

/-- How a number compares with 0: NaN does not. -/
def sign : Number → Option Ordering
  | nan => none
  | infinite true => some .lt
  | infinite false => some .gt
  | finite units => some (compare units 0)

/-- How two numbers compare, by their difference. -/
def against (x y : Number) : Option Ordering := (x.sub y).sign

/-- `x >= 0`. -/
def notBelowZero (x : Number) : Bool := x.sign = some .eq || x.sign = some .gt

/-- `x < 0`. -/
def belowZero (x : Number) : Bool := x.sign = some .lt

theorem notBelowZero_iff {x : Number} :
    x.notBelowZero = true ↔ x.sign = some .eq ∨ x.sign = some .gt := by
  rw [notBelowZero, Bool.or_eq_true, decide_eq_true_eq, decide_eq_true_eq]

theorem belowZero_iff {x : Number} : x.belowZero = true ↔ x.sign = some .lt := by
  rw [belowZero, decide_eq_true_eq]

theorem sign_ofUnits (units : Int) : (ofUnits units).sign = some (compare units 0) := by
  rcases lt_trichotomy units 0 with h | rfl | h
  · have hpos := roundUnits_pos (p := units.natAbs) (by omega)
    rw [ofUnits, decide_eq_true h, signed]
    split
    · simp [sign, compare_lt_iff_lt.2 h]
    · have hneg : -((roundUnits units.natAbs 1 : Nat) : Int) < 0 := by omega
      simp only [if_true, sign]
      rw [compare_lt_iff_lt.2 h, compare_lt_iff_lt.2 hneg]
  · rw [ofUnits, Int.natAbs_zero, roundUnits_zero]
    rw [signed, if_neg (Nat.not_le.2 limit_pos)]
    rfl
  · have hpos := roundUnits_pos (p := units.natAbs) (by omega)
    rw [ofUnits, decide_eq_false (by omega), signed]
    split
    · simp [sign, compare_gt_iff_gt.2 h]
    · have hgt : ((roundUnits units.natAbs 1 : Nat) : Int) > 0 := by omega
      simp only [Bool.false_eq_true, if_false, sign]
      rw [compare_gt_iff_gt.2 h, compare_gt_iff_gt.2 hgt]

/-- A difference is rounded, but never to another side of 0. -/
theorem sign_sub_finite (a b : Int) :
    ((finite a).sub (finite b)).sign = some (compare a b) := by
  simp only [sub, negate, add, sign_ofUnits]
  congr 1
  rcases lt_trichotomy a b with h | rfl | h
  · rw [compare_lt_iff_lt.2 h, compare_lt_iff_lt.2 (by omega)]
  · rw [compare_eq_iff_eq.2 rfl, compare_eq_iff_eq.2 (by omega)]
  · rw [compare_gt_iff_gt.2 h, compare_gt_iff_gt.2 (by omega)]

theorem sign_sub_infinite (a : Int) : ((infinite false).sub (finite a)).sign = some .gt := rfl

theorem compare_mul_one (m n : Nat) :
    compare ((m * one : Nat) : Int) ((n * one : Nat) : Int) = compare m n := by
  rcases lt_trichotomy m n with h | rfl | h
  · have hlt := Nat.mul_lt_mul_of_pos_right h one_pos
    rw [compare_lt_iff_lt.2 h, compare_lt_iff_lt.2 (by omega)]
  · rw [compare_eq_iff_eq.2 rfl, compare_eq_iff_eq.2 rfl]
  · have hlt := Nat.mul_lt_mul_of_pos_right h one_pos
    rw [compare_gt_iff_gt.2 h, compare_gt_iff_gt.2 (by omega)]

/-- An integer of any size against one below `2^53`. -/
theorem sign_sub_ofNat (m : Nat) {n : Nat} (hn : n < 2 ^ 53) :
    ((ofNat m).sub (ofNat n)).sign = some (compare m n) := by
  rw [ofNat_of_le hn.le]
  rcases Nat.lt_or_ge m (2 ^ 53) with hm | hm
  · rw [ofNat_of_le hm.le, sign_sub_finite, compare_mul_one]
  have hmn : n < m := lt_of_lt_of_le hn hm
  rw [compare_gt_iff_gt.2 hmn]
  rcases ofNat_of_ge hm with h | ⟨units, h, hle⟩
  · rw [h, sign_sub_infinite]
  · have hlt : n * one < units := lt_of_lt_of_le (Nat.mul_lt_mul_of_pos_right hn one_pos) hle
    rw [h, sign_sub_finite, compare_gt_iff_gt.2 (by omega)]

theorem against_ofNat (m : Nat) {n : Nat} (hn : n < 2 ^ 53) :
    (ofNat m).against (ofNat n) = some (compare m n) := by
  rw [against, sign_sub_ofNat m hn]

/-- Against `2^53` itself: an integer above it may be rounded down to it. -/
theorem sign_sub_two_pow (m : Nat) :
    ((ofNat m).sub (ofNat (2 ^ 53))).sign = some (compare m (2 ^ 53)) ∨
      2 ^ 53 < m ∧ ((ofNat m).sub (ofNat (2 ^ 53))).sign = some .eq := by
  rw [ofNat_of_le (le_refl (2 ^ 53))]
  rcases Nat.lt_or_ge (2 ^ 53) m with hm | hm
  · rw [compare_gt_iff_gt.2 hm]
    rcases ofNat_of_ge hm.le with h | ⟨units, h, hle⟩
    · exact Or.inl (by rw [h, sign_sub_infinite])
    rw [h, sign_sub_finite]
    rcases Nat.lt_or_eq_of_le hle with hlt | heq
    · exact Or.inl (by rw [compare_gt_iff_gt.2 (by omega)])
    · exact Or.inr ⟨hm, by rw [compare_eq_iff_eq.2 (by omega)]⟩
  · rw [ofNat_of_le hm, sign_sub_finite, compare_mul_one]
    exact Or.inl rfl

/-- Adding 1 to an integer below `2^53` is exact. -/
theorem ofNat_add_one {n : Nat} (hn : n < 2 ^ 53) : (ofNat n).add (ofNat 1) = ofNat (n + 1) := by
  have hone : (1 : Nat) ≤ 2 ^ 53 := by omega
  rw [ofNat_of_le hn.le, ofNat_of_le hone, add, ofUnits, ofNat]
  have hsum : ((n * one : Nat) : Int) + ((1 * one : Nat) : Int) =
      (((n + 1) * one : Nat) : Int) := by
    rw [Nat.add_mul]
    exact (Int.natCast_add ..).symm
  rw [hsum, Int.natAbs_natCast, decide_eq_false (by omega)]

/-! ### Reading -/

/-- The white space and line ends that are dropped around a number. -/
def isBlank (c : Char) : Bool :=
  [0x9, 0xA, 0xB, 0xC, 0xD, 0x20, 0xA0, 0x1680, 0x2028, 0x2029, 0x202F, 0x205F, 0x3000,
    0xFEFF].contains c.toNat || (0x2000 ≤ c.toNat && c.toNat ≤ 0x200A)

def trim (text : List Char) : List Char :=
  ((text.dropWhile isBlank).reverse.dropWhile isBlank).reverse

/-- What a character counts for as a digit, up to base 16. -/
def digitOf (c : Char) : Option Nat :=
  if c.isDigit then some (c.toNat - 48)
  else if 97 ≤ c.toNat && c.toNat ≤ 102 then some (c.toNat - 87)
  else if 65 ≤ c.toNat && c.toNat ≤ 70 then some (c.toNat - 55)
  else none

/-- The value of a run of digits of a base, at least one. -/
def readBase (base : Nat) (text : List Char) : Option Nat :=
  if text = [] then none
  else text.foldlM (fun n c => (digitOf c).bind fun d =>
    if d < base then some (base * n + d) else none) 0

/-- The value of decimal digits. -/
def decimal (digits : List Char) : Nat := digits.foldl (fun n c => 10 * n + (c.toNat - 48)) 0

/-- The exponent after an `e`: a sign, and at least one digit. -/
def readExponent (text : List Char) : Option Int :=
  let (negative, digits) := match text with
    | '-' :: rest => (true, rest)
    | '+' :: rest => (false, rest)
    | _ => (false, text)
  if digits ≠ [] && digits.all Char.isDigit then
    some (if negative then -(decimal digits : Int) else decimal digits)
  else none

/-- An unsigned decimal, as its digits and the power of ten they count for. -/
def readDecimal (text : List Char) : Option (Nat × Int) :=
  let whole := text.takeWhile Char.isDigit
  let (fraction, rest) := match text.dropWhile Char.isDigit with
    | '.' :: rest => (rest.takeWhile Char.isDigit, rest.dropWhile Char.isDigit)
    | rest => ([], rest)
  if whole = [] && fraction = [] then none
  else match rest with
    | [] => some (decimal (whole ++ fraction), -(fraction.length : Int))
    | 'e' :: exponent | 'E' :: exponent =>
      (readExponent exponent).map fun e => (decimal (whole ++ fraction), e - fraction.length)
    | _ => none

/-- `m · 10 ^ e`. -/
def scaled (negative : Bool) (m : Nat) (e : Int) : Number :=
  signed negative (roundUnits (m * 10 ^ e.toNat * one) (10 ^ (-e).toNat))

def readUnsigned (negative : Bool) (text : List Char) : Number :=
  if text = "Infinity".toList then infinite negative
  else match readDecimal text with
    | some (m, e) => scaled negative m e
    | none => nan

/-- The number a text spells. -/
def read (text : List Char) : Number :=
  match trim text with
  | [] => finite 0
  | '0' :: 'x' :: rest | '0' :: 'X' :: rest => ((readBase 16 rest).map ofNat).getD nan
  | '0' :: 'o' :: rest | '0' :: 'O' :: rest => ((readBase 8 rest).map ofNat).getD nan
  | '0' :: 'b' :: rest | '0' :: 'B' :: rest => ((readBase 2 rest).map ofNat).getD nan
  | '-' :: rest => readUnsigned true rest
  | '+' :: rest => readUnsigned false rest
  | rest => readUnsigned false rest

theorem decimal_toDigits (n : Nat) : decimal (Nat.toDigits 10 n) = n :=
  Nat.ofDigitChars_ten_toDigits

theorem digit_not_blank {c : Char} (h : c.isDigit = true) : isBlank c = false := by
  obtain ⟨hlow, hhigh⟩ : 48 ≤ c.toNat ∧ c.toNat ≤ 57 := Char.isDigit_iff_toNat.1 h
  have hne : ∀ n, n < 48 ∨ 57 < n → c.toNat ≠ n := fun n hn heq => by omega
  simp only [isBlank, List.contains_eq_mem, List.mem_cons, List.not_mem_nil, or_false]
  simp [hne]
  omega

theorem trim_digits {text : List Char} (h : ∀ c ∈ text, c.isDigit = true) : trim text = text := by
  have hdrop : ∀ l : List Char, (∀ c ∈ l, c.isDigit = true) → l.dropWhile isBlank = l := by
    intro l hl
    cases l with
    | nil => rfl
    | cons c rest =>
      rw [List.dropWhile_cons_of_neg]
      simp [digit_not_blank (hl c List.mem_cons_self)]
  unfold trim
  rw [hdrop text h, hdrop text.reverse fun c hc => h c (List.mem_reverse.1 hc),
    List.reverse_reverse]

theorem readDecimal_digits {text : List Char} (hne : text ≠ [])
    (h : ∀ c ∈ text, c.isDigit = true) : readDecimal text = some (decimal text, 0) := by
  have htake : text.takeWhile Char.isDigit = text := List.takeWhile_eq_self_iff.2 h
  have hdrop : text.dropWhile Char.isDigit = [] := List.dropWhile_eq_nil_iff.2 h
  simp [readDecimal, htake, hdrop, hne]

theorem readUnsigned_digits {text : List Char} (hne : text ≠ [])
    (h : ∀ c ∈ text, c.isDigit = true) : readUnsigned false text = ofNat (decimal text) := by
  have hinfinity : text ≠ "Infinity".toList := by
    rintro rfl
    exact absurd (h 'I' (by decide)) (by decide)
  rw [readUnsigned, if_neg hinfinity, readDecimal_digits hne h]
  simp [scaled, ofNat]

/-- A run of digits reads as its value. -/
theorem read_digits {text : List Char} (hne : text ≠ []) (h : ∀ c ∈ text, c.isDigit = true) :
    read text = ofNat (decimal text) := by
  unfold read
  rw [trim_digits h]
  split
  · exact absurd rfl hne
  all_goals first
    | exact readUnsigned_digits hne h
    | (exfalso; simp at h)

theorem read_toDigits (n : Nat) : read (Nat.toDigits 10 n) = ofNat n := by
  rw [read_digits Nat.toDigits_ne_nil fun c hc =>
    Nat.isDigit_of_mem_toDigits (by omega) (by omega) hc, decimal_toDigits]

example : ["18", " 18", "0x12", "1e3", "-0", "", "18b", "+-1"].map (fun t => read t.toList) =
    [ofNat 18, ofNat 18, ofNat 18, ofNat 1000, ofNat 0, ofNat 0, nan, nan] := by decide +kernel

end Number

end Simlock.Lib
