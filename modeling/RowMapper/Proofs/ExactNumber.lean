import Mathlib.Algebra.Order.Field.Power
import Mathlib.Data.Rat.Cast.Order
import Mathlib.Tactic.Linarith
import RowMapper.Value.Native

/-!
# The numbers that values stand for

Floating point and decimal numbers are kept in a written form: a class of bits, a coefficient with
places. Here they are the rational numbers that they stand for, or infinite; what is no number
stands for nothing. Equality of native values is equality of what they stand for, so that it is
symmetric and transitive on all of them, and reflexive on all but those that stand for nothing.

* `BinaryFormat.Holds` says which mantissas and exponents a format has. A number has one of them
  only (`Holds.unique`), which is why comparing them compares the numbers.
* `Binary32.number?_widen` says that every number in single precision is one in double precision.
* `NativeType.equal_iff` characterises the equality by which cells tell whether they changed.
-/

namespace RowMapper

/-- A rational number, or an infinite one. -/
inductive ExactNumber where
  | infinite (negative : Bool)
  | finite (number : ℚ)
  deriving DecidableEq

/-! ## Binary floating point -/

/-- The rational number of a sign, a mantissa and an exponent. -/
def signedPower (negative : Bool) (mantissa : Nat) (exponent : Int) : ℚ :=
  (if negative then -1 else 1) * (mantissa * 2 ^ exponent)

/-- The number that the bits stand for, if they stand for one. -/
def BinaryClass.number? : BinaryClass → Option ExactNumber
  | .nan => none
  | .infinite negative => some (.infinite negative)
  | .finite negative mantissa exponent => some (.finite (signedPower negative mantissa exponent))

namespace BinaryFormat

/-- The exponent of the smallest steps of the format. -/
def bottom (f : BinaryFormat) : Int := 1 - (f.bias : Int) - f.fractionBits

/-- The format has a number with this mantissa and this exponent: the mantissa fits, and unless the
steps are the smallest ones it has all its bits. -/
structure Holds (f : BinaryFormat) (mantissa : Nat) (exponent : Int) : Prop where
  fits : mantissa < 2 ^ (f.fractionBits + 1)
  bottom_le : f.bottom ≤ exponent
  lt_top : exponent < f.topExponent - (f.bias : Int) - f.fractionBits
  full : f.bottom < exponent → 2 ^ f.fractionBits ≤ mantissa

variable {f : BinaryFormat} {m n : Nat} {e d : Int}

/-- The bits of a finite number are held by the format. -/
theorem holds_of_classify {bits : Nat} {negative : Bool}
    (htop : 1 < f.topExponent) (h : f.classify bits = .finite negative m e) : f.Holds m e := by
  have hpower : 2 ^ (f.fractionBits + 1) = 2 ^ f.fractionBits + 2 ^ f.fractionBits := by
    rw [pow_succ]
    omega
  have hfraction : bits % 2 ^ f.fractionBits < 2 ^ f.fractionBits :=
    Nat.mod_lt _ (Nat.two_pow_pos _)
  have hexponent : bits / 2 ^ f.fractionBits % 2 ^ f.exponentBits ≤ f.topExponent :=
    Nat.le_pred_of_lt (Nat.mod_lt _ (Nat.two_pow_pos _))
  unfold classify at h
  dsimp only at h
  split at h
  · split at h <;> cases h
  · rename_i hne
    split at h
    · -- the smallest steps
      cases h
      exact ⟨by omega, le_refl _, by omega, fun habove => absurd habove (lt_irrefl _)⟩
    · cases h
      refine ⟨by omega, ?_, by omega, fun _ => by omega⟩
      unfold bottom
      omega

/-- A number has one mantissa and one exponent in a format. -/
theorem Holds.unique (hm : f.Holds m e) (hn : f.Holds n d)
    (h : (m : ℚ) * 2 ^ e = n * 2 ^ d) : m = n ∧ e = d := by
  wlog hle : e ≤ d generalizing m n e d
  · obtain ⟨hmantissa, hexponent⟩ := this hn hm h.symm (by omega)
    exact ⟨hmantissa.symm, hexponent.symm⟩
  obtain ⟨k, rfl⟩ := Int.exists_add_of_le hle
  have hshift : m = n * 2 ^ k := by
    rw [zpow_add₀ two_ne_zero, zpow_natCast, mul_comm _ ((2 : ℚ) ^ k), ← mul_assoc] at h
    exact_mod_cast mul_right_cancel₀ (zpow_ne_zero e two_ne_zero) h
  cases k with
  | zero => exact ⟨by simpa using hshift, by simp⟩
  | succ k =>
    -- a mantissa with all its bits does not fit any more when it is shifted
    have hfull := hn.full (lt_of_le_of_lt hm.bottom_le (by omega))
    have hfits := hm.fits
    rw [hshift, pow_succ, pow_succ, ← mul_assoc] at hfits
    have hpos : 1 ≤ 2 ^ k := Nat.one_le_two_pow
    have hge : 2 ^ f.fractionBits ≤ n * 2 ^ k :=
      hfull.trans (Nat.le_mul_of_pos_right n hpos)
    omega

end BinaryFormat

/-- A number is zero if its significand is. -/
theorem signedPower_eq_zero {negative : Bool} {m : Nat} {e : Int} :
    signedPower negative m e = 0 ↔ m = 0 := by
  have hpower : (2 : ℚ) ^ e ≠ 0 := zpow_ne_zero e two_ne_zero
  cases negative <;> simp [signedPower, hpower]

/-- Numbers with a sign are equal if sign, mantissa and exponent are, or if both are zero. -/
theorem signedPower_inj {f : BinaryFormat} {s t : Bool} {m n : Nat} {e d : Int}
    (hm : f.Holds m e) (hn : f.Holds n d) :
    signedPower s m e = signedPower t n d ↔ (m = 0 ∧ n = 0) ∨ (s = t ∧ m = n ∧ e = d) := by
  constructor
  · intro h
    by_cases hzero : m = 0
    · left
      refine ⟨hzero, ?_⟩
      rwa [signedPower_eq_zero.2 hzero, eq_comm, signedPower_eq_zero] at h
    · right
      have hpos : 0 < (m : ℚ) * 2 ^ e :=
        mul_pos (Nat.cast_pos.2 (Nat.pos_of_ne_zero hzero)) (zpow_pos two_pos e)
      have hnonneg : 0 ≤ (n : ℚ) * 2 ^ d := mul_nonneg (Nat.cast_nonneg n) (zpow_pos two_pos d).le
      -- a number that is not zero has one sign
      have hsign : s = t := by
        unfold signedPower at h
        cases s with
        | false =>
          cases t with
          | false => rfl
          | true => exact absurd h (by simp; linarith)
        | true =>
          cases t with
          | false => exact absurd h (by simp; linarith)
          | true => rfl
      subst hsign
      have hsame : (m : ℚ) * 2 ^ e = n * 2 ^ d := by
        unfold signedPower at h
        exact mul_left_cancel₀ (by cases s <;> simp) h
      exact ⟨rfl, hm.unique hn hsame⟩
  · rintro (⟨rfl, rfl⟩ | ⟨rfl, rfl, rfl⟩)
    · rw [signedPower_eq_zero.2 rfl, signedPower_eq_zero.2 rfl]
    · rfl

/-- The bits of a number stand for a mantissa and an exponent of the format. -/
def BinaryClass.HeldBy (c : BinaryClass) (f : BinaryFormat) : Prop :=
  ∀ negative mantissa exponent, c = .finite negative mantissa exponent → f.Holds mantissa exponent

/-- Classes of one format are equal if they stand for the same number. -/
theorem BinaryClass.equal_iff {f : BinaryFormat} {c d : BinaryClass} (hc : c.HeldBy f)
    (hd : d.HeldBy f) : c.equal d ↔ ∃ n, c.number? = some n ∧ d.number? = some n := by
  cases c with
  | nan => simp [equal, number?]
  | infinite s =>
    cases d with
    | nan => simp [equal, number?]
    | infinite t => simp [equal, number?, eq_comm (a := t)]
    | finite t n d => simp [equal, number?]
  | finite s m e =>
    cases d with
    | nan => simp [equal, number?]
    | infinite t => simp [equal, number?]
    | finite t n d =>
      have hinj := signedPower_inj (s := s) (t := t) (hc s m e rfl) (hd t n d rfl)
      simp only [equal, number?, Option.some.injEq, exists_eq_left', ExactNumber.finite.injEq]
      rw [eq_comm (a := signedPower t n d), hinj]
      simp [and_assoc]

namespace Binary32

/-- The number that the bits stand for. -/
def number? (x : Binary32) : Option ExactNumber := x.classify.number?

/-- A number of 32 bits is held by the short format. -/
theorem heldBy_classify (x : Binary32) : x.classify.HeldBy .single :=
  fun _ _ _ h => BinaryFormat.holds_of_classify (by decide) h

theorem equal_iff (x y : Binary32) : x.equal y ↔ ∃ n, x.number? = some n ∧ y.number? = some n :=
  BinaryClass.equal_iff x.heldBy_classify y.heldBy_classify

end Binary32

namespace Binary64

/-- The number that the bits stand for. -/
def number? (x : Binary64) : Option ExactNumber := x.classify.number?

/-- A number of 64 bits is held by the long format. -/
theorem heldBy_classify (x : Binary64) : x.classify.HeldBy .double :=
  fun _ _ _ h => BinaryFormat.holds_of_classify (by decide) h

theorem equal_iff (x y : Binary64) : x.equal y ↔ ∃ n, x.number? = some n ∧ y.number? = some n :=
  BinaryClass.equal_iff x.heldBy_classify y.heldBy_classify

end Binary64

/-! ## Widening -/

/-- Bits in double precision that are written part by part are read part by part. -/
theorem classify_double_parts {negative : Bool} {exponent fraction : Nat} (hpos : 0 < exponent)
    (hexponent : exponent < 2047) (hfraction : fraction < 2 ^ 52) :
    BinaryFormat.double.classify
        (doubleBits.signBit negative + exponent * 2 ^ 52 + fraction)
      = .finite negative (2 ^ 52 + fraction) (exponent - 1023 - 52) := by
  have hsign : doubleBits.signBit negative = if negative then 2 ^ 63 else 0 := rfl
  generalize hbits : doubleBits.signBit negative + exponent * 2 ^ 52 + fraction = bits
  -- the three parts of the bits are read back by division
  have hread : bits % 2 ^ 52 = fraction ∧ bits / 2 ^ 52 % 2 ^ 11 = exponent
      ∧ (bits / 2 ^ 63 % 2 == 1) = negative := by
    rw [hsign] at hbits
    cases negative with
    | false =>
      rw [beq_eq_false_iff_ne]
      simp only [Bool.false_eq_true, ↓reduceIte] at hbits
      omega
    | true =>
      rw [beq_iff_eq]
      simp only [↓reduceIte] at hbits
      omega
  show (if bits / 2 ^ 52 % 2 ^ 11 = 2047 then _ else
    if bits / 2 ^ 52 % 2 ^ 11 = 0 then _ else
      BinaryClass.finite (bits / 2 ^ 63 % 2 == 1) (2 ^ 52 + bits % 2 ^ 52)
        ((bits / 2 ^ 52 % 2 ^ 11 : Nat) - 1023 - 52)) = _
  rw [hread.1, hread.2.1, hread.2.2, if_neg (by omega), if_neg (by omega)]

/-- A number with a mantissa and an exponent in single precision has them in double precision, when
its highest bit is moved to where that of a full mantissa stands. -/
theorem number?_doubleBits {s : Bool} {m : Nat} {e : Int} (h : BinaryFormat.single.Holds m e)
    (hm : m ≠ 0) :
    doubleBits (.finite s m e) < 2 ^ 64
      ∧ (BinaryFormat.double.classify (doubleBits (.finite s m e))).number?
        = some (.finite (signedPower s m e)) := by
  have hfits : m < 2 ^ 24 := h.fits
  have hbottom : -149 ≤ e := h.bottom_le
  have htop : e < 255 - 127 - 23 := h.lt_top
  have hle : 2 ^ m.log2 ≤ m := Nat.log2_self_le hm
  have hlt : m < 2 ^ (m.log2 + 1) := Nat.lt_log2_self
  have hlog : m.log2 < 24 := (Nat.log2_lt hm).2 hfits
  have hbits : doubleBits (.finite s m e)
      = doubleBits.signBit s + (e + m.log2 + 1023).toNat * 2 ^ 52
        + (m - 2 ^ m.log2) * 2 ^ (52 - m.log2) := by
    rw [doubleBits, if_neg hm]
    rfl
  -- the bits below the highest one, moved up
  have hmoved : 2 ^ 52 + (m - 2 ^ m.log2) * 2 ^ (52 - m.log2) = m * 2 ^ (52 - m.log2) := by
    have hsplit : 2 ^ m.log2 * 2 ^ (52 - m.log2) = 2 ^ 52 := by
      rw [← pow_add]
      congr 1
      omega
    rw [← hsplit, ← Nat.add_mul, Nat.add_sub_cancel' hle]
  have hmoved_lt : m * 2 ^ (52 - m.log2) < 2 ^ 53 := by
    calc
      m * 2 ^ (52 - m.log2)
      _ < 2 ^ (m.log2 + 1) * 2 ^ (52 - m.log2) :=
        Nat.mul_lt_mul_of_pos_right hlt (Nat.two_pow_pos _)
      _ = 2 ^ 53 := by
        rw [← pow_add]
        congr 1
        omega
  generalize (m - 2 ^ m.log2) * 2 ^ (52 - m.log2) = fraction at hbits hmoved
  have hsign : doubleBits.signBit s ≤ 2 ^ 63 := by cases s <;> decide
  rw [hbits]
  refine ⟨by omega, ?_⟩
  rw [classify_double_parts (by omega) (by omega) (by omega), hmoved, BinaryClass.number?]
  congr 2
  unfold signedPower
  push_cast
  rw [mul_assoc, ← zpow_natCast, ← zpow_add₀ two_ne_zero]
  congr 4
  omega

/-- Every number in single precision is one in double precision. -/
theorem Binary32.number?_widen (x : Binary32) : x.widen.number? = x.number? := by
  have hclassify : doubleBits x.classify < 2 ^ 64
      → x.widen.number? = (BinaryFormat.double.classify (doubleBits x.classify)).number? := by
    intro hlt
    show (BinaryFormat.double.classify (UInt64.ofNat _).toNat).number? = _
    rw [UInt64.toNat_ofNat', Nat.mod_eq_of_lt hlt]
  have hheld := x.heldBy_classify
  unfold number?
  generalize x.classify = c at hclassify hheld ⊢
  cases c with
  | nan =>
    rw [hclassify (by decide)]
    rfl
  | infinite s =>
    rw [hclassify (by cases s <;> decide)]
    cases s <;> rfl
  | finite s m e =>
    -- the bits of a zero are its sign; all others are found by their mantissa and exponent
    by_cases hm : m = 0
    · subst hm
      have hbits : doubleBits (.finite s 0 e) = doubleBits.signBit s := by
        rw [doubleBits, if_pos rfl]
      have hzero : BinaryFormat.double.classify (doubleBits.signBit s) = .finite s 0 (-1074) := by
        cases s <;> rfl
      rw [hbits] at hclassify
      rw [hclassify (by cases s <;> decide), hzero, BinaryClass.number?, BinaryClass.number?,
        signedPower_eq_zero.2 rfl, signedPower_eq_zero.2 rfl]
    · obtain ⟨hlt, hnumber⟩ := number?_doubleBits (s := s) (hheld s m e rfl) hm
      rw [hclassify hlt, hnumber]
      rfl

/-! ## Decimals -/

/-- The number that the coefficient and the places stand for. -/
def Decimal.number (x : Decimal) : ℚ := x.coefficient / 10 ^ x.scale

/-- Decimals are equal if their numbers are, whatever their scales. -/
theorem Decimal.equal_iff (x y : Decimal) : x.equal y ↔ x.number = y.number := by
  have hx : (10 : ℚ) ^ x.scale ≠ 0 := pow_ne_zero _ (by norm_num)
  have hy : (10 : ℚ) ^ y.scale ≠ 0 := pow_ne_zero _ (by norm_num)
  unfold equal number
  rw [beq_iff_eq, div_eq_div_iff hx hy]
  norm_cast

/-! ## Data and native values -/

/-- What a datum stands for: a number of its kind, or itself. -/
inductive Meaning where
  | number (kind : Kind) (number : ExactNumber)
  | itself (datum : Datum)
  deriving DecidableEq

/-- What the datum stands for; what is no number stands for nothing. -/
def Datum.meaning? : Datum → Option Meaning
  | .float32 x => x.number?.map (.number .float32)
  | .float64 x => x.number?.map (.number .float64)
  | .decimal x => some (.number .decimal (.finite x.number))
  | datum => some (.itself datum)

/-- Data are equal if they stand for the same. -/
theorem Datum.equal_iff (x y : Datum) :
    x.equal y ↔ ∃ m, x.meaning? = some m ∧ y.meaning? = some m := by
  have hmap {kind : Kind} {n n' : Option ExactNumber} :
      (∃ m, n.map (Meaning.number kind) = some m ∧ n'.map (Meaning.number kind) = some m)
        ↔ ∃ r, n = some r ∧ n' = some r := by
    constructor
    · rintro ⟨m, hn, hn'⟩
      obtain ⟨r, rfl, rfl⟩ := Option.map_eq_some_iff.1 hn
      obtain ⟨r', rfl, hr'⟩ := Option.map_eq_some_iff.1 hn'
      cases hr'
      exact ⟨r, rfl, rfl⟩
    · rintro ⟨r, rfl, rfl⟩
      exact ⟨_, rfl, rfl⟩
  cases x with
  | float32 x =>
    cases y with
    | float32 y => exact (x.equal_iff y).trans hmap.symm
    | _ => simp [equal, meaning?]
  | float64 x =>
    cases y with
    | float64 y => exact (x.equal_iff y).trans hmap.symm
    | _ => simp [equal, meaning?]
  | decimal x =>
    cases y with
    | decimal y =>
      rw [equal, x.equal_iff y]
      simp [meaning?, eq_comm (a := y.number)]
    | _ => simp [equal, meaning?]
  | _ =>
    -- what is no number stands for itself
    rw [exists_congr fun m => and_comm]
    cases y <;> simp [equal, meaning?]

/-- The bits are marked as no number. -/
def Datum.isNan : Datum → Bool
  | .float32 x => x.classify == .nan
  | .float64 x => x.classify == .nan
  | _ => false

theorem BinaryClass.number?_eq_none {c : BinaryClass} : c.number? = none ↔ c = .nan := by
  cases c <;> simp [number?]

theorem Datum.meaning?_eq_none (x : Datum) : x.meaning? = none ↔ x.isNan := by
  cases x <;>
    simp [meaning?, isNan, Binary32.number?, Binary64.number?, BinaryClass.number?_eq_none]

namespace NativeType

/-- What a native value stands for. Nothing is something that an optional type stands for. -/
def meaning? : (type : NativeType) → type.Carrier → Option (Option Meaning)
  | .required kind, a => (kind.datum a).meaning?.map some
  | .optional kind, some a => (kind.datum a).meaning?.map some
  | .optional _, none => some none

/-- The native value is a floating point datum that is no number. -/
def isNan : (type : NativeType) → type.Carrier → Bool
  | .required kind, a => (kind.datum a).isNan
  | .optional kind, some a => (kind.datum a).isNan
  | .optional _, none => false

/-- Native values are equal if they stand for the same. -/
theorem equal_iff (type : NativeType) (a b : type.Carrier) :
    type.equal a b ↔ ∃ m, type.meaning? a = some m ∧ type.meaning? b = some m := by
  have hdatum (kind : Kind) (a b : kind.Carrier) : (kind.datum a).equal (kind.datum b)
      ↔ ∃ m, (required kind).meaning? a = some m ∧ (required kind).meaning? b = some m := by
    rw [Datum.equal_iff, meaning?, meaning?]
    cases (kind.datum a).meaning? <;> cases (kind.datum b).meaning? <;> simp
  cases type with
  | required kind => exact hdatum kind a b
  | optional kind =>
    cases a with
    | none => cases b <;> simp [equal, meaning?]
    | some a =>
      cases b with
      | none => simp [equal, meaning?]
      | some b => exact hdatum kind a b

/-- Only what is not a number has no meaning. -/
theorem meaning?_eq_none (type : NativeType) (a : type.Carrier) :
    type.meaning? a = none ↔ type.isNan a := by
  cases type with
  | required kind => simp [meaning?, isNan, Datum.meaning?_eq_none]
  | optional kind => cases a <;> simp [meaning?, isNan, Datum.meaning?_eq_none]

/-- Only what is no number differs from itself. -/
theorem equal_self (type : NativeType) (a : type.Carrier) : type.equal a a = !type.isNan a := by
  rw [Bool.eq_iff_iff, equal_iff, Bool.not_eq_true', ← Bool.not_eq_true, ← meaning?_eq_none]
  cases type.meaning? a <;> simp

/-- What is equal to anything is a number, if its type is one of numbers. -/
theorem isNan_of_equal {type : NativeType} {a b : type.Carrier} (h : type.equal a b) :
    type.isNan a = false ∧ type.isNan b = false := by
  obtain ⟨m, ha, hb⟩ := (type.equal_iff a b).1 h
  constructor
  · rw [← Bool.not_eq_true, ← meaning?_eq_none, ha]
    exact Option.some_ne_none m
  · rw [← Bool.not_eq_true, ← meaning?_eq_none, hb]
    exact Option.some_ne_none m

end NativeType

end RowMapper
