import Mathlib
import PositionFeed.Decimal.Binary64

namespace PositionFeed

/-!
# Doubles and their bits

A double is its bit pattern, except that all patterns of not-a-number are one.
So every pattern up to infinity is kept when it becomes a double, and a finite
double is a magnitude with a sign.
-/

namespace Binary64

open Float.Model Float.Model.UnpackedFloat

/-- A valid pattern is the one of its double. -/
theorem toBits_ofBits
    {bits : UInt64}
    (valid : Format.binary64.Valid bits.toBitVec) :
    (Float.ofBits bits).toBits = bits :=
  UInt64.toBitVec_inj.mp (pack_unpack_of_valid valid)

theorem toNat_unpackExponent
    (bits : BitVec Format.binary64.numBits) :
    (unpackExponent bits).toNat = bits.toNat / 2 ^ 52 % 2 ^ 11 := by
  simp [unpackExponent, BitVec.extractLsb, Nat.shiftRight_eq_div_pow]

theorem toNat_unpackMantissa
    (bits : BitVec Format.binary64.numBits) :
    (unpackMantissa bits).toNat = bits.toNat % 2 ^ 52 := by
  simp [unpackMantissa, BitVec.extractLsb]

theorem infinityBits_eq :
    infinityBits = 2047 * 2 ^ 52 := rfl

/-- The bits of a magnitude with its sign. -/
def signedBits (negative : Bool) (bits : Nat) : Nat :=
  if negative then bits + 2 ^ 63 else bits

theorem signedBits_mod
    (negative : Bool)
    (bits : Nat) :
    signedBits negative bits % 2 ^ 63 = bits % 2 ^ 63 := by
  cases negative <;> simp [signedBits]

theorem signedBits_lt
    (negative : Bool)
    {bits : Nat}
    (bounded : bits ≤ infinityBits) :
    signedBits negative bits < 2 ^ 64 := by
  rw [infinityBits_eq] at bounded
  cases negative <;> simp [signedBits] <;> omega

/-- Signs leave the bits of a magnitude as they are. -/
theorem toBits_withSign
    (negative : Bool)
    {bits : Nat}
    (bounded : bits ≤ infinityBits) :
    (withSign negative bits).toBits.toNat = signedBits negative bits := by
  have below := signedBits_lt negative bounded
  have value :
      (UInt64.ofNat (signedBits negative bits)).toNat =
        signedBits negative bits := by
    rw [UInt64.toNat_ofNat']
    exact Nat.mod_eq_of_lt below
  have valid :
      Format.binary64.Valid
        (UInt64.ofNat (signedBits negative bits)).toBitVec := by
    refine ⟨fun special notZero => (notZero ?_).elim⟩
    apply BitVec.eq_of_toNat_eq
    have field := congrArg BitVec.toNat special
    rw [toNat_unpackExponent, UInt64.toNat_toBitVec, value] at field
    rw [toNat_unpackMantissa, UInt64.toNat_toBitVec, value]
    change signedBits negative bits / 2 ^ 52 % 2 ^ 11 = 2047 at field
    change signedBits negative bits % 2 ^ 52 = 0
    have unsigned := signedBits_mod negative bits
    rw [infinityBits_eq] at bounded
    omega
  have shape : withSign negative bits =
      Float.ofBits (UInt64.ofNat (signedBits negative bits)) := by
    cases negative <;> rfl
  rw [shape, toBits_ofBits valid, value]

/-- The significand of a finite magnitude. -/
def significandOf (bits : Nat) : Nat :=
  if bits / 2 ^ 52 = 0 then bits else bits % 2 ^ 52 + 2 ^ 52

/-- The exponent of the last place of a finite magnitude. -/
def exponentOf (bits : Nat) : Int :=
  leastExponent + (bits / 2 ^ 52 - 1 : Nat)

/-- What a finite magnitude means, with a sign. -/
theorem decode_withSign
    (negative : Bool)
    {bits : Nat}
    (finite : bits < infinityBits) :
    decode (withSign negative bits) =
      .finite negative (significandOf bits) (exponentOf bits) := by
  rw [decode, toBits_withSign negative (Nat.le_of_lt finite)]
  rw [infinityBits_eq] at finite
  have unsigned := signedBits_mod negative bits
  have sign :
      (signedBits negative bits / Nat.pow 2 63 % 2 == 1) = negative := by
    cases negative <;> simp [signedBits] <;> omega
  have field :
      signedBits negative bits / Nat.pow 2 fractionBits % Nat.pow 2 11 =
        bits / 2 ^ 52 := by
    change signedBits negative bits / 2 ^ 52 % 2 ^ 11 = _
    omega
  have fraction :
      signedBits negative bits % Nat.pow 2 fractionBits = bits % 2 ^ 52 := by
    change signedBits negative bits % 2 ^ 52 = _
    omega
  have notSpecial : ¬ bits / 2 ^ 52 = specialExponent := by
    change ¬ bits / 2 ^ 52 = 2047
    omega
  simp only [decodeBits, sign, field, fraction, if_neg notSpecial]
  by_cases subnormal : bits / 2 ^ 52 = 0
  · have whole : bits % 2 ^ 52 = bits := by
      omega
    simp only [significandOf, exponentOf, if_pos subnormal, whole]
    simp only [subnormal]
    rfl
  · simp only [significandOf, exponentOf, if_neg subnormal]
    rfl

theorem decodeBits_of_special
    {bits : Nat}
    (special : bits / 2 ^ 52 % 2 ^ 11 = 2047) :
    decodeBits bits =
      if bits % 2 ^ 52 = 0 then .infinite (bits / 2 ^ 63 % 2 == 1)
      else .nan :=
  if_pos special

/-- Every finite double is a finite magnitude with a sign. -/
theorem exists_bits_of_decode
    {x : Float}
    {negative : Bool}
    {significand : Nat}
    {exponent : Int}
    (finite : decode x = .finite negative significand exponent) :
    ∃ bits < infinityBits,
      x = withSign negative bits ∧ significand = significandOf bits ∧
        exponent = exponentOf bits := by
  let whole := x.toBits.toNat
  let sign := whole / 2 ^ 63 % 2 == 1
  have bounded : whole < 2 ^ 64 := x.toBits.toNat_lt
  have notSpecial : ¬ whole / 2 ^ 52 % 2 ^ 11 = 2047 := by
    intro special
    rw [decode, decodeBits_of_special special] at finite
    split at finite <;> cases finite
  have magnitude : whole % 2 ^ 63 < infinityBits := by
    rw [infinityBits_eq]
    omega
  have signed : signedBits sign (whole % 2 ^ 63) = whole := by
    cases isNegative : sign with
    | true =>
        have high : whole / 2 ^ 63 % 2 = 1 := by
          simpa [sign] using isNegative
        simp only [signedBits, ↓reduceIte]
        omega
    | false =>
        have high : ¬ whole / 2 ^ 63 % 2 = 1 := by
          simpa [sign] using isNegative
        simp only [signedBits, Bool.false_eq_true, ↓reduceIte]
        omega
  have isWithSign : x = withSign sign (whole % 2 ^ 63) := by
    have kept :
        UInt64.ofNat (signedBits sign (whole % 2 ^ 63)) = x.toBits := by
      rw [signed]
      exact UInt64.ofNat_toNat
    calc
      x = Float.ofBits x.toBits := (Float.ofBits_toBits x).symm
      _ = withSign sign (whole % 2 ^ 63) := by
        rw [← kept]
        rfl
  have meaning := decode_withSign sign magnitude
  rw [← isWithSign, finite] at meaning
  obtain ⟨rfl, rfl, rfl⟩ := Value.finite.inj meaning
  exact ⟨_, magnitude, isWithSign, rfl, rfl⟩

/-! ## Special values -/

/-- A pattern is special for the model when its exponent field is full. -/
theorem unpackExponent_eq_iff
    (bits : BitVec Format.binary64.numBits) :
    unpackExponent bits = -1#11 ↔ bits.toNat / 2 ^ 52 % 2 ^ 11 = 2047 := by
  rw [← BitVec.toNat_inj, toNat_unpackExponent]
  exact Iff.rfl

theorem isFinite_unpack
    (bits : BitVec Format.binary64.numBits) :
    (UnpackedFloat.unpack Format.binary64 bits).isFinite =
      decide (¬ bits.toNat / 2 ^ 52 % 2 ^ 11 = 2047) := by
  simp only [← unpackExponent_eq_iff, UnpackedFloat.unpack]
  by_cases special : unpackExponent bits = -1#11
  · rw [if_pos special]
    simp only [special, not_true_eq_false, decide_false]
    split <;> rfl
  · rw [if_neg special]
    simp only [special, not_false_eq_true, decide_true]
    split
    · split <;> rfl
    · rfl

/-- A double is finite if its exact value is. -/
theorem isFinite_eq
    (x : Float) :
    x.isFinite = (decode x).isFinite := by
  have model : x.isFinite =
      decide (¬ x.toBits.toNat / 2 ^ 52 % 2 ^ 11 = 2047) :=
    isFinite_unpack x.toBits.toBitVec
  rw [model, decode]
  by_cases special : x.toBits.toNat / 2 ^ 52 % 2 ^ 11 = 2047
  · rw [decodeBits_of_special special]
    simp only [special, not_true_eq_false, decide_false]
    split <;> rfl
  · have notSpecial :
        ¬ x.toBits.toNat / Nat.pow 2 fractionBits % Nat.pow 2 11 =
          specialExponent := special
    simp only [special, not_false_eq_true, decide_true, decodeBits,
      if_neg notSpecial]
    split <;> rfl

theorem special_of_decode
    {x : Float}
    (special : (decode x).isFinite = false) :
    x.toBits.toNat / 2 ^ 52 % 2 ^ 11 = 2047 := by
  rw [← isFinite_eq] at special
  have model : x.isFinite =
      decide (¬ x.toBits.toNat / 2 ^ 52 % 2 ^ 11 = 2047) :=
    isFinite_unpack x.toBits.toBitVec
  simpa [special] using model

/-- There is only one not-a-number. -/
theorem eq_nan_of_decode
    {x : Float}
    (isNan : decode x = .nan) :
    x = nan := by
  have notFinite : (decode x).isFinite = false := by
    rw [isNan]
    rfl
  have special := special_of_decode notFinite
  rw [decode, decodeBits_of_special special] at isNan
  have fraction : ¬ x.toBits.toNat % 2 ^ 52 = 0 := by
    intro zero
    rw [if_pos zero] at isNan
    cases isNan
  have canonical := by
    refine x.toModel.valid.eq_packedNaN
      ((unpackExponent_eq_iff _).mpr special) fun zero => fraction ?_
    have field := congrArg BitVec.toNat zero
    rw [toNat_unpackMantissa] at field
    exact field
  have bits : x.toBits = 0x7ff8000000000000 := UInt64.toBitVec_inj.mp canonical
  rw [← Float.ofBits_toBits x, bits]
  rfl

theorem eq_infinity_of_decode
    {x : Float}
    {negative : Bool}
    (isInfinite : decode x = .infinite negative) :
    x = infinity negative := by
  have notFinite : (decode x).isFinite = false := by
    rw [isInfinite]
    rfl
  have special := special_of_decode notFinite
  rw [decode, decodeBits_of_special special] at isInfinite
  have bounded : x.toBits.toNat < 2 ^ 64 := x.toBits.toNat_lt
  split at isInfinite
  · next zero =>
      have sign : (x.toBits.toNat / 2 ^ 63 % 2 == 1) = negative :=
        Value.infinite.inj isInfinite
      have bits : x.toBits.toNat = signedBits negative infinityBits := by
        rw [infinityBits_eq]
        cases negative <;> simp [signedBits] at sign ⊢ <;> omega
      rw [← Float.ofBits_toBits x, ← UInt64.ofNat_toNat (x := x.toBits), bits]
      cases negative <;> rfl
  · cases isInfinite

end Binary64

end PositionFeed
