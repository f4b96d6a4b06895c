import PositionFeed.Json.Reader
import PositionFeed.Json.Writer
import PositionFeed.Proofs.Decimal.Digits
import PositionFeed.Proofs.Text.Utf8

namespace PositionFeed

/-!
# Numbers in JSON read back

The text of a number does not say where it ends, so what follows must not look
like more of it.  In a document that is always so: a comma, a bracket, a brace
or a line end follows.  Then the reader finds the digits that the writer put
down, part after part.
-/

namespace Json

/-- What follows a number cannot be taken for more of it. -/
def EndsNumber (rest : List UInt8) : Prop :=
  ∀ byte ∈ rest.head?,
    isDigitByte byte = false ∧ byte ≠ 0x2e ∧ byte ≠ 0x65 ∧ byte ≠ 0x45

theorem endsNumber_nil :
    EndsNumber [] := by
  rintro byte ⟨⟩

theorem encodeChar_digit
    {c : Char}
    (digit : c.isDigit = true) :
    ∃ byte,
      Utf8.encodeChar c = [byte] ∧ isDigitByte byte = true ∧
        Char.ofNat byte.toNat = c := by
  have range : 0x30 ≤ c.toNat ∧ c.toNat ≤ 0x39 := by
    simpa [Char.isDigit, UInt32.le_iff_toNat_le] using digit
  have value : (UInt8.ofNat c.toNat).toNat = c.toNat :=
    Utf8.toNat_byte c.toNat (by omega)
  refine ⟨_, Utf8.encodeChar_of_ascii (by omega), ?_, ?_⟩
  · simp [isDigitByte, UInt8.le_iff_toNat_le, value, range]
  · rw [value, Char.ofNat_toNat]

/-- What follows digits is no digit. -/
def EndsDigits (rest : List UInt8) : Prop :=
  ∀ byte ∈ rest.head?, isDigitByte byte = false

theorem EndsNumber.endsDigits
    {rest : List UInt8}
    (ends : EndsNumber rest) :
    EndsDigits rest :=
  fun byte isFirst => (ends byte isFirst).1

theorem digits_of_ends
    {rest : List UInt8}
    (ends : EndsDigits rest) :
    digits rest = ([], rest) := by
  cases rest with
  | nil =>
      rfl
  | cons byte rest =>
      have noDigit := ends byte rfl
      simp [digits, noDigit]

theorem digits_encode
    {text : List Char}
    (all : AllDigits text)
    {rest : List UInt8}
    (ends : EndsDigits rest) :
    digits (Utf8.encode text ++ rest) = (text, rest) := by
  induction text with
  | nil =>
      exact digits_of_ends ends
  | cons c text inductionHypothesis =>
      obtain ⟨digit, all⟩ := AllDigits.cons_iff.mp all
      obtain ⟨byte, shape, isDigit, isChar⟩ := encodeChar_digit digit
      have later := inductionHypothesis all
      simp only [digits, Prod.mk.injEq] at later
      have bytes : Utf8.encode (c :: text) = byte :: Utf8.encode text := by
        rw [Utf8.encode_cons, shape]
        rfl
      simp [digits, bytes, isDigit, isChar, later]

theorem power_of_ends
    {rest : List UInt8}
    (ends : EndsNumber rest) :
    power rest = some (none, rest) := by
  cases rest with
  | nil =>
      rfl
  | cons byte rest =>
      obtain ⟨_, _, noLower, noUpper⟩ := ends byte rfl
      simp [power, noLower, noUpper]

/-! ## Spellings -/

/-- Digits of which there is at least one. -/
def SomeDigits (digits : List Char) : Prop :=
  AllDigits digits ∧ digits ≠ []

/-- The digits after a point, with the point. -/
def fractionText : Option (List Char) → List Char
  | none => []
  | some places => '.' :: places

/-- An exponent, with its mark and its sign. -/
def powerText : Option (Bool × List Char) → List Char
  | none => []
  | some (negative, count) => 'e' :: (if negative then '-' else '+') :: count

/-- The text of a number that is spelled so. -/
def Spelling.text (spelling : Spelling) : List Char :=
  NumberStyle.signed spelling.negative
    (spelling.whole ++
      (fractionText spelling.fraction ++ powerText spelling.power))

/-- A number is spelled as the grammar wants it. -/
structure Spelling.IsPlain (spelling : Spelling) : Prop where
  whole : SomeDigits spelling.whole
  /-- There are no needless zeros before the point. -/
  leading : spelling.whole.length = 1 ∨ spelling.whole.head? ≠ some '0'
  fraction : ∀ places ∈ spelling.fraction, SomeDigits places
  power : ∀ counted ∈ spelling.power, SomeDigits counted.2

theorem power_powerText
    {part : Option (Bool × List Char)}
    (digits : ∀ counted ∈ part, SomeDigits counted.2)
    {rest : List UInt8}
    (ends : EndsNumber rest) :
    power (Utf8.encode (powerText part) ++ rest) = some (part, rest) := by
  cases part with
  | none =>
      exact power_of_ends ends
  | some counted =>
      obtain ⟨negative, count⟩ := counted
      obtain ⟨all, nonempty⟩ := digits _ rfl
      have read := digits_encode all ends.endsDigits
      have shape :
          Utf8.encode (powerText (some (negative, count))) ++ rest =
            0x65 :: (if negative then 0x2d else 0x2b) ::
              (Utf8.encode count ++ rest) := by
        cases negative <;> rfl
      rw [shape]
      cases negative <;> simp [power, read, nonempty]

/-- Whatever may follow the whole digits of a number is no digit. -/
theorem endsDigits_powerText
    (part : Option (Bool × List Char))
    {rest : List UInt8}
    (ends : EndsNumber rest) :
    EndsDigits (Utf8.encode (powerText part) ++ rest) := by
  cases part with
  | none =>
      exact ends.endsDigits
  | some counted =>
      rintro byte ⟨⟩
      decide

theorem fraction_fractionText
    {part : Option (List Char)}
    (digits : ∀ places ∈ part, SomeDigits places)
    (counted : Option (Bool × List Char))
    {rest : List UInt8}
    (ends : EndsNumber rest) :
    fraction
        (Utf8.encode (fractionText part) ++
          (Utf8.encode (powerText counted) ++ rest)) =
      some (part, Utf8.encode (powerText counted) ++ rest) := by
  cases part with
  | none =>
      have noPoint :
          ∀ byte ∈ (Utf8.encode (powerText counted) ++ rest).head?,
            byte ≠ 0x2e := by
        cases counted with
        | none =>
            exact fun byte isFirst => (ends byte isFirst).2.1
        | some counted =>
            rintro byte ⟨⟩
            decide
      change fraction (Utf8.encode (powerText counted) ++ rest) = _
      unfold fraction
      split
      · next shape =>
          exact (noPoint 0x2e (by rw [shape]; rfl) rfl).elim
      · rfl
  | some places =>
      obtain ⟨all, nonempty⟩ := digits _ rfl
      have read := digits_encode all (endsDigits_powerText counted ends)
      have shape :
          Utf8.encode (fractionText (some places)) ++
              (Utf8.encode (powerText counted) ++ rest) =
            0x2e :: (Utf8.encode places ++
              (Utf8.encode (powerText counted) ++ rest)) :=
        rfl
      rw [shape, fraction]
      simp [read, nonempty]

theorem endsDigits_fractionText
    (part : Option (List Char))
    (counted : Option (Bool × List Char))
    {rest : List UInt8}
    (ends : EndsNumber rest) :
    EndsDigits
      (Utf8.encode (fractionText part) ++
        (Utf8.encode (powerText counted) ++ rest)) := by
  cases part with
  | none =>
      exact endsDigits_powerText counted ends
  | some places =>
      rintro byte ⟨⟩
      decide

/-- Text that begins with a digit begins with its byte. -/
theorem encode_eq_cons
    {text : List Char}
    (digits : SomeDigits text) :
    ∃ byte rest,
      Utf8.encode text = byte :: rest ∧ isDigitByte byte = true := by
  obtain ⟨all, nonempty⟩ := digits
  obtain ⟨c, rest, rfl⟩ := List.exists_cons_of_ne_nil nonempty
  obtain ⟨byte, bytes, isDigit, _⟩ :=
    encodeChar_digit (AllDigits.cons_iff.mp all).1
  refine ⟨byte, Utf8.encode rest, ?_, isDigit⟩
  rw [Utf8.encode_cons, bytes]
  rfl

/-- A number is read as it is spelled. -/
theorem spelling_text
    {number : Spelling}
    (plain : number.IsPlain)
    {rest : List UInt8}
    (ends : EndsNumber rest) :
    spelling (Utf8.encode number.text ++ rest) = some (number, rest) := by
  obtain ⟨negative, whole, places, counted⟩ := number
  have wholeDigits : SomeDigits whole := plain.whole
  have wholeRead := digits_encode wholeDigits.1
    (endsDigits_fractionText places counted ends)
  have fractionRead := fraction_fractionText plain.fraction counted ends
  have powerRead := power_powerText plain.power ends
  have leading : whole.head? = some '0' → whole.length ≤ 1 := by
    intro zero
    rcases plain.leading with short | other
    · exact Nat.le_of_eq short
    · exact (other zero).elim
  dsimp only at fractionRead powerRead
  cases negative with
  | true =>
      have shape :
          Utf8.encode (Spelling.text ⟨true, whole, places, counted⟩) ++ rest =
            0x2d :: (Utf8.encode whole ++
              (Utf8.encode (fractionText places) ++
                (Utf8.encode (powerText counted) ++ rest))) := by
        simp [Spelling.text, NumberStyle.signed, Utf8.encode_cons]
        rfl
      rw [shape]
      simpa [spelling, wholeRead, fractionRead, powerRead, wholeDigits.2] using
        leading
  | false =>
      have shape :
          Utf8.encode (Spelling.text ⟨false, whole, places, counted⟩) ++ rest =
            Utf8.encode whole ++
              (Utf8.encode (fractionText places) ++
                (Utf8.encode (powerText counted) ++ rest)) := by
        simp [Spelling.text, NumberStyle.signed]
      obtain ⟨byte, more, begins, isDigit⟩ := encode_eq_cons wholeDigits
      have noSign : byte ≠ 0x2d := by
        rintro rfl
        simp [isDigitByte] at isDigit
      rw [shape]
      rw [begins] at wholeRead ⊢
      simp only [spelling, List.cons_append] at wholeRead ⊢
      split
      · simp_all
      · simpa [wholeRead, fractionRead, powerRead, wholeDigits.2] using leading

theorem plain_digitText
    (negative : Bool)
    (number : Nat) :
    Spelling.IsPlain ⟨negative, Decimal.digitText number, none, none⟩ where
  whole := ⟨AllDigits.digitText number, digitText_ne_nil number⟩
  leading := by
    rcases Nat.eq_zero_or_pos number with rfl | positive
    · exact .inl rfl
    · exact .inr (head?_digitText positive)
  fraction := by simp
  power := by simp

/-- A whole number is spelled by its sign and its digits. -/
theorem integerText_eq
    (value : Int) :
    integerText value =
      Spelling.text
        ⟨value < 0, Decimal.digitText value.natAbs, none, none⟩ := by
  simp [integerText, Spelling.text, fractionText, powerText]

/-- A natural number is spelled by its digits alone. -/
theorem spelling_digitText
    (number : Nat)
    {rest : List UInt8}
    (ends : EndsNumber rest) :
    spelling (Utf8.encode (Decimal.digitText number) ++ rest) =
      some (⟨false, Decimal.digitText number, none, none⟩, rest) := by
  simpa [Spelling.text, NumberStyle.signed, fractionText, powerText] using
    spelling_text (plain_digitText false number) ends

/-- A natural number of 64 bits is read as what it is. -/
theorem numberNode_digitText
    {number : Nat}
    (bounded : number < Word.size 64) :
    numberNode ⟨false, Decimal.digitText number, none, none⟩ =
      .integer number := by
  have within :
      Nat.ofDigitChars 10 (Decimal.digitText number) 0 ≤ significandLimit := by
    rw [ofDigitChars_digitText]
    exact Nat.le_sub_one_of_lt bounded
  simp [numberNode, Spelling.value,
    gather_eq (AllDigits.digitText number) within]

/-- A number begins with a sign or a digit. -/
def StartsNumber (byte : UInt8) : Prop :=
  byte = 0x2d ∨ isDigitByte byte = true

theorem encode_text_eq_cons
    {number : Spelling}
    (plain : number.IsPlain) :
    ∃ byte rest,
      Utf8.encode number.text = byte :: rest ∧ StartsNumber byte := by
  obtain ⟨byte, rest, begins, isDigit⟩ := encode_eq_cons plain.whole
  let unsigned := number.whole ++
    (fractionText number.fraction ++ powerText number.power)
  have shape : Utf8.encode number.text =
      if number.negative then 0x2d :: Utf8.encode unsigned
      else Utf8.encode unsigned := by
    rw [Spelling.text, NumberStyle.signed]
    split
    · rfl
    · rfl
  rw [shape]
  split
  · exact ⟨0x2d, _, rfl, .inl rfl⟩
  · have starts : Utf8.encode unsigned =
        byte :: (rest ++ Utf8.encode
          (fractionText number.fraction ++ powerText number.power)) := by
      rw [Utf8.encode_append, begins]
      rfl
    exact ⟨byte, _, starts, .inr isDigit⟩

/-- Bytes that begin like a number are read as the number that they spell. -/
theorem value_of_start
    {byte : UInt8}
    (start : StartsNumber byte)
    {bytes rest : List UInt8}
    {number : Spelling}
    (spelled : spelling (byte :: bytes) = some (number, rest))
    (fuel : Nat) :
    value (fuel + 1) (byte :: bytes) = (numberNode number, some rest) := by
  have range : byte.toNat = 0x2d ∨ (0x30 ≤ byte.toNat ∧ byte.toNat ≤ 0x39) := by
    rcases start with rfl | isDigit
    · exact .inl rfl
    · right
      simpa [isDigitByte, UInt8.le_iff_toNat_le] using isDigit
  have noBlank :
      ¬ (byte = 0x20 ∨ byte = 0x0a ∨ byte = 0x09 ∨ byte = 0x0d) := by
    rintro (rfl | rfl | rfl | rfl) <;> simp at range
  have begins : skipBlanks (byte :: bytes) = byte :: bytes := by
    simp only [skipBlanks, if_neg noBlank]
  rw [value, begins]
  split <;> simp_all

/-- A natural number of 64 bits is read back. -/
theorem value_digitText
    {number : Nat}
    (bounded : number < Word.size 64)
    (fuel : Nat)
    {rest : List UInt8}
    (ends : EndsNumber rest) :
    value (fuel + 1) (Utf8.encode (Decimal.digitText number) ++ rest) =
      (.integer number, some rest) := by
  have spelled := spelling_digitText number ends
  obtain ⟨byte, bytes, shape, isDigit⟩ :=
    encode_eq_cons ⟨AllDigits.digitText number, digitText_ne_nil number⟩
  rw [shape, List.cons_append] at spelled ⊢
  rw [value_of_start (.inr isDigit) spelled, numberNode_digitText bounded]

end Json

end PositionFeed
