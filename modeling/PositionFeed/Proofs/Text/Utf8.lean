import PositionFeed.Text.Utf8

namespace PositionFeed

/-!
# UTF-8 reads back what it writes, and nothing else

The first byte of an encoded character tells its width, and the payloads of its
bytes put the number of the character together again.  Whatever follows an
encoded character is read as if the character were not there.  Overlong forms
and halves of pairs are refused by their second byte, so a character that is
read was encoded as exactly the bytes that it was read from.
-/

namespace Utf8

/-- The width by the value of the first byte. -/
theorem width?_eq
    (first : UInt8) :
    width? first =
      if first.toNat < 0x80 then some 1
      else if 0xc2 ≤ first.toNat ∧ first.toNat ≤ 0xdf then some 2
      else if 0xe0 ≤ first.toNat ∧ first.toNat ≤ 0xef then some 3
      else if 0xf0 ≤ first.toNat ∧ first.toNat ≤ 0xf4 then some 4
      else none := by
  simp [width?, UInt8.lt_iff_toNat_lt, UInt8.le_iff_toNat_le]

theorem isContinuation_eq
    (byte : UInt8) :
    isContinuation byte = decide (0x80 ≤ byte.toNat ∧ byte.toNat ≤ 0xbf) := by
  simp [isContinuation, UInt8.le_iff_toNat_le]

theorem secondAllowed_eq
    (first second : UInt8) :
    secondAllowed first second =
      if first.toNat = 0xe0 then
        decide (0xa0 ≤ second.toNat ∧ second.toNat ≤ 0xbf)
      else if first.toNat = 0xed then
        decide (0x80 ≤ second.toNat ∧ second.toNat ≤ 0x9f)
      else if first.toNat = 0xf0 then
        decide (0x90 ≤ second.toNat ∧ second.toNat ≤ 0xbf)
      else if first.toNat = 0xf4 then
        decide (0x80 ≤ second.toNat ∧ second.toNat ≤ 0x8f)
      else decide (0x80 ≤ second.toNat ∧ second.toNat ≤ 0xbf) := by
  simp [secondAllowed, isContinuation_eq, UInt8.le_iff_toNat_le,
    ← UInt8.toNat_inj]

/-- No character has the number of half a pair, or one above the last. -/
theorem toNat_range
    (c : Char) :
    c.toNat < 0xd800 ∨ (0xdfff < c.toNat ∧ c.toNat < 0x110000) := by
  have valid := c.valid
  simpa [UInt32.isValidChar, Nat.isValidChar] using valid

/-- Reading a character of two bytes. -/
theorem step_two
    {first second : UInt8}
    (leads : 0xc2 ≤ first.toNat ∧ first.toNat ≤ 0xdf)
    (continues : 0x80 ≤ second.toNat ∧ second.toNat ≤ 0xbf)
    (rest : List UInt8) :
    step first (second :: rest) =
      .character
        (Char.ofNat (first.toNat % 32 * 64 + second.toNat % 64)) 2 := by
  have width : width? first = some 2 := by
    rw [width?_eq, if_neg (by omega), if_pos leads]
  simp [step, width, isContinuation_eq, continues, payload]

/-- Reading a character of three bytes. -/
theorem step_three
    {first second third : UInt8}
    (leads : 0xe0 ≤ first.toNat ∧ first.toNat ≤ 0xef)
    (allowed : secondAllowed first second = true)
    (continues : 0x80 ≤ third.toNat ∧ third.toNat ≤ 0xbf)
    (rest : List UInt8) :
    step first (second :: third :: rest) =
      .character
        (Char.ofNat ((first.toNat % 16 * 64 + second.toNat % 64) * 64 +
          third.toNat % 64)) 3 := by
  have width : width? first = some 3 := by
    rw [width?_eq, if_neg (by omega), if_neg (by omega), if_pos leads]
  simp [step, width, allowed, isContinuation_eq, continues, payload]

/-- Reading a character of four bytes. -/
theorem step_four
    {first second third fourth : UInt8}
    (leads : 0xf0 ≤ first.toNat ∧ first.toNat ≤ 0xf4)
    (allowed : secondAllowed first second = true)
    (continues : 0x80 ≤ third.toNat ∧ third.toNat ≤ 0xbf)
    (ends : 0x80 ≤ fourth.toNat ∧ fourth.toNat ≤ 0xbf)
    (rest : List UInt8) :
    step first (second :: third :: fourth :: rest) =
      .character
        (Char.ofNat (((first.toNat % 8 * 64 + second.toNat % 64) * 64 +
          third.toNat % 64) * 64 + fourth.toNat % 64)) 4 := by
  have width : width? first = some 4 := by
    rw [width?_eq, if_neg (by omega), if_neg (by omega), if_neg (by omega),
      if_pos leads]
  simp [step, width, allowed, isContinuation_eq, continues, ends, payload]

/-- The value of a byte that is written as a number. -/
theorem toNat_byte
    (value : Nat)
    (small : value < 256) :
    (UInt8.ofNat value).toNat = value := by
  rw [UInt8.toNat_ofNat']
  exact Nat.mod_eq_of_lt small

/-- An encoded character is read back, whatever follows. -/
theorem step_encodeChar
    (c : Char)
    (rest : List UInt8) :
    ∃ first tail,
      encodeChar c = first :: tail ∧
        step first (tail ++ rest) = .character c (tail.length + 1) := by
  have range := toNat_range c
  have whole : Char.ofNat c.toNat = c := Char.ofNat_toNat c
  generalize code : c.toNat = n at range whole
  unfold encodeChar
  simp only [code]
  by_cases one : n < 0x80
  · rw [if_pos one]
    have first := toNat_byte n (by omega)
    refine ⟨_, _, rfl, ?_⟩
    simp [step, width?_eq, first, one, whole]
  · have last := toNat_byte (0x80 + n / 1 % 64) (by omega)
    rw [if_neg one]
    by_cases two : n < 0x800
    · have first := toNat_byte (0xc0 + n / 64) (by omega)
      rw [if_pos two]
      refine ⟨_, _, rfl, ?_⟩
      simp only [List.cons_append, List.nil_append, List.length_singleton]
      rw [step_two (by omega) (by omega), first, last, ← whole]
      congr 2
      omega
    · have before := toNat_byte (0x80 + n / 64 % 64) (by omega)
      rw [if_neg two]
      by_cases three : n < 0x10000
      · have first := toNat_byte (0xe0 + n / 4096) (by omega)
        have allowed :
            secondAllowed (UInt8.ofNat (0xe0 + n / 4096))
              (UInt8.ofNat (0x80 + n / 64 % 64)) = true := by
          rw [secondAllowed_eq, first, before]
          repeat' split
          all_goals simp only [decide_eq_true_eq]; omega
        rw [if_pos three]
        refine ⟨_, _, rfl, ?_⟩
        simp only [List.cons_append, List.nil_append, List.length_cons,
          List.length_nil]
        rw [step_three (by omega) allowed (by omega), first, before, last,
          ← whole]
        congr 2
        omega
      · have first := toNat_byte (0xf0 + n / 262144) (by omega)
        have second := toNat_byte (0x80 + n / 4096 % 64) (by omega)
        have allowed :
            secondAllowed (UInt8.ofNat (0xf0 + n / 262144))
              (UInt8.ofNat (0x80 + n / 4096 % 64)) = true := by
          rw [secondAllowed_eq, first, second]
          repeat' split
          all_goals simp only [decide_eq_true_eq]; omega
        rw [if_neg three]
        refine ⟨_, _, rfl, ?_⟩
        simp only [List.cons_append, List.nil_append, List.length_cons,
          List.length_nil]
        rw [step_four (by omega) allowed (by omega) (by omega), first, second,
          before, last, ← whole]
        congr 2
        omega

/-- Decoding goes on behind an encoded character. -/
theorem decodeFrom_encodeChar
    (index : Nat)
    (c : Char)
    (rest : List UInt8) :
    decodeFrom index (encodeChar c ++ rest) =
      (decodeFrom (index + (encodeChar c).length) rest).map (c :: ·) := by
  obtain ⟨first, tail, shape, read⟩ := step_encodeChar c rest
  rw [shape, List.cons_append, decodeFrom, read]
  simp

@[simp] theorem encode_append
    (first second : List Char) :
    encode (first ++ second) = encode first ++ encode second :=
  List.flatMap_append

@[simp] theorem encode_nil :
    encode [] = [] := rfl

theorem encode_cons
    (c : Char)
    (text : List Char) :
    encode (c :: text) = encodeChar c ++ encode text := rfl

@[simp] theorem encode_singleton
    (c : Char) :
    encode [c] = encodeChar c :=
  List.append_nil _

/-- Encoded characters are decoded, from every index on. -/
theorem decodeFrom_encode
    (index : Nat)
    (text : List Char) :
    decodeFrom index (encode text) = .ok text := by
  induction text generalizing index with
  | nil =>
      simp [encode, decodeFrom]
  | cons c text inductionHypothesis =>
      rw [encode_cons, decodeFrom_encodeChar, inductionHypothesis]
      rfl

/-- Decoding gives back what was encoded. -/
@[simp] theorem decode_encode
    (text : List Char) :
    decode (encode text) = .ok text :=
  decodeFrom_encode 0 text

/-! ## The bytes of a character -/

/-- A character of ASCII is one byte. -/
theorem encodeChar_of_ascii
    {c : Char}
    (ascii : c.toNat < 0x80) :
    encodeChar c = [UInt8.ofNat c.toNat] := by
  simp [encodeChar, ascii]

/-- Other characters have no byte of ASCII. -/
theorem le_of_mem_encodeChar
    {c : Char}
    (wide : 0x80 ≤ c.toNat)
    {byte : UInt8}
    (member : byte ∈ encodeChar c) :
    0x80 ≤ byte.toNat := by
  have range := toNat_range c
  unfold encodeChar at member
  simp only [show ¬ c.toNat < 0x80 by omega, ↓reduceIte] at member
  split at member
  · simp only [List.mem_cons, List.not_mem_nil, or_false] at member
    rcases member with rfl | rfl <;> rw [toNat_byte] <;> omega
  · split at member
    · simp only [List.mem_cons, List.not_mem_nil, or_false] at member
      rcases member with rfl | rfl | rfl <;> rw [toNat_byte] <;> omega
    · simp only [List.mem_cons, List.not_mem_nil, or_false] at member
      rcases member with rfl | rfl | rfl | rfl <;> rw [toNat_byte] <;> omega

/-- No character has more than four bytes. -/
theorem length_encodeChar_le
    (c : Char) :
    (encodeChar c).length ≤ 4 := by
  unfold encodeChar
  dsimp only
  split
  · simp
  · split
    · simp
    · split <;> simp

/-- A text has at most four bytes for each character. -/
theorem length_encode_le
    (text : List Char) :
    (encode text).length ≤ 4 * text.length := by
  induction text with
  | nil =>
      simp [encode]
  | cons c text inductionHypothesis =>
      have one := length_encodeChar_le c
      rw [encode_cons, List.length_append, List.length_cons]
      omega

/-- A text has at least one byte for each character. -/
theorem length_le_length_encode
    (text : List Char) :
    text.length ≤ (encode text).length := by
  induction text with
  | nil =>
      simp
  | cons c text inductionHypothesis =>
      have one : 0 < (encodeChar c).length := by
        unfold encodeChar
        dsimp only
        repeat' split
        all_goals simp
      rw [encode_cons, List.length_append, List.length_cons]
      omega

/-! ## What is decoded was encoded so -/

theorem toNat_ofNat
    (code : Nat)
    (valid : code < 0xd800 ∨ (0xdfff < code ∧ code < 0x110000)) :
    (Char.ofNat code).toNat = code := by
  rw [Char.ofNat, dif_pos valid]
  rfl

/-- A byte with a given value. -/
theorem ofNat_eq
    (byte : UInt8)
    {value : Nat}
    (same : byte.toNat = value) :
    UInt8.ofNat value = byte := by
  rw [← same]
  exact UInt8.ofNat_toNat

theorem encodeChar_two
    {first second : UInt8}
    (leads : 0xc2 ≤ first.toNat ∧ first.toNat ≤ 0xdf)
    (continues : 0x80 ≤ second.toNat ∧ second.toNat ≤ 0xbf) :
    encodeChar
        (Char.ofNat (first.toNat % 32 * 64 + second.toNat % 64)) =
      [first, second] := by
  have code := toNat_ofNat (first.toNat % 32 * 64 + second.toNat % 64) (by omega)
  simp only [encodeChar, code]
  rw [if_neg (by omega), if_pos (by omega), ofNat_eq first (by omega),
    ofNat_eq second (by omega)]

theorem encodeChar_three
    {first second third : UInt8}
    (leads : 0xe0 ≤ first.toNat ∧ first.toNat ≤ 0xef)
    (allowed : secondAllowed first second = true)
    (continues : 0x80 ≤ third.toNat ∧ third.toNat ≤ 0xbf) :
    encodeChar
        (Char.ofNat ((first.toNat % 16 * 64 + second.toNat % 64) * 64 +
          third.toNat % 64)) =
      [first, second, third] := by
  have range :
      0x80 ≤ second.toNat ∧ second.toNat ≤ 0xbf ∧
        (first.toNat = 0xe0 → 0xa0 ≤ second.toNat) ∧
        (first.toNat = 0xed → second.toNat ≤ 0x9f) := by
    rw [secondAllowed_eq] at allowed
    repeat' split at allowed
    all_goals simp only [decide_eq_true_eq] at allowed; omega
  have code := toNat_ofNat
    ((first.toNat % 16 * 64 + second.toNat % 64) * 64 + third.toNat % 64)
    (by omega)
  simp only [encodeChar, code]
  rw [if_neg (by omega), if_neg (by omega), if_pos (by omega),
    ofNat_eq first (by omega), ofNat_eq second (by omega),
    ofNat_eq third (by omega)]

theorem encodeChar_four
    {first second third fourth : UInt8}
    (leads : 0xf0 ≤ first.toNat ∧ first.toNat ≤ 0xf4)
    (allowed : secondAllowed first second = true)
    (continues : 0x80 ≤ third.toNat ∧ third.toNat ≤ 0xbf)
    (ends : 0x80 ≤ fourth.toNat ∧ fourth.toNat ≤ 0xbf) :
    encodeChar
        (Char.ofNat (((first.toNat % 8 * 64 + second.toNat % 64) * 64 +
          third.toNat % 64) * 64 + fourth.toNat % 64)) =
      [first, second, third, fourth] := by
  have range :
      0x80 ≤ second.toNat ∧ second.toNat ≤ 0xbf ∧
        (first.toNat = 0xf0 → 0x90 ≤ second.toNat) ∧
        (first.toNat = 0xf4 → second.toNat ≤ 0x8f) := by
    rw [secondAllowed_eq] at allowed
    repeat' split at allowed
    all_goals simp only [decide_eq_true_eq] at allowed; omega
  have code := toNat_ofNat
    (((first.toNat % 8 * 64 + second.toNat % 64) * 64 + third.toNat % 64) * 64 +
      fourth.toNat % 64)
    (by omega)
  simp only [encodeChar, code]
  rw [if_neg (by omega), if_neg (by omega), if_neg (by omega),
    ofNat_eq first (by omega), ofNat_eq second (by omega),
    ofNat_eq third (by omega), ofNat_eq fourth (by omega)]

theorem width?_eq_some
    {first : UInt8}
    {width : Nat}
    (isWidth : width? first = some width) :
    (width = 1 ∧ first.toNat < 0x80) ∨
      (width = 2 ∧ 0xc2 ≤ first.toNat ∧ first.toNat ≤ 0xdf) ∨
      (width = 3 ∧ 0xe0 ≤ first.toNat ∧ first.toNat ≤ 0xef) ∨
      (width = 4 ∧ 0xf0 ≤ first.toNat ∧ first.toNat ≤ 0xf4) := by
  rw [width?_eq] at isWidth
  repeat' split at isWidth
  all_goals simp only [Option.some.injEq, reduceCtorEq] at isWidth
  all_goals omega

section Widths

-- What a first byte of a given width leaves behind, once its character is read.
variable
  {first : UInt8}
  {rest : List UInt8}
  {c : Char}
  {width : Nat}
  (reads : step first rest = .character c width)

include reads

theorem encodeChar_of_step_two
    (isWidth : width? first = some 2)
    (leads : 0xc2 ≤ first.toNat ∧ first.toNat ≤ 0xdf) :
    ∃ second later,
      rest = second :: later ∧ encodeChar c = [first, second] ∧ width = 2 := by
  simp only [step, isWidth] at reads
  split at reads
  · cases reads
  · next second later =>
      rw [isContinuation_eq] at reads
      split at reads
      · next continues =>
          obtain ⟨rfl, rfl⟩ := Step.character.inj reads
          exact ⟨second, later, rfl,
            encodeChar_two leads (of_decide_eq_true continues), rfl⟩
      · cases reads

theorem encodeChar_of_step_three
    (isWidth : width? first = some 3)
    (leads : 0xe0 ≤ first.toNat ∧ first.toNat ≤ 0xef) :
    ∃ second third later,
      rest = second :: third :: later ∧
        encodeChar c = [first, second, third] ∧ width = 3 := by
  simp only [step, isWidth] at reads
  split at reads
  · cases reads
  · next second after =>
      split at reads
      · next allowed =>
          split at reads
          · cases reads
          · next third later =>
              rw [isContinuation_eq] at reads
              split at reads
              · next continues =>
                  obtain ⟨rfl, rfl⟩ := Step.character.inj reads
                  exact ⟨second, third, later, rfl,
                    encodeChar_three leads allowed
                      (of_decide_eq_true continues), rfl⟩
              · cases reads
      · cases reads

theorem encodeChar_of_step_four
    (isWidth : width? first = some 4)
    (leads : 0xf0 ≤ first.toNat ∧ first.toNat ≤ 0xf4) :
    ∃ second third fourth later,
      rest = second :: third :: fourth :: later ∧
        encodeChar c = [first, second, third, fourth] ∧ width = 4 := by
  simp only [step, isWidth] at reads
  split at reads
  · cases reads
  · next second after =>
      split at reads
      · next allowed =>
          split at reads
          · cases reads
          · next third last =>
              rw [isContinuation_eq] at reads
              split at reads
              · next continues =>
                  split at reads
                  · cases reads
                  · next fourth later =>
                      rw [isContinuation_eq] at reads
                      split at reads
                      · next ends =>
                          obtain ⟨rfl, rfl⟩ := Step.character.inj reads
                          exact ⟨second, third, fourth, later, rfl,
                            encodeChar_four leads allowed
                              (of_decide_eq_true continues)
                              (of_decide_eq_true ends), rfl⟩
                      · cases reads
              · cases reads
      · cases reads

/-- A character that is read was encoded as the bytes that it was read from. -/
theorem encodeChar_of_step :
    ∃ tail later,
      rest = tail ++ later ∧ encodeChar c = first :: tail ∧
        width = tail.length + 1 := by
  cases isWidth : width? first with
  | none =>
      simp [step, isWidth] at reads
  | some count =>
      rcases width?_eq_some isWidth with
        ⟨rfl, ascii⟩ | ⟨rfl, leads⟩ | ⟨rfl, leads⟩ | ⟨rfl, leads⟩
      · simp only [step, isWidth, Step.character.injEq] at reads
        obtain ⟨rfl, rfl⟩ := reads
        have code := toNat_ofNat first.toNat (by omega)
        refine ⟨[], rest, rfl, ?_, rfl⟩
        rw [encodeChar_of_ascii (by omega), code, ofNat_eq first rfl]
      · obtain ⟨second, later, rfl, bytes, rfl⟩ :=
          encodeChar_of_step_two reads isWidth leads
        exact ⟨[second], later, rfl, bytes, rfl⟩
      · obtain ⟨second, third, later, rfl, bytes, rfl⟩ :=
          encodeChar_of_step_three reads isWidth leads
        exact ⟨[second, third], later, rfl, bytes, rfl⟩
      · obtain ⟨second, third, fourth, later, rfl, bytes, rfl⟩ :=
          encodeChar_of_step_four reads isWidth leads
        exact ⟨[second, third, fourth], later, rfl, bytes, rfl⟩

end Widths

/-- Bytes that are decoded are the encoding of what they are decoded to. -/
theorem encode_of_decodeFrom
    {index : Nat}
    {bytes : List UInt8}
    {chars : List Char}
    (reads : decodeFrom index bytes = .ok chars) :
    encode chars = bytes := by
  fun_induction decodeFrom index bytes generalizing chars with
  | case1 =>
      cases reads
      rfl
  | case2 index first rest c width isCharacter inductionHypothesis =>
      obtain ⟨tail, later, rfl, shape, rfl⟩ := encodeChar_of_step isCharacter
      simp only [Nat.add_sub_cancel, List.drop_left] at inductionHypothesis reads
      cases decoded : decodeFrom (index + (tail.length + 1)) later with
      | error defect =>
          rw [decoded] at reads
          cases reads
      | ok others =>
          rw [decoded] at reads
          cases reads
          rw [encode_cons, shape, inductionHypothesis decoded]
          rfl
  | case3 =>
      cases reads
  | case4 =>
      cases reads

/-- Bytes are decoded exactly if they encode characters. -/
theorem decode_eq_ok_iff
    {bytes : List UInt8}
    {chars : List Char} :
    decode bytes = .ok chars ↔ bytes = encode chars := by
  constructor
  · intro reads
    exact (encode_of_decodeFrom reads).symm
  · rintro rfl
    exact decode_encode chars

end Utf8

end PositionFeed
