import PositionFeed.Json.Reader
import PositionFeed.Json.Writer
import PositionFeed.Proofs.Text.Utf8

namespace PositionFeed

/-!
# Texts in JSON read back

A character of a text is written as itself or as an escape.  The reader takes
either for parts that stand for the bytes of the character, so a text between
quotes is read back whatever it holds and whatever follows it.
-/

namespace Json

/-- Whether a character is written as an escape with its number. -/
def isNumbered (c : Char) : Bool :=
  c.toNat < 0x20 &&
    ! [0x08, 0x09, 0x0a, 0x0c, 0x0d].contains c.toNat

/-- What the reader sees of a character that was written. -/
def partsOf (c : Char) : List Piece :=
  if isNumbered c then [.unit c.toNat]
  else (Utf8.encodeChar c).map .byte

theorem pieces_byte
    {byte : UInt8}
    (printable : 0x20 ≤ byte.toNat)
    (noQuote : byte.toNat ≠ 0x22)
    (noBackslash : byte.toNat ≠ 0x5c)
    (rest : List UInt8) :
    pieces (byte :: rest) =
      (pieces rest).map fun read => (.byte byte :: read.1, read.2) := by
  rw [pieces.eq_def]
  split
  · simp_all
  · simp_all
  · simp_all
  · simp_all
  · next b r _ _ _ shape =>
      cases shape
      rw [if_neg]
      simp [UInt8.lt_iff_toNat_lt, ← UInt8.toNat_inj]
      omega

theorem pieces_bytes
    {bytes : List UInt8}
    (plain :
      ∀ byte ∈ bytes,
        0x20 ≤ byte.toNat ∧ byte.toNat ≠ 0x22 ∧ byte.toNat ≠ 0x5c)
    (rest : List UInt8) :
    pieces (bytes ++ rest) =
      (pieces rest).map fun read => (bytes.map .byte ++ read.1, read.2) := by
  induction bytes with
  | nil =>
      simp
  | cons byte bytes inductionHypothesis =>
      obtain ⟨⟨printable, noQuote, noBackslash⟩, plain⟩ :=
        List.forall_mem_cons.mp plain
      rw [List.cons_append, pieces_byte printable noQuote noBackslash,
        inductionHypothesis plain, Option.map_map]
      rfl

theorem pieces_letter
    (letter : UInt8)
    {byte : UInt8}
    (escapes : escapedByte? letter = some byte)
    (rest : List UInt8) :
    pieces (0x5c :: letter :: rest) =
      (pieces rest).map fun read => (.byte byte :: read.1, read.2) := by
  have notNumber : letter ≠ 0x75 := by
    rintro rfl
    simp [escapedByte?] at escapes
  rw [pieces.eq_def]
  split
  · simp_all
  · simp_all
  · simp_all
  · simp_all
  · next other shape =>
      cases shape
      exact (other _ _ rfl rfl).elim

theorem pieces_number
    {first second third fourth : UInt8}
    {unit : Nat}
    (spells : hexUnit? first second third fourth = some unit)
    (rest : List UInt8) :
    pieces (0x5c :: 0x75 :: first :: second :: third :: fourth :: rest) =
      (pieces rest).map fun read => (.unit unit :: read.1, read.2) := by
  rw [pieces]
  simp [spells]

theorem toNat_hexDigit_lt :
    ∀ value < 16, (hexDigit value).toNat < 0x80 := by
  decide

/-- Two written digits spell a number below thirty-two. -/
theorem hexUnit?_hexDigit :
    ∀ value < 0x20,
      hexUnit? 0x30 0x30 (UInt8.ofNat (hexDigit (value / 16)).toNat)
        (UInt8.ofNat (hexDigit (value % 16)).toNat) = some value := by
  decide

theorem pieces_numbered
    {value : Nat}
    (small : value < 0x20)
    (rest : List UInt8) :
    pieces (Utf8.encode
        ['\\', 'u', '0', '0', hexDigit (value / 16), hexDigit (value % 16)] ++
          rest) =
      (pieces rest).map fun read => (.unit value :: read.1, read.2) := by
  have high :=
    Utf8.encodeChar_of_ascii (toNat_hexDigit_lt (value / 16) (by omega))
  have low :=
    Utf8.encodeChar_of_ascii (toNat_hexDigit_lt (value % 16) (by omega))
  have bytes :
      Utf8.encode
          ['\\', 'u', '0', '0', hexDigit (value / 16),
            hexDigit (value % 16)] =
        [0x5c, 0x75, 0x30, 0x30,
          UInt8.ofNat (hexDigit (value / 16)).toNat,
          UInt8.ofNat (hexDigit (value % 16)).toNat] := by
    simp only [Utf8.encode, List.flatMap_cons, high, low]
    rfl
  rw [bytes]
  exact pieces_number (hexUnit?_hexDigit value small) rest

/-- The reader takes a written character for its parts. -/
theorem pieces_escaped
    (c : Char)
    (rest : List UInt8) :
    pieces (Utf8.encode (escaped c) ++ rest) =
      (pieces rest).map fun read => (partsOf c ++ read.1, read.2) := by
  unfold escaped
  split
  · exact pieces_letter 0x22 rfl rest
  · exact pieces_letter 0x5c rfl rest
  · exact pieces_letter 0x62 rfl rest
  · exact pieces_letter 0x74 rfl rest
  · exact pieces_letter 0x6e rfl rest
  · exact pieces_letter 0x66 rfl rest
  · exact pieces_letter 0x72 rfl rest
  · next noQuote noBackslash noBack noTab noLine noPage noReturn =>
      simp only [← Char.toNat_inj, Char.reduceToNat] at *
      by_cases control : c.toNat < 0x20
      · have numbered : isNumbered c = true := by
          simp only [isNumbered, control]
          simpa using ⟨noBack, noTab, noLine, noPage, noReturn⟩
        rw [if_pos control, pieces_numbered control, partsOf, if_pos numbered]
        rfl
      · have notNumbered : ¬ isNumbered c = true := by
          simp [isNumbered, control]
        rw [if_neg control, partsOf, if_neg notNumbered]
        rw [Utf8.encode_singleton]
        refine pieces_bytes ?_ rest
        intro byte member
        by_cases ascii : c.toNat < 0x80
        · have isByte : byte = UInt8.ofNat c.toNat := by
            simpa [Utf8.encodeChar_of_ascii ascii] using member
          have value : byte.toNat = c.toNat := by
            rw [isByte, Utf8.toNat_byte _ (by omega)]
          rw [value]
          exact ⟨Nat.le_of_not_lt control, noQuote, noBackslash⟩
        · have wide := Utf8.le_of_mem_encodeChar (by omega) member
          omega

/-- The reader takes a written text for the parts of its characters. -/
theorem pieces_quoted
    (text : List Char)
    (rest : List UInt8) :
    pieces (Utf8.encode (text.flatMap escaped) ++ 0x22 :: rest) =
      some (text.flatMap partsOf, rest) := by
  induction text with
  | nil =>
      rfl
  | cons c text inductionHypothesis =>
      rw [List.flatMap_cons, Utf8.encode_append, List.append_assoc,
        pieces_escaped, inductionHypothesis]
      rfl

/-! ## Putting parts together -/

theorem assemble_bytes
    (bytes : List UInt8)
    (rest : List Piece) :
    assemble (bytes.map .byte ++ rest) =
      (assemble rest).map (bytes ++ ·) := by
  induction bytes with
  | nil =>
      simp
  | cons byte bytes inductionHypothesis =>
      simp only [List.map_cons, List.cons_append, assemble,
        inductionHypothesis, Option.map_map]
      rfl

theorem assemble_unit
    {unit : Nat}
    (small : unit < 0x20)
    (rest : List Piece) :
    assemble (.unit unit :: rest) =
      (assemble rest).map (Utf8.encodeChar (Char.ofNat unit) ++ ·) := by
  have notLeading : isLeading unit = false := by
    simp [isLeading]
    omega
  have notTrailing : isTrailing unit = false := by
    simp [isTrailing]
    omega
  cases rest with
  | nil =>
      simp [assemble, notLeading, notTrailing]
  | cons piece rest =>
      cases piece <;> simp [assemble, notLeading, notTrailing]

theorem assemble_partsOf
    (c : Char)
    (rest : List Piece) :
    assemble (partsOf c ++ rest) =
      (assemble rest).map (Utf8.encodeChar c ++ ·) := by
  unfold partsOf
  split
  · next numbered =>
      have small : c.toNat < 0x20 := by
        simp only [isNumbered, Bool.and_eq_true, decide_eq_true_eq] at numbered
        exact numbered.1
      rw [List.singleton_append, assemble_unit small, Char.ofNat_toNat]
  · exact assemble_bytes _ rest

theorem assemble_flatMap
    (text : List Char) :
    assemble (text.flatMap partsOf) = some (Utf8.encode text) := by
  induction text with
  | nil =>
      rfl
  | cons c text inductionHypothesis =>
      rw [List.flatMap_cons, assemble_partsOf, inductionHypothesis]
      rfl

/-- The parts of the characters of a text are the text. -/
@[simp] theorem pieceText_flatMap
    (text : String) :
    pieceText (text.toList.flatMap partsOf) = some text := by
  simp [pieceText, assemble_flatMap]

theorem encode_quotedText
    (content : String)
    (rest : List UInt8) :
    Utf8.encode (quotedText content) ++ rest =
      0x22 :: (Utf8.encode (content.toList.flatMap escaped) ++
        0x22 :: rest) := by
  simp only [quotedText, Utf8.encode_append, Utf8.encode_cons,
    List.append_assoc]
  rfl

/-- A text between quotes is read back. -/
theorem value_quotedText
    (content : String)
    (fuel : Nat)
    (rest : List UInt8) :
    value (fuel + 1) (Utf8.encode (quotedText content) ++ rest) =
      (.text content, some rest) := by
  have quoted := pieces_quoted content.toList rest
  rw [encode_quotedText, value]
  simp [skipBlanks, quoted]

end Json

end PositionFeed
