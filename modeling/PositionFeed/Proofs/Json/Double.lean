import PositionFeed.Proofs.Decimal.Positional
import PositionFeed.Proofs.Json.Number

namespace PositionFeed

/-!
# Doubles in JSON

A finite double has a text with a point or an exponent, so the reader takes it
for a number that is not whole.  What it makes of the digits need not be the
double that was written: the digits are the shortest ones that are nearest to
it, and the reader rounds twice.
-/

namespace Json

/-- What the reader makes of the text of a double. -/
def reread? (x : Float) : Option Float :=
  match spelling (Utf8.encode (NumberStyle.json.text x)) with
  | some (number, _) => number.float
  | none => none

/-- The node that the text of a double is read as. -/
def doubleNode (x : Float) : Node :=
  match reread? x with
  | some value => .fraction value
  | none => .unusable

/-- A text with an exponent, of the digits of a number. -/
theorem exists_spelling_exponent
    (negative : Bool)
    (digits : Nat)
    (exponent : Int) :
    ∃ number : Spelling,
      NumberStyle.signed negative
          (Decimal.exponentText (Decimal.digitText digits) exponent) =
        number.text ∧
        number.IsPlain ∧ number.power ≠ none := by
  obtain ⟨first, places, shape⟩ :=
    List.exists_cons_of_ne_nil (digitText_ne_nil digits)
  have all := AllDigits.digitText digits
  rw [shape] at all ⊢
  obtain ⟨firstDigit, placesDigits⟩ := AllDigits.cons_iff.mp all
  let power := exponent + (places.length : Int)
  refine ⟨
    { negative := negative
      whole := [first]
      fraction := if places.isEmpty then none else some places
      power := some (power < 0, Decimal.digitText power.natAbs) }, ?text,
    ?plain, by simp⟩
  case text =>
    cases places <;>
      simp [Decimal.exponentText, Spelling.text, fractionText, powerText, power]
  case plain =>
    refine
      { whole := ⟨?_, by simp⟩
        leading := .inl rfl
        fraction := ?_
        power := ?_ }
    · exact AllDigits.cons_iff.mpr ⟨firstDigit, by simp [AllDigits]⟩
    · cases places with
      | nil =>
          simp
      | cons second more =>
          rintro _ ⟨⟩
          exact ⟨placesDigits, by simp⟩
    · rintro _ ⟨⟩
      exact ⟨AllDigits.digitText _, digitText_ne_nil _⟩

/-- The text of a finite double is spelled with a point or an exponent. -/
theorem exists_spelling
    {x : Float}
    (finite : x.isFinite = true) :
    ∃ number : Spelling,
      NumberStyle.json.text x = number.text ∧
        number.IsPlain ∧
        (number.fraction ≠ none ∨ number.power ≠ none) := by
  rw [Binary64.isFinite_eq] at finite
  rw [NumberStyle.text]
  cases meaning : Binary64.decode x with
  | nan =>
      rw [meaning] at finite
      cases finite
  | infinite negative =>
      rw [meaning] at finite
      cases finite
  | finite negative significand exponent =>
      obtain ⟨bits, small, -, rfl, rfl⟩ :=
        Binary64.exists_bits_of_decode meaning
      obtain ⟨_, _, plain⟩ :=
        Shortest.decimal_bounds NumberStyle.json.tie negative small
      obtain ⟨whole, places, positional, spells⟩ :=
        Decimal.exists_spells plain
      let decimal :=
        Shortest.decimal NumberStyle.json.tie negative
          (Binary64.significandOf bits) (Binary64.exponentOf bits)
      dsimp only
      rcases NumberStyle.json_magnitude positional with point | power <;>
        simp only [*]
      · refine ⟨⟨negative, whole, some places, none⟩, ?_, ?_, .inl (by simp)⟩
        · simp [Spelling.text, fractionText, powerText]
        · exact
            { whole := ⟨spells.wholeDigits, spells.wholeSome⟩
              leading := spells.plain
              fraction := by
                rintro _ ⟨⟩
                exact ⟨spells.fractionDigits, spells.fractionSome⟩
              power := by simp }
      · obtain ⟨number, text, plain, power⟩ :=
          exists_spelling_exponent negative decimal.digits decimal.exponent
        exact ⟨number, text, plain, .inr power⟩

/-- A number with a point or an exponent has a double for its value. -/
theorem numberNode_eq
    {number : Spelling}
    (notWhole : number.fraction ≠ none ∨ number.power ≠ none) :
    numberNode number =
      match number.float with
      | some value => .fraction value
      | none => .unusable := by
  have isDouble : number.value = number.float.map .fraction := by
    obtain ⟨negative, whole, places, counted⟩ := number
    cases places <;> cases counted <;> simp_all [Spelling.value]
  rw [numberNode, isDouble]
  cases number.float <;> rfl

/-- What is read after the text of a finite double. -/
theorem spelling_double
    {x : Float}
    (finite : x.isFinite = true) :
    ∃ number : Spelling,
      NumberStyle.json.text x = number.text ∧
        number.IsPlain ∧ numberNode number = doubleNode x := by
  obtain ⟨number, text, plain, notWhole⟩ := exists_spelling finite
  refine ⟨number, text, plain, ?_⟩
  have read := spelling_text plain endsNumber_nil
  rw [List.append_nil] at read
  rw [numberNode_eq notWhole, doubleNode, reread?, text, read]

end Json

end PositionFeed
