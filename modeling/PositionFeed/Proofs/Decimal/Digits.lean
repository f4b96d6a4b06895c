import Mathlib.Algebra.Group.Nat.Defs
import PositionFeed.Decimal.Layout
import PositionFeed.Decimal.Literal
import PositionFeed.Json.Number

namespace PositionFeed

/-!
# Decimal digits read back

All readers of numbers gather digits from the left, each with a limit of its
own.  As long as the limit is not passed they agree with `Nat.ofDigitChars`,
which undoes `Nat.toDigits`.
-/

/-- A text of ASCII digits. -/
def AllDigits (digits : List Char) : Prop :=
  ∀ c ∈ digits, c.isDigit = true

namespace AllDigits

theorem cons_iff
    {c : Char}
    {digits : List Char} :
    AllDigits (c :: digits) ↔ c.isDigit = true ∧ AllDigits digits :=
  List.forall_mem_cons

theorem append
    {first second : List Char}
    (left : AllDigits first)
    (right : AllDigits second) :
    AllDigits (first ++ second) := by
  intro c member
  rcases List.mem_append.mp member with inFirst | inSecond
  · exact left c inFirst
  · exact right c inSecond

theorem zeros (count : Nat) :
    AllDigits (List.replicate count '0') := by
  intro c member
  rw [List.eq_of_mem_replicate member]
  rfl

theorem digitText (value : Nat) :
    AllDigits (Decimal.digitText value) := by
  intro c member
  exact Nat.isDigit_of_mem_toDigits (by decide) (by decide) member

theorem of_sublist
    {first second : List Char}
    (right : AllDigits second)
    (sublist : first.Sublist second) :
    AllDigits first := by
  intro c member
  exact right c (sublist.subset member)

end AllDigits

theorem digitValue?_of_isDigit
    {c : Char}
    (digit : c.isDigit = true) :
    digitValue? c = some (c.toNat - '0'.toNat) := by
  have range : '0' ≤ c ∧ c ≤ '9' := by
    simpa [Char.isDigit, Char.le_def] using digit
  simp [digitValue?, range]

theorem digitValue?_eq_none
    {c : Char}
    (noDigit : c.isDigit = false) :
    digitValue? c = none := by
  unfold digitValue?
  rw [if_neg]
  rintro ⟨low, high⟩
  simp [Char.isDigit, Char.le_def] at noDigit low high
  exact absurd high (by simpa using noDigit low)

theorem isDigit_eq
    (c : Char) :
    isDigit c = c.isDigit := by
  cases digit : c.isDigit with
  | true =>
      simp [isDigit, digitValue?_of_isDigit digit]
  | false =>
      simp [isDigit, digitValue?_eq_none digit]

theorem isAlpha_of_isDigit
    {c : Char}
    (digit : c.isDigit = true) :
    c.isAlpha = false := by
  have high : c.val ≤ '9'.val :=
    of_decide_eq_true (Bool.and_eq_true_iff.mp digit).2
  rw [Bool.eq_false_iff]
  intro letter
  rcases Bool.or_eq_true_iff.mp letter with upper | lower
  · have low : 'A'.val ≤ c.val := (of_decide_eq_true upper).1
    exact absurd (UInt32.le_trans low high) (by decide)
  · have low : 'a'.val ≤ c.val :=
      of_decide_eq_true (Bool.and_eq_true_iff.mp lower).1
    exact absurd (UInt32.le_trans low high) (by decide)

/-- Digits are taken from the front of a text. -/
theorem takeWhile_isDigit
    {digits : List Char}
    (all : AllDigits digits)
    (rest : List Char) :
    (digits ++ rest).takeWhile isDigit =
      digits ++ rest.takeWhile isDigit :=
  List.takeWhile_append_of_pos fun c member => by
    rw [isDigit_eq]
    exact all c member

theorem dropWhile_isDigit
    {digits : List Char}
    (all : AllDigits digits)
    (rest : List Char) :
    (digits ++ rest).dropWhile isDigit = rest.dropWhile isDigit :=
  List.dropWhile_append_of_pos fun c member => by
    rw [isDigit_eq]
    exact all c member

theorem le_ofDigitChars
    (digits : List Char)
    (value : Nat) :
    value ≤ Nat.ofDigitChars 10 digits value := by
  rw [Nat.ofDigitChars_eq_ofDigitChars_zero]
  have positive : 0 < 10 ^ digits.length := Nat.pow_pos (by decide)
  have := Nat.le_mul_of_pos_left value positive
  omega

/-- Gathering one more digit. -/
theorem ofDigitChars_cons
    (c : Char)
    (digits : List Char)
    (value : Nat) :
    Nat.ofDigitChars 10 (c :: digits) value =
      Nat.ofDigitChars 10 digits (value * 10 + (c.toNat - '0'.toNat)) := by
  rw [Nat.ofDigitChars_cons, Nat.mul_comm]

theorem digitsValue_eq
    {digits : List Char}
    (all : AllDigits digits) :
    digitsValue digits = Nat.ofDigitChars 10 digits 0 := by
  suffices onto :
      ∀ value,
        digits.foldl (fun value c => value * 10 + (digitValue? c).getD 0)
          value = Nat.ofDigitChars 10 digits value from
    onto 0
  induction digits with
  | nil =>
      simp
  | cons c digits inductionHypothesis =>
      obtain ⟨digit, all⟩ := AllDigits.cons_iff.mp all
      intro value
      rw [ofDigitChars_cons, List.foldl_cons, inductionHypothesis all,
        digitValue?_of_isDigit digit, Option.getD_some]

@[simp] theorem ofDigitChars_digitText
    (value : Nat) :
    Nat.ofDigitChars 10 (Decimal.digitText value) 0 = value :=
  Nat.ofDigitChars_ten_toDigits

theorem WholeLiteral.magnitude_eq
    {limit : Nat}
    {overflow : NumberDefect}
    {value : Nat}
    {digits : List Char}
    (all : AllDigits digits)
    (bounded : Nat.ofDigitChars 10 digits value ≤ limit) :
    WholeLiteral.magnitude limit overflow value digits =
      .ok (Nat.ofDigitChars 10 digits value) := by
  induction digits generalizing value with
  | nil =>
      simp [magnitude]
  | cons c digits inductionHypothesis =>
      obtain ⟨digit, all⟩ := AllDigits.cons_iff.mp all
      rw [ofDigitChars_cons] at bounded ⊢
      have notAbove := Nat.le_trans (le_ofDigitChars digits _) bounded
      simp only [magnitude, digitValue?_of_isDigit digit]
      rw [if_neg (by omega)]
      exact inductionHypothesis all bounded

theorem WholeLiteral.read_digits
    {below above : Nat}
    {digits : List Char}
    (all : AllDigits digits)
    (nonempty : digits ≠ [])
    (bounded : Nat.ofDigitChars 10 digits 0 ≤ above) :
    WholeLiteral.read below above digits =
      .ok (Nat.ofDigitChars 10 digits 0) := by
  have isDigit (c : Char) (rest : List Char) (shape : digits = c :: rest) :
      c.isDigit = true :=
    all c (by simp [shape])
  unfold read
  split
  · exact (nonempty rfl).elim
  · cases isDigit _ _ rfl
  · cases isDigit _ _ rfl
  · cases isDigit _ _ rfl
  · cases isDigit _ _ rfl
  · rw [magnitude_eq all bounded]
    rfl

theorem WholeLiteral.read_negative
    {below above : Nat}
    {digits : List Char}
    (all : AllDigits digits)
    (nonempty : digits ≠ [])
    (positive : 0 < below)
    (bounded : Nat.ofDigitChars 10 digits 0 ≤ below) :
    WholeLiteral.read below above ('-' :: digits) =
      .ok (-(Nat.ofDigitChars 10 digits 0 : Int)) := by
  obtain ⟨c, rest, rfl⟩ := List.exists_cons_of_ne_nil nonempty
  simp only [read]
  rw [if_neg (Nat.ne_of_gt positive), magnitude_eq all bounded]
  rfl

theorem Json.gather_eq
    {significand : Nat}
    {digits : List Char}
    (all : AllDigits digits)
    (bounded :
      Nat.ofDigitChars 10 digits significand ≤ Json.significandLimit) :
    Json.gather significand digits =
      (Nat.ofDigitChars 10 digits significand, []) := by
  induction digits generalizing significand with
  | nil =>
      simp [gather]
  | cons c digits inductionHypothesis =>
      obtain ⟨digit, all⟩ := AllDigits.cons_iff.mp all
      rw [ofDigitChars_cons] at bounded ⊢
      have notAbove := Nat.le_trans (le_ofDigitChars digits _) bounded
      simp only [gather, digitValue?_of_isDigit digit, Option.getD_some]
      rw [if_neg (by omega)]
      exact inductionHypothesis all bounded

/-! ## The digits of a number -/

@[simp] theorem digitText_ne_nil
    (value : Nat) :
    Decimal.digitText value ≠ [] :=
  Nat.toDigits_ne_nil

theorem length_digitText_le
    {value count : Nat}
    (positive : 0 < count)
    (bounded : value < 10 ^ count) :
    (Decimal.digitText value).length ≤ count :=
  (Nat.length_toDigits_le_iff (by decide) positive).mpr bounded

theorem digitText_of_lt_ten
    {value : Nat}
    (small : value < 10) :
    Decimal.digitText value = [value.digitChar] :=
  Nat.toDigits_of_lt_base small

theorem digitText_of_ten_le
    {value : Nat}
    (large : 10 ≤ value) :
    Decimal.digitText value =
      Decimal.digitText (value / 10) ++ [(value % 10).digitChar] :=
  Nat.toDigits_of_base_le (by decide) large

/-- Only the number zero begins with a zero. -/
theorem head?_digitText
    {value : Nat}
    (positive : 0 < value) :
    (Decimal.digitText value).head? ≠ some '0' := by
  induction value using Nat.strongRecOn with
  | ind value inductionHypothesis =>
      by_cases small : value < 10
      · rw [digitText_of_lt_ten small]
        have nonzero : ∀ digit < 10, 0 < digit → digit.digitChar ≠ '0' := by
          decide
        simpa using nonzero value small positive
      · have shorter :=
          inductionHypothesis (value / 10) (by omega) (by omega)
        obtain ⟨first, rest, shape⟩ :=
          List.exists_cons_of_ne_nil (digitText_ne_nil (value / 10))
        rw [digitText_of_ten_le (by omega), shape]
        rw [shape] at shorter
        exact shorter

end PositionFeed
