import PositionFeed.Proofs.Json.Text

namespace PositionFeed

/-!
# What the readers of JSON go over

The readers of blanks, words, texts and numbers take the beginning of their
input.  None of them takes a zero byte.  What a blank, a word or a text takes
does not depend on what follows, and neither does a number unless the input
ends with it: only then could more digits have come.
-/

namespace Json

/-! ## The bytes that a reader goes over -/

/-- The rest is what is left of the input behind some bytes, none of them
zero. -/
def GoesOver (input rest : List UInt8) : Prop :=
  ∃ taken, input = taken ++ rest ∧ 0 ∉ taken

namespace GoesOver

theorem refl
    (input : List UInt8) :
    GoesOver input input :=
  ⟨[], rfl, List.not_mem_nil⟩

theorem trans
    {input middle rest : List UInt8}
    (first : GoesOver input middle)
    (second : GoesOver middle rest) :
    GoesOver input rest := by
  obtain ⟨before, rfl, noZeroBefore⟩ := first
  obtain ⟨after, rfl, noZeroAfter⟩ := second
  refine ⟨before ++ after, (List.append_assoc _ _ _).symm, ?_⟩
  rw [List.mem_append, not_or]
  exact ⟨noZeroBefore, noZeroAfter⟩

theorem cons
    {byte : UInt8}
    {input rest : List UInt8}
    (noZero : byte ≠ 0)
    (later : GoesOver input rest) :
    GoesOver (byte :: input) rest := by
  obtain ⟨taken, rfl, noZeroTaken⟩ := later
  refine ⟨byte :: taken, rfl, ?_⟩
  rw [List.mem_cons, not_or]
  exact ⟨noZero.symm, noZeroTaken⟩

theorem length_le
    {input rest : List UInt8}
    (passed : GoesOver input rest) :
    rest.length ≤ input.length := by
  obtain ⟨taken, rfl, _⟩ := passed
  simp

theorem zero_mem
    {input rest : List UInt8}
    (passed : GoesOver input rest)
    (zero : 0 ∈ input) :
    0 ∈ rest := by
  obtain ⟨taken, rfl, noZero⟩ := passed
  exact (List.mem_append.mp zero).resolve_left noZero

end GoesOver

theorem goesOver_skipBlanks
    (input : List UInt8) :
    GoesOver input (skipBlanks input) := by
  induction input with
  | nil =>
      exact .refl []
  | cons byte input inductionHypothesis =>
      rw [skipBlanks]
      split
      · next blank =>
          refine .cons ?_ inductionHypothesis
          rintro rfl
          simp at blank
      · exact .refl _

theorem skipBlanks_append
    {input : List UInt8}
    {byte : UInt8}
    {rest : List UInt8}
    (begins : skipBlanks input = byte :: rest)
    (more : List UInt8) :
    skipBlanks (input ++ more) = byte :: (rest ++ more) := by
  induction input with
  | nil =>
      cases begins
  | cons first input inductionHypothesis =>
      rw [skipBlanks] at begins
      rw [List.cons_append, skipBlanks]
      split at begins
      · next blank =>
          rw [if_pos blank]
          exact inductionHypothesis begins
      · next noBlank =>
          rw [if_neg noBlank]
          cases begins
          rfl

theorem dropWord_eq_some_iff
    {word input rest : List UInt8} :
    dropWord word input = some rest ↔ input = word ++ rest := by
  induction word generalizing input with
  | nil =>
      simp [dropWord]
  | cons expected word inductionHypothesis =>
      cases input with
      | nil =>
          simp [dropWord]
      | cons byte input =>
          rw [dropWord, Option.ite_none_right_eq_some, inductionHypothesis,
            List.cons_append, List.cons.injEq, eq_comm]

/-! ## Texts -/

theorem hexValue?_ne_zero
    {byte : UInt8}
    {value : Nat}
    (spells : hexValue? byte = some value) :
    byte ≠ 0 := by
  rintro rfl
  cases spells

theorem hexUnit?_ne_zero
    {first second third fourth : UInt8}
    {unit : Nat}
    (spells : hexUnit? first second third fourth = some unit) :
    first ≠ 0 ∧ second ≠ 0 ∧ third ≠ 0 ∧ fourth ≠ 0 := by
  simp only [hexUnit?, Option.bind_eq_bind, Option.bind_eq_some_iff] at spells
  obtain ⟨_, one, _, two, _, three, _, four, _⟩ := spells
  exact ⟨hexValue?_ne_zero one, hexValue?_ne_zero two,
    hexValue?_ne_zero three, hexValue?_ne_zero four⟩

/-- A text is closed by its own bytes, whatever follows them. -/
theorem pieces_eq_some
    {input : List UInt8}
    {parts : List Piece}
    {rest : List UInt8}
    (reads : pieces input = some (parts, rest)) :
    ∃ taken,
      input = taken ++ rest ∧ 0 ∉ taken ∧
        ∀ more, pieces (taken ++ more) = some (parts, more) := by
  fun_induction pieces input generalizing parts with
  | case1 =>
      cases reads
  | case2 inner =>
      cases reads
      exact ⟨[0x22], rfl, by decide, fun _ => rfl⟩
  | case3 first second third fourth inner spells =>
      cases reads
  | case4 first second third fourth inner unit spells inductionHypothesis =>
      obtain ⟨⟨others, left⟩, later, shape⟩ := Option.map_eq_some_iff.mp reads
      cases shape
      obtain ⟨taken, rfl, noZero, closes⟩ := inductionHypothesis later
      obtain ⟨one, two, three, four⟩ := hexUnit?_ne_zero spells
      refine ⟨0x5c :: 0x75 :: first :: second :: third :: fourth :: taken,
        rfl, ?_, ?_⟩
      · simp [noZero, one.symm, two.symm, three.symm, four.symm]
      · intro more
        simp only [List.cons_append, pieces_number spells, closes]
        rfl
  | case5 letter inner _ escapes =>
      cases reads
  | case6 letter inner _ byte escapes inductionHypothesis =>
      obtain ⟨⟨others, left⟩, later, shape⟩ := Option.map_eq_some_iff.mp reads
      cases shape
      obtain ⟨taken, rfl, noZero, closes⟩ := inductionHypothesis later
      have noZeroLetter : letter ≠ 0 := by
        rintro rfl
        cases escapes
      refine ⟨0x5c :: letter :: taken, rfl, ?_, ?_⟩
      · simp [noZero, noZeroLetter.symm]
      · intro more
        simp only [List.cons_append, pieces_letter letter escapes, closes]
        rfl
  | case7 byte inner _ _ _ control =>
      cases reads
  | case8 byte inner noQuote _ _ plain inductionHypothesis =>
      obtain ⟨⟨others, left⟩, later, shape⟩ := Option.map_eq_some_iff.mp reads
      cases shape
      obtain ⟨taken, rfl, noZero, closes⟩ := inductionHypothesis later
      rw [not_or, UInt8.lt_iff_toNat_lt, ← UInt8.toNat_inj] at plain
      refine ⟨byte :: taken, rfl, ?_, ?_⟩
      · rw [List.mem_cons, not_or]
        refine ⟨?_, noZero⟩
        rintro rfl
        exact plain.1 (by decide)
      · intro more
        rw [List.cons_append,
          pieces_byte (Nat.le_of_not_lt plain.1) ?_ plain.2, closes]
        · rfl
        · intro quote
          exact noQuote (UInt8.toNat_inj.mp quote)

theorem goesOver_pieces
    {input : List UInt8}
    {parts : List Piece}
    {rest : List UInt8}
    (reads : pieces input = some (parts, rest)) :
    GoesOver input rest := by
  obtain ⟨taken, shape, noZero, _⟩ := pieces_eq_some reads
  exact ⟨taken, shape, noZero⟩

theorem pieces_append
    {input : List UInt8}
    {parts : List Piece}
    {rest : List UInt8}
    (reads : pieces input = some (parts, rest))
    (more : List UInt8) :
    pieces (input ++ more) = some (parts, rest ++ more) := by
  obtain ⟨taken, rfl, _, closes⟩ := pieces_eq_some reads
  rw [List.append_assoc, closes]

/-! ## Numbers -/

/-- A scanner takes the beginning of its input.  It goes over no zero byte, and
unless it comes to the end of the input it does not depend on what follows. -/
structure Scans
    (scan : List UInt8 → Option (α × List UInt8)) : Prop where
  goesOver :
    ∀ {input found rest}, scan input = some (found, rest) →
      GoesOver input rest
  append :
    ∀ {input found rest}, scan input = some (found, rest) → rest ≠ [] →
      ∀ more, scan (input ++ more) = some (found, rest ++ more)

namespace Scans

theorem nothing
    (found : α) :
    Scans fun input => some (found, input) where
  goesOver reads := by
    cases reads
    exact .refl _
  append reads goesOn more := by
    cases reads
    rfl

theorem bind
    {scan : List UInt8 → Option (α × List UInt8)}
    {next : α → List UInt8 → Option (β × List UInt8)}
    (first : Scans scan)
    (second : ∀ found, Scans (next found)) :
    Scans fun input => (scan input).bind fun read => next read.1 read.2 where
  goesOver reads := by
    obtain ⟨⟨found, middle⟩, reads, readsOn⟩ := Option.bind_eq_some_iff.mp reads
    exact (first.goesOver reads).trans ((second found).goesOver readsOn)
  append reads goesOn more := by
    obtain ⟨⟨found, middle⟩, reads, readsOn⟩ := Option.bind_eq_some_iff.mp reads
    have goesOnBefore : middle ≠ [] := by
      rintro rfl
      have shorter := ((second found).goesOver readsOn).length_le
      exact goesOn (List.eq_nil_of_length_eq_zero (Nat.le_zero.mp shorter))
    rw [first.append reads goesOnBefore more]
    exact (second found).append readsOn goesOn more

theorem guarded
    {scan : List UInt8 → Option (α × List UInt8)}
    (refused : Prop)
    [Decidable refused]
    (scans : Scans scan) :
    Scans fun input => if refused then none else scan input := by
  by_cases refused : refused
  · simp only [if_pos refused]
    exact { goesOver := nofun, append := nofun }
  · simpa only [if_neg refused] using scans

end Scans

/-- Reads on behind a byte if the input begins with it, and otherwise reads the
input itself. -/
def behind (byte : UInt8) (taken passed : List UInt8 → Option α) :
    List UInt8 → Option α
  | [] => passed []
  | first :: input =>
      if first = byte then taken input else passed (first :: input)

theorem behind_self
    {taken passed : List UInt8 → Option α}
    {byte : UInt8}
    {rest : List UInt8} :
    behind byte taken passed (byte :: rest) = taken rest :=
  if_pos rfl

theorem behind_of_ne
    {taken passed : List UInt8 → Option α}
    {byte : UInt8}
    {input : List UInt8}
    (different : ∀ rest, input = byte :: rest → False) :
    behind byte taken passed input = passed input := by
  cases input with
  | nil =>
      rfl
  | cons first input =>
      refine if_neg ?_
      rintro rfl
      exact different input rfl

theorem Scans.behind
    {byte : UInt8}
    {taken passed : List UInt8 → Option (α × List UInt8)}
    (noZero : byte ≠ 0)
    (scansTaken : Scans taken)
    (scansPassed : Scans passed) :
    Scans (behind byte taken passed) where
  goesOver {input found rest} reads := by
    cases input with
    | nil =>
        exact scansPassed.goesOver reads
    | cons first input =>
        rw [Json.behind] at reads
        split at reads
        · next same =>
            subst same
            exact .cons noZero (scansTaken.goesOver reads)
        · exact scansPassed.goesOver reads
  append {input found rest} reads goesOn more := by
    cases input with
    | nil =>
        have shorter := (scansPassed.goesOver reads).length_le
        exact (goesOn (List.eq_nil_of_length_eq_zero
          (Nat.le_zero.mp shorter))).elim
    | cons first input =>
        rw [Json.behind] at reads
        rw [List.cons_append, Json.behind]
        split at reads
        · next same =>
            rw [if_pos same]
            exact scansTaken.append reads goesOn more
        · next different =>
            rw [if_neg different]
            exact scansPassed.append reads goesOn more

theorem scans_digits :
    Scans fun input => some (digits input) where
  goesOver {input found rest} reads := by
    cases reads
    refine ⟨input.takeWhile isDigitByte,
      (List.takeWhile_append_dropWhile).symm, ?_⟩
    intro zero
    have digit := List.all_eq_true.mp List.all_takeWhile 0 zero
    cases digit
  append {input found rest} reads goesOn more := by
    cases reads
    congr 1
    induction input with
    | nil =>
        exact (goesOn rfl).elim
    | cons byte input inductionHypothesis =>
        by_cases digit : isDigitByte byte
        · simp only [digits, List.cons_append, List.takeWhile_cons_of_pos digit,
            List.dropWhile_cons_of_pos digit, List.map_cons, Prod.mk.injEq,
            List.cons.injEq, true_and] at goesOn inductionHypothesis ⊢
          exact inductionHypothesis goesOn
        · simp only [digits, List.cons_append,
            List.takeWhile_cons_of_neg digit, List.dropWhile_cons_of_neg digit]

/-- Digits, of which there must be one. -/
def someDigits (input : List UInt8) : Option (List Char × List UInt8) :=
  (some (digits input)).bind fun count =>
    if count.1.isEmpty then none else some (count.1, count.2)

theorem scans_someDigits :
    Scans someDigits :=
  scans_digits.bind fun found =>
    (Scans.nothing found).guarded (found.isEmpty = true)

theorem fraction_eq :
    fraction =
      behind 0x2e
        (fun input => (someDigits input).bind fun places =>
          some (some places.1, places.2))
        (fun input => some (none, input)) := by
  funext input
  unfold fraction
  split
  · next rest =>
      rw [behind_self]
      simp only [someDigits, Option.bind_some]
      split <;> rfl
  · next noPoint =>
      rw [behind_of_ne noPoint]

theorem scans_fraction :
    Scans fraction := by
  rw [fraction_eq]
  exact .behind (by decide)
    (scans_someDigits.bind fun places => .nothing (some places))
    (.nothing none)

/-- The digits of an exponent behind its sign. -/
def exponentDigits (negative : Bool) (input : List UInt8) :
    Option (Option (Bool × List Char) × List UInt8) :=
  (someDigits input).bind fun count => some (some (negative, count.1), count.2)

/-- An exponent behind its mark. -/
def exponent : List UInt8 → Option (Option (Bool × List Char) × List UInt8) :=
  behind 0x2b (exponentDigits false)
    (behind 0x2d (exponentDigits true) (exponentDigits false))

theorem scans_exponent :
    Scans exponent := by
  have scans (negative : Bool) : Scans (exponentDigits negative) :=
    scans_someDigits.bind fun count => .nothing (some (negative, count))
  exact .behind (by decide) (scans false)
    (.behind (by decide) (scans true) (scans false))

theorem power_eq :
    power =
      behind 0x65 exponent
        (behind 0x45 exponent fun input => some (none, input)) := by
  have signed (negative : Bool) (input : List UInt8) :
      (if (digits input).1.isEmpty then none
        else some (some (negative, (digits input).1), (digits input).2)) =
      exponentDigits negative input := by
    simp only [exponentDigits, someDigits, Option.bind_some]
    split <;> rfl
  funext input
  cases input with
  | nil =>
      rfl
  | cons mark input =>
      unfold power
      simp only [signed]
      by_cases marked : mark = 0x65 ∨ mark = 0x45
      · have read :
            behind 0x65 exponent
                (behind 0x45 exponent fun input => some (none, input))
                (mark :: input) =
              exponent input := by
          rcases marked with rfl | rfl
          · rw [behind_self]
          · rw [behind_of_ne (by simp), behind_self]
        rw [if_pos marked, read, exponent]
        split
        · rw [behind_self]
        · rw [behind_of_ne (by simp), behind_self]
        · next noPlus noMinus =>
            rw [behind_of_ne noPlus, behind_of_ne noMinus]
      · rw [if_neg marked]
        rw [not_or] at marked
        rw [behind, if_neg marked.1, behind, if_neg marked.2]

theorem scans_power :
    Scans power := by
  rw [power_eq]
  exact .behind (by decide) scans_exponent
    (.behind (by decide) scans_exponent (.nothing none))

/-- A number behind its sign. -/
def unsigned (negative : Bool) (input : List UInt8) :
    Option (Spelling × List UInt8) :=
  (someDigits input).bind fun whole =>
    if whole.1.head? = some '0' ∧ 1 < whole.1.length then none
    else
      (fraction whole.2).bind fun places =>
        (power places.2).bind fun exponent =>
          some (⟨negative, whole.1, places.1, exponent.1⟩, exponent.2)

theorem scans_unsigned
    (negative : Bool) :
    Scans (unsigned negative) :=
  scans_someDigits.bind fun whole =>
    (scans_fraction.bind fun places =>
      scans_power.bind fun exponent =>
        Scans.nothing (Spelling.mk negative whole places exponent)).guarded
      (whole.head? = some '0' ∧ 1 < whole.length)

theorem spelling_eq :
    spelling = behind 0x2d (unsigned true) (unsigned false) := by
  have read (negative : Bool) (input : List UInt8) :
      (if (digits input).1.isEmpty ∨
            ((digits input).1.head? = some '0' ∧
              1 < (digits input).1.length) then
          none
        else
          (fraction (digits input).2).bind fun places =>
            (power places.2).bind fun exponent =>
              some (⟨negative, (digits input).1, places.1, exponent.1⟩,
                exponent.2)) =
        unsigned negative input := by
    simp only [unsigned, someDigits, Option.bind_some]
    by_cases empty : (digits input).1.isEmpty = true
    · rw [if_pos (.inl empty), if_pos empty]
      rfl
    · rw [if_neg empty, Option.bind_some]
      simp only [empty, Bool.false_eq_true, false_or]
  funext input
  unfold spelling
  split
  next sign =>
    split at sign
    · cases sign
      rw [behind_self, ← read]
      rfl
    · next noMinus =>
        cases sign
        rw [behind_of_ne noMinus, ← read]
        rfl

theorem scans_spelling :
    Scans spelling := by
  rw [spelling_eq]
  exact .behind (by decide) (scans_unsigned true) (scans_unsigned false)

theorem someDigits_begins
    {byte : UInt8}
    {inner : List UInt8}
    {count : List Char}
    {rest : List UInt8}
    (reads : someDigits (byte :: inner) = some (count, rest)) :
    isDigitByte byte = true ∧ rest.length ≤ inner.length := by
  by_cases digit : isDigitByte byte = true
  · have left : (digits (byte :: inner)).2 = (digits inner).2 :=
      List.dropWhile_cons_of_pos digit
    simp only [someDigits, Option.bind_some, Option.ite_none_left_eq_some,
      Option.some.injEq, Prod.mk.injEq, left] at reads
    obtain ⟨_, _, rfl⟩ := reads
    have passed : GoesOver inner (digits inner).2 :=
      scans_digits.goesOver rfl
    exact ⟨digit, passed.length_le⟩
  · have none : (digits (byte :: inner)).1 = [] := by
      simp only [digits, List.takeWhile_cons_of_neg digit, List.map_nil]
    simp [someDigits, none] at reads

/-- A number begins with its sign or a digit. -/
theorem spelling_begins
    {input : List UInt8}
    {number : Spelling}
    {rest : List UInt8}
    (reads : spelling input = some (number, rest)) :
    ∃ byte inner,
      input = byte :: inner ∧ (byte = 0x2d ∨ isDigitByte byte = true) ∧
        rest.length ≤ inner.length := by
  cases input with
  | nil =>
      cases reads
  | cons byte inner =>
      refine ⟨byte, inner, rfl, ?_⟩
      rw [spelling_eq] at reads
      by_cases minus : byte = 0x2d
      · subst minus
        rw [behind_self] at reads
        exact ⟨.inl rfl, ((scans_unsigned true).goesOver reads).length_le⟩
      · rw [behind, if_neg minus] at reads
        obtain ⟨⟨whole, middle⟩, begins, later⟩ :=
          Option.bind_eq_some_iff.mp reads
        obtain ⟨digit, shorter⟩ := someDigits_begins begins
        rw [Option.ite_none_left_eq_some] at later
        have passed :=
          (scans_fraction.bind fun places =>
            scans_power.bind fun exponent =>
              Scans.nothing
                (Spelling.mk false whole places exponent)).goesOver later.2
        exact ⟨.inr digit, Nat.le_trans passed.length_le shorter⟩

end Json

end PositionFeed
