import Mathlib.Data.List.TakeWhile
import PositionFeed.Toml.Reader
import PositionFeed.Toml.Writer

namespace PositionFeed

/-!
# Texts in TOML read back

The four forms of a text differ in their quotes, in whether escapes mean
anything, and in whether the text goes over several lines.  `Form.Spells` says
once, for all forms, which characters between the quotes stand for a text.  A
writer is right if it produces such characters, and a reader is right if it
gives the text that they stand for.

Quotes may stand for themselves in the long forms, but only two in a row: three
of them close the text, and the reader takes up to two before these as part of
it.
-/

namespace Toml

/-- The quotes around a text in this form. -/
def Form.quote : Form → Char
  | .basic => '"'
  | .longBasic => '"'
  | .literal => '\''
  | .longLiteral => '\''

def Form.escapes : Form → Bool
  | .basic => true
  | .longBasic => true
  | .literal => false
  | .longLiteral => false

/-- Whether a text in this form may go over several lines. -/
def Form.isLong : Form → Bool
  | .longBasic => true
  | .longLiteral => true
  | .basic => false
  | .literal => false

/-- How many quotes in a row may stand for themselves. -/
def Form.quoteLimit (form : Form) : Nat :=
  if form.isLong then 2 else 0

/-- The number of quotes at the beginning of a text. -/
def leadingRun (quote : Char) (text : List Char) : Nat :=
  (text.takeWhile (· == quote)).length

/-- The text after an escape's backslash stands for a character, whatever
follows it. -/
structure IsEscape (c : Char) (after : List Char) : Prop where
  reads : ∀ rest, escape (after ++ rest) = some (c, rest)
  noGap : ∀ rest, continuation? (after ++ rest) = none

/-- The characters that stand for a text between the quotes of a form. -/
inductive Form.Spells (form : Form) : List Char → List Char → Prop where
  | nil : Form.Spells form [] []
  | quote
      {text body : List Char}
      (few : leadingRun form.quote (form.quote :: body) ≤ form.quoteLimit)
      (rest : Form.Spells form text body) :
      Form.Spells form (form.quote :: text) (form.quote :: body)
  | plain
      {c : Char}
      {text body : List Char}
      (noQuote : c ≠ form.quote)
      (noEscape : c = '\\' → form.escapes = false)
      (shown : isPrintable c = true ∨ (c = '\n' ∧ form.isLong = true))
      (rest : Form.Spells form text body) :
      Form.Spells form (c :: text) (c :: body)
  | escaped
      {c : Char}
      {after text body : List Char}
      (escapes : form.escapes = true)
      (isEscape : IsEscape c after)
      (rest : Form.Spells form text body) :
      Form.Spells form (c :: text) ('\\' :: after ++ body)

/-! ## What is written -/

theorem leadingRun_cons
    (quote c : Char)
    (text : List Char) :
    leadingRun quote (c :: text) =
      if c = quote then leadingRun quote text + 1 else 0 := by
  unfold leadingRun
  by_cases same : c = quote <;> simp [same]

/-- A character that is no blank and no line end does not continue a line. -/
theorem continuation?_cons
    {c : Char}
    (noGap : c ∉ [' ', '\t', '\n', '\r'])
    (rest : List Char) :
    continuation? (c :: rest) = none := by
  simp only [List.mem_cons, List.not_mem_nil, or_false, not_or] at noGap
  obtain ⟨noSpace, noTab, noLineFeed, noReturn⟩ := noGap
  have stays : (c :: rest).dropWhile (fun c => c == ' ' || c == '\t') =
      c :: rest := by
    simp [noSpace, noTab]
  simp only [continuation?, stays]
  split
  · next shape =>
      exact (noLineFeed (List.cons.inj shape).1).elim
  · next shape =>
      exact (noReturn (List.cons.inj shape).1).elim
  · rfl

/-- One letter after the backslash. -/
theorem isEscape_letter
    {c letter : Char}
    (reads : ∀ rest, escape (letter :: rest) = some (c, rest))
    (noGap : letter ∉ [' ', '\t', '\n', '\r']) :
    IsEscape c [letter] where
  reads := reads
  noGap := continuation?_cons noGap

/-- The digits of an ASCII character in four places. -/
theorem upperHex_ascii :
    ∀ code < 0x80,
      (upperHex 4 code).length = 4 ∧
        (upperHex 4 code).all (fun c => (baseDigit? 16 c).isSome) = true ∧
        (upperHex 4 code).foldl
          (fun value c => value * 16 + (baseDigit? 16 c).getD 0) 0 = code := by
  decide +kernel

/-- A control character is escaped by its number. -/
theorem isEscape_control
    {c : Char}
    (control : isControl c = true) :
    IsEscape c ('u' :: upperHex 4 c.toNat) where
  reads rest := by
    have small : c.toNat < 0x80 := by
      simp [isControl] at control
      omega
    obtain ⟨length, digits, value⟩ := upperHex_ascii c.toNat small
    have taken : (upperHex 4 c.toNat ++ rest).take 4 = upperHex 4 c.toNat :=
      List.take_left' length
    have dropped : (upperHex 4 c.toNat ++ rest).drop 4 = rest :=
      List.drop_left' length
    have isScalar : scalarChar? c.toNat = some c := by
      rw [scalarChar?, if_pos (.inl (by omega)), Char.ofNat_toNat]
    simp [escape, hexChar, taken, dropped, length, digits, value, isScalar]
  noGap _ := continuation?_cons (by decide) _

/-- What need not be escaped stands for itself. -/
theorem shown_of_noControl
    {c : Char}
    (noControl : isControl c = false) :
    isPrintable c = true ∨ c = '\n' := by
  by_cases tab : c = '\t'
  · simp [isPrintable, tab]
  · by_cases lineFeed : c = '\n'
    · exact .inr lineFeed
    · simp [isControl, tab, lineFeed] at noControl
      simp [isPrintable, noControl]

/-- How one character of an escaped text is written, with the number of double
quotes that end before it and after it. -/
inductive Piece (quotes : Nat) (keepLineFeed : Bool) (c : Char) :
    Nat → List Char → Nat → Prop where
  | quote
      {run : Nat}
      (isQuote : c = '"')
      (few : run < quotes) :
      Piece quotes keepLineFeed c run [c] (run + 1)
  | plain
      {run : Nat}
      (noQuote : c ≠ '"')
      (noEscape : c ≠ '\\')
      (shown : isPrintable c = true ∨ (c = '\n' ∧ keepLineFeed = true)) :
      Piece quotes keepLineFeed c run [c] 0
  | escaped
      {run : Nat}
      {after : List Char}
      (isEscape : IsEscape c after) :
      Piece quotes keepLineFeed c run ('\\' :: after) 0

/-- An escaped text is its characters' pieces in order. -/
theorem escapeBody_cons
    (quotes : Nat)
    (keepLineFeed : Bool)
    (run : Nat)
    (c : Char)
    (text : List Char) :
    ∃ piece next,
      Piece quotes keepLineFeed c run piece next ∧
        escapeBody quotes keepLineFeed run (c :: text) =
          piece ++ escapeBody quotes keepLineFeed next text := by
  have letter (letter : Char)
      (reads : ∀ rest, escape (letter :: rest) = some (c, rest))
      (noGap : letter ∉ [' ', '\t', '\n', '\r']) :
      Piece quotes keepLineFeed c run ['\\', letter] 0 :=
    .escaped (isEscape_letter reads noGap)
  rw [escapeBody.eq_def]
  dsimp only
  split
  · split
    · exact ⟨_, _, letter '"' (fun _ => rfl) (by decide), rfl⟩
    · exact ⟨_, _, .quote rfl (by omega), rfl⟩
  · exact ⟨_, _, letter '\\' (fun _ => rfl) (by decide), rfl⟩
  · exact ⟨_, _, letter 'b' (fun _ => rfl) (by decide), rfl⟩
  · exact ⟨_, _, letter 't' (fun _ => rfl) (by decide), rfl⟩
  · split
    · next keep =>
        exact ⟨_, _, .plain (by decide) (by decide) (.inr ⟨rfl, keep⟩), rfl⟩
    · exact ⟨_, _, letter 'n' (fun _ => rfl) (by decide), rfl⟩
  · exact ⟨_, _, letter 'f' (fun _ => rfl) (by decide), rfl⟩
  · exact ⟨_, _, letter 'r' (fun _ => rfl) (by decide), rfl⟩
  · next noQuote noEscape _ _ noLineFeed _ _ =>
      split
      · next control =>
          exact ⟨_, _, .escaped (isEscape_control control), rfl⟩
      · next noControl =>
          have shown : isPrintable c = true :=
            (shown_of_noControl (Bool.eq_false_iff.mpr noControl)).resolve_right
              noLineFeed
          exact ⟨_, _, .plain noQuote noEscape (.inl shown), rfl⟩

theorem leadingRun_escapeBody
    {quotes : Nat}
    (keepLineFeed : Bool)
    (text : List Char) :
    ∀ run ≤ quotes,
      leadingRun '"' (escapeBody quotes keepLineFeed run text) ≤
        quotes - run := by
  induction text with
  | nil =>
      simp [escapeBody, leadingRun]
  | cons c text inductionHypothesis =>
      intro run within
      obtain ⟨piece, next, isPiece, shape⟩ :=
        escapeBody_cons quotes keepLineFeed run c text
      rw [shape]
      cases isPiece with
      | quote isQuote few =>
          have later := inductionHypothesis (run + 1) few
          rw [List.singleton_append, leadingRun_cons, if_pos isQuote]
          omega
      | plain noQuote _ _ =>
          simp [leadingRun_cons, noQuote]
      | escaped _ =>
          simp [leadingRun_cons]

/-- An escaped text spells itself. -/
theorem spells_escapeBody
    (form : Form)
    (escapes : form.escapes = true)
    (text : List Char) :
    ∀ run ≤ form.quoteLimit,
      form.Spells text (escapeBody form.quoteLimit form.isLong run text) := by
  have isQuote : form.quote = '"' := by
    cases form <;> first | rfl | cases escapes
  induction text with
  | nil =>
      intro run _
      exact .nil
  | cons c text inductionHypothesis =>
      intro run within
      have few :=
        leadingRun_escapeBody form.isLong (c :: text) run within
      obtain ⟨piece, next, isPiece, shape⟩ :=
        escapeBody_cons form.quoteLimit form.isLong run c text
      rw [shape] at few ⊢
      cases isPiece with
      | quote same notMany =>
          subst same
          rw [← isQuote] at few ⊢
          exact .quote (Nat.le_trans few (Nat.sub_le _ _))
            (inductionHypothesis (run + 1) notMany)
      | plain noQuote noEscape shown =>
          exact .plain (by rwa [isQuote]) (fun same => (noEscape same).elim)
            shown (inductionHypothesis 0 (Nat.zero_le _))
      | escaped isEscape =>
          exact .escaped escapes isEscape
            (inductionHypothesis 0 (Nat.zero_le _))

/-! ## Texts without escapes -/

theorem longestRun_mono
    (wanted : Char)
    (text : List Char)
    {less more : Nat}
    (atMost : less ≤ more) :
    longestRun wanted less text ≤ longestRun wanted more text := by
  induction text generalizing less more with
  | nil =>
      exact atMost
  | cons c text inductionHypothesis =>
      unfold longestRun
      split
      · exact inductionHypothesis (Nat.add_le_add_right atMost 1)
      · omega

/-- The run that ends at the beginning of a text goes on there. -/
theorem leadingRun_le_longestRun
    (wanted : Char)
    (text : List Char)
    (run : Nat) :
    run + leadingRun wanted text ≤ longestRun wanted run text := by
  induction text generalizing run with
  | nil =>
      simp [leadingRun, longestRun]
  | cons c text inductionHypothesis =>
      rw [leadingRun_cons, longestRun]
      split
      · have := inductionHypothesis (run + 1)
        omega
      · omega

theorem longestRun_tail
    (wanted c : Char)
    (text : List Char) :
    longestRun wanted 0 text ≤ longestRun wanted 0 (c :: text) := by
  rw [longestRun]
  split
  · exact longestRun_mono wanted text (Nat.zero_le _)
  · exact Nat.le_max_right _ _

/-- A text without control characters and with few quotes in a row spells
itself where nothing is escaped. -/
theorem spells_self
    (form : Form)
    (noEscapes : form.escapes = false)
    {text : List Char}
    (noControl : ∀ c ∈ text, isControl c = false)
    (oneLine : '\n' ∈ text → form.isLong = true)
    (few : longestRun form.quote 0 text ≤ form.quoteLimit) :
    form.Spells text text := by
  induction text with
  | nil =>
      exact .nil
  | cons c text inductionHypothesis =>
      have rest := inductionHypothesis
        (fun c member => noControl c (List.mem_cons_of_mem _ member))
        (fun member => oneLine (List.mem_cons_of_mem _ member))
        (Nat.le_trans (longestRun_tail _ c text) few)
      by_cases isQuote : c = form.quote
      · subst isQuote
        have leading := leadingRun_le_longestRun form.quote
          (form.quote :: text) 0
        exact .quote (by omega) rest
      · have shown := shown_of_noControl (noControl c List.mem_cons_self)
        refine .plain isQuote (fun _ => noEscapes) ?_ rest
        exact shown.imp id fun isLineFeed =>
          ⟨isLineFeed, oneLine (by simp [isLineFeed])⟩

/-! ## What is read -/

/-- A text on one line with escapes is read up to its closing quote. -/
theorem basicBody_spells
    {text body : List Char}
    (spells : Form.basic.Spells text body)
    (rest : List Char)
    {fuel : Nat}
    (enough : body.length < fuel) :
    basicBody fuel (body ++ '"' :: rest) = some (text, rest) := by
  induction spells generalizing fuel with
  | nil =>
      obtain ⟨fuel, rfl⟩ := Nat.exists_eq_add_of_lt enough
      simp [basicBody]
  | quote few _ _ =>
      simp [leadingRun_cons, Form.quoteLimit, Form.isLong] at few
  | @plain c _ _ noQuote noEscape shown _ inductionHypothesis =>
      obtain ⟨fuel, rfl⟩ : ∃ less, fuel = less + 1 := ⟨fuel - 1, by omega⟩
      have later := inductionHypothesis (show _ < fuel by simpa using enough)
      have noBackslash : c ≠ '\\' := by
        intro same
        cases noEscape same
      have printable : isPrintable c = true := by
        simpa [Form.isLong] using shown
      simp [basicBody, show c ≠ '"' from noQuote, noBackslash, printable, later]
  | @escaped c after _ body _ isEscape _ inductionHypothesis =>
      obtain ⟨fuel, rfl⟩ : ∃ less, fuel = less + 1 := ⟨fuel - 1, by omega⟩
      have later := inductionHypothesis (show _ < fuel by
        simp at enough
        omega)
      have reads := isEscape.reads (body ++ '"' :: rest)
      simp [basicBody, reads, later]

theorem literalBody_spells
    {text body : List Char}
    (spells : Form.literal.Spells text body)
    (rest : List Char) :
    literalBody (body ++ '\'' :: rest) = some (text, rest) := by
  induction spells with
  | nil =>
      simp [literalBody]
  | quote few _ _ =>
      simp [leadingRun_cons, Form.quoteLimit, Form.isLong] at few
  | @plain c _ _ noQuote _ shown _ inductionHypothesis =>
      have printable : isPrintable c = true := by
        simpa [Form.isLong] using shown
      simp [literalBody, show c ≠ '\'' from noQuote, printable,
        inductionHypothesis]
  | escaped escapes =>
      cases escapes

/-- Up to two quotes before the closing ones belong to the text, and quotes that
anything else follows do not close it. -/
theorem closing_eq
    (quote : Char)
    {body rest : List Char}
    (few : leadingRun quote body ≤ 2)
    (ends : rest.head? ≠ some quote) :
    closing quote (body ++ quote :: quote :: quote :: rest) =
      if body.all (· == quote) then some (body, rest) else none := by
  have restStops : rest.takeWhile (· == quote) = [] := by
    cases rest with
    | nil =>
        rfl
    | cons c rest =>
        exact List.takeWhile_cons_of_neg (by simpa using ends)
  by_cases onlyQuotes : ∀ c ∈ body, (c == quote) = true
  · have same : body = List.replicate body.length quote :=
      List.eq_replicate_of_mem fun c member => by
        simpa using onlyQuotes c member
    have short : body.length ≤ 2 := by
      rwa [leadingRun, List.takeWhile_eq_self_iff.mpr onlyQuotes] at few
    have taken :
        (body ++ quote :: quote :: quote :: rest).takeWhile (· == quote) =
          body ++ [quote, quote, quote] := by
      rw [List.takeWhile_append_of_pos onlyQuotes]
      simp [restStops]
    have dropped :
        (body ++ quote :: quote :: quote :: rest).drop (body.length + 3) =
          rest := by
      rw [List.drop_append, List.drop_of_length_le (by omega),
        Nat.add_sub_cancel_left]
      rfl
    have inside : min 2 ((body ++ [quote, quote, quote]).length - 3) =
        body.length := by
      simp
      omega
    rw [if_pos (List.all_eq_true.mpr onlyQuotes), closing, taken,
      if_neg (by simp), inside]
    dsimp only
    rw [dropped, ← same]
  · have taken :
        (body ++ quote :: quote :: quote :: rest).takeWhile (· == quote) =
          body.takeWhile (· == quote) := by
      rw [List.takeWhile_append, if_neg]
      intro whole
      exact onlyQuotes (List.takeWhile_eq_self_iff.mp
        ((List.takeWhile_prefix _).eq_of_length whole))
    have open' : (body.takeWhile (· == quote)).length < 3 :=
      Nat.lt_succ_of_le few
    rw [closing, taken, if_pos open', if_neg (by rwa [List.all_eq_true])]

theorem Form.Spells.eq_of_quotes
    {form : Form}
    {text body : List Char}
    (spells : form.Spells text body)
    (onlyQuotes : ∀ c ∈ body, c = form.quote) :
    text = body := by
  induction spells with
  | nil =>
      rfl
  | quote _ _ inductionHypothesis =>
      rw [inductionHypothesis fun c member =>
        onlyQuotes c (List.mem_cons_of_mem _ member)]
  | plain noQuote =>
      exact (noQuote (onlyQuotes _ List.mem_cons_self)).elim
  | escaped =>
      have isQuote : '\\' = form.quote := onlyQuotes _ (by simp)
      cases form <;> cases isQuote

/-- A text over several lines is read up to its closing quotes. -/
theorem longBody_spells
    {form : Form}
    (long : form.isLong = true)
    {text body : List Char}
    (spells : form.Spells text body)
    {rest : List Char}
    (ends : rest.head? ≠ some form.quote)
    {fuel : Nat}
    (enough : body.length < fuel) :
    longBody form.quote form.escapes fuel
        (body ++ form.quote :: form.quote :: form.quote :: rest) =
      some (text, rest) := by
  have limit : form.quoteLimit = 2 := if_pos long
  induction spells generalizing fuel with
  | nil =>
      obtain ⟨fuel, rfl⟩ : ∃ less, fuel = less + 1 := ⟨fuel - 1, by omega⟩
      have none : leadingRun form.quote [] ≤ 2 := by
        simp [leadingRun]
      have closed := closing_eq form.quote none ends
      simp only [List.nil_append, List.all_nil, if_true] at closed
      simp [longBody, closed]
  | @quote text body few spelled inductionHypothesis =>
      obtain ⟨fuel, rfl⟩ : ∃ less, fuel = less + 1 := ⟨fuel - 1, by omega⟩
      have later := inductionHypothesis (show _ < fuel by simpa using enough)
      have closed := closing_eq form.quote (limit ▸ few) ends
      rw [List.cons_append] at closed ⊢
      rw [longBody.eq_def]
      dsimp only
      rw [if_pos rfl, closed]
      -- If nothing but quotes is left, the reader takes them for the end, with
      -- those that stand before the last three as text.
      by_cases onlyQuotes : (form.quote :: body).all (· == form.quote) = true
      · have same : text = body := by
          refine spelled.eq_of_quotes fun c member => ?_
          have := List.all_eq_true.mp onlyQuotes c
            (List.mem_cons_of_mem _ member)
          simpa using this
        rw [if_pos onlyQuotes, same]
      · rw [if_neg onlyQuotes]
        dsimp only
        rw [later]
        rfl
  | @plain c text body noQuote noEscape shown _ inductionHypothesis =>
      obtain ⟨fuel, rfl⟩ : ∃ less, fuel = less + 1 := ⟨fuel - 1, by omega⟩
      have later := inductionHypothesis (show _ < fuel by simpa using enough)
      have noBackslash : ¬ (c = '\\' ∧ form.escapes = true) := by
        rintro ⟨same, escapes⟩
        rw [noEscape same] at escapes
        cases escapes
      have kept : c = '\n' ∨ isPrintable c = true :=
        shown.symm.imp And.left id
      rw [List.cons_append, longBody.eq_def]
      dsimp only
      rw [if_neg noQuote, if_neg noBackslash, if_pos kept, later]
      rfl
  | @escaped c after text body escapes isEscape _ inductionHypothesis =>
      obtain ⟨fuel, rfl⟩ : ∃ less, fuel = less + 1 := ⟨fuel - 1, by omega⟩
      have later := inductionHypothesis (show _ < fuel by
        simp at enough
        omega)
      have noQuote : '\\' ≠ form.quote := by
        cases form <;> decide
      rw [List.append_assoc, List.cons_append, longBody.eq_def]
      dsimp only
      rw [if_neg noQuote, if_pos ⟨rfl, escapes⟩, isEscape.noGap]
      dsimp only
      rw [isEscape.reads]
      dsimp only
      rw [later]
      rfl

/-! ## From quotes to quotes -/

section Opening

variable
  {form : Form}
  {text body : List Char}

/-- In a short form the text is not taken for one in a long form. -/
theorem Form.Spells.single
    (spells : form.Spells text body)
    (short : form.isLong = false)
    {rest : List Char}
    (ends : rest.head? ≠ some form.quote) :
    ∀ after, body ++ form.quote :: rest ≠ form.quote :: form.quote :: after := by
  intro after shape
  cases spells with
  | nil =>
      rw [List.nil_append, List.cons.injEq] at shape
      exact ends (by rw [shape.2]; rfl)
  | quote few _ =>
      simp [leadingRun_cons, Form.quoteLimit, short] at few
  | plain noQuote _ _ _ =>
      exact noQuote (List.cons.inj shape).1
  | escaped =>
      have isQuote : '\\' = form.quote := (List.cons.inj shape).1
      cases form <;> cases isQuote

theorem dropLineEnd_eq
    {text : List Char}
    (noLineFeed : text.head? ≠ some '\n')
    (noReturn : text.head? ≠ some '\r') :
    dropLineEnd text = text := by
  unfold dropLineEnd
  split
  · exact (noLineFeed rfl).elim
  · exact (noReturn rfl).elim
  · rfl

/-- The line end after the opening quotes is the one that was put there. -/
theorem Form.Spells.dropLineEnd
    (spells : form.Spells text body)
    (rest : List Char) :
    Toml.dropLineEnd
        ((if text.any (· == '\n') then ['\n'] else []) ++ body ++
          form.quote :: rest) =
      body ++ form.quote :: rest := by
  split
  · rfl
  · next oneLine =>
      have noLineFeed : '\n' ∉ text := by
        simpa using oneLine
      have quoteEnds : form.quote ≠ '\n' ∧ form.quote ≠ '\r' := by
        cases form <;> decide
      rw [List.nil_append]
      cases spells with
      | nil =>
          apply dropLineEnd_eq <;> simp [quoteEnds]
      | quote =>
          apply dropLineEnd_eq <;> simp [quoteEnds]
      | escaped =>
          apply dropLineEnd_eq <;> simp
      | @plain c _ _ _ _ shown _ =>
          have notFeed : c ≠ '\n' := by
            rintro rfl
            simp at noLineFeed
          have notReturn : c ≠ '\r' := by
            rintro rfl
            revert shown
            simp [isPrintable]
          apply dropLineEnd_eq <;> simp [notFeed, notReturn]

end Opening

/-- What a text must be like to be written in a form. -/
def Form.Fits (form : Form) (text : List Char) : Prop :=
  form.escapes = false →
    (∀ c ∈ text, isControl c = false) ∧
      ('\n' ∈ text → form.isLong = true) ∧
      longestRun form.quote 0 text ≤ form.quoteLimit

/-- What stands between the quotes. -/
def Form.body (form : Form) (text : List Char) : List Char :=
  if form.escapes then escapeBody form.quoteLimit form.isLong 0 text else text

theorem Form.Fits.spells
    {form : Form}
    {text : List Char}
    (fits : form.Fits text) :
    form.Spells text (form.body text) := by
  unfold Form.body
  split
  · next escapes =>
      exact spells_escapeBody form escapes text 0 (Nat.zero_le _)
  · next noEscapes =>
      obtain ⟨noControl, oneLine, few⟩ := fits (Bool.eq_false_iff.mpr noEscapes)
      exact spells_self form (Bool.eq_false_iff.mpr noEscapes) noControl oneLine
        few

theorem writeForm_eq_cons
    (form : Form)
    (text : List Char) :
    ∃ tail, writeForm form text = form.quote :: tail := by
  cases form <;> exact ⟨_, rfl⟩

/-- A text in a form over several lines, taken apart. -/
theorem writeForm_long
    {form : Form}
    (long : form.isLong = true)
    (text rest : List Char) :
    writeForm form text ++ rest =
      form.quote :: form.quote :: form.quote ::
        ((if text.any (· == '\n') then ['\n'] else []) ++ form.body text ++
          form.quote :: form.quote :: form.quote :: rest) := by
  cases form with
  | basic =>
      cases long
  | literal =>
      cases long
  | longBasic =>
      simp [writeForm, Form.body, Form.quote, Form.escapes, Form.quoteLimit,
        Form.isLong]
  | longLiteral =>
      simp [writeForm, Form.body, Form.quote, Form.escapes]

theorem quotedText_long
    {form : Form}
    (long : form.isLong = true)
    (tail : List Char) :
    quotedText (form.quote :: form.quote :: form.quote :: tail) =
      longBody form.quote form.escapes (tail.length + 1)
        (dropLineEnd tail) := by
  cases form with
  | basic =>
      cases long
  | literal =>
      cases long
  | longBasic =>
      rfl
  | longLiteral =>
      rfl

theorem quotedText_short
    {form : Form}
    (short : form.isLong = false)
    {tail : List Char}
    (single : ∀ after, tail ≠ form.quote :: form.quote :: after) :
    quotedText (form.quote :: tail) =
      if form.escapes then basicBody (tail.length + 1) tail
      else literalBody tail := by
  cases form with
  | basic =>
      change quotedText ('"' :: tail) = basicBody (tail.length + 1) tail
      unfold quotedText
      split
      · next shape =>
          exact (single _ (List.cons.inj shape).2).elim
      · next shape =>
          cases shape
      · next shape =>
          cases shape
          rfl
      · next shape =>
          cases shape
      · next other _ =>
          exact (other _ rfl).elim
  | literal =>
      change quotedText ('\'' :: tail) = literalBody tail
      unfold quotedText
      split
      · next shape =>
          cases shape
      · next shape =>
          exact (single _ (List.cons.inj shape).2).elim
      · next shape =>
          cases shape
      · next shape =>
          cases shape
          rfl
      · next other =>
          exact (other _ rfl).elim
  | longBasic =>
      cases short
  | longLiteral =>
      cases short

/-- The rest of a text in a form on one line is read up to its closing
quote. -/
theorem tail_spells
    {form : Form}
    (short : form.isLong = false)
    {text body : List Char}
    (spells : form.Spells text body)
    (rest : List Char) :
    (if form.escapes then
        basicBody ((body ++ form.quote :: rest).length + 1)
          (body ++ form.quote :: rest)
      else literalBody (body ++ form.quote :: rest)) =
      some (text, rest) := by
  cases form with
  | basic =>
      refine basicBody_spells spells rest ?_
      rw [List.length_append]
      omega
  | literal =>
      exact literalBody_spells spells rest
  | longBasic =>
      cases short
  | longLiteral =>
      cases short

/-- A text in a form on one line, taken apart. -/
theorem writeForm_short
    {form : Form}
    (short : form.isLong = false)
    (text rest : List Char) :
    writeForm form text ++ rest =
      form.quote :: (form.body text ++ form.quote :: rest) := by
  cases form with
  | basic =>
      simp [writeForm, Form.body, Form.quote, Form.escapes, Form.quoteLimit,
        Form.isLong]
  | literal =>
      simp [writeForm, Form.body, Form.quote, Form.escapes]
  | longBasic =>
      cases short
  | longLiteral =>
      cases short

/-- A text in a form that fits it is read back. -/
theorem quotedText_writeForm
    {form : Form}
    {text : List Char}
    (fits : form.Fits text)
    {rest : List Char}
    (ends : rest.head? ≠ some form.quote) :
    quotedText (writeForm form text ++ rest) = some (text, rest) := by
  have spells := fits.spells
  cases long : form.isLong with
  | false =>
      rw [writeForm_short long, quotedText_short long (spells.single long ends),
        tail_spells long spells]
  | true =>
      rw [writeForm_long long, quotedText_long long, spells.dropLineEnd]
      refine longBody_spells long spells ends ?_
      simp
      omega

/-! ## The choice of a form -/

theorem valueForm_fits
    (text : List Char) :
    (Contents.of text).valueForm.Fits text := by
  have noControl (none : ¬ (Contents.of text).control = true) :
      ∀ c ∈ text, isControl c = false := by
    simpa [Contents.of] using none
  have oneLine (none : ¬ (Contents.of text).lineFeed = true) :
      '\n' ∉ text := by
    simpa [Contents.of] using none
  unfold Contents.valueForm
  split
  · intro noEscapes
    cases noEscapes
  split
  · next plain =>
      obtain ⟨control, noQuote, lineFeed⟩ := plain
      intro _
      exact ⟨noControl control, fun member => absurd member (oneLine lineFeed),
        Nat.le_of_eq noQuote⟩
  split
  · intro noEscapes
    cases noEscapes
  split
  · next plain =>
      obtain ⟨control, few⟩ := plain
      intro _
      exact ⟨noControl control, fun _ => rfl, few⟩
  split
  · intro noEscapes
    cases noEscapes
  · intro noEscapes
    cases noEscapes

theorem keyForm_fits
    (text : List Char) :
    (Contents.of text).keyForm.Fits text ∧
      (Contents.of text).keyForm.isLong = false := by
  unfold Contents.keyForm
  split
  · exact ⟨fun noEscapes => Bool.noConfusion noEscapes, rfl⟩
  split
  · next plain =>
      obtain ⟨control, lineFeed, noQuote⟩ := plain
      refine ⟨fun _ => ⟨?_, ?_, Nat.le_of_eq noQuote⟩, rfl⟩
      · simpa [Contents.of] using control
      · have oneLine : '\n' ∉ text := by
          simpa [Contents.of] using lineFeed
        exact fun member => absurd member oneLine
  · exact ⟨fun noEscapes => Bool.noConfusion noEscapes, rfl⟩

/-! ## Values and keys -/

/-- A text at the end of a line is read back. -/
theorem quotedText_writeText
    (text : String)
    (rest : List Char) :
    quotedText (writeText text ++ '\n' :: rest) =
      some (text.toList, '\n' :: rest) := by
  refine quotedText_writeForm (valueForm_fits text.toList) ?_
  cases (Contents.of text.toList).valueForm <;> simp [Form.quote]

theorem simpleKey_quoted
    {form : Form}
    (short : form.isLong = false)
    {text : List Char}
    (fits : form.Fits text)
    (rest : List Char) :
    simpleKey (writeForm form text ++ rest) =
      some (String.ofList text, rest) := by
  rw [writeForm_short short]
  have tail := congrArg
    (Option.map fun read => (String.ofList read.1, read.2))
    (tail_spells short fits.spells rest)
  cases form with
  | basic =>
      exact tail
  | literal =>
      exact tail
  | longBasic =>
      cases short
  | longLiteral =>
      cases short

theorem simpleKey_bare
    {text : List Char}
    (nonempty : text ≠ [])
    (all : ∀ c ∈ text, isKeyChar c = true)
    {rest : List Char}
    (ends : ∀ c ∈ rest.head?, isKeyChar c = false) :
    simpleKey (text ++ rest) = some (String.ofList text, rest) := by
  have restTaken : rest.takeWhile isKeyChar = [] := by
    cases rest with
    | nil =>
        rfl
    | cons c rest =>
        exact List.takeWhile_cons_of_neg (by simp [ends c rfl])
  have restDropped : rest.dropWhile isKeyChar = rest := by
    cases rest with
    | nil =>
        rfl
    | cons c rest =>
        exact List.dropWhile_cons_of_neg (by simp [ends c rfl])
  have taken : (text ++ rest).takeWhile isKeyChar = text := by
    rw [List.takeWhile_append_of_pos all, restTaken, List.append_nil]
  have dropped : (text ++ rest).dropWhile isKeyChar = rest := by
    rw [List.dropWhile_append_of_pos all, restDropped]
  have first : ∀ quote after,
      text ++ rest = quote :: after → isKeyChar quote = true := by
    intro quote after shape
    obtain ⟨c, text, rfl⟩ := List.exists_cons_of_ne_nil nonempty
    rw [← (List.cons.inj shape).1]
    exact all c List.mem_cons_self
  unfold simpleKey
  split
  · next shape =>
      exact absurd (first _ _ shape) (by decide)
  · next shape =>
      exact absurd (first _ _ shape) (by decide)
  · simp [taken, dropped, nonempty]

/-- A key is read back up to the blank after it. -/
theorem simpleKey_writeKey
    (key : String)
    (rest : List Char) :
    simpleKey (writeKey key ++ ' ' :: rest) = some (key, ' ' :: rest) := by
  unfold writeKey
  dsimp only
  split
  · next bare =>
      obtain ⟨nonempty, all⟩ := bare
      have ends : ∀ c ∈ (' ' :: rest).head?, isKeyChar c = false := by
        simp [isKeyChar]
      have read := simpleKey_bare (by simpa using nonempty)
        (List.all_eq_true.mp all) ends
      rw [read, String.ofList_toList]
  · obtain ⟨fits, short⟩ := keyForm_fits key.toList
    rw [simpleKey_quoted short fits, String.ofList_toList]

end Toml

end PositionFeed
