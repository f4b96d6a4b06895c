import PositionFeed.Decimal.Literal
import PositionFeed.Document.Node
import PositionFeed.Word

namespace PositionFeed

/-!
# Scalars in TOML

Numbers, truth values, dates and times are runs of a few ASCII characters; the
functions here decide which value such a run denotes.  Texts have four forms,
which differ in their quotes, in whether escapes mean anything, and in whether
the text may go over several lines.
-/

namespace Toml

/-- Whether a character may stand in a number, a truth value or a date. -/
def isScalarChar (c : Char) : Bool :=
  c.isAlphanum || c == '_' || c == '+' || c == '-' || c == '.' || c == ':'

/-- The digits of a number in groups that single underscores separate. -/
def ungroup (isMember : Char → Bool) : List Char → Option (List Char)
  | [] => none
  | [c] => if isMember c then some [c] else none
  | c :: '_' :: rest =>
      if isMember c then (ungroup isMember rest).map (c :: ·) else none
  | c :: rest =>
      if isMember c then (ungroup isMember rest).map (c :: ·) else none

/-- The value of a digit in a base up to sixteen. -/
def baseDigit? (base : Nat) (c : Char) : Option Nat :=
  let value :=
    if '0' ≤ c ∧ c ≤ '9' then c.toNat - '0'.toNat
    else if 'a' ≤ c ∧ c ≤ 'f' then c.toNat - 'a'.toNat + 10
    else if 'A' ≤ c ∧ c ≤ 'F' then c.toNat - 'A'.toNat + 10
    else base
  if value < base then some value else none

/-- A number after the mark of its base. -/
def basedNumber? (base : Nat) (text : List Char) : Option Nat := do
  let digits ← ungroup (fun c => (baseDigit? base c).isSome) text
  some (digits.foldl
    (fun value c => value * base + (baseDigit? base c).getD 0) 0)

/-- Whole numbers outside these bounds cannot be held at all. -/
def wholeNode (value : Int) : Node :=
  if Word.leastSigned 128 ≤ value ∧ value < Word.size 128 then .integer value
  else .broken

/-- The digits of a decimal number without needless zeros at the beginning. -/
def decimalDigits? (text : List Char) : Option (List Char) := do
  let digits ← ungroup isDigit text
  if 1 < digits.length ∧ digits.head? = some '0' then none else some digits

def whole? (text : List Char) : Option Int :=
  match text with
  | '0' :: 'x' :: rest => (basedNumber? 16 rest).map Int.ofNat
  | '0' :: 'o' :: rest => (basedNumber? 8 rest).map Int.ofNat
  | '0' :: 'b' :: rest => (basedNumber? 2 rest).map Int.ofNat
  | _ => do
      let (negative, rest) := splitSign text
      let digits ← decimalDigits? rest
      let value : Int := digitsValue digits
      some (if negative then -value else value)

/-- The digits of an exponent with its sign, as a text that can be read. -/
def exponentDigits? (text : List Char) : Option (List Char) :=
  match text with
  | '+' :: rest => ungroup isDigit rest
  | '-' :: rest => (ungroup isDigit rest).map ('-' :: ·)
  | rest => ungroup isDigit rest

/-- A number with a fraction or an exponent, as a text without underscores. -/
def fractionText? (text : List Char) : Option (List Char) := do
  let isMark (c : Char) : Bool := c == 'e' || c == 'E'
  let mantissa := text.takeWhile fun c => ! isMark c
  let power := text.dropWhile fun c => ! isMark c
  let whole := mantissa.takeWhile (· != '.')
  let places := mantissa.dropWhile (· != '.')
  let whole ← decimalDigits? whole
  let places ←
    match places with
    | [] => if power.isEmpty then none else some []
    | _ :: rest => (ungroup isDigit rest).map ('.' :: ·)
  let power ←
    match power with
    | [] => some []
    | _ :: rest => (exponentDigits? rest).map ('e' :: ·)
  some (whole ++ places ++ power)

/-- The node of a number with a fraction, an infinity or not-a-number.  A
number too large for a double cannot be held. -/
def fraction? (text : List Char) : Option Node :=
  let (negative, rest) := splitSign text
  if rest = "inf".toList then some (.fraction (Binary64.infinity negative))
  else if rest = "nan".toList then some (.fraction Binary64.nan)
  else do
    let digits ← fractionText? rest
    let value ← FloatLiteral.magnitude? negative digits
    some (if value.isFinite then .fraction value else .broken)

/-- Reads exactly so many digits. -/
def fixedDigits (count : Nat) (text : List Char) : Option (Nat × List Char) :=
  let digits := text.take count
  if digits.length = count ∧ digits.all isDigit then
    some (digitsValue digits, text.drop count)
  else none

/-- Whether a year has a 29th of February. -/
def isLeapYear (year : Nat) : Bool :=
  year % 4 = 0 && (year % 100 != 0 || year % 400 = 0)

def daysInMonth (year month : Nat) : Nat :=
  match month with
  | 2 => if isLeapYear year then 29 else 28
  | 4 => 30
  | 6 => 30
  | 9 => 30
  | 11 => 30
  | _ => 31

/-- The year, month and day at the beginning of a text. -/
def date (text : List Char) : Option (List Char × List Char) := do
  let (year, rest) ← fixedDigits 4 text
  let ('-' :: rest) := rest | none
  let (month, rest) ← fixedDigits 2 rest
  let ('-' :: rest) := rest | none
  let (day, rest) ← fixedDigits 2 rest
  if 1 ≤ month ∧ month ≤ 12 ∧ 1 ≤ day ∧ day ≤ daysInMonth year month then
    some (text.take 10, rest)
  else none

/-- The time of day at the beginning of a text; seconds may be left out. -/
def time (text : List Char) : Option (List Char × List Char) := do
  let (hour, rest) ← fixedDigits 2 text
  let (':' :: rest) := rest | none
  let (minute, rest) ← fixedDigits 2 rest
  if 23 < hour ∨ 59 < minute then none
  match rest with
  | ':' :: rest =>
      let (second, rest) ← fixedDigits 2 rest
      if 60 < second then none
      match rest with
      | '.' :: rest =>
          let places := rest.takeWhile isDigit
          if places.isEmpty then none
          let kept := ((places.take 9).reverse.dropWhile (· == '0')).reverse
          some (text.take 8 ++ (if kept.isEmpty then [] else '.' :: kept),
            rest.dropWhile isDigit)
      | rest => some (text.take 8, rest)
  | rest => some (text.take 5 ++ ":00".toList, rest)

/-- The distance from universal time, to the end of the text. -/
def zone? (text : List Char) : Option (List Char) :=
  match text with
  | [] => some []
  | ['Z'] => some ['Z']
  | ['z'] => some ['Z']
  | sign :: rest => do
      if sign ≠ '+' ∧ sign ≠ '-' then none
      let (hour, rest) ← fixedDigits 2 rest
      let (':' :: rest) := rest | none
      let (minute, rest) ← fixedDigits 2 rest
      if 23 < hour ∨ 59 < minute ∨ ¬ rest.isEmpty then none else some text

/-- A date, a time, or both with an optional distance from universal time. -/
def moment? (text : List Char) : Option (List Char) :=
  match date text with
  | none =>
      match time text with
      | some (spelling, []) => some spelling
      | _ => none
  | some (day, []) => some day
  | some (day, mark :: rest) => do
      if mark ≠ 'T' ∧ mark ≠ 't' ∧ mark ≠ ' ' then none
      let (hour, rest) ← time rest
      let zone ← zone? rest
      some (day ++ 'T' :: hour ++ zone)

/-- The node of a run of scalar characters. -/
def scalar? (text : List Char) : Option Node :=
  if text = "true".toList then some (.boolean true)
  else if text = "false".toList then some (.boolean false)
  else match whole? text with
    | some value => some (wholeNode value)
    | none =>
        match fraction? text with
        | some node => some node
        | none =>
            (moment? text).map fun spelling =>
              .moment (String.ofList spelling)

/-- Reads a number, a truth value, a date or a time.  A space may stand between
a date and a time. -/
def scalar (text : List Char) : Option (Node × List Char) :=
  let run := text.takeWhile isScalarChar
  let rest := text.dropWhile isScalarChar
  match date run, rest with
  | some (_, []), ' ' :: c :: rest =>
      if isDigit c then
        let later := (c :: rest).takeWhile isScalarChar
        (scalar? (run ++ ' ' :: later)).map fun node =>
          (node, (c :: rest).dropWhile isScalarChar)
      else (scalar? run).map fun node => (node, ' ' :: c :: rest)
  | _, rest => (scalar? run).map fun node => (node, rest)

/-- Whether a character may stand for itself in a comment or a text. -/
def isPrintable (c : Char) : Bool :=
  c == '\t' || (0x20 ≤ c.toNat && c.toNat != 0x7f)

/-- The character of a code point, if it is one. -/
def scalarChar? (code : Nat) : Option Char :=
  if code < 0xd800 ∨ (0xdfff < code ∧ code ≤ 0x10ffff) then
    some (Char.ofNat code)
  else none

/-- The character that so many hexadecimal digits stand for. -/
def hexChar (count : Nat) (text : List Char) : Option (Char × List Char) := do
  let digits := text.take count
  if digits.length ≠ count then none
  if ¬ digits.all fun c => (baseDigit? 16 c).isSome then none
  let code := digits.foldl
    (fun value c => value * 16 + (baseDigit? 16 c).getD 0) 0
  let c ← scalarChar? code
  some (c, text.drop count)

/-- The character that an escape stands for, after its backslash. -/
def escape (text : List Char) : Option (Char × List Char) :=
  match text with
  | 'b' :: rest => some ('\x08', rest)
  | 't' :: rest => some ('\t', rest)
  | 'n' :: rest => some ('\n', rest)
  | 'f' :: rest => some ('\x0c', rest)
  | 'r' :: rest => some ('\r', rest)
  | 'e' :: rest => some ('\x1b', rest)
  | '"' :: rest => some ('"', rest)
  | '\\' :: rest => some ('\\', rest)
  | 'x' :: rest => hexChar 2 rest
  | 'u' :: rest => hexChar 4 rest
  | 'U' :: rest => hexChar 8 rest
  | _ => none

/-- A text on one line with escapes, after its opening quote.  The number
bounds the steps; the length of the text is enough. -/
def basicBody : Nat → List Char → Option (List Char × List Char)
  | 0, _ => none
  | _ + 1, [] => none
  | fuel + 1, c :: rest =>
      if c = '"' then some ([], rest)
      else if c = '\\' then do
        let (c, rest) ← escape rest
        let (text, rest) ← basicBody fuel rest
        some (c :: text, rest)
      else if isPrintable c then
        (basicBody fuel rest).map fun read => (c :: read.1, read.2)
      else none

/-- A text on one line without escapes, after its opening quote. -/
def literalBody : List Char → Option (List Char × List Char)
  | [] => none
  | c :: rest =>
      if c = '\'' then some ([], rest)
      else if isPrintable c then
        (literalBody rest).map fun read => (c :: read.1, read.2)
      else none

/-- A text without a line end at its very beginning. -/
def dropLineEnd : List Char → List Char
  | '\n' :: rest => rest
  | '\r' :: '\n' :: rest => rest
  | text => text

/-- The quotes at the end of a text over several lines: up to two belong to
the text and three close it. -/
def closing (quote : Char) (text : List Char) : Option (List Char × List Char) :=
  let quotes := text.takeWhile (· == quote)
  if quotes.length < 3 then none
  else
    let inside := min 2 (quotes.length - 3)
    some (List.replicate inside quote, text.drop (inside + 3))

/-- The text after blanks that run over at least one line end. -/
def continuation? (text : List Char) : Option (List Char) :=
  let isBlank (c : Char) : Bool := c == ' ' || c == '\t'
  let rest := text.dropWhile isBlank
  let isGap (c : Char) : Bool := isBlank c || c == '\n' || c == '\r'
  match rest with
  | '\n' :: _ => some (rest.dropWhile isGap)
  | '\r' :: '\n' :: _ => some (rest.dropWhile isGap)
  | _ => none

/-- A text over several lines, after its opening quotes.  The number bounds
the steps; the length of the text is enough. -/
def longBody (quote : Char) (escapes : Bool) : Nat → List Char → Option (List Char × List Char)
  | 0, _ => none
  | _ + 1, [] => none
  | fuel + 1, c :: rest =>
      let keep (chars : List Char) (rest : List Char) : Option (List Char × List Char) :=
        (longBody quote escapes fuel rest).map fun read =>
          (chars ++ read.1, read.2)
      if c = quote then
        match closing quote (c :: rest) with
        | some closed => some closed
        | none => keep [c] rest
      else if c = '\\' ∧ escapes then
        match continuation? rest with
        | some rest => keep [] rest
        | none =>
            match escape rest with
            | some (c, rest) => keep [c] rest
            | none => none
      else if c = '\n' ∨ isPrintable c then keep [c] rest
      else if c = '\r' then
        match rest with
        | '\n' :: rest => keep ['\r', '\n'] rest
        | _ => none
      else none

/-- A text in any of the four forms. -/
def quotedText (text : List Char) : Option (List Char × List Char) :=
  match text with
  | '"' :: '"' :: '"' :: rest =>
      longBody '"' true (rest.length + 1) (dropLineEnd rest)
  | '\'' :: '\'' :: '\'' :: rest =>
      longBody '\'' false (rest.length + 1) (dropLineEnd rest)
  | '"' :: rest => basicBody (rest.length + 1) rest
  | '\'' :: rest => literalBody rest
  | _ => none

end Toml

end PositionFeed
