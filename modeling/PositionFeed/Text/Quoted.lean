import PositionFeed.Text.Hidden

namespace PositionFeed

/-!
# Text quoted in messages

A message that shows a text it did not expect puts it between double quotes.
Quotes, backslashes and the common control characters are escaped, and a
character without a visible form is shown by its number.
-/

namespace Text

/-- The hexadecimal digits of a number, in lower case. -/
def hexDigits (value : Nat) : List Char :=
  Nat.toDigits 16 value

/-- One character inside a quoted text. -/
def quotedChar (c : Char) : List Char :=
  match c with
  | '\x00' => ['\\', '0']
  | '\t' => ['\\', 't']
  | '\r' => ['\\', 'r']
  | '\n' => ['\\', 'n']
  | '\\' => ['\\', '\\']
  | '"' => ['\\', '"']
  | c =>
      if isHidden c then
        '\\' :: 'u' :: '\x7b' :: hexDigits c.toNat ++ ['\x7d']
      else [c]

/-- A text between double quotes. -/
def quoted (text : String) : String :=
  String.ofList ('"' :: text.toList.flatMap quotedChar ++ ['"'])

end Text

end PositionFeed
