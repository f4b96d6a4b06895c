namespace PositionFeed

/-!
# Base 64

Three bytes are written as four characters out of sixty-four.  Where one or two
bytes are left over, equals signs fill the last four characters up.
-/

namespace Base64

/-- The character for a number below sixty-four. -/
def digit (value : Nat) : Char :=
  if value < 26 then Char.ofNat (65 + value)
  else if value < 52 then Char.ofNat (97 + (value - 26))
  else if value < 62 then Char.ofNat (48 + (value - 52))
  else if value = 62 then '+'
  else '/'

/-- The text of bytes. -/
def encode : List UInt8 → List Char
  | [] => []
  | [first] =>
      let value := first.toNat
      [digit (value / 4), digit (value % 4 * 16), '=', '=']
  | [first, second] =>
      let value := first.toNat * 256 + second.toNat
      [digit (value / 1024), digit (value / 16 % 64), digit (value % 16 * 4), '=']
  | first :: second :: third :: rest =>
      let value := (first.toNat * 256 + second.toNat) * 256 + third.toNat
      [digit (value / 262144), digit (value / 4096 % 64), digit (value / 64 % 64),
        digit (value % 64)] ++ encode rest

end Base64

end PositionFeed
