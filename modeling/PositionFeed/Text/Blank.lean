namespace PositionFeed

/-!
# White space

`isBlank` is the Unicode property `White_Space`.  `trim` removes blank
characters from both ends of a text, which is all that a record of coordinates
allows around its fields.
-/

namespace Text

/-- Whether a character is white space in the sense of Unicode. -/
def isBlank (c : Char) : Bool :=
  let code := c.toNat
  (0x09 ≤ code && code ≤ 0x0d) || code == 0x20 || code == 0x85 ||
    code == 0xa0 || code == 0x1680 || (0x2000 ≤ code && code ≤ 0x200a) ||
    code == 0x2028 || code == 0x2029 || code == 0x202f || code == 0x205f ||
    code == 0x3000

/-- A text without the white space at its end. -/
def trimEnd (text : List Char) : List Char :=
  (text.reverse.dropWhile isBlank).reverse

/-- A text without the white space at its ends. -/
def trim (text : List Char) : List Char :=
  trimEnd (text.dropWhile isBlank)

/-- A text in which `A` to `Z` are replaced by `a` to `z`.

Names of formats are compared in this form.  They hold only letters that no
character outside ASCII has as its lower case, so nothing else needs folding. -/
def lowered (text : String) : String :=
  String.ofList (text.toList.map Char.toLower)

/-- The pieces of a text between the occurrences of a separator. -/
def splitAt (separator : Char) : List Char → List (List Char)
  | [] => [[]]
  | c :: rest =>
      if c = separator then [] :: splitAt separator rest
      else match splitAt separator rest with
        | [] => [[c]]
        | piece :: pieces => (c :: piece) :: pieces

end Text

end PositionFeed
