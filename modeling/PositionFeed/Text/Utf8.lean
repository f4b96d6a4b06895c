namespace PositionFeed

/-!
# UTF-8

`Utf8.decode` turns bytes into characters.  When the bytes are not UTF-8 it
tells where the first offending sequence begins and how many of its bytes could
not begin any character, or that the input ends inside a character.
-/

namespace Utf8

/-- Why bytes are not UTF-8. -/
inductive Defect where
  /-- So many bytes from an index on are not the beginning of a character. -/
  | invalid (length index : Nat)
  /-- The input ends inside the character that begins at an index. -/
  | incomplete (index : Nat)
  deriving Repr, DecidableEq

/-- The wording of a defect. -/
def Defect.message : Defect → String
  | .invalid length index =>
      s!"invalid utf-8 sequence of {length} bytes from index {index}"
  | .incomplete index =>
      s!"incomplete utf-8 byte sequence from index {index}"

/-- Whether a byte continues a character. -/
def isContinuation (byte : UInt8) : Bool :=
  0x80 ≤ byte && byte ≤ 0xbf

/-- The payload of a continuation byte. -/
def payload (byte : UInt8) : Nat :=
  byte.toNat % 64

/-- Whether a second byte may follow a first byte of a longer character.  The
ranges exclude overlong forms, surrogates and numbers above U+10FFFF. -/
def secondAllowed (first second : UInt8) : Bool :=
  if first == 0xe0 then 0xa0 ≤ second && second ≤ 0xbf
  else if first == 0xed then 0x80 ≤ second && second ≤ 0x9f
  else if first == 0xf0 then 0x90 ≤ second && second ≤ 0xbf
  else if first == 0xf4 then 0x80 ≤ second && second ≤ 0x8f
  else isContinuation second

/-- How many bytes a character has by its first byte, if any has it. -/
def width? (first : UInt8) : Option Nat :=
  if first < 0x80 then some 1
  else if 0xc2 ≤ first && first ≤ 0xdf then some 2
  else if 0xe0 ≤ first && first ≤ 0xef then some 3
  else if 0xf0 ≤ first && first ≤ 0xf4 then some 4
  else none

/-- The outcome of reading one character: the character and its width, the
number of bytes to blame, or the end of the input. -/
inductive Step where
  /-- A character that takes so many bytes. -/
  | character (c : Char) (width : Nat)
  /-- So many bytes are not the beginning of a character. -/
  | invalid (length : Nat)
  /-- The input ends inside a character. -/
  | incomplete
  deriving Repr, DecidableEq

/-- Reads the character that begins with the given byte. -/
def step (first : UInt8) (rest : List UInt8) : Step :=
  match width? first with
  | none => .invalid 1
  | some 1 => .character (Char.ofNat first.toNat) 1
  | some 2 =>
      match rest with
      | [] => .incomplete
      | second :: _ =>
          if isContinuation second then
            .character
              (Char.ofNat (first.toNat % 32 * 64 + payload second)) 2
          else .invalid 1
  | some 3 =>
      match rest with
      | [] => .incomplete
      | second :: rest =>
          if secondAllowed first second then
            match rest with
            | [] => .incomplete
            | third :: _ =>
                if isContinuation third then
                  .character
                    (Char.ofNat ((first.toNat % 16 * 64 + payload second) * 64 +
                      payload third)) 3
                else .invalid 2
          else .invalid 1
  | some _ =>
      match rest with
      | [] => .incomplete
      | second :: rest =>
          if secondAllowed first second then
            match rest with
            | [] => .incomplete
            | third :: rest =>
                if isContinuation third then
                  match rest with
                  | [] => .incomplete
                  | fourth :: _ =>
                      if isContinuation fourth then
                        .character
                          (Char.ofNat (((first.toNat % 8 * 64 + payload second) * 64 +
                            payload third) * 64 + payload fourth)) 4
                      else .invalid 3
                else .invalid 2
          else .invalid 1

/-- Decodes the bytes from an index of the whole input on. -/
def decodeFrom (index : Nat) (bytes : List UInt8) : Except Defect (List Char) :=
  match bytes with
  | [] => .ok []
  | first :: rest =>
      match step first rest with
      | .character c width =>
          (decodeFrom (index + width) (rest.drop (width - 1))).map (c :: ·)
      | .invalid length => .error (.invalid length index)
      | .incomplete => .error (.incomplete index)
  termination_by bytes.length
  decreasing_by simp only [List.length_drop, List.length_cons]; omega

/-- The characters that bytes encode. -/
def decode (bytes : List UInt8) : Except Defect (List Char) :=
  decodeFrom 0 bytes

/-- The bytes of one character. -/
def encodeChar (c : Char) : List UInt8 :=
  let code := c.toNat
  let tail (shift : Nat) : UInt8 := UInt8.ofNat (0x80 + code / shift % 64)
  if code < 0x80 then [UInt8.ofNat code]
  else if code < 0x800 then [UInt8.ofNat (0xc0 + code / 64), tail 1]
  else if code < 0x10000 then
    [UInt8.ofNat (0xe0 + code / 4096), tail 64, tail 1]
  else
    [UInt8.ofNat (0xf0 + code / 262144), tail 4096, tail 64, tail 1]

/-- The bytes of a text. -/
def encode (text : List Char) : List UInt8 :=
  text.flatMap encodeChar

end Utf8

end PositionFeed
