/-!
# Bytes in base 64

Bytes written as text, four characters for three bytes. The reader passes over characters outside
the alphabet, and ends at the padding of an incomplete group; a group that ends without its padding
is a fault.
-/

namespace NodeFlow.Document.Base64

/-- The character of a value below 64. -/
def digit (n : Nat) : Char :=
  if n < 26 then Char.ofNat ('A'.toNat + n)
  else if n < 52 then Char.ofNat ('a'.toNat + (n - 26))
  else if n < 62 then Char.ofNat ('0'.toNat + (n - 52))
  else if n = 62 then '+'
  else '/'

/-- The value of a character of the alphabet. -/
def digitValue? (c : Char) : Option Nat :=
  if 'A' ≤ c ∧ c ≤ 'Z' then some (c.toNat - 'A'.toNat)
  else if 'a' ≤ c ∧ c ≤ 'z' then some (c.toNat - 'a'.toNat + 26)
  else if '0' ≤ c ∧ c ≤ '9' then some (c.toNat - '0'.toNat + 52)
  else if c = '+' then some 62
  else if c = '/' then some 63
  else none

/-- The first byte of a group, from its first two values. -/
def firstByte (a b : Nat) : UInt8 := UInt8.ofNat (a * 4 + b / 16)

/-- The second byte of a group, from its second and third value. -/
def secondByte (b c : Nat) : UInt8 := UInt8.ofNat (b % 16 * 16 + c / 4)

/-- The third byte of a group, from its last two values. -/
def thirdByte (c d : Nat) : UInt8 := UInt8.ofNat (c % 4 * 64 + d)

/-! ### Writing -/

/-- Bytes as text. -/
def encode : List UInt8 → List Char
  | [] => []
  | [x] => [digit (x.toNat / 4), digit (x.toNat % 4 * 16), '=', '=']
  | [x, y] =>
    [digit (x.toNat / 4), digit (x.toNat % 4 * 16 + y.toNat / 16), digit (y.toNat % 16 * 4), '=']
  | x :: y :: z :: rest =>
    digit (x.toNat / 4) :: digit (x.toNat % 4 * 16 + y.toNat / 16)
      :: digit (y.toNat % 16 * 4 + z.toNat / 64) :: digit (z.toNat % 64) :: encode rest

/-! ### Reading -/

/-- What has been read of a group of four characters: the values so far, and the padding after
them. -/
inductive Group where
  | empty
  | one (a : Nat)
  | two (a b pads : Nat)
  | three (a b c : Nat)

/-- The rest of the bytes of a text, in the middle of a group. -/
def decodeFrom? : Group → List Char → Option (List UInt8)
  | .empty, [] => some []
  | _, [] => none
  | group, c :: rest =>
    match group, digitValue? c with
    | .empty, some a => decodeFrom? (.one a) rest
    | .one a, some b => decodeFrom? (.two a b 0) rest
    | .two a b _, some x => decodeFrom? (.three a b x) rest
    | .three a b x, some d =>
      (decodeFrom? .empty rest).map fun bs => firstByte a b :: secondByte b x :: thirdByte x d :: bs
    | .two a b pads, none =>
      if c ≠ '=' then decodeFrom? group rest
      else if pads = 0 then decodeFrom? (.two a b 1) rest
      else some [firstByte a b]
    | .three a b x, none =>
      if c ≠ '=' then decodeFrom? group rest else some [firstByte a b, secondByte b x]
    | group, none => decodeFrom? group rest

/-- The bytes of a text. -/
def decode? (s : List Char) : Option (List UInt8) := decodeFrom? .empty s

end NodeFlow.Document.Base64
