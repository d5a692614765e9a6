/-!
# Broken texts

A text from outside may hold one half of a surrogate pair without the other. The half has a code but
is no character, so that a private character stands for it, whose code is higher by `standIn`. A
text with such a character is broken: it can be joined and shown, but is no text in UTF-8.

The private characters from U+10D800 to U+10DFFF, to which no meaning is given by the standard, are
used up by this. A text in which one of them stands for itself is outside of what is described here:
it is taken for a broken one.
-/

namespace NodeFlow.Text

/-- Whether a code is that of half a surrogate pair. -/
def isHalf (code : Nat) : Bool := 0xD800 ≤ code && code < 0xE000

/-- How much higher than the code of half a pair the code of its character is. -/
def standIn : Nat := 0x100000

/-- The character for a code, which may be that of half a surrogate pair. -/
def charOfCode (code : Nat) : Char := Char.ofNat (if isHalf code then code + standIn else code)

/-- The code that a character stands for. -/
def codeOf (c : Char) : Nat := if isHalf (c.toNat - standIn) then c.toNat - standIn else c.toNat

/-- The codes that the characters of a text stand for. Texts are put in order by these. -/
def codes (s : String) : List Nat := s.toList.map codeOf

/-- Whether a text holds half of a surrogate pair. -/
def isBroken (s : String) : Bool := s.toList.any fun c => isHalf (codeOf c)

/-- The text with each half of a surrogate pair given up: three replacement characters for the three
bytes it would have had. -/
def mended (s : String) : String :=
  String.ofList (s.toList.flatMap fun c =>
    if isHalf (codeOf c) then ['\uFFFD', '\uFFFD', '\uFFFD'] else [c])

end NodeFlow.Text
