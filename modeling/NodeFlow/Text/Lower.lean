import NodeFlow.Text.Cased

/-!
# Lower case

The lower case of a text: letter by letter, with two exceptions. A capital dotted I becomes an `i`
followed by a combining dot, and a capital sigma at the end of a word becomes a final sigma.
-/

namespace NodeFlow.Text

/-- Whether the characters on one side of a letter, the nearest first, continue its word. -/
def continuesWord (side : List Char) : Bool :=
  match side.dropWhile caseIgnorables.has with
  | [] => false
  | c :: _ => casedLetters.has c

/-- The lower case of a text whose preceding characters, the nearest first, are `before`. -/
def lowerAfter : List Char → List Char → List Char
  | _, [] => []
  | before, c :: rest =>
    let here :=
      if c = 'İ' then ['i', '\u0307']
      else if c = 'Σ' then [if continuesWord before && !continuesWord rest then 'ς' else 'σ']
      else [lowerChar c]
    here ++ lowerAfter (c :: before) rest

/-- The lower case of a text. -/
def lower (s : List Char) : List Char := lowerAfter [] s

end NodeFlow.Text
