import NodeFlow.Document.Cursor
import NodeFlow.Document.Fault
import NodeFlow.Document.Token
import NodeFlow.Json

/-!
# Names, tags and directives

The tokens that are no contents of their own: the names of anchors, the tags that say what a part
is, and the directives before a document. Each reader starts at the character that marks the token
and returns the place after it.
-/

namespace NodeFlow.Document

/-- Whether a character may stand in a name. -/
def isNameChar (c : Char) : Bool := c.isAlphanum || c == '-' || c == '_'

/-- The end of a line that holds nothing more but a comment. -/
def endOfLine (c : Cursor) : Except Fault Cursor :=
  let c := c.skipSpaces.skipComment
  match c.takeBreak? with
  | some (_, c) => .ok c
  | none => if c.next.isNone then .ok c else .error .token

/-- The name after the mark of an anchor or an alias. -/
def anchorName (c : Cursor) : Except Fault (String × Cursor) :=
  let (name, c) := c.step.takeWhile isNameChar
  let ends := isGap c.next || c.next.any fun ch => "?:,]\x7d%@`".toList.contains ch
  if name.isEmpty || !ends then .error .token else .ok (String.ofList name, c)

/-! ### Tags -/

/-- Whether a character may stand in a tag as it is. -/
def isUriChar (c : Char) : Bool := c.isAlphanum || "-;/?:@&=+$,_.!~*'()[]".toList.contains c

/-- The bytes that the characters of a tag stand for: two digits after a percent sign give one, and
any other character stands for itself. -/
def uriBytes? : List Char → Option (List UInt8)
  | [] => some []
  | '%' :: high :: low :: rest => do
    let high ← Json.hexValue? high
    let low ← Json.hexValue? low
    let bytes ← uriBytes? rest
    return UInt8.ofNat (16 * high + low) :: bytes
  | c :: rest =>
    if c = '%' then none else (uriBytes? rest).map (c.val.toUInt8 :: ·)

/-- The part of a tag that is no handle; it is not empty. -/
def uri (c : Cursor) : Except Fault (String × Cursor) :=
  let (chars, c) := c.takeWhile fun ch => ch == '%' || isUriChar ch
  match (uriBytes? chars).bind (String.fromUTF8? ⟨·.toArray⟩) with
  | some text => if chars.isEmpty then .error .token else .ok (text, c)
  | none => .error .token

/-- The handle of a tag: a lone mark before a space, or a name between two marks. -/
def tagHandle (c : Cursor) : Except Fault (String × Cursor) :=
  if c.next ≠ some '!' then .error .token
  else if c.ahead 1 = some ' ' then .ok ("!", c.step)
  else
    let (name, c) := c.step.takeWhile isNameChar
    if c.next = some '!' then .ok ("!" ++ String.ofList name ++ "!", c.step) else .error .token

/-- A tag: a whole one in angle brackets, the lone mark, or a handle and a suffix. -/
def tag (c : Cursor) : Except Fault (Token × Cursor) := do
  let (token, c) ←
    if c.ahead 1 = some '<' then do
      let (whole, c) ← uri (c.advance 2)
      if c.next = some '>' then pure (Token.tag none whole, c.step) else throw .token
    else if isGap (c.ahead 1) then pure (Token.tag none "!", c.step)
    else do
      let word := c.step.rest.takeWhile fun ch => !endsWord (some ch)
      let (handle, c) ← if word.contains '!' then tagHandle c else pure ("!", c.step)
      let (suffix, c) ← uri c
      pure (Token.tag (some handle) suffix, c)
  if endsWord c.next then return (token, c) else throw .token

/-! ### Directives -/

/-- A number of the version in a directive. -/
def versionNumber (c : Cursor) : Except Fault (Nat × Cursor) :=
  let (digits, c) := c.takeWhile Char.isDigit
  if digits.isEmpty then .error .token
  else if Numeral.digitLimit < digits.length then .error .numeral
  else .ok (Json.digitsValue digits, c)

/-- The version in a directive. -/
def versionDirective (c : Cursor) : Except Fault (Directive × Cursor) := do
  let (major, c) ← versionNumber c.skipSpaces
  if c.next ≠ some '.' then throw .token
  let (minor, c) ← versionNumber c.step
  if endsWord c.next then return (.version major minor, c) else throw .token

/-- The handle in a directive, and what it stands for. -/
def handleDirective (c : Cursor) : Except Fault (Directive × Cursor) := do
  let (name, c) ← tagHandle c.skipSpaces
  if c.next ≠ some ' ' then throw .token
  let (whole, c) ← uri c.skipSpaces
  if endsWord c.next then return (.handle name whole, c) else throw .token

/-- A directive with the end of its line. -/
def directive (c : Cursor) : Except Fault (Directive × Cursor) := do
  let (name, c) := c.step.takeWhile isNameChar
  if name.isEmpty || !endsWord c.next then throw .token
  let (d, c) ←
    if name = "YAML".toList then versionDirective c
    else if name = "TAG".toList then handleDirective c
    else pure (.other, c.skipLine)
  return (d, ← endOfLine c)

end NodeFlow.Document
