import NodeFlow.Value.Calendar

/-!
# What an untagged plain text is

A plain text without a tag is told by its form: nothing, a truth value, a number, a date or a moment
of a day, and otherwise a text. Numbers may have underscores among their digits, and may be written
in groups of sixty.
-/

namespace NodeFlow.Document

/-- What a part of a document is. -/
inductive Tag where
  | null
  | bool
  | int
  | float
  | str
  | bytes
  | timestamp
  | list
  | record
  /-- A list of records of one entry each. -/
  | pairs
  /-- A record whose keys alone count. -/
  | set
  /-- A key whose value is merged into its record. -/
  | merge
  /-- A key whose value stands for its record. -/
  | value
  /-- Anything else. -/
  | other
deriving DecidableEq, Repr

/-- The tag with a given name in the common vocabulary. -/
def Tag.ofName (name : String) : Tag :=
  match name with
  | "null" => .null
  | "bool" => .bool
  | "int" => .int
  | "float" => .float
  | "str" => .str
  | "binary" => .bytes
  | "timestamp" => .timestamp
  | "seq" => .list
  | "map" => .record
  | "omap" | "pairs" => .pairs
  | "set" => .set
  | "merge" => .merge
  | "value" => .value
  | _ => .other

/-- What the names of the common vocabulary begin with. -/
def Tag.vocabulary : String := "tag:yaml.org,2002:"

/-- The tag with a full name. -/
def Tag.ofUri (uri : String) : Tag :=
  if vocabulary.toList.isPrefixOf uri.toList then
    .ofName (String.ofList (uri.toList.drop vocabulary.length))
  else .other

/-! ### Numbers -/

/-- Whether a character is a digit or an underscore. -/
def isDigitOrUnderscore (c : Char) : Bool := c.isDigit || c == '_'

/-- Whether a text is a digit and then digits and underscores. -/
def isDigits : List Char → Bool
  | [] => false
  | c :: rest => c.isDigit && rest.all isDigitOrUnderscore

/-- Whether a text is digits and underscores and starts with a digit other than zero. -/
def isNonzeroDigits (s : List Char) : Bool := isDigits s && s.head? != some '0'

/-- A text without its sign. -/
def unsigned : List Char → List Char
  | '+' :: rest | '-' :: rest => rest
  | s => s

/-- Whether a text is a number below sixty, of one digit or two. -/
def isSixtieth : List Char → Bool
  | [c] => c.isDigit
  | [t, c] => '0' ≤ t && t ≤ '5' && c.isDigit
  | _ => false

/-- Whether a text is groups of sixty whose first group is as described. -/
def isSexagesimal (first : List Char → Bool) (s : List Char) : Bool :=
  match s.splitOn ':' with
  | head :: group :: groups => first head && (group :: groups).all isSixtieth
  | _ => false

/-- Whether a text is at least one character, all of some kind. -/
def isRun (p : Char → Bool) (s : List Char) : Bool := !s.isEmpty && s.all p

/-- Whether a text has the form of an integer. -/
def isInteger (s : List Char) : Bool :=
  let body := unsigned s
  let hexadecimal : Char → Bool := fun c =>
    c.isDigit || ('a' ≤ c && c ≤ 'f') || ('A' ≤ c && c ≤ 'F') || c == '_'
  let prefixed : Bool := match body with
    | '0' :: 'b' :: digits => isRun (fun c => c == '0' || c == '1' || c == '_') digits
    | '0' :: 'x' :: digits => isRun hexadecimal digits
    | '0' :: digits => digits.all fun c => ('0' ≤ c && c ≤ '7') || c == '_'
    | _ => false
  prefixed || isNonzeroDigits body || isSexagesimal isNonzeroDigits body

/-- Whether a text is an exponent with its sign, or nothing. -/
def isExponent : List Char → Bool
  | [] => true
  | e :: sign :: digits =>
    (e == 'e' || e == 'E') && (sign == '+' || sign == '-') && isRun Char.isDigit digits
  | _ => false

/-- Whether a text has the form of a number with a point. -/
def isFloat (s : List Char) : Bool :=
  let body := unsigned s
  let whole := body.takeWhile (· != '.')
  match body.dropWhile (· != '.') with
  | [] => false
  | _ :: rest =>
    let places := rest.takeWhile isDigitOrUnderscore
    let ending := rest.dropWhile isDigitOrUnderscore
    if whole.isEmpty then
      (body == s && isDigits places && isExponent ending)
        || ["inf", "Inf", "INF"].any (·.toList == rest)
        || (body == s && ["nan", "NaN", "NAN"].any (·.toList == rest))
    else
      (isDigits whole && isExponent ending) || (isSexagesimal isDigits whole && ending.isEmpty)

/-! ### Dates -/

/-- The digits of a text up to two, and the rest. -/
def oneOrTwoDigits? : List Char → Option (List Char × List Char)
  | c :: d :: rest =>
    if c.isDigit then
      if d.isDigit then some ([c, d], rest) else some ([c], d :: rest)
    else none
  | [c] => if c.isDigit then some ([c], []) else none
  | [] => none

/-- The first two characters of a text if they are digits, and the rest. -/
def twoDigits? : List Char → Option (List Char × List Char)
  | c :: d :: rest => if c.isDigit && d.isDigit then some ([c, d], rest) else none
  | _ => none

/-- A text without the character it has to begin with. -/
def after? (c : Char) : List Char → Option (List Char)
  | d :: rest => if c = d then some rest else none
  | [] => none

/-- The parts of a date in a text, as digits. -/
structure DateText where
  year : List Char
  month : List Char
  day : List Char

/-- The distance from universal time in a text: none at all, or a sign, hours and minutes. -/
inductive OffsetText where
  | universal
  | signed (negative : Bool) (hours minutes : List Char)

/-- The parts of a time of day in a text, as digits. -/
structure TimeText where
  hour : List Char
  minute : List Char
  second : List Char
  fraction : List Char
  offset : Option OffsetText

/-- The distance from universal time that a text is. -/
def offsetText? (s : List Char) : Option OffsetText :=
  match s with
  | ['Z'] => some .universal
  | sign :: rest =>
    if sign = '+' ∨ sign = '-' then do
      let (hours, rest) ← oneOrTwoDigits? rest
      match rest with
      | [] => return .signed (sign == '-') hours []
      | ':' :: rest =>
        let (minutes, rest) ← twoDigits? rest
        guard rest.isEmpty
        return .signed (sign == '-') hours minutes
      | _ => none
    else none
  | [] => none

/-- The time of day that a text is. -/
def timeText? (s : List Char) : Option TimeText := do
  let (hour, rest) ← oneOrTwoDigits? s
  let (minute, rest) ← twoDigits? (← after? ':' rest)
  let (second, rest) ← twoDigits? (← after? ':' rest)
  let (fraction, rest) := match rest with
    | '.' :: rest => (rest.takeWhile Char.isDigit, rest.dropWhile Char.isDigit)
    | rest => ([], rest)
  let zone := rest.dropWhile fun c => c == ' ' || c == '\t'
  if rest.isEmpty then return ⟨hour, minute, second, fraction, none⟩
  else return ⟨hour, minute, second, fraction, some (← offsetText? zone)⟩

/-- The date and perhaps the time of day that a text is. -/
def timestamp? (s : List Char) : Option (DateText × Option TimeText) := do
  let year := s.take 4
  guard (year.length = 4 ∧ year.all Char.isDigit)
  let (month, rest) ← oneOrTwoDigits? (← after? '-' (s.drop 4))
  let (day, rest) ← oneOrTwoDigits? (← after? '-' rest)
  let date : DateText := ⟨year, month, day⟩
  match rest with
  | [] => return (date, none)
  | c :: time =>
    if c = 'T' ∨ c = 't' then return (date, some (← timeText? time))
    else if c = ' ' ∨ c = '\t' then
      return (date, some (← timeText? (time.dropWhile fun c => c == ' ' || c == '\t')))
    else none

/-- Whether a text has the form of a date or of a moment. A date alone has all its digits. -/
def isTimestamp (s : List Char) : Bool :=
  match timestamp? s with
  | some (_, some _) => true
  | some (_, none) => s.length == 10
  | none => false

/-! ### Untagged texts -/

/-- What a plain text without a tag is. A line end at its end does not count. -/
def implicitTag (text : String) : Tag :=
  let s := text.toList
  let s := if s.getLast? = some '\n' ∧ 1 < s.length then s.dropLast else s
  let word (words : List String) : Bool := words.any (·.toList == s)
  if word ["yes", "Yes", "YES", "no", "No", "NO", "true", "True", "TRUE", "false", "False", "FALSE",
      "on", "On", "ON", "off", "Off", "OFF"] then .bool
  else if isFloat s then .float
  else if isInteger s then .int
  else if word ["<<"] then .merge
  else if word ["", "~", "null", "Null", "NULL"] then .null
  else if isTimestamp s then .timestamp
  else if word ["="] then .value
  else .str

end NodeFlow.Document
