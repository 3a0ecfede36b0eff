import Markup.Number.Literal
import Markup.Toml.Scan

/-!
# Reading TOML

The grammar of TOML 1.0, from single characters up to the statements of a document.

At most `maxNesting` arrays and tables in braces may stand inside one another, and a key has at
most as many parts. A number whose size is beyond all bounds is refused unless it is negative.

- `Toml.value`: a value.
- `Toml.statements`: the statements of a text.
- `Toml.read?`: the table of a text, if the text is well formed.
-/

namespace Markup.Toml

open Scan

/-! ### Characters and line ends -/

def isBlank (c : Char) : Bool := c = ' ' || c = '\t'

def blanks : Scan Unit := do
  let _ ← chars isBlank

def newline : Scan Unit := exactly ['\n'] <|> exactly ['\r', '\n']

/-- The characters that may stand in a comment. -/
def isCommentChar (c : Char) : Bool := c = '\t' || (32 ≤ c.toNat && c.toNat ≠ 127)

def comment : Scan Unit := do
  exactly ['#']
  let _ ← chars isCommentChar

/-- What may follow the content of a line. -/
def lineEnd : Scan Unit := do
  blanks
  let _ ← orNone comment
  newline <|> ending

/-- Blanks, comments and line ends, between the items of an array. -/
def gaps : Scan Unit := do
  let _ ← many (do
    blanks
    let _ ← orNone comment
    newline)
  blanks

/-! ### Texts -/

def isLiteralChar (c : Char) : Bool := isCommentChar c && c ≠ '\''

def isBasicChar (c : Char) : Bool := isCommentChar c && c ≠ '"' && c ≠ '\\'

def isHexDigit (c : Char) : Bool :=
  c.isDigit || ('a' ≤ c && c ≤ 'f') || ('A' ≤ c && c ≤ 'F')

def digitValue (c : Char) : Nat :=
  if c.isDigit then c.toNat - 48
  else if 'a' ≤ c then c.toNat - 87
  else c.toNat - 55

/-- The number that digits denote in a base. -/
def digitsValue (base : Nat) (ds : List Char) : Nat :=
  ds.foldl (fun n d => base * n + digitValue d) 0

/-- A character by its number, in so many digits. -/
def charByNumber (digits : Nat) : Scan Char := do
  let n := digitsValue 16 (← times isHexDigit digits)
  require (n.isValidChar)
  return .ofNat n

/-- An escape. -/
def escape : Scan Char := do
  exactly ['\\']
  let c ← char fun _ => true
  if c = 'b' then return '\x08'
  else if c = 't' then return '\t'
  else if c = 'n' then return '\n'
  else if c = 'f' then return '\x0c'
  else if c = 'r' then return '\r'
  else if c = '"' then return '"'
  else if c = '\\' then return '\\'
  else if c = 'u' then charByNumber 4
  else if c = 'U' then charByNumber 8
  else failure

/-- A text on one line in quotation marks. -/
def basicText : Scan (List Char) := do
  exactly ['"']
  let cs ← many (char isBasicChar <|> escape)
  exactly ['"']
  return cs

/-- A text on one line in apostrophes, where nothing is escaped. -/
def literalText : Scan (List Char) := do
  exactly ['\'']
  let cs ← chars isLiteralChar
  exactly ['\'']
  return cs

/-- A backslash at the end of a line, with the white space that it removes. -/
def joinedLines : Scan Unit := do
  exactly ['\\']
  blanks
  newline
  let _ ← many (newline <|> (do let _ ← char isBlank))

/-- A piece of a text over several lines. -/
def linesPiece (mark : Char) : Scan (List Char) :=
  let plain : Scan (List Char) := do
    return [← char fun c => isCommentChar c && c ≠ mark && (c ≠ '\\' || mark = '\'')]
  let escaped : Scan (List Char) := do
    require (mark = '"')
    (do joinedLines; return []) <|> (do return [← escape])
  plain <|> (do newline; return ['\n']) <|> escaped

/-- Marks within a text over several lines, which are fewer than three and not at its end. -/
def linesMarks (mark : Char) : Scan (List Char) := do
  let marks ← (do exactly [mark, mark]; return [mark, mark]) <|> (do exactly [mark]; return [mark])
  return marks ++ (← linesPiece mark)

/-- A text over several lines. A line end right after the opening marks does not count, and up to
two marks may stand before the closing ones. -/
def linesText (mark : Char) : Scan (List Char) := do
  exactly [mark, mark, mark]
  let _ ← orNone newline
  let pieces ← many (linesPiece mark <|> linesMarks mark)
  let last ←
    (do exactly [mark, mark, mark, mark, mark]; return [mark, mark]) <|>
    (do exactly [mark, mark, mark, mark]; return [mark]) <|>
    (do exactly [mark, mark, mark]; return [])
  return pieces.flatten ++ last

def anyText : Scan String := do
  return String.ofList (← linesText '"' <|> basicText <|> linesText '\'' <|> literalText)

/-! ### Keys -/

/-- How deep arrays and tables in braces may nest, and how many parts a key may have. -/
def maxNesting : Nat := 79

def isBareKeyChar (c : Char) : Bool := c.isAlphanum || c = '_' || c = '-'

def bareKey : Scan (List Char) := do
  let cs ← chars isBareKeyChar
  require (cs ≠ [])
  return cs

def simpleKey : Scan Key := do
  blanks
  let (span, cs) ← located (basicText <|> literalText <|> bareKey)
  blanks
  return ⟨String.ofList cs, span⟩

/-- The parts of a key: the path to a table, and the key in it. -/
def key : Scan (List Key × Key) := do
  let parts ← separated (exactly ['.']) simpleKey
  require (parts.length ≤ maxNesting)
  match parts.getLast? with
  | some last => return (parts.dropLast, last)
  | none => failure

/-! ### Numbers -/

/-- Digits, with single underscores between them. -/
def digitRun (wanted : Char → Bool) : Scan (List Char) := do
  let first ← char wanted
  let others ← many (char wanted <|> (do exactly ['_']; char wanted))
  return first :: others

/-- The digits of a decimal integer, without a zero in front. -/
def decimalDigits : Scan (List Char) :=
  (do
    match ← peek with
    | some c => require (c ≠ '0')
    | none => failure
    digitRun Char.isDigit) <|>
  (do return [← char (· = '0')])

/-- A sign, and whether it is negative. -/
def sign : Scan Bool :=
  (do exactly ['+']; return false) <|> (do exactly ['-']; return true) <|> pure false

/-- An integer that 64 bits hold. -/
def inRange (n : Int) : Scan Int := do
  require (-2 ^ (63 : Nat) ≤ n && n < 2 ^ (63 : Nat))
  return n

/-- An integer in a base that its first characters name. -/
def basedInteger (letter : Char) (base : Nat) (wanted : Char → Bool) : Scan Int := do
  exactly ['0', letter]
  inRange (digitsValue base (← digitRun wanted))

def decimalInteger : Scan Int := do
  let negative ← sign
  let n : Int := digitsValue 10 (← decimalDigits)
  inRange (if negative then -n else n)

def integer : Scan Int :=
  basedInteger 'x' 16 isHexDigit <|>
  basedInteger 'o' 8 (fun c => '0' ≤ c && c ≤ '7') <|>
  basedInteger 'b' 2 (fun c => c = '0' || c = '1') <|>
  decimalInteger

def exponent : Scan Int := do
  let _ ← char fun c => c = 'e' || c = 'E'
  let negative ← sign
  let n : Int := digitsValue 10 (← digitRun Char.isDigit)
  return if negative then -n else n

/-- A number with a fraction or an exponent. -/
def decimalFloat : Scan Number := do
  let negative ← sign
  let whole ← decimalDigits
  let (places, power) ←
    (do return ([], ← exponent)) <|>
    (do
      exactly ['.']
      let places ← digitRun Char.isDigit
      return (places, (← orNone exponent).getD 0))
  let x := Literal.number ⟨negative, whole, places, power⟩
  require (x ≠ .infinite false)
  return x

def specialFloat : Scan Number := do
  let negative ← sign
  (do exactly ['i', 'n', 'f']; return .infinite negative) <|>
  (do exactly ['n', 'a', 'n']; return .nan)

/-! ### Dates and times -/

/-- A number of so many digits within bounds. -/
def bounded (digits low high : Nat) : Scan Nat := do
  let n := digitsValue 10 (← times Char.isDigit digits)
  require (low ≤ n && n ≤ high)
  return n

def isLeapYear (year : Nat) : Bool := year % 4 = 0 && (year % 100 ≠ 0 || year % 400 = 0)

def daysInMonth (year month : Nat) : Nat :=
  if month = 2 then (if isLeapYear year then 29 else 28)
  else if month = 4 || month = 6 || month = 9 || month = 11 then 30
  else 31

def date : Scan Unit := do
  let year ← bounded 4 0 9999
  exactly ['-']
  let month ← bounded 2 1 12
  exactly ['-']
  let _ ← bounded 2 1 (daysInMonth year month)

def time : Scan Unit := do
  let _ ← bounded 2 0 23
  exactly [':']
  let _ ← bounded 2 0 59
  exactly [':']
  let _ ← bounded 2 0 60
  let _ ← orNone (do exactly ['.']; many1Digits)
where
  many1Digits : Scan Unit := do
    let ds ← chars Char.isDigit
    require (ds ≠ [])

def zone : Scan Unit :=
  (do let _ ← char fun c => c = 'Z' || c = 'z') <|>
  (do
    let _ ← char fun c => c = '+' || c = '-'
    let _ ← bounded 2 0 23
    exactly [':']
    let _ ← bounded 2 0 59)

def dateTime : Scan Unit :=
  (do
    date
    let _ ← orNone (do
      let _ ← char fun c => c = 'T' || c = 't' || c = ' '
      time
      orNone zone)) <|>
  time

/-! ### Values -/

/-- A value that is neither an array nor a table. -/
def scalar : Scan Item :=
  (do let (span, s) ← located anyText; return .text span s) <|>
  (do let (span, _) ← located dateTime; return .dateTime span) <|>
  (do let (span, x) ← located (decimalFloat <|> specialFloat); return .float span x) <|>
  (do let (span, n) ← located integer; return .integer span n) <|>
  (do let (span, _) ← located (exactly "true".toList); return .boolean span true) <|>
  (do let (span, _) ← located (exactly "false".toList); return .boolean span false)

/-- An array whose items are read by `item`. A comma may follow the last. -/
def array (item : Scan Item) : Scan Item := do
  let (span, items) ← located do
    exactly ['[']
    let spaced : Scan Item := do
      gaps
      let v ← item
      gaps
      return v
    let items ← separated (exactly [',']) spaced <|> pure []
    let _ ← orNone (do require (items.length ≠ 0); exactly [','])
    gaps
    exactly [']']
    return items
  return .array span items

/-- An entry of a table in braces. -/
def entry (item : Scan Item) : Scan (List Key × Key × Item) := do
  let (path, k) ← key
  exactly ['=']
  blanks
  let v ← item
  blanks
  return (path, k, v)

/-- A table in braces whose values are read by `item`. -/
def bracedTable (item : Scan Item) : Scan Item := do
  let (span, entries) ← located do
    exactly ['\x7b']
    let entries ← separated (exactly [',']) (entry item) <|> pure []
    blanks
    exactly ['\x7d']
    return entries
  let build := entries.foldlM (fun t (path, k, v) => Table.assign? path k v t) ([] : Table)
  match build with
  | some t => return .table (.braces span) t
  | none => failure

/-- A value in which at most so many arrays and tables in braces nest. -/
def value : Nat → Scan Item
  | 0 => scalar
  | room + 1 => scalar <|> array (value room) <|> bracedTable (value room)

/-! ### Documents -/

def assignment : Scan Statement := do
  let (path, k) ← key
  exactly ['=']
  blanks
  let v ← value maxNesting
  lineEnd
  return .assign path k v

def nextHeader : Scan Statement := do
  let (span, path, k) ← located do
    exactly ['[', '[']
    let k ← key
    exactly [']', ']']
    return k
  lineEnd
  return .nextHeader path k span

def header : Scan Statement := do
  let (span, path, k) ← located do
    exactly ['[']
    let k ← key
    exactly [']']
    return k
  lineEnd
  return .header path k span

/-- A line with nothing to say, or a statement. -/
def line : Scan (Option Statement) := do
  let found ←
    (do comment; (newline <|> ending); return none) <|>
    (do newline; return none) <|>
    (some <$> (nextHeader <|> header <|> assignment))
  blanks
  return found

/-- The statements of a text. A byte order mark may stand in front. -/
def statements : Scan (List Statement) := do
  let _ ← orNone (char (· = '\ufeff'))
  blanks
  let lines ← many line
  ending
  return lines.filterMap id

/-- The table of a text, if the text is well formed. -/
def read? (s : String) : Option Table := do
  let (found, _) ← statements ⟨0, s.toList⟩
  build? found

end Markup.Toml
