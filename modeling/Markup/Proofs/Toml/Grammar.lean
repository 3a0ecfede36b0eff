import Markup.Toml.Reader

/-!
# The grammar of TOML

Which texts are TOML 1.0 documents and what they say, by the productions of the grammar and without a
reader. Since a document keeps the places its parts were written at, a production relates the place
where it begins, what it denotes and the place where it ends. Nothing is said of the order in which
alternatives are tried; where the standard takes as much as there is, the production asks what comes
next.

A reader may refuse documents beyond some bounds, which are the parameter `Limits`: `Limits.none` is
TOML 1.0 itself, where integers and floats are as large and nesting is as deep as one likes, and
`Limits.ofReader` is what `read?` keeps to. Beyond the standard, a byte order mark may stand in front.

- `Grammar.Value`: values.
- `Grammar.Lines`: statements, one to a line.
- `IsDocument`: the text is a document, and builds up a table.
-/

namespace Markup.Toml

/-- The documents that are to be read. -/
structure Limits where
  /-- how many arrays and tables in braces may stand inside one another -/
  nesting : Nat → Prop
  /-- how many parts a key may have -/
  keyParts : Nat → Prop
  integer : Int → Prop
  /-- the double nearest to a number with a fraction or an exponent -/
  decimal : Number → Prop

/-- Every document. -/
def Limits.none : Limits := ⟨fun _ => True, fun _ => True, fun _ => True, fun _ => True⟩

/-- The documents that are read in 64 bits. A decimal that is too large for a finite double is one of
their values only if it is negative. -/
def Limits.ofReader : Limits where
  nesting depth := depth ≤ maxNesting
  keyParts count := count ≤ maxNesting
  integer n := -0x8000000000000000 ≤ n ∧ n < 0x8000000000000000
  decimal x := x ≠ .infinite false

/-- What may stand from one place of a text to another, and what it denotes. -/
abbrev Production (α : Type) := Cursor → α → Cursor → Prop

/-- The bytes from one place to another. -/
def Cursor.to (s s' : Cursor) : Span := ⟨s.offset, s'.offset⟩

namespace Grammar

variable {α : Type}

/-! ### Words -/

/-- Exactly these characters. -/
def Word (cs : List Char) : Production Unit := fun s _ s' =>
  s.rest = cs ++ s'.rest ∧ s'.offset = s.offset + Text.byteSize cs

/-- A character of a kind. -/
def Single (kind : Char → Prop) : Production Char := fun s c s' => kind c ∧ Word [c] s () s'

/-- A production any number of times. -/
inductive Many (G : Production α) : Production (List α) where
  | nil {s : Cursor} : Many G s [] s
  | cons {s s₁ s' : Cursor} {a : α} {as : List α} (first : G s a s₁) (others : Many G s₁ as s') :
    Many G s (a :: as) s'

/-- A production that may be left out. -/
inductive Maybe (G : Production α) : Production (Option α) where
  | none {s : Cursor} : Maybe G s none s
  | some {s s' : Cursor} {a : α} (only : G s a s') : Maybe G s (some a) s'

/-- One or more, with a mark between them. -/
inductive Separated (mark : Char) (G : Production α) : Production (List α) where
  | one {s s' : Cursor} {a : α} (only : G s a s') : Separated mark G s [a] s'
  | more {s s₁ s₂ s' : Cursor} {a : α} {as : List α} (first : G s a s₁)
    (between : Word [mark] s₁ () s₂) (others : Separated mark G s₂ as s') :
    Separated mark G s (a :: as) s'

/-! ### Blanks, line ends and comments -/

def IsBlank (c : Char) : Prop := c = ' ' ∨ c = '\t'

/-- A character that is neither a control character nor the end of a line. -/
def IsPrinted (c : Char) : Prop := c = '\t' ∨ 0x20 ≤ c.toNat ∧ c.toNat ≠ 0x7f

instance : DecidablePred IsBlank := fun _ => inferInstanceAs (Decidable (_ ∨ _))

instance : DecidablePred IsPrinted := fun _ => inferInstanceAs (Decidable (_ ∨ _))

def Blanks : Production Unit := fun s _ s' => ∃ cs, Many (Single IsBlank) s cs s'

inductive Newline : Production Unit where
  | lf {s s' : Cursor} (word : Word ['\n'] s () s') : Newline s () s'
  | crlf {s s' : Cursor} (word : Word ['\r', '\n'] s () s') : Newline s () s'

inductive Comment : Production Unit where
  | intro {s s₁ s' : Cursor} {cs : List Char} (hash : Word ['#'] s () s₁)
    (said : Many (Single IsPrinted) s₁ cs s') : Comment s () s'

/-- Blanks, and line ends with or without a comment. -/
inductive Gaps : Production Unit where
  | nil {s : Cursor} : Gaps s () s
  | blank {s s₁ s' : Cursor} {c : Char} (first : Single IsBlank s c s₁) (others : Gaps s₁ () s') :
    Gaps s () s'
  | lineEnd {s s₁ s₂ s' : Cursor} {found : Option Unit} (comment : Maybe Comment s found s₁)
    (newline : Newline s₁ () s₂) (others : Gaps s₂ () s') : Gaps s () s'

/-! ### Texts -/

def IsDigit (c : Char) : Prop := '0' ≤ c ∧ c ≤ '9'

def IsHexDigit (c : Char) : Prop := IsDigit c ∨ 'a' ≤ c ∧ c ≤ 'f' ∨ 'A' ≤ c ∧ c ≤ 'F'

def IsOctalDigit (c : Char) : Prop := '0' ≤ c ∧ c ≤ '7'

def IsBinaryDigit (c : Char) : Prop := c = '0' ∨ c = '1'

instance : DecidablePred IsDigit := fun _ => inferInstanceAs (Decidable (_ ∧ _))

instance : DecidablePred IsHexDigit := fun _ => inferInstanceAs (Decidable (_ ∨ _))

instance : DecidablePred IsOctalDigit := fun _ => inferInstanceAs (Decidable (_ ∧ _))

instance : DecidablePred IsBinaryDigit := fun _ => inferInstanceAs (Decidable (_ ∨ _))

/-- The letters of the short escapes, and the characters they stand for. -/
def shortEscapes : List (Char × Char) :=
  [('b', '\x08'), ('t', '\t'), ('n', '\n'), ('f', '\x0c'), ('r', '\r'), ('"', '"'), ('\\', '\\')]

inductive Escape : Production Char where
  | short {s s' : Cursor} {letter c : Char} (known : (letter, c) ∈ shortEscapes)
    (word : Word ['\\', letter] s () s') : Escape s c s'
  | number {s s₁ s' : Cursor} {letter : Char} {ds : List Char}
    (count : letter = 'u' ∧ ds.length = 4 ∨ letter = 'U' ∧ ds.length = 8)
    (word : Word ['\\', letter] s () s₁) (digits : Many (Single IsHexDigit) s₁ ds s')
    (scalar : (digitsValue 16 ds).isValidChar) : Escape s (.ofNat (digitsValue 16 ds)) s'

inductive BasicChar : Production Char where
  | plain {s s' : Cursor} {c : Char}
    (one : Single (fun c => IsPrinted c ∧ c ≠ '"' ∧ c ≠ '\\') s c s') : BasicChar s c s'
  | escape {s s' : Cursor} {c : Char} (escape : Escape s c s') : BasicChar s c s'

/-- A text on one line in quotation marks. -/
inductive BasicText : Production (List Char) where
  | intro {s s₁ s₂ s' : Cursor} {cs : List Char} (opened : Word ['"'] s () s₁)
    (chars : Many BasicChar s₁ cs s₂) (closed : Word ['"'] s₂ () s') : BasicText s cs s'

/-- A text on one line in apostrophes. -/
inductive LiteralText : Production (List Char) where
  | intro {s s₁ s₂ s' : Cursor} {cs : List Char} (opened : Word ['\''] s () s₁)
    (chars : Many (Single fun c => IsPrinted c ∧ c ≠ '\'') s₁ cs s₂) (closed : Word ['\''] s₂ () s') :
    LiteralText s cs s'

/-- A blank or the end of a line. -/
inductive Space : Production Unit where
  | blank {s s' : Cursor} {c : Char} (one : Single IsBlank s c s') : Space s () s'
  | newline {s s' : Cursor} (newline : Newline s () s') : Space s () s'

/-- A backslash at the end of a line, which removes all the space after it. -/
inductive JoinedLines : Production Unit where
  | intro {s s₁ s₂ s₃ s' : Cursor} {spaces : List Unit} (slash : Word ['\\'] s () s₁)
    (blanks : Blanks s₁ () s₂) (newline : Newline s₂ () s₃) (space : Many Space s₃ spaces s')
    (all : ∀ s'', ¬ Space s' () s'') : JoinedLines s () s'

/-- A piece of a text over several lines. Nothing is escaped between apostrophes. -/
inductive LinesPiece (mark : Char) : Production (List Char) where
  | plain {s s' : Cursor} {c : Char}
    (one : Single (fun c => IsPrinted c ∧ c ≠ mark ∧ (c = '\\' → mark = '\'')) s c s') :
    LinesPiece mark s [c] s'
  | newline {s s' : Cursor} (newline : Newline s () s') : LinesPiece mark s ['\n'] s'
  | escape {s s' : Cursor} {c : Char} (quoted : mark = '"') (escape : Escape s c s') :
    LinesPiece mark s [c] s'
  | joined {s s' : Cursor} (quoted : mark = '"') (joined : JoinedLines s () s') :
    LinesPiece mark s [] s'

/-- A piece with no more than two marks before it. -/
inductive LinesPart (mark : Char) : Production (List Char) where
  | intro {s s₁ s' : Cursor} {count : Nat} {cs : List Char} (few : count ≤ 2)
    (marks : Word (List.replicate count mark) s () s₁) (piece : LinesPiece mark s₁ cs s') :
    LinesPart mark s (List.replicate count mark ++ cs) s'

/-- The end of a line right after the opening marks does not count. -/
inductive Trimmed : Production Unit where
  | newline {s s' : Cursor} (newline : Newline s () s') : Trimmed s () s'
  | nothing {s : Cursor} (none : ∀ s', ¬ Newline s () s') : Trimmed s () s

/-- A text over several lines. Up to two marks may stand before the closing ones. -/
inductive LinesText (mark : Char) : Production (List Char) where
  | intro {s s₁ s₂ s₃ s₄ s' : Cursor} {parts : List (List Char)} {count : Nat}
    (opened : Word [mark, mark, mark] s () s₁) (trimmed : Trimmed s₁ () s₂)
    (body : Many (LinesPart mark) s₂ parts s₃) (few : count ≤ 2)
    (marks : Word (List.replicate count mark) s₃ () s₄)
    (closed : Word [mark, mark, mark] s₄ () s') :
    LinesText mark s (parts.flatten ++ List.replicate count mark) s'

inductive AnyText : Production (List Char) where
  | basic {s s' : Cursor} {cs : List Char} (text : BasicText s cs s') : AnyText s cs s'
  | basicLines {s s' : Cursor} {cs : List Char} (text : LinesText '"' s cs s') : AnyText s cs s'
  | literal {s s' : Cursor} {cs : List Char} (text : LiteralText s cs s') : AnyText s cs s'
  | literalLines {s s' : Cursor} {cs : List Char} (text : LinesText '\'' s cs s') :
    AnyText s cs s'

/-! ### Keys -/

def IsBareKeyChar (c : Char) : Prop :=
  'A' ≤ c ∧ c ≤ 'Z' ∨ 'a' ≤ c ∧ c ≤ 'z' ∨ IsDigit c ∨ c = '_' ∨ c = '-'

instance : DecidablePred IsBareKeyChar := fun _ => inferInstanceAs (Decidable (_ ∨ _))

inductive SimpleKey : Production (List Char) where
  | bare {s s' : Cursor} {cs : List Char} (some : cs ≠ [])
    (chars : Many (Single IsBareKeyChar) s cs s') :
    SimpleKey s cs s'
  | basic {s s' : Cursor} {cs : List Char} (text : BasicText s cs s') : SimpleKey s cs s'
  | literal {s s' : Cursor} {cs : List Char} (text : LiteralText s cs s') : SimpleKey s cs s'

/-- A part of a key, with blanks around it. -/
inductive KeyPart : Production Key where
  | intro {s s₁ s₂ s' : Cursor} {cs : List Char} (before : Blanks s () s₁)
    (key : SimpleKey s₁ cs s₂) (after : Blanks s₂ () s') :
    KeyPart s ⟨String.ofList cs, s₁.to s₂⟩ s'

/-- The path to a table, and the key in it. -/
inductive DottedKey (limits : Limits) : Production (List Key × Key) where
  | intro {s s' : Cursor} {path : List Key} {key : Key}
    (parts : Separated '.' KeyPart s (path ++ [key]) s')
    (few : limits.keyParts (path.length + 1)) : DottedKey limits s (path, key) s'

/-! ### Numbers -/

/-- A digit, which may stand after an underscore. -/
inductive NextDigit (kind : Char → Prop) : Production Char where
  | plain {s s' : Cursor} {d : Char} (one : Single kind s d s') : NextDigit kind s d s'
  | underscored {s s₁ s' : Cursor} {d : Char} (underscore : Word ['_'] s () s₁)
    (one : Single kind s₁ d s') : NextDigit kind s d s'

/-- Digits, with single underscores between them. -/
inductive Digits (kind : Char → Prop) : Production (List Char) where
  | intro {s s₁ s' : Cursor} {d : Char} {ds : List Char} (first : Single kind s d s₁)
    (others : Many (NextDigit kind) s₁ ds s') : Digits kind s (d :: ds) s'

/-- The digits of a decimal integer, with no zero in front of others. -/
inductive Whole : Production (List Char) where
  | zero {s s' : Cursor} (word : Word ['0'] s () s') : Whole s ['0'] s'
  | digits {s s' : Cursor} {ds : List Char} (digits : Digits IsDigit s ds s')
    (first : ds.head? ≠ some '0') : Whole s ds s'

/-- A sign, a minus being true. -/
inductive Sign : Production Bool where
  | none {s : Cursor} : Sign s false s
  | plus {s s' : Cursor} (word : Word ['+'] s () s') : Sign s false s'
  | minus {s s' : Cursor} (word : Word ['-'] s () s') : Sign s true s'

/-- The integer with a sign and digits. -/
def signed (negative : Bool) (ds : List Char) : Int :=
  if negative then -(digitsValue 10 ds : Int) else digitsValue 10 ds

inductive Integer : Production Int where
  | decimal {s s₁ s' : Cursor} {negative : Bool} {ds : List Char} (sign : Sign s negative s₁)
    (digits : Whole s₁ ds s') : Integer s (signed negative ds) s'
  | hex {s s₁ s' : Cursor} {ds : List Char} (base : Word ['0', 'x'] s () s₁)
    (digits : Digits IsHexDigit s₁ ds s') : Integer s (digitsValue 16 ds) s'
  | octal {s s₁ s' : Cursor} {ds : List Char} (base : Word ['0', 'o'] s () s₁)
    (digits : Digits IsOctalDigit s₁ ds s') : Integer s (digitsValue 8 ds) s'
  | binary {s s₁ s' : Cursor} {ds : List Char} (base : Word ['0', 'b'] s () s₁)
    (digits : Digits IsBinaryDigit s₁ ds s') : Integer s (digitsValue 2 ds) s'

inductive Exponent : Production Int where
  | intro {s s₁ s₂ s' : Cursor} {letter : Char} {negative : Bool} {ds : List Char}
    (mark : Single (fun c => c = 'e' ∨ c = 'E') s letter s₁) (sign : Sign s₁ negative s₂)
    (digits : Digits IsDigit s₂ ds s') : Exponent s (signed negative ds) s'

/-- A number with a fraction or an exponent, which denotes the double nearest to it. -/
inductive DecimalFloat : Production Number where
  | exponent {s s₁ s₂ s' : Cursor} {negative : Bool} {whole : List Char} {power : Int}
    (sign : Sign s negative s₁) (digits : Whole s₁ whole s₂) (exponent : Exponent s₂ power s') :
    DecimalFloat s (Literal.number ⟨negative, whole, [], power⟩) s'
  | fraction {s s₁ s₂ s₃ s₄ s' : Cursor} {negative : Bool} {whole places : List Char}
    {power : Option Int} (sign : Sign s negative s₁) (digits : Whole s₁ whole s₂)
    (point : Word ['.'] s₂ () s₃) (fraction : Digits IsDigit s₃ places s₄)
    (exponent : Maybe Exponent s₄ power s') :
    DecimalFloat s (Literal.number ⟨negative, whole, places, power.getD 0⟩) s'

/-- A float by its name. -/
inductive SpecialFloat : Production Number where
  | infinite {s s₁ s' : Cursor} {negative : Bool} (sign : Sign s negative s₁)
    (word : Word ['i', 'n', 'f'] s₁ () s') : SpecialFloat s (.infinite negative) s'
  | nan {s s₁ s' : Cursor} {negative : Bool} (sign : Sign s negative s₁)
    (word : Word ['n', 'a', 'n'] s₁ () s') : SpecialFloat s .nan s'

/-! ### Dates and times -/

/-- A number of so many digits within bounds. -/
inductive Bounded (count low high : Nat) : Production Nat where
  | intro {s s' : Cursor} {ds : List Char} (length : ds.length = count)
    (digits : Many (Single IsDigit) s ds s') (least : low ≤ digitsValue 10 ds)
    (most : digitsValue 10 ds ≤ high) : Bounded count low high s (digitsValue 10 ds) s'

inductive Date : Production Unit where
  | intro {s s₁ s₂ s₃ s₄ s' : Cursor} {y m d : Nat} (year : Bounded 4 0 9999 s y s₁)
    (dash : Word ['-'] s₁ () s₂) (month : Bounded 2 1 12 s₂ m s₃) (dash' : Word ['-'] s₃ () s₄)
    (day : Bounded 2 1 (daysInMonth y m) s₄ d s') : Date s () s'

/-- A fraction of a second. -/
inductive Fraction : Production Unit where
  | intro {s s₁ s' : Cursor} {ds : List Char} (point : Word ['.'] s () s₁) (some : ds ≠ [])
    (digits : Many (Single IsDigit) s₁ ds s') : Fraction s () s'

inductive Time : Production Unit where
  | intro {s s₁ s₂ s₃ s₄ s₅ s' : Cursor} {h m sec : Nat} {found : Option Unit}
    (hour : Bounded 2 0 23 s h s₁) (colon : Word [':'] s₁ () s₂) (minute : Bounded 2 0 59 s₂ m s₃)
    (colon' : Word [':'] s₃ () s₄) (second : Bounded 2 0 60 s₄ sec s₅)
    (fraction : Maybe Fraction s₅ found s') : Time s () s'

/-- The offset from universal time. -/
inductive Zone : Production Unit where
  | universal {s s' : Cursor} {c : Char} (one : Single (fun c => c = 'Z' ∨ c = 'z') s c s') :
    Zone s () s'
  | shifted {s s₁ s₂ s₃ s' : Cursor} {c : Char} {h m : Nat}
    (sign : Single (fun c => c = '+' ∨ c = '-') s c s₁) (hour : Bounded 2 0 23 s₁ h s₂)
    (colon : Word [':'] s₂ () s₃) (minute : Bounded 2 0 59 s₃ m s') : Zone s () s'

inductive DateTime : Production Unit where
  | date {s s' : Cursor} (date : Date s () s') : DateTime s () s'
  | time {s s' : Cursor} (time : Time s () s') : DateTime s () s'
  | both {s s₁ s₂ s₃ s' : Cursor} {c : Char} {found : Option Unit} (date : Date s () s₁)
    (between : Single (fun c => c = 'T' ∨ c = 't' ∨ c = ' ') s₁ c s₂) (time : Time s₂ () s₃)
    (zone : Maybe Zone s₃ found s') : DateTime s () s'

/-! ### Values -/

/-- A value that is neither an array nor a table. -/
inductive Scalar (limits : Limits) : Production Item where
  | text {s s' : Cursor} {cs : List Char} (text : AnyText s cs s') :
    Scalar limits s (.text (s.to s') (String.ofList cs)) s'
  | integer {s s' : Cursor} {n : Int} (integer : Integer s n s') (within : limits.integer n) :
    Scalar limits s (.integer (s.to s') n) s'
  | decimal {s s' : Cursor} {x : Number} (decimal : DecimalFloat s x s') (within : limits.decimal x) :
    Scalar limits s (.float (s.to s') x) s'
  | special {s s' : Cursor} {x : Number} (special : SpecialFloat s x s') :
    Scalar limits s (.float (s.to s') x) s'
  | yes {s s' : Cursor} (word : Word ['t', 'r', 'u', 'e'] s () s') :
    Scalar limits s (.boolean (s.to s') true) s'
  | no {s s' : Cursor} (word : Word ['f', 'a', 'l', 's', 'e'] s () s') :
    Scalar limits s (.boolean (s.to s') false) s'
  | dateTime {s s' : Cursor} (dateTime : DateTime s () s') : Scalar limits s (.dateTime (s.to s')) s'

/-- An item of an array. -/
inductive Spaced (G : Production Item) : Production Item where
  | intro {s s₁ s₂ s' : Cursor} {item : Item} (before : Gaps s () s₁) (value : G s₁ item s₂)
    (after : Gaps s₂ () s') : Spaced G s item s'

/-- The items of an array, with the brackets around them. A comma may stand after the last. -/
inductive Bracketed (G : Production Item) : Production (List Item) where
  | empty {s s₁ s₂ s' : Cursor} (opened : Word ['['] s () s₁) (gaps : Gaps s₁ () s₂)
    (closed : Word [']'] s₂ () s') : Bracketed G s [] s'
  | items {s s₁ s₂ s₃ s₄ s' : Cursor} {items : List Item} {comma : Option Unit}
    (opened : Word ['['] s () s₁) (each : Separated ',' (Spaced G) s₁ items s₂)
    (trailing : Maybe (Word [',']) s₂ comma s₃) (gaps : Gaps s₃ () s₄)
    (closed : Word [']'] s₄ () s') : Bracketed G s items s'

/-- An entry of a table in braces. -/
inductive Entry (limits : Limits) (G : Production Item) : Production (List Key × Key × Item) where
  | intro {s s₁ s₂ s₃ s₄ s' : Cursor} {path : List Key} {key : Key} {item : Item}
    (dotted : DottedKey limits s (path, key) s₁) (equals : Word ['='] s₁ () s₂)
    (before : Blanks s₂ () s₃) (value : G s₃ item s₄) (after : Blanks s₄ () s') :
    Entry limits G s (path, key, item) s'

/-- The entries of a table, with the braces around them. -/
inductive Braced (limits : Limits) (G : Production Item) :
    Production (List (List Key × Key × Item)) where
  | empty {s s₁ s₂ s' : Cursor} (opened : Word ['\x7b'] s () s₁) (blanks : Blanks s₁ () s₂)
    (closed : Word ['\x7d'] s₂ () s') : Braced limits G s [] s'
  | entries {s s₁ s₂ s₃ s' : Cursor} {entries : List (List Key × Key × Item)}
    (opened : Word ['\x7b'] s () s₁) (each : Separated ',' (Entry limits G) s₁ entries s₂)
    (blanks : Blanks s₂ () s₃) (closed : Word ['\x7d'] s₃ () s') : Braced limits G s entries s'

/-- A value with other values inside. The entries of a table are assigned one after another. -/
inductive Nested (limits : Limits) (G : Production Item) : Production Item where
  | scalar {s s' : Cursor} {item : Item} (scalar : Scalar limits s item s') : Nested limits G s item s'
  | array {s s' : Cursor} {items : List Item} (bracketed : Bracketed G s items s') :
    Nested limits G s (.array (s.to s') items) s'
  | table {s s' : Cursor} {entries : List (List Key × Key × Item)} {t : Table}
    (braced : Braced limits G s entries s')
    (build : entries.foldlM (fun t (path, k, v) => Table.assign? path k v t) [] = some t) :
    Nested limits G s (.table (.braces (s.to s')) t) s'

/-- A value in which at most so many arrays and tables in braces stand inside one another. -/
def ValueWithin (limits : Limits) : Nat → Production Item
  | 0 => Scalar limits
  | depth + 1 => Nested limits (ValueWithin limits depth)

def Value (limits : Limits) : Production Item := fun s item s' =>
  ∃ depth, limits.nesting depth ∧ ValueWithin limits depth s item s'

/-! ### Documents -/

inductive Said (limits : Limits) : Production Statement where
  | assign {s s₁ s₂ s₃ s' : Cursor} {path : List Key} {key : Key} {item : Item}
    (dotted : DottedKey limits s (path, key) s₁) (equals : Word ['='] s₁ () s₂)
    (blanks : Blanks s₂ () s₃) (value : Value limits s₃ item s') :
    Said limits s (.assign path key item) s'
  | header {s s₁ s₂ s' : Cursor} {path : List Key} {key : Key} (opened : Word ['['] s () s₁)
    (dotted : DottedKey limits s₁ (path, key) s₂) (closed : Word [']'] s₂ () s') :
    Said limits s (.header path key (s.to s')) s'
  | nextHeader {s s₁ s₂ s' : Cursor} {path : List Key} {key : Key}
    (opened : Word ['[', '['] s () s₁) (dotted : DottedKey limits s₁ (path, key) s₂)
    (closed : Word [']', ']'] s₂ () s') : Said limits s (.nextHeader path key (s.to s')) s'

/-- What stands on a line. -/
inductive Line (limits : Limits) : Production (Option Statement) where
  | nothing {s s₁ s' : Cursor} {found : Option Unit} (blanks : Blanks s () s₁)
    (comment : Maybe Comment s₁ found s') : Line limits s none s'
  | said {s s₁ s₂ s₃ s' : Cursor} {statement : Statement} {found : Option Unit}
    (before : Blanks s () s₁) (said : Said limits s₁ statement s₂) (after : Blanks s₂ () s₃)
    (comment : Maybe Comment s₃ found s') : Line limits s (some statement) s'

/-- Lines up to the end of the text. -/
inductive Lines (limits : Limits) : Cursor → List Statement → Prop where
  | last {s s' : Cursor} {found : Option Statement} (line : Line limits s found s')
    (ending : s'.rest = []) : Lines limits s found.toList
  | more {s s₁ s₂ : Cursor} {found : Option Statement} {statements : List Statement}
    (line : Line limits s found s₁) (newline : Newline s₁ () s₂)
    (others : Lines limits s₂ statements) : Lines limits s (found.toList ++ statements)

end Grammar

/-- The text is a document within the limits, which says this. -/
def Says (limits : Limits) (text : String) (statements : List Statement) : Prop :=
  ∃ mark start, Grammar.Maybe (Grammar.Single (· = '\ufeff')) ⟨0, text.toList⟩ mark start ∧
    Grammar.Lines limits start statements

/-- The text is a document within the limits, and the table is built up by what it says. -/
def IsDocument (limits : Limits) (text : String) (t : Table) : Prop :=
  ∃ statements, Says limits text statements ∧ build? statements = some t

end Markup.Toml
