/-!
# Displayed lines

A reader of a diagnostic sees a line end at more characters than the newline. `displayLines` cuts
a text after each of them; the break stays with the line before it.
-/

namespace Markup.Text

/-- The characters that end a displayed line. -/
def isBreak (c : Char) : Bool :=
  (10 ≤ c.toNat && c.toNat ≤ 13) || c.toNat == 0x85 || c.toNat == 0x2028 || c.toNat == 0x2029

/-- The characters with the White_Space property. -/
def isSpace (c : Char) : Bool :=
  let n := c.toNat
  (9 ≤ n && n ≤ 13) || n == 32 || n == 0x85 || n == 0xA0 || n == 0x1680 ||
    (0x2000 ≤ n && n ≤ 0x200A) || n == 0x2028 || n == 0x2029 || n == 0x202F || n == 0x205F ||
    n == 0x3000

/-- A line without the white space at its end. -/
def withoutTrailingSpace (cs : List Char) : List Char := (cs.reverse.dropWhile isSpace).reverse

/-- Puts a character in front of the first line. -/
def consFirst (c : Char) : List (List Char) → List (List Char)
  | [] => [[c]]
  | l :: ls => (c :: l) :: ls

/-- The displayed lines of a text, each with the break that ends it. A carriage return and a
newline are one break. -/
def displayLines : List Char → List (List Char)
  | [] => []
  | '\r' :: '\n' :: cs => ['\r', '\n'] :: displayLines cs
  | c :: cs => if isBreak c then [c] :: displayLines cs else consFirst c (displayLines cs)

end Markup.Text
