import Markup.Proofs.Json.Text
import Markup.Proofs.Number.Literal
import Markup.Proofs.Value.Spelling

/-!
# The grammar of JSON

Which texts are JSON, by the productions of the grammar and without a reader: an `Element` is a value
with blanks around it, and `Json.IsJson` says that a text is one. The text of every value is JSON
(`Value.isJson_jsonText`): numbers keep to the production for numbers (`numberText_unsigned`), and what
is between quotation marks to the one for texts (`quotedText_toList_quote`).
-/

namespace Markup

namespace Json.Grammar

def Blanks (cs : List Char) : Prop := ∀ c ∈ cs, c = ' ' ∨ c = '\t' ∨ c = '\n' ∨ c = '\r'

/-! ### Productions of a number -/

def Digits (cs : List Char) : Prop := cs ≠ [] ∧ ∀ c ∈ cs, c.isDigit

/-- Digits, with no zero in front of others. -/
def Whole (cs : List Char) : Prop := Digits cs ∧ (cs = ['0'] ∨ cs.head? ≠ some '0')

inductive Fraction : List Char → Prop where
  | none : Fraction []
  | places {cs : List Char} (digits : Digits cs) : Fraction ('.' :: cs)

inductive Exponent : List Char → Prop where
  | none : Exponent []
  | power {letter : Char} {sign cs : List Char} (hletter : letter = 'e' ∨ letter = 'E')
    (hsign : sign = [] ∨ sign = ['+'] ∨ sign = ['-']) (digits : Digits cs) :
    Exponent (letter :: (sign ++ cs))

inductive NumberText : List Char → Prop where
  | mk {sign whole fraction exponent : List Char} (hsign : sign = [] ∨ sign = ['-'])
    (hwhole : Whole whole) (hfraction : Fraction fraction) (hexponent : Exponent exponent) :
    NumberText (sign ++ (whole ++ (fraction ++ exponent)))

/-! ### Productions of a text -/

def IsHex (c : Char) : Prop := c.isDigit ∨ 'a' ≤ c ∧ c ≤ 'f' ∨ 'A' ≤ c ∧ c ≤ 'F'

instance (c : Char) : Decidable (IsHex c) := inferInstanceAs (Decidable (_ ∨ _))

inductive TextChar : List Char → Prop where
  | plain {c : Char} (quote : c ≠ '"') (slash : c ≠ '\\') (control : ¬ c.toNat < 32) : TextChar [c]
  | escape {c : Char} (letter : c ∈ ['"', '\\', '/', 'b', 'f', 'n', 'r', 't']) : TextChar ['\\', c]
  | number {a b c d : Char} (ha : IsHex a) (hb : IsHex b) (hc : IsHex c) (hd : IsHex d) :
    TextChar ['\\', 'u', a, b, c, d]

inductive TextChars : List Char → Prop where
  | nil : TextChars []
  | cons {cs ds : List Char} (first : TextChar cs) (others : TextChars ds) : TextChars (cs ++ ds)

inductive QuotedText : List Char → Prop where
  | mk {cs : List Char} (chars : TextChars cs) : QuotedText ('"' :: (cs ++ ['"']))

/-! ### Productions of a value -/

mutual

inductive ValueText : List Char → Prop where
  | null : ValueText "null".toList
  | true : ValueText "true".toList
  | false : ValueText "false".toList
  | number {cs : List Char} (number : NumberText cs) : ValueText cs
  | text {cs : List Char} (text : QuotedText cs) : ValueText cs
  | emptyArray {cs : List Char} (blanks : Blanks cs) : ValueText ('[' :: (cs ++ [']']))
  | array {cs : List Char} (elements : Elements cs) : ValueText ('[' :: (cs ++ [']']))
  | emptyObject {cs : List Char} (blanks : Blanks cs) : ValueText ('{' :: (cs ++ ['}']))
  | object {cs : List Char} (members : Members cs) : ValueText ('{' :: (cs ++ ['}']))

/-- A value between blanks. -/
inductive Element : List Char → Prop where
  | mk {before cs after : List Char} (hbefore : Blanks before) (value : ValueText cs)
    (hafter : Blanks after) : Element (before ++ (cs ++ after))

/-- Elements with commas between them. -/
inductive Elements : List Char → Prop where
  | last {cs : List Char} (element : Element cs) : Elements cs
  | more {cs ds : List Char} (element : Element cs) (others : Elements ds) :
    Elements (cs ++ ',' :: ds)

/-- A key between blanks, and after a colon its element. -/
inductive Member : List Char → Prop where
  | mk {before key after cs : List Char} (hbefore : Blanks before) (hkey : QuotedText key)
    (hafter : Blanks after) (element : Element cs) : Member (before ++ (key ++ (after ++ ':' :: cs)))

/-- Members with commas between them. -/
inductive Members : List Char → Prop where
  | last {cs : List Char} (member : Member cs) : Members cs
  | more {cs ds : List Char} (member : Member cs) (others : Members ds) : Members (cs ++ ',' :: ds)

end

theorem blanks_nil : Blanks [] := nofun

theorem ValueText.element {cs : List Char} (h : ValueText cs) : Element cs := by
  have := Element.mk blanks_nil h blanks_nil
  rwa [List.nil_append, List.append_nil] at this

theorem Element.member {key cs : List Char} (hkey : QuotedText key) (h : Element cs) :
    Member (key ++ ':' :: cs) := Member.mk blanks_nil hkey blanks_nil h

/-! ### Numbers -/

open Decimal

theorem fraction_places {l : Literal} (h : l.Proper) :
    Fraction (if l.places = [] then [] else '.' :: l.places) := by
  split
  · exact .none
  · next hne => exact .places ⟨hne, h.isDigit_place⟩

/-- The digits of a proper literal with a sign and an exponent. -/
theorem numberText_unsigned {l : Literal} {sign exponent : List Char} (h : l.Proper)
    (hsign : sign = [] ∨ sign = ['-']) (hexponent : Exponent exponent) :
    NumberText (sign ++ (l.unsigned ++ exponent)) := by
  rw [Literal.unsigned, List.append_assoc]
  exact .mk hsign ⟨⟨h.digits_ne_nil, h.isDigit⟩, h.leading⟩ (fraction_places h) hexponent

theorem digits_digitChars (n : Nat) : Digits (digitChars n) :=
  ⟨digitChars_ne_nil n, fun _ => isDigit_of_mem_digitChars⟩

theorem exponent_exponentChars (e : Int) : Exponent ('e' :: exponentChars e) := by
  cases e with
  | ofNat e =>
    show Exponent ('e' :: (['+'] ++ digitChars e))
    exact .power (.inl rfl) (.inr (.inl rfl)) (digits_digitChars e)
  | negSucc e =>
    show Exponent ('e' :: (['-'] ++ digitChars (e + 1)))
    exact .power (.inl rfl) (.inr (.inr rfl)) (digits_digitChars (e + 1))

section token

variable {s : Bool} {m : Magnitude} {d : Decimal}

theorem sign_signed (s : Bool) : (if s then ['-'] else []) = [] ∨ (if s then ['-'] else []) = ['-'] := by
  cases s <;> decide

theorem numberText_plain (h : 0 < d.digits) : NumberText (Number.signed s d.plain).toList := by
  have := numberText_unsigned (proper_plainLiteral h) (sign_signed s) .none
  rwa [List.append_nil, ← plain_eq, ← Number.toList_signed] at this

theorem numberText_scientific (h : 0 < d.digits) :
    NumberText (Number.signed s d.scientific).toList := by
  rw [Number.toList_signed, scientific_eq]
  exact numberText_unsigned (proper_scientificLiteral h) (sign_signed s) (exponent_exponentChars _)

/-- A finite number is spelled by the production for numbers. -/
theorem numberText_jsonToken (s : Bool) (m : Magnitude) :
    NumberText (Number.finite s m).jsonToken.toList := by
  cases h : m.isZero with
  | true =>
    rw [Number.jsonToken_of_isZero h]
    have hzero : Literal.Proper ⟨false, ['0'], [], 0⟩ :=
      ⟨List.cons_ne_nil _ _, List.forall_mem_singleton.mpr rfl, nofun, .inl rfl⟩
    exact numberText_unsigned hzero (.inl rfl) .none
  | false =>
    have hpos := m.shortest_digits_pos .up h
    rw [Number.jsonToken_of_nonzero h]
    split
    · exact numberText_scientific hpos
    · exact numberText_plain hpos

end token

theorem valueText_jsonToken (n : Number) : ValueText n.jsonToken.toList := by
  cases n with
  | nan => exact .null
  | infinite s => exact .null
  | finite s m => exact .number (numberText_jsonToken s m)

/-! ### Texts -/

theorem CharText.textChar {c : Char} {cs : List Char} (h : CharText c cs) : TextChar cs := by
  cases h with
  | itself hquote hslash hcontrol => exact .plain hquote hslash hcontrol
  | @short letter h =>
    have hletters : ∀ e ∈ escapes, e.1 ∈ ['"', '\\', '/', 'b', 'f', 'n', 'r', 't'] := by decide
    exact .escape (hletters _ h)
  | control h =>
    have hdigit : ∀ n < 16, IsHex (Nat.digitChar n) := by decide
    have hzero : IsHex '0' := by decide
    exact .number hzero hzero (hdigit _ (by omega)) (hdigit _ (by omega))

theorem textChars_flatMap_quoteChar (cs : List Char) : TextChars (cs.flatMap quoteChar) := by
  induction cs with
  | nil => exact .nil
  | cons c cs ih =>
    rw [List.flatMap_cons]
    exact .cons (CharText.textChar (charText_quoteChar c)) ih

theorem quotedText_toList_quote (s : String) : QuotedText (quote s).toList := by
  rw [toList_quote]
  exact .mk (textChars_flatMap_quoteChar s.toList)

end Json.Grammar

/-- The text is JSON. -/
def Json.IsJson (s : String) : Prop := Grammar.Element s.toList

namespace Value

open Json Grammar

section spell

variable {num : Number → List Char}

mutual

/-- With numbers spelled as JSON, the text of a value is JSON. -/
theorem valueText_spell (hnum : ∀ n, ValueText (num n)) : (v : Value) → ValueText (v.spell num)
  | null => by rw [spell]; exact .null
  | bool true => by rw [spell]; exact .true
  | bool false => by rw [spell]; exact .false
  | number n => by rw [spell]; exact hnum n
  | text s => by rw [spell]; exact .text (quotedText_toList_quote s)
  | list [] => by rw [spell, spellItems]; exact .emptyArray blanks_nil
  | list (v :: vs) => by
    rw [spell]
    exact .array (elements_spellItems hnum (v :: vs) (List.cons_ne_nil v vs))
  | map [] => by rw [spell, spellEntries]; exact .emptyObject blanks_nil
  | map (e :: es) => by
    rw [spell]
    exact .object (members_spellEntries hnum (e :: es) (List.cons_ne_nil e es))
  | object _ v => by rw [spell]; exact valueText_spell hnum v

theorem elements_spellItems (hnum : ∀ n, ValueText (num n)) : (vs : List Value) → vs ≠ [] →
    Elements (spellItems num true vs)
  | [], h => absurd rfl h
  | [v], _ => by
    rw [spellItems_first, spellItems, List.append_nil]
    exact .last (valueText_spell hnum v).element
  | v :: w :: vs, _ => by
    rw [spellItems_first, spellItems_next]
    exact .more (valueText_spell hnum v).element
      (elements_spellItems hnum (w :: vs) (List.cons_ne_nil w vs))

theorem members_spellEntries (hnum : ∀ n, ValueText (num n)) : (es : List (String × Value)) →
    es ≠ [] → Members (spellEntries num true es)
  | [], h => absurd rfl h
  | [(k, v)], _ => by
    rw [spellEntries_first, spellEntries, List.append_nil]
    exact .last ((valueText_spell hnum v).element.member (quotedText_toList_quote k))
  | (k, v) :: e :: es, _ => by
    have hmember := (valueText_spell hnum v).element.member (quotedText_toList_quote k)
    have hothers := members_spellEntries hnum (e :: es) (List.cons_ne_nil e es)
    rw [spellEntries_first, spellEntries_next, ← List.cons_append, ← List.append_assoc]
    exact .more hmember hothers

end

end spell

/-- The text of every value is JSON. -/
theorem isJson_jsonText (v : Value) : IsJson v.jsonText := by
  rw [IsJson, toList_jsonText]
  exact (valueText_spell (fun n => valueText_jsonToken n) v).element

end Value

end Markup
