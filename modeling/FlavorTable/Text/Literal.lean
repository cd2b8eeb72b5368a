import FlavorTable.Text.Printable

/-!
# Quoted literals

Messages show a text as a literal on one line, so that blanks, breaks and
invisible characters can be seen. The literal stands in single quotes, or in
double quotes when the text holds a single quote and no double one. A
backslash escapes itself and the quote in use; newline, return and tab have
letter escapes, and any other character that is not printable is written by
its code point in two, four or eight lower-case hexadecimal digits.

Literals in a row are shown in brackets, as a list.
-/

namespace FlavorTable.Text

/-- The last `width` hexadecimal digits of `n`, the most significant first. -/
def hexDigits : Nat → Nat → List Char
  | 0, _ => []
  | width + 1, n => hexDigits width (n / 16) ++ [Nat.digitChar (n % 16)]

/-- The quote that a literal of the text `s` stands in. -/
def quoteFor (s : List Char) : Char :=
  if '\'' ∈ s ∧ '"' ∉ s then '"' else '\''

/-- A character written by its code point. -/
def escapeCode (c : Char) : List Char :=
  let n := c.toNat
  if n < 0x100 then '\\' :: 'x' :: hexDigits 2 n
  else if n < 0x10000 then '\\' :: 'u' :: hexDigits 4 n
  else '\\' :: 'U' :: hexDigits 8 n

/-- A character as it is written inside a literal that stands in `quote`s. -/
def escape (quote c : Char) : List Char :=
  if c = quote ∨ c = '\\' then ['\\', c]
  else if c = '\n' then ['\\', 'n']
  else if c = '\r' then ['\\', 'r']
  else if c = '\t' then ['\\', 't']
  else if isPrintable c then [c]
  else escapeCode c

def quoted (s : String) : String :=
  let quote := quoteFor s.toList
  .ofList (quote :: s.toList.flatMap (escape quote) ++ [quote])

/-- Literals as a list. -/
def bracketed (shown : List String) : String := "[" ++ ", ".intercalate shown ++ "]"

end FlavorTable.Text
