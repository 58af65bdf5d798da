import Templating.Text.Hexadecimal
import Templating.Text.Printable

/-!
# Quoted text

A text is quoted between apostrophes, or between double quotes if it holds an apostrophe and no
double quote. Inside, the quote and the backslash are escaped by a backslash, tab and the two
line characters by a letter, and every other character that is not printable by its number in
hexadecimal.

## Main definitions

* `quotedChars`: the quoted form of a text.
-/

namespace Templating.Text

/-- The quote that a text is put between: a single one, unless the text holds one and no double
quote. -/
def quoteFor (cs : List Char) : Char :=
  if cs.contains '\x27' && !cs.contains '"' then '"' else '\x27'

/-- The escape of a character by its number, with as many digits as its size needs. -/
def numberEscape (c : Char) : List Char :=
  if c.toNat < 0x100 then '\\' :: 'x' :: hexDigits 2 c.toNat
  else if c.toNat < 0x10000 then '\\' :: 'u' :: hexDigits 4 c.toNat
  else '\\' :: 'U' :: hexDigits 8 c.toNat

/-- How a character is written between quotes: as it is if it `isPrintable`, and else by an
escape. -/
def escapedIn (quote c : Char) : List Char :=
  if c = quote || c = '\\' then ['\\', c]
  else if c = '\t' then ['\\', 't']
  else if c = '\n' then ['\\', 'n']
  else if c = '\r' then ['\\', 'r']
  else if isPrintable c then [c]
  else numberEscape c

/-- A text between quotes, every character by `escapedIn`. -/
def quotedChars (cs : List Char) : List Char :=
  let quote := quoteFor cs
  quote :: (cs.flatMap (escapedIn quote) ++ [quote])

end Templating.Text
