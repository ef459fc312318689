import PocketShell.Text.Class
import PocketShell.Text.Split

/-!
Text in quotes, as messages show it: single quotes, or double ones when the text holds a single and
no double quote; a backslash marks the quote in use, itself, line ends, tabs and every character
without a visible form.
-/
namespace PocketShell.Text

/-- The single quote. -/
def singleQuote : Char := '\x27'

/-- The double quote. -/
def doubleQuote : Char := '"'

/-- The quote a text is put in. -/
def quoteFor (cs : List Char) : Char :=
  if cs.contains singleQuote && !cs.contains doubleQuote then doubleQuote else singleQuote

/-- One character between quotes. -/
def quotedChar (quote c : Char) : List Char :=
  if c = quote || c = '\\' then ['\\', c]
  else if c = '\t' then ['\\', 't']
  else if c = '\n' then ['\\', 'n']
  else if c = '\r' then ['\\', 'r']
  else if isVisible c then [c]
  else if c.toNat < 0x100 then '\\' :: 'x' :: (padDigits 16 2 c.toNat).toList
  else if c.toNat < 0x10000 then '\\' :: 'u' :: (padDigits 16 4 c.toNat).toList
  else '\\' :: 'U' :: (padDigits 16 8 c.toNat).toList

/-- A text in quotes. -/
def quoted (s : String) : String :=
  let cs := s.toList
  let quote := quoteFor cs
  String.ofList (quote :: cs.flatMap (quotedChar quote) ++ [quote])

/-- The text with every character beyond the first 128 as an escape. -/
def plainEscapes (s : String) : String :=
  let escape (c : Char) : List Char :=
    if c.toNat < 0x80 then [c]
    else if c.toNat < 0x100 then '\\' :: 'x' :: (padDigits 16 2 c.toNat).toList
    else if c.toNat < 0x10000 then '\\' :: 'u' :: (padDigits 16 4 c.toNat).toList
    else '\\' :: 'U' :: (padDigits 16 8 c.toNat).toList
  String.ofList (s.toList.flatMap escape)

end PocketShell.Text
