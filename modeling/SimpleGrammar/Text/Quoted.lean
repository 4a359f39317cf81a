/-
Text in double quotes on one line.

Every character of a text can be told from its quoted form: a character without a printed form, one that would join the
quotation mark before it, a quotation mark and a backslash are escaped, all others stand for themselves. A line feed is
among the escaped ones, so a quoted text never spreads over two lines.
-/
import SimpleGrammar.Text.Combining
import SimpleGrammar.Text.Unprintable

namespace SimpleGrammar.Text

/-- the escape by code point: lowercase hexadecimal digits in braces -/
def codePointEscape (c : Char) : List Char :=
  ['\\', 'u', '\x7b'] ++ Nat.toDigits 16 c.toNat ++ ['\x7d']

/-- how `c` is written inside a quoted text -/
def quoteChar (c : Char) : List Char :=
  if c = '\x00' then ['\\', '0']
  else if c = '\t' then ['\\', 't']
  else if c = '\r' then ['\\', 'r']
  else if c = '\n' then ['\\', 'n']
  else if c = '"' then ['\\', '"']
  else if c = '\\' then ['\\', '\\']
  else if isCombining c || isUnprintable c then codePointEscape c
  else [c]

/-- the text in double quotes -/
def quote (text : List Char) : List Char := '"' :: text.flatMap quoteChar ++ ['"']

end SimpleGrammar.Text
