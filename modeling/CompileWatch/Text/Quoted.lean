import CompileWatch.Text.Unprintable
import CompileWatch.Text.GraphemeExtend
import CompileWatch.Text.Ignorable

/-!
# Quoted text

A text in double quotes on one line. The quote, the backslash and four controls have short
escapes; a character that would not show by itself is written as its code point in hexadecimal.
-/
namespace CompileWatch.Text

/-- The code point of a character in lower-case hexadecimal, between braces. -/
def codePointEscape (c : Char) : List Char :=
  ['\\', 'u', '\x7b'] ++ Nat.toDigits 16 c.toNat ++ ['\x7d']

/-- The halfwidth sound marks of Japanese. They extend a grapheme, but are letters with a place of
their own. -/
def isHalfwidthSoundMark (c : Char) : Bool := c = '\uff9e' || c = '\uff9f'

/-- Does the character not show by itself: it has no visible form, nothing is drawn for it, or it is
drawn onto the one before it? -/
def isHidden (c : Char) : Bool :=
  isUnprintable c || isIgnorable c || (extendsGrapheme c && !isHalfwidthSoundMark c)

/-- How one character is written inside the quotes. -/
def quotedChar (c : Char) : List Char :=
  if c = '\x00' then ['\\', '0']
  else if c = '\t' then ['\\', 't']
  else if c = '\r' then ['\\', 'r']
  else if c = '\n' then ['\\', 'n']
  else if c = '\x22' then ['\\', '\x22']
  else if c = '\\' then ['\\', '\\']
  else if isHidden c then codePointEscape c
  else [c]

/-- The text in double quotes. -/
def quoted (text : String) : String :=
  String.ofList ('\x22' :: text.toList.flatMap quotedChar ++ ['\x22'])

end CompileWatch.Text
