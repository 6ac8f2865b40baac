import Montage.Text.Printable
import Montage.Text.Surrogate

/-!
# Quoted text

A text between quotes, as it stands inside messages. Single quotes are used unless the text holds
one and no double quote. Unprintable characters and lone surrogates are written by their code
point.
-/

namespace Montage.Text

/-- The lower case hexadecimal digits of `n`, padded with zeros to `width`. -/
def hexDigits (width n : Nat) : List Char :=
  (Nat.toDigits 16 n).leftpad width '0'

/-- The quote put around a text. -/
def quoteFor (text : List Char) : Char :=
  if text.contains '\'' && !text.contains '"' then '"' else '\''

/-- A character by its code point, with the fewest of two, four or eight digits. -/
def codePoint (code : Nat) : List Char :=
  if code < 0x100 then '\\' :: 'x' :: hexDigits 2 code
  else if code < 0x10000 then '\\' :: 'u' :: hexDigits 4 code
  else '\\' :: 'U' :: hexDigits 8 code

/-- A character as it stands between quotes. -/
def quotedChar (quote c : Char) : List Char :=
  if c = quote || c = '\\' then ['\\', c]
  else if c = '\n' then ['\\', 'n']
  else if c = '\r' then ['\\', 'r']
  else if c = '\t' then ['\\', 't']
  else if isPrintable c then [c]
  else codePoint ((surrogate? c).getD c.toNat)

/-- A text between quotes. -/
def quoted (text : String) : String :=
  let quote := quoteFor text.toList
  String.ofList (quote :: (text.toList.flatMap (quotedChar quote) ++ [quote]))

example : quotedChar '\'' 'é' = ['é'] := by decide +kernel
example : quotedChar '\'' (standIn 0xD800) = ['\\', 'u', 'd', '8', '0', '0'] := by decide +kernel

end Montage.Text
