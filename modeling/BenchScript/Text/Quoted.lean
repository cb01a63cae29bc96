import BenchScript.Text.Basic
import BenchScript.Text.Printable

set_option autoImplicit false

namespace BenchScript.Text

def escape (mark c : Char) : Text :=
  if c = '\x00' then ['\\', '0']
  else if c = '\t' then ['\\', 't']
  else if c = '\r' then ['\\', 'r']
  else if c = newline then ['\\', 'n']
  else if c = '\\' ∨ c = mark then ['\\', c]
  else if isShown c then [c]
  else ['\\', 'u', '\x7b'] ++ hexadecimal c.toNat ++ ['\x7d']

def quoted (text : Text) : Text := '"' :: text.flatMap (escape '"') ++ ['"']

def quotedChar (c : Char) : Text := '\'' :: escape '\'' c ++ ['\'']

end BenchScript.Text
