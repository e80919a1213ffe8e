import TvmDebug.Text.Hidden
/-!
# Paths in messages

* `quotePath`: a path in double quotes, with escapes for double quotes, backslashes and the
  characters that cannot be seen.
-/
set_option autoImplicit false

namespace TvmDebug.Text

def hexEscape (c : Char) : List Char :=
  ['\\', 'u', '\x7b'] ++ Nat.toDigits 16 c.toNat ++ ['\x7d']

def quotedChar (c : Char) : List Char :=
  if c = '"' then ['\\', '"']
  else if c = '\\' then ['\\', '\\']
  else if c = '\n' then ['\\', 'n']
  else if c = '\r' then ['\\', 'r']
  else if c = '\t' then ['\\', 't']
  else if c = '\x00' then ['\\', '0']
  else if isHidden c then hexEscape c
  else [c]

def quotePath (path : String) : String :=
  String.ofList (['"'] ++ path.toList.flatMap quotedChar ++ ['"'])

end TvmDebug.Text
