import AtomProbe.Text.Visible

/-!
# `AtomProbe.Text.Quoted`: texts inside a message

A message shows a text between double quotes, so that its ends can be
seen, and writes a character that could be mistaken as an escape. File
paths are shown in the same way as texts of the metadata.
-/

set_option autoImplicit false

namespace AtomProbe.Text

/-- How one character stands in a quoted text. -/
def escape (c : Char) : List Char :=
  if c = '\x00' then ['\\', '0']
  else if c = '\t' then ['\\', 't']
  else if c = '\n' then ['\\', 'n']
  else if c = '\r' then ['\\', 'r']
  else if c = '\\' then ['\\', '\\']
  else if c = '\x22' then ['\\', '\x22']
  else if isVisible c then [c]
  else ['\\', 'u', '\x7b'] ++ Nat.toDigits 16 c.toNat ++ ['\x7d']

/-- The text between double quotes. -/
def quoted (text : String) : String :=
  String.ofList ('\x22' :: text.toList.flatMap escape ++ ['\x22'])

end AtomProbe.Text
