import BundleStore.Text.CodePoints

set_option autoImplicit false

/-! Text between double quotes, as messages show it. The quote, the backslash and the common
controls get a backslash; a character that would not show, or that would join the one before
it, is written by its code point. -/

namespace BundleStore.Text

def codePoint (char : Char) : List Char :=
  ['\\', 'u', '\x7b'] ++ Nat.toDigits 16 char.toNat ++ ['\x7d']

def escaped (char : Char) : List Char :=
  match char with
  | '\x00' => ['\\', '0']
  | '\t' => ['\\', 't']
  | '\r' => ['\\', 'r']
  | '\n' => ['\\', 'n']
  | '\\' => ['\\', '\\']
  | '"' => ['\\', '"']
  | other => if combining other || unprintable other then codePoint other else [other]

def quoted (text : String) : String :=
  String.ofList ('"' :: text.toList.flatMap escaped ++ ['"'])

end BundleStore.Text
