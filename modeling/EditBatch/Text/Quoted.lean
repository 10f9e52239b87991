import EditBatch.Text.Hidden
set_option autoImplicit false

/-!
# Quoted texts

Texts are shown to the user between quotes, with escapes for quotes, backslashes and characters
that cannot be seen.

## Main definitions

* `EditBatch.quoted` — a text between quotes.
-/

namespace EditBatch

/-- A character inside quotes. -/
def quotedChar (c : Char) : List Char :=
  match c with
  | '\x00' => ['\\', '0']
  | '\t' => ['\\', 't']
  | '\n' => ['\\', 'n']
  | '\r' => ['\\', 'r']
  | '"' => ['\\', '"']
  | '\\' => ['\\', '\\']
  | c =>
    if isHidden c then ['\\', 'u', '\x7b'] ++ Nat.toDigits 16 c.toNat ++ ['\x7d']
    else [c]

/-- A text between quotes. -/
def quoted (text : String) : String :=
  "\"" ++ String.ofList (text.toList.flatMap quotedChar) ++ "\""

end EditBatch
