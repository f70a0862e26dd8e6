import ScriptTree.Text.Printable

/-!
# Quoted text in messages

Messages show text between double quotes. What would not show as itself is written as an escape, so
the reader of a message can tell every character.
-/

namespace ScriptTree.Text

/-- The escape of a character by its code point. -/
def codeEscape (c : Char) : List Char :=
  ['\\', 'u', '{'] ++ Nat.toDigits 16 c.toNat ++ ['}']

/-- A character as it stands between the quotes. -/
def escape (c : Char) : List Char :=
  match c with
  | '\x00' => ['\\', '0']
  | '\t' => ['\\', 't']
  | '\r' => ['\\', 'r']
  | '\n' => ['\\', 'n']
  | '"' | '\\' => ['\\', c]
  | _ => if isPrintable c then [c] else codeEscape c

def quote (text : String) : String :=
  String.ofList ('"' :: text.toList.flatMap escape ++ ['"'])

end ScriptTree.Text
