import Dartify.Text.Hex

/-! String literals of Dart: double quotes, the escapes of JSON, and `\$`, because a dollar
sign would start an interpolation. -/
namespace Dartify.Literal

/-- The written form of one character. -/
def encodeChar (c : Char) : List Char :=
  match c with
  | '"' => ['\\', '"']
  | '\\' => ['\\', '\\']
  | '$' => ['\\', '$']
  | '\x08' => ['\\', 'b']
  | '\x0c' => ['\\', 'f']
  | '\n' => ['\\', 'n']
  | '\r' => ['\\', 'r']
  | '\t' => ['\\', 't']
  | c =>
    if c.toNat < 0x20 then
      ['\\', 'u', '0', '0', Text.hexDigit (c.toNat / 16), Text.hexDigit (c.toNat % 16)]
    else [c]

/-- The literal of a value. -/
def encode (value : List Char) : List Char :=
  '"' :: value.flatMap encodeChar ++ ['"']

end Dartify.Literal
