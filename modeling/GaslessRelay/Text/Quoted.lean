import GaslessRelay.Bytes

/-!
Characters quoted inside messages: the quote itself, the backslash and whatever has no glyph of its
own are escaped.
-/

namespace GaslessRelay.Text

def hexDigit (number : Nat) : Char :=
  if number < 10 then Char.ofNat (48 + number) else Char.ofNat (87 + number)

/-- A number in base 16 without leading zeros. -/
def hexNumeral (number : Nat) : String := String.ofList (Nat.toDigits 16 number)

/-- Whether a character below U+0100 has a glyph: no control, no soft hyphen, no hard space. -/
def hasGlyph (char : Char) : Bool :=
  let code := char.toNat
  0x20 ≤ code && code < 0x7f || 0xa0 < code && code != 0xad

def escape (quote char : Char) : String :=
  if char = quote then String.ofList ['\\', char]
  else
    match char with
    | '\\' => "\\\\"
    | '\n' => "\\n"
    | '\r' => "\\r"
    | '\t' => "\\t"
    | '\x00' => "\\0"
    | char =>
      if hasGlyph char then String.singleton char
      else "\\u\x7b" ++ hexNumeral char.toNat ++ "\x7d"

def quoteChar (char : Char) : String := "'" ++ escape '\'' char ++ "'"

def quoteString (text : String) : String :=
  "\"" ++ String.join (text.toList.map (escape '"')) ++ "\""

def latin1 (byte : UInt8) : Char := Char.ofNat byte.toNat

end GaslessRelay.Text
