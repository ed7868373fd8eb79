import GaslessRelay.Digest.Keccak
import GaslessRelay.Text.Hex

/-!
The written forms of addresses and selectors. Inside messages an address has a capital letter
wherever the digest of its lowercase digits has a digit of 8 or more.
-/

namespace GaslessRelay

/-- Digits with those letters in capitals whose place in the digest holds 8 or more. -/
def capitalize : (digits digest : Bytes) → List Char
  | digit :: digits, mark :: digest =>
    let char := Text.latin1 digit
    (if (Text.Hex.digitValue? mark).any (8 ≤ ·) then char.toUpper else char)
      :: capitalize digits digest
  | _, _ => []

/-- An address as it stands in messages. -/
def Address.checksum (address : Address) : String :=
  let digits := Text.Hex.encodeBytes (addressBytes address)
  let digest := Text.Hex.encodeBytes (wordBytes (Digest.keccak256 digits))
  "0x" ++ String.ofList (capitalize digits digest)

def Address.text (address : Address) : String := Text.Hex.encodePrefixed (addressBytes address)

def Word.text (word : Word) : String := Text.Hex.encodePrefixed (wordBytes word)

def Selector.text (selector : Selector) : String :=
  Text.Hex.encodePrefixed (selectorBytes selector)

end GaslessRelay
