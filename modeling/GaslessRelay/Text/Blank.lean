/-!
White space as Unicode defines it, and its removal from the ends of a text.
-/

namespace GaslessRelay.Text

def isBlank (char : Char) : Bool :=
  let code := char.toNat
  (0x09 ≤ code && code ≤ 0x0d) || code == 0x20 || code == 0x85 || code == 0xa0 || code == 0x1680
    || (0x2000 ≤ code && code ≤ 0x200a) || code == 0x2028 || code == 0x2029 || code == 0x202f
    || code == 0x205f || code == 0x3000

def trimStart (text : List Char) : List Char := text.dropWhile isBlank

def trim (text : List Char) : List Char := (trimStart (trimStart text).reverse).reverse

def dropStart? (start : List Char) (text : List Char) : Option (List Char) :=
  match start, text with
  | [], rest => some rest
  | _ :: _, [] => none
  | expected :: start, char :: rest => if expected = char then dropStart? start rest else none

/-- The rest of a text after as many copies of `start` as it begins with. -/
def dropStarts (start : List Char) (text : List Char) : List Char :=
  go text.length text
where
  go : Nat → List Char → List Char
    | 0, rest => rest
    | limit + 1, rest =>
      match dropStart? start rest with
      | some shorter => go limit shorter
      | none => rest

def occursIn (part : List Char) : List Char → Bool
  | [] => part.isEmpty
  | char :: rest => (dropStart? part (char :: rest)).isSome || occursIn part rest

/-- ASCII letters in lowercase; all else as it is. -/
def asciiLower (text : List Char) : List Char := text.map Char.toLower

theorem dropStart?_eq_some {start text rest : List Char} :
    dropStart? start text = some rest ↔ text = start ++ rest := by
  induction start generalizing text with
  | nil => simp [dropStart?]
  | cons expected start ih =>
    cases text with
    | nil => simp [dropStart?]
    | cons char text =>
      simp only [dropStart?, List.cons_append, List.cons.injEq]
      by_cases same : expected = char
      · simp [same, ih]
      · simp [same, Ne.symm same]

end GaslessRelay.Text
