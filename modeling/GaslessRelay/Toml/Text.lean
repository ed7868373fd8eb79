import GaslessRelay.Text.Numeral

/-!
Strings, blanks and comments of documents.
-/

namespace GaslessRelay.Toml

/-- The result of reading the front of a text, or the text where the reading stops. -/
abbrev Reading := Except (List Char)

def skipByteOrderMark : List Char → List Char
  | '\ufeff' :: rest => rest
  | rest => rest

def isVisible (char : Char) : Bool :=
  char == '\t' || (0x20 ≤ char.toNat && char.toNat ≠ 0x7f)

def isSpace (char : Char) : Bool := char == ' ' || char == '\t'

def skipSpace (text : List Char) : List Char := text.dropWhile isSpace

/-- The text after spaces, line ends and comments; `comment` says whether it starts within one. -/
def skipLines (comment : Bool) : List Char → Reading (List Char)
  | [] => .ok []
  | '\r' :: '\n' :: rest => skipLines false rest
  | char :: rest =>
    if char = '\n' then skipLines false rest
    else if comment then
      if isVisible char then skipLines true rest else .error (char :: rest)
    else if isSpace char then skipLines false rest
    else if char = '#' then skipLines true rest
    else .ok (char :: rest)

/-- The text after the rest of a line, which holds at most a comment. -/
def endLine (comment : Bool) : List Char → Reading (List Char)
  | [] => .ok []
  | '\r' :: '\n' :: rest => .ok rest
  | char :: rest =>
    if char = '\n' then .ok rest
    else if comment then
      if isVisible char then endLine true rest else .error (char :: rest)
    else if isSpace char then endLine false rest
    else if char = '#' then endLine true rest
    else .error (char :: rest)

def scalar? (count : Nat) (text : List Char) : Option (Char × List Char) := do
  let digits := text.take count
  if digits.length ≠ count then none
  let values ← digits.mapM fun char => (Text.Numeral.digitValue? char).filter (· < 16)
  let code := values.foldl (fun total value => total * 16 + value) 0
  if code.isValidChar then return (Char.ofNat code, text.drop count) else none

def escape? : List Char → Option (Char × List Char)
  | 'b' :: rest => some ('\x08', rest)
  | 't' :: rest => some ('\t', rest)
  | 'n' :: rest => some ('\n', rest)
  | 'e' :: rest => some ('\x1b', rest)
  | 'f' :: rest => some ('\x0c', rest)
  | 'r' :: rest => some ('\r', rest)
  | '"' :: rest => some ('"', rest)
  | '\\' :: rest => some ('\\', rest)
  | 'x' :: rest => scalar? 2 rest
  | 'u' :: rest => scalar? 4 rest
  | 'U' :: rest => scalar? 8 rest
  | _ => none

def gatheredText (gathered : List Char) : String := String.ofList gathered.reverse

def readLineString (quote : Char) : (limit : Nat) → (gathered : List Char) → List Char →
    Reading (String × List Char)
  | 0, _, text => .error text
  | _ + 1, _, [] => .error []
  | limit + 1, gathered, char :: rest =>
    if char = quote then .ok (gatheredText gathered, rest)
    else if char = '\\' ∧ quote = '"' then
      match escape? rest with
      | some (escaped, rest) => readLineString quote limit (escaped :: gathered) rest
      | none => .error (char :: rest)
    else if isVisible char then readLineString quote limit (char :: gathered) rest
    else .error (char :: rest)

/-- The rest of a text that starts with three to five quotes, and how many of them are content. -/
def closing? (quote : Char) (text : List Char) : Option (Nat × List Char) :=
  let run := (text.take 5).takeWhile (· = quote)
  if 3 ≤ run.length then some (run.length - 3, text.drop run.length) else none

def endsLine (text : List Char) : Bool :=
  match skipSpace text with
  | '\n' :: _ | '\r' :: '\n' :: _ => true
  | _ => false

def skipBlank : List Char → List Char
  | [] => []
  | '\r' :: '\n' :: rest => skipBlank rest
  | char :: rest => if isSpace char || char == '\n' then skipBlank rest else char :: rest

/-- A string of several lines up to its closing quotes. Line ends stay as they are written, and a
backslash at the end of a line takes the white space after it away. -/
def readLinesString (quote : Char) : (limit : Nat) → (gathered : List Char) → List Char →
    Reading (String × List Char)
  | 0, _, text => .error text
  | _ + 1, _, [] => .error []
  | limit + 1, gathered, char :: rest =>
    match closing? quote (char :: rest) with
    | some (content, rest) => .ok (gatheredText (List.replicate content quote ++ gathered), rest)
    | none =>
      if char = '\\' ∧ quote = '"' then
        if endsLine rest then
          readLinesString quote limit gathered (skipBlank rest)
        else
          match escape? rest with
          | some (escaped, rest) => readLinesString quote limit (escaped :: gathered) rest
          | none => .error (char :: rest)
      else if char = '\n' ∨ (char = '\r' ∧ rest.head? = some '\n') ∨ isVisible char then
        readLinesString quote limit (char :: gathered) rest
      else .error (char :: rest)

def skipLineEnd : List Char → List Char
  | '\n' :: rest | '\r' :: '\n' :: rest => rest
  | rest => rest

def readString (quote : Char) (text : List Char) : Reading (String × List Char) :=
  match text with
  | second :: third :: rest =>
    if second = quote ∧ third = quote then
      readLinesString quote (text.length + 1) [] (skipLineEnd rest)
    else readLineString quote (text.length + 1) [] text
  | text => readLineString quote (text.length + 1) [] text

end GaslessRelay.Toml
