import GaslessRelay.Json.Basic
import GaslessRelay.Text.Quoted

/-!
The two written forms of JSON values: without any white space, and with one member or item a line.
-/

namespace GaslessRelay.Json

/-- A character as it stands in a string: quotes, backslashes and controls are escaped. -/
def escapeChar (char : Char) : List Char :=
  match char with
  | '"' => ['\\', '"']
  | '\\' => ['\\', '\\']
  | '\n' => ['\\', 'n']
  | '\r' => ['\\', 'r']
  | '\t' => ['\\', 't']
  | '\x08' => ['\\', 'b']
  | '\x0c' => ['\\', 'f']
  | char =>
    if char.toNat < 0x20 then
      ['\\', 'u', '0', '0', Text.hexDigit (char.toNat / 16), Text.hexDigit (char.toNat % 16)]
    else [char]

def quoted (text : String) : List Char := '"' :: text.toList.flatMap escapeChar ++ ['"']

def joined (separator : List Char) : List (List Char) → List Char
  | [] => []
  | [part] => part
  | part :: rest => part ++ separator ++ joined separator rest

mutual

def compactChars : Json → List Char
  | null => "null".toList
  | bool true => "true".toList
  | bool false => "false".toList
  | integer value => (toString value).toList
  | float value => value.jsonText.toList
  | string text => quoted text
  | array items => '[' :: joined [','] (compactItems items) ++ [']']
  | object members => '\x7b' :: joined [','] (compactMembers members) ++ ['\x7d']

def compactItems : List Json → List (List Char)
  | [] => []
  | item :: rest => compactChars item :: compactItems rest

def compactMembers : List (String × Json) → List (List Char)
  | [] => []
  | (name, value) :: rest => (quoted name ++ ':' :: compactChars value) :: compactMembers rest

end

def newline (level : Nat) : List Char := '\n' :: List.replicate (2 * level) ' '

/-- Parts on lines of their own one level deeper, or nothing between the brackets. -/
def block (level : Nat) (parts : List (List Char)) : List Char :=
  if parts.isEmpty then []
  else newline (level + 1) ++ joined (',' :: newline (level + 1)) parts ++ newline level

mutual

/-- The form with one member or item a line, at a level of indentation. -/
def prettyChars (level : Nat) : Json → List Char
  | array items => '[' :: block level (prettyItems (level + 1) items) ++ [']']
  | object members => '\x7b' :: block level (prettyMembers (level + 1) members) ++ ['\x7d']
  | null => compactChars null
  | bool value => compactChars (bool value)
  | integer value => compactChars (integer value)
  | float value => compactChars (float value)
  | string text => quoted text

def prettyItems (level : Nat) : List Json → List (List Char)
  | [] => []
  | item :: rest => prettyChars level item :: prettyItems level rest

def prettyMembers (level : Nat) : List (String × Json) → List (List Char)
  | [] => []
  | (name, value) :: rest =>
    (quoted name ++ ':' :: ' ' :: prettyChars level value) :: prettyMembers level rest

end

def compact (json : Json) : String := String.ofList json.compactChars

def pretty (json : Json) : String := String.ofList (prettyChars 0 json)

end GaslessRelay.Json
