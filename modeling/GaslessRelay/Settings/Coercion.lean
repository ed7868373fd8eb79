import GaslessRelay.Client.Config
import GaslessRelay.Settings.Basic
import GaslessRelay.Text.Blank
import GaslessRelay.Text.Hex
import GaslessRelay.Text.Numeral

/-!
Typed values of settings. Texts spell numbers, numbers and truth values have texts, and floating
point numbers round to the nearest integer.
-/

namespace GaslessRelay

structure SettingRefusal where
  quoted : String := ""

namespace Setting

/-- The nearest integer of 64 bits, a half away from zero; below zero is zero. -/
def FloatSetting.natural : FloatSetting → Nat
  | .finite number =>
    if number.negative then 0
    else
      let (top, bottom) := number.ratio
      min (Text.Binary64.divideFromZero top bottom) (UInt64.size - 1)
  | .infinite negative => if negative then 0 else UInt64.size - 1
  | .notNumber => 0

def FloatSetting.plainText : FloatSetting → String
  | .finite number => number.plainText
  | .infinite negative => if negative then "-inf" else "inf"
  | .notNumber => "NaN"

/-- The number that a text spells; truth values count as one and zero. -/
def naturalOfText (value : String) : Except SettingRefusal Nat :=
  let text := Text.asciiLower value.toList
  let isOneOf (words : List String) := words.any fun word => word.toList = text
  if isOneOf ["true", "on", "yes"] then .ok 1
  else if isOneOf ["false", "off", "no"] then .ok 0
  else
    match Text.readDecimal? text with
    | some number => .ok number
    | none => .error ⟨Text.quoteString value⟩

def natural : Setting → Except SettingRefusal Nat
  | .integer (.ofNat value) => .ok value
  | .integer (.negSucc _) => .error {}
  | .float value => .ok (FloatSetting.natural value)
  | .bool value => .ok value.toNat
  | .text value => naturalOfText value
  | .list _ | .table _ => .error {}

def uint64 (setting : Setting) : Except SettingRefusal UInt64 := setting.natural.map UInt64.ofNat

def naturalBelow (limit : Nat) (setting : Setting) : Except SettingRefusal Nat := do
  let number ← setting.natural
  if number < limit then return number else throw {}

def uint32 (setting : Setting) : Except SettingRefusal UInt32 :=
  (setting.naturalBelow UInt32.size).map UInt32.ofNat

def byte (setting : Setting) : Except SettingRefusal UInt8 :=
  (setting.naturalBelow UInt8.size).map UInt8.ofNat

def string : Setting → Except SettingRefusal String
  | .text value => .ok value
  | .integer value => .ok (toString value)
  | .float value => .ok (FloatSetting.plainText value)
  | .bool value => .ok (if value then "true" else "false")
  | .list _ | .table _ => .error {}

/-- An address in hexadecimal digits, or as a list of twenty bytes and no further one. -/
def address : Setting → Except SettingRefusal Address
  | .text value =>
    match Text.Hex.decodeFixed 20 (Bytes.ofString value) with
    | .ok bytes => .ok (addressOfBytes bytes)
    | .error _ => .error {}
  | .list items => do
    let bytes ← (items.take 20).mapM byte
    match bytes.length, items[20]?.map byte with
    | 20, none | 20, some (.error _) => return addressOfBytes bytes
    | _, _ => throw {}
  | _ => .error {}

/-- A network by its name, or by a table with one member of that name. -/
def network : Setting → Except SettingRefusal NetworkKind
  | .text name => named name
  | .table [(name, _)] => named name
  | _ => .error {}
where
  named (name : String) : Except SettingRefusal NetworkKind :=
    match NetworkKind.ofName? name with
    | some network => .ok network
    | none => .error ⟨name⟩

def withDefault {α : Type} (default : α) (read : Setting → Except SettingRefusal α) :
    Option Setting → Except SettingRefusal α
  | none => .ok default
  | some setting => read setting

def modules : Setting → Except SettingRefusal ModuleAddresses
  | .table members => inOrder (["registry", "token", "wallet"].map (lookup? members))
  | .list items => inOrder (items.map some)
  | _ => .error {}
where
  inOrder (items : List (Option Setting)) : Except SettingRefusal ModuleAddresses := do
    let read (index : Nat) := withDefault 0 address (items[index]?.join)
    return { registry := ← read 0, token := ← read 1, wallet := ← read 2 }

end Setting

end GaslessRelay
