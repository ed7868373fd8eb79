import GaslessRelay.Abi.Types
import GaslessRelay.Proofs.Numerals
import Mathlib.Data.List.TakeWhile
import Mathlib.Tactic.SplitIfs

/-!
The texts that name types. The language of names is given as a grammar (`AbiType.Names`). Main
statement: a text is read as a type just if it names the type, and then the printed name of the type
is read as the same type (`AbiType.parse_reads_names`).
-/

namespace GaslessRelay

namespace Text

/-- A text of white space only. -/
def IsBlank (text : List Char) : Prop := ∀ char ∈ text, isBlank char = true

theorem trimStart_append {before text : List Char} (blank : IsBlank before) :
    trimStart (before ++ text) = trimStart text :=
  List.dropWhile_append_of_pos blank

theorem trimStart_eq_self {char : Char} {rest : List Char} (solid : isBlank char = false) :
    trimStart (char :: rest) = char :: rest :=
  List.dropWhile_cons_of_neg (by simp [solid])

theorem trimStart_append_cons {text rest : List Char} {char : Char}
    (solid : isBlank char = false) :
    trimStart (text ++ char :: rest) = trimStart text ++ char :: rest := by
  unfold trimStart
  rw [List.dropWhile_append]
  split
  · rename_i none
    rw [List.isEmpty_iff.1 none]
    exact trimStart_eq_self solid
  · rfl

theorem exists_trimStart (text : List Char) :
    ∃ before, IsBlank before ∧ text = before ++ trimStart text :=
  ⟨text.takeWhile isBlank, fun _ => List.mem_takeWhile_imp, List.takeWhile_append_dropWhile.symm⟩

/-- What is trimmed off is white space. -/
theorem exists_trim (text : List Char) :
    ∃ before after, IsBlank before ∧ IsBlank after ∧ text = before ++ trim text ++ after := by
  obtain ⟨before, blankBefore, front⟩ := exists_trimStart text
  obtain ⟨after, blankAfter, back⟩ := exists_trimStart (trimStart text).reverse
  refine ⟨before, after.reverse, blankBefore, fun char member => ?_, ?_⟩
  · exact blankAfter char (List.mem_reverse.1 member)
  · have whole : trimStart text = trim text ++ after.reverse := by
      rw [trim, ← List.reverse_append, ← back, List.reverse_reverse]
    rw [List.append_assoc, ← whole]
    exact front

theorem trim_of_append {before text after : List Char} (blankBefore : IsBlank before)
    (blankAfter : IsBlank after) : trim (before ++ text ++ after) = trim text := by
  have blankBehind : IsBlank after.reverse :=
    fun char member => blankAfter char (List.mem_reverse.1 member)
  have start : trimStart (before ++ text ++ after) = trimStart (text ++ after) := by
    rw [List.append_assoc]
    exact trimStart_append blankBefore
  rw [trim, trim, start]
  by_cases none : trimStart text = []
  · have blankText : IsBlank text := List.dropWhile_eq_nil_iff.1 none
    have nothing : trimStart after = [] := List.dropWhile_eq_nil_iff.2 blankAfter
    rw [trimStart_append blankText, none, nothing]
  · have front : trimStart (text ++ after) = trimStart text ++ after := by
      unfold trimStart
      rw [List.dropWhile_append, if_neg (by simpa [trimStart] using none)]
    rw [front, List.reverse_append, trimStart_append blankBehind]

theorem trim_trimStart (text : List Char) : trim (trimStart text) = trim text := by
  obtain ⟨before, blank, whole⟩ := exists_trimStart text
  have padded : trim (before ++ trimStart text ++ []) = trim (trimStart text) :=
    trim_of_append blank (by simp [IsBlank])
  rw [← padded, List.append_nil, ← whole]

/-- A text that ends with a bracket is trimmed at its start only. -/
theorem trim_bracketed (item dimension : List Char) :
    trim (item ++ '[' :: dimension ++ [']']) = trimStart item ++ '[' :: dimension ++ [']'] := by
  have front : trimStart (item ++ '[' :: dimension ++ [']'])
      = trimStart item ++ '[' :: dimension ++ [']'] := by
    rw [List.append_assoc, List.cons_append, trimStart_append_cons (by decide), List.append_assoc,
      List.cons_append]
  have back : (trimStart item ++ '[' :: dimension ++ [']']).reverse
      = ']' :: (trimStart item ++ '[' :: dimension).reverse := by
    rw [List.reverse_append, List.reverse_singleton, List.singleton_append]
  rw [trim, front, back, trimStart_eq_self (by decide), ← back, List.reverse_reverse]

theorem trim_eq_self {text : List Char} (solid : ∀ char ∈ text, isBlank char = false) :
    trim text = text := by
  have kept : ∀ {text : List Char}, (∀ char ∈ text, isBlank char = false) →
      trimStart text = text := by
    intro text solid
    cases text with
    | nil => rfl
    | cons char rest => exact trimStart_eq_self (solid char List.mem_cons_self)
  rw [trim, kept solid, kept fun char member => solid char (List.mem_reverse.1 member),
    List.reverse_reverse]

end Text

open Text (IsBlank IsBounded)
open Outcome (bind_eq_ok)

namespace AbiType

/-- The names without brackets. -/
inductive BaseName : List Char → AbiType → Prop
  | address : BaseName "address".toList .address
  | bool : BaseName "bool".toList .bool
  | string : BaseName "string".toList .string
  | bytes : BaseName "bytes".toList .bytes
  | anyUint : BaseName "uint".toList (.uint 256)
  | anyInt : BaseName "int".toList (.int 256)
  | fixedBytes {digits : List Char} {size : Nat} (number : IsBounded digits size)
      (range : 1 ≤ size ∧ size ≤ 32) : BaseName ("bytes".toList ++ digits) (.fixedBytes size)
  | uint {digits : List Char} {bits : Nat} (number : IsBounded digits bits)
      (range : 8 ≤ bits ∧ bits ≤ 256 ∧ 8 ∣ bits) : BaseName ("uint".toList ++ digits) (.uint bits)
  | int {digits : List Char} {bits : Nat} (number : IsBounded digits bits)
      (range : 8 ≤ bits ∧ bits ≤ 256 ∧ 8 ∣ bits) : BaseName ("int".toList ++ digits) (.int bits)

/-- What stands between the brackets behind an item type, and the array type that it makes. -/
inductive Dimension (item : AbiType) : List Char → AbiType → Prop
  | any : Dimension item [] (.array item)
  | fixed {digits : List Char} {length : Nat} (number : IsBounded digits length)
      (some : length ≠ 0) : Dimension item digits (.fixedArray item length)

/-- The texts that name a type. White space may stand around a name, and so around the name of an
item type. -/
inductive Names : List Char → AbiType → Prop
  | base {text : List Char} {type : AbiType} (name : BaseName text type) : Names text type
  | array {text between : List Char} {item type : AbiType} (named : Names text item)
      (dimension : Dimension item between type) : Names (text ++ '[' :: between ++ [']']) type
  | padded {before text after : List Char} {type : AbiType} (blankBefore : IsBlank before)
      (named : Names text type) (blankAfter : IsBlank after) : Names (before ++ text ++ after) type

theorem bits?_eq_some {digits : List Char} {bits : Nat} :
    bits? digits = some bits ↔ IsBounded digits bits ∧ 8 ≤ bits ∧ bits ≤ 256 ∧ 8 ∣ bits := by
  unfold bits?
  rw [Option.filter_eq_some_iff, Text.readDecimal?_eq_some]
  simp only [decide_eq_true_eq]
  constructor
  · rintro ⟨number, some, most, whole⟩
    exact ⟨number, by omega, most, Nat.dvd_of_mod_eq_zero whole⟩
  · rintro ⟨number, least, most, whole⟩
    exact ⟨number, by omega, most, Nat.mod_eq_zero_of_dvd whole⟩

theorem size?_eq_some {digits : List Char} {size : Nat} :
    size? digits = some size ↔ IsBounded digits size ∧ 1 ≤ size ∧ size ≤ 32 := by
  unfold size?
  rw [Option.filter_eq_some_iff, Text.readDecimal?_eq_some]
  simp only [decide_eq_true_eq]

theorem ofBaseName?_eq_some {text : List Char} {type : AbiType} :
    ofBaseName? text = some type ↔ BaseName text type := by
  constructor
  · intro named
    unfold ofBaseName? at named
    split_ifs at named
    iterate 6
      · rename_i same
        cases named
        rw [same]
        constructor
    split at named
    · rename_i digits behind
      obtain ⟨size, read, rfl⟩ := Option.map_eq_some_iff.1 named
      obtain ⟨number, range⟩ := size?_eq_some.1 read
      rw [Text.dropStart?_eq_some.1 behind]
      exact .fixedBytes number range
    · split at named
      · rename_i digits behind
        obtain ⟨bits, read, rfl⟩ := Option.map_eq_some_iff.1 named
        obtain ⟨number, range⟩ := bits?_eq_some.1 read
        rw [Text.dropStart?_eq_some.1 behind]
        exact .uint number range
      · obtain ⟨digits, behind, inner⟩ := Option.bind_eq_some_iff.1 named
        obtain ⟨bits, read, rfl⟩ := Option.map_eq_some_iff.1 inner
        obtain ⟨number, range⟩ := bits?_eq_some.1 read
        rw [Text.dropStart?_eq_some.1 behind]
        exact .int number range
  · intro name
    cases name with
    | address | bool | string | bytes | anyUint | anyInt => rfl
    | fixedBytes number range =>
      have some := number.ne_nil
      have read := size?_eq_some.2 ⟨number, range⟩
      simp [ofBaseName?, Text.dropStart?, some, read]
    | uint number range =>
      have some := number.ne_nil
      have read := bits?_eq_some.2 ⟨number, range⟩
      simp [ofBaseName?, Text.dropStart?, some, read]
    | int number range =>
      have some := number.ne_nil
      have read := bits?_eq_some.2 ⟨number, range⟩
      simp [ofBaseName?, Text.dropStart?, some, read]

/-- Neither white space nor a bracket. -/
abbrev Solid (char : Char) : Prop := Text.isBlank char = false ∧ char ≠ '[' ∧ char ≠ ']'

theorem solid_of_valued {char : Char} {value : Nat}
    (valued : Text.Numeral.digitValue? char = some value) : Solid char := by
  have alphanumeric := Text.alphanumeric_of_valued valued
  refine ⟨?_, ?_, ?_⟩
  · simp [Text.isBlank]
    omega
  · rintro rfl
    exact absurd alphanumeric (by decide)
  · rintro rfl
    exact absurd alphanumeric (by decide)

theorem solid_of_bounded {digits : List Char} {number : Nat} (bounded : IsBounded digits number) :
    ∀ char ∈ digits, Solid char := by
  intro char member
  rcases bounded.sign_or_valued member with rfl | ⟨value, valued⟩
  · decide
  · exact solid_of_valued valued

theorem solid_append {word digits : List Char} {number : Nat} (letters : ∀ char ∈ word, Solid char)
    (bounded : IsBounded digits number) : ∀ char ∈ word ++ digits, Solid char := by
  intro char member
  rcases List.mem_append.1 member with letter | digit
  · exact letters char letter
  · exact solid_of_bounded bounded char digit

theorem BaseName.solid {text : List Char} {type : AbiType} (name : BaseName text type) :
    ∀ char ∈ text, Solid char := by
  cases name with
  | address | bool | string | bytes | anyUint | anyInt =>
    exact List.all_iff_forall_prop.1 (by decide)
  | fixedBytes number range | uint number range | int number range =>
    exact solid_append (List.all_iff_forall_prop.1 (by decide)) number

theorem Dimension.solid {item type : AbiType} {between : List Char}
    (dimension : Dimension item between type) : '[' ∉ between := by
  intro member
  cases dimension with
  | any => cases member
  | fixed number some => exact (solid_of_bounded number '[' member).2.1 rfl

/-- The text is split at the first opening bracket. -/
theorem splitBracket?_eq_some {text before after : List Char} :
    splitBracket? text = some (before, after) ↔ text = before ++ '[' :: after ∧ '[' ∉ before := by
  induction text generalizing before with
  | nil => simp [splitBracket?]
  | cons char rest ih =>
    by_cases opening : char = '['
    · subst opening
      simp only [splitBracket?, Option.some.injEq, Prod.mk.injEq]
      constructor
      · rintro ⟨rfl, rfl⟩
        exact ⟨rfl, List.not_mem_nil⟩
      · rintro ⟨same, free⟩
        cases before with
        | nil => exact ⟨rfl, (List.cons.inj same).2⟩
        | cons first others =>
          rw [(List.cons.inj same).1] at free
          exact absurd List.mem_cons_self free
    · have step : splitBracket? (char :: rest)
          = (splitBracket? rest).map fun split => (char :: split.1, split.2) := by
        rw [splitBracket?]
        exact fun same => opening same
      rw [step, Option.map_eq_some_iff]
      constructor
      · rintro ⟨⟨front, behind⟩, split, same⟩
        cases same
        obtain ⟨rfl, free⟩ := ih.1 split
        exact ⟨rfl, List.not_mem_cons_of_ne_of_not_mem (Ne.symm opening) free⟩
      · rintro ⟨same, free⟩
        cases before with
        | nil => exact absurd (List.cons.inj same).1 opening
        | cons first others =>
          obtain ⟨rfl, others_eq⟩ := List.cons.inj same
          exact ⟨(others, after), ih.2 ⟨others_eq, fun member =>
            free (List.mem_cons_of_mem _ member)⟩, rfl⟩

/-- What is read as a type once white space is trimmed off: a name without brackets, or what is read
as a type with brackets behind it. -/
theorem readName_eq_ok {depth : Nat} {text : List Char} {type : AbiType} :
    readName (depth + 1) text = .ok type ↔
      BaseName (Text.trim text) type ∨
      ∃ itemText between item, Text.trim text = itemText ++ '[' :: between ++ [']'] ∧
        readName depth itemText = .ok item ∧ Dimension item between type := by
  constructor
  · intro named
    unfold readName at named
    dsimp only at named
    split at named
    · rename_i reversed ends
      split at named
      · cases named
      · rename_i between itemText split
        obtain ⟨item, itemNamed, rest⟩ := bind_eq_ok.1 named
        have whole : Text.trim text = itemText.reverse ++ '[' :: between.reverse ++ [']'] := by
          rw [← List.reverse_reverse (Text.trim text), ends, (splitBracket?_eq_some.1 split).1]
          simp
        refine .inr ⟨itemText.reverse, between.reverse, item, whole, itemNamed, ?_⟩
        split at rest
        · rename_i none
          cases rest
          rw [List.isEmpty_iff.1 none]
          exact .any
        · split at rest
          · rename_i length read
            cases rest
            exact .fixed (Text.readDecimal?_eq_some.1 read) (Nat.succ_ne_zero _)
          · cases rest
    · split at named
      · rename_i base
        cases named
        exact .inl (ofBaseName?_eq_some.1 base)
      · cases named
  · rintro (name | ⟨itemText, between, item, whole, itemNamed, dimension⟩)
    · unfold readName
      dsimp only
      split
      · rename_i reversed ends
        have member : ']' ∈ Text.trim text := List.mem_reverse.1 (ends ▸ List.mem_cons_self)
        exact absurd rfl (name.solid ']' member).2.2
      · rw [ofBaseName?_eq_some.2 name]
    · have ends : (Text.trim text).reverse
          = ']' :: (between.reverse ++ '[' :: itemText.reverse) := by
        rw [whole]
        simp
      have split : splitBracket? (between.reverse ++ '[' :: itemText.reverse)
          = some (between.reverse, itemText.reverse) :=
        splitBracket?_eq_some.2 ⟨rfl, fun member => dimension.solid (List.mem_reverse.1 member)⟩
      rw [readName, ends]
      simp only [split, List.reverse_reverse, itemNamed, Outcome.ok_bind]
      cases dimension with
      | any => rfl
      | fixed number some =>
        rename_i length
        have read := Text.readDecimal?_eq_some.2 number
        rw [if_neg (by simpa using number.ne_nil), read]
        cases length with
        | zero => exact absurd rfl some
        | succ length => rfl

theorem readName_congr {depth : Nat} {text other : List Char}
    (same : Text.trim text = Text.trim other) :
    readName (depth + 1) text = readName (depth + 1) other := by
  unfold readName
  rw [same]

/-- Whatever is read as a type names it. -/
theorem names_of_readName {depth : Nat} {text : List Char} {type : AbiType}
    (named : readName depth text = .ok type) : Names text type := by
  induction depth generalizing text type with
  | zero => cases named
  | succ depth ih =>
    obtain ⟨before, after, blankBefore, blankAfter, whole⟩ := Text.exists_trim text
    rw [whole]
    refine .padded blankBefore ?_ blankAfter
    rcases readName_eq_ok.1 named with name | ⟨itemText, between, item, same, itemNamed, dimension⟩
    · exact .base name
    · rw [same]
      exact .array (ih itemNamed) dimension

/-- Whatever names a type is read as it, if the limit is beyond the length of the text. -/
theorem Names.readName {text : List Char} {type : AbiType} (names : Names text type) {depth : Nat}
    (deep : text.length < depth) : readName depth text = .ok type := by
  induction names generalizing depth with
  | base name =>
    rename_i text type
    obtain ⟨depth, rfl⟩ := Nat.exists_eq_succ_of_ne_zero (Nat.ne_of_gt (Nat.zero_lt_of_lt deep))
    have solid : Text.trim text = text :=
      Text.trim_eq_self fun char member => (name.solid char member).1
    exact readName_eq_ok.2 (.inl (solid.symm ▸ name))
  | array named dimension ih =>
    rename_i text between item type
    simp only [List.length_append, List.length_cons, List.length_nil] at deep
    obtain ⟨depth, rfl⟩ := Nat.exists_eq_add_of_le' (show 2 ≤ depth by omega)
    have itemNamed : AbiType.readName (depth + 1) (Text.trimStart text) = .ok item := by
      rw [readName_congr (Text.trim_trimStart text)]
      exact ih (by omega)
    exact readName_eq_ok.2
      (.inr ⟨_, between, item, Text.trim_bracketed text between, itemNamed, dimension⟩)
  | padded blankBefore named blankAfter ih =>
    rename_i before text after type
    simp only [List.length_append] at deep
    obtain ⟨depth, rfl⟩ := Nat.exists_eq_succ_of_ne_zero (Nat.ne_of_gt (Nat.zero_lt_of_lt deep))
    rw [readName_congr (Text.trim_of_append blankBefore blankAfter)]
    exact ih (by omega)

theorem parse_eq_ok {text : String} {type : AbiType} :
    parse text = .ok type ↔ Names text.toList type := by
  constructor
  · exact names_of_readName
  · intro names
    exact names.readName (Nat.lt_succ_self _)

theorem BaseName.nameChars {text : List Char} {type : AbiType} (name : BaseName text type) :
    BaseName type.nameChars type := by
  cases name with
  | address => exact .address
  | bool => exact .bool
  | string => exact .string
  | bytes => exact .bytes
  | anyUint => exact .uint (Text.isBounded_toDigits (by decide)) (by decide)
  | anyInt => exact .int (Text.isBounded_toDigits (by decide)) (by decide)
  | fixedBytes number range => exact .fixedBytes (Text.isBounded_toDigits number.small) range
  | uint number range => exact .uint (Text.isBounded_toDigits number.small) range
  | int number range => exact .int (Text.isBounded_toDigits number.small) range

/-- The printed form of a type that has a name names it too. -/
theorem Names.nameChars {text : List Char} {type : AbiType} (names : Names text type) :
    Names type.nameChars type := by
  induction names with
  | base name => exact .base name.nameChars
  | array named dimension ih =>
    cases dimension with
    | any =>
      have printed := Names.array ih .any
      rwa [List.append_assoc] at printed
    | fixed number some => exact .array ih (.fixed (Text.isBounded_toDigits number.small) some)
  | padded blankBefore named blankAfter ih => exact ih

/-- A text is read as a type just if it names the type, and then the printed name of the type is
read as the type again. -/
theorem parse_reads_names (text : String) (type : AbiType) :
    (parse text = .ok type ↔ Names text.toList type) ∧
      (parse text = .ok type → parse type.name = .ok type) := by
  refine ⟨parse_eq_ok, fun named => parse_eq_ok.2 ?_⟩
  rw [name, String.toList_ofList]
  exact (parse_eq_ok.1 named).nameChars

/-- White space, a plus sign, a leading zero and a width that is left out. -/
theorem parse_reads_names_spaced :
    parse "\u00a0 uint\t[+02] []\n" = .ok (.array (.fixedArray (.uint 256) 2)) ∧
      Names "\u00a0 uint\t[+02] []\n".toList (.array (.fixedArray (.uint 256) 2)) ∧
      parse "uint256[2][]" = .ok (.array (.fixedArray (.uint 256) 2)) := by
  have named : parse "\u00a0 uint\t[+02] []\n" = .ok (.array (.fixedArray (.uint 256) 2)) := by
    decide
  obtain ⟨language, printed⟩ := parse_reads_names "\u00a0 uint\t[+02] []\n"
    (.array (.fixedArray (.uint 256) 2))
  exact ⟨named, language.1 named, printed named⟩

end AbiType

end GaslessRelay
