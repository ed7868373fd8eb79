import GaslessRelay.Proofs.CatalogEntries
import GaslessRelay.Proofs.Numerals
import GaslessRelay.Proofs.RequestBinding

/-!
What a type string tells of its operation type. Keys and field names stand in it as they are, so
that a name with an opening bracket can be read as the end of a longer key
(`keys_share_type_string`). This is the only way for the entries of a catalog to share a type string
(`Catalog.type_hash_finds_entry_but_for_brackets`).
-/

namespace GaslessRelay

section Splitting

variable {α : Type*} {clear rest before after : List α} {item : α}

/-- An item that is not in the first part of a list is found behind it. -/
theorem exists_behind (absent : item ∉ clear) (split : clear ++ rest = before ++ item :: after) :
    ∃ more, before = clear ++ more ∧ rest = more ++ item :: after := by
  rcases List.append_eq_append_iff.1 split with ⟨more, rfl, same⟩ | ⟨more, rfl, same⟩
  · exact ⟨more, rfl, same⟩
  · cases more with
    | nil => exact ⟨[], by simp, by simpa using same.symm⟩
    | cons first others =>
      obtain ⟨rfl, -⟩ := List.cons.inj same
      have member : item ∈ before ++ item :: others := by simp
      exact absurd member absent

theorem toList_around (start stop : List Char) (between : String) :
    (String.ofList start ++ between ++ String.ofList stop).toList
      = start ++ (between.toList ++ stop) := by
  simp

end Splitting

theorem AbiType.bracket_not_mem_name (type : AbiType) : '(' ∉ type.nameChars := by
  have digits : ∀ number, '(' ∉ Nat.toDigits 10 number := Text.not_mem_toDigits rfl
  induction type with
  | address | bool | string | bytes => decide
  | fixedBytes number | uint number | int number =>
    exact List.not_mem_append (by decide) (digits number)
  | array item ih => exact List.not_mem_append ih (by decide)
  | fixedArray item length ih =>
    have opened := List.not_mem_cons_of_ne_of_not_mem (by decide : '(' ≠ '[') (digits length)
    exact List.not_mem_append (List.not_mem_append ih opened) (by decide)

namespace Field

/-- Fields that stand behind others in a type string, and its end. -/
def trailing (fields : List Field) : List Char :=
  fields.flatMap (fun field => ',' :: field.declaration.toList) ++ [')']

theorem trailing_cons (field : Field) (rest : List Field) :
    trailing (field :: rest)
      = (',' :: field.type.nameChars ++ [' ']) ++ (field.name.toList ++ trailing rest) := by
  simp [trailing, declaration, AbiType.name]

theorem head_of_trailing {fields : List Field} {char : Char} {rest : List Char}
    (begins : trailing fields = char :: rest) : char = ',' ∨ char = ')' := by
  cases fields with
  | nil => exact .inr (List.cons.inj begins).1.symm
  | cons field others =>
    rw [trailing_cons] at begins
    exact .inl (List.cons.inj begins).1.symm

/-- No other field begins in what stands before its comma. -/
theorem within_name {fields : List Field} {clear stop after : List Char} (noComma : ',' ∉ clear)
    (noBracket : ')' ∉ clear) (split : clear ++ after = stop ++ trailing fields) :
    ∃ more, stop = clear ++ more := by
  rcases List.append_eq_append_iff.1 split with ⟨more, same, -⟩ | ⟨more, same, begins⟩
  · exact ⟨more, same⟩
  · cases more with
    | nil => exact ⟨[], by simpa using same.symm⟩
    | cons char others =>
      have member : char ∈ clear := by simp [same]
      rcases head_of_trailing begins with rfl | rfl
      · exact absurd member noComma
      · exact absurd member noBracket

/-- What is in brackets in a type string. -/
theorem toList_intercalate_declarations (first : Field) (rest : List Field) :
    (String.intercalate "," ((first :: rest).map declaration)).toList ++ [')']
      = first.declaration.toList ++ trailing rest := by
  rw [String.toList_intercalate]
  induction rest generalizing first with
  | nil => simp [trailing]
  | cons second others ih =>
    simp only [List.map_cons] at ih ⊢
    rw [List.intercalate_cons_cons, List.append_assoc, List.append_assoc, ih, trailing]
    simp [trailing]

/-- An opening bracket before the first declaration of a type string is in a name. -/
theorem exists_name_of_trailing {fields : List Field} {before after : List Char}
    (split : trailing fields = before ++ '(' :: ("address sender".toList ++ after)) :
    ∃ field ∈ fields, ∃ start stop, field.name = start ++ "(address sender" ++ stop := by
  induction fields generalizing before with
  | nil =>
    have member : '(' ∈ trailing [] := by simp [split]
    exact absurd member (by decide)
  | cons field rest ih =>
    have later : ∀ between, trailing rest = between ++ '(' :: ("address sender".toList ++ after) →
        ∃ field' ∈ field :: rest, ∃ start stop, field'.name = start ++ "(address sender" ++ stop := by
      intro between split
      obtain ⟨found, member, named⟩ := ih split
      exact ⟨found, List.mem_cons_of_mem _ member, named⟩
    rw [trailing_cons] at split
    obtain ⟨start, -, split⟩ := exists_behind (by simp [AbiType.bracket_not_mem_name]) split
    rcases List.append_eq_append_iff.1 split with ⟨between, -, split⟩ | ⟨tail, name, split⟩
    · exact later between split
    · cases tail with
      | nil => exact later [] split.symm
      -- The bracket is in this name, which goes on at least to the next comma.
      | cons char stop =>
        obtain ⟨rfl, behind⟩ := List.cons.inj split
        obtain ⟨stop, rfl⟩ := within_name (by decide) (by decide) behind
        refine ⟨field, List.mem_cons_self, String.ofList start, String.ofList stop, ?_⟩
        rw [← String.toList_inj, name]
        exact (toList_around start stop "(address sender").symm

end Field

namespace OperationType

variable {first second operation : OperationType} {rest rest' : List Field}

/-- The second key goes on behind the first as a type string does, and so does a name among the
fields of the first, from a bracket on. -/
def Overlaps (first second : OperationType) : Prop :=
  (∃ more, second.key = first.key ++ "(address sender,uint256 nonce" ++ more) ∧
    ∃ field ∈ first.fields, ∃ start stop, field.name = start ++ "(address sender" ++ stop

theorem Built.fields (built : operation.Built) :
    ∃ rest, operation.fields = .sender :: .nonce :: rest := by
  rcases built.shaped with ⟨rest, fields⟩ | ⟨rest, fields, -⟩
  · exact ⟨.data :: rest, fields⟩
  · exact ⟨rest, fields⟩

theorem toList_typeString (fields : operation.fields = .sender :: .nonce :: rest) :
    operation.typeString.toList
      = operation.key.toList
        ++ '(' :: ("address sender,uint256 nonce".toList ++ Field.trailing rest) := by
  have listed := Field.toList_intercalate_declarations .sender (.nonce :: rest)
  have declared : Field.sender.declaration.toList ++ Field.trailing (.nonce :: rest)
      = "address sender,uint256 nonce".toList ++ Field.trailing rest := by
    rw [Field.trailing_cons]
    simp only [← List.append_assoc]
    congr 1
  unfold typeString
  rw [fields]
  simp only [String.toList_append]
  rw [List.append_assoc, List.append_assoc, ← declared, ← listed]
  rfl

/-- A longer key with the same type string runs on into a name of the other operation type. -/
theorem overlaps_of_longer (fields : first.fields = .sender :: .nonce :: rest)
    {extra : List Char} (key : second.key.toList = first.key.toList ++ extra)
    (texts : '(' :: ("address sender,uint256 nonce".toList ++ Field.trailing rest)
      = extra ++ '(' :: ("address sender,uint256 nonce".toList ++ Field.trailing rest')) :
    first.key = second.key ∨ first.Overlaps second := by
  cases extra with
  | nil =>
    refine .inl ?_
    rw [← String.toList_inj, key, List.append_nil]
  | cons char extra =>
    obtain ⟨rfl, behind⟩ := List.cons.inj texts
    obtain ⟨more, rfl, split⟩ := exists_behind (by decide) behind
    refine .inr ⟨⟨String.ofList more, ?_⟩, ?_⟩
    · rw [← String.toList_inj, key, String.append_assoc, String.toList_append]
      exact congrArg (first.key.toList ++ ·)
        (toList_around [] more "(address sender,uint256 nonce").symm
    · have header : "address sender,uint256 nonce".toList
          = "address sender".toList ++ ",uint256 nonce".toList := rfl
      rw [header, List.append_assoc] at split
      obtain ⟨field, member, named⟩ := Field.exists_name_of_trailing split
      have listed : field ∈ first.fields := by
        rw [fields]
        exact List.mem_cons_of_mem _ (List.mem_cons_of_mem _ member)
      exact ⟨field, listed, named⟩

theorem keys_share_type_string (built : first.Built) (built' : second.Built)
    (same : first.typeString = second.typeString) :
    first.key = second.key ∨ first.Overlaps second ∨ second.Overlaps first := by
  obtain ⟨rest, fields⟩ := built.fields
  obtain ⟨rest', fields'⟩ := built'.fields
  have texts := congrArg String.toList same
  rw [toList_typeString fields, toList_typeString fields'] at texts
  rcases List.append_eq_append_iff.1 texts with ⟨extra, key, texts⟩ | ⟨extra, key, texts⟩
  · rcases overlaps_of_longer fields key texts with same | overlaps
    · exact .inl same
    · exact .inr (.inl overlaps)
  · rcases overlaps_of_longer fields' key texts with same | overlaps
    · exact .inl same.symm
    · exact .inr (.inr overlaps)

end OperationType

namespace Catalog

open Digest (keccakText)

variable {operations : List OperationType} {catalog : Catalog}

theorem built_of_mem (built : ∀ operation ∈ operations, operation.Built)
    (made : ofTypes operations = .ok catalog) :
    ∀ operation ∈ catalog.entries, operation.Built :=
  fun operation member => built operation ((mem_entries_of_ofTypes made).1 member)

/-- Entries with one type string are one entry, or their keys overlap. -/
theorem eq_or_overlaps (built : ∀ operation ∈ operations, operation.Built)
    (made : ofTypes operations = .ok catalog) {first second : OperationType}
    (member : first ∈ catalog.entries) (member' : second ∈ catalog.entries)
    (same : first.typeString = second.typeString) :
    first = second ∨ first.key ≠ second.key ∧ (first.Overlaps second ∨ second.Overlaps first) := by
  by_cases keys : first.key = second.key
  · exact .inl (List.inj_on_of_nodup_map (keys_nodup_of_ofTypes made) member member' keys)
  · have shared := OperationType.keys_share_type_string (built_of_mem built made first member)
      (built_of_mem built made second member') same
    exact .inr ⟨keys, shared.resolve_left keys⟩

theorem exists_byTypeHash? {operation : OperationType} (member : operation ∈ catalog.entries) :
    ∃ found, catalog.byTypeHash? operation.typeHash = some found := by
  refine Option.isSome_iff_exists.1 (List.find?_isSome.2 ⟨operation, member, ?_⟩)
  exact decide_eq_true rfl

/-- Entries share a type string only if the key of one runs on into a field name of the other.
Otherwise the lookup of an entry's type hash finds the entry, or one whose type string is different
and has the same digest. -/
theorem type_hash_finds_entry_but_for_brackets (built : ∀ operation ∈ operations, operation.Built)
    (made : ofTypes operations = .ok catalog) :
    (∀ first ∈ catalog.entries, ∀ second ∈ catalog.entries,
      first.typeString = second.typeString →
        first = second ∨
          first.key ≠ second.key ∧ (first.Overlaps second ∨ second.Overlaps first)) ∧
    ∀ operation ∈ catalog.entries, ∃ found ∈ catalog.entries,
      catalog.byTypeHash? operation.typeHash = some found ∧
      (found = operation ∨
        (found.typeString ≠ operation.typeString ∧
          keccakText found.typeString = keccakText operation.typeString) ∨
        (found.typeString = operation.typeString ∧ found.key ≠ operation.key ∧
          (found.Overlaps operation ∨ operation.Overlaps found))) := by
  refine ⟨fun first member second member' => eq_or_overlaps built made member member', ?_⟩
  intro operation member
  obtain ⟨found, lookup⟩ := exists_byTypeHash? member
  obtain ⟨present, hashes⟩ := mem_of_byTypeHash? lookup
  refine ⟨found, present, lookup, ?_⟩
  by_cases same : found.typeString = operation.typeString
  · rcases eq_or_overlaps built made present member same with rfl | overlaps
    · exact .inl rfl
    · exact .inr (.inr ⟨same, overlaps⟩)
  · exact .inr (.inl ⟨same, hashes⟩)

/-- The variant with a destination has a type hash of its own. -/
theorem type_hash_finds_entry_but_for_brackets_proxied :
    ∃ base variant catalog, OperationType.ofDeclared "Note" [⟨"text", .string⟩] 1 0 = .ok base ∧
      base.proxied = .ok variant ∧ ofTypes [variant, base] = .ok catalog ∧
      catalog.byTypeHash? variant.typeHash = some variant := by
  have finds : ∀ base variant catalog,
      OperationType.ofDeclared "Note" [⟨"text", .string⟩] 1 0 = .ok base →
      base.proxied = .ok variant → ofTypes [variant, base] = .ok catalog →
      base.typeHash ≠ variant.typeHash → catalog.byTypeHash? variant.typeHash = some variant := by
    intro base variant catalog made proxied inserted different
    have built : ∀ operation ∈ [variant, base], operation.Built := by
      intro operation member
      rcases List.mem_pair.1 member with rfl | rfl
      · exact ⟨_, _, _, _, base, made, .inr proxied⟩
      · exact ⟨_, _, _, _, _, made, .inl rfl⟩
    have listed := (mem_entries_of_ofTypes inserted).2 (List.mem_cons_self (a := variant))
    obtain ⟨found, present, lookup, -⟩ :=
      (type_hash_finds_entry_but_for_brackets built inserted).2 variant listed
    rcases List.mem_pair.1 ((mem_entries_of_ofTypes inserted).1 present) with rfl | rfl
    · exact lookup
    · exact absurd (mem_of_byTypeHash? lookup).2 different
  exact ⟨_, _, ⟨[_, _]⟩, rfl, rfl, rfl, finds _ _ _ rfl rfl rfl (by decide +kernel)⟩

/-- A bracket in a name lets two entries share a type string, and the lookup finds the first. -/
theorem type_string_shared_through_bracket :
    ∃ first second catalog,
      OperationType.ofDeclared "A" [⟨"x(address sender,uint256 nonce", .bool⟩] 1 0 = .ok first ∧
      OperationType.ofDeclared "A(address sender,uint256 nonce,bool x" [] 2 0 = .ok second ∧
      ofTypes [first, second] = .ok catalog ∧ second ∈ catalog.entries ∧
      first.key ≠ second.key ∧
      (∀ entry ∈ catalog.entries, ∀ other ∈ catalog.entries,
        entry.typeString = other.typeString) ∧
      catalog.byTypeHash? second.typeHash = some first ∧ first ≠ second := by
  refine ⟨_, _, ⟨[_, _]⟩, rfl, rfl, rfl, by simp, by decide, by decide, ?_, by decide⟩
  refine List.find?_cons_of_pos (decide_eq_true ?_)
  exact congrArg Digest.keccakText (by decide)

end Catalog

end GaslessRelay
