import GaslessRelay.Json.Printer
import GaslessRelay.Json.Scan
import GaslessRelay.Proofs.PayloadSpelling
import Mathlib.Data.List.Forall2

/-!
Reading part by part gives back what was written one member or item a line. A part reads a written
value after any white space and leaves whatever follows it, so the parts of lists and records read
theirs if the parts of the items and fields do.
-/

namespace GaslessRelay.Json

/-- A character that stands for itself in a string: printable ASCII, no quote and no backslash. -/
def IsPlain (char : Char) : Prop :=
  0x20 ≤ char.toNat ∧ char.toNat < 0x7f ∧ char ≠ '"' ∧ char ≠ '\\'

def PlainText (text : String) : Prop := ∀ char ∈ text.toList, IsPlain char

instance (char : Char) : Decidable (IsPlain char) := instDecidableAnd

instance (text : String) : Decidable (PlainText text) :=
  decidable_of_iff (text.toList.all fun char => decide (IsPlain char)) (by simp [PlainText])

theorem escapeChar_of_plain {char : Char} (plain : IsPlain char) : escapeChar char = [char] := by
  obtain ⟨printable, -, quote, backslash⟩ := plain
  unfold escapeChar
  split
  · exact absurd rfl quote
  · exact absurd rfl backslash
  case h_8 => rw [if_neg (Nat.not_lt.2 printable)]
  all_goals exact absurd printable (by decide)

theorem quoted_of_plain {text : String} (plain : PlainText text) :
    quoted text = '"' :: (text.toList ++ ['"']) := by
  have same : text.toList.flatMap escapeChar = text.toList.flatMap fun char => [char] :=
    List.flatMap_congr fun char member => escapeChar_of_plain (plain char member)
  rw [quoted, same, List.flatMap_singleton']
  rfl

def Ascii (text : List Char) : Prop := ∀ char ∈ text, char.val ≤ 127

theorem ascii_plain {text : String} (plain : PlainText text) : Ascii text.toList :=
  fun char member => UInt32.le_iff_toNat_le.2 (Nat.le_of_lt (plain char member).2.1)

namespace Scan

/-- The white space of written values. -/
def Blank (text : List Char) : Prop := ∀ char ∈ text, char = ' ' ∨ char = '\n'

theorem Blank.nil : Blank [] := List.forall_mem_nil _

theorem blank_newline (level : Nat) : Blank (newline level) :=
  List.forall_mem_cons.2
    ⟨.inr rfl, fun _ member => .inl (List.eq_of_mem_replicate member)⟩

theorem Blank.skip {blanks : List Char} (blank : Blank blanks) (text : List Char) :
    skipBlank (blanks ++ text) = skipBlank text := by
  refine List.dropWhile_append_of_pos fun char member => ?_
  rcases blank char member with rfl | rfl <;> rfl

/-- The characters that begin a string, a list or a record. -/
def openings : List Char := ['"', '[', '\x7b']

/-- The characters that begin or end a part. -/
def marks : List Char := openings ++ [':', ',', ']', '\x7d']

theorem skipBlank_mark {mark : Char} (isMark : mark ∈ marks) (rest : List Char) :
    skipBlank (mark :: rest) = mark :: rest := by
  have solid : (marks.all fun mark =>
      !(mark = ' ' || mark = '\n' || mark = '\r' || mark = '\t')) = true := by
    decide
  exact List.dropWhile_cons_of_neg (by simpa using List.all_eq_true.1 solid mark isMark)

theorem skip_to_mark {blanks : List Char} (blank : Blank blanks) {mark : Char}
    (isMark : mark ∈ marks) (rest : List Char) :
    skipBlank (blanks ++ mark :: rest) = mark :: rest := by
  rw [blank.skip, skipBlank_mark isMark]

theorem expect?_mark {blanks : List Char} (blank : Blank blanks) {mark : Char}
    (isMark : mark ∈ marks) (rest : List Char) :
    expect? mark (blanks ++ mark :: rest) = some rest := by
  rw [expect?, skip_to_mark blank isMark]
  exact if_pos rfl

def Opens (text : List Char) : Prop := ∃ mark others, text = mark :: others ∧ mark ∈ openings

/-- The part reads the text as the value, after any white space and whatever follows. The text
begins a string, a list or a record, so it is not taken for the end of what it stands in. -/
structure Reads {α : Type} (part : Part α) (text : List Char) (value : α) : Prop where
  opens : Opens text
  read : ∀ blanks rest, Blank blanks → part (blanks ++ (text ++ rest)) = some (value, rest)

variable {α β : Type}

theorem Reads.as {part : Part α} {text : List Char} {value : α} (reads : Reads part text value)
    (form : α → β) : Reads (Scan.as form part) text (form value) where
  opens := reads.opens
  read blanks rest blank := by rw [Scan.as, reads.read blanks rest blank, Option.map_some]

/-! ### Strings and addresses -/

theorem stringBytes?_plain {chars : List Char} (plain : ∀ char ∈ chars, IsPlain char)
    {limit : Nat} (room : chars.length < limit) (rest : List Char) :
    stringBytes? limit (chars ++ '"' :: rest)
      = some (chars.map (·.val.toUInt8), rest) := by
  induction chars generalizing limit with
  | nil =>
    obtain ⟨limit, rfl⟩ := Nat.exists_eq_succ_of_ne_zero (Nat.ne_of_gt room)
    rfl
  | cons char chars ih =>
    obtain ⟨limit, rfl⟩ := Nat.exists_eq_succ_of_ne_zero (Nat.ne_of_gt (Nat.zero_lt_of_lt room))
    obtain ⟨⟨printable, -, quote, backslash⟩, others⟩ := List.forall_mem_cons.1 plain
    have tail := ih others (Nat.lt_of_succ_lt_succ room)
    rw [List.cons_append, stringBytes?, if_neg quote, if_neg backslash,
      if_neg (Nat.not_lt.2 printable), tail]
    rfl

theorem reads_string {text : String} (plain : PlainText text) :
    Reads string? (quoted text) text where
  opens := ⟨'"', _, rfl, List.mem_cons_self⟩
  read blanks rest blank := by
    have bytes : text.toList.map (·.val.toUInt8) = Bytes.ofString text := by
      rw [← Bytes.ofString_ofList (ascii_plain plain), String.ofList_toList]
    have room : text.toList.length < (text.toList ++ '"' :: rest).length + 1 := by
      rw [List.length_append]
      omega
    rw [quoted_of_plain plain, string?, List.cons_append, expect?_mark blank (by decide),
      Option.bind_eq_bind, Option.bind_some, List.append_assoc, List.singleton_append,
      stringBytes?_plain plain room, bytes]
    simp

theorem plain_digits (byte : UInt8) :
    IsPlain (Text.latin1 (Text.Hex.digitByte (byte / 16))) ∧
      IsPlain (Text.latin1 (Text.Hex.digitByte (byte % 16))) := by
  revert byte
  exact Text.Hex.byteInduction (by decide +kernel)

theorem plain_encode (bytes : Bytes) : PlainText (Text.Hex.encode bytes) := by
  intro char member
  rw [Text.Hex.encode, String.toList_ofList] at member
  obtain ⟨digit, inDigits, rfl⟩ := List.mem_map.1 member
  obtain ⟨byte, -, inByte⟩ := List.mem_flatMap.1 inDigits
  rcases List.mem_cons.1 inByte with rfl | inRest
  · exact (plain_digits byte).1
  · rw [List.mem_singleton.1 inRest]
    exact (plain_digits byte).2

theorem plain_encodePrefixed (bytes : Bytes) : PlainText (Text.Hex.encodePrefixed bytes) := by
  intro char member
  rw [Text.Hex.encodePrefixed, String.toList_append] at member
  rcases List.mem_append.1 member with member | member
  · exact (show PlainText "0x" by decide) char member
  · exact plain_encode bytes char member

theorem reads_address (address : Address) :
    Reads address? (quoted (Text.Hex.encodePrefixed (addressBytes address))) address where
  opens := ⟨'"', _, rfl, List.mem_cons_self⟩
  read blanks rest blank := by
    have plain := plain_encodePrefixed (addressBytes address)
    have digits := (reads_string plain).read [] rest .nil
    have decoded := Text.Hex.decodeFixed_encodePrefixed (addressBytes address)
    rw [quoted_of_plain plain, List.nil_append, List.cons_append] at digits
    rw [length_addressBytes] at decoded
    rw [quoted_of_plain plain, List.cons_append, address?, skip_to_mark blank (by decide)]
    split
    · next same => exact absurd (List.cons.inj same).1 (by decide)
    · simp only [digits, decoded, Option.bind_eq_bind, Option.bind_some, Except.toOption,
        addressOfBytes_addressBytes]
      rfl

/-! ### Lists -/

section Joined

variable {texts : List (List Char)}

theorem length_le_joined {separator : List Char} (opens : ∀ text ∈ texts, Opens text) :
    texts.length ≤ (joined separator texts).length := by
  fun_induction joined separator texts with
  | case1 => exact Nat.le_refl _
  | case2 text =>
    obtain ⟨mark, others, rfl, -⟩ := opens text List.mem_cons_self
    exact Nat.succ_le_succ (Nat.zero_le _)
  | case3 text rest _ ih =>
    obtain ⟨⟨mark, others, rfl, -⟩, later⟩ := List.forall_mem_cons.1 opens
    have enough := ih later
    simp only [List.length_cons, List.length_append]
    omega

theorem opens_joined (separator : List Char) (opens : ∀ text ∈ texts, Opens text)
    (filled : texts ≠ []) : Opens (joined separator texts) := by
  fun_cases joined separator texts with
  | case1 => exact absurd rfl filled
  | case2 text => exact opens text List.mem_cons_self
  | case3 text rest =>
    obtain ⟨mark, others, rfl, opening⟩ := opens text List.mem_cons_self
    exact ⟨mark, _, rfl, opening⟩

/-- Parts on lines of their own, from the first of them on. -/
theorem skip_to_block (level : Nat) (opens : ∀ text ∈ texts, Opens text) (filled : texts ≠ [])
    (tail : List Char) :
    ∃ mark more, skipBlank (block level texts ++ tail) = mark :: more ∧ mark ∈ openings ∧
      mark :: more = joined (',' :: newline (level + 1)) texts ++ (newline level ++ tail) ∧
      texts.length ≤ (mark :: more).length := by
  obtain ⟨mark, more, starts, opening⟩ :=
    opens_joined (',' :: newline (level + 1)) opens filled
  have whole : mark :: (more ++ (newline level ++ tail))
      = joined (',' :: newline (level + 1)) texts ++ (newline level ++ tail) := by
    rw [starts, List.cons_append]
  refine ⟨mark, more ++ (newline level ++ tail), ?_, opening, whole, ?_⟩
  · rw [block, if_neg (by simpa using filled), List.append_assoc, List.append_assoc,
      (blank_newline _).skip, ← whole, skipBlank_mark (List.mem_append_left _ opening)]
  · rw [whole, List.length_append]
    exact Nat.le_add_right_of_le (length_le_joined opens)

end Joined

/-- The items up to the bracket, with white space before each and before the bracket. -/
theorem items?_joined {item : Part α} {gap close : List Char} (blankGap : Blank gap)
    (blankClose : Blank close) {texts : List (List Char)} {values : List α}
    (reads : List.Forall₂ (Reads item) texts values) (filled : texts ≠ []) {limit : Nat}
    (room : texts.length ≤ limit) {blanks : List Char} (blank : Blank blanks) (rest : List Char) :
    items? item limit (blanks ++ (joined (',' :: gap) texts ++ (close ++ ']' :: rest)))
      = some (values, rest) := by
  induction reads generalizing limit blanks with
  | nil => exact absurd rfl filled
  | @cons text value texts values first others ih =>
    obtain ⟨limit, rfl⟩ := Nat.exists_eq_succ_of_ne_zero (Nat.ne_of_gt (Nat.zero_lt_of_lt room))
    cases others with
    | nil =>
      rw [joined, items?, first.read _ _ blank, Option.bind_eq_bind, Option.bind_some]
      simp only [skip_to_mark blankClose (by decide : ']' ∈ marks)]
      rfl
    | cons second others =>
      have later := ih (List.cons_ne_nil _ _) (Nat.le_of_succ_le_succ room) blankGap
      rw [joined, items?, List.append_assoc, List.append_assoc, first.read _ _ blank,
        Option.bind_eq_bind, Option.bind_some]
      · simp only [List.cons_append, skipBlank_mark (by decide : ',' ∈ marks), later]
        rfl
      · exact List.cons_ne_nil _ _

theorem prettyItems_eq_map (level : Nat) (items : List Json) :
    prettyItems level items = items.map (prettyChars level) := by
  induction items with
  | nil => rw [prettyItems, List.map_nil]
  | cons item rest ih => rw [prettyItems, ih, List.map_cons]

theorem opens_of_reads {item : Part α} {texts : List (List Char)} {values : List α}
    (reads : List.Forall₂ (Reads item) texts values) : ∀ text ∈ texts, Opens text := by
  induction reads with
  | nil => exact List.forall_mem_nil _
  | cons first _ ih => exact List.forall_mem_cons.2 ⟨first.opens, ih⟩

/-- The items of a list on lines of their own. -/
theorem reads_list {item : Part α} {items : List Json} {level : Nat} {values : List α}
    (reads : List.Forall₂ (fun json => Reads item (prettyChars (level + 1) json)) items values) :
    Reads (list? item) (prettyChars level (.array items)) values where
  opens := by
    rw [prettyChars]
    exact ⟨'[', _, rfl, by decide⟩
  read blanks rest blank := by
    have texts := List.forall₂_map_left_iff.2 reads
    rw [prettyChars, prettyItems_eq_map, list?, List.cons_append, List.cons_append,
      expect?_mark blank (by decide), Option.bind_eq_bind, Option.bind_some, List.append_assoc,
      List.singleton_append]
    by_cases filled : items.map (prettyChars (level + 1)) = []
    · rw [filled] at texts ⊢
      cases texts
      rfl
    · obtain ⟨mark, more, skipped, opening, whole, room⟩ :=
        skip_to_block level (opens_of_reads texts) filled (']' :: rest)
      have read := items?_joined (blank_newline (level + 1)) (blank_newline level) texts filled
        (Nat.le_succ_of_le room) .nil rest
      rw [List.nil_append, ← whole] at read
      rw [skipped]
      split
      · next same =>
        rw [(List.cons.inj same).1] at opening
        exact absurd opening (by decide)
      · exact read

/-! ### Records -/

/-- A field of a record as it is written: what reads it, what it is written from and what it is read
as. -/
structure WrittenField (α : Type) where
  name : String
  part : Part α
  json : Json
  value : α

variable {fields : List (WrittenField α)}

/-- The text of a field at a level of indentation. -/
def WrittenField.text (level : Nat) (field : WrittenField α) : List Char :=
  quoted field.name ++ ':' :: ' ' :: prettyChars level field.json

theorem prettyMembers_eq_map (level : Nat) (fields : List (WrittenField α)) :
    prettyMembers level (fields.map fun field => (field.name, field.json))
      = fields.map (WrittenField.text level) := by
  induction fields with
  | nil => rw [List.map_nil, prettyMembers, List.map_nil]
  | cons field rest ih => rw [List.map_cons, prettyMembers, ih, List.map_cons, WrittenField.text]

/-- The members up to the brace, with white space before each and before the brace. -/
theorem members?_joined {part : String → Option (Part α)} {gap close : List Char}
    (blankGap : Blank gap) (blankClose : Blank close) {level : Nat}
    (known : ∀ field ∈ fields, PlainText field.name ∧ part field.name = some field.part ∧
      Reads field.part (prettyChars level field.json) field.value)
    (filled : fields ≠ []) {limit : Nat} (room : fields.length ≤ limit) {blanks : List Char}
    (blank : Blank blanks) (rest : List Char) :
    members? part limit (blanks ++ (joined (',' :: gap) (fields.map (WrittenField.text level))
        ++ (close ++ '\x7d' :: rest)))
      = some (fields.map fun field => (field.name, field.value), rest) := by
  induction fields generalizing limit blanks with
  | nil => exact absurd rfl filled
  | cons field fields ih =>
    obtain ⟨limit, rfl⟩ := Nat.exists_eq_succ_of_ne_zero (Nat.ne_of_gt (Nat.zero_lt_of_lt room))
    obtain ⟨⟨plain, found, reads⟩, others⟩ := List.forall_mem_cons.1 known
    have space : Blank [' '] := List.forall_mem_singleton.2 (.inl rfl)
    have name (tail : List Char) : string? (blanks ++ (field.text level ++ tail))
        = some (field.name, ':' :: ([' '] ++ (prettyChars level field.json ++ tail))) := by
      rw [WrittenField.text, List.append_assoc, (reads_string plain).read _ _ blank]
      rfl
    have colon (tail : List Char) : expect? ':' (':' :: tail) = some tail :=
      expect?_mark .nil (by decide) tail
    cases fields with
    | nil =>
      rw [List.map_cons, List.map_nil, joined, members?]
      simp only [name, colon, found, reads.read _ _ space, Option.map_some, Option.bind_eq_bind,
        Option.bind_some, skip_to_mark blankClose (by decide : '\x7d' ∈ marks)]
      rfl
    | cons second fields =>
      have later := ih others (List.cons_ne_nil _ _) (Nat.le_of_succ_le_succ room) blankGap
      rw [List.map_cons, List.map_cons, joined, ← List.map_cons, List.append_assoc,
        List.append_assoc, members?]
      · simp only [name, colon, found, reads.read _ _ space, Option.map_some, Option.bind_eq_bind,
          Option.bind_some]
        simp only [List.cons_append, skipBlank_mark (by decide : ',' ∈ marks), later,
          Option.bind_some]
        rfl
      · exact List.cons_ne_nil _ _

/-- What reads the member of a name. -/
def parts (fields : List (WrittenField α)) (name : String) : Option (Part α) :=
  ((fields.map fun field => (field.name, field.part)).find? (·.1 = name)).map Prod.snd

theorem parts_name (distinct : (fields.map (·.name)).Nodup) :
    ∀ field ∈ fields, parts fields field.name = some field.part := by
  unfold parts
  induction fields with
  | nil => exact List.forall_mem_nil _
  | cons first rest ih =>
    obtain ⟨absent, distinct⟩ := List.nodup_cons.1 distinct
    refine List.forall_mem_cons.2 ⟨?_, fun field member => ?_⟩
    · rw [List.map_cons, List.find?_cons_of_pos (by simp)]
      rfl
    · have other : first.name ≠ field.name :=
        fun same => absent (List.mem_map.2 ⟨field, member, same.symm⟩)
      rw [List.map_cons, List.find?_cons_of_neg (by simpa using other)]
      exact ih distinct field member

theorem filter_name (distinct : (fields.map (·.name)).Nodup) :
    ∀ field ∈ fields, (fields.map fun field => (field.name, field.value)).filter
      (·.1 = field.name) = [(field.name, field.value)] := by
  induction fields with
  | nil => exact List.forall_mem_nil _
  | cons first rest ih =>
    obtain ⟨absent, distinct⟩ := List.nodup_cons.1 distinct
    refine List.forall_mem_cons.2 ⟨?_, fun field member => ?_⟩
    · have none : (rest.map fun field => (field.name, field.value)).filter
          (·.1 = first.name) = [] := by
        refine List.filter_eq_nil_iff.2 fun entry member => ?_
        obtain ⟨field, listed, rfl⟩ := List.mem_map.1 member
        have other : field.name ≠ first.name :=
          fun same => absent (List.mem_map.2 ⟨field, listed, same⟩)
        simpa using other
      rw [List.map_cons, List.filter_cons_of_pos (by simp), none]
    · have other : first.name ≠ field.name :=
        fun same => absent (List.mem_map.2 ⟨field, member, same.symm⟩)
      rw [List.map_cons, List.filter_cons_of_neg (by simpa using other)]
      exact ih distinct field member

theorem mapM_map_eq_some {γ δ ε : Type} {items : List γ} {change : γ → δ} {read : δ → Option ε}
    {value : γ → ε} (each : ∀ item ∈ items, read (change item) = some (value item)) :
    (items.map change).mapM read = some (items.map value) := by
  induction items with
  | nil => rfl
  | cons item rest ih =>
    obtain ⟨first, others⟩ := List.forall_mem_cons.1 each
    rw [List.map_cons, List.mapM_cons, first, Option.bind_eq_bind, Option.bind_some, ih others]
    rfl

/-- The fields of a record on lines of their own, in the order in which they are read. -/
theorem reads_record {level : Nat} (distinct : (fields.map (·.name)).Nodup)
    (filled : fields ≠ [])
    (each : ∀ field ∈ fields, PlainText field.name ∧
      Reads field.part (prettyChars (level + 1) field.json) field.value) :
    Reads (record? (fields.map fun field => (field.name, field.part)))
      (prettyChars level (.object (fields.map fun field => (field.name, field.json))))
      (fields.map (·.value)) where
  opens := by
    rw [prettyChars]
    exact ⟨'\x7b', _, rfl, by decide⟩
  read blanks rest blank := by
    have opens : ∀ text ∈ fields.map (WrittenField.text (level + 1)), Opens text := by
      intro text member
      obtain ⟨field, -, rfl⟩ := List.mem_map.1 member
      exact ⟨'"', _, rfl, by decide⟩
    have texts : fields.map (WrittenField.text (level + 1)) ≠ [] := by simpa using filled
    obtain ⟨mark, more, skipped, opening, whole, room⟩ :=
      skip_to_block level opens texts ('\x7d' :: rest)
    rw [List.length_map] at room
    have known : ∀ field ∈ fields, PlainText field.name ∧ parts fields field.name = some field.part
        ∧ Reads field.part (prettyChars (level + 1) field.json) field.value :=
      fun field member => ⟨(each field member).1, parts_name distinct field member,
        (each field member).2⟩
    have read := members?_joined (blank_newline (level + 1)) (blank_newline level) known filled
      (Nat.le_succ_of_le room) .nil rest
    rw [List.nil_append, ← whole] at read
    rw [prettyChars, prettyMembers_eq_map, record?, List.cons_append, List.cons_append,
      skip_to_mark blank (by decide), List.append_assoc, List.singleton_append]
    simp only [skipped, Option.bind_eq_bind]
    split
    · next same =>
      rw [(List.cons.inj same).1] at opening
      exact absurd opening (by decide)
    · refine Option.bind_eq_some_iff.2 ⟨_, read, Option.bind_eq_some_iff.2
        ⟨fields.map (·.value), mapM_map_eq_some fun field member => ?_, rfl⟩⟩
      simp only [filter_name distinct field member]

/-! ### The bytes of written values -/

/-- The text of the bytes of ASCII text. -/
theorem textOf_ofString {text : List Char} (ascii : Ascii text) :
    textOf (Bytes.ofString (String.ofList text)) = text := by
  have same : (Bytes.ofString (String.ofList text)).map Text.latin1
      = (String.ofList text).toList :=
    Text.latin1_ofString (by rwa [String.toList_ofList])
  rw [String.toList_ofList] at same
  exact same

theorem ascii_quoted {text : String} (plain : PlainText text) : Ascii (quoted text) := by
  rw [quoted_of_plain plain]
  exact List.forall_mem_cons.2 ⟨by decide,
    List.forall_mem_append.2 ⟨ascii_plain plain, List.forall_mem_singleton.2 (by decide)⟩⟩

theorem ascii_newline (level : Nat) : Ascii (newline level) := by
  intro char member
  rcases blank_newline level char member with rfl | rfl <;> decide

theorem ascii_block {level : Nat} {texts : List (List Char)} (each : ∀ text ∈ texts, Ascii text) :
    Ascii (block level texts) := by
  have separator : Ascii (',' :: newline (level + 1)) :=
    List.forall_mem_cons.2 ⟨by decide, ascii_newline _⟩
  have inside : Ascii (joined (',' :: newline (level + 1)) texts) := by
    fun_induction joined (',' :: newline (level + 1)) texts with
    | case1 => exact List.forall_mem_nil _
    | case2 text => exact each text List.mem_cons_self
    | case3 text rest _ ih =>
      obtain ⟨first, others⟩ := List.forall_mem_cons.1 each
      exact List.forall_mem_append.2
        ⟨List.forall_mem_append.2 ⟨first, separator⟩, ih others⟩
  unfold block
  split
  · exact List.forall_mem_nil _
  · exact List.forall_mem_append.2
      ⟨List.forall_mem_append.2 ⟨ascii_newline _, inside⟩, ascii_newline _⟩

theorem ascii_list {level : Nat} {items : List Json}
    (each : ∀ item ∈ items, Ascii (prettyChars (level + 1) item)) :
    Ascii (prettyChars level (.array items)) := by
  rw [prettyChars, prettyItems_eq_map, List.cons_append]
  refine List.forall_mem_cons.2 ⟨by decide, List.forall_mem_append.2
    ⟨ascii_block ?_, List.forall_mem_singleton.2 (by decide)⟩⟩
  exact List.forall_mem_map.2 each

theorem ascii_record {level : Nat}
    (each : ∀ field ∈ fields, PlainText field.name ∧ Ascii (prettyChars (level + 1) field.json)) :
    Ascii (prettyChars level (.object (fields.map fun field => (field.name, field.json)))) := by
  rw [prettyChars, prettyMembers_eq_map, List.cons_append]
  refine List.forall_mem_cons.2 ⟨by decide, List.forall_mem_append.2
    ⟨ascii_block ?_, List.forall_mem_singleton.2 (by decide)⟩⟩
  refine List.forall_mem_map.2 fun field member => ?_
  obtain ⟨plain, ascii⟩ := each field member
  exact List.forall_mem_append.2 ⟨ascii_quoted plain, List.forall_mem_cons.2
    ⟨by decide, List.forall_mem_cons.2 ⟨by decide, ascii⟩⟩⟩

end Scan

end GaslessRelay.Json
