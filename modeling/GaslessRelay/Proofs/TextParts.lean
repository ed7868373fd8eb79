import GaslessRelay.Proofs.PayloadSpelling
import Mathlib.Data.List.Infix

/-!
Parts of texts: what the search for a phrase finds, what is left behind repeated prefixes, phrases
in quoted texts, and the bytes of hexadecimal digits in either case.
-/

namespace GaslessRelay.Text

/-- The search finds just the texts that stand within the other one. -/
theorem occursIn_iff {part text : List Char} : occursIn part text = true ↔ part <:+: text := by
  induction text with
  | nil => simp [occursIn]
  | cons char rest ih =>
    have atFront : (dropStart? part (char :: rest)).isSome = true ↔ part <+: char :: rest := by
      rw [Option.isSome_iff_exists]
      constructor
      · rintro ⟨behind, found⟩
        exact ⟨behind, (dropStart?_eq_some.1 found).symm⟩
      · rintro ⟨behind, same⟩
        exact ⟨behind, dropStart?_eq_some.2 same.symm⟩
    rw [occursIn, Bool.or_eq_true, atFront, ih, List.infix_cons_iff]

theorem dropStarts_go_of_none {start rest : List Char} (none : dropStart? start rest = none)
    (limit : Nat) : dropStarts.go start limit rest = rest := by
  cases limit with
  | zero => rfl
  | succ limit => rw [dropStarts.go, none]

/-- A prefix that is not repeated is dropped once. -/
theorem dropStarts_append {start rest : List Char} (some : start ≠ [])
    (once : dropStart? start rest = none) : dropStarts start (start ++ rest) = rest := by
  obtain ⟨first, others, rfl⟩ := List.exists_cons_of_ne_nil some
  have front : dropStart? (first :: others) (first :: others ++ rest) = .some rest :=
    dropStart?_eq_some.2 rfl
  have length : (first :: others ++ rest).length = (others ++ rest).length + 1 := rfl
  rw [dropStarts, length, dropStarts.go, front]
  exact dropStarts_go_of_none once _

/-- How a character stands in a quoted text. -/
inductive Escape (char : Char) (chars : List Char) : Prop where
  | plain (same : chars = [char]) (bare : char ≠ '"')
  | newline (isNewline : char = '\n') (same : chars = ['\\', 'n'])
  /-- Behind the backslash there is no `n`. -/
  | other (front : chars.head? = some '\\') (behind : 'n' ∉ chars.tail)

theorem escape_low : ∀ code : Fin 256,
    let char := Char.ofNat code
    let chars := (escape '"' char).toList
    chars = [char] ∧ char ≠ '"' ∨ char = '\n' ∧ chars = ['\\', 'n'] ∨
      chars.head? = some '\\' ∧ 'n' ∉ chars.tail := by
  decide +kernel

theorem escape_high {char : Char} (high : 256 ≤ char.toNat) :
    escape '"' char = String.singleton char := by
  have glyph : hasGlyph char = true := by
    unfold hasGlyph
    simp only [Bool.or_eq_true, Bool.and_eq_true, decide_eq_true_eq, bne_iff_ne]
    right
    omega
  have other : ∀ low : Char, low.toNat < 256 → char ≠ low := by
    rintro low below rfl
    omega
  unfold escape
  rw [if_neg (other '"' (by decide))]
  split
  · exact absurd rfl (other '\\' (by decide))
  · exact absurd rfl (other '\n' (by decide))
  · exact absurd rfl (other '\r' (by decide))
  · exact absurd rfl (other '\t' (by decide))
  · exact absurd rfl (other '\x00' (by decide))
  · exact if_pos glyph

theorem escape_cases (char : Char) : Escape char (escape '"' char).toList := by
  by_cases low : char.toNat < 256
  · have each := escape_low ⟨char.toNat, low⟩
    dsimp only at each
    rw [Char.ofNat_toNat] at each
    rcases each with ⟨same, bare⟩ | ⟨isNewline, same⟩ | ⟨front, behind⟩
    · exact .plain same bare
    · exact .newline isNewline same
    · exact .other front behind
  · have high : 256 ≤ char.toNat := Nat.le_of_not_lt low
    rw [escape_high high, String.toList_singleton]
    apply Escape.plain rfl
    rintro rfl
    exact absurd high (by decide)

/-- The characters of a quoted text behind its opening quote. -/
def quotedChars (text : List Char) : List Char :=
  text.flatMap (fun char => (escape '"' char).toList) ++ ['"']

theorem toList_quoteString (text : String) :
    (quoteString text).toList = '"' :: quotedChars text.toList := by
  simp [quoteString, quotedChars, String.toList_join, List.flatMap_map]

theorem quotedChars_cons (char : Char) (rest : List Char) :
    quotedChars (char :: rest) = (escape '"' char).toList ++ quotedChars rest := by
  simp [quotedChars]

/-- A part without a backslash and a quote stands at the start of a quoted text only if it stands
at the start of the text itself. -/
theorem prefix_of_quotedChars {part text : List Char} (plain : '\\' ∉ part) (bare : '"' ∉ part)
    (found : part <+: quotedChars text) : part <+: text := by
  induction part generalizing text with
  | nil => exact List.nil_prefix
  | cons first rest ih =>
    obtain ⟨notBackslash, plainRest⟩ := List.ne_and_not_mem_of_not_mem_cons plain
    obtain ⟨notQuote, bareRest⟩ := List.ne_and_not_mem_of_not_mem_cons bare
    cases text with
    | nil => exact absurd (List.cons_prefix_cons.1 found).1.symm notQuote
    | cons char others =>
      rw [quotedChars_cons] at found
      cases escape_cases char with
      | plain same =>
        rw [same] at found
        obtain ⟨isFirst, behind⟩ := List.cons_prefix_cons.1 found
        exact List.cons_prefix_cons.2 ⟨isFirst, ih plainRest bareRest behind⟩
      | newline isNewline same =>
        rw [same] at found
        exact absurd (List.cons_prefix_cons.1 found).1.symm notBackslash
      | other front =>
        obtain ⟨behind, same⟩ := List.head?_eq_some_iff.1 front
        rw [same] at found
        exact absurd (List.cons_prefix_cons.1 found).1.symm notBackslash

theorem infix_of_append {first : Char} {rest front behind : List Char} (absent : first ∉ front)
    (found : first :: rest <:+: front ++ behind) : first :: rest <:+: behind := by
  induction front with
  | nil => exact found
  | cons char others ih =>
    obtain ⟨different, absentOthers⟩ := List.ne_and_not_mem_of_not_mem_cons absent
    rcases List.infix_cons_iff.1 found with atStart | later
    · exact absurd (List.cons_prefix_cons.1 atStart).1 different
    · exact ih absentOthers later

theorem infix_of_quotedChars {rest text : List Char} (plain : '\\' ∉ rest) (bare : '"' ∉ rest)
    (found : 'n' :: rest <:+: quotedChars text) :
    'n' :: rest <:+: text ∨ '\n' :: rest <:+: text := by
  induction text with
  | nil =>
    have none : 'n' :: rest <:+: [] := @infix_of_append 'n' rest ['"'] [] (by decide) found
    exact absurd (List.infix_nil.1 none) (List.cons_ne_nil _ _)
  | cons char others ih =>
    have later : 'n' :: rest <:+: quotedChars others →
        'n' :: rest <:+: char :: others ∨ '\n' :: rest <:+: char :: others :=
      fun found => (ih found).imp List.infix_cons List.infix_cons
    rw [quotedChars_cons] at found
    cases escape_cases char with
    | plain same =>
      rw [same] at found
      rcases List.infix_cons_iff.1 found with atStart | found
      · obtain ⟨isFirst, behind⟩ := List.cons_prefix_cons.1 atStart
        have whole := List.cons_prefix_cons.2 ⟨isFirst, prefix_of_quotedChars plain bare behind⟩
        exact .inl whole.isInfix
      · exact later found
    | newline isNewline same =>
      rw [same] at found
      rcases List.infix_cons_iff.1 (@infix_of_append 'n' rest ['\\'] _ (by decide) found) with
        atStart | found
      · obtain ⟨-, behind⟩ := List.cons_prefix_cons.1 atStart
        have whole := List.cons_prefix_cons.2
          ⟨isNewline.symm, prefix_of_quotedChars plain bare behind⟩
        exact .inr whole.isInfix
      · exact later found
    | other front behind =>
      obtain ⟨tail, same⟩ := List.head?_eq_some_iff.1 front
      rw [same] at found behind
      exact later (infix_of_append (by simpa using behind) found)

/-- A phrase from an `n` on stands in a quoted text if it stands in the text, or because the line
break before the rest of the phrase is written with an `n`. -/
theorem infix_of_quoteString {rest : List Char} {text : String} (plain : '\\' ∉ rest)
    (bare : '"' ∉ rest) (found : 'n' :: rest <:+: (quoteString text).toList) :
    'n' :: rest <:+: text.toList ∨ '\n' :: rest <:+: text.toList := by
  rw [toList_quoteString] at found
  exact infix_of_quotedChars plain bare (@infix_of_append 'n' rest ['"'] _ (by decide) found)

namespace Hex

/-- The text is the prefix `0x` and the digits of the bytes, letters in either case. -/
def IsText (text : String) (bytes : Bytes) : Prop :=
  ∃ digits, text = "0x" ++ String.ofList digits ∧ String.ofList (asciiLower digits) = encode bytes

theorem toLower_digitByte (byte : UInt8) :
    (latin1 (digitByte (byte / 16))).toLower = latin1 (digitByte (byte / 16)) ∧
      (latin1 (digitByte (byte % 16))).toLower = latin1 (digitByte (byte % 16)) := by
  revert byte
  exact byteInduction (by decide +kernel)

theorem isText_encodePrefixed (bytes : Bytes) : IsText (encodePrefixed bytes) bytes := by
  refine ⟨(encodeBytes bytes).map latin1, rfl, congrArg String.ofList ?_⟩
  rw [asciiLower, List.map_map]
  refine List.map_congr_left fun digit member => ?_
  obtain ⟨byte, -, member⟩ := List.mem_flatMap.1 member
  rcases List.mem_cons.1 member with rfl | member
  · exact (toLower_digitByte byte).1
  · rw [List.mem_singleton.1 member]
    exact (toLower_digitByte byte).2

theorem ascii_of_toLower {char : Char} (lower : char.toLower.val ≤ 127) : char.val ≤ 127 := by
  unfold Char.toLower at lower
  split at lower
  · rename_i capital
    have upper : char.val ≤ 90 := capital.2
    exact UInt32.le_trans upper (by decide)
  · exact lower

theorem digitValue?_lower : ∀ code : Fin 128,
    (digitValue? (Char.ofNat code).toLower.val.toUInt8).isSome = true →
      digitValue? (Char.ofNat code).val.toUInt8
          = digitValue? (Char.ofNat code).toLower.val.toUInt8 ∧ Char.ofNat code ≠ 'x' := by
  decide +kernel

/-- A letter counts the same in either case, and no digit is an `x`. -/
theorem digitValue?_toLower {char : Char} {value : UInt8} (lower : char.toLower.val ≤ 127)
    (digit : digitValue? char.toLower.val.toUInt8 = some value) :
    digitValue? char.val.toUInt8 = some value ∧ char ≠ 'x' := by
  have small : char.toNat < 128 := Nat.lt_succ_of_le (ascii_of_toLower lower)
  have each := digitValue?_lower ⟨char.toNat, small⟩
  rw [Char.ofNat_toNat, digit] at each
  exact each rfl

/-- Pairs of digits are read by their values only. -/
theorem decodePairs_of_values {digits : Bytes} {bytes : Bytes} (position : Nat)
    (same : digits.map digitValue? = (encodeBytes bytes).map digitValue?) :
    decodePairs position digits = .ok bytes := by
  induction bytes generalizing digits position with
  | nil =>
    have empty : digits = [] := List.map_eq_nil_iff.1 same
    rw [empty]
    rfl
  | cons byte rest ih =>
    have pair : encodeBytes (byte :: rest)
        = digitByte (byte / 16) :: digitByte (byte % 16) :: encodeBytes rest := rfl
    rw [pair, List.map_cons, List.map_cons, digit_high, digit_low] at same
    obtain ⟨high, others, rfl, isHigh, same⟩ := List.map_eq_cons_iff.1 same
    obtain ⟨low, others, rfl, isLow, same⟩ := List.map_eq_cons_iff.1 same
    rw [decodePairs]
    simp [digit, isHigh, isLow, ih (position + 2) same, high_low]

theorem value_of_mem_encodeBytes {bytes : Bytes} {digit : UInt8}
    (member : digit ∈ encodeBytes bytes) : ∃ value, digitValue? digit = some value := by
  obtain ⟨byte, -, member⟩ := List.mem_flatMap.1 member
  rcases List.mem_cons.1 member with rfl | member
  · exact ⟨_, digit_high byte⟩
  · rw [List.mem_singleton.1 member]
    exact ⟨_, digit_low byte⟩

/-- Whatever is in lowercase a row of digits is a row of digits of the same values. -/
theorem values_of_lower {digits : List Char} {lowered : Bytes}
    (valued : ∀ digit ∈ lowered, ∃ value, digitValue? digit = some value)
    (ascii : ∀ digit ∈ lowered, (latin1 digit).val ≤ 127 ∧ (latin1 digit).val.toUInt8 = digit)
    (lower : asciiLower digits = lowered.map latin1) :
    (∀ char ∈ digits, char.val ≤ 127 ∧ char ≠ 'x') ∧
      digits.map (fun char => digitValue? char.val.toUInt8) = lowered.map digitValue? := by
  induction digits generalizing lowered with
  | nil =>
    have empty : lowered = [] := List.map_eq_nil_iff.1 lower.symm
    rw [empty]
    simp
  | cons char rest ih =>
    obtain ⟨digit, others, rfl, same, behind⟩ := List.map_eq_cons_iff.1 lower.symm
    obtain ⟨value, isDigit⟩ := valued digit List.mem_cons_self
    obtain ⟨small, byte⟩ := ascii digit List.mem_cons_self
    rw [same] at small byte
    rw [← byte] at isDigit
    obtain ⟨sameValue, notMark⟩ := digitValue?_toLower small isDigit
    obtain ⟨restAscii, restValues⟩ :=
      ih (fun other member => valued other (List.mem_cons_of_mem _ member))
        (fun other member => ascii other (List.mem_cons_of_mem _ member)) behind.symm
    constructor
    · intro other member
      rcases List.mem_cons.1 member with rfl | member
      · exact ⟨ascii_of_toLower small, notMark⟩
      · exact restAscii other member
    · rw [List.map_cons, List.map_cons, restValues, sameValue, ← isDigit, byte]

theorem decode_of_lower {digits : List Char} {bytes : Bytes}
    (lower : String.ofList (asciiLower digits) = encode bytes) :
    'x' ∉ digits ∧ decode (Bytes.ofString (String.ofList digits)) = .ok bytes := by
  obtain ⟨ascii, values⟩ := values_of_lower (fun _ => value_of_mem_encodeBytes)
    (fun _ => ascii_encodeBytes) (String.ofList_injective lower)
  refine ⟨fun member => (ascii 'x' member).2 rfl, ?_⟩
  have spelled : (Bytes.ofString (String.ofList digits)).map digitValue?
      = (encodeBytes bytes).map digitValue? := by
    rw [Bytes.ofString_ofList fun char member => (ascii char member).1, List.map_map]
    exact values
  have length := congrArg List.length spelled
  rw [List.length_map, List.length_map, length_encodeBytes] at length
  rw [decode, if_neg (by omega)]
  exact decodePairs_of_values 0 spelled

end Hex

end GaslessRelay.Text
