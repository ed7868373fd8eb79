import GaslessRelay.Proofs.AbiPlacement

/-!
Lengths of encodings. The heads of a tuple take up exactly the bytes that were set aside for them,
for values of every kind, so the tails start where the offsets count from.
-/

namespace GaslessRelay

namespace Abi

/-- The head of a part takes up the bytes set aside for it. -/
def Part.Fits (part : Part) : Prop :=
  part.width = if part.dynamic then 32 else part.body.length

theorem headLength_cons (part : Part) (rest : List Part) :
    headLength (part :: rest) = part.width + headLength rest := rfl

theorem length_heads {parts : List Part} (fit : ∀ part ∈ parts, part.Fits) (offset : Nat) :
    (heads offset parts).length = headLength parts := by
  induction parts generalizing offset with
  | nil => rfl
  | cons part rest ih =>
    have width : part.width = _ := fit part List.mem_cons_self
    have restFit : ∀ other ∈ rest, other.Fits :=
      fun other member => fit other (List.mem_cons_of_mem _ member)
    by_cases dynamic : part.dynamic = true
    · simp only [if_pos dynamic] at width
      rw [heads, if_pos dynamic, List.length_append, length_numberWord, ih restFit,
        headLength_cons, width]
    · simp only [if_neg dynamic] at width
      rw [heads, if_neg dynamic, List.length_append, ih restFit, headLength_cons, width]

/-- A tuple without dynamic items has no tails, and its heads take up the sizes of its items. -/
theorem encodeParts_static {items : List AbiValue} (static : AbiValue.anyDynamic items = false) :
    headLength (encodeParts items) = AbiValue.headSizes items ∧ tails (encodeParts items) = [] := by
  induction items with
  | nil => exact ⟨rfl, rfl⟩
  | cons item rest ih =>
    simp only [AbiValue.anyDynamic, Bool.or_eq_false_iff] at static
    obtain ⟨sizes, noTails⟩ := ih static.2
    constructor
    · simp only [encodeParts, headLength_cons, static.1, Bool.false_eq_true, if_false, sizes,
        AbiValue.headSizes]
    · simp only [encodeParts, tails, static.1, Bool.false_eq_true, if_false, noTails]

mutual

/-- A value that is not dynamic takes up exactly its head size. -/
theorem length_encodeValue : (value : AbiValue) → value.isDynamic = false →
    (encodeValue value).length = value.headSize
  | .address _, _ | .bool _, _ | .uint _, _ | .int _, _ | .fixedBytes _, _ => by
    simp only [encodeValue, length_wordBytes, AbiValue.headSize]
  | .bytes _, static | .string _, static | .array _, static => by
    simp only [AbiValue.isDynamic, Bool.true_eq_false] at static
  | .fixedArray items, static | .tuple items, static => by
    simp only [AbiValue.isDynamic] at static
    obtain ⟨sizes, noTails⟩ := encodeParts_static static
    simp only [encodeValue, assemble, noTails, List.append_nil, AbiValue.headSize, static,
      Bool.false_eq_true, if_false]
    rw [length_heads (fits_encodeParts items), sizes]

theorem fits_encodeParts : (items : List AbiValue) → ∀ part ∈ encodeParts items, part.Fits
  | [] => by simp [encodeParts]
  | item :: rest => by
    intro part member
    rcases List.mem_cons.1 member with rfl | inRest
    · unfold Part.Fits
      by_cases dynamic : item.isDynamic = true
      · simp only [if_pos dynamic]
      · have static : item.isDynamic = false := by simpa using dynamic
        simp only [static, Bool.false_eq_true, if_false]
        exact (length_encodeValue item static).symm
    · exact fits_encodeParts rest part inRest

end

/-- The heads of a tuple take up as many bytes as its offsets assume. -/
theorem length_heads_encodeParts (items : List AbiValue) (offset : Nat) :
    (heads offset (encodeParts items)).length = headLength (encodeParts items) :=
  length_heads (fits_encodeParts items) offset

theorem length_assemble_encodeParts (items : List AbiValue) :
    (assemble (encodeParts items)).length
      = headLength (encodeParts items) + (tails (encodeParts items)).length := by
  rw [assemble, List.length_append, length_heads_encodeParts]

theorem length_encodeCall (signature : String) (arguments : List AbiValue) :
    (encodeCall signature arguments).length = 4 + (encode arguments).length := by
  rw [encodeCall, List.length_append, length_selectorBytes]

theorem take_encodeCall (signature : String) (arguments : List AbiValue) :
    (encodeCall signature arguments).take 4 = selectorBytes (functionSelector signature) :=
  List.take_left' (length_selectorBytes _)

theorem drop_encodeCall (signature : String) (arguments : List AbiValue) :
    (encodeCall signature arguments).drop 4 = encode arguments :=
  List.drop_left' (length_selectorBytes _)

end Abi

end GaslessRelay
