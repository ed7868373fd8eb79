import GaslessRelay.Abi.Coercion
import GaslessRelay.Proofs.AbiPlacement
import GaslessRelay.Proofs.Outcome
import GaslessRelay.TypedData
import Mathlib.Data.List.Forall2

/-!
What a digest of structured data binds. For each computation the byte strings that it hashes are
listed, so that two computations with one result either had the same values, or hashed two different
byte strings to one digest (`Digest.Collide`). Main statements: this holds for values of one type
(`TypedData.binds`), for structs (`TypedData.structHash_binds`), for domains
(`Domain.separator_binds`) and for what is signed (`TypedData.signingDigest_binds`).
-/

namespace GaslessRelay

theorem Bytes.ofString_injective {first second : String}
    (same : ofString first = ofString second) : first = second := by
  have texts := congrArg toString? same
  rw [toString?_ofString, toString?_ofString] at texts
  exact Option.some.inj texts

theorem wordBytes_injective {first second : Word} (same : wordBytes first = wordBytes second) :
    first = second := by
  have words := congrArg wordOfBytes same
  rwa [wordOfBytes_wordBytes, wordOfBytes_wordBytes] at words

theorem wordBytes_append_inj {first second : Word} {rest rest' : Bytes}
    (same : wordBytes first ++ rest = wordBytes second ++ rest') :
    first = second ∧ rest = rest' := by
  obtain ⟨words, rests⟩ := List.append_inj same (by rw [length_wordBytes, length_wordBytes])
  exact ⟨wordBytes_injective words, rests⟩

namespace Digest

/-- One computation hashes a byte string and another one a different byte string, and both have the
same digest. The computations are given by all that they hash. -/
def Collide (first second : List Bytes) : Prop :=
  ∃ message ∈ first, ∃ other ∈ second, message ≠ other ∧ keccak256 message = keccak256 other

namespace Collide

variable {first second more less : List Bytes}

theorem mono (collide : Collide first second) (firstWithin : first ⊆ more)
    (secondWithin : second ⊆ less) : Collide more less := by
  obtain ⟨message, member, other, memberOther, different, same⟩ := collide
  exact ⟨message, firstWithin member, other, secondWithin memberOther, different, same⟩

theorem left (collide : Collide first second) (more less : List Bytes) :
    Collide (first ++ more) (second ++ less) :=
  collide.mono (List.subset_append_left first more) (List.subset_append_left second less)

theorem right (collide : Collide first second) (more less : List Bytes) :
    Collide (more ++ first) (less ++ second) :=
  collide.mono (List.subset_append_right more first) (List.subset_append_right less second)

theorem behind (collide : Collide first second) (message other : Bytes) :
    Collide (message :: first) (other :: second) :=
  collide.mono (List.subset_cons_self message first) (List.subset_cons_self other second)

end Collide

/-- Two computations that end with one digest ended with the same byte string, or collide. -/
theorem eq_or_collide {message other : Bytes} (same : keccak256 message = keccak256 other)
    (first second : List Bytes) :
    message = other ∨ Collide (message :: first) (other :: second) := by
  by_cases equal : message = other
  · exact .inl equal
  · exact .inr ⟨message, List.mem_cons_self, other, List.mem_cons_self, equal, same⟩

end Digest

open Digest (Collide eq_or_collide keccakText)

/-- The value is built like those of the type, whatever its numbers and lengths are. -/
def AbiType.Describes : AbiType → AbiValue → Prop
  | address, value => ∃ content, value = .address content
  | bool, value => ∃ content, value = .bool content
  | string, value => ∃ content, value = .string content
  | bytes, value => ∃ content, value = .bytes content
  | fixedBytes _, value => ∃ word, value = .fixedBytes word
  | uint _, value => ∃ word, value = .uint word
  | int _, value => ∃ word, value = .int word
  | array item, value => ∃ items, value = .array items ∧ ∀ entry ∈ items, item.Describes entry
  | fixedArray item _, value =>
    ∃ items, value = .fixedArray items ∧ ∀ entry ∈ items, item.Describes entry

namespace TypedData

mutual

/-- The byte strings that are hashed for the word of a value. -/
def hashed : AbiValue → List Bytes
  | .bytes value => [value]
  | .string value => [Bytes.ofString value]
  | .array items => fieldWords items :: hashedAll items
  | .fixedArray items => fieldWords items :: hashedAll items
  | .tuple items => fieldWords items :: hashedAll items
  | _ => []

/-- The byte strings that are hashed for the words of several values. -/
def hashedAll : List AbiValue → List Bytes
  | [] => []
  | item :: rest => hashed item ++ hashedAll rest

end

/-- The word of a value tells it from another one, unless hashing collides. -/
def Binds (first second : AbiValue) : Prop :=
  fieldWord first = fieldWord second → first = second ∨ Collide (hashed first) (hashed second)

theorem length_eq_of_fieldWords {first second : List AbiValue}
    (same : (fieldWords first).length = (fieldWords second).length) :
    first.length = second.length := by
  have total : ∀ values, (fieldWords values).length = 32 * values.length := by
    intro values
    induction values with
    | nil => rfl
    | cons value rest ih =>
      rw [fieldWords, List.length_append, length_wordBytes, ih, List.length_cons]
      omega
  rw [total, total] at same
  omega

theorem fieldWords_bind {first second : List AbiValue} (each : List.Forall₂ Binds first second)
    (same : fieldWords first = fieldWords second) :
    first = second ∨ Collide (hashedAll first) (hashedAll second) := by
  induction each with
  | nil => exact .inl rfl
  | @cons value other rest others binds _ ih =>
    obtain ⟨word, words⟩ := wordBytes_append_inj same
    rcases binds word with rfl | collide
    · rcases ih words with rfl | collide
      · exact .inl rfl
      · exact .inr (collide.right _ _)
    · exact .inr (collide.left _ _)

theorem items_bind {first second : List AbiValue}
    (each : ∀ value ∈ first, ∀ other ∈ second, Binds value other)
    (same : Digest.keccak256 (fieldWords first) = Digest.keccak256 (fieldWords second)) :
    first = second
      ∨ Collide (fieldWords first :: hashedAll first) (fieldWords second :: hashedAll second) := by
  rcases eq_or_collide same (hashedAll first) (hashedAll second) with words | collide
  · -- Every word has the same width, so equal words come from equally many items.
    have lengths := length_eq_of_fieldWords (congrArg List.length words)
    have paired : List.Forall₂ Binds first second := by
      refine List.forall₂_iff_zip.2 ⟨lengths, ?_⟩
      intro value other member
      exact each value (List.of_mem_zip member).1 other (List.of_mem_zip member).2
    rcases fieldWords_bind paired words with rfl | collide
    · exact .inl rfl
    · exact .inr (collide.behind _ _)
  · exact .inr collide

/-- Values of one type are bound by their words. -/
theorem binds {type : AbiType} {first second : AbiValue} (described : type.Describes first)
    (described' : type.Describes second) : Binds first second := by
  induction type generalizing first second with
  | address =>
    obtain ⟨content, rfl⟩ := described
    obtain ⟨content', rfl⟩ := described'
    intro same
    have widened : content.setWidth 256 = content'.setWidth 256 := same
    have numbers := congrArg BitVec.toNat widened
    rw [BitVec.toNat_setWidth_of_le (by decide), BitVec.toNat_setWidth_of_le (by decide)] at numbers
    exact .inl (congrArg AbiValue.address (BitVec.eq_of_toNat_eq numbers))
  | bool =>
    obtain ⟨content, rfl⟩ := described
    obtain ⟨content', rfl⟩ := described'
    intro same
    cases content <;> cases content'
    · exact .inl rfl
    · exact absurd same (by decide)
    · exact absurd same (by decide)
    · exact .inl rfl
  | fixedBytes size =>
    obtain ⟨word, rfl⟩ := described
    obtain ⟨word', rfl⟩ := described'
    exact fun same => .inl (congrArg AbiValue.fixedBytes same)
  | uint bits =>
    obtain ⟨word, rfl⟩ := described
    obtain ⟨word', rfl⟩ := described'
    exact fun same => .inl (congrArg AbiValue.uint same)
  | int bits =>
    obtain ⟨word, rfl⟩ := described
    obtain ⟨word', rfl⟩ := described'
    exact fun same => .inl (congrArg AbiValue.int same)
  | bytes =>
    obtain ⟨content, rfl⟩ := described
    obtain ⟨content', rfl⟩ := described'
    intro same
    exact (eq_or_collide same [] []).imp_left (congrArg AbiValue.bytes)
  | string =>
    obtain ⟨text, rfl⟩ := described
    obtain ⟨text', rfl⟩ := described'
    intro same
    refine (eq_or_collide same [] []).imp_left ?_
    exact fun bytes => congrArg AbiValue.string (Bytes.ofString_injective bytes)
  -- The items of an array have no words of their own in it: they are bound by a further digest.
  | array item ih =>
    obtain ⟨items, rfl, each⟩ := described
    obtain ⟨items', rfl, each'⟩ := described'
    intro same
    have bound := items_bind
      (fun value member other memberOther => ih (each value member) (each' other memberOther)) same
    exact bound.imp_left (congrArg AbiValue.array)
  | fixedArray item length ih =>
    obtain ⟨items, rfl, each⟩ := described
    obtain ⟨items', rfl, each'⟩ := described'
    intro same
    have bound := items_bind
      (fun value member other memberOther => ih (each value member) (each' other memberOther)) same
    exact bound.imp_left (congrArg AbiValue.fixedArray)

theorem forall₂_binds {types : List AbiType} {first second : List AbiValue}
    (described : List.Forall₂ AbiType.Describes types first)
    (described' : List.Forall₂ AbiType.Describes types second) :
    List.Forall₂ Binds first second := by
  induction described generalizing second with
  | nil =>
    cases described'
    exact .nil
  | cons isFirst _ ih =>
    cases described' with
    | cons isSecond others => exact .cons (binds isFirst isSecond) (ih others)

/-- The byte strings that are hashed for the digest of a struct, its type aside. -/
def hashedStruct (typeHash : Hash) (values : List AbiValue) : List Bytes :=
  (wordBytes typeHash ++ fieldWords values) :: hashedAll values

theorem structHash_binds {typeHash : Hash} {first second : List AbiValue}
    (each : List.Forall₂ Binds first second)
    (same : structHash typeHash first = structHash typeHash second) :
    first = second ∨ Collide (hashedStruct typeHash first) (hashedStruct typeHash second) := by
  rcases eq_or_collide same (hashedAll first) (hashedAll second) with messages | collide
  · rcases fieldWords_bind each (wordBytes_append_inj messages).2 with rfl | collide
    · exact .inl rfl
    · exact .inr (collide.behind _ _)
  · exact .inr collide

/-- The byte string whose digest is signed. -/
def signingMessage (separator structHash : Hash) : Bytes :=
  [0x19, 0x01] ++ wordBytes separator ++ wordBytes structHash

theorem signingDigest_binds {separator separator' structHash structHash' : Hash}
    (same : signingDigest separator structHash = signingDigest separator' structHash')
    (first second : List Bytes) :
    (separator = separator' ∧ structHash = structHash')
      ∨ Collide (signingMessage separator structHash :: first)
          (signingMessage separator' structHash' :: second) := by
  refine (eq_or_collide same first second).imp_left ?_
  intro messages
  rw [List.append_assoc, List.append_assoc] at messages
  obtain ⟨separators, structs⟩ := wordBytes_append_inj (List.append_cancel_left messages)
  exact ⟨separators, wordBytes_injective structs⟩

end TypedData

namespace Domain

/-- The values that stand for a domain in its digest. -/
def values (domain : Domain) : List AbiValue :=
  [.string domain.name, .string domain.version, .ofNat domain.chainId.toNat,
    .address domain.verifyingContract]

/-- The byte strings that are hashed for the digest of a domain, its type aside. -/
def hashed (domain : Domain) : List Bytes :=
  TypedData.hashedStruct (keccakText TypedData.domainType) domain.values

theorem describes_values (domain : Domain) :
    List.Forall₂ AbiType.Describes [.string, .string, .uint 256, .address] domain.values :=
  .cons ⟨_, rfl⟩ (.cons ⟨_, rfl⟩ (.cons ⟨_, rfl⟩ (.cons ⟨_, rfl⟩ .nil)))

end Domain

theorem AbiValue.ofNat_injective {first second : UInt64}
    (same : AbiValue.ofNat first.toNat = .ofNat second.toNat) : first = second := by
  have words := congrArg BitVec.toNat (AbiValue.uint.inj same)
  rw [Abi.toNat_uint64Word, Abi.toNat_uint64Word] at words
  exact UInt64.toNat_inj.1 words

theorem Domain.separator_binds {first second : Domain}
    (same : first.separator = second.separator) :
    first = second ∨ Collide first.hashed second.hashed := by
  have bound := TypedData.structHash_binds
    (TypedData.forall₂_binds first.describes_values second.describes_values) same
  refine bound.imp_left ?_
  intro values
  obtain ⟨name, version, chainId, contract⟩ := first
  simp only [Domain.values, List.cons.injEq, AbiValue.string.injEq, AbiValue.address.injEq,
    and_true] at values
  obtain ⟨sameName, sameVersion, sameChain, sameContract⟩ := values
  have sameId := AbiValue.ofNat_injective sameChain
  subst sameName sameVersion sameId sameContract
  rfl

end GaslessRelay
