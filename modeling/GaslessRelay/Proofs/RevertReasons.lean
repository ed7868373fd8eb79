import GaslessRelay.Proofs.NodePosts
import GaslessRelay.Proofs.ReaderAgreement
import GaslessRelay.Proofs.SettledTransactions
import GaslessRelay.Proofs.TextParts

/-!
Revert reasons on their way from a node to the caller: the encoding of the reason, its hexadecimal
text, the error object of the node, and the classification, which keeps the text. Main statement:
the reason arrives word for word, also after a replay (`Rpc.revert_reason_travels`).
-/

namespace GaslessRelay

open Bytes (StandsAt)

namespace Abi

def revertSignature : String := "Error(string)"

theorem selectorBytes_revert :
    selectorBytes (functionSelector revertSignature) = revertSelector := by
  decide +kernel

theorem encode_string (text : String) :
    encode [.string text] = numberWord 32 ++ lengthAndBytes (Bytes.ofString text) := by
  simp [encode, encodeParts, assemble, heads, tails, headLength, AbiValue.isDynamic, encodeValue]

theorem decode_encode_string {text : String}
    (fits : (Bytes.ofString text).length < Text.wordLimit) :
    decode [.string] (encode [.string text]) = .ok [.string text] := by
  have whole := Bytes.standsAt_self (encode [.string text])
  nth_rewrite 1 [encode_string] at whole
  have start : offsetAt (encode [.string text]) 0 = .ok 32 :=
    offsetAt_eq_ok whole.left (by decide)
  have content : StandsAt (lengthAndBytes (Bytes.ofString text)) (encode [.string text]) 32 := by
    have behind := whole.right
    rwa [length_numberWord] at behind
  rw [decode_dynamic_eq_ok rfl]
  exact ⟨32, start, decodeAt_string_eq_ok.2
    ⟨_, bytesAt_eq_ok content fits, Bytes.toString?_ofString text⟩⟩

theorem revertReason?_encodeCall {reason : String}
    (fits : (Bytes.ofString reason).length < Text.wordLimit) :
    revertReason? (encodeCall revertSignature [.string reason]) = some reason := by
  rw [revertReason?_eq_some, encodeCall, selectorBytes_revert]
  exact ⟨_, rfl, decode_encode_string fits⟩

end Abi

/-- The error is the classified revert of a reason, and stays it: a replay that fails with the error
gives the reason, and a failed receipt with the reason gives the error. -/
structure RelayError.Carries (error : RelayError) (reason : String) : Prop where
  classified : error = .ofRevert reason
  told : error.revertReason? = some reason
  replayed : ∀ (σ : Type) (served : Ledger σ) before after target data,
    served.answer before (.call target data) = (some (.error error), after) →
      (Settlement.replayReason target data).Yields served before (.ok reason) after
  settled : ∀ receipt : Receipt, receipt.success = false →
    { receipt with revertReason := some reason }.result = .error error

theorem RelayError.carries_ofRevert (reason : String) : (ofRevert reason).Carries reason where
  classified := rfl
  told := revertReason?_ofRevert reason
  replayed _ _ _ _ _ _ answered := Settlement.yields_replayReason_of_revert answered
  settled receipt failed := by
    rw [Receipt.result, failed]
    rfl

namespace Rpc

theorem decodeHex_of_isText {text : String} {bytes : Bytes} (spelled : Text.Hex.IsText text bytes) :
    decodeHex text = .ok bytes := by
  obtain ⟨digits, rfl, lower⟩ := spelled
  obtain ⟨unmarked, decoded⟩ := Text.Hex.decode_of_lower lower
  have once : Text.dropStart? ['0', 'x'] digits = none := by
    apply Option.eq_none_iff_forall_ne_some.2
    intro rest found
    apply unmarked
    rw [Text.dropStart?_eq_some.1 found]
    simp
  have chars : ("0x" ++ String.ofList digits).toList = ['0', 'x'] ++ digits := by simp
  rw [decodeHex, chars, Text.dropStarts_append (by simp) once]
  exact decoded

/-- The data of a node's error is hexadecimal text for bytes, by itself or within an object. -/
inductive HasData (error : Json) (bytes : Bytes) : Prop where
  | text {text : String} (data : error.member? "data" = some (.string text))
      (spelled : Text.Hex.IsText text bytes)
  | nested {members : List (String × Json)} {text : String}
      (data : error.member? "data" = some (.object members))
      (inner : Json.lookup? members "data" = some (.string text))
      (spelled : Text.Hex.IsText text bytes)

theorem HasData.errorData? {error : Json} {bytes : Bytes} (given : HasData error bytes) :
    errorData? error = some bytes := by
  cases given with
  | text data spelled => simp [Rpc.errorData?, data, decodeHex_of_isText spelled, Except.toOption]
  | nested data inner spelled =>
    simp [Rpc.errorData?, data, inner, decodeHex_of_isText spelled, Except.toOption]

/-- A node's error tells of a revert by its code or by its message. -/
inductive TellsRevert (error : Json) : Prop where
  | code (three : error.member? "code" = some (.integer revertCode))
  | message {message : String} (given : error.member? "message" = some (.string message))
      (phrase : "revert".toList <:+: message.toList)

/-- A node's error reports a reason: in its data, or in its message if the data holds none. -/
inductive Reports (error : Json) (reason : String) : Prop where
  | data (tells : TellsRevert error)
      (given : HasData error (Abi.encodeCall Abi.revertSignature [.string reason]))
  | message (given : error.member? "message" = some (.string ("execution reverted: " ++ reason)))
      (undecoded : (errorData? error).bind Abi.revertReason? = none)

def errorMessage (error : Json) : String :=
  ((error.member? "message").bind Json.string?).getD ""

theorem openEnvelope_error {payload error : Json} (failed : payload.member? "error" = some error) :
    openEnvelope payload
      = .error (.node (errorCode error) (errorMessage error) (errorData? error)) := by
  unfold openEnvelope
  rw [failed]
  rfl

theorem TellsRevert.reverts {error : Json} (tells : TellsRevert error) :
    errorCode error = revertCode ∨
      Text.occursIn "revert".toList (errorMessage error).toList = true := by
  cases tells with
  | code three =>
    left
    unfold errorCode
    rw [three]
    decide
  | message given phrase =>
    right
    unfold errorMessage
    rw [given]
    exact Text.occursIn_iff.2 phrase

theorem bareReason_reverted (reason : String) :
    bareReason ("execution reverted: " ++ reason) = reason := by
  have front : Text.dropStart? "execution reverted: ".toList
      ("execution reverted: " ++ reason).toList = some reason.toList := by
    rw [Text.dropStart?_eq_some, String.toList_append]
  rw [bareReason, front]
  exact String.ofList_toList

/-- Whatever the method, the failure is the classified revert with the very reason. -/
theorem toError_of_reports {error : Json} {reason : String} (reports : Reports error reason)
    (fits : (Bytes.ofString reason).length < Text.wordLimit) (method : String) :
    Failure.toError method (.node (errorCode error) (errorMessage error) (errorData? error))
      = .ofRevert reason := by
  cases reports with
  | data tells given =>
    rw [Failure.toError, if_pos tells.reverts, revertReason, given.errorData?, Option.bind_some,
      Abi.revertReason?_encodeCall fits]
    rfl
  | message given undecoded =>
    have said : "revert".toList <:+: ("execution reverted: " ++ reason).toList := by
      rw [String.toList_append]
      exact ⟨"execution ".toList, "ed: ".toList ++ reason.toList, rfl⟩
    have text : errorMessage error = "execution reverted: " ++ reason := by
      unfold errorMessage
      rw [given]
      rfl
    rw [Failure.toError, if_pos (TellsRevert.message given said).reverts, revertReason, undecoded,
      text]
    exact congrArg RelayError.ofRevert (bareReason_reverted reason)

variable {ω : Type} {network : Network ω} {settings : Settings}

/-- The node that the next round asks first. -/
def firstUrl (network : Network ω) (settings : Settings) (session : Session ω) : String :=
  if (refreshed network session).circuit.isOpen then settings.fallback else settings.primary

/-- What the node that is asked first replies to a question. -/
def firstReply (network : Network ω) (settings : Settings) (session : Session ω)
    (method : String) (params : Json) : Except Failure Json :=
  (network.post session.world (firstUrl network settings session)
    (envelope session.nextId method params)).1.result

namespace Action

/-- An error of the node itself ends the round: the other node is not asked. -/
theorem round_of_node {session : Session ω} {method message : String} {params : Json} {code : Int}
    {data : Option Bytes}
    (told : firstReply network settings session method params = .error (.node code message data)) :
    ((round network settings method params).run session).1 = .error (.node code message data) := by
  unfold firstReply firstUrl at told
  rw [round, StateT.run_bind, run_circuitOpen, pure_bind]
  by_cases isOpen : (refreshed network session).circuit.isOpen = true
  · rw [if_pos isOpen] at told ⊢
    exact told
  · rw [if_neg isOpen] at told ⊢
    have asked : (post network settings.primary method params).run (refreshed network session)
        = pure (.error (.node code message data),
          ((post network settings.primary method params).run (refreshed network session)).2) :=
      Prod.ext told rfl
    rw [StateT.run_bind, asked, pure_bind]
    rfl

/-- The question is not asked again after an error of the node itself. -/
theorem rounds_of_node {session : Session ω} {method message : String} {params : Json} {code : Int}
    {data : Option Bytes}
    (told : firstReply network settings session method params = .error (.node code message data))
    (retries : Nat) :
    ((rounds network settings method params retries).run session).1
      = .error (.node code message data) := by
  have first := round_of_node told
  cases retries with
  | zero => exact first
  | succ retries =>
    rw [rounds, StateT.run_bind]
    generalize (round network settings method params).run session = ended at first
    obtain ⟨reply, later⟩ := ended
    cases first
    rfl

theorem call_of_node {session : Session ω} {message : String} {target : Address} {data : Bytes}
    {code : Int} {errorData : Option Bytes}
    (told : firstReply network settings session "eth_call" (callParams target data)
      = .error (.node code message errorData)) :
    ((ledger network settings).answer session (.call target data)).1
      = some (.error (Failure.toError "eth_call" (.node code message errorData))) := by
  have ended := rounds_of_node told settings.readRetries
  show some ((readAs network settings "eth_call" (callParams target data) readBytes).run session).1
    = _
  simp only [readAs, read, StateT.run_bind]
  generalize (rounds network settings "eth_call" (callParams target data)
    settings.readRetries).run session = outcome at ended
  obtain ⟨reply, later⟩ := outcome
  cases ended
  rfl

end Action

/-- A reason that a node reports, as any text that fits in memory, is carried word for word by the
failure of every method, and a replay that the node refuses with it yields it. -/
theorem revert_reason_travels {payload error : Json} {reason : String}
    (failed : payload.member? "error" = some error) (reports : Reports error reason)
    (fits : (Bytes.ofString reason).length < Text.wordLimit) :
    (∃ failure, openEnvelope payload = .error failure ∧
      ∀ method, (failure.toError method).Carries reason) ∧
    ∀ (ω : Type) (network : Network ω) settings session target data,
      (network.post session.world (firstUrl network settings session)
        (envelope session.nextId "eth_call" (Action.callParams target data))).1 = .body payload →
      (Settlement.replayReason target data).Yields (ledger network settings) session (.ok reason)
        ((ledger network settings).answer session (.call target data)).2 := by
  have opened := openEnvelope_error failed
  have classified := toError_of_reports reports fits
  constructor
  · refine ⟨_, opened, fun method => ?_⟩
    rw [classified method]
    exact RelayError.carries_ofRevert reason
  · intro ω network settings session target data posted
    have told : firstReply network settings session "eth_call" (Action.callParams target data)
        = .error (.node (errorCode error) (errorMessage error) (errorData? error)) := by
      rw [firstReply, posted]
      exact opened
    have answered := Action.call_of_node told
    rw [classified "eth_call"] at answered
    exact Settlement.yields_replayReason_of_revert (Prod.ext answered rfl)

/-- A used counter, reported in the nested form of the data. -/
theorem revert_reason_travels_nonce :
    let data : Json := .string (Text.Hex.encodePrefixed
      (Abi.encodeCall Abi.revertSignature [.string "Relay: invalid nonce"]))
    let error : Json := .object [("code", .integer 3), ("data", .object [("data", data)])]
    Reports error "Relay: invalid nonce" ∧
      (Bytes.ofString "Relay: invalid nonce").length < Text.wordLimit ∧
      ∃ failure, openEnvelope (.object [("error", error)]) = .error failure ∧
        (failure.toError "eth_call").Carries "Relay: invalid nonce" ∧
        failure.toError "eth_call" = .sequenceMismatch "Relay: invalid nonce" := by
  intro data error
  have reports : Reports error "Relay: invalid nonce" :=
    .data (.code rfl) (.nested rfl rfl (Text.Hex.isText_encodePrefixed _))
  have fits : (Bytes.ofString "Relay: invalid nonce").length < Text.wordLimit := by
    rw [Bytes.ofString_eq]
    decide +kernel
  obtain ⟨⟨failure, opened, carries⟩, -⟩ :=
    @revert_reason_travels (.object [("error", error)]) error _ rfl reports fits
  refine ⟨reports, fits, failure, opened, carries "eth_call", ?_⟩
  rw [(carries "eth_call").classified]
  decide +kernel

end Rpc

end GaslessRelay
