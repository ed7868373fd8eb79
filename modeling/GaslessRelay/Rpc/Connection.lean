import GaslessRelay.Client.Context
import GaslessRelay.Rpc.Circuit
import GaslessRelay.Rpc.Envelope

/-!
A ledger behind two JSON-RPC nodes. Reads are tried again and fall back to the second node;
submissions go to the active node once.
-/

namespace GaslessRelay.Rpc

inductive PostOutcome where
  /-- No connection; the text says why. -/
  | unreachable (text : String)
  | status (code : Nat)
  /-- A successful answer whose body is no JSON. -/
  | unreadable
  | body (payload : Json)

def statusPhrase (code : Nat) : String :=
  match code with
  | 400 => "Bad Request"
  | 401 => "Unauthorized"
  | 403 => "Forbidden"
  | 404 => "Not Found"
  | 405 => "Method Not Allowed"
  | 408 => "Request Timeout"
  | 413 => "Payload Too Large"
  | 429 => "Too Many Requests"
  | 500 => "Internal Server Error"
  | 501 => "Not Implemented"
  | 502 => "Bad Gateway"
  | 503 => "Service Unavailable"
  | 504 => "Gateway Timeout"
  | _ => "<unknown status code>"

def PostOutcome.result : PostOutcome → Except Failure Json
  | unreachable text => .error (.transport text)
  | status code => .error (.transport ("HTTP " ++ toString code ++ " " ++ statusPhrase code))
  | unreadable => .error (.transport "invalid JSON-RPC body: error decoding response body")
  | body payload => openEnvelope payload

/-- The nodes and the time around a client; times are in milliseconds. -/
structure Network (ω : Type) where
  clock : ω → Nat
  post : ω → (url : String) → (body : Json) → PostOutcome × ω

structure Settings where
  primary : String
  fallback : String
  readRetries : Nat := 3
deriving DecidableEq, Repr

def Settings.ofConfig (config : Config) : Settings where
  primary := config.rpcUrl
  fallback := config.fallbackRpcUrl
  readRetries := config.readRetries.toNat

structure Session (ω : Type) where
  nextId : Nat := 1
  circuit : Circuit := {}
  account : Option Address := none
  metrics : Metrics := {}
  world : ω

abbrev Action (ω : Type) := StateM (Session ω)

variable {ω : Type}

namespace Action

def bump (counter : Counter) : Action ω Unit :=
  modify fun session => { session with metrics := session.metrics.bump counter }

def circuitOpen (network : Network ω) : Action ω Bool := do
  modify fun session =>
    { session with circuit := session.circuit.refresh (network.clock session.world) }
  return (← get).circuit.isOpen

def activeUrl (network : Network ω) (settings : Settings) : Action ω String := do
  return if ← circuitOpen network then settings.fallback else settings.primary

def recordSuccess : Action ω Unit :=
  modify fun session => { session with circuit := session.circuit.recordSuccess }

def recordFailure (network : Network ω) : Action ω Unit := do
  bump .rpcErrors
  if (← get).circuit.opensOnFailure then bump .rpcFailovers
  modify fun session =>
    { session with circuit := session.circuit.recordFailure (network.clock session.world) }

def post (network : Network ω) (url method : String) (params : Json) :
    Action ω (Except Failure Json) := do
  let session ← get
  let (outcome, world) := network.post session.world url (envelope session.nextId method params)
  set { session with nextId := session.nextId + 1, world }
  return outcome.result

def round (network : Network ω) (settings : Settings) (method : String) (params : Json) :
    Action ω (Except Failure Json) := do
  if ← circuitOpen network then post network settings.fallback method params
  else
    match ← post network settings.primary method params with
    | .error (.transport first) =>
      recordFailure network
      match ← post network settings.fallback method params with
      | .error (.transport second) =>
        return .error (.transport
          ("failed on both RPCs: primary=" ++ first ++ ", fallback=" ++ second))
      | other => return other
    | other =>
      recordSuccess
      return other

/-- Rounds until one of them brings an answer, with `retries` left after the first. -/
def rounds (network : Network ω) (settings : Settings) (method : String) (params : Json) :
    (retries : Nat) → Action ω (Except Failure Json)
  | 0 => round network settings method params
  | retries + 1 => do
    match ← round network settings method params with
    | .error (.transport _) =>
      bump .rpcRetries
      rounds network settings method params retries
    | other => return other

def read (network : Network ω) (settings : Settings) (method : String) (params : Json) :
    Action ω (Except RelayError Json) := do
  return (← rounds network settings method params settings.readRetries).mapError
    (·.toError method)

def readAs {α : Type} (network : Network ω) (settings : Settings) (method : String)
    (params : Json) (decode : Json → Except RelayError α) : Action ω (Except RelayError α) := do
  return (← read network settings method params) >>= decode

/-- The account that pays for transactions: the node's first one, asked for until it is known. -/
def relayerAccount (network : Network ω) (settings : Settings) :
    Action ω (Except RelayError Address) := do
  match (← get).account with
  | some account => return .ok account
  | none =>
    match ← read network settings "eth_accounts" (.array []) with
    | .error error => return .error error
    | .ok accounts =>
      match (accounts.array?.bind List.head?).bind addressText? with
      | some account =>
        modify fun session => { session with account := some account }
        return .ok account
      | none => return .error (.rpc "node manages no relayer account")

def callParams (target : Address) (data : Bytes) : Json :=
  .array [.object [("to", .ofAddress target), ("data", .ofBytes data)], .string "latest"]

def sendParams (account target : Address) (data : Bytes) : Json :=
  .array [.object [("from", .ofAddress account), ("to", .ofAddress target),
    ("data", .ofBytes data)]]

/-- Submits a transaction to the active node, once. -/
def send (network : Network ω) (settings : Settings) (target : Address) (data : Bytes) :
    Action ω (Except RelayError Hash) := do
  match ← relayerAccount network settings with
  | .error error => return .error error
  | .ok account =>
    let method := "eth_sendTransaction"
    let url ← activeUrl network settings
    match ← post network url method (sendParams account target data) with
    | .error failure => return .error (failure.toError method)
    | .ok result =>
      match hashText? result with
      | some hash => return .ok hash
      | none => return .error (.rpc (method ++ ": bad hash " ++ result.compact))

def answer (network : Network ω) (settings : Settings) :
    (request : LedgerRequest) → Action ω request.Reply
  | .call target data => readAs network settings "eth_call" (callParams target data) readBytes
  | .send target data => send network settings target data
  | .receipt transaction =>
    readAs network settings "eth_getTransactionReceipt"
      (.array [.ofBytes (wordBytes transaction)]) readReceipt?
  | .blockNumber => readAs network settings "eth_blockNumber" (.array []) readQuantity
  | .chainId => readAs network settings "eth_chainId" (.array []) readQuantity

/-- Whether the nodes can be reached: the primary one, or at least the second. -/
def health (network : Network ω) (settings : Settings) :
    Action ω (Except RelayError String) := do
  match ← post network settings.primary "eth_blockNumber" (.array []) with
  | .ok _ => return .ok "ok"
  | .error _ =>
    match ← post network settings.fallback "eth_blockNumber" (.array []) with
    | .ok _ => return .ok "degraded"
    | .error failure => return .error (.rpc ("Both RPCs unreachable: " ++ failure.report))

/-- The context of a configuration; the nodes tell the chain where the configuration does not. -/
def connect (network : Network ω) (config : Config) :
    Action ω (Except RelayError RelayContext) := do
  match config.chainId with
  | some chainId => return RelayContext.ofConfig config chainId
  | none =>
    return (← answer network (Settings.ofConfig config) .chainId) >>= RelayContext.ofConfig config

end Action

def ledger (network : Network ω) (settings : Settings) : Ledger (Session ω) where
  answer session request :=
    let (reply, session) := (Action.answer network settings request).run session
    (some reply, session)

end GaslessRelay.Rpc
