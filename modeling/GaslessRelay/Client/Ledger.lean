import GaslessRelay.Bytes
import GaslessRelay.Client.Error
import GaslessRelay.Client.Metrics

/-!
What the relay client asks of a ledger, and its operations as programs of such questions: a program
can be run against any ledger, or one question at a time among others.
-/

namespace GaslessRelay

structure Receipt where
  transaction : Hash
  block : UInt64
  success : Bool
  revertReason : Option String
deriving DecidableEq

/-- The receipt of a successful transaction; a revert is an error that carries its reason. -/
def Receipt.result (receipt : Receipt) : Except RelayError Receipt :=
  if receipt.success then .ok receipt
  else .error (.ofRevert (receipt.revertReason.getD "reverted without reason"))

inductive LedgerRequest where
  | call (target : Address) (data : Bytes)
  /-- A transaction of the relayer's account. -/
  | send (target : Address) (data : Bytes)
  | receipt (transaction : Hash)
  | blockNumber
  | chainId
deriving DecidableEq

namespace LedgerRequest

abbrev Answer : LedgerRequest → Type
  | call .. => Bytes
  | send .. => Hash
  | receipt _ => Option Receipt
  | blockNumber => UInt64
  | chainId => UInt64

abbrev Reply (request : LedgerRequest) : Type := Except RelayError request.Answer

end LedgerRequest

/-- A ledger with states in `σ`. It may leave a question without any reply. -/
structure Ledger (σ : Type) where
  answer : σ → (request : LedgerRequest) → Option request.Reply × σ

/-- A program of the client: it ends with a result, counts an event, or asks the ledger. A question
is asked again as long as the reply says so. -/
inductive Client (α : Type) : Type where
  | done (result : α)
  | count (counter : Counter) (rest : Client α)
  | ask (request : LedgerRequest) (again : request.Reply → Bool) (next : request.Reply → Client α)

namespace Client

def bind {α β : Type} (program : Client α) (next : α → Client β) : Client β :=
  match program with
  | done result => next result
  | count counter rest => count counter (rest.bind next)
  | ask request again rest => ask request again fun reply => (rest reply).bind next

instance : Monad Client where
  pure := done
  bind := bind

def bump (counter : Counter) : Client Unit := count counter (done ())

def query (request : LedgerRequest) : Client request.Reply :=
  ask request (fun _ => false) done

def poll (request : LedgerRequest) (enough : request.Reply → Bool) : Client request.Reply :=
  ask request (fun reply => !enough reply) done

/-- The result of a program run against a ledger with at most `limit` steps, and what it leaves. A
program that gets no reply has none. -/
def run {σ α : Type} (ledger : Ledger σ) : (limit : Nat) → Client α → Metrics → σ →
    Option (α × Metrics × σ)
  | _, done result, metrics, state => some (result, metrics, state)
  | 0, _, _, _ => none
  | limit + 1, count counter rest, metrics, state =>
    run ledger limit rest (metrics.bump counter) state
  | limit + 1, ask request again next, metrics, state =>
    match ledger.answer state request with
    | (none, _) => none
    | (some reply, state) =>
      if again reply then run ledger limit (ask request again next) metrics state
      else run ledger limit (next reply) metrics state

end Client

abbrev ClientM := ExceptT RelayError Client

namespace ClientM

def query (request : LedgerRequest) : ClientM request.Answer := ExceptT.mk (Client.query request)

def poll (request : LedgerRequest) (enough : request.Answer → Bool) : ClientM request.Answer :=
  ExceptT.mk (Client.poll request fun reply =>
    match reply with
    | .ok answer => enough answer
    | .error _ => true)

def bump (counter : Counter) : ClientM Unit := ExceptT.lift (Client.bump counter)

def known {α : Type} (result : Except RelayError α) : ClientM α := ExceptT.mk (.done result)

def attempt {α : Type} (program : ClientM α) : ClientM (Except RelayError α) :=
  ExceptT.lift program.run

def decoded {α : Type} (result : Except CodecError α) : ClientM α :=
  known (result.mapError .codec)

end ClientM

end GaslessRelay
