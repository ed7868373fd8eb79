import GaslessRelay.Rpc.Connection

/-!
The posts that a client makes. A recorded network keeps them by the roles of the nodes, which are
told apart even where both have one address, and the record changes nothing else (`Action.Mirrors`).
What a step can do is said once: a round of a question (`Action.exists_roundEnds`) asks the second
node alone while the breaker is open, and otherwise when the primary one was lost; a submission is
posted once (`Action.send_cases`).
-/

namespace GaslessRelay.Rpc

/-- The nodes of a client. -/
inductive Node where
  | primary
  | fallback
deriving DecidableEq

/-- A request that was posted to a node, and what became of it; times are in milliseconds. -/
structure Post where
  node : Node
  body : Json
  sent : Nat
  outcome : PostOutcome
  answered : Nat

/-- No usable answer: another node may be asked. -/
def isLost : Except Failure Json → Bool
  | .error (.transport _) => true
  | _ => false

namespace Post

def reply (post : Post) : Except Failure Json := post.outcome.result

def lost (post : Post) : Bool := isLost post.reply

def method (post : Post) : String := ((post.body.member? "method").bind Json.string?).getD ""

end Post

namespace Settings

def url (settings : Settings) : Node → String
  | .primary => settings.primary
  | .fallback => settings.fallback

/-- The settings with the roles of the nodes for their addresses. -/
def byRole (settings : Settings) : Settings :=
  { settings with primary := "primary", fallback := "fallback" }

end Settings

def Node.ofRole (role : String) : Node := if role = "primary" then .primary else .fallback

@[simp] theorem Node.ofRole_url (settings : Settings) (node : Node) :
    ofRole (settings.byRole.url node) = node := by
  cases node <;> rfl

variable {ω α β : Type} {network : Network ω} {settings : Settings}

/-- The network with a record of its posts, the oldest first. Its nodes go by their roles. -/
def Network.recorded (network : Network ω) (settings : Settings) : Network (ω × List Post) where
  clock world := network.clock world.1
  post world role body :=
    let node := Node.ofRole role
    let (outcome, after) := network.post world.1 (settings.url node) body
    (outcome, after,
      world.2 ++ [⟨node, body, network.clock world.1, outcome, network.clock after⟩])

/-- The session after a look at the breaker. -/
def refreshed (network : Network ω) (session : Session ω) : Session ω :=
  { session with circuit := session.circuit.refresh (network.clock session.world) }

namespace Session

/-- The session of a client that is recorded from now on. -/
def recording (session : Session ω) (log : List Post) : Session (ω × List Post) :=
  { session with world := (session.world, log) }

/-- The session without its record. -/
def unrecorded (session : Session (ω × List Post)) : Session ω :=
  { session with world := session.world.1 }

def log (session : Session (ω × List Post)) : List Post := session.world.2

@[simp] theorem recording_unrecorded (session : Session (ω × List Post)) :
    session.unrecorded.recording session.log = session := rfl

@[simp] theorem log_refreshed (network : Network (ω × List Post))
    (session : Session (ω × List Post)) : (refreshed network session).log = session.log := rfl

@[simp] theorem metrics_refreshed (network : Network ω) (session : Session ω) :
    (refreshed network session).metrics = session.metrics := rfl

/-- The session after a failure of the primary node. -/
def failed (network : Network ω) (session : Session ω) : Session ω :=
  { session with
    circuit := session.circuit.recordFailure (network.clock session.world)
    metrics :=
      let counted := session.metrics.bump .rpcErrors
      if session.circuit.opensOnFailure then counted.bump .rpcFailovers else counted }

@[simp] theorem log_failed (network : Network (ω × List Post))
    (session : Session (ω × List Post)) : (session.failed network).log = session.log := rfl

@[simp] theorem rpcRetries_failed (network : Network ω) (session : Session ω) :
    (session.failed network).metrics.rpcRetries = session.metrics.rpcRetries := by
  unfold failed
  cases session.circuit.opensOnFailure <;> rfl

/-- The session after a usable answer of the primary node. -/
def succeeded (session : Session ω) : Session ω :=
  { session with circuit := session.circuit.recordSuccess }

end Session

namespace Action

/-- The actions do the same, but for the record. -/
def Mirrors (recorded : Action (ω × List Post) α) (plain : Action ω α) : Prop :=
  ∀ session, plain.run session.unrecorded
    = ((recorded.run session).1, (recorded.run session).2.unrecorded)

/-- A recorded run tells how the client itself runs. -/
theorem Mirrors.run_eq {recorded : Action (ω × List Post) α} {plain : Action ω α}
    (mirrors : Mirrors recorded plain) {session : Session ω} {log : List Post} {value : α}
    {after : Session (ω × List Post)}
    (ran : recorded.run (session.recording log) = pure (value, after)) :
    plain.run session = pure (value, after.unrecorded) := by
  have same := mirrors (session.recording log)
  rw [ran] at same
  exact same

theorem mirrors_pure (value : α) : Mirrors (ω := ω) (pure value) (pure value) := fun _ => rfl

theorem Mirrors.bind {recorded : Action (ω × List Post) α} {plain : Action ω α}
    {next : α → Action (ω × List Post) β} {plainNext : α → Action ω β}
    (first : Mirrors recorded plain) (rest : ∀ value, Mirrors (next value) (plainNext value)) :
    Mirrors (recorded >>= next) (plain >>= plainNext) := by
  intro session
  rw [StateT.run_bind, StateT.run_bind, first session]
  exact rest _ _

theorem mirrors_circuitOpen :
    Mirrors (circuitOpen (network.recorded settings)) (circuitOpen network) := fun _ => rfl

theorem mirrors_recordSuccess : Mirrors (ω := ω) recordSuccess recordSuccess := fun _ => rfl

theorem mirrors_bump (counter : Counter) : Mirrors (ω := ω) (bump counter) (bump counter) :=
  fun _ => rfl

theorem run_circuitOpen (session : Session ω) :
    (circuitOpen network).run session
      = pure ((refreshed network session).circuit.isOpen, refreshed network session) := rfl

theorem run_recordFailure (session : Session ω) :
    (recordFailure network).run session = pure ((), session.failed network) := by
  unfold recordFailure Session.failed
  cases opens : session.circuit.opensOnFailure with
  | true => simp [bump, opens]
  | false => simp [bump, opens]

theorem mirrors_recordFailure :
    Mirrors (recordFailure (network.recorded settings)) (recordFailure network) := by
  intro session
  rw [run_recordFailure, run_recordFailure]
  rfl

variable {method : String} {params : Json}

theorem mirrors_post (node : Node) :
    Mirrors (post (network.recorded settings) (settings.byRole.url node) method params)
      (post network (settings.url node) method params) := by
  intro session
  cases node <;> rfl

theorem mirrors_round : Mirrors (round (network.recorded settings) settings.byRole method params)
    (round network settings method params) := by
  apply mirrors_circuitOpen.bind
  intro isOpen
  cases isOpen with
  | true => exact mirrors_post .fallback
  | false =>
    apply (mirrors_post .primary).bind
    intro first
    cases first with
    | ok answer => exact mirrors_recordSuccess.bind fun _ => mirrors_pure _
    | error failure =>
      cases failure with
      | node => exact mirrors_recordSuccess.bind fun _ => mirrors_pure _
      | transport text =>
        apply mirrors_recordFailure.bind
        intro _
        apply (mirrors_post .fallback).bind
        intro second
        cases second with
        | ok answer => exact mirrors_pure _
        | error failure => cases failure <;> exact mirrors_pure _

theorem mirrors_rounds (retries : Nat) :
    Mirrors (rounds (network.recorded settings) settings.byRole method params retries)
      (rounds network settings method params retries) := by
  induction retries with
  | zero => exact mirrors_round
  | succ retries ih =>
    apply mirrors_round.bind
    intro reply
    cases reply with
    | ok answer => exact mirrors_pure _
    | error failure =>
      cases failure with
      | node => exact mirrors_pure _
      | transport text => exact (mirrors_bump _).bind fun _ => ih

theorem mirrors_read : Mirrors (read (network.recorded settings) settings.byRole method params)
    (read network settings method params) :=
  (mirrors_rounds settings.readRetries).bind fun _ => mirrors_pure _

theorem mirrors_readAs (decode : Json → Except RelayError α) :
    Mirrors (readAs (network.recorded settings) settings.byRole method params decode)
      (readAs network settings method params decode) :=
  mirrors_read.bind fun _ => mirrors_pure _

theorem mirrors_get_bind {next : Session (ω × List Post) → Action (ω × List Post) α}
    {plainNext : Session ω → Action ω α}
    (rest : ∀ session, Mirrors (next session) (plainNext session.unrecorded)) :
    Mirrors (get >>= next) (get >>= plainNext) :=
  fun session => rest session session

theorem mirrors_setAccount (account : Option Address) :
    Mirrors (ω := ω) (modify fun session => { session with account })
      (modify fun session => { session with account }) := fun _ => rfl

theorem mirrors_relayerAccount :
    Mirrors (relayerAccount (network.recorded settings) settings.byRole)
      (relayerAccount network settings) := by
  apply mirrors_get_bind
  intro session
  have same : session.unrecorded.account = session.account := rfl
  rw [same]
  cases session.account with
  | some account => exact mirrors_pure _
  | none =>
    apply mirrors_read.bind
    intro reply
    cases reply with
    | error error => exact mirrors_pure _
    | ok accounts =>
      cases first : (accounts.array?.bind List.head?).bind addressText? with
      | none =>
        simp only [first]
        exact mirrors_pure _
      | some account =>
        simp only [first]
        exact (mirrors_setAccount _).bind fun _ => mirrors_pure _

/-- The active node is the second one while the breaker is open. -/
theorem activeUrl_bind (settings : Settings) (next : String → Action ω α) :
    activeUrl network settings >>= next = circuitOpen network >>= fun isOpen =>
      next (settings.url (if isOpen then .fallback else .primary)) := by
  unfold activeUrl
  rw [bind_assoc]
  congr 1
  funext isOpen
  rw [pure_bind]
  cases isOpen <;> rfl

theorem mirrors_send (target : Address) (data : Bytes) :
    Mirrors (send (network.recorded settings) settings.byRole target data)
      (send network settings target data) := by
  apply mirrors_relayerAccount.bind
  intro reading
  cases reading with
  | error error => exact mirrors_pure _
  | ok account =>
    dsimp only
    rw [activeUrl_bind, activeUrl_bind]
    apply mirrors_circuitOpen.bind
    intro isOpen
    apply (mirrors_post _).bind
    intro reply
    cases reply with
    | error failure => exact mirrors_pure _
    | ok result =>
      cases given : hashText? result with
      | none =>
        simp only [given]
        exact mirrors_pure _
      | some hash =>
        simp only [given]
        exact mirrors_pure _

theorem mirrors_answer (request : LedgerRequest) :
    Mirrors (answer (network.recorded settings) settings.byRole request)
      (answer network settings request) := by
  cases request with
  | send target data => exact mirrors_send target data
  | _ => exact mirrors_readAs _

end Action

/-- What a post changes: it is recorded, and only the ids and the world move on. -/
structure Posted (network : Network ω) (before : Session (ω × List Post)) (post : Post)
    (after : Session (ω × List Post)) : Prop where
  log : after.log = before.log ++ [post]
  sent : post.sent = network.clock before.world.1
  answered : post.answered = network.clock after.world.1
  circuit : after.circuit = before.circuit
  metrics : after.metrics = before.metrics

namespace Action

theorem exists_posted (network : Network ω) (settings : Settings) (node : Node) (method : String)
    (params : Json) (before : Session (ω × List Post)) : ∃ post after,
    (Action.post (network.recorded settings) (settings.byRole.url node) method params).run before
      = pure (post.reply, after) ∧
    Posted network before post after ∧ post.node = node ∧ post.method = method :=
  ⟨⟨_, _, _, _, _⟩, _, rfl, ⟨rfl, rfl, rfl, rfl, rfl⟩, Node.ofRole_url settings node, rfl⟩

end Action

/-- How a round ends after its look at the breaker. -/
inductive RoundEnds (network : Network ω) (settings : Settings) (method : String)
    (started : Session (ω × List Post)) : Except Failure Json → Session (ω × List Post) → Prop
  /-- The breaker is open: the second node is asked alone. -/
  | held {post : Post} {after : Session (ω × List Post)} (isOpen : started.circuit.isOpen = true)
      (posted : Posted network started post after) (node : post.node = .fallback)
      (asks : post.method = method) : RoundEnds network settings method started post.reply after
  /-- The primary node answers. -/
  | answered {post : Post} {after : Session (ω × List Post)}
      (closed : started.circuit.isOpen = false) (posted : Posted network started post after)
      (node : post.node = .primary) (asks : post.method = method) (usable : post.lost = false) :
      RoundEnds network settings method started post.reply after.succeeded
  /-- The primary node fails, which is noted, and the second one is asked. -/
  | failed {first second : Post} {middle after : Session (ω × List Post)}
      {reply : Except Failure Json} (closed : started.circuit.isOpen = false)
      (posted : Posted network started first middle) (node : first.node = .primary)
      (asks : first.method = method) (lost : first.lost = true)
      (again : Posted network (middle.failed (network.recorded settings)) second after)
      (secondNode : second.node = .fallback) (secondAsks : second.method = method)
      (same : isLost reply = second.lost) (usable : second.lost = false → reply = second.reply) :
      RoundEnds network settings method started reply after

namespace Action

theorem exists_roundEnds (network : Network ω) (settings : Settings) (method : String)
    (params : Json) (before : Session (ω × List Post)) : ∃ reply after,
    (round (network.recorded settings) settings.byRole method params).run before
      = pure (reply, after) ∧
    RoundEnds network settings method (refreshed (network.recorded settings) before) reply
      after := by
  unfold round
  rw [StateT.run_bind, run_circuitOpen, pure_bind]
  generalize refreshed (network.recorded settings) before = started
  cases isOpen : started.circuit.isOpen with
  | true =>
    obtain ⟨post, after, ran, posted, node, asks⟩ :=
      exists_posted network settings .fallback method params started
    exact ⟨_, _, ran, .held isOpen posted node asks⟩
  | false =>
    obtain ⟨first, middle, ran, posted, node, asks⟩ :=
      exists_posted network settings .primary method params started
    change ∃ reply after,
      (post (network.recorded settings) (settings.byRole.url .primary) method params >>= _).run
        started = _ ∧ _
    rw [StateT.run_bind, ran, pure_bind]
    cases told : first.reply with
    | ok answer =>
      have usable : first.lost = false := by rw [Post.lost, told]; rfl
      exact ⟨_, _, rfl, told ▸ .answered isOpen posted node asks usable⟩
    | error failure =>
      cases failure with
      | node code message data =>
        have usable : first.lost = false := by rw [Post.lost, told]; rfl
        exact ⟨_, _, rfl, told ▸ .answered isOpen posted node asks usable⟩
      | transport text =>
        have lost : first.lost = true := by rw [Post.lost, told]; rfl
        obtain ⟨second, after, ranSecond, again, secondNode, secondAsks⟩ :=
          exists_posted network settings .fallback method params
            (middle.failed (network.recorded settings))
        dsimp only
        rw [StateT.run_bind, run_recordFailure, pure_bind]
        change ∃ reply after,
          (post (network.recorded settings) (settings.byRole.url .fallback) method params >>= _).run
            _ = _ ∧ _
        rw [StateT.run_bind, ranSecond, pure_bind]
        have ends : ∀ reply, isLost reply = second.lost →
            (second.lost = false → reply = second.reply) →
            RoundEnds network settings method started reply after := fun _ =>
          .failed isOpen posted node asks lost again secondNode secondAsks
        cases toldSecond : second.reply with
        | ok answer =>
          rw [Post.lost, toldSecond] at ends
          exact ⟨_, _, rfl, ends _ rfl fun _ => rfl⟩
        | error failure =>
          cases failure with
          | node code message data =>
            rw [Post.lost, toldSecond] at ends
            exact ⟨_, _, rfl, ends _ rfl fun _ => rfl⟩
          | transport textSecond =>
            rw [Post.lost, toldSecond] at ends
            exact ⟨_, _, rfl, ends _ rfl (by simp [isLost])⟩

theorem rounds_succ (retries : Nat) (session : Session ω) :
    (rounds network settings method params (retries + 1)).run session =
      let (reply, after) := (round network settings method params).run session
      if isLost reply then
        (rounds network settings method params retries).run
          { after with metrics := after.metrics.bump .rpcRetries }
      else pure (reply, after) := by
  rw [rounds, StateT.run_bind]
  generalize (round network settings method params).run session = ended
  obtain ⟨reply, after⟩ := ended
  cases reply with
  | ok answer => rfl
  | error failure => cases failure <;> rfl

theorem run_relayerAccount_known {session : Session ω} {account : Address}
    (known : session.account = some account) :
    (relayerAccount network settings).run session = pure (.ok account, session) := by
  unfold relayerAccount
  rw [StateT.run_bind, StateT.run_get, pure_bind, known]
  rfl

/-- An account that is not known is read, and nothing else of the session changes. -/
theorem run_relayerAccount_unknown {session : Session ω} (unknown : session.account = none) :
    ∃ reading account, (relayerAccount network settings).run session = pure (reading,
      { ((read network settings "eth_accounts" (.array [])).run session).2 with account }) := by
  unfold relayerAccount
  rw [StateT.run_bind, StateT.run_get, pure_bind, unknown]
  dsimp only
  obtain ⟨reply, after, ran⟩ : ∃ reply after,
    (read network settings "eth_accounts" (.array [])).run session = pure (reply, after) :=
    ⟨_, _, rfl⟩
  rw [StateT.run_bind, ran, pure_bind]
  cases reply with
  | error error => exact ⟨.error error, after.account, rfl⟩
  | ok accounts =>
    dsimp only
    cases (accounts.array?.bind List.head?).bind addressText? with
    | none => exact ⟨_, after.account, rfl⟩
    | some account => exact ⟨_, some account, rfl⟩

/-- A submission is posted once, to the active node, when the account can be told. -/
theorem send_cases {before middle : Session (ω × List Post)} {reading : Except RelayError Address}
    (told : (relayerAccount (network.recorded settings) settings.byRole).run before
      = pure (reading, middle)) (target : Address) (data : Bytes) :
    (∃ error, reading = .error error ∧
      (send (network.recorded settings) settings.byRole target data).run before
        = pure (.error error, middle)) ∨
    ∃ account result post after, reading = .ok account ∧
      (send (network.recorded settings) settings.byRole target data).run before
        = pure (result, after) ∧
      Posted network (refreshed (network.recorded settings) middle) post after ∧
      post.node = (if (refreshed (network.recorded settings) middle).circuit.isOpen
        then .fallback else .primary) ∧
      post.method = "eth_sendTransaction" := by
  unfold send
  rw [StateT.run_bind, told, pure_bind]
  cases reading with
  | error error => exact .inl ⟨error, rfl, rfl⟩
  | ok account =>
    right
    dsimp only
    rw [activeUrl_bind, StateT.run_bind, run_circuitOpen, pure_bind]
    generalize refreshed (network.recorded settings) middle = looked
    obtain ⟨post, after, ran, posted, node, asks⟩ :=
      exists_posted network settings (if looked.circuit.isOpen then .fallback else .primary)
        "eth_sendTransaction" (sendParams account target data) looked
    rw [StateT.run_bind, ran, pure_bind]
    cases post.reply with
    | error failure => exact ⟨account, _, post, after, rfl, rfl, posted, node, asks⟩
    | ok reply =>
      dsimp only
      cases hashText? reply with
      | none => exact ⟨account, _, post, after, rfl, rfl, posted, node, asks⟩
      | some hash => exact ⟨account, _, post, after, rfl, rfl, posted, node, asks⟩

end Action

end GaslessRelay.Rpc
