import GaslessRelay.Proofs.NodePosts
import GaslessRelay.Proofs.TextParts

/-!
How often a client asks. A round is a question with no retries; rounds that bring nothing are
followed by others (`Retried.again`) until an answer comes or no retry is left
(`Action.exists_retried`). Main statement: a question is asked until its first answer, and a
transaction is posted once (`Action.reads_retry_and_submissions_do_not`).
-/

namespace GaslessRelay.Rpc

/-- The posts of one round. -/
inductive IsRound : List Post → Prop
  | held {post : Post} (node : post.node = .fallback) : IsRound [post]
  | answered {post : Post} (node : post.node = .primary) (usable : post.lost = false) :
      IsRound [post]
  | failed {first second : Post} (node : first.node = .primary) (lost : first.lost = true)
      (secondNode : second.node = .fallback) : IsRound [first, second]

theorem IsRound.length_le {posts : List Post} (made : IsRound posts) : posts.length ≤ 2 := by
  cases made <;> simp

theorem length_flatten_le {tries : List (List Post)} (made : ∀ posts ∈ tries, IsRound posts) :
    tries.flatten.length ≤ 2 * tries.length := by
  induction tries with
  | nil => simp
  | cons posts tries ih =>
    have head := (made posts List.mem_cons_self).length_le
    have rest := ih fun later listed => made later (List.mem_cons_of_mem posts listed)
    rw [List.flatten_cons, List.length_append, List.length_cons]
    omega

/-- The reply is the first usable one, with which the posts end, or there is none. -/
inductive FirstUsable (posts : List Post) : Except Failure Json → Prop
  | found {earlier : List Post} {last : Post} (split : posts = earlier ++ [last])
      (lost : ∀ post ∈ earlier, post.lost = true) (usable : last.lost = false) :
      FirstUsable posts last.reply
  | none {text : String} (lost : ∀ post ∈ posts, post.lost = true) :
      FirstUsable posts (.error (.transport text))

theorem exists_transport_of_isLost {reply : Except Failure Json} (lost : isLost reply = true) :
    ∃ text, reply = .error (.transport text) := by
  cases reply with
  | ok answer => cases lost
  | error failure =>
    cases failure with
    | transport text => exact ⟨text, rfl⟩
    | node => cases lost

namespace FirstUsable

variable {posts later : List Post} {reply : Except Failure Json}

theorem all_lost (first : FirstUsable posts reply) (lost : isLost reply = true) :
    ∀ post ∈ posts, post.lost = true := by
  cases first with
  | found split earlier usable => exact absurd lost (by rw [Post.lost] at usable; simp [usable])
  | none all => exact all

/-- One post, whose loss the reply may word differently. -/
theorem single {post : Post} (same : isLost reply = post.lost)
    (usable : post.lost = false → reply = post.reply) : FirstUsable [post] reply := by
  cases lost : post.lost with
  | false =>
    rw [usable lost]
    exact .found (List.nil_append [post]).symm (List.forall_mem_nil _) lost
  | true =>
    obtain ⟨text, told⟩ := exists_transport_of_isLost (same.trans lost)
    rw [told]
    exact .none (by simpa using lost)

theorem append (first : FirstUsable later reply) (all : ∀ post ∈ posts, post.lost = true) :
    FirstUsable (posts ++ later) reply := by
  cases first with
  | @found earlier last split lost usable =>
    have whole : posts ++ later = (posts ++ earlier) ++ [last] := by rw [split, List.append_assoc]
    apply FirstUsable.found whole
    · intro post listed
      exact (List.mem_append.1 listed).elim (all post) (lost post)
    · exact usable
  | none lost =>
    apply FirstUsable.none
    intro post listed
    exact (List.mem_append.1 listed).elim (all post) (lost post)

end FirstUsable

/-- A question that was asked in rounds, with a number of retries at most. -/
structure Retried (method : String) (retries : Nat) (tries : List (List Post))
    (reply : Except Failure Json) : Prop where
  rounds : ∀ posts ∈ tries, IsRound posts
  asks : ∀ post ∈ tries.flatten, post.method = method
  tried : tries ≠ []
  few : tries.length ≤ retries + 1
  first : FirstUsable tries.flatten reply
  exhausted : isLost reply = true → tries.length = retries + 1

namespace Retried

variable {method : String} {retries : Nat} {posts : List Post} {tries : List (List Post)}
  {reply replyLater : Except Failure Json}

theorem once (made : IsRound posts) (asks : ∀ post ∈ posts, post.method = method)
    (first : FirstUsable posts reply) : Retried method 0 [posts] reply where
  rounds := by simpa using made
  asks := by simpa using asks
  tried := by simp
  few := by simp
  first := by simpa using first
  exhausted := by simp

/-- A round that brings an answer leaves the retries unused. -/
theorem stop (round : Retried method 0 [posts] reply) (usable : isLost reply = false) :
    Retried method (retries + 1) [posts] reply :=
  { round with
    few := by simp
    exhausted := by simp [usable] }

/-- A round that brings nothing is followed by others. -/
theorem again (round : Retried method 0 [posts] reply) (lost : isLost reply = true)
    (rest : Retried method retries tries replyLater) :
    Retried method (retries + 1) (posts :: tries) replyLater where
  rounds := List.forall_mem_cons.2 ⟨round.rounds posts List.mem_cons_self, rest.rounds⟩
  asks post listed := by
    rw [List.flatten_cons, List.mem_append] at listed
    exact listed.elim (fun inRound => round.asks post (by simpa using inRound)) (rest.asks post)
  tried := by simp
  few := by simpa using rest.few
  first := by
    have all := round.first.all_lost lost
    rw [List.flatten_singleton] at all
    exact rest.first.append all
  exhausted lostLater := by simpa using rest.exhausted lostLater

theorem length_le (asked : Retried method retries tries reply) :
    tries.flatten.length ≤ 2 * (retries + 1) :=
  (length_flatten_le asked.rounds).trans (Nat.mul_le_mul_left 2 asked.few)

/-- The nodes are blamed for an error of a node that is no revert, or when all posts were lost. -/
theorem rpc_cases (asked : Retried method retries tries reply) {text : String}
    (told : reply.mapError (·.toError method) = .error (.rpc text)) :
    (∃ code message data, reply = .error (.node code message data) ∧ code ≠ revertCode ∧
      ¬ "revert".toList <:+: message.toList) ∨
    (tries.length = retries + 1 ∧ ∀ post ∈ tries.flatten, post.lost = true) := by
  cases reply with
  | ok answer => cases told
  | error failure =>
    cases failure with
    | transport => exact .inr ⟨asked.exhausted rfl, asked.first.all_lost rfl⟩
    | node code message data =>
      refine .inl ⟨code, message, data, rfl, ?_⟩
      have classified : Failure.toError method (.node code message data) = .rpc text :=
        Except.error.inj told
      rw [Failure.toError] at classified
      split at classified
      next reverts =>
        have carried := RelayError.revertReason?_ofRevert (revertReason message data)
        rw [classified] at carried
        cases carried
      next plain =>
        rw [Text.occursIn_iff, not_or] at plain
        exact plain

end Retried

variable {ω : Type} {network : Network ω} {settings : Settings}

/-- The posts of a round, and what it leaves of the counters. -/
theorem RoundEnds.exists_posts {method : String} {started after : Session (ω × List Post)}
    {reply : Except Failure Json} (ends : RoundEnds network settings method started reply after) :
    ∃ posts, Retried method 0 [posts] reply ∧ after.log = started.log ++ posts ∧
      after.metrics.rpcRetries = started.metrics.rpcRetries := by
  cases ends with
  | @held post after isOpen posted node asks =>
    refine ⟨[post], .once (.held node) (by simpa using asks) ?_, posted.log, ?_⟩
    · exact .single rfl fun _ => rfl
    · rw [posted.metrics]
  | @answered post middle closed posted node asks usable =>
    refine ⟨[post], .once (.answered node usable) (by simpa using asks) ?_, posted.log, ?_⟩
    · exact .single rfl fun _ => rfl
    · exact congrArg Metrics.rpcRetries posted.metrics
  | @failed first second middle after reply closed posted node asks lost again secondNode
      secondAsks same usable =>
    refine ⟨[first, second], .once (.failed node lost secondNode) (by simp [asks, secondAsks]) ?_,
      ?_, ?_⟩
    · have all : ∀ post ∈ [first], post.lost = true := by simpa using lost
      exact (FirstUsable.single same usable).append all
    · rw [again.log, Session.log_failed, posted.log, List.append_assoc]
      rfl
    · rw [again.metrics, Session.rpcRetries_failed, posted.metrics]

namespace Action

theorem exists_retried (network : Network ω) (settings : Settings) (method : String)
    (params : Json) (retries : Nat) (before : Session (ω × List Post)) : ∃ tries reply after,
    (rounds (network.recorded settings) settings.byRole method params retries).run before
      = pure (reply, after) ∧
    Retried method retries tries reply ∧ after.log = before.log ++ tries.flatten ∧
    after.metrics.rpcRetries = before.metrics.rpcRetries + UInt64.ofNat (tries.length - 1) := by
  induction retries generalizing before with
  | zero =>
    obtain ⟨reply, after, ran, ends⟩ := exists_roundEnds network settings method params before
    obtain ⟨posts, asked, log, counted⟩ := ends.exists_posts
    exact ⟨[posts], reply, after, ran, asked, by simpa using log, by simpa using counted⟩
  | succ retries ih =>
    obtain ⟨reply, middle, ran, ends⟩ := exists_roundEnds network settings method params before
    obtain ⟨posts, asked, log, counted⟩ := ends.exists_posts
    rw [rounds_succ, ran]
    cases lost : isLost reply with
    | false =>
      refine ⟨[posts], reply, middle, by simp [lost, pure], asked.stop lost, ?_, ?_⟩
      · simpa using log
      · simpa using counted
    | true =>
      obtain ⟨tries, replyLater, after, ranLater, rest, logLater, countedLater⟩ :=
        ih { middle with metrics := middle.metrics.bump .rpcRetries }
      refine ⟨posts :: tries, replyLater, after, ?_, asked.again lost rest, ?_, ?_⟩
      · simpa [lost, pure] using ranLater
      · rw [logLater, List.flatten_cons, ← List.append_assoc]
        exact congrArg (· ++ tries.flatten) log
      · have tried := List.length_pos_iff.2 rest.tried
        have more : (posts :: tries).length - 1 = 1 + (tries.length - 1) := by
          rw [List.length_cons]
          omega
        rw [countedLater, more, UInt64.ofNat_add, ← UInt64.add_assoc]
        exact congrArg (· + 1 + UInt64.ofNat (tries.length - 1)) counted

/-- A question of a recorded client. -/
theorem exists_read (network : Network ω) (settings : Settings) (method : String) (params : Json)
    (before : Session (ω × List Post)) : ∃ tries reply after,
    (read (network.recorded settings) settings.byRole method params).run before
      = pure (reply.mapError (·.toError method), after) ∧
    Retried method settings.readRetries tries reply ∧ after.log = before.log ++ tries.flatten ∧
    after.metrics.rpcRetries = before.metrics.rpcRetries + UInt64.ofNat (tries.length - 1) := by
  obtain ⟨tries, reply, after, ran, asked⟩ :=
    exists_retried network settings method params settings.readRetries before
  refine ⟨tries, reply, after, ?_, asked⟩
  unfold read
  rw [StateT.run_bind]
  exact congrArg (· >>= _) ran

/-- The account is asked for only where it is not known. -/
theorem exists_relayerAccount (network : Network ω) (settings : Settings)
    (before : Session (ω × List Post)) : ∃ asked reading after,
    (relayerAccount (network.recorded settings) settings.byRole).run before
      = pure (reading, after) ∧
    after.log = before.log ++ asked ∧ (∀ post ∈ asked, post.method = "eth_accounts") ∧
    (before.account.isSome → reading.isOk ∧ asked = []) := by
  cases known : before.account with
  | some account =>
    exact ⟨[], .ok account, before, run_relayerAccount_known known, (List.append_nil _).symm,
      List.forall_mem_nil _, fun _ => ⟨rfl, rfl⟩⟩
  | none =>
    obtain ⟨tries, reply, after, ran, asked, logged, -⟩ :=
      exists_read network settings "eth_accounts" (.array []) before
    obtain ⟨reading, account, told⟩ :=
      @run_relayerAccount_unknown _ (network.recorded settings) settings.byRole before known
    rw [ran] at told
    exact ⟨tries.flatten, reading, { after with account }, told, logged, asked.asks, by simp⟩

end Action

/-- The node that is in use: the second one while the breaker is open, which it is for some time
after the last failure. -/
def Session.activeNode (network : Network ω) (session : Session ω) : Node :=
  if session.circuit.isOpen ∧
      network.clock session.world - session.circuit.lastFailure ≤ breakerWindow then .fallback
  else .primary

theorem Circuit.isOpen_refresh (circuit : Circuit) (now : Nat) :
    (circuit.refresh now).isOpen = true ↔
      circuit.isOpen = true ∧ now - circuit.lastFailure ≤ breakerWindow := by
  unfold refresh
  by_cases late : breakerWindow < now - circuit.lastFailure
  · have elapsed : ¬ now - circuit.lastFailure ≤ breakerWindow := Nat.not_le.2 late
    cases isOpen : circuit.isOpen <;> simp [isOpen, late, elapsed]
  · simp [late, Nat.not_lt.1 late]

theorem activeNode_eq (network : Network ω) (session : Session ω) :
    session.activeNode network
      = if (refreshed network session).circuit.isOpen then .fallback else .primary := by
  unfold Session.activeNode
  congr 1
  exact (propext (session.circuit.isOpen_refresh _)).symm

namespace Action

/-- A question is asked until a node answers, in rounds that the retries limit, and its first
answer is told; a transaction is posted once, to the node in use, whatever comes of it, if the
account that pays for it is known or can be read. -/
theorem reads_retry_and_submissions_do_not (network : Network ω) (settings : Settings)
    (session : Session ω) :
    (∀ method params, ∃ tries reply after,
      (read network settings method params).run session
        = pure (reply.mapError (·.toError method), after) ∧
      (read (network.recorded settings) settings.byRole method params).run (session.recording [])
        = pure (reply.mapError (·.toError method), after.recording tries.flatten) ∧
      Retried method settings.readRetries tries reply ∧
      tries.flatten.length ≤ 2 * (settings.readRetries + 1) ∧
      after.metrics.rpcRetries
        = session.metrics.rpcRetries + UInt64.ofNat (tries.length - 1) ∧
      ∀ text, reply.mapError (·.toError method) = .error (.rpc text) →
        (∃ code message data, reply = .error (.node code message data) ∧ code ≠ revertCode ∧
          ¬ "revert".toList <:+: message.toList) ∨
        (tries.length = settings.readRetries + 1 ∧ ∀ post ∈ tries.flatten, post.lost = true)) ∧
    ∀ target data, ∃ asked submitted reading middle result after,
      (relayerAccount network settings).run session = pure (reading, middle) ∧
      (send network settings target data).run session = pure (result, after) ∧
      (send (network.recorded settings) settings.byRole target data).run (session.recording [])
        = pure (result, after.recording (asked ++ submitted)) ∧
      (∀ post ∈ asked, post.method = "eth_accounts") ∧
      (∀ post ∈ submitted,
        post.method = "eth_sendTransaction" ∧ post.node = middle.activeNode network) ∧
      submitted.length = (if reading.isOk then 1 else 0) ∧
      (session.account.isSome → reading.isOk ∧ asked = []) := by
  constructor
  · intro method params
    obtain ⟨tries, reply, after, ran, asked, logged, counted⟩ :=
      exists_read network settings method params (session.recording [])
    refine ⟨tries, reply, after.unrecorded, mirrors_read.run_eq ran, ?_, asked, asked.length_le,
      counted, fun text => asked.rpc_cases⟩
    rw [ran, ← after.recording_unrecorded, logged]
    rfl
  · intro target data
    obtain ⟨asked, reading, middle, told, logged, asks, known⟩ :=
      exists_relayerAccount network settings (session.recording [])
    have plain := mirrors_relayerAccount.run_eq told
    rcases send_cases told target data with
      ⟨error, rfl, ran⟩ | ⟨account, result, post, after, rfl, ran, posted, node, sends⟩
    · refine ⟨asked, [], _, middle.unrecorded, _, middle.unrecorded, plain,
        (mirrors_send target data).run_eq ran, ?_, asks, List.forall_mem_nil _, rfl, known⟩
      rw [ran, ← middle.recording_unrecorded, logged, List.append_nil]
      rfl
    · refine ⟨asked, [post], _, middle.unrecorded, result, after.unrecorded, plain,
        (mirrors_send target data).run_eq ran, ?_, asks, ?_, rfl, known⟩
      · rw [ran, ← after.recording_unrecorded, posted.log, Session.log_refreshed, logged]
        rfl
      · rw [List.forall_mem_singleton, activeNode_eq]
        exact ⟨sends, node⟩

end Action

end GaslessRelay.Rpc
