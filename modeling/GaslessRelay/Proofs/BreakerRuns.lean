import GaslessRelay.Proofs.NodePosts
import Mathlib.Data.List.DropRight

/-!
The breaker over whole runs of a client. What it holds is read off the posts that were made
(`Tracks`): each kind of post keeps it so, and so does each action, as long as none of its steps
comes so late that the breaker closes by itself (`Advances`). Main statement: the breaker opens
with the fifth failure in a row, and the primary node is left alone from then on
(`Action.breaker_opens_on_fifth_failure`).
-/

namespace GaslessRelay.Rpc

/-- A question to the primary node; a submission is none. -/
def Post.isPrimaryRead (post : Post) : Bool :=
  post.node = .primary ∧ post.method ≠ "eth_sendTransaction"

def primaryReads (log : List Post) : List Post := log.filter (·.isPrimaryRead)

/-- How many of the last reads were lost in a row. -/
def lossStreak (reads : List Post) : Nat := (reads.rtakeWhile (·.lost)).length

/-- As many reads were lost in a row as open the breaker. -/
def LostInARow (reads : List Post) : Prop :=
  ∃ run, run <:+: reads ∧ run.length = breakerThreshold ∧ ∀ post ∈ run, post.lost = true

def lastLost? (reads : List Post) : Option Post := (reads.filter (·.lost)).getLast?

/-- The statement holds of each post and the posts before it. -/
def AtEach (statement : List Post → Post → Prop) (log : List Post) : Prop :=
  ∀ earlier post, earlier ++ [post] <+: log → statement earlier post

/-- No post comes too long after the last failure of the primary node. -/
def Timely : List Post → Prop :=
  AtEach fun earlier post => ∀ failure ∈ lastLost? (primaryReads earlier),
    post.sent - failure.answered ≤ breakerWindow

/-- Once the primary node failed often enough, nothing is posted to it. -/
def Spared : List Post → Prop :=
  AtEach fun earlier post => LostInARow (primaryReads earlier) → post.node = .fallback

namespace AtEach

variable {statement : List Post → Post → Prop} {log longer : List Post} {post : Post}

theorem nil : AtEach statement [] := by
  intro earlier post front
  simpa using front.length_le

theorem concat_iff :
    AtEach statement (log ++ [post]) ↔ AtEach statement log ∧ statement log post := by
  constructor
  · intro each
    exact ⟨fun earlier other front => each earlier other (front.trans (List.prefix_append _ _)),
      each log post (List.prefix_refl _)⟩
  · intro ⟨each, last⟩ earlier other front
    rcases List.prefix_concat_iff.1 front with whole | inside
    · obtain ⟨rfl, rfl⟩ := List.append_singleton_inj.1 whole
      exact last
    · exact each earlier other inside

theorem of_prefix (each : AtEach statement longer) (front : log <+: longer) :
    AtEach statement log :=
  fun earlier post inside => each earlier post (inside.trans front)

end AtEach

/-- A run that ends within the first window is never too late. -/
theorem timely_of_sent_le {log : List Post} (soon : ∀ post ∈ log, post.sent ≤ breakerWindow) :
    Timely log := by
  intro earlier post front failure _
  have early := soon post (front.subset (by simp))
  omega

section Reads

variable {log reads : List Post} {post : Post}

theorem primaryReads_concat (read : post.isPrimaryRead = true) :
    primaryReads (log ++ [post]) = primaryReads log ++ [post] := by
  simp [primaryReads, read]

theorem primaryReads_concat_other (other : post.isPrimaryRead = false) :
    primaryReads (log ++ [post]) = primaryReads log := by
  simp [primaryReads, other]

theorem lossStreak_concat_lost (lost : post.lost = true) :
    lossStreak (reads ++ [post]) = lossStreak reads + 1 := by
  rw [lossStreak, List.rtakeWhile_concat_pos _ _ _ lost, List.length_append]
  rfl

theorem lossStreak_concat_answered (usable : post.lost = false) :
    lossStreak (reads ++ [post]) = 0 := by
  rw [lossStreak, List.rtakeWhile_concat_neg _ _ _ (by simp [usable])]
  rfl

/-- A row of losses at the end is part of the longest one. -/
theorem exists_lost_suffix_iff {count : Nat} :
    (∃ run, run <:+ reads ∧ run.length = count ∧ ∀ post ∈ run, post.lost = true) ↔
      count ≤ lossStreak reads := by
  unfold lossStreak
  constructor
  · intro ⟨run, ⟨front, split⟩, length, lost⟩
    have kept : ∀ post ∈ run.reverse, post.lost = true := by simpa using lost
    rw [← split, List.rtakeWhile, List.reverse_append, List.takeWhile_append_of_pos kept]
    simp only [List.length_reverse, List.length_append]
    omega
  · obtain ⟨tail, named⟩ : ∃ tail, tail = reads.rtakeWhile (·.lost) := ⟨_, rfl⟩
    rw [← named]
    intro fits
    refine ⟨tail.drop (tail.length - count), (List.drop_suffix _ _).trans ?_, ?_, ?_⟩
    · rw [named]
      exact List.rtakeWhile_suffix _ _
    · rw [List.length_drop]
      omega
    · intro post listed
      rw [named] at listed
      exact List.mem_rtakeWhile_imp (List.mem_of_mem_drop listed)

theorem lostInARow_concat :
    LostInARow (reads ++ [post]) ↔
      breakerThreshold ≤ lossStreak (reads ++ [post]) ∨ LostInARow reads := by
  unfold LostInARow
  rw [← exists_lost_suffix_iff, ← exists_or]
  apply exists_congr
  intro run
  rw [List.infix_concat_iff, or_and_right]

theorem LostInARow.exists_lastLost (row : LostInARow reads) :
    ∃ failure, lastLost? reads = some failure := by
  obtain ⟨run, inside, length, lost⟩ := row
  obtain ⟨post, listed⟩ := List.exists_mem_of_length_pos (length ▸ by decide : 0 < run.length)
  have kept : post ∈ reads.filter (·.lost) :=
    List.mem_filter.2 ⟨inside.subset listed, lost post listed⟩
  exact ⟨_, List.getLast?_eq_some_getLast (List.ne_nil_of_mem kept)⟩

theorem lastLost?_concat_lost (lost : post.lost = true) :
    lastLost? (reads ++ [post]) = some post := by
  simp [lastLost?, lost]

theorem lastLost?_concat_answered (usable : post.lost = false) :
    lastLost? (reads ++ [post]) = lastLost? reads := by
  simp [lastLost?, usable]

end Reads

namespace Circuit

variable {circuit : Circuit}

theorem recordSuccess_of_closed (closed : circuit.isOpen = false) :
    circuit.recordSuccess = { circuit with failures := 0 } := by
  unfold recordSuccess
  split
  next => rw [closed]
  next none =>
    exact congrArg (fun failures => { circuit with failures }) (Nat.eq_zero_of_not_pos none)

theorem recordFailure_of_closed (closed : circuit.isOpen = false) (now : Nat) :
    circuit.recordFailure now = {
      failures := circuit.failures + 1
      lastFailure := now
      isOpen := breakerThreshold ≤ circuit.failures + 1
      failovers := circuit.failovers + if breakerThreshold ≤ circuit.failures + 1 then 1 else 0 } := by
  unfold recordFailure
  by_cases enough : breakerThreshold ≤ circuit.failures + 1
  · simp [closed, enough]
  · simp [closed, enough]

end Circuit

theorem Session.rpcErrors_failed {ω : Type} (network : Network ω) (session : Session ω) :
    (session.failed network).metrics.rpcErrors = session.metrics.rpcErrors + 1 := by
  unfold failed
  cases session.circuit.opensOnFailure <;> rfl

/-- The breaker of a session agrees with the posts that were made; `errors` were counted before. -/
structure Tracks {ω : Type} (errors : UInt64) (session : Session (ω × List Post)) : Prop where
  failures : session.circuit.isOpen = false →
    session.circuit.failures = lossStreak (primaryReads session.log) ∧
      lossStreak (primaryReads session.log) < breakerThreshold
  isOpen : session.circuit.isOpen = true ↔ LostInARow (primaryReads session.log)
  spared : Spared session.log
  failovers : session.circuit.failovers = if session.circuit.isOpen then 1 else 0
  counted : session.metrics.rpcErrors
    = errors + UInt64.ofNat ((primaryReads session.log).countP (·.lost))
  last : ∀ failure ∈ lastLost? (primaryReads session.log),
    session.circuit.lastFailure = failure.answered

variable {ω α β : Type} {network : Network ω} {settings : Settings} {errors : UInt64}
  {before middle after : Session (ω × List Post)} {post : Post}

namespace Tracks

theorem fresh {session : Session ω} (closed : session.circuit = {}) :
    Tracks session.metrics.rpcErrors (session.recording []) where
  failures _ := ⟨congrArg Circuit.failures closed, show 0 < breakerThreshold by decide⟩
  isOpen := by
    have never : ¬ LostInARow [] := by
      intro ⟨run, inside, length, _⟩
      rw [List.infix_nil.1 inside] at length
      cases length
    have shut : session.circuit.isOpen = false := congrArg Circuit.isOpen closed
    exact iff_of_false (by simp [Session.recording, shut]) never
  spared := .nil
  failovers := by simp [Session.recording, closed]
  counted := (UInt64.add_zero _).symm
  last _ none := by cases none

/-- A look at the breaker changes nothing unless a post comes too late. -/
theorem refreshed_eq (tracks : Tracks errors before)
    (posted : Posted network (refreshed (network.recorded settings) before) post after)
    (timely : Timely after.log) : refreshed (network.recorded settings) before = before := by
  have same : before.circuit.refresh (network.clock before.world.1) = before.circuit := by
    apply if_neg
    intro ⟨isOpen, late⟩
    obtain ⟨failure, last⟩ := (tracks.isOpen.1 isOpen).exists_lastLost
    rw [posted.log] at timely
    have soon := (AtEach.concat_iff.1 timely).2 failure last
    rw [posted.sent] at soon
    rw [tracks.last failure last] at late
    exact absurd soon (Nat.not_le.2 late)
  exact congrArg (fun circuit => { before with circuit }) same

/-- A post that is no read of the primary node. -/
theorem post_other (tracks : Tracks errors before) (posted : Posted network before post after)
    (other : post.isPrimaryRead = false)
    (spares : LostInARow (primaryReads before.log) → post.node = .fallback) :
    Tracks errors after := by
  have reads : primaryReads after.log = primaryReads before.log := by
    rw [posted.log, primaryReads_concat_other other]
  constructor
  · rw [posted.circuit, reads]
    exact tracks.failures
  · rw [posted.circuit, reads]
    exact tracks.isOpen
  · rw [posted.log]
    exact AtEach.concat_iff.2 ⟨tracks.spared, spares⟩
  · rw [posted.circuit]
    exact tracks.failovers
  · rw [posted.metrics, reads]
    exact tracks.counted
  · rw [posted.circuit, reads]
    exact tracks.last

theorem not_lostInARow (tracks : Tracks errors before) (closed : before.circuit.isOpen = false) :
    ¬ LostInARow (primaryReads before.log) := by
  rw [← tracks.isOpen, closed]
  decide

/-- A read that the primary node answers. -/
theorem post_answered (tracks : Tracks errors before) (closed : before.circuit.isOpen = false)
    (posted : Posted network before post after) (read : post.isPrimaryRead = true)
    (usable : post.lost = false) : Tracks errors after.succeeded := by
  have never := tracks.not_lostInARow closed
  have reads : primaryReads after.succeeded.log = primaryReads before.log ++ [post] := by
    rw [← primaryReads_concat read, ← posted.log]
    rfl
  have streak : lossStreak (primaryReads before.log ++ [post]) = 0 :=
    lossStreak_concat_answered usable
  have circuit : after.succeeded.circuit = { before.circuit with failures := 0 } := by
    rw [← Circuit.recordSuccess_of_closed closed, ← posted.circuit]
    rfl
  constructor
  · intro _
    rw [circuit, reads, streak]
    exact ⟨rfl, by decide⟩
  · rw [circuit, reads, lostInARow_concat, streak]
    simp [closed, never, breakerThreshold]
  · have spared : Spared (before.log ++ [post]) :=
      AtEach.concat_iff.2 ⟨tracks.spared, fun row => absurd row never⟩
    rwa [← posted.log] at spared
  · rw [circuit]
    exact tracks.failovers
  · rw [reads, List.countP_append, List.countP_singleton, usable]
    exact (congrArg Metrics.rpcErrors posted.metrics).trans tracks.counted
  · rw [circuit, reads, lastLost?_concat_answered usable]
    exact tracks.last

/-- A read that the primary node loses. -/
theorem post_lost (tracks : Tracks errors before) (closed : before.circuit.isOpen = false)
    (posted : Posted network before post after) (read : post.isPrimaryRead = true)
    (lost : post.lost = true) : Tracks errors (after.failed (network.recorded settings)) := by
  obtain ⟨failures, few⟩ := tracks.failures closed
  have never := tracks.not_lostInARow closed
  have reads : primaryReads after.log = primaryReads before.log ++ [post] := by
    rw [posted.log, primaryReads_concat read]
  have streak : lossStreak (primaryReads before.log ++ [post]) = before.circuit.failures + 1 := by
    rw [lossStreak_concat_lost lost, failures]
  have row : LostInARow (primaryReads before.log ++ [post]) ↔
      breakerThreshold ≤ before.circuit.failures + 1 := by
    rw [lostInARow_concat, streak, or_iff_left never]
  have circuit : (after.failed (network.recorded settings)).circuit
      = before.circuit.recordFailure post.answered := by
    rw [← posted.circuit, posted.answered]
    rfl
  rw [Circuit.recordFailure_of_closed closed] at circuit
  constructor
  · intro stays
    rw [circuit] at stays ⊢
    rw [Session.log_failed, reads, streak]
    exact ⟨rfl, Nat.lt_of_not_le (of_decide_eq_false stays)⟩
  · rw [circuit, Session.log_failed, reads, row]
    exact decide_eq_true_iff
  · rw [Session.log_failed, posted.log]
    exact AtEach.concat_iff.2 ⟨tracks.spared, fun row => absurd row never⟩
  · rw [circuit]
    simp [tracks.failovers, closed]
  · rw [Session.rpcErrors_failed, Session.log_failed, reads, posted.metrics, tracks.counted,
      List.countP_append, List.countP_singleton, lost, if_pos rfl, UInt64.ofNat_add,
      ← UInt64.add_assoc]
    rfl
  · rw [circuit, Session.log_failed, reads, lastLost?_concat_lost lost]
    intro failure same
    cases same
    rfl

end Tracks

/-- The posts go on, and the breaker agrees with them if none of them is too late. -/
structure Advances (before after : Session (ω × List Post)) : Prop where
  log : before.log <+: after.log
  tracks : ∀ {errors}, Timely after.log → Tracks errors before → Tracks errors after

namespace Advances

theorem refl (session : Session (ω × List Post)) : Advances session session :=
  ⟨List.prefix_refl _, fun _ tracks => tracks⟩

theorem trans (first : Advances before middle) (second : Advances middle after) :
    Advances before after :=
  ⟨first.log.trans second.log, fun timely tracks =>
    second.tracks timely (first.tracks (timely.of_prefix second.log) tracks)⟩

/-- A step that posts nothing and leaves the breaker and the count of errors alone. -/
theorem of_silent (log : after.log = before.log) (circuit : after.circuit = before.circuit)
    (counted : after.metrics.rpcErrors = before.metrics.rpcErrors) : Advances before after where
  log := log ▸ List.prefix_refl _
  tracks _ tracks := by
    constructor
    · rw [log, circuit]
      exact tracks.failures
    · rw [log, circuit]
      exact tracks.isOpen
    · rw [log]
      exact tracks.spared
    · rw [circuit]
      exact tracks.failovers
    · rw [log, counted]
      exact tracks.counted
    · rw [log, circuit]
      exact tracks.last

end Advances

theorem Posted.prefix_log (posted : Posted network before post after) : before.log <+: after.log :=
  posted.log ▸ List.prefix_append before.log [post]

theorem Post.isPrimaryRead_eq_false (node : post.node = .fallback) : post.isPrimaryRead = false := by
  simp [isPrimaryRead, node]

/-- A round keeps the breaker in line with the posts, whatever the nodes answer. -/
theorem RoundEnds.advances {method : String} {reply : Except Failure Json}
    (ends : RoundEnds network settings method (refreshed (network.recorded settings) before) reply
      after)
    (read : method ≠ "eth_sendTransaction") : Advances before after := by
  cases ends with
  | @held post after isOpen posted node asks =>
    refine ⟨posted.prefix_log, fun timely tracks => ?_⟩
    rw [tracks.refreshed_eq posted timely] at posted
    exact tracks.post_other posted (Post.isPrimaryRead_eq_false node) fun _ => node
  | @answered post middle closed posted node asks usable =>
    refine ⟨posted.prefix_log, fun timely tracks => ?_⟩
    have primary : post.isPrimaryRead = true := by simp [Post.isPrimaryRead, node, asks, read]
    have same := tracks.refreshed_eq posted timely
    rw [same] at posted closed
    exact tracks.post_answered closed posted primary usable
  | @failed first second middle after reply closed posted node asks lost again secondNode =>
    refine ⟨posted.prefix_log.trans again.prefix_log, fun timely tracks => ?_⟩
    have primary : first.isPrimaryRead = true := by simp [Post.isPrimaryRead, node, asks, read]
    have same := tracks.refreshed_eq posted (timely.of_prefix again.prefix_log)
    rw [same] at posted closed
    exact (tracks.post_lost closed posted primary lost).post_other again
      (Post.isPrimaryRead_eq_false secondNode) fun _ => secondNode

/-- A submission goes to the node in use, and leaves the breaker alone. -/
theorem Posted.advances
    (posted : Posted network (refreshed (network.recorded settings) before) post after)
    (node : post.node
      = if (refreshed (network.recorded settings) before).circuit.isOpen then .fallback else .primary)
    (submits : post.method = "eth_sendTransaction") : Advances before after := by
  refine ⟨posted.prefix_log, fun timely tracks => ?_⟩
  have same := tracks.refreshed_eq posted timely
  rw [same] at posted node
  apply tracks.post_other posted (by simp [Post.isPrimaryRead, submits])
  intro row
  rw [node, if_pos (tracks.isOpen.2 row)]

/-- What a client can be asked: the ledger's questions, and which account pays. -/
inductive Task where
  | ask (request : LedgerRequest)
  | account

namespace Action

def perform (network : Network ω) (settings : Settings) : Task → Action ω Unit
  | .ask request => do let _ ← answer network settings request
  | .account => do let _ ← relayerAccount network settings

/-- The action keeps the breaker in line with the posts. -/
def Steady (action : Action (ω × List Post) α) : Prop :=
  ∀ before, Advances before (action.run before).2

theorem steady_pure (value : α) : Steady (ω := ω) (pure value) := fun before => .refl before

theorem Steady.bind {action : Action (ω × List Post) α} {next : α → Action (ω × List Post) β}
    (first : Steady action) (rest : ∀ value, Steady (next value)) : Steady (action >>= next) := by
  intro before
  rw [StateT.run_bind]
  exact (first before).trans (rest _ _)

theorem steady_rounds {method : String} {params : Json} (read : method ≠ "eth_sendTransaction")
    (retries : Nat) :
    Steady (rounds (network.recorded settings) settings.byRole method params retries) := by
  induction retries with
  | zero =>
    intro before
    obtain ⟨reply, after, ran, ends⟩ := exists_roundEnds network settings method params before
    rw [rounds, ran]
    exact ends.advances read
  | succ retries ih =>
    intro before
    obtain ⟨reply, middle, ran, ends⟩ := exists_roundEnds network settings method params before
    have advanced := ends.advances read
    rw [rounds_succ, ran]
    cases lost : isLost reply with
    | false =>
      simp only [pure, lost]
      exact advanced
    | true =>
      have counted : Advances middle { middle with metrics := middle.metrics.bump .rpcRetries } :=
        .of_silent rfl rfl rfl
      simp only [pure, lost]
      exact (advanced.trans counted).trans (ih _)

theorem steady_read {method : String} {params : Json} (read : method ≠ "eth_sendTransaction") :
    Steady (Action.read (network.recorded settings) settings.byRole method params) :=
  (steady_rounds read settings.readRetries).bind fun _ => steady_pure _

theorem steady_readAs {method : String} {params : Json} (read : method ≠ "eth_sendTransaction")
    (decode : Json → Except RelayError α) :
    Steady (readAs (network.recorded settings) settings.byRole method params decode) :=
  (steady_read read).bind fun _ => steady_pure _

theorem steady_relayerAccount :
    Steady (relayerAccount (network.recorded settings) settings.byRole) := by
  intro before
  cases known : before.account with
  | some account =>
    rw [run_relayerAccount_known known]
    exact .refl before
  | none =>
    obtain ⟨reading, account, told⟩ :=
      @run_relayerAccount_unknown _ (network.recorded settings) settings.byRole before known
    rw [told]
    exact (steady_read (by decide) before).trans (.of_silent rfl rfl rfl)

theorem steady_send (target : Address) (data : Bytes) :
    Steady (send (network.recorded settings) settings.byRole target data) := by
  intro before
  have asked := @steady_relayerAccount _ network settings before
  obtain ⟨reading, middle, told⟩ : ∃ reading middle,
    (relayerAccount (network.recorded settings) settings.byRole).run before
      = pure (reading, middle) := ⟨_, _, rfl⟩
  rw [told] at asked
  rcases send_cases told target data with
    ⟨error, -, ran⟩ | ⟨account, result, post, after, -, ran, posted, node, submits⟩
  · rw [ran]
    exact asked
  · rw [ran]
    exact asked.trans (posted.advances node submits)

theorem steady_answer (request : LedgerRequest) :
    Steady (answer (network.recorded settings) settings.byRole request) := by
  cases request with
  | send target data => exact steady_send target data
  | _ => exact steady_readAs (by decide) _

theorem steady_perform (task : Task) :
    Steady (perform (network.recorded settings) settings.byRole task) := by
  cases task with
  | ask request => exact (steady_answer request).bind fun _ => steady_pure ()
  | account => exact steady_relayerAccount.bind fun _ => steady_pure ()

theorem steady_forM (tasks : List Task) :
    Steady (tasks.forM (perform (network.recorded settings) settings.byRole)) := by
  induction tasks with
  | nil => exact steady_pure ()
  | cons task rest ih => exact (steady_perform task).bind fun _ => ih

theorem mirrors_perform (task : Task) :
    Mirrors (perform (network.recorded settings) settings.byRole task)
      (perform network settings task) := by
  cases task with
  | ask request => exact (mirrors_answer request).bind fun _ => mirrors_pure ()
  | account => exact mirrors_relayerAccount.bind fun _ => mirrors_pure ()

theorem mirrors_forM (tasks : List Task) :
    Mirrors (tasks.forM (perform (network.recorded settings) settings.byRole))
      (tasks.forM (perform network settings)) := by
  induction tasks with
  | nil => exact mirrors_pure ()
  | cons task rest ih => exact (mirrors_perform task).bind fun _ => ih

/-- Over a run of questions and submissions whose steps come soon enough after the last failure, the
breaker counts the losses of the primary node in a row while it is closed, and opens with the fifth
one, once; from then on the primary node is left alone. Each lost question counts as an error. -/
theorem breaker_opens_on_fifth_failure (network : Network ω) (settings : Settings)
    {session : Session ω} (fresh : session.circuit = {}) (tasks : List Task) : ∃ after log,
    (tasks.forM (perform network settings)).run session = pure ((), after) ∧
    (tasks.forM (perform (network.recorded settings) settings.byRole)).run (session.recording [])
      = pure ((), after.recording log) ∧
    (Timely log →
      (after.circuit.isOpen = false →
        after.circuit.failures = lossStreak (primaryReads log) ∧
          lossStreak (primaryReads log) < breakerThreshold) ∧
      (after.circuit.isOpen = true ↔ LostInARow (primaryReads log)) ∧
      Spared log ∧
      after.circuit.failovers = (if after.circuit.isOpen then 1 else 0) ∧
      after.metrics.rpcErrors
        = session.metrics.rpcErrors + UInt64.ofNat ((primaryReads log).countP (·.lost))) := by
  obtain ⟨after, ran⟩ : ∃ after,
    (tasks.forM (perform (network.recorded settings) settings.byRole)).run (session.recording [])
      = pure ((), after) := ⟨_, rfl⟩
  have advanced : Advances (session.recording []) after := by
    have steady := @steady_forM _ network settings tasks (session.recording [])
    rwa [ran] at steady
  refine ⟨after.unrecorded, after.log, (mirrors_forM tasks).run_eq ran, ran, fun timely => ?_⟩
  have tracks := advanced.tracks timely (Tracks.fresh fresh)
  exact ⟨tracks.failures, tracks.isOpen, tracks.spared, tracks.failovers, tracks.counted⟩

/-- Two questions to nodes that never answer: the first opens the breaker. -/
theorem breaker_opens_on_fifth_failure_silent :
    let network : Network Nat := ⟨id, fun world _ _ => (.unreachable "down", world + 1000)⟩
    let settings : Settings := { primary := "http://a", fallback := "http://b", readRetries := 4 }
    let session : Session Nat := { world := 0 }
    ∃ after log, session.circuit = {} ∧ Timely log ∧
      (([.ask .blockNumber, .account] : List Task).forM (perform network settings)).run session
        = pure ((), after) ∧
      after.circuit.isOpen = true ∧ after.circuit.failovers = 1 ∧
      LostInARow (primaryReads log) ∧ Spared log := by
  intro network settings session
  obtain ⟨after, log, ran, recorded, holds⟩ :=
    breaker_opens_on_fifth_failure network settings (rfl : session.circuit = {})
      [.ask .blockNumber, .account]
  have isOpen : after.circuit.isOpen = true := by
    have told := congrArg (·.2.circuit.isOpen) ran
    exact told.symm.trans (by decide +kernel)
  have timely : Timely log := by
    have told : _ = log := congrArg (·.2.log) recorded
    rw [← told]
    exact timely_of_sent_le (by decide +kernel)
  obtain ⟨-, row, spared, failovers, -⟩ := holds timely
  rw [if_pos isOpen] at failovers
  exact ⟨after, log, rfl, timely, ran, isOpen, failovers, row.1 isOpen, spared⟩

end Action

end GaslessRelay.Rpc
