import GaslessRelay.Proofs.RelayContract
import GaslessRelay.Proofs.SharedChain
import Mathlib.Algebra.BigOperators.Group.Finset.Piecewise

/-!
Relay calls at the same time. Each client keeps to the protocol of relaying, whoever moves in
between. Main statement: whatever the schedule is, each relay call is executed once, or fails and is
not executed (`relays_execute_once`).
-/

namespace GaslessRelay.Chain

namespace System

variable {contracts : Contracts} {system : System}

/-- What stands when a relay call has ended: its operation was executed once if it ends with a
receipt, and not at all if it ends with a failure. -/
def Ended (contracts : Contracts) (job : Job) :
    List Transaction → Except RelayError Receipt → Prop :=
  ClientM.Ends
    (fun sent _ =>
      job.context.Logs contracts job.key job.sender (sent.flatMap (·.entries contracts)))
    (fun sent => sent.flatMap (·.entries contracts) = [])

/-- What a client does next is right whatever the chain replies. -/
structure OnCourse (contracts : Contracts) (job : Job) (sent : List Transaction)
    (program : Relaying) : Prop where
  atMostTwo : sent.length ≤ 2
  keeps : program.Keeps (relayProtocol contracts) (Ended contracts job) sent

theorem onCourse_program (contracts : Contracts) (job : Job) :
    OnCourse contracts job [] job.program where
  atMostTwo := by simp
  keeps := RelayContext.keeps_relay

/-- A question without a reply leaves the client where it is. -/
theorem sentBy_of_silent {index : Nat} {request : LedgerRequest}
    (silent : (answer contracts system.chain request).1 = none) :
    (system.perform contracts (some index) (.ask request)).sentBy (some index)
      = system.sentBy (some index) := by
  rw [sentBy_perform, if_pos rfl]
  cases request with
  | send target data =>
    rw [Action.transaction?_of_unanswered (Prod.ext silent rfl)]
    exact List.append_nil _
  | call | receipt | blockNumber | chainId => exact List.append_nil _

/-- What the chain replies to a client is what the client's protocol says. -/
theorem Settled.replies {initial : State} {turns index : Nat} {request : LedgerRequest}
    {reply : request.Reply} (settled : Settled contracts initial turns system)
    (permitted : (relayProtocol contracts).permits (system.sentBy (some index)) request)
    (answered : (answer contracts system.chain request).1 = some reply) :
    (relayProtocol contracts).replies (system.sentBy (some index)) request reply
      ((system.perform contracts (some index) (.ask request)).sentBy (some index)) := by
  rw [sentBy_perform, if_pos rfl]
  cases request with
  | call target data => exact List.append_nil _
  | send target data =>
    rcases Transaction.answer_eq contracts ⟨system.chain, target, data⟩ with
      ⟨after, told, -⟩ | ⟨after, told, -⟩
    · rw [Action.transaction?_of_answered told]
      rw [told] at answered
      exact ⟨system.chain, (Option.some.inj answered).symm, rfl⟩
    · rw [told] at answered
      cases answered
  | receipt hash =>
    obtain ⟨last, isLast, rfl⟩ := permitted
    have member : last ∈ system.sentBy (some index) := List.mem_of_getLast? isLast
    obtain ⟨entry, listed, rfl⟩ := List.mem_map.1 member
    obtain ⟨receipt, found, success⟩ := settled.receipts entry (List.mem_of_mem_filter listed)
    refine ⟨entry.2, receipt, isLast, ?_, success, List.append_nil _⟩
    rw [answer_receipt (unlocked_of_answered (by simp) answered)] at answered
    rw [← found]
    exact (Option.some.inj answered).symm
  | blockNumber =>
    rw [answer_blockNumber (unlocked_of_answered (by simp) answered)] at answered
    exact ⟨_, (Option.some.inj answered).symm, List.append_nil _⟩
  | chainId => exact List.append_nil _

theorem replies_atMostTwo {sent after : List Transaction} {request : LedgerRequest}
    {reply : request.Reply} (atMostTwo : sent.length ≤ 2)
    (permitted : (relayProtocol contracts).permits sent request)
    (possible : (relayProtocol contracts).replies sent request reply after) : after.length ≤ 2 := by
  cases request with
  | call target data =>
    have same : after = sent := possible
    rw [same]
    exact atMostTwo
  | send target data =>
    obtain ⟨chain, -, same⟩ := possible
    have room : sent.length < 2 := permitted
    rw [same, List.length_append, List.length_singleton]
    omega
  | receipt hash =>
    obtain ⟨_, _, _, _, _, same⟩ := possible
    rw [same]
    exact atMostTwo
  | blockNumber =>
    obtain ⟨_, _, same⟩ := possible
    rw [same]
    exact atMostTwo
  | chainId =>
    have same : after = sent := possible
    rw [same]
    exact atMostTwo

/-- A client whose question is answered stays on course. -/
theorem OnCourse.answered {job : Job} {sent after : List Transaction} {request : LedgerRequest}
    {again : request.Reply → Bool} {next : request.Reply → Relaying} {reply : request.Reply}
    (course : OnCourse contracts job sent (.ask request again next))
    (possible : (relayProtocol contracts).replies sent request reply after) :
    OnCourse contracts job after (.resume again next reply) := by
  unfold Client.resume
  have atMostTwo := replies_atMostTwo course.atMostTwo course.keeps.1 possible
  have continued := course.keeps.2 reply after possible
  by_cases repeated : again reply = true
  · rw [if_pos repeated] at continued ⊢
    rw [continued]
    exact course
  · rw [if_neg repeated] at continued ⊢
    exact ⟨atMostTwo, continued⟩

/-- The chain remembers the transactions, and every client is on course. -/
structure Sound (contracts : Contracts) (initial : State) (jobs : List Job) (turns : Nat)
    (system : System) : Prop where
  settled : Settled contracts initial turns system
  clients : ∀ index job, jobs[index]? = some job → ∃ program,
    system.programs[index]? = some program
      ∧ OnCourse contracts job (system.sentBy (some index)) program
  length : system.programs.length = jobs.length
  senders : ∀ entry ∈ system.sent, ∀ index, entry.1 = some index → index < jobs.length

namespace Sound

variable {initial : State} {jobs : List Job} {turns : Nat}

theorem initially (contracts : Contracts) (initial : State) (jobs : List Job) :
    Sound contracts initial jobs 0 (start initial jobs) where
  settled := {
    blocks := ⟨0, by omega, by simp [start], by simp [start]⟩
    logged := by simp [start]
    receipts := by simp [start] }
  clients := by
    intro index job known
    refine ⟨job.program, ?_, onCourse_program contracts job⟩
    simp [start, known]
  length := by simp [start]
  senders := by simp [start]

theorem other (sound : Sound contracts initial jobs turns system) (short : turns < UInt64.size)
    {action : Action} (differ : (system.perform contracts none action).HashesDiffer) :
    Sound contracts initial jobs (turns + 1) (system.perform contracts none action) where
  settled := sound.settled.perform short differ
  clients := by
    intro index job known
    rw [sentBy_perform, if_neg (by simp), List.append_nil]
    exact sound.clients index job known
  length := sound.length
  senders := by
    intro entry member index isClient
    rcases List.mem_append.1 member with earlier | now
    · exact sound.senders entry earlier index isClient
    · obtain ⟨transaction, -, rfl⟩ := List.mem_map.1 now
      cases isClient

theorem waits (sound : Sound contracts initial jobs turns system) :
    Sound contracts initial jobs (turns + 1) system :=
  ⟨sound.settled.waits, sound.clients, sound.length, sound.senders⟩

/-- The client that moves stays on course, and nothing changes for the other ones. -/
theorem moved (sound : Sound contracts initial jobs turns system) {next : System} {index : Nat}
    {program : Relaying} (settled : Settled contracts initial (turns + 1) next)
    (programs : next.programs = system.programs.set index program)
    (sent : ∃ more : List Transaction, next.sent = system.sent ++ more.map (some index, ·))
    (present : index < system.programs.length)
    (own : ∀ job, jobs[index]? = some job →
      OnCourse contracts job (next.sentBy (some index)) program) :
    Sound contracts initial jobs (turns + 1) next where
  settled := settled
  clients := by
    obtain ⟨more, sent⟩ := sent
    intro other job known
    rw [programs]
    by_cases same : index = other
    · subst same
      exact ⟨program, List.getElem?_set_self present, own job known⟩
    · obtain ⟨unchanged, found, course⟩ := sound.clients other job known
      refine ⟨unchanged, ?_, ?_⟩
      · rw [List.getElem?_set_ne same]
        exact found
      · have sameSent : next.sentBy (some other) = system.sentBy (some other) := by
          unfold sentBy
          rw [sent]
          simp [List.filter_map, Function.comp_def, same]
        rw [sameSent]
        exact course
  length := by
    rw [programs, List.length_set]
    exact sound.length
  senders := by
    obtain ⟨more, sent⟩ := sent
    rw [sent]
    intro entry member other isClient
    rcases List.mem_append.1 member with earlier | now
    · exact sound.senders entry earlier other isClient
    · obtain ⟨transaction, -, rfl⟩ := List.mem_map.1 now
      cases isClient
      rw [← sound.length]
      exact present

theorem step (sound : Sound contracts initial jobs turns system) (short : turns < UInt64.size)
    {turn : Turn} (differ : (system.step contracts turn).HashesDiffer) :
    Sound contracts initial jobs (turns + 1) (system.step contracts turn) := by
  cases turn with
  | other action => exact sound.other short differ
  | client index =>
    cases found : system.programs[index]? with
    | none =>
      simp only [System.step, found]
      exact sound.waits
    | some program =>
      have present : index < system.programs.length := (List.getElem?_eq_some_iff.1 found).1
      have course : ∀ job, jobs[index]? = some job →
          OnCourse contracts job (system.sentBy (some index)) program := by
        intro job known
        obtain ⟨running, isRunning, course⟩ := sound.clients index job known
        rw [found] at isRunning
        rw [Option.some.inj isRunning]
        exact course
      cases program with
      | done result =>
        simp only [System.step, found]
        exact sound.waits
      | count counter rest =>
        simp only [System.step, found]
        have settled := sound.settled.waits
        refine sound.moved ⟨settled.blocks, settled.logged, settled.receipts⟩ rfl
          ⟨[], by simp⟩ present ?_
        intro job known
        exact ⟨(course job known).atMostTwo, (course job known).keeps⟩
      | ask request again next =>
        simp only [System.step, found] at differ ⊢
        cases replied : (answer contracts system.chain request).1 with
        | none =>
          rw [replied] at differ
          obtain ⟨_, held⟩ := List.getElem?_eq_some_iff.1 found
          have kept : system.programs = system.programs.set index (.ask request again next) := by
            rw [← held, List.set_getElem_self]
          refine sound.moved (sound.settled.perform short differ) kept ⟨_, rfl⟩ present ?_
          intro job known
          rw [sentBy_of_silent replied]
          exact course job known
        | some reply =>
          rw [replied] at differ
          have performed : (system.perform contracts (some index) (.ask request)).HashesDiffer :=
            differ
          have settled := sound.settled.perform short performed
          refine sound.moved ⟨settled.blocks, settled.logged, settled.receipts⟩ rfl
            ⟨_, rfl⟩ present ?_
          intro job known
          exact (course job known).answered
            (sound.settled.replies (course job known).keeps.1 replied)

end Sound

/-- Whatever the schedule is, every client stays on course. -/
theorem sound_run {initial : State} {jobs : List Job} {schedule : List Turn}
    (short : schedule.length < UInt64.size)
    (differ : ((start initial jobs).run contracts schedule).HashesDiffer) :
    Sound contracts initial jobs schedule.length ((start initial jobs).run contracts schedule) := by
  -- The hashes are those of the final system, so the induction takes the last turn off.
  induction schedule using List.reverseRecOn with
  | nil => exact Sound.initially contracts initial jobs
  | append_singleton schedule turn ih =>
    rw [List.length_append, List.length_singleton] at short ⊢
    rw [run_append_singleton] at differ ⊢
    obtain ⟨more, extended⟩ :=
      sent_step contracts ((start initial jobs).run contracts schedule) turn
    have sound := ih (by omega) (differ.of_prefix extended)
    exact sound.step (by omega) differ

/-- The entries of all clients are those of each of them. -/
theorem length_clientEntries {sent : List (Option Nat × Transaction)} {count : Nat}
    (senders : ∀ entry ∈ sent, ∀ index, entry.1 = some index → index < count) :
    ((sent.filter (·.1.isSome)).flatMap (·.2.entries contracts)).length
      = ∑ index ∈ Finset.range count,
        (((sent.filter (·.1 = some index)).map (·.2)).flatMap (·.entries contracts)).length := by
  induction sent with
  | nil => simp
  | cons entry rest ih =>
    have others := ih (fun entry member => senders entry (List.mem_cons_of_mem _ member))
    obtain ⟨sender, transaction⟩ := entry
    cases sender with
    | none => simpa using others
    | some index =>
      have bounded := senders (some index, transaction) List.mem_cons_self index rfl
      have each : ∀ other,
          (((((some index, transaction) :: rest).filter (·.1 = some other)).map (·.2)).flatMap
              (·.entries contracts)).length
            = (if index = other then (transaction.entries contracts).length else 0)
              + (((rest.filter (·.1 = some other)).map (·.2)).flatMap
                  (·.entries contracts)).length := by
        intro other
        by_cases same : index = other <;> simp [same]
      rw [Finset.sum_congr rfl fun other _ => each other, Finset.sum_add_distrib,
        Finset.sum_ite_eq, if_pos (Finset.mem_range.2 bounded), ← others]
      simp

theorem countP_eq_sum {α : Type} (accepts : α → Bool) (items : List α) :
    items.countP accepts
      = ∑ index ∈ Finset.range items.length, if items[index]?.any accepts then 1 else 0 := by
  induction items using List.reverseRecOn with
  | nil => simp
  | append_singleton items item ih =>
    rw [List.countP_append, ih, List.length_append, List.length_singleton, Finset.sum_range_succ]
    congr 1
    · apply Finset.sum_congr rfl
      intro index member
      rw [List.getElem?_append_left (Finset.mem_range.1 member)]
    · simp [List.countP_singleton]

/-- A relay call that has ended with a receipt. -/
def confirmed : Relaying → Bool
  | .done (.ok _) => true
  | _ => false

theorem confirmed_iff {program : Relaying} :
    confirmed program = true ↔ ∃ receipt, program = .done (.ok receipt) := by
  unfold confirmed
  constructor
  · intro isConfirmed
    split at isConfirmed
    · exact ⟨_, rfl⟩
    · cases isConfirmed
  · rintro ⟨receipt, rfl⟩
    rfl

/-- When all relay calls have ended, those that ended with a receipt are as many as the entries that
the clients' transactions logged. -/
theorem Sound.length_clientEntries {initial : State} {jobs : List Job} {turns : Nat}
    (sound : Sound contracts initial jobs turns system)
    (ended : ∀ program ∈ system.programs, ∃ result, program = .done result) :
    ((system.sent.filter (·.1.isSome)).flatMap (·.2.entries contracts)).length
      = system.programs.countP confirmed := by
  rw [System.length_clientEntries sound.senders, countP_eq_sum, sound.length]
  apply Finset.sum_congr rfl
  intro index member
  have inRange : index < jobs.length := Finset.mem_range.1 member
  have known : jobs[index]? = some jobs[index] := List.getElem?_eq_getElem inRange
  obtain ⟨program, found, course⟩ := sound.clients index _ known
  obtain ⟨result, rfl⟩ := ended program (List.mem_of_getElem? found)
  have outcome : Ended contracts _ (system.sentBy (some index)) result := course.keeps
  rw [found]
  cases result with
  | ok receipt =>
    obtain ⟨_, _, _, _, entries⟩ := outcome
    exact congrArg List.length entries
  | error error => exact congrArg List.length outcome

end System

/-- With the built-in operations on both sides, the logged key is the one that was asked for. -/
theorem logs_builtin {contracts : Contracts} {context : RelayContext} {key : String}
    {sender : Address} {entries : List (String × Address)} {modules modules' : ModuleAddresses}
    (known : Catalog.builtin modules = .ok context.catalog)
    (deployed : Catalog.builtin modules' = .ok contracts.catalog)
    (logs : context.Logs contracts key sender entries) : entries = [(key, sender)] := by
  obtain ⟨own, operation, isOwn, found, rfl⟩ := logs
  obtain ⟨ownMember, rfl⟩ := RelayContext.operation_eq_ok isOwn
  obtain ⟨member, sameHash⟩ := Catalog.mem_of_byTypeHash? found
  rw [Catalog.key_eq_of_typeHash deployed known member ownMember sameHash]

/-- Relay calls that share a chain, in any order of their questions and of anything else that
happens to the chain. Each of them sends at most two transactions. If it ends with a receipt, its
transactions executed its own operation for its own sender exactly once; if it ends with a failure,
they executed nothing. The log grows by the entries of the transactions, and once all relay calls
have ended, theirs are as many as the receipts. Blocks are numbered with 64 bits, and transactions
are told apart by the digests of their seeds. -/
theorem relays_execute_once {config : Config} {chainId : UInt64} {contracts : Contracts}
    (deployed : Contracts.ofConfig config chainId = .ok contracts) (initial : State)
    (jobs : List Job) (schedule : List Turn) (short : schedule.length < UInt64.size)
    (differ : ((System.start initial jobs).run contracts schedule).HashesDiffer) :
    let final := (System.start initial jobs).run contracts schedule
    (∀ index job, jobs[index]? = some job →
      (final.sentBy (some index)).length ≤ 2
        ∧ (∀ receipt, final.programs[index]? = some (.done (.ok receipt)) →
          let entries := (final.sentBy (some index)).flatMap (·.entries contracts)
          job.context.Logs contracts job.key job.sender entries
            ∧ ∀ modules, Catalog.builtin modules = .ok job.context.catalog →
              entries = [(job.key, job.sender)])
        ∧ (∀ error, final.programs[index]? = some (.done (.error error)) →
          (final.sentBy (some index)).flatMap (·.entries contracts) = []))
      ∧ final.chain.executed
        = initial.executed ++ final.sent.flatMap (·.2.entries contracts)
      ∧ ((∀ program ∈ final.programs, ∃ result, program = .done result) →
        ((final.sent.filter (·.1.isSome)).flatMap (·.2.entries contracts)).length
          = final.programs.countP System.confirmed) := by
  intro final
  have sound : System.Sound contracts initial jobs schedule.length final :=
    System.sound_run short differ
  obtain ⟨catalog, built, rest⟩ := Outcome.bind_eq_ok.1 deployed
  cases rest
  refine ⟨?_, sound.settled.logged, sound.length_clientEntries⟩
  intro index job known
  obtain ⟨program, found, course⟩ := sound.clients index job known
  refine ⟨course.atMostTwo, ?_, ?_⟩
  · intro receipt ended
    rw [found] at ended
    cases ended
    refine ⟨course.keeps, ?_⟩
    intro modules builtin
    exact logs_builtin builtin built course.keeps
  · intro error ended
    rw [found] at ended
    cases ended
    exact course.keeps

/-- Two requests of one sender that are signed with the same number: the second one to be sent is
refused, and rebuilt with the next number. -/
theorem relays_execute_once_burn :
    let config : Config := { relayAddress := 1, custodyAddress := 2, multiSendAddress := 3 }
    let burn : OperationType := ⟨"BurnToken", [.sender, .nonce, ⟨"tokenId", .uint 256⟩], 0, 0⟩
    let initial : State :=
      { registered := ({} : Table 256 String).insert burn.typeHash burn.typeString }
    let signer : Signer := ⟨⟨3, by decide⟩, 0x6813eb9362372eef6200f3b1dbc3f819671cba69⟩
    let job : RelayContext → String → Job := fun context token =>
      ⟨context, "BurnToken", signer.address, [("tokenId", .string token)], .singleKey, [signer]⟩
    let schedule : List Turn :=
      [.client 0, .other (.lagReads 1)] ++ .replicate 5 (.client 1) ++ .replicate 11 (.client 0)
    let entry := ("BurnToken", signer.address)
    ∃ contracts context, Contracts.ofConfig config 1 = .ok contracts ∧
      RelayContext.ofConfig config 1 = .ok context ∧
      let final := (System.start initial [job context "5", job context "6"]).run contracts schedule
      final.programs.map System.confirmed = [true, true] ∧
      final.sent.map (·.1) = [some 1, some 0, some 0] ∧
      final.chain.executed = [entry, entry] ∧
      (final.sentBy (some 0)).flatMap (·.entries contracts) = [entry] ∧
      (final.sentBy (some 1)).flatMap (·.entries contracts) = [entry] := by
  intro config burn initial signer job schedule entry
  have evaluated : (do
      let contracts ← (Contracts.ofConfig config 1).toOption
      let context ← (RelayContext.ofConfig config 1).toOption
      let final :=
        (System.start initial [job context "5", job context "6"]).run contracts schedule
      return (final.sent.map (·.1), final.programs.map System.confirmed,
        decide (final.sent.map (·.2.hash)).Nodup))
        = some ([some 1, some 0, some 0], [true, true], true) := by
    decide +kernel
  cases deployed : Contracts.ofConfig config 1 with
  | error error =>
    rw [deployed] at evaluated
    cases evaluated
  | ok contracts =>
    cases shared : RelayContext.ofConfig config 1 with
    | error error =>
      rw [deployed, shared] at evaluated
      cases evaluated
    | ok context =>
      rw [deployed, shared] at evaluated
      obtain ⟨senders, confirmed, distinct⟩ := Option.some.inj evaluated |> Prod.mk.inj |>.imp_right
        Prod.mk.inj
      have differ : ((System.start initial [job context "5", job context "6"]).run contracts
          schedule).HashesDiffer := by
        intro first isFirst second isSecond sameHash
        rw [List.inj_on_of_nodup_map (of_decide_eq_true distinct) isFirst isSecond sameHash]
      obtain ⟨each, logged, -⟩ := relays_execute_once deployed initial
        [job context "5", job context "6"] schedule (by decide) differ
      obtain ⟨program, others, programs, isFirst, rest⟩ := List.map_eq_cons_iff.1 confirmed
      obtain ⟨other, only, isSecond⟩ := List.map_eq_singleton_iff.1 rest
      obtain ⟨receipt, rfl⟩ := System.confirmed_iff.1 isFirst
      obtain ⟨receipt', rfl⟩ := System.confirmed_iff.1 isSecond
      rw [only] at programs
      have builtin := RelayContext.catalog_of_ofConfig shared
      have zero := ((each 0 _ rfl).2.1 receipt (by rw [programs]; rfl)).2 config.modules builtin
      have one := ((each 1 _ rfl).2.1 receipt' (by rw [programs]; rfl)).2 config.modules builtin
      refine ⟨contracts, context, rfl, rfl, confirmed, senders, ?_, zero, one⟩
      obtain ⟨first, later, sent, isOne, senders⟩ := List.map_eq_cons_iff.1 senders
      obtain ⟨second, last, rfl, isZero, senders⟩ := List.map_eq_cons_iff.1 senders
      obtain ⟨third, rfl, alsoZero⟩ := List.map_eq_singleton_iff.1 senders
      have ofSecond : first.2.entries contracts = [entry] := by
        simpa [System.sentBy, sent, isOne, isZero, alsoZero] using one
      have ofFirst : second.2.entries contracts ++ third.2.entries contracts = [entry] := by
        simpa [System.sentBy, sent, isOne, isZero, alsoZero] using zero
      rw [logged, sent, List.flatMap_cons, List.flatMap_cons, List.flatMap_singleton, ofSecond,
        ofFirst]
      rfl

end GaslessRelay.Chain
