import GaslessRelay.Client.ModuleUpgrade
import GaslessRelay.Proofs.DispatchEdits
import Mathlib.Logic.Function.Basic

/-!
Runs of module upgrades on a chain whose dispatch table is empty at first. Main statement: whatever
modules are installed and upgraded, the table routes exactly the selectors of their latest versions,
and no upgrade between well-formed interfaces fails (`dispatch_routes_modules`).
-/

namespace GaslessRelay

open Outcome

/-- A version of a module: its interface, the selectors that it answers, and where it stands. -/
structure ModuleVersion where
  interface : Json
  target : Address
  selectors : SelectorSet
  answers : Dispatch.moduleSelectors interface = .ok selectors

theorem Dispatch.moduleSelectors_eq_ok {interface : Json} {selectors : SelectorSet}
    (listed : SelectorSet.toList <$> moduleSelectors interface = .ok selectors.toList) :
    moduleSelectors interface = .ok selectors := by
  obtain ⟨answered, read, same⟩ := map_eq_ok.1 listed
  obtain ⟨members, ascending⟩ := answered
  obtain ⟨members', ascending'⟩ := selectors
  cases same
  exact read

theorem ModuleVersion.not_introspection (version : ModuleVersion) :
    Dispatch.introspectionSelector ∉ version.selectors.toList := by
  obtain ⟨signatures, -, kept⟩ := bind_eq_ok.1 version.answers
  rw [← Except.ok.inj kept]
  simp [SelectorSet.filter]

/-- The version that is installed of each module. -/
abbrev Installation (ι : Type) := ι → Option ModuleVersion

namespace Installation

variable {ι : Type} (installed : Installation ι)

/-- No two modules answer a selector. -/
def Apart : Prop :=
  ∀ first second version other, first ≠ second → installed first = some version →
    installed second = some other → ∀ selector ∈ version.selectors.toList,
      selector ∉ other.selectors.toList

/-- The table routes the selectors of every module to where the module stands, and no others. -/
def Routes (table : Table 32 Address) : Prop :=
  ∀ selector target, table.get? selector = some target ↔
    ∃ module version, installed module = some version ∧ selector ∈ version.selectors.toList ∧
      version.target = target

end Installation

/-- An upgrade of a module to a version, perhaps with an initialisation. -/
structure Upgrade (ι : Type) where
  module : ι
  version : ModuleVersion
  init : Option (Address × Bytes)

namespace Upgrade

open Chain

variable {ι : Type} (upgrade : Upgrade ι) (installed : Installation ι)

def oldInterface : Option Json := (installed upgrade.module).map ModuleVersion.interface

def oldSelectors : SelectorSet := (installed upgrade.module).elim .empty ModuleVersion.selectors

def edits : List DispatchEdit :=
  (UpgradePlan.between (upgrade.oldSelectors installed) upgrade.version.selectors).edits
    upgrade.version.target

def calldata : Bytes :=
  Dispatch.applyEditsCalldata (upgrade.edits installed) (upgrade.init.getD (0, [])).1
    (upgrade.init.getD (0, [])).2

/-- What a client runs, from the interface that is installed. -/
def program (custody : Custody) (dispatcher : Address) : ClientM (Option Receipt) :=
  ModuleUpgrade.upgrade custody dispatcher (upgrade.oldInterface installed)
    upgrade.version.interface upgrade.version.target upgrade.init

def installs [DecidableEq ι] : Installation ι :=
  Function.update installed upgrade.module (some upgrade.version)

/-- The new version answers no selector of another module, and its edits can be sent. -/
structure Admissible (contracts : Contracts) (custody : Custody)
    (installed : Installation ι) (state : State) (upgrade : Upgrade ι) : Prop where
  apart : ∀ module version, module ≠ upgrade.module → installed module = some version →
    ∀ selector ∈ version.selectors.toList, selector ∉ upgrade.version.selectors.toList
  fits : (Custody.proposeCalldata contracts.relay (upgrade.calldata installed) .direct).length
    < Text.wordLimit
  room : state.HasRoom custody.confirmations

/-- How an upgrade ends: nothing is sent exactly if there is nothing to do, and otherwise one
transaction moves the selectors of the module. -/
structure Ends (upgrade : Upgrade ι) (installed : Installation ι) (state : State)
    (outcome : Option Receipt) (after : State) : Prop where
  silent : outcome = none ↔ upgrade.edits installed = [] ∧ upgrade.init = none
  unsent : outcome = none → after = state
  sent : outcome ≠ none → ∃ records, records.transactions = state.transactions + 1 ∧
    after = (state.withDispatch after.dispatch).withRecords records
  moved : ∀ selector, after.dispatch.get? selector
    = if selector ∈ upgrade.version.selectors.toList then some upgrade.version.target
      else if selector ∈ (upgrade.oldSelectors installed).toList then none
      else state.dispatch.get? selector

variable {upgrade installed}

theorem mem_oldSelectors {selector : Selector} :
    selector ∈ (upgrade.oldSelectors installed).toList ↔
      ∃ version, installed upgrade.module = some version ∧ selector ∈ version.selectors.toList := by
  unfold oldSelectors
  cases installed upgrade.module with
  | none => simp [SelectorSet.empty]
  | some version => simp

theorem plan_eq :
    ModuleUpgrade.plan (upgrade.oldInterface installed) upgrade.version.interface
      upgrade.version.target = .ok (upgrade.edits installed) := by
  unfold ModuleUpgrade.plan UpgradePlan.ofInterfaces oldInterface edits oldSelectors
  cases installed upgrade.module with
  | none =>
    simp only [Option.map_none, upgrade.version.answers]
    rfl
  | some version =>
    simp only [Option.map_some, version.answers, upgrade.version.answers]
    rfl

variable {contracts : Contracts} {custody : Custody} {state after : State}

theorem yields_program_silent {ledger : Ledger State} {dispatcher : Address}
    (edits : upgrade.edits installed = []) (init : upgrade.init = none) :
    (upgrade.program installed custody dispatcher).Yields ledger state (.ok none) state := by
  unfold program ModuleUpgrade.upgrade
  rw [plan_eq, edits, init]
  exact (ClientM.yields_known _).bind (ClientM.yields_pure none)

theorem yields_program_sent {ledger : Ledger State} {dispatcher : Address} {receipt : Receipt}
    (something : ¬(upgrade.edits installed = [] ∧ upgrade.init = none))
    (called : (custody.executeCall dispatcher (upgrade.calldata installed)).Yields ledger state
      (.ok receipt) after) :
    (upgrade.program installed custody dispatcher).Yields ledger state (.ok (some receipt))
      after := by
  have sent : ClientM.Yields ledger
      (custody.executeCall dispatcher (upgrade.calldata installed) >>= fun receipt =>
        pure (some receipt)) state (.ok (some receipt)) after :=
    called.bind (ClientM.yields_pure _)
  unfold calldata at sent
  unfold program ModuleUpgrade.upgrade
  rw [plan_eq]
  refine (ClientM.yields_known _).bind ?_
  generalize upgrade.edits installed = edits at something sent ⊢
  generalize upgrade.init = init at something sent ⊢
  cases edits with
  | nil =>
    cases init with
    | none => exact absurd ⟨rfl, rfl⟩ something
    | some init => exact sent
  | cons edit rest => exact sent

theorem yields_malformed {module : ι} {ledger : Ledger State} {dispatcher : Address}
    {interface : Json} {target : Address} {init : Option (Address × Bytes)} {error : CodecError}
    (unreadable : Dispatch.moduleSelectors interface = .error error) :
    (ModuleUpgrade.upgrade custody dispatcher
      ((installed module).map ModuleVersion.interface) interface target init).Yields
        ledger state (.error (.codec error)) state := by
  have refused : ModuleUpgrade.plan ((installed module).map ModuleVersion.interface) interface
      target = .error (.codec error) := by
    unfold ModuleUpgrade.plan UpgradePlan.ofInterfaces
    cases installed module with
    | none =>
      simp only [Option.map_none, unreadable]
      rfl
    | some version =>
      simp only [Option.map_some, version.answers, unreadable]
      rfl
  unfold ModuleUpgrade.upgrade
  rw [refused]
  exact (ClientM.yields_known _).bind_error

/-- The module's own selectors are routed before, and the new ones of its version are not. -/
theorem table_before (routes : installed.Routes state.dispatch)
    (admissible : Admissible contracts custody installed state upgrade) :
    (∀ selector ∈ (upgrade.oldSelectors installed).toList,
      state.dispatch.contains selector = true) ∧
    ∀ selector ∈ upgrade.version.selectors.toList,
      selector ∉ (upgrade.oldSelectors installed).toList →
        state.dispatch.contains selector = false := by
  constructor
  · intro selector member
    obtain ⟨version, present, answered⟩ := mem_oldSelectors.1 member
    exact Table.contains_of_get?
      ((routes selector version.target).2 ⟨_, version, present, answered, rfl⟩)
  · intro selector member fresh
    cases routed : state.dispatch.get? selector with
    | none =>
      unfold Table.contains
      rw [routed]
      rfl
    | some target =>
      obtain ⟨module, version, present, answered, -⟩ := (routes selector target).1 routed
      have other : module ≠ upgrade.module := by
        rintro rfl
        exact fresh (mem_oldSelectors.2 ⟨version, present, answered⟩)
      exact absurd member (admissible.apart module version other present selector answered)

theorem ends_of_admissible (own : custody.address = contracts.custody)
    (routes : installed.Routes state.dispatch)
    (admissible : Admissible contracts custody installed state upgrade) :
    ∃ outcome after,
      (upgrade.program installed custody contracts.relay).Yields (ledger contracts) state
        (.ok outcome) after ∧ upgrade.Ends installed state outcome after := by
  have oldRouted : Dispatch.introspectionSelector ∉ (upgrade.oldSelectors installed).toList := by
    intro member
    obtain ⟨version, -, answered⟩ := mem_oldSelectors.1 member
    exact version.not_introspection answered
  obtain ⟨held, free⟩ := table_before routes admissible
  obtain ⟨table, applied, moved⟩ := @applyEdits_between state.dispatch upgrade.version.target _ _
    oldRouted upgrade.version.not_introspection held free
  rw [← edits] at applied
  by_cases nothing : upgrade.edits installed = [] ∧ upgrade.init = none
  · rw [nothing.1] at applied
    cases applied
    exact ⟨none, state, yields_program_silent nothing.1 nothing.2, ⟨fun _ => nothing, fun _ => rfl⟩,
      fun _ => rfl, fun sent => absurd rfl sent, moved⟩
  · have calldataFits : (upgrade.calldata installed).length < Text.wordLimit := by
      have fits := admissible.fits
      rw [Custody.length_proposeCalldata] at fits
      omega
    have settles := Custody.settles_executeCall own admissible.room admissible.fits
    rw [calldata, execute_applyEditsCalldata calldataFits, applied, reverting_ok, map_ok,
      ← calldata] at settles
    cases settles with
    | @succeeded _ receipt records ends success follow =>
      refine ⟨some receipt, _, yields_program_sent nothing ends, ⟨?_, ?_⟩, ?_, ?_, moved⟩
      · rintro ⟨⟩
      · exact fun done => absurd done nothing
      · rintro ⟨⟩
      · exact fun _ => ⟨records, follow.sent, rfl⟩

theorem poisoned_of_ends {outcome : Option Receipt}
    (ends : upgrade.Ends installed state outcome after) : after.poisoned = state.poisoned := by
  cases outcome with
  | none => rw [ends.unsent rfl]
  | some receipt =>
    obtain ⟨records, -, same⟩ := ends.sent (by simp)
    rw [same]
    rfl

variable [DecidableEq ι]

theorem installs_self : upgrade.installs installed upgrade.module = some upgrade.version :=
  Function.update_self ..

theorem installs_other {module : ι} (other : module ≠ upgrade.module) :
    upgrade.installs installed module = installed module :=
  Function.update_of_ne other ..

theorem apart_installs (before : installed.Apart)
    (admissible : Admissible contracts custody installed state upgrade) :
    (upgrade.installs installed).Apart := by
  intro first second version other different isFirst isSecond selector answered
  by_cases own : first = upgrade.module
  · have second' : second ≠ upgrade.module := fun same => different (own.trans same.symm)
    rw [own, installs_self] at isFirst
    rw [installs_other second'] at isSecond
    cases isFirst
    exact fun clash => admissible.apart second other second' isSecond selector clash answered
  · rw [installs_other own] at isFirst
    by_cases own' : second = upgrade.module
    · rw [own', installs_self] at isSecond
      cases isSecond
      exact admissible.apart first version own isFirst selector answered
    · rw [installs_other own'] at isSecond
      exact before first second version other different isFirst isSecond selector answered

theorem routes_after (routes : installed.Routes state.dispatch) (before : installed.Apart)
    (admissible : Admissible contracts custody installed state upgrade) {outcome : Option Receipt}
    (ends : upgrade.Ends installed state outcome after) :
    (upgrade.installs installed).Routes after.dispatch := by
  intro selector target
  rw [ends.moved]
  -- Only this module answers a selector of its new version, and only it answered one of its old.
  by_cases inNew : selector ∈ upgrade.version.selectors.toList
  · rw [if_pos inNew]
    constructor
    · intro same
      exact ⟨upgrade.module, upgrade.version, installs_self, inNew, Option.some.inj same⟩
    · rintro ⟨module, version, present, answered, rfl⟩
      by_cases own : module = upgrade.module
      · rw [own, installs_self] at present
        rw [Option.some.inj present]
      · rw [installs_other own] at present
        exact absurd inNew (admissible.apart module version own present selector answered)
  · rw [if_neg inNew]
    have elsewhere : ∀ module version, upgrade.installs installed module = some version →
        selector ∈ version.selectors.toList → module ≠ upgrade.module := by
      rintro module version present answered rfl
      rw [installs_self] at present
      exact inNew (Option.some.inj present ▸ answered)
    by_cases inOld : selector ∈ (upgrade.oldSelectors installed).toList
    · rw [if_pos inOld]
      obtain ⟨old, installedOld, answeredOld⟩ := mem_oldSelectors.1 inOld
      constructor
      · intro impossible
        cases impossible
      · rintro ⟨module, version, present, answered, -⟩
        have other := elsewhere module version present answered
        rw [installs_other other] at present
        exact absurd answeredOld (before _ _ _ _ other present installedOld selector answered)
    · rw [if_neg inOld, routes selector target]
      constructor
      · rintro ⟨module, version, present, answered, same⟩
        have other : module ≠ upgrade.module := by
          rintro rfl
          exact inOld (mem_oldSelectors.2 ⟨version, present, answered⟩)
        exact ⟨module, version, (installs_other other).trans present, answered, same⟩
      · rintro ⟨module, version, present, answered, same⟩
        have other := elsewhere module version present answered
        exact ⟨module, version, (installs_other other).symm.trans present, answered, same⟩

end Upgrade

namespace Chain

variable {ι : Type} [DecidableEq ι]

/-- Upgrades one after the other, from an empty table on. A malformed interface installs nothing. -/
inductive UpgradeRun (contracts : Contracts) (custody : Custody) : Installation ι → State → Prop where
  | start {state : State} (empty : state.dispatch = {}) :
      UpgradeRun contracts custody (fun _ => none) state
  | upgraded {installed : Installation ι} {state after : State} {upgrade : Upgrade ι}
      {outcome : Option Receipt} (run : UpgradeRun contracts custody installed state)
      (admissible : upgrade.Admissible contracts custody installed state)
      (ends : (upgrade.program installed custody contracts.relay).Yields (ledger contracts) state
        (.ok outcome) after) :
      UpgradeRun contracts custody (upgrade.installs installed) after
  | malformed {installed : Installation ι} {state after : State} {module : ι} {interface : Json}
      {target : Address} {init : Option (Address × Bytes)} {error : CodecError}
      {outcome : Except RelayError (Option Receipt)}
      (run : UpgradeRun contracts custody installed state)
      (unreadable : Dispatch.moduleSelectors interface = .error error)
      (ends : (ModuleUpgrade.upgrade custody contracts.relay
        ((installed module).map ModuleVersion.interface) interface target init).Yields
          (ledger contracts) state outcome after) :
      UpgradeRun contracts custody installed after

variable {contracts : Contracts} {custody : Custody} {installed : Installation ι}
  {state after : State}

theorem UpgradeRun.routes (own : custody.address = contracts.custody)
    (run : UpgradeRun contracts custody installed state) :
    installed.Routes state.dispatch ∧ installed.Apart := by
  induction run with
  | start empty =>
    refine ⟨?_, by rintro _ _ _ _ - ⟨⟩⟩
    intro selector target
    rw [empty]
    simp
  | upgraded _ admissible ends ih =>
    obtain ⟨routes, before⟩ := ih
    obtain ⟨outcome, after, ends', ended⟩ := Upgrade.ends_of_admissible own routes admissible
    obtain ⟨-, rfl⟩ := ends.unique ends'
    exact ⟨Upgrade.routes_after routes before admissible ended,
      Upgrade.apart_installs before admissible⟩
  | malformed _ unreadable ends ih =>
    obtain ⟨-, rfl⟩ := ends.unique (Upgrade.yields_malformed unreadable)
    exact ih

/-- After every run of upgrades the dispatch table routes the selectors of the installed versions
to where these stand, and no others, and introspection least of all. Every further upgrade to a
well-formed interface succeeds: it sends nothing exactly if there is neither an edit nor an
initialisation, it drops the selectors that the new version does not answer, and it leaves those of
other modules alone. -/
theorem dispatch_routes_modules (own : custody.address = contracts.custody)
    (run : UpgradeRun contracts custody installed state) :
    installed.Routes state.dispatch ∧
    state.dispatch.get? Dispatch.introspectionSelector = none ∧
    ∀ upgrade : Upgrade ι, upgrade.Admissible contracts custody installed state →
      ∃ outcome after,
        (upgrade.program installed custody contracts.relay).Yields (ledger contracts) state
          (.ok outcome) after ∧
        upgrade.Ends installed state outcome after := by
  obtain ⟨routes, -⟩ := run.routes own
  refine ⟨routes, ?_, fun upgrade admissible => Upgrade.ends_of_admissible own routes admissible⟩
  cases routed : state.dispatch.get? Dispatch.introspectionSelector with
  | none => rfl
  | some target =>
    obtain ⟨module, version, -, answered, -⟩ := (routes _ _).1 routed
    exact absurd answered version.not_introspection

/-- A module is installed beside another one, and then replaced by a version with other functions. -/
theorem dispatch_routes_modules_replaced :
    let interface (names : List String) : Json :=
      .array (names.map fun name => .object [("type", .string "function"), ("name", .string name)])
    let contracts : Contracts := ⟨1, 1, 2, 3, ⟨[]⟩, ⟨"Relay", "1", 1, 1⟩⟩
    let custody : Custody := ⟨2, 1, 3⟩
    let upgrade := ModuleUpgrade.upgrade custody 1
    ∃ first second third beside before after,
      (upgrade none (interface ["vote"]) 17 none).Yields (ledger contracts) {} (.ok first) beside ∧
      (upgrade none (interface ["mint", "burn"]) 18 none).Yields (ledger contracts) beside
        (.ok second) before ∧
      (upgrade (some (interface ["mint", "burn"])) (interface ["burn", "lock"]) 19 none).Yields
        (ledger contracts) before (.ok third) after ∧
      after.dispatch.get? (Abi.functionSelector "vote()") = some 17 ∧
      after.dispatch.get? (Abi.functionSelector "burn()") = some 19 ∧
      after.dispatch.get? (Abi.functionSelector "lock()") = some 19 ∧
      after.dispatch.get? (Abi.functionSelector "mint()") = none := by
  intro interface contracts custody upgrade
  let vote : Upgrade Bool :=
    ⟨true, ⟨interface ["vote"], 17, ⟨[0x632a9a52], by decide⟩,
      Dispatch.moduleSelectors_eq_ok (by decide +kernel)⟩, none⟩
  let mint : Upgrade Bool :=
    ⟨false, ⟨interface ["mint", "burn"], 18, ⟨[0x1249c58b, 0x44df8e70], by decide⟩,
      Dispatch.moduleSelectors_eq_ok (by decide +kernel)⟩, none⟩
  let lock : Upgrade Bool :=
    ⟨false, ⟨interface ["burn", "lock"], 19, ⟨[0x44df8e70, 0xf83d08ba], by decide⟩,
      Dispatch.moduleSelectors_eq_ok (by decide +kernel)⟩, none⟩
  have start : UpgradeRun contracts custody (fun _ : Bool => none) {} := .start rfl
  have room {state : State} (unlocked : state.poisoned = false) :
      state.HasRoom custody.confirmations := ⟨unlocked, fun deep => absurd deep (by decide)⟩
  have besideVote : ∀ (installed : Installation Bool) (upgraded : ModuleVersion),
      installed true = some vote.version →
      (∀ selector ∈ vote.version.selectors.toList, selector ∉ upgraded.selectors.toList) →
      ∀ module version, module ≠ false → installed module = some version →
        ∀ selector ∈ version.selectors.toList, selector ∉ upgraded.selectors.toList := by
    intro installed upgraded present apart module version other found
    rw [eq_true_of_ne_false other, present] at found
    cases found
    exact apart
  have admitsVote : vote.Admissible contracts custody (fun _ => none) {} :=
    ⟨fun _ _ _ present => (nomatch present), by decide +kernel, room rfl⟩
  obtain ⟨first, beside, votes, voted⟩ := (dispatch_routes_modules rfl start).2.2 vote admitsVote
  have withVote := start.upgraded admitsVote votes
  have admitsMint : mint.Admissible contracts custody (vote.installs fun _ => none) beside :=
    ⟨besideVote (vote.installs fun _ => none) mint.version rfl (by simp [vote, mint]),
      by decide +kernel, room (Upgrade.poisoned_of_ends voted)⟩
  obtain ⟨second, before, mints, minted⟩ := (dispatch_routes_modules rfl withVote).2.2 mint admitsMint
  have withMint := withVote.upgraded admitsMint mints
  have admitsLock : lock.Admissible contracts custody (mint.installs (vote.installs fun _ => none))
      before :=
    ⟨besideVote (mint.installs (vote.installs fun _ => none)) lock.version rfl
      (by simp [vote, lock]), by decide +kernel,
      room ((Upgrade.poisoned_of_ends minted).trans (Upgrade.poisoned_of_ends voted))⟩
  obtain ⟨third, after, locks, ended⟩ := (dispatch_routes_modules rfl withMint).2.2 lock admitsLock
  obtain ⟨routes, -, -⟩ := dispatch_routes_modules rfl (withMint.upgraded admitsLock locks)
  have mintSelector : Abi.functionSelector "mint()" = 0x1249c58b := by decide +kernel
  have gone := ended.moved (Abi.functionSelector "mint()")
  rw [mintSelector, if_neg (by decide), if_pos (by decide)] at gone
  refine ⟨first, second, third, beside, before, after, votes, mints, locks,
    (routes _ _).2 ⟨true, vote.version, rfl, by decide +kernel, rfl⟩,
    (routes _ _).2 ⟨false, lock.version, rfl, by decide +kernel, rfl⟩,
    (routes _ _).2 ⟨false, lock.version, rfl, by decide +kernel, rfl⟩, ?_⟩
  rw [mintSelector, gone]

end Chain

end GaslessRelay
