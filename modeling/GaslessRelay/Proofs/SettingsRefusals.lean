import GaslessRelay.Proofs.Outcome
import GaslessRelay.Proofs.TextParts
import GaslessRelay.Settings.Load

/-!
Which refusals of a configuration are reported. A refusal quotes at most one text of the settings,
or one line of the file; where that says `not found`, the defaults take the place of the refusal
(`Config.refusals_reported_but_not_found`).
-/

namespace GaslessRelay

open Outcome

namespace Setting

/-- A text stands in a setting, as a value or as the name of a member. -/
inductive Mentions (word : String) : Setting → Prop
  | text : Mentions word (.text word)
  | item {items : List Setting} {item : Setting} (member : item ∈ items)
      (inner : Mentions word item) : Mentions word (.list items)
  | name {members : List (String × Setting)} {value : Setting} (member : (word, value) ∈ members) :
      Mentions word (.table members)
  | value {members : List (String × Setting)} {name : String} {value : Setting}
      (member : (name, value) ∈ members) (inner : Mentions word value) :
      Mentions word (.table members)

variable {word name : String} {older value : Setting} {root members named : List (String × Setting)}

theorem mem_of_lookup? (found : lookup? members name = some value) : (name, value) ∈ members := by
  induction members with
  | nil => cases found
  | cons first rest ih =>
    obtain ⟨key, other⟩ := first
    unfold lookup? at found
    split at found
    · rename_i same
      cases found
      rw [same]
      exact List.mem_cons_self
    · exact List.mem_cons_of_mem _ (ih found)

theorem mem_of_mem_put {entry : String × Setting} (member : entry ∈ put members name value) :
    entry ∈ members ∨ entry = (name, value) := by
  induction members with
  | nil => exact .inr (List.mem_singleton.1 member)
  | cons first rest ih =>
    obtain ⟨key, other⟩ := first
    unfold put at member
    split at member
    · rename_i same
      rcases List.mem_cons.1 member with rfl | behind
      · exact .inr (by rw [same])
      · exact .inl (List.mem_cons_of_mem _ behind)
    · rcases List.mem_cons.1 member with rfl | behind
      · exact .inl List.mem_cons_self
      · exact (ih behind).imp_left (List.mem_cons_of_mem _)

theorem Mentions.of_put (mentioned : Mentions word (.table (put members name value))) :
    Mentions word (.table members) ∨ word = name ∨ Mentions word value := by
  cases mentioned with
  | name member =>
    rcases mem_of_mem_put member with member | same
    · exact .inl (.name member)
    · exact .inr (.inl (congrArg Prod.fst same))
  | value member inner =>
    rcases mem_of_mem_put member with member | same
    · exact .inl (.value member inner)
    · cases same
      exact .inr (.inr inner)

theorem not_mentions_empty : ¬ Mentions word (.table []) := by
  intro mentioned
  cases mentioned with
  | name member => cases member
  | value member => cases member

/-- What is there, if anything, mentions a text. -/
def MentionedIn (word : String) (target : Option Setting) : Prop :=
  ∃ older, target = some older ∧ Mentions word older

variable {target : Option Setting}

theorem mentionedIn_of_members (mentioned : Mentions word (.table (Setting.members target))) :
    MentionedIn word target := by
  unfold Setting.members at mentioned
  split at mentioned
  · exact ⟨_, rfl, mentioned⟩
  · exact absurd mentioned not_mentions_empty

theorem mentions_of_lookup? (mentioned : MentionedIn word (lookup? members name)) :
    Mentions word (.table members) := by
  obtain ⟨value, found, inner⟩ := mentioned
  exact .value (mem_of_lookup? found) inner

mutual

/-- A merged value mentions what the older or the newer one does. -/
theorem mentions_of_merge (target : Option Setting) : (value : Setting) →
    Mentions word (merge target value) → MentionedIn word target ∨ Mentions word value
  | .table newer, mentioned => by
    rw [merge] at mentioned
    exact (mentions_of_mergeAll newer mentioned).imp_left mentionedIn_of_members
  | .text _, mentioned => .inr mentioned
  | .integer _, mentioned => .inr mentioned
  | .float _, mentioned => .inr mentioned
  | .bool _, mentioned => .inr mentioned
  | .list _, mentioned => .inr mentioned

theorem mentions_of_mergeAll {base : List (String × Setting)} :
    (newer : List (String × Setting)) → Mentions word (.table (mergeAll base newer)) →
      Mentions word (.table base) ∨ Mentions word (.table newer)
  | [], mentioned => .inl mentioned
  | (name, value) :: rest, mentioned => by
    rw [mergeAll] at mentioned
    rcases mentions_of_mergeAll rest mentioned with before | behind
    · rcases before.of_put with base | rfl | merged
      · exact .inl base
      · exact .inr (.name List.mem_cons_self)
      · rcases mentions_of_merge _ value merged with older | newer
        · exact .inl (mentions_of_lookup? older)
        · exact .inr (.value List.mem_cons_self newer)
    · right
      cases behind with
      | name member => exact .name (List.mem_cons_of_mem _ member)
      | value member inner => exact .value (List.mem_cons_of_mem _ member) inner

end

/-- The room in a list holds its items and empty tables. -/
theorem mem_of_mem_makeRoom {items : List Setting} {index : Int} {item : Setting}
    (member : item ∈ (makeRoom items index).1) : item ∈ items ∨ item = .table [] := by
  cases index with
  | ofNat place => exact (List.mem_append.1 member).imp_right List.eq_of_mem_replicate
  | negSucc back => exact (List.mem_append.1 member).symm.imp_right List.eq_of_mem_replicate

theorem mentionedIn_of_makeRoom {index : Int} {item : Setting}
    (member : item ∈ (makeRoom (items target) index).1) (inner : Mentions word item) :
    MentionedIn word target := by
  rcases mem_of_mem_makeRoom member with old | rfl
  · unfold items at old
    split at old
    · exact ⟨_, rfl, .item old inner⟩
    · cases old
  · exact absurd inner not_mentions_empty

theorem mentions_of_assign {path : List Step}
    (mentioned : Mentions word (assign value path target)) :
    Mentions word value ∨ .member word ∈ path ∨ MentionedIn word target := by
  induction path generalizing target with
  | nil => exact (mentions_of_merge target value mentioned).symm.imp_right .inr
  | cons step path ih =>
    cases step with
    | member name =>
      rcases Mentions.of_put mentioned with old | rfl | inner
      · exact .inr (.inr (mentionedIn_of_members old))
      · exact .inr (.inl List.mem_cons_self)
      · rcases ih inner with new | step | older
        · exact .inl new
        · exact .inr (.inl (List.mem_cons_of_mem _ step))
        · exact .inr (.inr (mentionedIn_of_members (mentions_of_lookup? older)))
    | item index =>
      cases mentioned with
      | item member inner =>
        rcases List.mem_or_eq_of_mem_set member with old | rfl
        · exact .inr (.inr (mentionedIn_of_makeRoom old inner))
        · rcases ih inner with new | step | ⟨older, there, within⟩
          · exact .inl new
          · exact .inr (.inl (List.mem_cons_of_mem _ step))
          · exact .inr (.inr (mentionedIn_of_makeRoom (List.mem_of_getElem? there) within))

/-- A text stands in one of some named values or in the path that its name spells. -/
def Names (word : String) (named : List (String × Setting)) : Prop :=
  ∃ entry ∈ named, Mentions word entry.2 ∨ .member word ∈ pathOf entry.1

/-- Layers mention what one of them does. -/
theorem mentions_of_layer (mentioned : Mentions word (.table (layer root named))) :
    Mentions word (.table root) ∨ Names word named := by
  induction named generalizing root with
  | nil => exact .inl mentioned
  | cons entry rest ih =>
    rcases ih mentioned with before | ⟨other, member, named⟩
    · obtain ⟨all, same, inner⟩ := mentionedIn_of_members before
      cases same
      rcases mentions_of_assign inner with new | step | ⟨older, same, inner⟩
      · exact .inr ⟨entry, List.mem_cons_self, .inl new⟩
      · exact .inr ⟨entry, List.mem_cons_self, .inr step⟩
      · cases same
        exact .inl inner
    · exact .inr ⟨other, List.mem_cons_of_mem _ member, named⟩

/-- A refusal quotes nothing, or a text of the setting, as it is or between quotes. -/
def Quotes (setting : Setting) (refusal : SettingRefusal) : Prop :=
  refusal.quoted = "" ∨ ∃ word, Mentions word setting ∧
    (refusal.quoted = word ∨ refusal.quoted = Text.quoteString word)

/-- A reading of a setting that quotes only the setting where it fails. -/
def Explains {α : Type} (setting : Setting) (result : Except SettingRefusal α) : Prop :=
  ∀ refusal, result = .error refusal → Quotes setting refusal

section

variable {α β : Type} {setting inner : Setting}

theorem explains_ok (value : α) : Explains setting (.ok value) :=
  fun _ failed => by cases failed

theorem explains_silent : Explains setting (.error {} : Except SettingRefusal α) := by
  intro refusal failed
  cases failed
  exact .inl rfl

theorem Explains.of_error {refusal : SettingRefusal}
    (explained : Explains setting (.error refusal : Except SettingRefusal α)) :
    Explains setting (.error refusal : Except SettingRefusal β) :=
  fun other same => explained other (congrArg Except.error (Except.error.inj same))

theorem Explains.bind {result : Except SettingRefusal α} {next : α → Except SettingRefusal β}
    (first : Explains setting result) (second : ∀ value, Explains setting (next value)) :
    Explains setting (result >>= next) := by
  cases result with
  | ok value => exact second value
  | error refusal => exact first.of_error

theorem Explains.map {result : Except SettingRefusal α} (change : α → β)
    (explained : Explains setting result) : Explains setting (result.map change) := by
  cases result with
  | ok value => exact explains_ok (change value)
  | error refusal => exact explained.of_error

/-- What explains a part explains the whole. -/
theorem Explains.within {result : Except SettingRefusal α} (explained : Explains inner result)
    (part : ∀ word, Mentions word inner → Mentions word setting) : Explains setting result := by
  intro refusal failed
  rcases explained refusal failed with silent | ⟨word, mentioned, quoted⟩
  · exact .inl silent
  · exact .inr ⟨word, part word mentioned, quoted⟩

theorem explains_mapM {items : List α} {read : α → Except SettingRefusal β}
    (each : ∀ item ∈ items, Explains setting (read item)) :
    Explains setting (items.mapM read) := by
  induction items with
  | nil => exact explains_ok []
  | cons item rest ih =>
    rw [List.mapM_cons]
    apply (each item List.mem_cons_self).bind
    intro first
    apply (ih fun other member => each other (List.mem_cons_of_mem _ member)).bind
    intro others
    exact explains_ok _

end

theorem explains_natural (setting : Setting) : Explains setting setting.natural := by
  cases setting with
  | integer value =>
    cases value with
    | ofNat value => exact explains_ok value
    | negSucc value => exact explains_silent
  | float value => exact explains_ok _
  | bool value => exact explains_ok _
  | list items => exact explains_silent
  | table members => exact explains_silent
  | text value =>
    unfold natural naturalOfText
    dsimp only
    split_ifs
    · exact explains_ok 1
    · exact explains_ok 0
    · split
      · exact explains_ok _
      · intro refusal failed
        cases failed
        exact .inr ⟨value, .text, .inr rfl⟩

theorem explains_uint64 (setting : Setting) : Explains setting setting.uint64 :=
  (explains_natural setting).map _

theorem explains_naturalBelow (limit : Nat) (setting : Setting) :
    Explains setting (setting.naturalBelow limit) := by
  apply (explains_natural setting).bind
  intro number
  split
  · exact explains_ok number
  · exact explains_silent

theorem explains_uint32 (setting : Setting) : Explains setting setting.uint32 :=
  (explains_naturalBelow _ setting).map _

theorem explains_byte (setting : Setting) : Explains setting setting.byte :=
  (explains_naturalBelow _ setting).map _

theorem explains_string (setting : Setting) : Explains setting setting.string := by
  cases setting with
  | list items => exact explains_silent
  | table members => exact explains_silent
  | _ => exact explains_ok _

theorem explains_address (setting : Setting) : Explains setting setting.address := by
  cases setting with
  | text value =>
    unfold address
    dsimp only
    split
    · exact explains_ok _
    · exact explains_silent
  | list items =>
    have read : Explains (.list items) ((items.take 20).mapM byte) :=
      explains_mapM fun item member =>
        (explains_byte item).within fun _ => .item (List.mem_of_mem_take member)
    apply read.bind
    intro bytes
    split
    · exact explains_ok _
    · exact explains_ok _
    · exact explains_silent
  | _ => exact explains_silent

theorem explains_network (setting : Setting) : Explains setting setting.network := by
  have named : ∀ name, Mentions name setting → Explains setting (network.named name) := by
    intro name mentioned
    unfold network.named
    split
    · exact explains_ok _
    · intro refusal failed
      cases failed
      exact .inr ⟨name, mentioned, .inl rfl⟩
  unfold network
  split
  · exact named _ .text
  · exact named _ (.name List.mem_cons_self)
  · exact explains_silent

theorem explains_withDefault {α : Type} {default : α} {read : Setting → Except SettingRefusal α}
    (reads : ∀ setting, Explains setting (read setting)) {setting : Setting}
    {target : Option Setting} (part : ∀ word, MentionedIn word target → Mentions word setting) :
    Explains setting (withDefault default read target) := by
  cases target with
  | none => exact explains_ok default
  | some inner => exact (reads inner).within fun word mentioned => part word ⟨inner, rfl, mentioned⟩

theorem explains_modules (setting : Setting) : Explains setting setting.modules := by
  have inOrder : ∀ items : List (Option Setting),
      (∀ item ∈ items, ∀ word, MentionedIn word item → Mentions word setting) →
      Explains setting (modules.inOrder items) := by
    intro items parts
    have read : ∀ index : Nat, Explains setting (withDefault 0 address (items[index]?.join)) := by
      intro index
      apply explains_withDefault explains_address
      rintro word ⟨older, there, mentioned⟩
      have found := Option.join_eq_some_iff.1 there
      exact parts _ (List.mem_of_getElem? found) word ⟨older, rfl, mentioned⟩
    unfold modules.inOrder
    apply (read 0).bind
    intro registry
    apply (read 1).bind
    intro token
    apply (read 2).bind
    intro wallet
    exact explains_ok _
  unfold modules
  split
  · apply inOrder
    intro item member word mentioned
    obtain ⟨name, -, rfl⟩ := List.mem_map.1 member
    exact mentions_of_lookup? mentioned
  · apply inOrder
    intro item member word mentioned
    obtain ⟨held, inList, rfl⟩ := List.mem_map.1 member
    obtain ⟨older, same, inner⟩ := mentioned
    cases same
    exact .item inList inner
  · exact explains_silent

end Setting

namespace Config

open Setting

/-- Whatever the settings are, their refusal quotes them. -/
theorem explains_ofSettings (members : List (String × Setting)) :
    Explains (.table members) (ofSettings members) := by
  have field : ∀ {α : Type} {default : α} {read : Setting → Except SettingRefusal α},
      (∀ setting, Explains setting (read setting)) → ∀ name,
        Explains (.table members) (withDefault default read (lookup? members name)) :=
    fun reads name => explains_withDefault reads fun _ => mentions_of_lookup?
  have optional : ∀ {α : Type} {read : Setting → Except SettingRefusal α},
      (∀ setting, Explains setting (read setting)) → ∀ setting,
        Explains setting ((read setting).map some) :=
    fun reads setting => (reads setting).map some
  unfold ofSettings
  refine (field explains_string _).bind fun _ => ?_
  refine (field explains_string _).bind fun _ => ?_
  refine (field explains_network _).bind fun _ => ?_
  refine (field (optional explains_uint64) _).bind fun _ => ?_
  refine (field explains_uint64 _).bind fun _ => ?_
  refine (field (optional explains_uint64) _).bind fun _ => ?_
  refine (field explains_string _).bind fun _ => ?_
  refine (field explains_string _).bind fun _ => ?_
  refine (field explains_address _).bind fun _ => ?_
  refine (field explains_address _).bind fun _ => ?_
  refine (field explains_address _).bind fun _ => ?_
  refine (field explains_modules _).bind fun _ => ?_
  refine (field explains_uint32 _).bind fun _ => ?_
  refine (field explains_uint64 _).bind fun _ => ?_
  refine (field explains_string _).bind fun _ => ?_
  refine (field (optional explains_string) _).bind fun _ => ?_
  exact explains_ok _

end Config

namespace Toml

theorem skipByteOrderMark_suffix (text : List Char) : skipByteOrderMark text <:+ text := by
  unfold skipByteOrderMark
  split
  · exact List.suffix_cons _ _
  · exact List.suffix_rfl

/-- A faulty line is a part of the text. -/
theorem lineOf_isInfix (text rest : List Char) : (lineOf text rest).toList <:+: text := by
  unfold lineOf
  rw [String.toList_ofList]
  generalize min (text.length - rest.length) (text.length - 1) = place
  have lastLine : (text.take place).reverse.takeWhile (· ≠ '\n') <+: (text.take place).reverse :=
    List.takeWhile_prefix _
  have restOfLine : (text.drop place).takeWhile (· ≠ '\n') <+: text.drop place :=
    List.takeWhile_prefix _
  obtain ⟨before, isBefore⟩ := List.reverse_suffix.2 lastLine
  obtain ⟨after, isAfter⟩ := restOfLine
  rw [List.reverse_reverse] at isBefore
  refine ⟨before, after, ?_⟩
  calc
    _ = (before ++ ((text.take place).reverse.takeWhile (· ≠ '\n')).reverse)
        ++ ((text.drop place).takeWhile (· ≠ '\n') ++ after) := by simp
    _ = text.take place ++ text.drop place := by rw [isBefore, isAfter]
    _ = text := List.take_append_drop place text

theorem parse_eq_error {text line : String} (failed : parse text = .error line) :
    line.toList <:+: text.toList := by
  unfold parse at failed
  dsimp only at failed
  split at failed
  · split at failed <;> cases failed
    exact List.nil_infix
  · rename_i rest unread
    cases failed
    exact (lineOf_isInfix _ rest).trans (skipByteOrderMark_suffix _).isInfix

end Toml

namespace Config

open Setting

variable {environment : List (String × String)} {file : Option String}

theorem fileSettings_eq_error {refusal : SettingRefusal}
    (failed : fileSettings file = .error refusal) :
    ∃ text, file = some text ∧ refusal.quoted.toList <:+: text.toList := by
  unfold fileSettings at failed
  split at failed
  · cases failed
  · rename_i text
    split at failed
    · cases failed
    · rename_i line unread
      cases failed
      have inText := Toml.parse_eq_error unread
      rw [String.toList_ofList] at inText
      exact ⟨text, rfl, inText.trans (Toml.skipByteOrderMark_suffix _).isInfix⟩

/-- A text is the file, or stands in a setting of the file or of the environment. -/
inductive Configured (environment : List (String × String)) (file : Option String) :
    String → Prop
  | file {text : String} (given : file = some text) : Configured environment file text
  | setting {members : List (String × Setting)} {word : String}
      (read : fileSettings file = .ok members) (names : Names word members) :
      Configured environment file word
  | environment {word : String} (names : Names word (Environment.settings environment)) :
      Configured environment file word

/-- A text says `not found`, or will do so when its line breaks are escaped. -/
def Says (word : String) : Prop :=
  "not found".toList <:+: word.toList ∨ "\not found".toList <:+: word.toList

/-- The configuration that the file and the environment describe, or why they describe none. -/
def described (environment : List (String × String)) (file : Option String) :
    Except SettingRefusal Config := do
  ofSettings (layer (layer [] (← fileSettings file)) (Environment.settings environment))

/-- What the settings describe is loaded; without settings it is the default. -/
theorem load_of_described {config : Config} (valid : described environment file = .ok config) :
    load environment file = .ok config := by
  unfold described at valid
  unfold load
  rw [valid]

example : load [] none = .ok {} := by decide +kernel

theorem load_of_refused {refusal : SettingRefusal}
    (refused : described environment file = .error refusal) :
    load environment file = if Text.occursIn "not found".toList refusal.quoted.toList then .ok {}
      else .error .settings := by
  unfold described at refused
  unfold load
  rw [refused]

/-- A refusal quotes the file, or a configured text as it is or between quotes. -/
theorem configured_of_refused {refusal : SettingRefusal}
    (refused : described environment file = .error refusal) :
    refusal.quoted = "" ∨ ∃ word, Configured environment file word ∧
      (refusal.quoted.toList <:+: word.toList ∨ refusal.quoted = Text.quoteString word) := by
  unfold described at refused
  cases read : fileSettings file with
  | error unread =>
    rw [read] at refused
    cases refused
    obtain ⟨text, given, inText⟩ := fileSettings_eq_error read
    exact .inr ⟨text, .file given, .inl inText⟩
  | ok members =>
    rw [read] at refused
    apply (explains_ofSettings _ refusal refused).imp_right
    rintro ⟨word, mentioned, quoted⟩
    have configured : Configured environment file word := by
      rcases mentions_of_layer mentioned with fromFile | fromEnvironment
      · rcases mentions_of_layer fromFile with empty | names
        · exact absurd empty not_mentions_empty
        · exact .setting read names
      · exact .environment fromEnvironment
    exact ⟨word, configured, quoted.imp_left fun same => by rw [same]⟩

/-- A configuration that cannot be read is refused, but for one case: the refusal says `not found`
because something in the configuration does, and then the defaults are taken. -/
theorem refusals_reported_but_not_found {refusal : SettingRefusal}
    (refused : described environment file = .error refusal) :
    load environment file = .error .settings ∧
        ¬ "not found".toList <:+: refusal.quoted.toList ∨
      load environment file = .ok {} ∧ "not found".toList <:+: refusal.quoted.toList ∧
        ∃ word, Configured environment file word ∧ Says word := by
  rw [load_of_refused refused]
  by_cases said : "not found".toList <:+: refusal.quoted.toList
  · rw [if_pos (Text.occursIn_iff.2 said)]
    refine .inr ⟨rfl, said, ?_⟩
    rcases configured_of_refused refused with silent | ⟨word, configured, part | quoted⟩
    · rw [silent] at said
      exact absurd (List.infix_nil.1 said) (by decide)
    · exact ⟨word, configured, .inl (said.trans part)⟩
    · rw [quoted] at said
      exact ⟨word, configured, Text.infix_of_quoteString (by decide) (by decide) said⟩
  · rw [if_neg fun found => said (Text.occursIn_iff.1 found)]
    exact .inl ⟨rfl, said⟩

/-- A chain that is no number is refused. -/
theorem refusals_reported_but_not_found_chain :
    let environment := [("RELAYER__CHAIN_ID", "many")]
    ∃ refusal, described environment none = .error refusal ∧ refusal.quoted = "\"many\"" ∧
      load environment none = .error .settings := by
  intro environment
  have evaluated : (described environment none).mapError (·.quoted) = .error "\"many\"" := by
    decide +kernel
  obtain ⟨refusal, refused, quoted⟩ := mapError_eq_error.1 evaluated
  refine ⟨refusal, refused, quoted, ?_⟩
  rcases refusals_reported_but_not_found refused with ⟨reported, -⟩ | ⟨-, said, -⟩
  · exact reported
  · rw [quoted] at said
    exact absurd said (by decide)

/-- A network with the name `not found` is taken for nothing configured. -/
theorem defaults_for_network_not_found :
    let environment := [("RELAYER__NETWORK", "not found")]
    (∃ refusal, described environment none = .error refusal) ∧ load environment none = .ok {} := by
  intro environment
  have evaluated : (described environment none).mapError (·.quoted) = .error "not found" := by
    decide +kernel
  obtain ⟨refusal, refused, -⟩ := mapError_eq_error.1 evaluated
  exact ⟨⟨refusal, refused⟩, by decide +kernel⟩

end Config

end GaslessRelay
