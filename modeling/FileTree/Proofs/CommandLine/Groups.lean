import FileTree.CommandLine
import Mathlib.Data.List.Induction

/-!
# Arguments in groups

The arguments are read from left to right in groups: an option with the name of a file behind it,
which may look like anything, or an option that stands alone. A group is good if the file that it
names can be used. Arguments are accepted when they split into good groups, and refused for the
first group that is no good, whatever follows it.

Of the groups of a kind the last one counts. So it does not matter how groups of different kinds
stand to each other.

## Main definitions

* `Group`, `Splits`: an option with its value, and the arguments that split into groups
* `Group.Good`: the file that is named can be used
* `Offends`, `FirstOffence`: arguments that start with a group that is no good, and those that have
  one behind good ones
* `Gives`: the settings that groups ask for
* `Reordered`: the same groups, in another order among those of different kinds
* `Understood`: what reading the arguments comes to

## Main results

* `parseFrom_append`: groups are read one after the other, and then the rest
* `Tells.take`: what the options tell of the groups before, as one more is read
* `exists_splits_or_firstOffence`: arguments are good groups, or a first one offends
* `understood_of_no_request`: what reading comes to where nothing else is asked for
-/

namespace FileTree

namespace CommandLine

/-! ## Groups -/

/-- An option with its value. -/
inductive Group where
  | config (path : String)
  | script (path : String)
  | echo (on : Bool)
  deriving DecidableEq

/-- What groups can be about. -/
inductive Kind where
  | config
  | script
  | echo
  deriving DecidableEq

namespace Group

/-- What the group is about. -/
def kind : Group → Kind
  | config _ => .config
  | script _ => .script
  | echo _ => .echo

/-- The name of the configuration file. -/
def configFile? : Group → Option String
  | config path => some path
  | script _ | echo _ => none

/-- The name of the script. -/
def scriptFile? : Group → Option String
  | script path => some path
  | config _ | echo _ => none

/-- Whether typed bytes are to be shown. -/
def echo? : Group → Option Bool
  | echo on => some on
  | config _ | script _ => none

/-- The arguments that spell a group. The name of a file may look like anything, an option
included. -/
inductive Spelled : Group → List String → Prop
  | config {option : String} (h : option = "--config" ∨ option = "-c") (path : String) :
      Spelled (.config path) [option, path]
  | script {option : String} (h : option = "--script" ∨ option = "-s") (path : String) :
      Spelled (.script path) [option, path]
  | echo : Spelled (.echo true) ["--echo"]
  | noEcho : Spelled (.echo false) ["--no-echo"]

theorem configFile?_eq_none {g : Group} (h : g.kind ≠ .config) : g.configFile? = none := by
  cases g with
  | config path => exact absurd rfl h
  | script path => rfl
  | echo on => rfl

theorem scriptFile?_eq_none {g : Group} (h : g.kind ≠ .script) : g.scriptFile? = none := by
  cases g with
  | config path => rfl
  | script path => exact absurd rfl h
  | echo on => rfl

theorem echo?_eq_none {g : Group} (h : g.kind ≠ .echo) : g.echo? = none := by
  cases g with
  | config path => rfl
  | script path => rfl
  | echo on => exact absurd rfl h

end Group

/-- The arguments split into groups, from left to right. -/
inductive Splits : List String → List Group → Prop
  | nil : Splits [] []
  | cons {g : Group} {groups : List Group} {words rest : List String} :
      g.Spelled words → Splits rest groups → Splits (words ++ rest) (g :: groups)

/-! ## What the files hold -/

/-- The configuration in a file, and the defaults where no file is named. -/
def ConfigIn (files : Files) : Option String → Config → Prop
  | none, config => config = {}
  | some path, config => ∃ bytes, files path = .ok bytes ∧ Config.parse bytes = .ok config

/-- The script in a file, and none where no file is named. -/
def ScriptIn (files : Files) : Option String → Option String → Prop
  | none, script => script = none
  | some path, script => ∃ text, files path = .ok (Text.bytes text) ∧ script = some text

/-- The file that the group names, if it names one, can be used. -/
def Group.Good (files : Files) : Group → Prop
  | .config path => ∃ config, ConfigIn files (some path) config
  | .script path => ∃ script, ScriptIn files (some path) script
  | .echo _ => True

variable {files : Files} {o o' : Options} {args words front rest : List String} {path : String}
  {g : Group} {groups others : List Group}

theorem loadConfig_eq_ok_iff {config : Config} :
    loadConfig files path = .ok config ↔ ConfigIn files (some path) config := by
  unfold loadConfig Host.loadConfig ConfigIn
  cases hf : files path with
  | error e => simp [hf]
  | ok bytes => cases hc : Config.parse bytes <;> simp [hf, hc]

theorem loadScript_eq_ok_iff {text : String} :
    loadScript files path = .ok text ↔ ScriptIn files (some path) (some text) := by
  unfold loadScript ScriptIn
  cases hf : files path with
  | error e => simp [hf]
  | ok bytes =>
    have hbytes := Text.ofBytes?_eq_some_iff (b := bytes) (s := text)
    cases hu : Text.ofBytes? bytes <;> simp [hf, ← hbytes, hu]

theorem ConfigIn.unique {file : Option String} {c c' : Config} (h : ConfigIn files file c)
    (h' : ConfigIn files file c') : c = c' := by
  cases file with
  | none => exact h.trans h'.symm
  | some path =>
    rw [← loadConfig_eq_ok_iff] at h h'
    exact Except.ok.inj (h.symm.trans h')

theorem ScriptIn.isSome_eq {file script : Option String} (h : ScriptIn files file script) :
    script.isSome = file.isSome := by
  cases file with
  | none => rw [show script = none from h]
  | some path =>
    obtain ⟨text, -, rfl⟩ := h
    rfl

theorem ScriptIn.unique {file script script' : Option String} (h : ScriptIn files file script)
    (h' : ScriptIn files file script') : script = script' := by
  cases file with
  | none => exact Eq.trans h (Eq.symm h')
  | some path =>
    obtain ⟨text, ht, rfl⟩ := h
    obtain ⟨text', ht', rfl⟩ := h'
    have hbytes : Text.bytes text = Text.bytes text' := Except.ok.inj (ht.symm.trans ht')
    rw [← Text.ofBytes?_eq_some_iff.mpr hbytes, Text.ofBytes?_bytes]

/-! ## The last group of a kind -/

/-- What the last of the groups says that say anything. -/
def lastOf {α : Type} (value? : Group → Option α) (groups : List Group) : Option α :=
  (groups.filterMap value?).getLast?

theorem lastOf_append {α : Type} (value? : Group → Option α) (groups others : List Group) :
    lastOf value? (groups ++ others) = (lastOf value? others).or (lastOf value? groups) := by
  rw [lastOf, List.filterMap_append, List.getLast?_append]
  rfl

@[simp] theorem lastOf_singleton {α : Type} (value? : Group → Option α) (g : Group) :
    lastOf value? [g] = value? g := by
  cases h : value? g <;> simp [lastOf, h]

theorem lastOf_cons {α : Type} (value? : Group → Option α) (g : Group) (groups : List Group) :
    lastOf value? (g :: groups) = (lastOf value? groups).or (value? g) := by
  rw [← List.singleton_append, lastOf_append, lastOf_singleton]

/-- The settings that groups ask for. -/
structure Gives (files : Files) (groups : List Group) (settings : HostSettings) : Prop where
  /-- The limits are those in the last configuration file, and the defaults if there is none. -/
  config : ConfigIn files (lastOf Group.configFile? groups) settings.config
  /-- The script is that in the last script file, if there is one. -/
  script : ScriptIn files (lastOf Group.scriptFile? groups) settings.script
  /-- Typed bytes are shown if the last option about it says so, and if no option is about it, where
  there is a script. -/
  echo : settings.echo =
    (lastOf Group.echo? groups).getD (lastOf Group.scriptFile? groups).isSome

theorem Gives.unique {settings settings' : HostSettings} (h : Gives files groups settings)
    (h' : Gives files groups settings') : settings = settings' := by
  obtain ⟨config, script, echo⟩ := settings
  obtain rfl := h.config.unique h'.config
  obtain rfl := h.script.unique h'.script
  obtain rfl : echo = settings'.echo := h.echo.trans h'.echo.symm
  rfl

/-! ## Reading groups -/

/-- What is computed in two steps is there when both give something. -/
theorem bind_eq_ok_iff {ε α β : Type} {a : Except ε α} {f : α → Except ε β} {b : β} :
    a >>= f = .ok b ↔ ∃ x, a = .ok x ∧ f x = .ok b := by
  cases a <;> simp [bind, Except.bind]

/-- The options read so far, with one more group. -/
def take (files : Files) (o : Options) : Group → Except ArgumentError Options
  | .config path => do
    let config ← loadConfig files path
    return { o with config := config }
  | .script path => do
    let script ← loadScript files path
    return { o with script := some script }
  | .echo on => return { o with echo := some on }

theorem parseFrom_spelled (h : g.Spelled words) (rest : List String) :
    parseFrom files o (words ++ rest) =
      take files o g >>= fun o' => parseFrom files o' rest := by
  cases h with
  | config h path =>
    rcases h with rfl | rfl <;>
    · rw [List.cons_append, List.cons_append, parseFrom, take]
      cases loadConfig files path <;> rfl
  | script h path =>
    rcases h with rfl | rfl <;>
    · rw [List.cons_append, List.cons_append, parseFrom, take]
      cases loadScript files path <;> rfl
  | echo => rfl
  | noEcho => rfl

/-- **Groups are read one after the other**, and then the rest, with the options that they leave. -/
theorem parseFrom_append (h : Splits front groups) (rest : List String) :
    parseFrom files o (front ++ rest) =
      groups.foldlM (take files) o >>= fun o' => parseFrom files o' rest := by
  induction h generalizing o with
  | nil => rfl
  | cons hg _ ih =>
    rw [List.append_assoc, parseFrom_spelled hg, List.foldlM_cons, bind_assoc]
    exact bind_congr fun o' => ih

theorem take_config_eq_ok_iff :
    take files o (.config path) = .ok o' ↔
      ∃ config, ConfigIn files (some path) config ∧ o' = { o with config := config } := by
  simp only [take, bind_eq_ok_iff, loadConfig_eq_ok_iff, pure, Except.pure, Except.ok.injEq,
    eq_comm (b := o')]

theorem take_script_eq_ok_iff :
    take files o (.script path) = .ok o' ↔
      ∃ script, ScriptIn files (some path) script ∧ o' = { o with script := script } := by
  simp only [take, bind_eq_ok_iff, loadScript_eq_ok_iff, pure, Except.pure, Except.ok.injEq]
  constructor
  · rintro ⟨text, h, rfl⟩
    exact ⟨some text, h, rfl⟩
  · rintro ⟨_, ⟨text, hf, rfl⟩, rfl⟩
    exact ⟨text, ⟨text, hf, rfl⟩, rfl⟩

/-- A group is read exactly when it is good. -/
theorem exists_take_iff : (∃ o', take files o g = .ok o') ↔ g.Good files := by
  cases g with
  | config path =>
    simp only [take_config_eq_ok_iff, Group.Good]
    exact ⟨fun ⟨_, config, h, _⟩ => ⟨config, h⟩, fun ⟨config, h⟩ => ⟨_, config, h, rfl⟩⟩
  | script path =>
    simp only [take_script_eq_ok_iff, Group.Good]
    exact ⟨fun ⟨_, script, h, _⟩ => ⟨script, h⟩, fun ⟨script, h⟩ => ⟨_, script, h, rfl⟩⟩
  | echo on => exact ⟨fun _ => trivial, fun _ => ⟨_, rfl⟩⟩

/-- Groups are read exactly when they are all good. -/
theorem exists_foldlM_take_iff :
    (∃ o', groups.foldlM (take files) o = .ok o') ↔ ∀ g ∈ groups, g.Good files := by
  induction groups generalizing o with
  | nil => exact ⟨fun _ g hg => absurd hg List.not_mem_nil, fun _ => ⟨o, rfl⟩⟩
  | cons g groups ih =>
    simp only [List.foldlM_cons, bind_eq_ok_iff, List.forall_mem_cons]
    constructor
    · rintro ⟨o', o₁, hg, hgroups⟩
      exact ⟨exists_take_iff.mp ⟨o₁, hg⟩, ih.mp ⟨o', hgroups⟩⟩
    · rintro ⟨hg, hgroups⟩
      obtain ⟨o₁, ho₁⟩ := exists_take_iff.mpr hg
      obtain ⟨o', ho'⟩ := ih.mpr hgroups
      exact ⟨o', o₁, ho₁, ho'⟩

/-! ## What groups ask for -/

/-- What the options tell of the groups read so far: the last word on each of the three things. It
is what holds all along the reading. -/
structure Tells (files : Files) (groups : List Group) (o : Options) : Prop where
  config : ConfigIn files (lastOf Group.configFile? groups) o.config
  script : ScriptIn files (lastOf Group.scriptFile? groups) o.script
  echo : o.echo = lastOf Group.echo? groups

theorem tells_nil (files : Files) : Tells files [] {} := ⟨rfl, rfl, rfl⟩

/-- A group that is read takes the place of those of its kind, and leaves the others. -/
theorem Tells.take (h : Tells files groups o) (ht : take files o g = .ok o') :
    Tells files (groups ++ [g]) o' := by
  obtain ⟨hconfig, hscript, hecho⟩ := h
  cases g with
  | config path =>
    obtain ⟨config, hc, rfl⟩ := take_config_eq_ok_iff.mp ht
    refine ⟨?_, ?_, ?_⟩ <;> rw [lastOf_append, lastOf_singleton]
    · exact hc
    · exact hscript
    · exact hecho
  | script path =>
    obtain ⟨script, hs, rfl⟩ := take_script_eq_ok_iff.mp ht
    refine ⟨?_, ?_, ?_⟩ <;> rw [lastOf_append, lastOf_singleton]
    · exact hconfig
    · exact hs
    · exact hecho
  | echo on =>
    obtain rfl := Except.ok.inj ht
    refine ⟨?_, ?_, ?_⟩ <;> rw [lastOf_append, lastOf_singleton]
    · exact hconfig
    · exact hscript
    · rfl

theorem tells_of_foldlM_take (h : groups.foldlM (take files) {} = .ok o) :
    Tells files groups o := by
  induction groups using List.reverseRecOn generalizing o with
  | nil =>
    obtain rfl := Except.ok.inj h
    exact tells_nil files
  | append_singleton groups g ih =>
    rw [List.foldlM_append, bind_eq_ok_iff] at h
    obtain ⟨o₁, hgroups, hg⟩ := h
    rw [List.foldlM_cons, bind_eq_ok_iff] at hg
    obtain ⟨o₂, hg, hnil⟩ := hg
    obtain rfl := Except.ok.inj hnil
    exact (ih hgroups).take hg

theorem Tells.gives (h : Tells files groups o) : Gives files groups o.settings where
  config := h.config
  script := h.script
  echo := by rw [Options.settings, h.echo, h.script.isSome_eq]

/-- Good groups ask for some settings. -/
theorem exists_gives (h : ∀ g ∈ groups, g.Good files) :
    ∃ settings, Gives files groups settings := by
  obtain ⟨o, ho⟩ := (exists_foldlM_take_iff (o := {})).mpr h
  exact ⟨o.settings, (tells_of_foldlM_take ho).gives⟩

/-- Arguments that split into groups are accepted exactly when these are good, and ask for the
settings that these ask for. -/
theorem parse_eq_ok_iff_of_splits (h : Splits args groups) {invocation : Invocation} :
    parse files args = .ok invocation ↔
      (∀ g ∈ groups, g.Good files) ∧
        ∃ settings, invocation = .run settings ∧ Gives files groups settings := by
  have hparse : parseFrom files {} (args ++ []) = _ := parseFrom_append h []
  rw [List.append_nil] at hparse
  rw [parse, hparse, bind_eq_ok_iff, ← exists_foldlM_take_iff (o := {})]
  constructor
  · rintro ⟨o, ho, hinv⟩
    obtain rfl := Except.ok.inj hinv
    exact ⟨⟨o, ho⟩, o.settings, rfl, (tells_of_foldlM_take ho).gives⟩
  · rintro ⟨⟨o, ho⟩, settings, rfl, hgives⟩
    refine ⟨o, ho, ?_⟩
    rw [hgives.unique (tells_of_foldlM_take ho).gives]
    rfl

theorem exists_parse_eq (h : Splits args groups) (hgood : ∀ g ∈ groups, g.Good files) :
    ∃ invocation, parse files args = .ok invocation := by
  obtain ⟨settings, hgives⟩ := exists_gives hgood
  exact ⟨_, (parse_eq_ok_iff_of_splits h).mpr ⟨hgood, settings, rfl, hgives⟩⟩

/-! ## The order of groups -/

/-- The same groups in another order, where neighbours of different kinds have changed places. -/
inductive Reordered : List Group → List Group → Prop
  | nil : Reordered [] []
  | cons (g : Group) {groups others : List Group} :
      Reordered groups others → Reordered (g :: groups) (g :: others)
  | swap {g g' : Group} (h : g.kind ≠ g'.kind) (groups : List Group) :
      Reordered (g :: g' :: groups) (g' :: g :: groups)
  | trans {groups others more : List Group} :
      Reordered groups others → Reordered others more → Reordered groups more

theorem Reordered.perm (h : Reordered groups others) : groups.Perm others := by
  induction h with
  | nil => exact .nil
  | cons g _ ih => exact ih.cons g
  | swap _ groups => exact .swap _ _ groups
  | trans _ _ ih ih' => exact ih.trans ih'

/-- What is said last about one thing does not depend on the order among different kinds. -/
theorem Reordered.lastOf_eq {α : Type} {value? : Group → Option α} {kind : Kind}
    (hv : ∀ g : Group, g.kind ≠ kind → value? g = none) (h : Reordered groups others) :
    lastOf value? groups = lastOf value? others := by
  induction h with
  | nil => rfl
  | cons g _ ih => rw [lastOf_cons, lastOf_cons, ih]
  | @swap g g' h groups =>
    simp only [lastOf_cons]
    by_cases hg : g.kind = kind
    · rw [hv g' (fun hg' => h (hg.trans hg'.symm)), Option.or_none, Option.or_none]
    · rw [hv g hg, Option.or_none, Option.or_none]
  | trans _ _ ih ih' => exact ih.trans ih'

theorem Reordered.gives {settings : HostSettings} (h : Reordered groups others)
    (hg : Gives files groups settings) : Gives files others settings := by
  have hconfig := h.lastOf_eq fun g => g.configFile?_eq_none
  have hscript := h.lastOf_eq fun g => g.scriptFile?_eq_none
  have hecho := h.lastOf_eq fun g => g.echo?_eq_none
  refine ⟨hconfig ▸ hg.config, hscript ▸ hg.script, ?_⟩
  rw [← hscript, ← hecho]
  exact hg.echo

/-! ## The first group that is no good -/

/-- The options that ask for something else than a host. -/
def requests : List String :=
  ["--print-config", "--help", "-h"]

/-- The options that start a group. -/
def groupOptions : List String :=
  ["--config", "-c", "--script", "-s", "--echo", "--no-echo"]

/-- Why the file that a group names cannot be used. -/
inductive Group.Fails (files : Files) : Group → ArgumentError → Prop
  | unreadConfig {path : String} {cause : ReadError} (hf : files path = .error cause) :
      Fails files (.config path) (.config (.readFailed path cause))
  | badConfig {path : String} {bytes : List UInt8} {cause : ConfigError}
      (hf : files path = .ok bytes) (hc : Config.parse bytes = .error cause) :
      Fails files (.config path) (.config (.config cause))
  | unreadScript {path : String} {cause : ReadError} (hf : files path = .error cause) :
      Fails files (.script path) (.script cause)
  | badScript {path : String} {bytes : List UInt8} (hf : files path = .ok bytes)
      (hu : ∀ text, bytes ≠ Text.bytes text) : Fails files (.script path) (.script .notUtf8)

/-- The arguments start with a group that is no good, and why it is none. -/
inductive Offends (files : Files) : List String → ArgumentError → Prop
  | unknown {option : String} (h : option ∉ groupOptions ++ requests) (rest : List String) :
      Offends files (option :: rest) (.unknownOption option)
  | noConfig {option : String} (h : option = "--config" ∨ option = "-c") :
      Offends files [option] (.missingValue "--config")
  | noScript {option : String} (h : option = "--script" ∨ option = "-s") :
      Offends files [option] (.missingValue "--script")
  | fails {g : Group} {words : List String} {e : ArgumentError} (hg : g.Spelled words)
      (hf : g.Fails files e) (rest : List String) : Offends files (words ++ rest) e

/-- The arguments are good groups at first, and then comes one that is no good. -/
def FirstOffence (files : Files) (args : List String) (e : ArgumentError) : Prop :=
  ∃ front groups rest, args = front ++ rest ∧ Splits front groups ∧
    (∀ g ∈ groups, g.Good files) ∧ Offends files rest e

variable {e : ArgumentError}

theorem Group.good_or_fails (files : Files) (g : Group) : g.Good files ∨ ∃ e, g.Fails files e := by
  cases g with
  | config path =>
    cases hf : files path with
    | error cause => exact .inr ⟨_, .unreadConfig hf⟩
    | ok bytes =>
      cases hc : Config.parse bytes with
      | error cause => exact .inr ⟨_, .badConfig hf hc⟩
      | ok config => exact .inl ⟨config, bytes, hf, hc⟩
  | script path =>
    cases hf : files path with
    | error cause => exact .inr ⟨_, .unreadScript hf⟩
    | ok bytes =>
      by_cases hu : ∃ text, bytes = Text.bytes text
      · obtain ⟨text, rfl⟩ := hu
        exact .inl ⟨some text, text, hf, rfl⟩
      · exact .inr ⟨_, .badScript hf (not_exists.mp hu)⟩
  | echo on => exact .inl trivial

theorem take_of_fails (h : g.Fails files e) : take files o g = .error e := by
  cases h with
  | unreadConfig hf => simp only [take, loadConfig, Host.loadConfig, hf]; rfl
  | badConfig hf hc => simp only [take, loadConfig, Host.loadConfig, hf, hc]; rfl
  | unreadScript hf => simp only [take, loadScript, hf]; rfl
  | @badScript path bytes hf hu =>
    have hnone : Text.ofBytes? bytes = none :=
      Option.eq_none_iff_forall_ne_some.mpr fun text h => hu text (Text.ofBytes?_eq_some_iff.mp h)
    simp only [take, loadScript, hf, hnone]
    rfl

theorem ofText?_eq_none (h : option ∉ groupOptions ++ requests) : Switch.ofText? option = none := by
  simp only [groupOptions, requests, List.mem_append, List.mem_cons, List.not_mem_nil, or_false,
    not_or] at h
  simp only [Switch.ofText?, h, or_self, if_false]

/-- Arguments that start with a group that is no good are refused for it. -/
theorem parseFrom_of_offends (h : Offends files args e) : parseFrom files o args = .error e := by
  cases h with
  | unknown h rest =>
    unfold parseFrom
    rw [ofText?_eq_none h]
  | noConfig h => rcases h with rfl | rfl <;> rfl
  | noScript h => rcases h with rfl | rfl <;> rfl
  | fails hg hf rest =>
    rw [parseFrom_spelled hg, take_of_fails hf]
    rfl

/-- Arguments start with the words of a group, unless they offend. -/
theorem exists_spelled_or_offends (files : Files) {arg : String} (harg : arg ∉ requests)
    (args : List String) :
    (∃ (g : Group) (words rest : List String), arg :: args = words ++ rest ∧ g.Spelled words) ∨
      ∃ e, Offends files (arg :: args) e := by
  by_cases hknown : arg ∈ groupOptions
  · have hcases : (arg = "--config" ∨ arg = "-c") ∨ (arg = "--script" ∨ arg = "-s") ∨
        arg = "--echo" ∨ arg = "--no-echo" := by simpa [groupOptions, or_assoc] using hknown
    rcases hcases with h | h | rfl | rfl
    · cases args with
      | nil => exact .inr ⟨_, .noConfig h⟩
      | cons path rest => exact .inl ⟨_, _, rest, rfl, .config h path⟩
    · cases args with
      | nil => exact .inr ⟨_, .noScript h⟩
      | cons path rest => exact .inl ⟨_, _, rest, rfl, .script h path⟩
    · exact .inl ⟨_, _, args, rfl, .echo⟩
    · exact .inl ⟨_, _, args, rfl, .noEcho⟩
  · have hunknown : arg ∉ groupOptions ++ requests := by
      rw [List.mem_append, not_or]
      exact ⟨hknown, harg⟩
    exact .inr ⟨_, .unknown hunknown args⟩

theorem Group.Spelled.length_pos (h : g.Spelled words) : 0 < words.length := by
  cases h <;> exact Nat.succ_pos _

theorem Offends.firstOffence (h : Offends files args e) : FirstOffence files args e :=
  ⟨[], [], args, rfl, .nil, fun _ hg => absurd hg List.not_mem_nil, h⟩

/-- A good group more in front does not change what offends first. -/
theorem FirstOffence.append (h : FirstOffence files rest e) (hg : g.Spelled words)
    (hgood : g.Good files) : FirstOffence files (words ++ rest) e := by
  obtain ⟨front, groups, last, rfl, hsplits, hgroups, he⟩ := h
  exact ⟨words ++ front, g :: groups, last, (List.append_assoc ..).symm, .cons hg hsplits,
    List.forall_mem_cons.mpr ⟨hgood, hgroups⟩, he⟩

/-- **Arguments split into good groups, or a first group offends.** -/
theorem exists_splits_or_firstOffence (files : Files) (h : ∀ arg ∈ args, arg ∉ requests) :
    (∃ groups, Splits args groups ∧ ∀ g ∈ groups, g.Good files) ∨
      ∃ e, FirstOffence files args e := by
  induction hn : args.length using Nat.strongRecOn generalizing args with
  | ind n ih =>
    cases args with
    | nil => exact .inl ⟨[], .nil, fun _ hg => absurd hg List.not_mem_nil⟩
    | cons arg args =>
      rcases exists_spelled_or_offends files (h arg List.mem_cons_self) args with
        ⟨g, words, rest, heq, hg⟩ | ⟨e, he⟩
      · rw [heq] at h hn ⊢
        rcases g.good_or_fails files with hgood | ⟨e, hf⟩
        · -- what is behind a good group is shorter
          have hlt : rest.length < n := by
            have := hg.length_pos
            rw [List.length_append] at hn
            omega
          rcases ih _ hlt (fun arg harg => h arg (List.mem_append_right words harg)) rfl with
            ⟨groups, hsplits, hgroups⟩ | ⟨e, he⟩
          · exact .inl ⟨g :: groups, .cons hg hsplits, List.forall_mem_cons.mpr ⟨hgood, hgroups⟩⟩
          · exact .inr ⟨e, he.append hg hgood⟩
        · exact .inr ⟨e, (Offends.fails hg hf rest).firstOffence⟩
      · exact .inr ⟨e, he.firstOffence⟩

/-- The first offence is what the arguments are refused for, whatever follows it. -/
theorem FirstOffence.parse_eq (h : FirstOffence files args e) : parse files args = .error e := by
  obtain ⟨front, groups, rest, rfl, hsplits, hgood, he⟩ := h
  obtain ⟨o, ho⟩ := (exists_foldlM_take_iff (o := {})).mpr hgood
  rw [parse, parseFrom_append hsplits, ho]
  exact parseFrom_of_offends he

/-! ## The contract -/

/-- What reading the arguments comes to. -/
structure Understood (files : Files) (args : List String) : Prop where
  /-- The arguments are accepted exactly when they split into good groups. -/
  accepted_iff : (∃ invocation, parse files args = .ok invocation) ↔
    ∃ groups, Splits args groups ∧ ∀ g ∈ groups, g.Good files
  /-- What they ask for then is a host with the settings that the groups ask for. -/
  gives : ∀ groups invocation, Splits args groups → parse files args = .ok invocation →
    ∃ settings, invocation = .run settings ∧ Gives files groups settings
  /-- The same comes of the groups in another order, as long as those of one kind stay in order. -/
  reordered : ∀ groups others arguments invocation, Splits args groups →
    Reordered groups others → Splits arguments others → parse files args = .ok invocation →
    parse files arguments = .ok invocation
  /-- The arguments are refused exactly for the first group that is no good. -/
  refused_iff : ∀ e, parse files args = .error e ↔ FirstOffence files args e

/-- **Arguments are understood by groups** where nothing else than a host is asked for. -/
theorem understood_of_no_request (files : Files) (h : ∀ arg ∈ args, arg ∉ requests) :
    Understood files args where
  accepted_iff := by
    constructor
    · rintro ⟨invocation, hok⟩
      rcases exists_splits_or_firstOffence files h with hsplits | ⟨e, he⟩
      · exact hsplits
      · cases hok.symm.trans he.parse_eq
    · rintro ⟨groups, hsplits, hgood⟩
      exact exists_parse_eq hsplits hgood
  gives groups invocation hsplits hok := ((parse_eq_ok_iff_of_splits hsplits).mp hok).2
  reordered groups others arguments invocation hsplits horder hsplits' hok := by
    obtain ⟨hgood, settings, hinv, hgives⟩ := (parse_eq_ok_iff_of_splits hsplits).mp hok
    refine (parse_eq_ok_iff_of_splits hsplits').mpr ⟨?_, settings, hinv, horder.gives hgives⟩
    exact fun g hg => hgood g (horder.perm.mem_iff.mpr hg)
  refused_iff e := by
    constructor
    · intro herror
      rcases exists_splits_or_firstOffence files h with ⟨groups, hsplits, hgood⟩ | ⟨e', he⟩
      · obtain ⟨invocation, hok⟩ := exists_parse_eq hsplits hgood
        cases hok.symm.trans herror
      · exact Except.error.inj (he.parse_eq.symm.trans herror) ▸ he
    · exact FirstOffence.parse_eq

/-- Files with the names of options, two configurations of which the last one counts, and a group
that spells `--echo` behind a file of that name. -/
theorem understood_of_files_named_like_options :
    let files : Files := fun path =>
      if path = "--echo" then .ok (Text.bytes "[4]")
      else if path = "-c" then .ok (Text.bytes "mkdir né")
      else if path = "b" then .ok (Text.bytes "[8, 2]")
      else .error .notFound
    let args := ["-c", "--echo", "--no-echo", "--script", "-c", "--config", "b", "--echo"]
    (∀ arg ∈ args, arg ∉ requests) ∧
      parse files args = .ok (.run
        { config := { maxEntries := 8, maxChildren := 2 }, script := some "mkdir né", echo := true }) ∧
      Understood files args := by
  intro files args
  have hargs : ∀ arg ∈ args, arg ∉ requests := by decide
  exact ⟨hargs, by decide +kernel, understood_of_no_request files hargs⟩

/-- A script that cannot be read is told, and not the option behind it that does not exist. -/
example : parse (fun _ => .error .notFound) ["--echo", "-s", "--no-echo", "--verbose", "-c"] =
    .error (.script .notFound) := by
  decide

end CommandLine

end FileTree
