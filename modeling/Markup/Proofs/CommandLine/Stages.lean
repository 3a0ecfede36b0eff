import Markup.CommandLine
import Markup.Proofs.Outcomes

/-!
# The stages of a run

A run loads the settings, then reads and parses one object after another. The list of its stages is
known beforehand (`Options.stages`), and what fails at a stage depends on what that stage reads and
on nothing before it (`Stage.failure?`). A run without a failing stage writes the merged objects
(`Options.result_eq_ok_iff`); any other ends with its first failure (`Options.failureOf?_result`).

`Stage.Reports` is the failure of a stage with what is said of it: the kind of stage, the name of the
file and the reason. It is the message of the failure (`Stage.reports_of_failure`).
-/

namespace Markup.CommandLine

/-- Where an object comes from. -/
inductive Source where
  | file (name : String)
  | standardInput
  deriving DecidableEq

namespace Source

/-- What reading a source comes to. -/
def bytes (files : Files) (input : Except FileError ByteArray) : Source → Except FileError ByteArray
  | file name => files name
  | standardInput => input

def text (files : Files) (input : Except FileError ByteArray) (s : Source) :
    Except FileError String := s.bytes files input >>= decodeText

/-- The failure to read a source. -/
def unreadable : Source → FileError → RunError
  | file name => .file name
  | standardInput => .standardInput

/-- What messages call a source. -/
def origin : Source → String
  | file name => name
  | standardInput => "stdin"

/-- The source is a text with this object. -/
def Gives (files : Files) (input : Except FileError ByteArray) (s : Source) (m : AttributeMap) :
    Prop :=
  ∃ text, s.text files input = .ok text ∧ AttributeMap.read text = .ok m

end Source

/-- Something that a run does, and that can fail. -/
inductive Stage where
  | settings (name : String)
  | reading (source : Source)
  | parsing (source : Source)
  deriving DecidableEq

namespace Stage

/-- The failure of a stage. A source that cannot be read is not parsed. -/
def failure? (files : Files) (input : Except FileError ByteArray) : Stage → Option RunError
  | settings name => (failureOf? (Settings.ofFile files name)).map (.settings name)
  | reading source => (failureOf? (source.text files input)).map source.unreadable
  | parsing source =>
    (source.text files input).toOption.bind fun text =>
      (failureOf? (AttributeMap.read text)).map (.attributes source.origin)

/-- The stage reads the same of two sets of files and standard inputs. -/
def Agrees (files files' : Files) (input input' : Except FileError ByteArray) : Stage → Prop
  | settings name => files name = files' name
  | reading source | parsing source => source.bytes files input = source.bytes files' input'

theorem failure?_congr {files files' : Files} {input input' : Except FileError ByteArray}
    {stage : Stage} (h : stage.Agrees files files' input input') :
    stage.failure? files input = stage.failure? files' input' := by
  cases stage with
  | settings name =>
    have hfile : Settings.ofFile files name = Settings.ofFile files' name := by
      unfold Settings.ofFile Files.readText
      rw [show files name = files' name from h]
    rw [failure?, failure?, hfile]
  | reading source | parsing source =>
    have htext : source.text files input = source.text files' input' :=
      congrArg (· >>= decodeText) h
    rw [failure?, failure?, htext]

/-- What a message about a stage begins with. -/
def heading : Stage → String
  | settings name => "Error loading config '" ++ name ++ "': "
  | reading (.file name) => "Error reading file '" ++ name ++ "': "
  | reading .standardInput => "Error reading from stdin: "
  | parsing (.file name) => "Error parsing attributes from " ++ name ++ ": "
  | parsing .standardInput => "Error parsing attributes from stdin: "

/-- The stage fails, and this is why. For what reason a text is no TOML is left open. -/
inductive FailsFor (files : Files) (input : Except FileError ByteArray) : Stage → String → Prop where
  | unreadSettings {name : String} {e : FileError} (unread : files.readText name = .error e) :
    FailsFor files input (.settings name) ("Failed to read config file: " ++ e.message)
  | malformedSettings {name text : String} (reason : String)
    (read : files.readText name = .ok text) (malformed : Toml.read? text = none) :
    FailsFor files input (.settings name) ("Failed to parse config TOML: " ++ reason)
  | unfitSettings {name text : String} {t : Toml.Table} {m : Settings.Misfit}
    (read : files.readText name = .ok text) (toml : Toml.read? text = some t)
    (unfit : Settings.Given.ofTable t = .error m) :
    FailsFor files input (.settings name)
      ("Failed to parse config TOML: " ++ Settings.LoadError.misfitMessage text m)
  | unread {source : Source} {e : FileError} (unread : source.text files input = .error e) :
    FailsFor files input (.reading source) e.message
  | unparsed {source : Source} {text : String} {e : Json.ReadError}
    (read : source.text files input = .ok text) (unparsed : AttributeMap.read text = .error e) :
    FailsFor files input (.parsing source) e.message

/-- The stage fails, and this is said of it. -/
def Reports (files : Files) (input : Except FileError ByteArray) (stage : Stage)
    (message : String) : Prop :=
  ∃ reason, stage.FailsFor files input reason ∧ message = stage.heading ++ reason

section reports

variable {files : Files} {input : Except FileError ByteArray} {stage : Stage}

theorem failsFor_settings {name : String} {e : Settings.LoadError}
    (h : Settings.ofFile files name = .error e) :
    (settings name).FailsFor files input e.message := by
  unfold Settings.ofFile at h
  split at h
  · next text hread =>
    unfold Settings.ofText at h
    split at h
    · next htoml =>
      cases h
      exact .malformedSettings Settings.LoadError.unexplained hread htoml
    · next t htoml =>
      split at h
      · cases h
      · next m hunfit =>
        cases h
        exact .unfitSettings hread htoml hunfit
  · next hread =>
    cases h
    exact .unreadSettings hread

/-- The failure of a stage is reported with its message. -/
theorem reports_of_failure {e : RunError} (h : stage.failure? files input = some e) :
    stage.Reports files input e.message := by
  cases stage with
  | settings name =>
    obtain ⟨e, he, rfl⟩ := Option.map_eq_some_iff.mp h
    exact ⟨_, failsFor_settings (failureOf?_eq_some_iff.mp he), rfl⟩
  | reading source =>
    obtain ⟨e, he, rfl⟩ := Option.map_eq_some_iff.mp h
    refine ⟨_, .unread (failureOf?_eq_some_iff.mp he), ?_⟩
    cases source <;> rfl
  | parsing source =>
    obtain ⟨text, htext, h⟩ := Option.bind_eq_some_iff.mp h
    obtain ⟨e, he, rfl⟩ := Option.map_eq_some_iff.mp h
    have hread := toOption_eq_some_iff.mp htext
    refine ⟨_, .unparsed hread (failureOf?_eq_some_iff.mp he), ?_⟩
    cases source <;> rfl

/-- A stage that does not fail has nothing reported of it. -/
theorem failure?_eq_none_iff :
    stage.failure? files input = none ↔ ¬ ∃ message, stage.Reports files input message := by
  refine ⟨?_, fun hno => ?_⟩
  · rintro hnone ⟨_, reason, hfails, -⟩
    cases hfails with
    | unreadSettings unread => simp [failure?, Settings.ofFile, unread, failureOf?] at hnone
    | malformedSettings _ read malformed =>
      simp [failure?, Settings.ofFile, Settings.ofText, read, malformed, failureOf?] at hnone
    | unfitSettings read toml unfit =>
      simp [failure?, Settings.ofFile, Settings.ofText, read, toml, unfit, failureOf?] at hnone
    | unread unread => simp [failure?, unread, failureOf?] at hnone
    | unparsed read unparsed =>
      simp [failure?, read, unparsed, Except.toOption, failureOf?] at hnone
  · cases h : stage.failure? files input with
    | none => rfl
    | some e => exact absurd ⟨_, reports_of_failure h⟩ hno

end reports

end Stage

namespace Options

variable {o : Options} {files : Files} {input : Except FileError ByteArray}

/-- The sources of the objects: the input, and the files laid over it. -/
def sources (o : Options) : List Source :=
  o.input.elim .standardInput .file :: o.merges.map .file

/-- What a run does, in its order. -/
def stages (o : Options) : List Stage :=
  o.config.toList.map .settings ++
    o.sources.flatMap fun source => [.reading source, .parsing source]

/-- The settings that the flags are laid over. -/
def Loads (o : Options) (files : Files) (s : Settings) : Prop :=
  match o.config with
  | some name => Settings.ofFile files name = .ok s
  | none => s = {}

/-! ### Sources -/

/-- The object of a source. -/
def attributesFrom (files : Files) (input : Except FileError ByteArray) (source : Source) :
    Except RunError AttributeMap := do
  attributesOf source.origin (← (source.text files input).mapError source.unreadable)

theorem inputAttributes_eq : o.inputAttributes files input =
    attributesFrom files input (o.input.elim .standardInput .file) := by
  unfold inputAttributes
  cases o.input <;> rfl

theorem attributesFrom_eq_ok_iff {source : Source} {m : AttributeMap} :
    attributesFrom files input source = .ok m ↔ source.Gives files input m := by
  simp only [attributesFrom, attributesOf, bind_eq_ok_iff, mapError_eq_ok_iff, Source.Gives]

theorem failureOf?_attributesFrom (source : Source) :
    failureOf? (attributesFrom files input source) =
      [Stage.reading source, Stage.parsing source].findSome? (Stage.failure? files input) := by
  rw [List.findSome?_cons, List.findSome?_singleton, attributesFrom, Stage.failure?, Stage.failure?]
  cases source.text files input with
  | error e => rfl
  | ok text => exact failureOf?_mapError _ _

/-! ### Runs -/

/-- The settings of the file, if there is one. -/
def fileSettings (o : Options) (files : Files) : Except RunError Settings :=
  match o.config with
  | some name => (Settings.ofFile files name).mapError (RunError.settings name)
  | none => pure {}

theorem settings_eq : o.settings files =
    o.fileSettings files >>= fun base => pure { base with terse := o.terse.getD base.terse } := by
  unfold settings fileSettings
  cases o.config <;> rfl

theorem fileSettings_eq_ok_iff {s : Settings} : o.fileSettings files = .ok s ↔ o.Loads files s := by
  unfold fileSettings Loads
  cases o.config with
  | none => exact ⟨fun h => by cases h; rfl, fun h => by rw [h]; rfl⟩
  | some name => exact mapError_eq_ok_iff

theorem failureOf?_settings : failureOf? (o.settings files) =
    (o.config.toList.map Stage.settings).findSome? (Stage.failure? files input) := by
  rw [settings_eq, failureOf?_bind_pure, fileSettings]
  cases o.config with
  | none => rfl
  | some name =>
    simp only [Option.toList_some, List.map_cons, List.map_nil, List.findSome?_cons,
      List.findSome?_nil, Stage.failure?]
    cases Settings.ofFile files name <;> rfl

/-- The objects are those of the sources, one after the other. -/
theorem result_eq : o.result files input = do
    let settings ← o.settings files
    let ms ← o.sources.mapM (attributesFrom files input)
    return (AttributeMap.mergeList ms).text settings.terse := by
  have hothers : (o.merges.map Source.file).mapM (attributesFrom files input) =
      o.merges.mapM (fileAttributes files) := List.mapM_map
  rw [result, inputAttributes_eq, sources, List.mapM_cons, hothers]
  simp only [bind_assoc, pure_bind]

/-- A run that succeeds writes the merged objects, as the settings and the flags say. -/
theorem result_eq_ok_iff {text : String} : o.result files input = .ok text ↔
    ∃ s ms, o.Loads files s ∧ List.Forall₂ (Source.Gives files input) o.sources ms ∧
      text = (AttributeMap.mergeList ms).text (o.terse.getD s.terse) := by
  rw [result_eq, settings_eq, bind_eq_ok_iff]
  simp only [bind_pure_eq_ok_iff, mapM_eq_ok_iff, fileSettings_eq_ok_iff, attributesFrom_eq_ok_iff]
  constructor
  · rintro ⟨_, ⟨s, hs, rfl⟩, ms, hms, rfl⟩
    exact ⟨s, ms, hs, hms, rfl⟩
  · rintro ⟨s, ms, hs, hms, rfl⟩
    exact ⟨_, ⟨s, hs, rfl⟩, ms, hms, rfl⟩

/-- A run ends with the first failure of its stages. -/
theorem failureOf?_result :
    failureOf? (o.result files input) = o.stages.findSome? (Stage.failure? files input) := by
  rw [result_eq, stages, List.findSome?_append, ← failureOf?_settings, findSome?_flatMap]
  refine failureOf?_bind fun settings _ => ?_
  rw [failureOf?_bind_pure, failureOf?_mapM]
  simp only [failureOf?_attributesFrom]

end Options

end Markup.CommandLine
