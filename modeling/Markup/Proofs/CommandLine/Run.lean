import Markup.Proofs.CommandLine.Arguments
import Markup.Proofs.CommandLine.Stages

/-!
# What an accepted command line does

The program writes the merged objects if every stage succeeds, and reports the first failing stage
otherwise; it never does both. What comes after that stage does not matter, nor any setting but the
one for bare names (`outcome_of_arguments`).
-/

namespace Markup.CommandLine

namespace Options

variable {o : Options} {files files' : Files} {input input' : Except FileError ByteArray}
  {s : Settings}

/-- The settings load, and these are the objects of the sources. -/
def Obtains (o : Options) (files : Files) (input : Except FileError ByteArray) (s : Settings)
    (ms : List AttributeMap) : Prop :=
  o.Loads files s ∧ List.Forall₂ (Source.Gives files input) o.sources ms

theorem outcome_of_obtains {ms : List AttributeMap} (h : o.Obtains files input s ms) :
    o.outcome files input =
      ⟨0, (AttributeMap.mergeList ms).text (o.terse.getD s.terse) ++ "\n", ""⟩ := by
  rw [outcome, result_eq_ok_iff.mpr ⟨s, ms, h.1, h.2, rfl⟩]

theorem outcome_of_failure {e : RunError}
    (h : o.stages.findSome? (Stage.failure? files input) = some e) :
    o.outcome files input = ⟨1, "", e.message ++ "\n"⟩ := by
  rw [← failureOf?_result, failureOf?_eq_some_iff] at h
  rw [outcome, h]

/-- A run that does not obtain its objects has a first failure. -/
theorem exists_failure (h : ¬ ∃ s ms, o.Obtains files input s ms) :
    ∃ e, o.stages.findSome? (Stage.failure? files input) = some e := by
  rw [← Option.isSome_iff_exists, ← failureOf?_result]
  cases hresult : o.result files input with
  | ok text =>
    obtain ⟨s, ms, hs, hms, -⟩ := result_eq_ok_iff.mp hresult
    exact absurd ⟨s, ms, hs, hms⟩ h
  | error e => rfl

/-- Of settings that are loaded, only the one for bare names matters, and it only where no flag is
given. -/
theorem outcome_of_loads (hs : o.Loads files s) :
    o.outcome files input =
      outcome { o with config := none, terse := some (o.terse.getD s.terse) } files input := by
  have hsettings : o.settings files = .ok { s with terse := o.terse.getD s.terse } := by
    rw [settings_eq, fileSettings_eq_ok_iff.mpr hs]
    rfl
  rw [outcome, outcome, result_eq, result_eq, hsettings]
  rfl

end Options

/-- The command lines that are accepted, and how each of them ends: by its objects, or by one message
about the first stage that fails. -/
theorem outcome_of_arguments (args : List String) (o : Options) :
    (Invocation.ofArguments args = .run o ↔
      ∃ pieces, Spells args pieces ∧ Options.Extends {} o pieces) ∧
    ∀ files input,
      (∀ s ms, o.Obtains files input s ms →
        o.outcome files input =
          ⟨0, (AttributeMap.mergeList ms).text (o.terse.getD s.terse) ++ "\n", ""⟩) ∧
      ((¬ ∃ s ms, o.Obtains files input s ms) →
        ∃ before stage after message, o.stages = before ++ stage :: after ∧
          (∀ st ∈ before, ¬ ∃ other, st.Reports files input other) ∧
          stage.Reports files input message ∧
          o.outcome files input = ⟨1, "", message ++ "\n"⟩ ∧
          ∀ files' input', (∀ st ∈ before ++ [stage], st.Agrees files files' input input') →
            o.outcome files' input' = o.outcome files input) ∧
      ∀ s, o.Loads files s →
        o.outcome files input =
          Options.outcome { o with config := none, terse := some (o.terse.getD s.terse) } files
            input := by
  refine ⟨ofArguments_eq_run_iff, fun files input => ⟨fun s ms => Options.outcome_of_obtains,
    fun hno => ?_, fun s => Options.outcome_of_loads⟩⟩
  obtain ⟨e, he⟩ := Options.exists_failure hno
  obtain ⟨before, stage, after, hstages, hstage, hbefore⟩ := List.findSome?_eq_some_iff.mp he
  refine ⟨before, stage, after, e.message, hstages,
    fun st hst => Stage.failure?_eq_none_iff.mp (hbefore st hst), Stage.reports_of_failure hstage,
    Options.outcome_of_failure he, fun files' input' hagrees => ?_⟩
  obtain ⟨hagreesBefore, hagreesStage⟩ := List.forall_mem_append.mp hagrees
  have hstage' : stage.failure? files' input' = some e :=
    (Stage.failure?_congr (List.forall_mem_singleton.mp hagreesStage)).symm.trans hstage
  have hbefore' : ∀ st ∈ before, st.failure? files' input' = none := fun st hst =>
    (Stage.failure?_congr (hagreesBefore st hst)).symm.trans (hbefore st hst)
  have he' : o.stages.findSome? (Stage.failure? files' input') = some e :=
    List.findSome?_eq_some_iff.mpr ⟨before, stage, after, hstages, hstage', hbefore'⟩
  rw [Options.outcome_of_failure he, Options.outcome_of_failure he']

/-- An object, one to lay over it, one that is cut off, and settings. -/
def sampleFiles : Files := fun name =>
  if name = "a.json" then .ok "\x7b\"id\": \"a\", \"hidden\": true\x7d".toUTF8
  else if name = "b.json" then .ok "\x7b\"id\": \"b\"\x7d".toUTF8
  else if name = "cut.json" then .ok "\x7b\"id\":".toUTF8
  else if name = "c.toml" then .ok "render.terse = false".toUTF8
  else .error .notFound

/-- What is said of the one that is cut off. -/
def cutMessage : String :=
  "Error parsing attributes from cut.json: EOF while parsing a value at line 1 column 6"

/-- A run that merges two objects, and one that fails at the second of three. -/
theorem outcome_of_arguments_samples :
    (∃ o, Invocation.ofArguments ["-mb.json", "--config=c.toml", "--", "a.json"] = .run o ∧
      o.outcome sampleFiles (.ok .empty) = ⟨0, " id=\"b\" hidden=\"hidden\"\n", ""⟩) ∧
    ∃ o : Options, (¬ ∃ s ms, o.Obtains sampleFiles (.ok .empty) s ms) ∧
      Invocation.ofArguments ["a.json", "-m", "cut.json", "--merge", "gone.json"] = .run o ∧
      (∃ stage ∈ o.stages, stage.Reports sampleFiles (.ok .empty) cutMessage) ∧
      o.outcome sampleFiles (.ok .empty) = ⟨1, "", cutMessage ++ "\n"⟩ := by
  constructor
  · let o : Options := { input := some "a.json", merges := ["b.json"], config := some "c.toml" }
    obtain ⟨haccepted, hends⟩ :=
      outcome_of_arguments ["-mb.json", "--config=c.toml", "--", "a.json"] o
    have hspells : Spells ["-mb.json", "--config=c.toml", "--", "a.json"]
        [.value .merge "b.json", .value .config "c.toml", .file "a.json"] :=
      .attached (.joined "b.json" (by decide) (by decide))
        (.attached (.long "c.toml") (.files ["a.json"]))
    have hextends : Options.Extends {} o
        [.value .merge "b.json", .value .config "c.toml", .file "a.json"] :=
      ⟨by simp, rfl, rfl, rfl, rfl⟩
    have hdone : (o.result sampleFiles (.ok .empty)).toOption =
        some " id=\"b\" hidden=\"hidden\"" := by decide +kernel
    obtain ⟨s, ms, hs, hms, htext⟩ :=
      Options.result_eq_ok_iff.mp (toOption_eq_some_iff.mp hdone)
    refine ⟨o, haccepted.mpr ⟨_, hspells, hextends⟩, ?_⟩
    rw [(hends sampleFiles (.ok .empty)).1 s ms ⟨hs, hms⟩, ← htext]
    rfl
  · let o : Options := { input := some "a.json", merges := ["cut.json", "gone.json"] }
    obtain ⟨haccepted, hends⟩ :=
      outcome_of_arguments ["a.json", "-m", "cut.json", "--merge", "gone.json"] o
    have hspells : Spells ["a.json", "-m", "cut.json", "--merge", "gone.json"]
        [.file "a.json", .value .merge "cut.json", .value .merge "gone.json"] :=
      .file (by decide) (.detached (.inr rfl) (by decide) (.detached (.inl rfl) (by decide) .nil))
    have hextends : Options.Extends {} o
        [.file "a.json", .value .merge "cut.json", .value .merge "gone.json"] :=
      ⟨by simp, rfl, rfl, rfl, rfl⟩
    have houtcome : o.outcome sampleFiles (.ok .empty) = ⟨1, "", cutMessage ++ "\n"⟩ := by
      decide +kernel
    have hno : ¬ ∃ s ms, o.Obtains sampleFiles (.ok .empty) s ms := by
      rintro ⟨s, ms, hobtains⟩
      rw [Options.outcome_of_obtains hobtains] at houtcome
      cases houtcome
    obtain ⟨before, stage, after, message, hstages, -, hreports, hmessage, -⟩ :=
      (hends sampleFiles (.ok .empty)).2.1 hno
    rw [houtcome, Outcome.mk.injEq, String.append_left_inj] at hmessage
    have htext : message = cutMessage := hmessage.2.2.symm
    refine ⟨o, hno, haccepted.mpr ⟨_, hspells, hextends⟩, ⟨stage, ?_, htext ▸ hreports⟩, houtcome⟩
    rw [hstages]
    exact List.mem_append_right _ List.mem_cons_self

end Markup.CommandLine
