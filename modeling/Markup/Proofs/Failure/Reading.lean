import Markup.Proofs.Failure.Raise

/-!
# What a step takes from the files

A step looks at the files only if it `Reads` one, and then at nothing but what reading that one
gives (`look_congr`). What it does to an error depends on the text it knows and not on where that
text came from (`raisedAt_of_knows`). `raisedAt_outcome` puts the two together: a step that reads
its file and a step that is given the text of the file raise the same error, and a step cannot tell
two file systems apart in which its file reads the same.
-/

namespace Markup

namespace Failure

/-- Looking at a place gives the same in all files in which the file of the place reads the same,
if it is read at all. -/
theorem look_congr {settings : Settings} {site : Site} {files files' : Files}
    (h : ∀ path, Step.Reads ⟨settings, files, site⟩ path →
      files.readText path = files'.readText path) :
    site.look settings files = site.look settings files' := by
  unfold Site.look
  cases hs : site.source.filter (· ≠ "") with
  | some text => rfl
  | none =>
    cases hf : site.filename with
    | none => rfl
    | some path =>
      dsimp only
      by_cases ha : settings.readSources = true
      · rw [h path ⟨Step.filter_eq_none.mp hs, hf, ha⟩]
      · rw [if_neg ha, if_neg ha]

theorem raisedAt_congr {settings : Settings} {site : Site} {files files' : Files}
    (h : ∀ path, Step.Reads ⟨settings, files, site⟩ path →
      files.readText path = files'.readText path) (failure : Failure) :
    failure.raisedAt settings files site = failure.raisedAt settings files' site := by
  cases failure with
  | value v => rfl
  | error e =>
    unfold Failure.raisedAt RenderError.raisedAt
    rw [look_congr h]

/-- A step that knows a text raises the error with that text. -/
theorem raisedAt_of_knows {s : Step} {text : String} (h : s.Knows text) (e : RenderError) :
    (e.raisedAt s.settings s.files s.site).1 =
      (e.knowing s.settings s.site (.source text)).1 := by
  rw [RenderError.raisedAt_fst]
  show (e.knowing s.settings s.site s.knowledge).1 = _
  rw [Step.knowledge_source h]

/-- A text that is given is known, also an empty one if it is the text of the file. -/
theorem knows_given {settings : Settings} {files : Files} {path text : String} (line : UInt64)
    (ha : settings.readSources = true) (hr : files.readText path = .ok text) :
    Step.Knows ⟨settings, files, ⟨some path, line, some text⟩⟩ text := by
  by_cases hne : text = ""
  · refine .inr ⟨path, ⟨?_, rfl, ha⟩, hr⟩
    intro t ht
    cases ht
    exact hne
  · exact .inl ⟨rfl, hne⟩

/-- Reading a file and being given its text raise the same error. What a step does, and what it
logs, is the same in all files if the failure is a value, which is passed on as it is, if a text
is given, if there is no file and if files may not be read; in every other case it is the same in
all files in which the file of the step reads the same. -/
theorem raisedAt_outcome (settings : Settings) (site : Site) :
    (∀ (files : Files) (e : RenderError) (path text : String) (line : UInt64),
      settings.readSources = true → files.readText path = .ok text →
        (e.raisedAt settings files ⟨some path, line, none⟩).1 =
          (e.raisedAt settings files ⟨some path, line, some text⟩).1) ∧
    (∀ (files : Files) (v : Value), (value v).raisedAt settings files site = (value v, [])) ∧
    ∀ (files files' : Files) (failure : Failure),
      (∃ v, failure = value v) ∨ (∃ text, site.source = some text ∧ text ≠ "") ∨
        site.filename = none ∨ settings.readSources = false ∨
        (∃ path, site.filename = some path ∧ files.readText path = files'.readText path) →
      failure.raisedAt settings files site = failure.raisedAt settings files' site := by
  refine ⟨fun files e path text line ha hr => ?_, fun _ _ => rfl, fun files files' failure h => ?_⟩
  · have hread : Step.Knows ⟨settings, files, ⟨some path, line, none⟩⟩ text :=
      .inr ⟨path, ⟨fun _ => nofun, rfl, ha⟩, hr⟩
    have hgiven := knows_given line ha hr
    -- both know the text, and the rest of the place, the file and the line, is the same
    exact (raisedAt_of_knows hread e).trans (raisedAt_of_knows hgiven e).symm
  · rcases h with ⟨v, rfl⟩ | ⟨text, hs, hne⟩ | hf | ha | ⟨path, hf, hr⟩
    · rfl
    · exact raisedAt_congr (fun path h => absurd (h.noSource text hs) hne) failure
    · exact raisedAt_congr (fun path h => nomatch hf.symm.trans h.filename) failure
    · refine raisedAt_congr (fun path h => ?_) failure
      exact absurd (ha.symm.trans h.allowed) (by decide)
    · refine raisedAt_congr (fun path' h => ?_) failure
      have hp : path = path' := Option.some.inj (hf.symm.trans h.filename)
      rw [← hp, hr]

/-- A directory with one file. -/
def oneFile : Files := fun name =>
  if name = "a.pug" then .ok "p\nq".toUTF8 else .error .notFound

/-- The same with an empty file beside it. -/
def twoFiles : Files := fun name => if name = "b.pug" then .ok "".toUTF8 else oneFile name

theorem raisedAt_outcome_oneFile :
    oneFile.readText "a.pug" = .ok "p\nq" ∧ oneFile.readText "b.pug" ≠ twoFiles.readText "b.pug" ∧
      ((RenderError.ofMessage "boom").raisedAt {} oneFile ⟨some "a.pug", 2, none⟩).1 =
        ((RenderError.ofMessage "boom").raisedAt {} oneFile ⟨some "a.pug", 2, some "p\nq"⟩).1 ∧
      ((RenderError.ofMessage "boom").raisedAt {} twoFiles ⟨some "b.pug", 1, none⟩).1 =
        ((RenderError.ofMessage "boom").raisedAt {} twoFiles ⟨some "b.pug", 1, some ""⟩).1 ∧
      (error (.ofMessage "boom")).raisedAt {} oneFile ⟨some "a.pug", 2, none⟩ =
        (error (.ofMessage "boom")).raisedAt {} twoFiles ⟨some "a.pug", 2, none⟩ := by
  have ha : oneFile.readText "a.pug" = .ok "p\nq" := by decide
  have ha' : twoFiles.readText "a.pug" = .ok "p\nq" := by decide
  have hb : twoFiles.readText "b.pug" = .ok "" := by decide
  obtain ⟨hread, -, hsame⟩ := raisedAt_outcome {} ⟨some "a.pug", 2, none⟩
  refine ⟨ha, by decide, hread oneFile _ "a.pug" _ 2 rfl ha, hread twoFiles _ "b.pug" _ 1 rfl hb, ?_⟩
  exact hsame oneFile twoFiles _ (.inr (.inr (.inr (.inr ⟨"a.pug", rfl, ha.trans ha'.symm⟩))))

end Failure

end Markup
