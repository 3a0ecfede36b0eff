import Markup.Renderer
import Mathlib.Data.List.Forall2

/-!
# Raising a failure again

`Step.Adds` says what a step adds to the message of an error: a text in front of it or a text
behind it, by what the step knows of the source. `RaisedTo` is what becomes of an error along a
run of steps; one step keeps to it (`raisedTo_raisedAt`) and so does a run (`raisedAlong_error`).
`foldl_raise_fresh` is the same for an error as first made and every way to raise it again.
-/

namespace Markup

namespace RenderError

/-- An error as first made: from a message or from another error, sealed or not. -/
inductive Fresh : RenderError → Prop where
  | ofMessage (message : String) : Fresh (ofMessage message)
  | ofCause (cause : Cause) : Fresh (ofCause cause)
  | sealed {e : RenderError} : Fresh e → Fresh e.sealed

theorem Fresh.message_eq {e : RenderError} (h : e.Fresh) : e.message = e.detail := by
  induction h with
  | ofMessage | ofCause => rfl
  | sealed _ ih => exact ih

theorem Fresh.line_eq {e : RenderError} (h : e.Fresh) : e.line = none := by
  induction h with
  | ofMessage | ofCause => rfl
  | sealed _ ih => exact ih

theorem Fresh.path_eq {e : RenderError} (h : e.Fresh) : e.path = none := by
  induction h with
  | ofMessage | ofCause => rfl
  | sealed _ ih => exact ih

/-! ### One step -/

theorem mapMessage_fst (e : RenderError) (change : String → String) :
    (e.mapMessage change).1 =
      { e with message := if e.isSealed then e.message else change e.message } := by
  unfold mapMessage
  split <;> rfl

theorem onLine_fst (e : RenderError) (line : UInt64) :
    (e.onLine line).1 =
      { e with
        message := if e.isSealed then e.message else e.message ++ lineNote line
        line := some line } := by
  show { (e.mapMessage (· ++ lineNote line)).1 with line := some line } = _
  rw [mapMessage_fst]

/-- What is written around a message by what is known of the source. -/
def around (settings : Settings) (site : Site) : Knowledge → String × String
  | .source text => (site.header settings text, "")
  | .unreadable path error => ("", unreadableNote path error ++ lineNote site.line)
  | .nothing => ("", lineNote site.line)

/-- The template file an error is put down to by what is known of the source. -/
def pathAt (site : Site) (path : Option String) : Knowledge → Option String
  | .source _ => site.filename
  | .unreadable _ _ | .nothing => path

theorem knowing_fst (e : RenderError) (settings : Settings) (site : Site) (k : Knowledge) :
    (e.knowing settings site k).1 =
      { e with
        message :=
          if e.isSealed then e.message
          else (around settings site k).1 ++ e.message ++ (around settings site k).2
        path := pathAt site e.path k
        line := some site.line } := by
  cases k with
  | source text =>
    show (mapMessage _ _).1 = _
    rw [mapMessage_fst]
    simp [around, pathAt]
  | unreadable path error =>
    show (onLine (e.mapMessage (· ++ unreadableNote path error)).1 site.line).1 = _
    rw [onLine_fst, mapMessage_fst]
    cases e.isSealed <;> simp [around, pathAt, String.append_assoc]
  | nothing =>
    show (onLine e site.line).1 = _
    rw [onLine_fst]
    simp [around, pathAt]

theorem raisedAt_fst (e : RenderError) (settings : Settings) (files : Files) (site : Site) :
    (e.raisedAt settings files site).1 =
      (e.knowing settings site (site.look settings files).1).1 := rfl

end RenderError

namespace Failure

namespace Step

/-- The step has no source of its own and may read a file. -/
structure Reads (s : Step) (path : String) : Prop where
  noSource : ∀ text, s.site.source = some text → text = ""
  filename : s.site.filename = some path
  allowed : s.settings.readSources = true

/-- The step has a text to take lines from: a source that is given and not empty, or else the text
of the file. -/
def Knows (s : Step) (text : String) : Prop :=
  (s.site.source = some text ∧ text ≠ "") ∨
    ∃ path, s.Reads path ∧ s.files.readText path = .ok text

/-- The texts that a step adds in front of a message and behind it. -/
inductive Adds (s : Step) : String → String → Prop where
  | context {text : String} : s.Knows text →
    Adds s (s.site.filename.getD s.settings.defaultFilename ++ ":" ++ toString s.site.line ++
      "\n" ++ Text.window text s.site.line s.settings.contextLines ++ "\n\n") ""
  | unreadable {path : String} {error : FileError} :
    s.Reads path → s.files.readText path = .error error →
    Adds s "" (" - could not read from " ++ path ++ " (" ++ error.message ++ ")" ++
      (" on line " ++ toString s.site.line))
  | line : (∀ text, s.site.source = some text → text = "") →
    (s.site.filename = none ∨ s.settings.readSources = false) →
    Adds s "" (" on line " ++ toString s.site.line)

/-- What is known at a step. -/
def knowledge (s : Step) : Knowledge := (s.site.look s.settings s.files).1

/-- What a step writes around a message. -/
def added (s : Step) : String × String := RenderError.around s.settings s.site s.knowledge

theorem filter_eq_none {source : Option String} :
    source.filter (· ≠ "") = none ↔ ∀ text, source = some text → text = "" := by
  cases source with
  | none => simp
  | some text => simp

theorem knowledge_source {s : Step} {text : String} (h : s.Knows text) :
    s.knowledge = .source text := by
  unfold knowledge Site.look
  rcases h with ⟨h, hne⟩ | ⟨path, ⟨h1, h2, h3⟩, hr⟩
  · have hf : s.site.source.filter (· ≠ "") = some text := by simp [h, hne]
    rw [hf]
  · rw [filter_eq_none.mpr h1, h2]
    simp only [h3, if_true, hr]

theorem knowledge_unreadable {s : Step} {path : String} {error : FileError} (h : s.Reads path)
    (hr : s.files.readText path = .error error) : s.knowledge = .unreadable path error := by
  unfold knowledge Site.look
  rw [filter_eq_none.mpr h.noSource, h.filename]
  simp only [h.allowed, if_true, hr]

theorem knowledge_nothing {s : Step} (h : ∀ text, s.site.source = some text → text = "")
    (hn : s.site.filename = none ∨ s.settings.readSources = false) : s.knowledge = .nothing := by
  unfold knowledge Site.look
  rw [filter_eq_none.mpr h]
  rcases hn with hn | hn
  · rw [hn]
  · cases s.site.filename with
    | none => rfl
    | some path => simp [hn]

theorem added_of_adds {s : Step} {front back : String} (h : s.Adds front back) :
    s.added = (front, back) := by
  unfold added
  cases h with
  | context h => rw [knowledge_source h]; rfl
  | unreadable h hr => rw [knowledge_unreadable h hr]; rfl
  | line h hn => rw [knowledge_nothing h hn]; rfl

/-- What a step finds of its source, and what looking for it logs. -/
inductive Finds (s : Step) : Knowledge → List Event → Prop where
  | given {text : String} : s.site.source = some text → text ≠ "" → Finds s (.source text) []
  | read {path text : String} : s.Reads path → s.files.readText path = .ok text →
    Finds s (.source text) [.reading path]
  | unreadable {path : String} {error : FileError} :
    s.Reads path → s.files.readText path = .error error →
    Finds s (.unreadable path error) [.reading path, .unreadable path error]
  | nothing : (∀ text, s.site.source = some text → text = "") →
    (s.site.filename = none ∨ s.settings.readSources = false) → Finds s .nothing []

theorem finds_look (s : Step) :
    s.Finds (s.site.look s.settings s.files).1 (s.site.look s.settings s.files).2 := by
  unfold Site.look
  cases hs : s.site.source.filter (· ≠ "") with
  | some text =>
    obtain ⟨h, hne⟩ := Option.filter_eq_some_iff.mp hs
    exact .given h (by simpa using hne)
  | none =>
    have hnone := filter_eq_none.mp hs
    cases hf : s.site.filename with
    | none => exact .nothing hnone (.inl hf)
    | some path =>
      by_cases ha : s.settings.readSources = true
      · have hreads : s.Reads path := ⟨hnone, hf, ha⟩
        simp only [ha, if_true]
        cases hr : s.files.readText path with
        | ok text => exact .read hreads hr
        | error e => exact .unreadable hreads hr
      · simp only [ha]
        exact .nothing hnone (.inr (by simpa using ha))

theorem Finds.adds {s : Step} {k : Knowledge} {log : List Event} (h : s.Finds k log) :
    s.Adds (RenderError.around s.settings s.site k).1 (RenderError.around s.settings s.site k).2 := by
  cases h with
  | given h hne => exact .context (.inl ⟨h, hne⟩)
  | read h hr => exact .context (.inr ⟨_, h, hr⟩)
  | unreadable h hr => exact .unreadable h hr
  | nothing h hn => exact .line h hn

theorem adds_added (s : Step) : s.Adds s.added.1 s.added.2 := (finds_look s).adds

theorem existsUnique_adds (s : Step) : ∃! a : String × String, s.Adds a.1 a.2 :=
  ⟨s.added, adds_added s, fun _ h => (added_of_adds h).symm⟩

end Step

/-! ### Runs -/

/-- What becomes of an error along a run of steps. -/
structure RaisedTo (steps : List Step) (e e' : RenderError) : Prop where
  detail : e'.detail = e.detail
  cause : e'.cause = e.cause
  isSealed : e'.isSealed = e.isSealed
  line : e'.line = (steps.getLast?.map (·.site.line)).or e.line
  sealedMessage : e.isSealed = true → e'.message = e.message
  /-- the texts added in front stand in reverse order, since the last one is the outermost -/
  message : e.isSealed = false → ∃ added : List (String × String),
    List.Forall₂ (fun s a => s.Adds a.1 a.2) steps added ∧
    e'.message = String.join (added.map Prod.fst).reverse ++ e.message ++
      String.join (added.map Prod.snd)

theorem raisedTo_nil (e : RenderError) : RaisedTo [] e e where
  detail := rfl
  cause := rfl
  isSealed := rfl
  line := rfl
  sealedMessage _ := rfl
  message _ := ⟨[], .nil, by simp⟩

theorem raisedTo_raisedAt (e : RenderError) (s : Step) :
    RaisedTo [s] e (e.raisedAt s.settings s.files s.site).1 := by
  rw [RenderError.raisedAt_fst, RenderError.knowing_fst]
  refine ⟨rfl, rfl, rfl, rfl, fun h => ?_, fun h => ?_⟩
  · simp [h]
  · exact ⟨[s.added], .cons (Step.adds_added s) .nil, by simp [h, Step.added, Step.knowledge]⟩

theorem RaisedTo.trans {xs ys : List Step} {e e' e'' : RenderError} (h : RaisedTo xs e e')
    (h' : RaisedTo ys e' e'') : RaisedTo (xs ++ ys) e e'' where
  detail := h'.detail.trans h.detail
  cause := h'.cause.trans h.cause
  isSealed := h'.isSealed.trans h.isSealed
  line := by
    rw [h'.line, h.line, List.getLast?_append]
    cases ys.getLast? <;> rfl
  sealedMessage he := (h'.sealedMessage (h.isSealed.trans he)).trans (h.sealedMessage he)
  message he := by
    obtain ⟨added, ha, hm⟩ := h.message he
    obtain ⟨added', ha', hm'⟩ := h'.message (h.isSealed.trans he)
    refine ⟨added ++ added', List.rel_append ha ha', ?_⟩
    rw [hm', hm]
    simp [String.append_assoc, String.join_append]

theorem raisedAlong_error (e : RenderError) (steps : List Step) :
    ∃ e', (error e).raisedAlong steps = error e' ∧ RaisedTo steps e e' := by
  induction steps generalizing e with
  | nil => exact ⟨e, rfl, raisedTo_nil e⟩
  | cons s steps ih =>
    obtain ⟨e', hrun, h⟩ := ih (e.raisedAt s.settings s.files s.site).1
    exact ⟨e', hrun, (raisedTo_raisedAt e s).trans h⟩

/-- The ways to raise a failure again: with the default settings, with settings that are given,
and by a renderer with its own. -/
inductive Raise where
  | plain (files : Files) (site : Site)
  | configured (settings : Settings) (files : Files) (site : Site)
  | rendered (r : Renderer) (files : Files) (site : Site)

namespace Raise

def apply (failure : Failure) : Raise → Failure
  | plain files site => (failure.raisedAt {} files site).1
  | configured settings files site => (failure.raisedAt settings files site).1
  | rendered r files site => (r.raisedAt files failure site).1

/-- The step that is made. -/
def step : Raise → Step
  | plain files site => { settings := {}, files, site }
  | configured settings files site => { settings, files, site }
  | rendered r files site => { settings := r.settings, files, site }

end Raise

theorem foldl_raise (failure : Failure) (raises : List Raise) :
    raises.foldl Raise.apply failure = failure.raisedAlong (raises.map Raise.step) := by
  rw [raisedAlong, List.foldl_map]
  congr 1
  funext failure r
  cases r <;> rfl

/-- An error as first made, raised again any number of times, in any way and whatever the files
hold each time, stays an error with its detail and its cause. Its line is the last one. Its
message is the detail if it is sealed, and otherwise the detail with all that the steps added in
front of it, the last one first, and behind it. -/
theorem foldl_raise_fresh {e : RenderError} (he : e.Fresh) (raises : List Raise) :
    (∀ s : Step, ∃! a : String × String, s.Adds a.1 a.2) ∧
    ∃ e', raises.foldl Raise.apply (error e) = error e' ∧
      e'.detail = e.detail ∧ e'.cause = e.cause ∧ e'.isSealed = e.isSealed ∧
      e'.line = raises.getLast?.map (·.step.site.line) ∧
      (e.isSealed = true → e'.message = e.detail) ∧
      (e.isSealed = false → ∃ added : List (String × String),
        List.Forall₂ (fun r a => r.step.Adds a.1 a.2) raises added ∧
        e'.message = String.join (added.map Prod.fst).reverse ++ e.detail ++
          String.join (added.map Prod.snd)) := by
  refine ⟨Step.existsUnique_adds, ?_⟩
  obtain ⟨e', hrun, h⟩ := raisedAlong_error e (raises.map Raise.step)
  refine ⟨e', (foldl_raise _ _).trans hrun, h.detail, h.cause, h.isSealed, ?_, ?_, ?_⟩
  · rw [h.line, he.line_eq, Option.or_none, List.getLast?_map, Option.map_map]
    rfl
  · intro hs
    rw [h.sealedMessage hs, he.message_eq]
  · intro hs
    obtain ⟨added, ha, hm⟩ := h.message hs
    rw [List.forall₂_map_left_iff] at ha
    rw [he.message_eq] at hm
    exact ⟨added, ha, hm⟩

/-- An error raised with no source, with a file that cannot be read and with a source. -/
def boomRaises : List Raise :=
  [.plain (fun _ => .error .notFound) ⟨none, 7, none⟩,
    .rendered {} (fun _ => .error .notFound) ⟨some "a.pug", 4, some ""⟩,
    .configured { contextLines := 1 } (fun _ => .error .notFound) ⟨none, 2, some "p\nq\nr"⟩]

theorem foldl_raise_fresh_boom :
    (RenderError.ofMessage "boom").Fresh ∧ ∃ e',
      boomRaises.foldl Raise.apply (error (.ofMessage "boom")) = error e' ∧
      e'.detail = "boom" ∧ e'.line = some 2 ∧
      e'.message = "Pug:2\n  > 2| q\n    3| r\n\nboom on line 7" ++
        " - could not read from a.pug (No such file or directory (os error 2)) on line 4" := by
  have hf : (RenderError.ofMessage "boom").Fresh := .ofMessage "boom"
  obtain ⟨-, e', hrun, hd, -, -, hl, -⟩ := foldl_raise_fresh hf boomRaises
  refine ⟨hf, e', hrun, hd, hl, ?_⟩
  cases hrun
  decide

end Failure

end Markup
