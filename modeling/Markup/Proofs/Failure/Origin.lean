import Markup.Proofs.Failure.Raise
import Mathlib.Data.List.Induction

/-!
# Where an error is put down to

A step puts an error down to its line always, and to its template file only if it has a text to
take lines from (`raisedAt_path`). After a run the line is that of the last step, and the file that
of the last step with a text (`raisedAlong_path`, by induction on the run from its end).
`foldl_raise_origin` says when the two come from one step. After `strayRaises` they do not: the
line of the last step stands under the file of the step before it.
-/

namespace Markup

/-- Whether a text is known of the source. -/
def Knowledge.isSource : Knowledge → Bool
  | source _ => true
  | unreadable _ _ | nothing => false

namespace Failure

namespace Step

/-- The step has a text to take lines from. -/
def HasText (s : Step) : Prop := ∃ text, s.Knows text

theorem hasText_iff {s : Step} : s.HasText ↔ s.knowledge.isSource = true := by
  constructor
  · rintro ⟨text, h⟩
    rw [knowledge_source h]
    rfl
  · intro hk
    obtain ⟨log, h⟩ : ∃ log, s.Finds s.knowledge log := ⟨_, finds_look s⟩
    generalize s.knowledge = k at h hk
    cases h with
    | given hs hne => exact ⟨_, .inl ⟨hs, hne⟩⟩
    | read hs hr => exact ⟨_, .inr ⟨_, hs, hr⟩⟩
    | unreadable | nothing => cases hk

instance : DecidablePred HasText := fun _ => decidable_of_iff _ hasText_iff.symm

end Step

/-! ### One step -/

theorem pathAt_eq (site : Site) (path : Option String) (k : Knowledge) :
    RenderError.pathAt site path k = if k.isSource then site.filename else path := by
  cases k <;> rfl

theorem raisedAt_path (e : RenderError) (s : Step) :
    (e.raisedAt s.settings s.files s.site).1.path =
      if s.HasText then s.site.filename else e.path := by
  rw [RenderError.raisedAt_fst, RenderError.knowing_fst]
  show RenderError.pathAt s.site e.path s.knowledge = _
  rw [pathAt_eq]
  simp only [Step.hasText_iff]

/-! ### Runs -/

/-- The last step of a run that has a text to take lines from. -/
def lastWithText? (steps : List Step) : Option Step := steps.reverse.find? (·.HasText)

theorem lastWithText?_concat (steps : List Step) (s : Step) :
    lastWithText? (steps ++ [s]) = if s.HasText then some s else lastWithText? steps := by
  unfold lastWithText?
  rw [List.reverse_concat, List.find?_cons]
  split <;> simp_all

theorem raisedAlong_concat (failure : Failure) (steps : List Step) (s : Step) :
    failure.raisedAlong (steps ++ [s]) =
      ((failure.raisedAlong steps).raisedAt s.settings s.files s.site).1 := by
  unfold raisedAlong
  rw [List.foldl_append]
  rfl

theorem raisedAlong_path (e : RenderError) (steps : List Step) :
    ∃ e', (error e).raisedAlong steps = error e' ∧ RaisedTo steps e e' ∧
      e'.path = ((lastWithText? steps).map (·.site.filename)).getD e.path := by
  induction steps using List.reverseRecOn with
  | nil => exact ⟨e, rfl, raisedTo_nil e, rfl⟩
  | append_singleton steps s ih =>
    obtain ⟨e', hrun, h, hp⟩ := ih
    refine ⟨(e'.raisedAt s.settings s.files s.site).1, ?_, h.trans (raisedTo_raisedAt e' s), ?_⟩
    · rw [raisedAlong_concat, hrun]
      rfl
    · rw [raisedAt_path, lastWithText?_concat, hp]
      split <;> rfl

/-- The file and the line an error is put down to come from one step: the last one that had a text
to take lines from. -/
def OneOrigin (steps : List Step) (e : RenderError) : Prop :=
  ∀ path, e.path = some path → ∃ s, lastWithText? steps = some s ∧
    s.site.filename = some path ∧ e.line = some s.site.line

/-- An error as first made, raised again any number of times, is put down to the line of the last
step and to the file of the last step that had a text to take lines from. The two come from one
step exactly if the line of the last step is also the line of that one, or that one has no file. -/
theorem foldl_raise_origin {e : RenderError} (he : e.Fresh) (raises : List Raise) :
    ∃ e', raises.foldl Raise.apply (error e) = error e' ∧
      e'.line = raises.getLast?.map (·.step.site.line) ∧
      e'.path = (lastWithText? (raises.map Raise.step)).bind (·.site.filename) ∧
      (OneOrigin (raises.map Raise.step) e' ↔
        ∀ s, lastWithText? (raises.map Raise.step) = some s → s.site.filename ≠ none →
          ∀ r ∈ raises.getLast?, r.step.site.line = s.site.line) := by
  obtain ⟨e', hrun, h, hp⟩ := raisedAlong_path e (raises.map Raise.step)
  have hline : e'.line = raises.getLast?.map (·.step.site.line) := by
    rw [h.line, he.line_eq, Option.or_none, List.getLast?_map, Option.map_map]
    rfl
  have hpath : e'.path = (lastWithText? (raises.map Raise.step)).bind (·.site.filename) := by
    rw [hp, he.path_eq]
    cases lastWithText? (raises.map Raise.step) <;> rfl
  refine ⟨e', (foldl_raise _ _).trans hrun, hline, hpath, ?_⟩
  constructor
  · intro hone s hs hne r hr
    obtain ⟨path, hf⟩ := Option.ne_none_iff_exists'.mp hne
    obtain ⟨s', hs', -, hl⟩ := hone path (by rw [hpath, hs, Option.bind_some, hf])
    rw [hs] at hs'
    cases hs'
    rw [hline, Option.mem_def.mp hr, Option.map_some, Option.some.injEq] at hl
    exact hl
  · intro hkept path hpe
    rw [hpath] at hpe
    obtain ⟨s, hs, hf⟩ := Option.bind_eq_some_iff.mp hpe
    refine ⟨s, hs, hf, ?_⟩
    -- a step that has a text is a step, so the run has a last one
    have hmem : s ∈ raises.map Raise.step := List.mem_reverse.mp (List.mem_of_find?_eq_some hs)
    cases hr : raises.getLast? with
    | none =>
      rw [List.getLast?_eq_none_iff.mp hr] at hmem
      cases hmem
    | some r => rw [hline, hr, Option.map_some, hkept s hs (by simp [hf]) r hr]

/-- An error raised again in a file with a text, and then with a line alone. -/
def strayRaises : List Raise :=
  [.plain (fun _ => .error .notFound) ⟨some "a.pug", 4, some "p\nq\nr\ns"⟩,
    .plain (fun _ => .error .notFound) ⟨none, 7, none⟩]

/-- The same steps the other way round leave the file and the line of one step. -/
theorem foldl_raise_origin_reverse :
    (RenderError.ofMessage "boom").Fresh ∧ ∃ e',
      strayRaises.reverse.foldl Raise.apply (error (.ofMessage "boom")) = error e' ∧
      e'.path = some "a.pug" ∧ e'.line = some 4 ∧
      OneOrigin (strayRaises.reverse.map Raise.step) e' := by
  have hf : (RenderError.ofMessage "boom").Fresh := .ofMessage "boom"
  obtain ⟨e', hrun, hl, hp, hone⟩ := foldl_raise_origin hf strayRaises.reverse
  refine ⟨hf, e', hrun, hp, hl, hone.mpr fun s hs _ r hr => ?_⟩
  cases hs
  cases hr
  rfl

/-- In the order given, the line of the last step stands under the file of the first, though the
step in that file has another line. -/
theorem not_oneOrigin_stray :
    ∃ e', strayRaises.foldl Raise.apply (error (.ofMessage "boom")) = error e' ∧
      e'.path = some "a.pug" ∧ e'.line = some 7 ∧
      (∀ r ∈ strayRaises, r.step.site.filename = some "a.pug" → r.step.site.line ≠ 7) ∧
      ¬ OneOrigin (strayRaises.map Raise.step) e' := by
  have hlines : ∀ r ∈ strayRaises, r.step.site.filename = some "a.pug" → r.step.site.line ≠ 7 := by
    decide
  refine ⟨_, rfl, by decide, by decide, hlines, fun h => ?_⟩
  obtain ⟨s, hs, hf, hl⟩ := h "a.pug" (by decide)
  have hmem : s ∈ strayRaises.map Raise.step :=
    List.mem_reverse.mp (List.mem_of_find?_eq_some hs)
  obtain ⟨r, hr, rfl⟩ := List.mem_map.mp hmem
  exact hlines r hr hf (Option.some.inj hl).symm

end Failure

end Markup
