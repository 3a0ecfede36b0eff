import Mathlib.Data.List.Forall2

/-!
# Outcomes of computations that may fail

When a computation in steps has a result, and which of its failures it ends with: the first one.
-/

namespace Markup

variable {ε ε' α β : Type} {x : Except ε α}

/-! ### Results -/

theorem bind_eq_ok_iff {f : α → Except ε β} {b : β} :
    x >>= f = .ok b ↔ ∃ a, x = .ok a ∧ f a = .ok b := by
  cases x with
  | ok a => exact ⟨fun h => ⟨a, rfl, h⟩, fun ⟨_, ha, hb⟩ => by cases ha; exact hb⟩
  | error e => exact ⟨nofun, fun ⟨_, ha, _⟩ => by cases ha⟩

theorem bind_pure_eq_ok_iff {f : α → β} {b : β} :
    (x >>= fun a => pure (f a)) = .ok b ↔ ∃ a, x = .ok a ∧ b = f a := by
  rw [bind_eq_ok_iff]
  refine exists_congr fun a => and_congr_right fun _ => ?_
  exact ⟨fun h => by cases h; rfl, fun h => by rw [h]; rfl⟩

theorem mapError_eq_ok_iff {f : ε → ε'} {a : α} : x.mapError f = .ok a ↔ x = .ok a := by
  cases x with
  | ok b => exact ⟨fun h => by cases h; rfl, fun h => by cases h; rfl⟩
  | error e => exact ⟨nofun, nofun⟩

theorem toOption_eq_some_iff {a : α} : x.toOption = some a ↔ x = .ok a := by
  cases x <;> simp [Except.toOption]

theorem mapM_eq_ok_iff {f : α → Except ε β} {as : List α} {bs : List β} :
    as.mapM f = .ok bs ↔ List.Forall₂ (fun a b => f a = .ok b) as bs := by
  induction as generalizing bs with
  | nil =>
    rw [List.mapM_nil, List.forall₂_nil_left_iff]
    exact ⟨fun h => by cases h; rfl, fun h => by rw [h]; rfl⟩
  | cons a as ih =>
    rw [List.mapM_cons, bind_eq_ok_iff, List.forall₂_cons_left_iff]
    simp only [bind_pure_eq_ok_iff, ih]
    constructor
    · rintro ⟨b, hb, bs', hbs', rfl⟩
      exact ⟨b, bs', hb, hbs', rfl⟩
    · rintro ⟨b, bs', hb, hbs', rfl⟩
      exact ⟨b, hb, bs', hbs', rfl⟩

/-! ### Failures -/

/-- The failure that a computation ends with. -/
def failureOf? : Except ε α → Option ε
  | .ok _ => none
  | .error e => some e

theorem failureOf?_eq_some_iff {e : ε} : failureOf? x = some e ↔ x = .error e := by
  cases x <;> simp [failureOf?]

theorem failureOf?_mapError (x : Except ε α) (f : ε → ε') :
    failureOf? (x.mapError f) = (failureOf? x).map f := by
  cases x <;> rfl

/-- A computation in two steps ends with the failure of the first, or else that of the second. -/
theorem failureOf?_bind {f : α → Except ε β} {second : Option ε}
    (h : ∀ a, x = .ok a → failureOf? (f a) = second) :
    failureOf? (x >>= f) = (failureOf? x).or second := by
  cases x with
  | ok a => exact h a rfl
  | error e => rfl

theorem failureOf?_bind_pure (x : Except ε α) (f : α → β) :
    failureOf? (x >>= fun a => pure (f a)) = failureOf? x := by
  cases x <;> rfl

theorem failureOf?_mapM (f : α → Except ε β) (as : List α) :
    failureOf? (as.mapM f) = as.findSome? fun a => failureOf? (f a) := by
  induction as with
  | nil => rfl
  | cons a as ih =>
    have hrest (b : β) : failureOf? (do return b :: (← as.mapM f)) = failureOf? (as.mapM f) :=
      failureOf?_bind_pure _ _
    rw [List.mapM_cons, failureOf?_bind fun b _ => hrest b, ih, List.findSome?_cons]
    cases failureOf? (f a) <;> rfl

theorem findSome?_flatMap (as : List α) (f : α → List β) (found? : β → Option ε) :
    (as.flatMap f).findSome? found? = as.findSome? fun a => (f a).findSome? found? := by
  induction as with
  | nil => rfl
  | cons a as ih =>
    rw [List.flatMap_cons, List.findSome?_append, ih, List.findSome?_cons]
    cases (f a).findSome? found? <;> rfl

end Markup
