/-
# Steps that can fail

What it takes for steps in a row to succeed: each succeeds on what the one before it gave. Where
they look for defects, the first step that finds one ends the work.

Key definitions: `Outcomes.Tracks`, `Outcomes.FailsBy`.
Key theorems: `Outcomes.bind_eq_ok`, `Outcomes.check_bind_eq_ok`, `Outcomes.Tracks.bind`,
`Outcomes.FailsBy.bind`.
-/
namespace DataTerms
namespace Outcomes

variable {ε ε' α β : Type}

@[simp] theorem pure_eq (a : α) : (pure a : Except ε α) = .ok a := rfl

@[simp] theorem ok_bind (a : α) (next : α → Except ε β) : (.ok a >>= next) = next a := rfl

@[simp] theorem error_bind (error : ε) (next : α → Except ε β) :
    (.error error >>= next) = .error error := rfl

/-- Two steps succeed when the first does and the second does on its value. -/
theorem bind_eq_ok {first : Except ε α} {next : α → Except ε β} {b : β} :
    (first >>= next) = .ok b ↔ ∃ a, first = .ok a ∧ next a = .ok b := by
  cases first <;> simp

/-- A check and a step succeed when both do. -/
theorem check_bind_eq_ok {check : Except ε Unit} {next : Unit → Except ε β} {b : β} :
    (check >>= next) = .ok b ↔ check = .ok () ∧ next () = .ok b := by
  cases check <;> simp

/-- Another error in the place of a step's own leaves its success as it is. -/
@[simp] theorem mapError_eq_ok {f : ε → ε'} {step : Except ε α} {a : α} :
    step.mapError f = .ok a ↔ step = .ok a := by
  cases step with
  | ok value =>
    exact ⟨fun h => congrArg Except.ok (Except.ok.inj h),
      fun h => congrArg Except.ok (Except.ok.inj h)⟩
  | error error => exact ⟨nofun, nofun⟩

/-- What a step gives is told by whether it gives something, and what. -/
theorem eq_ok_of_toOption {step : Except ε α} {a : α} (h : step.toOption = some a) :
    step = .ok a := by
  cases step with
  | ok value => exact congrArg Except.ok (Option.some.inj h)
  | error error => cases h

/-! ### Defects -/

section Defects

variable {δ : Type} {wrong : δ → ε → Prop} {defect defect' : Option δ}

/-- A step succeeds where there is no defect, and fails with an error for the one there is. -/
def Tracks (wrong : δ → ε → Prop) (defect : Option δ) : Except ε α → Prop
  | .ok _ => defect = none
  | .error error => ∃ d, defect = some d ∧ wrong d error

namespace Tracks

/-- A step after another meets the defects of the second where the first has none. -/
theorem bind {first : Except ε α} {next : α → Except ε β} (h : Tracks wrong defect first)
    (h' : ∀ a, Tracks wrong defect' (next a)) : Tracks wrong (defect.or defect') (first >>= next) := by
  cases first with
  | error error =>
    obtain ⟨d, rfl, hd⟩ := h
    exact ⟨d, rfl, hd⟩
  | ok a =>
    obtain rfl : defect = none := h
    exact h' a

/-- What is made of a result has no defects of its own. -/
theorem map {step : Except ε α} (h : Tracks wrong defect step) (f : α → β) :
    Tracks wrong defect (step >>= fun a => .ok (f a)) := by
  cases step with
  | error error => exact h
  | ok a => exact h

/-- Defects that are named in another way. -/
theorem relabel {δ' : Type} {wrong' : δ' → ε → Prop} {f : δ → δ'} {step : Except ε α}
    (h : Tracks wrong defect step) (hf : ∀ d error, wrong d error → wrong' (f d) error) :
    Tracks wrong' (defect.map f) step := by
  cases step with
  | error error =>
    obtain ⟨d, rfl, hd⟩ := h
    exact ⟨f d, rfl, hf d error hd⟩
  | ok a =>
    obtain rfl : defect = none := h
    rfl

theorem exists_ok {step : Except ε α} (h : Tracks wrong none step) : ∃ a, step = .ok a := by
  cases step with
  | error error =>
    obtain ⟨d, hnone, -⟩ := h
    cases hnone
  | ok a => exact ⟨a, rfl⟩

theorem exists_error {d : δ} {step : Except ε α} (h : Tracks wrong (some d) step) :
    ∃ error, step = .error error ∧ wrong d error := by
  cases step with
  | error error =>
    obtain ⟨d', hsome, hd⟩ := h
    exact ⟨error, rfl, Option.some.inj hsome ▸ hd⟩
  | ok a => cases h

end Tracks

end Defects

/-! ### Errors -/

/-- A step fails by errors of one sort only. -/
def FailsBy (sort : ε → Prop) (step : Except ε α) : Prop := ∀ error, step = .error error → sort error

namespace FailsBy

variable {sort : ε → Prop}

theorem of_ok (a : α) : FailsBy sort (.ok a : Except ε α) := nofun

theorem of_error {error : ε} (h : sort error) : FailsBy sort (.error error : Except ε α) := by
  intro error' heq
  rwa [← Except.error.inj heq]

/-- Errors of a sort are of any wider one. -/
theorem imp {sort' : ε → Prop} {step : Except ε α} (h : FailsBy sort step)
    (hsort : ∀ error, sort error → sort' error) : FailsBy sort' step :=
  fun error heq => hsort error (h error heq)

/-- Steps in a row fail by errors of a sort if the first does and the second does on what the
first gave. -/
theorem bind {first : Except ε α} {next : α → Except ε β} (h : FailsBy sort first)
    (h' : ∀ a, first = .ok a → FailsBy sort (next a)) : FailsBy sort (first >>= next) := by
  cases first with
  | error error => exact fun error' heq => h error' (by rw [← Except.error.inj heq])
  | ok a => exact h' a rfl

/-- A step whose errors of a sort are replaced by those of another. -/
theorem mapError_of {sort' : ε' → Prop} {f : ε → ε'} {step : Except ε α} (h : FailsBy sort step)
    (hsort : ∀ error, sort error → sort' (f error)) : FailsBy sort' (step.mapError f) := by
  cases step with
  | error error => exact of_error (hsort error (h error rfl))
  | ok a => exact of_ok a

/-- A step whose errors are replaced by those of a sort. -/
theorem mapError {sort : ε' → Prop} {f : ε → ε'} (h : ∀ error, sort (f error))
    (step : Except ε α) : FailsBy sort (step.mapError f) := by
  have hany : FailsBy (fun _ => True) step := fun _ _ => trivial
  exact hany.mapError_of fun error _ => h error

end FailsBy

end Outcomes
end DataTerms
