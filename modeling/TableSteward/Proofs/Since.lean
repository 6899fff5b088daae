import Mathlib.Data.List.Induction

/-!
# What holds since a step

A run is a list of steps.  `Since marks spoils run` says that some step of the run marks, and that none after it
spoils.  Both may depend on the part of the run before the step.
-/
set_option autoImplicit false

namespace TableSteward

variable {Step : Type}

def Since (marks spoils : List Step → Step → Prop) (run : List Step) : Prop :=
  ∃ before step later, run = before ++ step :: later ∧ marks before step ∧
    ∀ first next last, later = first ++ next :: last → ¬ spoils (before ++ step :: first) next

variable {marks spoils : List Step → Step → Prop} {run : List Step} {step : Step}

theorem not_since_nil : ¬ Since marks spoils [] := by
  rintro ⟨before, step, later, hrun, -⟩
  simp at hrun

/-- A step more: it marks, or what held before is not spoilt by it. -/
theorem since_concat :
    Since marks spoils (run ++ [step]) ↔ marks run step ∨ (Since marks spoils run ∧ ¬ spoils run step) := by
  constructor
  · rintro ⟨before, marked, later, hrun, hmarks, hspoils⟩
    rcases List.eq_nil_or_concat later with rfl | ⟨front, last, rfl⟩
    · obtain ⟨rfl, hstep⟩ := List.append_inj' hrun rfl
      obtain rfl := List.singleton_inj.mp hstep
      exact .inl hmarks
    · have hrun' : run ++ [step] = (before ++ marked :: front) ++ [last] := by simpa using hrun
      obtain ⟨rfl, hstep⟩ := List.append_inj' hrun' rfl
      obtain rfl := List.singleton_inj.mp hstep
      refine .inr ⟨⟨before, marked, front, rfl, hmarks, ?_⟩, hspoils front step [] (by simp)⟩
      intro first next rest hfront
      exact hspoils first next (rest ++ [step]) (by simp [hfront])
  · rintro (hmarks | ⟨⟨before, marked, later, rfl, hmarks, hspoils⟩, hstep⟩)
    · refine ⟨run, step, [], rfl, hmarks, ?_⟩
      intro first next last hnil
      simp at hnil
    · refine ⟨before, marked, later ++ [step], by simp, hmarks, ?_⟩
      intro first next last hlater
      rcases List.eq_nil_or_concat last with rfl | ⟨front, final, rfl⟩
      · obtain ⟨rfl, hnext⟩ := List.append_inj' hlater rfl
        obtain rfl := List.singleton_inj.mp hnext
        exact hstep
      · have hlater' : later ++ [step] = (first ++ next :: front) ++ [final] := by simpa using hlater
        exact hspoils first next front (List.append_inj' hlater' rfl).1

end TableSteward
