
/-! Steps that may fail and keep a state all the same. Such a step comes to an outcome: an answer,
and the state that it leaves in either case. -/
namespace Dartify

variable {ε σ α β : Type}

def outcome (step : ExceptT ε (StateM σ) α) (s : σ) : Except ε α × σ := step.run.run s

theorem outcome_bind (step : ExceptT ε (StateM σ) α) (next : α → ExceptT ε (StateM σ) β) (s : σ) :
    outcome (step >>= next) s =
      match outcome step s with
      | (.ok a, s') => outcome (next a) s'
      | (.error e, s') => (.error e, s') := by
  have run : outcome (step >>= next) s =
      (ExceptT.bindCont next (outcome step s).1 : StateM σ _).run (outcome step s).2 := rfl
  rw [run]
  obtain ⟨answer, s'⟩ := outcome step s
  cases answer <;> rfl

theorem outcome_bind_ok {step : ExceptT ε (StateM σ) α} {s s' : σ} {a : α}
    (done : outcome step s = (.ok a, s')) (next : α → ExceptT ε (StateM σ) β) :
    outcome (step >>= next) s = outcome (next a) s' := by
  rw [outcome_bind, done]

theorem outcome_bind_error {step : ExceptT ε (StateM σ) α} {s s' : σ} {e : ε}
    (failed : outcome step s = (.error e, s')) (next : α → ExceptT ε (StateM σ) β) :
    outcome (step >>= next) s = (.error e, s') := by
  rw [outcome_bind, failed]

theorem bind_ok {step : ExceptT ε (StateM σ) α} {next : α → ExceptT ε (StateM σ) β} {s s' : σ}
    {b : β} (done : outcome (step >>= next) s = (.ok b, s')) :
    ∃ a middle, outcome step s = (.ok a, middle) ∧ outcome (next a) middle = (.ok b, s') := by
  rw [outcome_bind] at done
  split at done
  · rename_i a middle first
    exact ⟨a, middle, first, done⟩
  · cases done

/-! ## Answers that can be computed -/

theorem ok_of_toOption {answer : Except ε α} {a : α} (h : answer.toOption = some a) :
    answer = .ok a := by
  cases answer with
  | ok b => exact congrArg Except.ok (Option.some.inj h)
  | error e => cases h

theorem exists_ok_of_any {answer : Except ε α} {test : α → Bool}
    (h : answer.toOption.any test = true) : ∃ a, answer = .ok a ∧ test a = true := by
  cases answer with
  | ok a => exact ⟨a, rfl, h⟩
  | error e => cases h

end Dartify
