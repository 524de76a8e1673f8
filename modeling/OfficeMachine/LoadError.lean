import OfficeMachine.BuildError

namespace OfficeMachine

inductive LoadError where
  | malformed
  | rejected (e : BuildError)
  deriving DecidableEq, Repr

def LoadError.message? : LoadError → Option String
  | .malformed => none
  | .rejected e => some e.message

abbrev Loaded := Except LoadError

def Loaded.ofBuild {α : Type} : Except BuildError α → Loaded α
  | .ok a => .ok a
  | .error e => .error (.rejected e)

def Loaded.ofOption {α : Type} : Option α → Loaded α
  | some a => .ok a
  | none => .error .malformed

namespace Loaded

variable {α β : Type}

@[simp]
theorem ofBuild_ok (a : α) : ofBuild (.ok a) = .ok a := rfl

@[simp]
theorem ofOption_some (a : α) : ofOption (some a) = .ok a := rfl

@[simp]
theorem ok_bind (a : α) (f : α → Loaded β) : (Except.ok a : Loaded α) >>= f = f a := rfl

@[simp]
theorem map_ok (f : α → β) (a : α) : f <$> (Except.ok a : Loaded α) = .ok (f a) := rfl

@[simp]
theorem pure_eq_ok (a : α) : (pure a : Loaded α) = .ok a := rfl

theorem bind_eq_ok {x : Loaded α} {f : α → Loaded β} {b : β} :
    x >>= f = .ok b ↔ ∃ a, x = .ok a ∧ f a = .ok b := by
  cases x with
  | error e =>
      constructor
      · intro h
        cases h
      · rintro ⟨a, h, _⟩
        cases h
  | ok a => simp

end Loaded

end OfficeMachine
