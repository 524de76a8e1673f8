namespace OfficeMachine

structure Letter where
  char : Char
  lower : 'A' ≤ char
  upper : char ≤ 'Z'
  deriving DecidableEq, Repr

namespace Letter

@[ext]
theorem ext : ∀ {a b : Letter}, a.char = b.char → a = b
  | ⟨_, _, _⟩, ⟨_, _, _⟩, rfl => rfl

def ofChar? (c : Char) : Option Letter :=
  if h : 'A' ≤ c ∧ c ≤ 'Z' then some ⟨c, h.1, h.2⟩ else none

theorem ofChar?_char (a : Letter) : ofChar? a.char = some a := by
  simp [ofChar?, a.lower, a.upper]

theorem ofChar?_eq_some {c : Char} {a : Letter} : ofChar? c = some a ↔ a.char = c := by
  constructor
  · intro h
    unfold ofChar? at h
    split at h
    · simp only [Option.some.injEq] at h; rw [← h]
    · simp at h
  · rintro rfl
    exact ofChar?_char a

def text (a : Letter) : String := String.singleton a.char

end Letter

end OfficeMachine
