import OfficeMachine.Json
import OfficeMachine.LoadError

namespace OfficeMachine

namespace Json

def once {α : Type} (seen : Option α) (read : Loaded α) : Loaded (Option α) :=
  match seen with
  | some _ => .error .malformed
  | none => some <$> read

def required {α : Type} (seen : Option α) : Loaded α := .ofOption seen

def pair {α β : Type} (first : Json → Loaded α) (second : Json → Loaded β) :
    List Json → Loaded (α × β)
  | a :: b :: rest => do
      let x ← first a
      let y ← second b
      if rest.isEmpty then return (x, y) else .error .malformed
  | _ => .error .malformed

end Json

end OfficeMachine
