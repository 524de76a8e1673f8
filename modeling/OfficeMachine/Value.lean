import OfficeMachine.Letter
import OfficeMachine.Number

namespace OfficeMachine

inductive Value where
  | empty
  | number (n : Number)
  | letter (c : Letter)
  | tileAddress (a : UInt64)
  | lineAddress (a : UInt64)
  deriving DecidableEq, Repr

namespace Value

inductive Kind where
  | empty
  | number
  | letter
  | tileAddress
  | lineAddress
  deriving DecidableEq, Repr

def Kind.all : List Kind := [.empty, .number, .letter, .tileAddress, .lineAddress]

def Kind.text : Kind → String
  | .empty => "empty"
  | .number => "number"
  | .letter => "character"
  | .tileAddress => "memory address"
  | .lineAddress => "program address"

def kind : Value → Kind
  | .empty => .empty
  | .number _ => .number
  | .letter _ => .letter
  | .tileAddress _ => .tileAddress
  | .lineAddress _ => .lineAddress

def isEmpty : Value → Bool
  | .empty => true
  | _ => false

@[simp]
theorem isEmpty_iff {v : Value} : v.isEmpty = true ↔ v = .empty := by
  cases v <;> simp [isEmpty]

instance : Inhabited Value := ⟨.empty⟩

def text : Value → String
  | .empty => "_"
  | .number n => n.text
  | .letter c => c.text
  | .tileAddress a => s!"[{a.toNat}]"
  | .lineAddress a => s!"@{a.toNat}"

end Value

end OfficeMachine
