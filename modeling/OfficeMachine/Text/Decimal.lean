import Std.Data.String.ToNat

namespace OfficeMachine.Text

def decimal (n : Nat) : String := Nat.repr n

def decimal? (s : String) : Option Nat := s.toNat?.filter fun n => decimal n == s

theorem decimal?_decimal (n : Nat) : decimal? (decimal n) = some n := by
  simp [decimal?, decimal, Nat.toNat?_repr]

end OfficeMachine.Text
