import OfficeMachine.Opcode
import OfficeMachine.Text.Quoted
import OfficeMachine.Value

namespace OfficeMachine

inductive BuildError where
  | invalidNumber (n : Int)
  | invalidLetter (c : Char)
  | notANumber (found : Value.Kind)
  | wrongParameter (opcode : Opcode) (found : Option Value.Kind)
  | strayJump (line : Nat) (target : UInt64) (length : Nat)
  | strayCell (index : UInt64) (size : UInt64)
  deriving DecidableEq, Repr

namespace BuildError

def foundText : Option Value.Kind → String
  | none => "no parameter"
  | some k => k.text

def message : BuildError → String
  | .invalidNumber n => "Invalid number: " ++ Int.repr n ++ " (valid range: -999..=999)"
  | .invalidLetter c => "Invalid character: " ++ Text.quoted c ++ " (valid range: 'A'..='Z')"
  | .notANumber found => "Expected a number, found " ++ found.text
  | .wrongParameter opcode found =>
      opcode.name ++ " expects " ++ opcode.parameter.text ++ ", found " ++ foundText found
  | .strayJump line target length =>
      s!"Jump target {target.toNat} at instruction {line} is outside 1..={length}"
  | .strayCell index size =>
      s!"Room cell {index.toNat} is outside a floor of {size.toNat} tiles"

def isValueError : BuildError → Bool
  | .invalidNumber _ | .invalidLetter _ | .notANumber _ => true
  | _ => false

end BuildError

def Number.ofInt (n : Int) : Except BuildError Number :=
  match ofInt? n with
  | some a => .ok a
  | none => .error (.invalidNumber n)

theorem Number.ofInt_val (a : Number) : ofInt a.val = .ok a := by
  simp [ofInt, ofInt?_val]

theorem Number.ofInt_eq_ok {n : Int} {a : Number} : ofInt n = .ok a ↔ a.val = n := by
  unfold ofInt
  rw [← ofInt?_eq_some]
  cases ofInt? n <;> simp

def Letter.ofChar (c : Char) : Except BuildError Letter :=
  match ofChar? c with
  | some a => .ok a
  | none => .error (.invalidLetter c)

theorem Letter.ofChar_char (a : Letter) : ofChar a.char = .ok a := by
  simp [ofChar, ofChar?_char]

theorem Letter.ofChar_eq_ok {c : Char} {a : Letter} : ofChar c = .ok a ↔ a.char = c := by
  unfold ofChar
  rw [← ofChar?_eq_some]
  cases ofChar? c <;> simp

namespace Value

def ofInt (n : Int) : Except BuildError Value := Value.number <$> Number.ofInt n

def ofChar (c : Char) : Except BuildError Value := Value.letter <$> Letter.ofChar c

def asNumber : Value → Except BuildError Number
  | .number n => .ok n
  | v => .error (.notANumber v.kind)

def numbers (ns : List Int) : Except BuildError (List Value) := ns.mapM ofInt

theorem numbers_cons {ns : List Int} {vs : List Value} (n : Number) (h : numbers ns = .ok vs) :
    numbers (n.val :: ns) = .ok (.number n :: vs) := by
  have hn : ofInt n.val = .ok (.number n) := by
    rw [ofInt, Number.ofInt_val]
    rfl
  have hns : ns.mapM ofInt = .ok vs := h
  rw [numbers, List.mapM_cons, hn, hns]
  rfl

theorem numbers_append {ms ns : List Int} {us vs : List Value} (hm : numbers ms = .ok us)
    (hn : numbers ns = .ok vs) : numbers (ms ++ ns) = .ok (us ++ vs) := by
  have hms : ms.mapM ofInt = .ok us := hm
  have hns : ns.mapM ofInt = .ok vs := hn
  rw [numbers, List.mapM_append, hms, hns]
  rfl

def letters (s : String) : Except BuildError (List Value) := s.toList.mapM ofChar

end Value

end OfficeMachine
