import OfficeMachine.Floor
import OfficeMachine.Inbox

namespace OfficeMachine

inductive Halt where
  | inputExhausted
  | endOfProgram
  | cancelled
  | fault (f : Fault) (pc : Nat)
  | budgetExceeded (limit : Nat)
  deriving DecidableEq, Repr

namespace Halt

def isNormal : Halt → Bool
  | .inputExhausted | .endOfProgram => true
  | _ => false

def fault? : Halt → Option Fault
  | .fault f _ => some f
  | _ => none

def isFault (h : Halt) : Bool := h.fault?.isSome

def text : Halt → String
  | .inputExhausted => "InputExhausted"
  | .endOfProgram => "EndOfProgram"
  | .cancelled => "Cancelled"
  | .fault f pc => "Error \x7b kind: " ++ f.name ++ ", pc: " ++ toString pc ++ " \x7d"
  | .budgetExceeded limit => "BudgetExceeded \x7b limit: " ++ toString limit ++ " \x7d"

end Halt

structure Worker where
  hands : Value
  pc : Nat
  executed : Nat
  halted : Bool
  halt : Option Halt
  deriving DecidableEq, Repr

namespace Worker

def new : Worker := ⟨.empty, 0, 0, false, none⟩

def hold (w : Worker) (v : Value) : Worker := { w with hands := v }

def release (w : Worker) : Value × Worker := (w.hands, w.hold .empty)

def advance (w : Worker) : Worker := { w with pc := w.pc + 1 }

def goTo (w : Worker) (pc : Nat) : Worker := { w with pc := pc }

def count (w : Worker) : Worker := { w with executed := w.executed + 1 }

def stop (w : Worker) (h : Halt) : Worker := { w with halted := true, halt := some h }

end Worker

structure Trays (ι : Type) where
  inbox : ι
  outbox : Array Value
  deriving DecidableEq, Repr

namespace Trays

variable {ι : Type}

def ofInbox (inbox : ι) : Trays ι := ⟨inbox, #[]⟩

def receive [Inbox ι] (t : Trays ι) : Delivery × Trays ι :=
  let (d, inbox) := Inbox.receive t.inbox
  (d, { t with inbox := inbox })

def deliver (t : Trays ι) (v : Value) : Trays ι := { t with outbox := t.outbox.push v }

def outputs (t : Trays ι) : List Value := t.outbox.toList

def collect (t : Trays ι) : List Value × Trays ι := (t.outputs, { t with outbox := #[] })

@[simp]
theorem outputs_deliver (t : Trays ι) (v : Value) : (t.deliver v).outputs = t.outputs ++ [v] := by
  simp [outputs, deliver]

end Trays

structure Office (ι : Type) where
  worker : Worker
  floor : Floor
  trays : Trays ι
  deriving DecidableEq, Repr

end OfficeMachine
