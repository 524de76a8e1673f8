import OfficeMachine.Program
import OfficeMachine.Work

namespace OfficeMachine

variable {ι : Type}

structure Config where
  budget : Nat
  trace : Bool
  deriving DecidableEq, Repr

def Config.default : Config := ⟨1000, false⟩

inductive Event where
  | step (executed pc : Nat) (instruction : Instruction) (hands : Value)
  | fault (pc : Nat) (instruction : Instruction) (fault : Fault)
  | halted (reason : Halt) (executed outputs : Nat)
  deriving DecidableEq, Repr

namespace Event

def level : Event → String
  | .step .. => "TRACE"
  | .fault .. => "WARN"
  | .halted .. => "DEBUG"

def message : Event → String
  | .step .. => "step"
  | .fault .. => "program fault"
  | .halted .. => "halted"

def details : Event → List (String × String)
  | .step executed pc instruction hands => [
      ("step", toString executed), ("pc", toString pc),
      ("instruction", instruction.text), ("hands", hands.text)]
  | .fault pc instruction f => [
      ("pc", toString pc), ("instruction", instruction.text),
      ("error", f.message), ("code", toString f.code)]
  | .halted reason executed outputs => [
      ("reason", reason.text), ("instructions", toString executed),
      ("outputs", toString outputs)]

end Event

structure Machine (ι : Type) where
  program : Program
  config : Config
  office : Office ι
  journal : Array Event
  deriving DecidableEq, Repr

structure Report where
  executed : Nat
  outputs : List Value
  remaining : List Value
  hands : Value
  floor : Floor
  halt : Halt
  deriving DecidableEq, Repr

def Report.success (r : Report) : Bool := r.halt.isNormal

namespace Machine

def new (program : Program) (floor : Floor) (inbox : ι) (config : Config) : Machine ι where
  program := program
  config := config
  office := ⟨.new, floor, .ofInbox inbox⟩
  journal := #[]

def worker (m : Machine ι) : Worker := m.office.worker

def halted (m : Machine ι) : Bool := m.worker.halted

def onWorker (m : Machine ι) (f : Worker → Worker) : Machine ι :=
  { m with office := { m.office with worker := f m.office.worker } }

def stop (m : Machine ι) (h : Halt) : Machine ι := m.onWorker (·.stop h)

def record (m : Machine ι) (e : Event) : Machine ι := { m with journal := m.journal.push e }

def next? (m : Machine ι) : Option Instruction := m.program.fetch? m.worker.pc

def budgetHalt [Inbox ι] (m : Machine ι) (i : Instruction) : Halt :=
  if i = .inbox ∧ Inbox.exhausted m.office.trays.inbox = true then .inputExhausted
  else .budgetExceeded m.config.budget

def perform [Inbox ι] (m : Machine ι) (i : Instruction) : Except Failure (Machine ι) :=
  let pc := m.worker.pc
  match m.office.execute i with
  | (.ok (), office) =>
      let m := { m with office := office }
      .ok (if m.halted then m else m.onWorker (·.count))
  | (.error (.fault f), office) =>
      let m := { m with office := office }
      .ok ((m.record (.fault pc i f)).stop (.fault f pc))
  | (.error e, _) => .error e

def trace (m : Machine ι) (i : Instruction) : Machine ι :=
  if m.config.trace then m.record (.step m.worker.executed m.worker.pc i m.worker.hands) else m

def cycle [Inbox ι] (m : Machine ι) : Except Failure (Machine ι) :=
  match m.next? with
  | none =>
      if m.worker.pc = m.program.length then .ok (m.stop .endOfProgram)
      else .error (.lostCounter m.worker.pc m.program.length)
  | some i =>
      if m.config.budget ≤ m.worker.executed then .ok (m.stop (m.budgetHalt i))
      else (m.trace i).perform i

def conclude (m : Machine ι) : Machine ι :=
  match m.worker.halt with
  | none => m
  | some h => m.record (.halted h m.worker.executed m.office.trays.outbox.size)

def step [Inbox ι] (m : Machine ι) : Except Failure (Machine ι) :=
  if m.halted then .ok m else conclude <$> m.cycle

def steps [Inbox ι] : Nat → Machine ι → Except Failure (Machine ι)
  | 0, m => .ok m
  | n + 1, m =>
      if m.halted then .ok m
      else
        match m.step with
        | .ok m => steps n m
        | .error e => .error e

def stepsLeft (m : Machine ι) : Nat := m.config.budget - m.worker.executed + 1

def finish [Inbox ι] (m : Machine ι) : Except Failure (Machine ι) := m.steps m.stepsLeft

def report [Inbox ι] (m : Machine ι) : Report where
  executed := m.worker.executed
  outputs := m.office.trays.outputs
  remaining := Inbox.remaining m.office.trays.inbox
  hands := m.worker.hands
  floor := m.office.floor
  halt := m.worker.halt.getD .endOfProgram

def run [Inbox ι] (m : Machine ι) : Except Failure Report := report <$> m.finish

end Machine

def run (program : Program) (room : Room) (inputs : List Value) :
    Option (Except Failure Report) := do
  let floor ← Floor.ofRoom? room
  return (Machine.new program floor (Batch.ofList inputs) .default).run

end OfficeMachine
