import OfficeMachine.Binary.Value
import OfficeMachine.Program

namespace OfficeMachine

open Binary

namespace Instruction

def parameterToBytes : Option Value → Bytes
  | none => [0]
  | some v => 1 :: v.toBytes

def readParameter : Reader (Option Value) := do
  match ← readByte with
  | 0 => return none
  | 1 => return some (← Value.read)
  | _ => malformed

def toBytes (i : Instruction) : Bytes := i.opcode.toBytes ++ parameterToBytes i.parameter

def readParts : Reader (Opcode × Option Value) := do
  let opcode ← Opcode.read
  let parameter ← readParameter
  return (opcode, parameter)

def read : Reader Instruction := do
  let (opcode, parameter) ← readParts
  ofBuild (build opcode parameter)

end Instruction

namespace Program

def toBytes (p : Program) : Bytes := Binary.ofList Instruction.toBytes p.authored

def read : Reader Program := do
  let lines ← readList Instruction.read
  ofBuild (assemble lines)

end Program

end OfficeMachine
