import OfficeMachine.Json.Fields
import OfficeMachine.Json.Value
import OfficeMachine.Program

namespace OfficeMachine

namespace Instruction

def parameterToJson : Option Value → Json
  | none => .null
  | some v => v.toJson

def parameterOfJson : Json → Loaded (Option Value)
  | .null => .ok none
  | j => some <$> Value.ofJson j

def toJson (i : Instruction) : Json :=
  .obj [("opcode", i.opcode.toJson), ("param", parameterToJson i.parameter)]

def readField (found : Option Opcode × Option (Option Value)) :
    String × Json → Loaded (Option Opcode × Option (Option Value))
  | (name, j) =>
      if name = "opcode" then (·, found.2) <$> Json.once found.1 (Opcode.ofJson j)
      else if name = "param" then (found.1, ·) <$> Json.once found.2 (parameterOfJson j)
      else .ok found

def partsOfJson : Json → Loaded (Opcode × Option Value)
  | .obj fields => do
      let (opcode, parameter) ← fields.foldlM readField (none, none)
      return (← Json.required opcode, parameter.getD none)
  | .arr items => Json.pair Opcode.ofJson parameterOfJson items
  | _ => .error .malformed

def ofJson (j : Json) : Loaded Instruction := do
  let (opcode, parameter) ← partsOfJson j
  .ofBuild (build opcode parameter)

end Instruction

namespace Program

def toJson (p : Program) : Json := .arr (p.authored.map Instruction.toJson)

def ofJson : Json → Loaded Program
  | .arr items => do
      let lines ← items.mapM Instruction.ofJson
      .ofBuild (assemble lines)
  | _ => .error .malformed

end Program

end OfficeMachine
