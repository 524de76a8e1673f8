import OfficeMachine.Json
import OfficeMachine.LoadError

namespace OfficeMachine

def Json.word (n : UInt64) : Json := .int n.toNat

def Json.word? : Json → Loaded UInt64
  | .int n => if 0 ≤ n ∧ n < UInt64.size then .ok (UInt64.ofNat n.toNat) else .error .malformed
  | _ => .error .malformed

def Number.toJson (n : Number) : Json := .int n.val

def Number.ofJson : Json → Loaded Number
  | .int n => if -32768 ≤ n ∧ n < 32768 then .ofBuild (Number.ofInt n) else .error .malformed
  | _ => .error .malformed

def Letter.toJson (c : Letter) : Json := .str (String.singleton c.char)

def Letter.ofJson : Json → Loaded Letter
  | .str s =>
      match s.toList with
      | [c] => .ofBuild (Letter.ofChar c)
      | _ => .error .malformed
  | _ => .error .malformed

namespace Value

def Kind.tag : Kind → String
  | .empty => "Empty"
  | .number => "Number"
  | .letter => "Character"
  | .tileAddress => "MemoryAddress"
  | .lineAddress => "ProgramAddress"

def Kind.ofTag? (s : String) : Option Kind := Kind.all.find? fun k => k.tag == s

def Kind.toJson (k : Kind) : Json := .str k.tag

def Kind.ofJson (j : Json) : Loaded Kind := .ofOption (j.bare?.bind Kind.ofTag?)

def toJson : Value → Json
  | .empty => .str Kind.empty.tag
  | .number n => .obj [(Kind.number.tag, n.toJson)]
  | .letter c => .obj [(Kind.letter.tag, c.toJson)]
  | .tileAddress a => .obj [(Kind.tileAddress.tag, .word a)]
  | .lineAddress a => .obj [(Kind.lineAddress.tag, .word a)]

def ofPayload : Kind → Option Json → Loaded Value
  | .empty, none | .empty, some .null => .ok .empty
  | .number, some j => Value.number <$> Number.ofJson j
  | .letter, some j => Value.letter <$> Letter.ofJson j
  | .tileAddress, some j => Value.tileAddress <$> j.word?
  | .lineAddress, some j => Value.lineAddress <$> j.word?
  | _, _ => .error .malformed

def ofJson (j : Json) : Loaded Value := do
  let (tag, payload) ← .ofOption j.variant?
  let k ← .ofOption (Kind.ofTag? tag)
  ofPayload k payload

end Value

namespace Opcode

def tileTag : TileOp → String
  | .copyFrom => "CopyFrom"
  | .copyTo => "CopyTo"
  | .add => "Add"
  | .sub => "Sub"
  | .bumpUp => "BumpUp"
  | .bumpDown => "BumpDown"

def branchTag : Branch → String
  | .always => "Jump"
  | .ifZero => "JumpIfZero"
  | .ifNegative => "JumpIfNegative"

def tag : Opcode → String
  | .inbox => "Inbox"
  | .outbox => "Outbox"
  | .tile op .direct => tileTag op
  | .tile op .indirect => tileTag op ++ "Indirect"
  | .jump branch => branchTag branch

def ofTag? (s : String) : Option Opcode := all.find? fun o => o.tag == s

def toJson (o : Opcode) : Json := .str o.tag

def ofJson (j : Json) : Loaded Opcode := .ofOption (j.bare?.bind ofTag?)

end Opcode

namespace Parameter

def tag : Parameter → String
  | .absent => "None"
  | .tile => "MemoryAddress"
  | .line => "ProgramAddress"

def ofTag? (s : String) : Option Parameter := all.find? fun p => p.tag == s

def toJson (p : Parameter) : Json := .str p.tag

def ofJson (j : Json) : Loaded Parameter := .ofOption (j.bare?.bind ofTag?)

end Parameter

end OfficeMachine
