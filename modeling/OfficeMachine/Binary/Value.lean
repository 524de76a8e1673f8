import OfficeMachine.Binary

namespace OfficeMachine

open Binary

def Number.toBytes (n : Number) : Bytes := Binary.ofNat 2 (n.val % 65536).toNat

def Number.read : Reader Number := do
  let n ← readNat 2
  ofBuild (Number.ofInt (Int.bmod n 65536))

def Letter.toBytes (c : Letter) : Bytes := Binary.ofChar c.char

def Letter.read : Reader Letter := do
  let c ← readChar
  ofBuild (Letter.ofChar c)

namespace Value

def Kind.index (k : Kind) : Nat := Kind.all.idxOf k

def Kind.ofIndex? (n : Nat) : Option Kind := Kind.all[n]?

theorem Kind.ofIndex?_eq_some {n : Nat} {k : Kind} : Kind.ofIndex? n = some k ↔ n = k.index := by
  constructor
  · intro h
    have hn : n < Kind.all.length := (List.getElem?_eq_some_iff.mp h).1
    have hall : ∀ i < Kind.all.length, (Kind.ofIndex? i).map Kind.index = some i := by decide
    have hi := hall n hn
    rw [h] at hi
    exact (Option.some.inj hi).symm
  · rintro rfl
    cases k <;> rfl

def Kind.toBytes (k : Kind) : Bytes := ofTag k.index

def Kind.read : Reader Kind := do
  ofOption (Kind.ofIndex? (← readTag))

def payloadBytes : Value → Bytes
  | .empty => []
  | .number n => n.toBytes
  | .letter c => c.toBytes
  | .tileAddress a => ofWord a
  | .lineAddress a => ofWord a

def toBytes (v : Value) : Bytes := v.kind.toBytes ++ v.payloadBytes

def readPayload : Kind → Reader Value
  | .empty => return .empty
  | .number => return .number (← Number.read)
  | .letter => return .letter (← Letter.read)
  | .tileAddress => return .tileAddress (← readWord)
  | .lineAddress => return .lineAddress (← readWord)

def read : Reader Value := do
  readPayload (← Kind.read)

end Value

def Opcode.toBytes (o : Opcode) : Bytes := ofTag o.code

def Opcode.read : Reader Opcode := do
  ofOption (Opcode.ofCode? (← readTag))

namespace Parameter

def index (p : Parameter) : Nat := all.idxOf p

def ofIndex? (n : Nat) : Option Parameter := all[n]?

def toBytes (p : Parameter) : Bytes := ofTag p.index

def read : Reader Parameter := do
  ofOption (ofIndex? (← readTag))

end Parameter

end OfficeMachine
