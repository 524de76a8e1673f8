namespace OfficeMachine

inductive Mode where
  | direct
  | indirect
  deriving DecidableEq, Repr

inductive TileOp where
  | copyFrom
  | copyTo
  | add
  | sub
  | bumpUp
  | bumpDown
  deriving DecidableEq, Repr

inductive Branch where
  | always
  | ifZero
  | ifNegative
  deriving DecidableEq, Repr

inductive Opcode where
  | inbox
  | outbox
  | tile (op : TileOp) (mode : Mode)
  | jump (branch : Branch)
  deriving DecidableEq, Repr

inductive Parameter where
  | absent
  | tile
  | line
  deriving DecidableEq, Repr

def Parameter.all : List Parameter := [.absent, .tile, .line]

def Parameter.text : Parameter → String
  | .absent => "no parameter"
  | .tile => "a memory address"
  | .line => "a program address"

def TileOp.name : TileOp → String
  | .copyFrom => "COPYFROM"
  | .copyTo => "COPYTO"
  | .add => "ADD"
  | .sub => "SUB"
  | .bumpUp => "BUMP_UP"
  | .bumpDown => "BUMP_DOWN"

def TileOp.mnemonic : TileOp → String
  | .copyFrom => "COPYFROM"
  | .copyTo => "COPYTO"
  | .add => "ADD"
  | .sub => "SUB"
  | .bumpUp => "BUMPUP"
  | .bumpDown => "BUMPDN"

def Branch.name : Branch → String
  | .always => "JUMP"
  | .ifZero => "JUMP_IF_ZERO"
  | .ifNegative => "JUMP_IF_NEGATIVE"

def Branch.mnemonic : Branch → String
  | .always => "JUMP"
  | .ifZero => "JUMPZ"
  | .ifNegative => "JUMPN"

namespace Opcode

def all : List Opcode := [
  .inbox, .outbox,
  .tile .copyFrom .direct, .tile .copyFrom .indirect,
  .tile .copyTo .direct, .tile .copyTo .indirect,
  .tile .add .direct, .tile .add .indirect,
  .tile .sub .direct, .tile .sub .indirect,
  .tile .bumpUp .direct, .tile .bumpUp .indirect,
  .tile .bumpDown .direct, .tile .bumpDown .indirect,
  .jump .always, .jump .ifZero, .jump .ifNegative]

theorem mem_all (o : Opcode) : o ∈ all := by
  rcases o with _ | _ | ⟨op, mode⟩ | ⟨branch⟩
  · decide
  · decide
  · cases op <;> cases mode <;> decide
  · cases branch <;> decide

def code (o : Opcode) : Nat := all.idxOf o

def ofCode? (n : Nat) : Option Opcode := all[n]?

theorem ofCode?_code (o : Opcode) : ofCode? o.code = some o := by
  rcases o with _ | _ | ⟨op, mode⟩ | ⟨branch⟩
  · decide
  · decide
  · cases op <;> cases mode <;> decide
  · cases branch <;> decide

theorem ofCode?_eq_some {n : Nat} {o : Opcode} : ofCode? n = some o ↔ n = o.code := by
  constructor
  · intro h
    have hn : n < all.length := (List.getElem?_eq_some_iff.mp h).1
    have hall : ∀ i < all.length, (ofCode? i).map code = some i := by decide
    have hi := hall n hn
    rw [h] at hi
    exact (Option.some.inj hi).symm
  · rintro rfl
    exact ofCode?_code o

def name : Opcode → String
  | .inbox => "INBOX"
  | .outbox => "OUTBOX"
  | .tile op .direct => op.name
  | .tile op .indirect => op.name ++ "_INDIRECT"
  | .jump branch => branch.name

def ofName? (s : String) : Option Opcode := all.find? fun o => o.name == s

def mnemonic : Opcode → String
  | .inbox => "INBOX"
  | .outbox => "OUTBOX"
  | .tile op _ => op.mnemonic
  | .jump branch => branch.mnemonic

def parameter : Opcode → Parameter
  | .inbox | .outbox => .absent
  | .tile _ _ => .tile
  | .jump _ => .line

def isIndirect : Opcode → Bool
  | .tile _ .indirect => true
  | _ => false

def isJump : Opcode → Bool
  | .jump _ => true
  | _ => false

end Opcode

end OfficeMachine
