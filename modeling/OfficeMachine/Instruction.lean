import OfficeMachine.BuildError

namespace OfficeMachine

inductive Instruction where
  | inbox
  | outbox
  | tile (op : TileOp) (mode : Mode) (address : UInt64)
  | jump (branch : Branch) (target : UInt64)
  deriving DecidableEq, Repr

namespace Instruction

def opcode : Instruction → Opcode
  | .inbox => .inbox
  | .outbox => .outbox
  | .tile op mode _ => .tile op mode
  | .jump branch _ => .jump branch

def parameter : Instruction → Option Value
  | .inbox | .outbox => none
  | .tile _ _ a => some (.tileAddress a)
  | .jump _ t => some (.lineAddress t)

def build : Opcode → Option Value → Except BuildError Instruction
  | .inbox, none => .ok .inbox
  | .outbox, none => .ok .outbox
  | .tile op mode, some (.tileAddress a) => .ok (.tile op mode a)
  | .jump branch, some (.lineAddress t) => .ok (.jump branch t)
  | o, p => .error (.wrongParameter o (p.map Value.kind))

theorem build_opcode_parameter (i : Instruction) : build i.opcode i.parameter = .ok i := by
  cases i <;> rfl

theorem build_eq_ok {o : Opcode} {p : Option Value} {i : Instruction} :
    build o p = .ok i ↔ o = i.opcode ∧ p = i.parameter := by
  constructor
  · intro h
    unfold build at h
    split at h <;> simp at h <;> subst h <;> simp [opcode, parameter]
  · rintro ⟨rfl, rfl⟩
    exact build_opcode_parameter i

def target? : Instruction → Option UInt64
  | .jump _ t => some t
  | _ => none

theorem exists_target_of_isJump (i : Instruction) (h : i.opcode.isJump = true) :
    ∃ t, i.target? = some t := by
  cases i with
  | jump branch t => exact ⟨t, rfl⟩
  | inbox => cases h
  | outbox => cases h
  | tile op mode a => cases h

def isIndirect (i : Instruction) : Bool := i.opcode.isIndirect

def mnemonic (i : Instruction) : String := i.opcode.mnemonic

def text : Instruction → String
  | .inbox => Opcode.inbox.mnemonic
  | .outbox => Opcode.outbox.mnemonic
  | .tile op .direct a => op.mnemonic ++ " " ++ toString a.toNat
  | .tile op .indirect a => op.mnemonic ++ " [" ++ toString a.toNat ++ "]"
  | .jump branch t => branch.mnemonic ++ " " ++ toString t.toNat

def retarget (f : UInt64 → UInt64) : Instruction → Instruction
  | .jump branch t => .jump branch (f t)
  | i => i

@[simp]
theorem target?_retarget (f : UInt64 → UInt64) (i : Instruction) :
    (i.retarget f).target? = i.target?.map f := by
  cases i <;> rfl

def JumpsWithin (n : Nat) : Instruction → Prop
  | .jump _ t => 1 ≤ t.toNat ∧ t.toNat ≤ n
  | _ => True

instance (n : Nat) : (i : Instruction) → Decidable (i.JumpsWithin n)
  | .inbox => isTrue trivial
  | .outbox => isTrue trivial
  | .tile _ _ _ => isTrue trivial
  | .jump _ t => inferInstanceAs (Decidable (1 ≤ t.toNat ∧ t.toNat ≤ n))

theorem jumpsWithin_iff {n : Nat} {i : Instruction} :
    i.JumpsWithin n ↔ ∀ t, i.target? = some t → 1 ≤ t.toNat ∧ t.toNat ≤ n := by
  cases i <;> simp [JumpsWithin, target?]

end Instruction

end OfficeMachine
