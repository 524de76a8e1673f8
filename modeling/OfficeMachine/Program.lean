import OfficeMachine.Instruction

namespace OfficeMachine

namespace Instruction

def resolved (i : Instruction) : Instruction := i.retarget (· - 1)

def authored (i : Instruction) : Instruction := i.retarget (· + 1)

@[simp]
theorem authored_resolved (i : Instruction) : i.resolved.authored = i := by
  cases i <;> simp [authored, resolved, retarget]

@[simp]
theorem resolved_authored (i : Instruction) : i.authored.resolved = i := by
  cases i <;> simp [authored, resolved, retarget]

end Instruction

structure Program where
  instructions : List Instruction
  inRange : ∀ i ∈ instructions, i.authored.JumpsWithin instructions.length
  deriving DecidableEq, Repr

namespace Program

@[ext]
theorem ext : ∀ {p q : Program}, p.instructions = q.instructions → p = q
  | ⟨_, _⟩, ⟨_, _⟩, rfl => rfl

def empty : Program := ⟨[], by simp⟩

def length (p : Program) : Nat := p.instructions.length

def fetch? (p : Program) (pc : Nat) : Option Instruction := p.instructions[pc]?

theorem target_lt_length (p : Program) {i : Instruction} (hi : i ∈ p.instructions) {t : UInt64}
    (ht : i.target? = some t) : t.toNat < p.length := by
  have h := Instruction.jumpsWithin_iff.mp (p.inRange i hi) (t + 1)
    (by simp [Instruction.authored, ht])
  have hlt := t.toNat_lt
  rw [UInt64.toNat_add] at h
  simp only [UInt64.toNat_one, length] at *
  omega

def firstStray (n : Nat) : Nat → List Instruction → Option (Nat × UInt64)
  | _, [] => none
  | line, .jump branch t :: rest =>
      if (Instruction.jump branch t).JumpsWithin n then firstStray n (line + 1) rest
      else some (line, t)
  | line, _ :: rest => firstStray n (line + 1) rest

theorem firstStray_eq_none {n : Nat} {lines : List Instruction} :
    ∀ {line : Nat}, firstStray n line lines = none ↔ ∀ i ∈ lines, i.JumpsWithin n := by
  induction lines with
  | nil => simp [firstStray]
  | cons i rest ih =>
      intro line
      cases i with
      | jump branch t =>
          by_cases h : (Instruction.jump branch t).JumpsWithin n
          · simp [firstStray, h, ih]
          · simp [firstStray, h]
      | inbox => simp [firstStray, ih, Instruction.JumpsWithin]
      | outbox => simp [firstStray, ih, Instruction.JumpsWithin]
      | tile op mode a => simp [firstStray, ih, Instruction.JumpsWithin]

def ofLines (lines : List Instruction) (h : ∀ i ∈ lines, i.JumpsWithin lines.length) : Program where
  instructions := lines.map Instruction.resolved
  inRange := by
    intro i hi
    obtain ⟨j, hj, rfl⟩ := List.mem_map.mp hi
    simpa using h j hj

def assemble (lines : List Instruction) : Except BuildError Program :=
  match h : firstStray lines.length 1 lines with
  | some (line, target) => .error (.strayJump line target lines.length)
  | none => .ok (ofLines lines (firstStray_eq_none.mp h))

theorem instructions_of_assemble {lines : List Instruction} {p : Program}
    (h : assemble lines = .ok p) : p.instructions = lines.map Instruction.resolved := by
  unfold assemble at h
  split at h
  · cases h
  · cases h
    rfl

theorem length_of_assemble {lines : List Instruction} {p : Program}
    (h : assemble lines = .ok p) : p.length = lines.length := by
  rw [length, instructions_of_assemble h, List.length_map]

def authored (p : Program) : List Instruction := p.instructions.map Instruction.authored

@[simp]
theorem length_authored (p : Program) : p.authored.length = p.length := by
  simp [authored, length]

theorem jumpsWithin_authored (p : Program) : ∀ i ∈ p.authored, i.JumpsWithin p.authored.length := by
  intro i hi
  obtain ⟨j, hj, rfl⟩ := List.mem_map.mp hi
  simpa [authored] using p.inRange j hj

theorem assemble_eq_ok {lines : List Instruction} {p : Program} :
    assemble lines = .ok p ↔ lines = p.authored := by
  constructor
  · intro h
    simp [authored, instructions_of_assemble h, Function.comp_def]
  · rintro rfl
    have hnone : firstStray p.authored.length 1 p.authored = none :=
      firstStray_eq_none.mpr p.jumpsWithin_authored
    unfold assemble
    split
    · next hsome => cases hnone.symm.trans hsome
    · refine congrArg Except.ok (ext ?_)
      simp [ofLines, authored, Function.comp_def]

def lineText (n : Nat) (i : Instruction) : String :=
  let number := toString n
  String.ofList (List.replicate (3 - number.length) ' ') ++ number ++ ": " ++ i.text ++ "\n"

def listing (p : Program) : String :=
  String.join ((p.authored.zipIdx 1).map fun (i, n) => lineText n i)

end Program

end OfficeMachine
