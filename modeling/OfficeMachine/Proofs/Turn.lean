import OfficeMachine.Machine
import OfficeMachine.Proofs.Outcome

namespace OfficeMachine.Machine

variable {ι : Type}

def halting (m : Machine ι) (h : Halt) : Machine ι := (m.stop h).conclude

def completing (m : Machine ι) (i : Instruction) (o : Office ι) : Machine ι :=
  ({ m.trace i with office := o }.onWorker (·.count)).conclude

def faulting (m : Machine ι) (i : Instruction) (f : Fault) : Machine ι :=
  ((m.trace i).record (.fault m.worker.pc i f)).halting (.fault f m.worker.pc)

def starving (m : Machine ι) (i : Instruction) (h : Halt) (b : ι) : Machine ι :=
  { m.trace i with office := m.office.withInbox b }.halting h

@[simp]
theorem office_trace (m : Machine ι) (i : Instruction) : (m.trace i).office = m.office := by
  unfold trace
  split <;> rfl

@[simp]
theorem config_trace (m : Machine ι) (i : Instruction) : (m.trace i).config = m.config := by
  unfold trace
  split <;> rfl

@[simp]
theorem program_trace (m : Machine ι) (i : Instruction) : (m.trace i).program = m.program := by
  unfold trace
  split <;> rfl

@[simp]
theorem office_conclude (m : Machine ι) : m.conclude.office = m.office := by
  unfold conclude
  split <;> rfl

@[simp]
theorem config_conclude (m : Machine ι) : m.conclude.config = m.config := by
  unfold conclude
  split <;> rfl

@[simp]
theorem program_conclude (m : Machine ι) : m.conclude.program = m.program := by
  unfold conclude
  split <;> rfl

theorem pc_lt_of_next {m : Machine ι} {i : Instruction} (hi : m.next? = some i) :
    m.worker.pc < m.program.length :=
  (List.getElem?_eq_some_iff.mp hi).1

theorem mem_of_next {m : Machine ι} {i : Instruction} (hi : m.next? = some i) :
    i ∈ m.program.instructions :=
  List.mem_of_getElem? hi

def Stopped (m : Machine ι) (r : Halt) (b : ι) (m' : Machine ι) : Prop :=
  m'.office = { m.office.withInbox b with worker := m.worker.stop r }

section Stopped

variable (m : Machine ι) (i : Instruction) (r : Halt)

theorem stopped_halting : m.Stopped r m.office.trays.inbox (m.halting r) := rfl

theorem stopped_starving (b : ι) : m.Stopped r b (m.starving i r b) := rfl

theorem stopped_faulting (f : Fault) :
    m.Stopped (.fault f m.worker.pc) m.office.trays.inbox (m.faulting i f) := by
  have h : ((m.trace i).record (.fault m.worker.pc i f)).office = m.office := m.office_trace i
  rw [Stopped, faulting, worker, ← h]
  rfl

end Stopped

namespace Stopped

variable {m m' : Machine ι} {r : Halt} {b : ι}

theorem worker (h : m.Stopped r b m') : m'.worker = m.worker.stop r :=
  congrArg Office.worker h

theorem executed (h : m.Stopped r b m') : m'.worker.executed = m.worker.executed := by
  rw [h.worker]
  rfl

theorem floor (h : m.Stopped r b m') : m'.office.floor = m.office.floor := by
  rw [h]
  rfl

theorem trays (h : m.Stopped r b m') : m'.office.trays = (m.office.withInbox b).trays := by
  rw [h]

theorem halted (h : m.Stopped r b m') : m'.halted = true := by
  rw [Machine.halted, h.worker]
  rfl

theorem report [Inbox ι] (h : m.Stopped r b m') :
    m'.report = { m.report with remaining := Inbox.remaining b, halt := r } := by
  rw [Machine.report, h.worker, h]
  rfl

end Stopped

section Completing

variable (m : Machine ι) (i : Instruction) (o : Office ι)

@[simp]
theorem office_completing :
    (m.completing i o).office = { o with worker := o.worker.count } :=
  office_conclude _

theorem worker_completing : (m.completing i o).worker = o.worker.count :=
  congrArg Office.worker (office_completing m i o)

@[simp]
theorem config_completing : (m.completing i o).config = m.config :=
  (config_conclude _).trans (m.config_trace i)

@[simp]
theorem program_completing : (m.completing i o).program = m.program :=
  (program_conclude _).trans (m.program_trace i)

variable {m i o} [Inbox ι]

theorem halted_completing (ho : m.office.Completes i o) :
    (m.completing i o).halted = m.halted := by
  rw [halted, worker_completing]
  exact ho.halted_eq

theorem not_halted_completing (hm : m.halted = false) (ho : m.office.Completes i o) :
    ¬(m.completing i o).halted = true := by
  rw [halted_completing ho, hm]
  exact Bool.false_ne_true

theorem halt_completing (ho : m.office.Completes i o) :
    (m.completing i o).worker.halt = m.worker.halt := by
  rw [worker_completing]
  exact ho.halt_eq

theorem executed_completing (ho : m.office.Completes i o) :
    (m.completing i o).worker.executed = m.worker.executed + 1 := by
  rw [worker_completing]
  exact congrArg (· + 1) ho.executed_eq

end Completing

section Step

variable [Inbox ι] {m : Machine ι} {i : Instruction}

theorem step_of_cycle {m' : Machine ι} (hm : m.halted = false) (h : m.cycle = .ok m') :
    m.step = .ok m'.conclude := by
  rw [step, hm, h]
  rfl

theorem step_halting {n : Machine ι} {h : Halt} (hm : m.halted = false)
    (hc : m.cycle = .ok (n.stop h)) : m.step = .ok (n.halting h) :=
  step_of_cycle hm hc

theorem cycle_of_next (hi : m.next? = some i) (hb : m.worker.executed < m.config.budget) :
    m.cycle = (m.trace i).perform i := by
  simp [cycle, hi, Nat.not_le.mpr hb]

theorem budgetHalt_cases (m : Machine ι) (i : Instruction) :
    (i = .inbox ∧ Inbox.exhausted m.office.trays.inbox = true ∧ m.budgetHalt i = .inputExhausted) ∨
      ¬(i = .inbox ∧ Inbox.exhausted m.office.trays.inbox = true) ∧
        m.budgetHalt i = .budgetExceeded m.config.budget := by
  by_cases hc : i = .inbox ∧ Inbox.exhausted m.office.trays.inbox = true
  · exact .inl ⟨hc.1, hc.2, if_pos hc⟩
  · exact .inr ⟨hc, if_neg hc⟩

theorem step_ends (hm : m.halted = false) (he : m.worker.pc = m.program.length) :
    m.step = .ok (m.halting .endOfProgram) := by
  have hn : m.next? = none := by simp [next?, Program.fetch?, he, Program.length]
  apply step_halting hm
  simp [cycle, hn, he]

theorem step_spends (hm : m.halted = false) (hi : m.next? = some i)
    (hb : m.config.budget ≤ m.worker.executed) : m.step = .ok (m.halting (m.budgetHalt i)) := by
  apply step_halting hm
  simp [cycle, hi, hb]

theorem step_completes {o : Office ι} (hm : m.halted = false) (hi : m.next? = some i)
    (hb : m.worker.executed < m.config.budget) (ho : m.office.Completes i o) :
    m.step = .ok (m.completing i o) := by
  have hf : o.worker.halted = false := ho.halted_eq.trans hm
  have hc : m.cycle = .ok ({ m.trace i with office := o }.onWorker (·.count)) := by
    rw [cycle_of_next hi hb]
    simp [perform, ho.execute_eq, halted, worker, hf]
  exact step_of_cycle hm hc

theorem step_starves {h : Halt} {b : ι} (hm : m.halted = false) (hi : m.next? = some i)
    (hb : m.worker.executed < m.config.budget) (hs : m.office.Starves i h b) :
    m.step = .ok (m.starving i h b) := by
  apply step_halting hm
  rw [cycle_of_next hi hb, perform, office_trace, hs.execute_eq]
  rfl

theorem step_faults {f : Fault} (hm : m.halted = false) (hi : m.next? = some i)
    (hb : m.worker.executed < m.config.budget) (hf : m.office.Faults i f) :
    m.step = .ok (m.faulting i f) := by
  have hw : (m.trace i).worker = m.worker := congrArg Office.worker (m.office_trace i)
  have hx := hf.execute_eq
  apply step_halting hm
  rw [← m.office_trace i] at hx
  rw [cycle_of_next hi hb, perform, hx, hw]

end Step

inductive Turn [Inbox ι] (m : Machine ι) : Machine ι → Prop
  | completes {i : Instruction} {o : Office ι} (hi : m.next? = some i)
      (hb : m.worker.executed < m.config.budget) (ho : m.office.Completes i o) :
      Turn m (m.completing i o)
  | starves {i : Instruction} {h : Halt} {b : ι} (hi : m.next? = some i)
      (hb : m.worker.executed < m.config.budget) (hs : m.office.Starves i h b) :
      Turn m (m.starving i h b)
  | faults {i : Instruction} {f : Fault} (hi : m.next? = some i)
      (hb : m.worker.executed < m.config.budget) (hf : m.office.Faults i f) :
      Turn m (m.faulting i f)
  | ends (he : m.worker.pc = m.program.length) : Turn m (m.halting .endOfProgram)
  | spends {i : Instruction} (hi : m.next? = some i)
      (hb : m.config.budget ≤ m.worker.executed) : Turn m (m.halting (m.budgetHalt i))

section Turn

variable [Inbox ι] {m m' : Machine ι} {i : Instruction}

theorem exists_turn_of_next (hm : m.halted = false) (hi : m.next? = some i) :
    ∃ m', m.step = .ok m' ∧ m.Turn m' := by
  rcases Nat.lt_or_ge m.worker.executed m.config.budget with hb | hb
  · rcases m.office.outcome i with ⟨o, ho⟩ | ⟨h, b, hs⟩ | ⟨f, hf⟩
    · exact ⟨_, step_completes hm hi hb ho, .completes hi hb ho⟩
    · exact ⟨_, step_starves hm hi hb hs, .starves hi hb hs⟩
    · exact ⟨_, step_faults hm hi hb hf, .faults hi hb hf⟩
  · exact ⟨_, step_spends hm hi hb, .spends hi hb⟩

theorem exists_turn (hm : m.halted = false) (hp : m.worker.pc ≤ m.program.length) :
    ∃ m', m.step = .ok m' ∧ m.Turn m' := by
  cases hi : m.next? with
  | some i => exact exists_turn_of_next hm hi
  | none =>
      have hl : m.program.length ≤ m.worker.pc := List.getElem?_eq_none_iff.mp hi
      have he : m.worker.pc = m.program.length := Nat.le_antisymm hp hl
      exact ⟨_, step_ends hm he, .ends he⟩

theorem turn_of_step (hm : m.halted = false) (h : m.step = .ok m') : m.Turn m' := by
  rcases Nat.lt_or_ge m.program.length m.worker.pc with hp | hp
  · have hn : m.next? = none := List.getElem?_eq_none_iff.mpr (Nat.le_of_lt hp)
    rw [step, hm, cycle, hn] at h
    simp only [if_neg (Nat.ne_of_gt hp)] at h
    cases h
  · obtain ⟨n, hn, ht⟩ := exists_turn hm hp
    rw [hn] at h
    cases h
    exact ht

namespace Turn

theorem step_eq (h : m.Turn m') (hm : m.halted = false) : m.step = .ok m' := by
  cases h with
  | completes hi hb ho => exact step_completes hm hi hb ho
  | starves hi hb hs => exact step_starves hm hi hb hs
  | faults hi hb hf => exact step_faults hm hi hb hf
  | ends he => exact step_ends hm he
  | spends hi hb => exact step_spends hm hi hb

theorem completes_or_stops (h : m.Turn m') :
    (∃ i o, m.next? = some i ∧ m.worker.executed < m.config.budget ∧ m.office.Completes i o ∧
      m' = m.completing i o) ∨
    ∃ r b, m.Stopped r b m' ∧ (b = m.office.trays.inbox ∨ ∃ i, m.office.Starves i r b) := by
  cases h with
  | completes hi hb ho => exact .inl ⟨_, _, hi, hb, ho, rfl⟩
  | starves hi hb hs => exact .inr ⟨_, _, stopped_starving .., .inr ⟨_, hs⟩⟩
  | faults hi hb hf => exact .inr ⟨_, _, stopped_faulting .., .inl rfl⟩
  | ends he => exact .inr ⟨_, _, stopped_halting .., .inl rfl⟩
  | spends hi hb => exact .inr ⟨_, _, stopped_halting .., .inl rfl⟩

theorem halted_or_executed (h : m.Turn m') :
    m'.halted = true ∨ m'.halted = m.halted ∧ m'.worker.executed = m.worker.executed + 1 := by
  rcases h.completes_or_stops with ⟨i, o, hi, hb, ho, rfl⟩ | ⟨r, b, hs, _⟩
  · exact .inr ⟨halted_completing ho, executed_completing ho⟩
  · exact .inl hs.halted

theorem config_eq (h : m.Turn m') : m'.config = m.config := by
  cases h with
  | completes => exact config_completing ..
  | starves => exact config_trace ..
  | faults => exact config_trace ..
  | ends => rfl
  | spends => rfl

theorem program_eq (h : m.Turn m') : m'.program = m.program := by
  cases h with
  | completes => exact program_completing ..
  | starves => exact program_trace ..
  | faults => exact program_trace ..
  | ends => rfl
  | spends => rfl

end Turn

end Turn

section Steps

variable [Inbox ι] {m m' : Machine ι}

theorem step_of_halted (h : m.halted = true) : m.step = .ok m := by
  rw [step, if_pos h]

theorem steps_of_halted (h : m.halted = true) (n : Nat) : m.steps n = .ok m := by
  cases n with
  | zero => rfl
  | succ n => rw [steps, if_pos h]

theorem steps_succ_of_step (h : m.step = .ok m') (n : Nat) : m.steps (n + 1) = m'.steps n := by
  cases hm : m.halted with
  | true =>
      rw [step_of_halted hm] at h
      cases h
      rw [steps_of_halted hm, steps_of_halted hm]
  | false => simp [steps, hm, h]

theorem step_of_steps_succ {n : Nat} (h : m.steps (n + 1) = .ok m') :
    ∃ m₁, m.step = .ok m₁ ∧ m₁.steps n = .ok m' := by
  cases hs : m.step with
  | ok m₁ =>
      rw [steps_succ_of_step hs] at h
      exact ⟨m₁, rfl, h⟩
  | error e =>
      cases hm : m.halted with
      | true =>
          rw [step_of_halted hm] at hs
          cases hs
      | false => simp [steps, hm, hs] at h

theorem steps_add {k : Nat} (h : m.steps k = .ok m') (n : Nat) : m.steps (k + n) = m'.steps n := by
  induction k generalizing m with
  | zero =>
      cases h
      rw [Nat.zero_add]
  | succ k ih =>
      obtain ⟨m₁, hs, h₁⟩ := step_of_steps_succ h
      rw [Nat.succ_add, steps_succ_of_step hs, ih h₁]

theorem steps_add_step {k : Nat} {m₁ : Machine ι} (h : m.steps k = .ok m₁)
    (hs : m₁.step = .ok m') : m.steps (k + 1) = .ok m' := by
  rw [steps_add h, steps_succ_of_step hs]
  rfl

theorem eq_of_halted {k n : Nat} {x y : Machine ι} (hx : m.steps k = .ok x)
    (hxh : x.halted = true) (hy : m.steps n = .ok y) (hyh : y.halted = true) : x = y := by
  have hk : m.steps (k + n) = .ok x := by rw [steps_add hx, steps_of_halted hxh]
  have hn : m.steps (k + n) = .ok y := by rw [Nat.add_comm, steps_add hy, steps_of_halted hyh]
  exact Except.ok.inj (hk.symm.trans hn)

theorem steps_invariant {P : Machine ι → Prop} (hP : ∀ {x y : Machine ι}, P x → x.Turn y → P y)
    (hm : P m) {k : Nat} (h : m.steps k = .ok m') : P m' := by
  induction k generalizing m with
  | zero =>
      cases h
      exact hm
  | succ k ih =>
      obtain ⟨m₁, hs, h₁⟩ := step_of_steps_succ h
      cases hl : m.halted with
      | false => exact ih (hP hm (turn_of_step hl hs)) h₁
      | true =>
          rw [step_of_halted hl] at hs
          cases hs
          exact ih hm h₁

theorem live_of_steps {k : Nat} (h : m.steps k = .ok m') (hl : m'.halted = false) :
    m.halted = false := by
  cases hm : m.halted with
  | false => rfl
  | true =>
      rw [steps_of_halted hm] at h
      cases h
      exact hm.symm.trans hl

theorem executed_of_live {k : Nat} (h : m.steps k = .ok m') (hl : m'.halted = false) :
    m'.worker.executed = m.worker.executed + k := by
  induction k generalizing m with
  | zero =>
      cases h
      rfl
  | succ k ih =>
      obtain ⟨m₁, hs, h₁⟩ := step_of_steps_succ h
      have ht : m.Turn m₁ := turn_of_step (live_of_steps h hl) hs
      rcases ht.halted_or_executed with hh | ⟨_, he⟩
      · have hf := live_of_steps h₁ hl
        rw [hh] at hf
        cases hf
      · rw [ih h₁, he]
        omega

theorem exists_last_turn {k : Nat} (hm : m.halted = false) (h : m.steps k = .ok m')
    (hl : m'.halted = true) : ∃ j x, m.steps j = .ok x ∧ x.halted = false ∧ x.Turn m' := by
  induction k generalizing m with
  | zero =>
      cases h
      rw [hm] at hl
      cases hl
  | succ k ih =>
      obtain ⟨m₁, hs, h₁⟩ := step_of_steps_succ h
      cases hm₁ : m₁.halted with
      | true =>
          rw [steps_of_halted hm₁] at h₁
          cases h₁
          exact ⟨0, m, rfl, hm, turn_of_step hm hs⟩
      | false =>
          obtain ⟨j, x, hj, hx, ht⟩ := ih hm₁ h₁
          exact ⟨j + 1, x, (steps_succ_of_step hs j).trans hj, hx, ht⟩

end Steps

end OfficeMachine.Machine
