import OfficeMachine.Proofs.Stepping

namespace OfficeMachine

theorem Instruction.eq_jump_of_target {i : Instruction} {t : UInt64} (h : i.target? = some t) :
    ∃ branch, i = .jump branch t := by
  cases i with
  | jump branch u =>
      obtain rfl := Option.some.inj h
      exact ⟨branch, rfl⟩
  | _ => cases h

namespace Machine

variable {m m' : Machine Batch} {i : Instruction}

def Due (m : Machine Batch) : Halt → Prop
  | .endOfProgram => m.worker.pc = m.program.length
  | .inputExhausted => m.next? = some .inbox ∧ m.office.trays.inbox.pending = []
  | .budgetExceeded limit =>
      limit = m.config.budget ∧ m.worker.executed = limit ∧
        ∃ i, m.next? = some i ∧ ¬(i = .inbox ∧ m.office.trays.inbox.pending = [])
  | .fault f pc =>
      pc = m.worker.pc ∧ m.worker.executed < m.config.budget ∧
        ∃ i, m.next? = some i ∧ m.office.execute i = (.error (.fault f), m.office)
  | .cancelled => False

theorem due_budgetHalt (hm : m.Sound) (hi : m.next? = some i)
    (hb : m.config.budget ≤ m.worker.executed) : m.Due (m.budgetHalt i) := by
  rcases m.budgetHalt_cases i with ⟨rfl, hp, hr⟩ | ⟨hne, hr⟩
  · rw [hr]
    exact ⟨hi, Batch.exhausted_iff.mp hp⟩
  · rw [hr]
    refine ⟨rfl, Nat.le_antisymm hm.executed_le hb, i, hi, ?_⟩
    exact fun hc => hne ⟨hc.1, Batch.exhausted_iff.mpr hc.2⟩

theorem Turn.completes_or_due (h : m.Turn m') (hm : m.Sound) :
    (∃ i o, m.next? = some i ∧ m.office.Completes i o ∧ m' = m.completing i o) ∨
      ∃ r, m.Due r ∧ m.Stopped r m.office.trays.inbox m' := by
  cases h with
  | completes hi hb ho => exact .inl ⟨_, _, hi, ho, rfl⟩
  | starves hi hb hs =>
      obtain ⟨rfl, hp, rfl, rfl⟩ := hs.of_batch
      exact .inr ⟨.inputExhausted, ⟨hi, hp⟩, stopped_starving ..⟩
  | @faults _ f hi hb hf =>
      exact .inr ⟨.fault f m.worker.pc, ⟨rfl, hb, _, hi, hf.execute_eq⟩, stopped_faulting ..⟩
  | ends he => exact .inr ⟨.endOfProgram, he, stopped_halting ..⟩
  | spends hi hb => exact .inr ⟨_, due_budgetHalt hm hi hb, stopped_halting ..⟩

theorem Sound.step_cases (hm : m.Sound) (h : m.step = .ok m') :
    (m'.halted = true ∧ m'.worker.executed = m.worker.executed ∧
      m'.office.floor = m.office.floor ∧ m'.office.trays = m.office.trays) ∨
    m'.halted = false ∧ ∃ i o, m.next? = some i ∧ m.office.Completes i o ∧
      m' = m.completing i o := by
  cases hl : m.halted with
  | true =>
      rw [step_of_halted hl] at h
      cases h
      exact .inl ⟨hl, rfl, rfl, rfl⟩
  | false =>
      rcases (turn_of_step hl h).completes_or_due hm with ⟨i, o, hi, ho, rfl⟩ | ⟨r, _, hs⟩
      · exact .inr ⟨(halted_completing ho).trans hl, i, o, hi, ho, rfl⟩
      · exact .inl ⟨hs.halted, hs.executed, hs.floor, hs.trays⟩

theorem pc_completing {o : Office Batch} (ho : m.office.Completes i o) :
    (m.completing i o).worker.pc = m.worker.pc + 1 ∨
      ∃ branch t, i = .jump branch t ∧ (m.completing i o).worker.pc = t.toNat := by
  rw [worker_completing]
  rcases ho.pc_eq with hn | ⟨t, ht, hn⟩
  · exact .inl hn
  · obtain ⟨branch, hi⟩ := Instruction.eq_jump_of_target ht
    exact .inr ⟨branch, t, hi, hn⟩

theorem step_completes_or_halts (program : Program) (floor : Floor) (inbox : Batch)
    (config : Config) (k : Nat) :
    ∃ m, (new program floor inbox config).stepTimes k = .ok m ∧
      (m.halted = false → ∃ m', m.step = .ok m' ∧
        ((m'.halted = false ∧ m'.worker.halt = none ∧
            m'.worker.executed = m.worker.executed + 1 ∧
            ∃ i o, m.next? = some i ∧ m.office.execute i = (.ok (), o) ∧
              m'.office = { o with worker := o.worker.count } ∧
              (m'.worker.pc = m.worker.pc + 1 ∨
                ∃ branch t, i = .jump branch t ∧ m'.worker.pc = t.toNat)) ∨
          ∃ r, m.Due r ∧ m'.worker = { m.worker with halted := true, halt := some r } ∧
            m'.office.floor = m.office.floor ∧ m'.office.trays = m.office.trays)) := by
  have hs : (new program floor inbox config).Sound := sound_new program floor inbox config
  obtain ⟨m, hm⟩ := hs.exists_steps k
  have hsm := hs.steps hm
  refine ⟨m, stepTimes_of_steps hm, ?_⟩
  intro hl
  obtain ⟨m', hstep, ht⟩ := exists_turn hl hsm.pc_le
  refine ⟨m', hstep, ?_⟩
  rcases ht.completes_or_due hsm with ⟨i, o, hi, ho, rfl⟩ | ⟨r, hr, hstop⟩
  · have hc := consistent_of_steps (consistent_new program floor inbox config) hm
    refine .inl ⟨(halted_completing ho).trans hl, ?_, executed_completing ho, i, o, hi,
      ho.execute_eq, office_completing .., pc_completing ho⟩
    exact (halt_completing ho).trans (hc.halt_eq_none hl)
  · exact .inr ⟨r, hr, hstop.worker, hstop.floor, hstop.trays⟩

end Machine

end OfficeMachine
