import OfficeMachine.Proofs.Turn

namespace OfficeMachine.Machine

variable {ι : Type}

structure Sound (m : Machine ι) : Prop where
  pc_le : m.worker.pc ≤ m.program.length
  executed_le : m.worker.executed ≤ m.config.budget

theorem sound_new (program : Program) (floor : Floor) (inbox : ι) (config : Config) :
    (new program floor inbox config).Sound :=
  ⟨Nat.zero_le _, Nat.zero_le _⟩

variable [Inbox ι] {m m' : Machine ι}

theorem Turn.pc_le (h : m.Turn m') (hp : m.worker.pc ≤ m.program.length) :
    m'.worker.pc ≤ m.program.length := by
  rcases h.completes_or_stops with ⟨i, o, hi, _, ho, rfl⟩ | ⟨r, b, hs, _⟩
  · have hc : (m.completing i o).worker.pc = o.worker.pc := by rw [worker_completing]; rfl
    rcases ho.pc_eq with hn | ⟨t, ht, hn⟩
    · rw [hc, hn]
      exact pc_lt_of_next hi
    · rw [hc, hn]
      exact Nat.le_of_lt (m.program.target_lt_length (mem_of_next hi) ht)
  · rw [hs.worker]
    exact hp

theorem Turn.executed_le (h : m.Turn m') (hb : m.worker.executed ≤ m.config.budget) :
    m'.worker.executed ≤ m.config.budget := by
  rcases h.completes_or_stops with ⟨i, o, _, hlt, ho, rfl⟩ | ⟨r, b, hs, _⟩
  · rw [executed_completing ho]
    exact hlt
  · rw [hs.worker]
    exact hb

theorem Sound.turn (hm : m.Sound) (h : m.Turn m') : m'.Sound where
  pc_le := by
    rw [h.program_eq]
    exact h.pc_le hm.pc_le
  executed_le := by
    rw [h.config_eq]
    exact h.executed_le hm.executed_le

theorem Sound.steps {k : Nat} (hm : m.Sound) (h : m.steps k = .ok m') : m'.Sound :=
  steps_invariant (fun hx ht => hx.turn ht) hm h

theorem config_of_steps {k : Nat} (h : m.steps k = .ok m') : m'.config = m.config :=
  steps_invariant (P := fun x => x.config = m.config) (fun hx ht => ht.config_eq.trans hx) rfl h

theorem program_of_steps {k : Nat} (h : m.steps k = .ok m') : m'.program = m.program :=
  steps_invariant (P := fun x => x.program = m.program) (fun hx ht => ht.program_eq.trans hx) rfl h

theorem Sound.exists_step (hm : m.Sound) : ∃ m', m.step = .ok m' := by
  cases hl : m.halted with
  | false =>
      obtain ⟨m', h, _⟩ := exists_turn hl hm.pc_le
      exact ⟨m', h⟩
  | true => exact ⟨m, step_of_halted hl⟩

theorem Sound.exists_steps (hm : m.Sound) (n : Nat) : ∃ m', m.steps n = .ok m' := by
  induction n generalizing m with
  | zero => exact ⟨m, rfl⟩
  | succ n ih =>
      obtain ⟨m₁, h₁⟩ := hm.exists_step
      have hm₁ : m₁.Sound := hm.steps (k := 1) (steps_succ_of_step h₁ 0)
      rw [steps_succ_of_step h₁]
      exact ih hm₁

theorem Sound.finish_halts (hm : m.Sound) : ∃ last, m.finish = .ok last ∧ last.halted = true := by
  obtain ⟨last, h⟩ := hm.exists_steps m.stepsLeft
  refine ⟨last, h, ?_⟩
  cases hl : last.halted with
  | true => rfl
  | false =>
      -- not halted after so many steps, it would have counted more than its budget
      have he := executed_of_live h hl
      have hc : last.config = m.config := config_of_steps h
      have hb := (hm.steps h).executed_le
      rw [hc, he, stepsLeft] at hb
      omega

theorem Sound.run_eq {k : Nat} {last : Machine ι} (hm : m.Sound) (h : m.steps k = .ok last)
    (hl : last.halted = true) : m.run = .ok last.report := by
  obtain ⟨x, hx, hxh⟩ := hm.finish_halts
  obtain rfl := eq_of_halted hx hxh h hl
  rw [run, hx]
  rfl

theorem Sound.exists_last_turn (hm : m.Sound) (hl : m.halted = false) :
    ∃ j x last, m.steps j = .ok x ∧ x.halted = false ∧ x.Turn last ∧ last.halted = true ∧
      m.run = .ok last.report := by
  obtain ⟨last, hf, hlast⟩ := hm.finish_halts
  obtain ⟨j, x, hj, hx, ht⟩ := Machine.exists_last_turn hl hf hlast
  exact ⟨j, x, last, hj, hx, ht, hlast, hm.run_eq hf hlast⟩

theorem Sound.run_of_steps {k : Nat} (hm : m.Sound) (h : m.steps k = .ok m') :
    ∃ n last, m'.steps n = .ok last ∧ m.run = .ok last.report := by
  obtain ⟨last, hf, hl⟩ := (hm.steps h).finish_halts
  exact ⟨_, last, hf, hm.run_eq ((steps_add h _).trans hf) hl⟩

theorem run_halts_within_budget {lines : List Instruction} {program : Program}
    (h : Program.assemble lines = .ok program) (floor : Floor) (inbox : ι) (config : Config) :
    (∃ k last, k ≤ config.budget + 1 ∧ (new program floor inbox config).steps k = .ok last ∧
      last.halted = true ∧ (new program floor inbox config).run = .ok last.report) ∧
    ∀ n, ∃ m, (new program floor inbox config).steps n = .ok m ∧ (∃ m', m.step = .ok m') ∧
      m.worker.pc ≤ lines.length ∧ m.worker.executed ≤ config.budget ∧
      (lines.length < UInt64.size → m.worker.pc < UInt64.size) ∧
      (config.budget < UInt64.size → m.worker.executed < UInt64.size) ∧
      ∀ i, m.next? = some i → i.opcode.isJump = true →
        ∃ t, i.target? = some t ∧ t.toNat < lines.length := by
  have hs : (new program floor inbox config).Sound := sound_new program floor inbox config
  refine ⟨?_, ?_⟩
  · obtain ⟨last, hf, hl⟩ := hs.finish_halts
    exact ⟨config.budget + 1, last, Nat.le_refl _, hf, hl, hs.run_eq hf hl⟩
  · intro n
    obtain ⟨m, hn⟩ := hs.exists_steps n
    have hm := hs.steps hn
    have hc : m.config = config := config_of_steps hn
    have hp : m.program = program := program_of_steps hn
    have hpc := hm.pc_le
    have hex := hm.executed_le
    rw [hp, Program.length_of_assemble h] at hpc
    rw [hc] at hex
    refine ⟨m, hn, hm.exists_step, hpc, hex, Nat.lt_of_le_of_lt hpc, Nat.lt_of_le_of_lt hex, ?_⟩
    intro i hi hj
    obtain ⟨t, ht⟩ := i.exists_target_of_isJump hj
    refine ⟨t, ht, ?_⟩
    rw [← Program.length_of_assemble h, ← hp]
    exact m.program.target_lt_length (mem_of_next hi) ht

theorem echo_halts_within_budget :
    ∃ program, Program.assemble [.inbox, .outbox, .jump .always 1] = .ok program ∧
      ∃ k last, k ≤ 7 + 1 ∧
        (new program (.ofSize 0) (Batch.ofList [.number .zero]) ⟨7, true⟩).steps k = .ok last ∧
        last.halted = true ∧
        (new program (.ofSize 0) (Batch.ofList [.number .zero]) ⟨7, true⟩).run =
          .ok last.report := by
  obtain ⟨program, h⟩ :
      ∃ program, Program.assemble [.inbox, .outbox, .jump .always 1] = .ok program := ⟨_, rfl⟩
  have hr := run_halts_within_budget h (.ofSize 0) (Batch.ofList [.number .zero]) ⟨7, true⟩
  exact ⟨program, h, hr.1⟩

end OfficeMachine.Machine
