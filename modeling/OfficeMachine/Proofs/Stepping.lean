import OfficeMachine.Proofs.Halting

namespace OfficeMachine

def Worker.Consistent (w : Worker) : Prop := w.halted = w.halt.isSome

theorem Worker.Consistent.halted_iff {w : Worker} (h : w.Consistent) :
    w.halted = true ↔ ∃ r, w.halt = some r := by
  rw [h, Option.isSome_iff_exists]

theorem Worker.Consistent.halt_eq_none {w : Worker} (h : w.Consistent) (hl : w.halted = false) :
    w.halt = none := by
  have hn : w.halt.isSome = false := h.symm.trans hl
  exact Option.not_isSome_iff_eq_none.mp (Bool.eq_false_iff.mp hn)

namespace Machine

variable {ι : Type}

theorem consistent_new (program : Program) (floor : Floor) (inbox : ι) (config : Config) :
    (new program floor inbox config).worker.Consistent := rfl

def batch (program : Program) (floor : Floor) (inputs : List Value) (config : Config) :
    Machine Batch :=
  new program floor (Batch.ofList inputs) config

variable [Inbox ι] {m m' : Machine ι}

def stepTimes : Nat → Machine ι → Except Failure (Machine ι)
  | 0, m => .ok m
  | n + 1, m => m.step >>= stepTimes n

theorem stepTimes_eq_steps (n : Nat) (m : Machine ι) : m.stepTimes n = m.steps n := by
  induction n generalizing m with
  | zero => rfl
  | succ n ih =>
      cases hs : m.step with
      | ok m₁ =>
          rw [stepTimes, hs, steps_succ_of_step hs]
          exact ih m₁
      | error e =>
          cases hm : m.halted with
          | true =>
              rw [step_of_halted hm] at hs
              cases hs
          | false =>
              rw [stepTimes, steps, hs, hm]
              rfl

theorem stepTimes_of_steps {n : Nat} (h : m.steps n = .ok m') : m.stepTimes n = .ok m' :=
  (stepTimes_eq_steps n m).trans h

theorem Turn.consistent (h : m.Turn m') (hm : m.worker.Consistent) : m'.worker.Consistent := by
  rcases h.completes_or_stops with ⟨i, o, _, _, ho, rfl⟩ | ⟨r, b, hs, _⟩
  · rw [Worker.Consistent, halt_completing ho]
    exact (halted_completing ho).trans hm
  · rw [hs.worker]
    rfl

theorem consistent_of_steps {k : Nat} (hm : m.worker.Consistent) (h : m.steps k = .ok m') :
    m'.worker.Consistent :=
  steps_invariant (P := fun x => x.worker.Consistent) (fun hx ht => ht.consistent hx) hm h

theorem Sound.run_after_steps {k : Nat} (hm : m.Sound) (h : m.steps k = .ok m') :
    m'.run = m.run := by
  have hm' := hm.steps h
  obtain ⟨last, hf, hl⟩ := hm'.finish_halts
  rw [hm'.run_eq hf hl, hm.run_eq ((steps_add h _).trans hf) hl]

theorem Sound.exists_earlier {k n : Nat} (hm : m.Sound) (hk : k ≤ n) (h : m.steps n = .ok m') :
    ∃ x, m.steps k = .ok x ∧ x.steps (n - k) = .ok m' := by
  obtain ⟨x, hx⟩ := hm.exists_steps k
  refine ⟨x, hx, ?_⟩
  rw [← steps_add hx, Nat.add_sub_cancel' hk, h]

theorem stepping_agrees_with_running (program : Program) (floor : Floor) (inbox : ι)
    (config : Config) (k : Nat) :
    ∃ m, (new program floor inbox config).stepTimes k = .ok m ∧
      m.run = (new program floor inbox config).run ∧
      (m.halted = true ↔ ∃ r, m.worker.halt = some r) ∧
      (m.halted = true → ∀ n, m.stepTimes n = .ok m) ∧
      ∃ n last, m.stepTimes n = .ok last ∧ last.halted = true ∧ m.run = .ok last.report ∧
        last.worker.halt = some last.report.halt := by
  have hs : (new program floor inbox config).Sound := sound_new program floor inbox config
  obtain ⟨m, hm⟩ := hs.exists_steps k
  have hcm := consistent_of_steps (consistent_new program floor inbox config) hm
  obtain ⟨last, hf, hl⟩ := (hs.steps hm).finish_halts
  refine ⟨m, stepTimes_of_steps hm, hs.run_after_steps hm, hcm.halted_iff, ?_, ?_⟩
  · intro hh n
    exact stepTimes_of_steps (steps_of_halted hh n)
  · obtain ⟨r, hr⟩ := (consistent_of_steps hcm hf).halted_iff.mp hl
    have hrep : last.report.halt = r := by rw [report, hr]; rfl
    refine ⟨_, last, stepTimes_of_steps hf, hl, (hs.steps hm).run_eq hf hl, ?_⟩
    rw [hrep, hr]

end Machine

end OfficeMachine
