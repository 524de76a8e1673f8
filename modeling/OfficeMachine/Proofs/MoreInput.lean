import OfficeMachine.Proofs.Growth
import OfficeMachine.Proofs.Lockstep

namespace OfficeMachine

def Batch.Longer (ys : List Value) (a b : Batch) : Prop := b.pending = a.pending ++ ys

namespace Machine

variable {ys : List Value} {c : Nat} {x x' y : Machine Batch}

theorem feeds_longer (ys : List Value) : Feeds (Batch.Longer ys) := by
  intro a a' b v h hr
  have hb : b.pending = v :: (a'.pending ++ ys) := by
    rw [h, Batch.pending_of_receive hr, List.cons_append]
  exact Batch.receive_of_cons hb

def Outlived (ys : List Value) (last y : Machine Batch) : Prop :=
  (last.report.halt ≠ .inputExhausted ∧ ∃ y', y.step = .ok y' ∧ y'.halted = true ∧
    y'.report = { last.report with remaining := last.report.remaining ++ ys }) ∨
  last.report.halt = .inputExhausted ∧ last.report.outputs = y.report.outputs ∧
    last.report.executed = y.report.executed

theorem outlived_of_stopped {y' : Machine Batch} {r : Halt}
    (h : Abreast (Batch.Longer ys) c c x y) (hs : y.step = .ok y')
    (hx : x.Stopped r x.office.trays.inbox x') (hy : y.Stopped r y.office.trays.inbox y')
    (hr : r ≠ .inputExhausted) : Outlived ys x' y := by
  have hhalt : x'.report.halt = r := by rw [hx.report]
  have hrem : Inbox.remaining y.office.trays.inbox = x'.report.remaining ++ ys := by
    rw [hx.report]
    exact h.agree.inbox
  refine .inl ⟨hhalt ▸ hr, y', hs, hy.halted, ?_⟩
  rw [h.agree.report_stopped hx hy, hrem, ← hhalt]

theorem exhausted_of_longer (h : Abreast (Batch.Longer ys) c c x y)
    (hy : Inbox.exhausted y.office.trays.inbox = true) : x.office.trays.inbox.pending = [] := by
  have hxy : y.office.trays.inbox.pending = x.office.trays.inbox.pending ++ ys := h.agree.inbox
  rw [Batch.exhausted_iff.mp hy] at hxy
  exact (List.append_eq_nil_iff.mp hxy.symm).1

theorem outlived_of_parting (h : Abreast (Batch.Longer ys) c c x y) (hp : Parting c x x' y) :
    Outlived ys x' y := by
  cases hp with
  | together hs hx hy hr _ => exact outlived_of_stopped h hs hx hy hr
  | exhausted _ _ hx =>
      rw [Outlived, hx.report, h.agree.report]
      exact .inr ⟨rfl, rfl, rfl⟩
  | @spent i hi hne he hx =>
      have hy : ¬(i = .inbox ∧ Inbox.exhausted y.office.trays.inbox = true) :=
        fun hc => hne ⟨hc.1, exhausted_of_longer h hc.2⟩
      exact outlived_of_stopped h (h.step_spent hi he hy) hx (y.stopped_halting _) nofun

theorem run_append_inputs (program : Program) (floor : Floor) (xs ys : List Value)
    (config : Config) :
    ∃ r s,
      (new program floor (Batch.ofList xs) config).run = .ok r ∧
      (new program floor (Batch.ofList (xs ++ ys)) config).run = .ok s ∧
      (r.halt ≠ .inputExhausted → s = { r with remaining := r.remaining ++ ys }) ∧
      (r.halt = .inputExhausted → r.outputs <+: s.outputs ∧ r.executed ≤ s.executed) := by
  have hl : Batch.Longer ys (Batch.ofList xs) (Batch.ofList (xs ++ ys)) := rfl
  have h := abreast_new hl program floor config config
  have hs₂ := h.sound_right (Nat.le_refl _)
  obtain ⟨j, last, x, y, hr, hj, ha, ht, hlast⟩ :=
    h.exists_last_turn (feeds_longer ys) (Nat.le_refl _)
  rcases outlived_of_parting ha (ha.parting (Nat.le_refl _) ht hlast) with
    ⟨hne, y', hy, hyh, hrep⟩ | ⟨he, hout, hex⟩
  · have hs := hs₂.run_eq (steps_add_step hj hy) hyh
    exact ⟨_, _, hr, hs, fun _ => hrep, fun he => absurd he hne⟩
  · obtain ⟨s, hs, hle, hpre, _⟩ := hs₂.run_grows hj
    refine ⟨_, s, hr, hs, fun hne => absurd he hne, fun _ => ?_⟩
    rw [hout, hex]
    exact ⟨hpre, hle⟩

end Machine

end OfficeMachine
