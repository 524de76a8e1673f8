import OfficeMachine.Proofs.Growth
import OfficeMachine.Proofs.Lockstep
import OfficeMachine.Puzzle

namespace OfficeMachine

namespace Machine

open Puzzle (cap)

variable {b₁ b₂ : Nat} {x x' y : Machine Batch}

theorem feeds_eq {ι : Type} [Inbox ι] : Feeds (Eq : ι → ι → Prop) := by
  rintro a a' b v rfl hr
  exact ⟨a', hr, rfl⟩

theorem Agree.report_eq_of_stopped {ι : Type} [Inbox ι] {x y x' y' : Machine ι} {r : Halt} {b : ι}
    (h : Agree Eq x y) (hx : x.Stopped r b x') (hy : y.Stopped r b y') : y'.report = x'.report := by
  rw [h.report_stopped hx hy, hx.report]

theorem step_of_exhausted {m : Machine Batch} (hm : m.halted = false)
    (hi : m.next? = some .inbox) (hp : m.office.trays.inbox.pending = []) :
    ∃ m', m.step = .ok m' ∧ m.Stopped .inputExhausted m.office.trays.inbox m' := by
  rcases Nat.lt_or_ge m.worker.executed m.config.budget with hb | hb
  · have hs : m.office.Starves .inbox .inputExhausted m.office.trays.inbox :=
      .inbox (Batch.receive_of_nil hp) rfl
    exact ⟨_, step_starves hm hi hb hs, m.stopped_starving ..⟩
  · have hr : m.budgetHalt .inbox = .inputExhausted :=
      if_pos ⟨rfl, Batch.exhausted_iff.mpr hp⟩
    refine ⟨_, step_spends hm hi hb, ?_⟩
    rw [hr]
    exact m.stopped_halting _

def CutShort (b₁ : Nat) (last y : Machine Batch) : Prop :=
  (∃ y', y.step = .ok y' ∧ y'.halted = true ∧ y'.report = last.report ∧
    ∀ limit, last.report.halt ≠ .budgetExceeded limit) ∨
  y.halted = false ∧ y.worker.executed = b₁ ∧
    last.report = { y.report with halt := .budgetExceeded b₁ }

theorem cutShort_of_stopped {y' : Machine Batch} {r : Halt} (h : Abreast Eq b₁ b₂ x y)
    (hs : y.step = .ok y') (hx : x.Stopped r x.office.trays.inbox x')
    (hy : y.Stopped r y.office.trays.inbox y') (hr : ∀ limit, r ≠ .budgetExceeded limit) :
    CutShort b₁ x' y := by
  rw [← h.agree.inbox] at hy
  refine .inl ⟨y', hs, hy.halted, h.agree.report_eq_of_stopped hx hy, ?_⟩
  rw [hx.report]
  exact hr

theorem cutShort_of_parting (h : Abreast Eq b₁ b₂ x y) (hp : Parting b₁ x x' y) :
    CutShort b₁ x' y := by
  cases hp with
  | together hs hx hy _ hb => exact cutShort_of_stopped h hs hx hy hb
  | exhausted hi hp hx =>
      rw [h.agree.inbox] at hp
      obtain ⟨y', hs, hy⟩ := step_of_exhausted h.live_right (h.next_right hi) hp
      exact cutShort_of_stopped h hs hx hy nofun
  | spent hi hne he hx =>
      refine .inr ⟨h.live_right, ?_, ?_⟩
      · rw [h.agree.worker, he]
      · rw [hx.report, h.agree.report, h.agree.inbox]

theorem budget_only_truncates (program : Program) (floor : Floor) (inputs : List Value)
    (t₁ t₂ : Bool) {b₁ b₂ : Nat} (hb : b₁ ≤ b₂) :
    ∃ r₁ r₂,
      (new program floor (Batch.ofList inputs) ⟨b₁, t₁⟩).run = .ok r₁ ∧
      (new program floor (Batch.ofList inputs) ⟨b₂, t₂⟩).run = .ok r₂ ∧
      ((∀ limit, r₁.halt ≠ .budgetExceeded limit) → r₁ = r₂) ∧
      ∀ limit, r₁.halt = .budgetExceeded limit →
        limit = b₁ ∧ r₁.executed = b₁ ∧ b₁ ≤ r₂.executed ∧ r₁.outputs <+: r₂.outputs ∧
        r₂.remaining <:+ r₁.remaining ∧
        ∃ m, (new program floor (Batch.ofList inputs) ⟨b₂, t₂⟩).steps b₁ = .ok m ∧
          m.halted = false ∧ m.worker.executed = b₁ ∧ r₁.hands = m.worker.hands ∧
          r₁.floor = m.office.floor := by
  have h : Abreast Eq b₁ b₂ (new program floor (Batch.ofList inputs) ⟨b₁, t₁⟩)
      (new program floor (Batch.ofList inputs) ⟨b₂, t₂⟩) :=
    abreast_new rfl program floor ⟨b₁, t₁⟩ ⟨b₂, t₂⟩
  have hs₂ := h.sound_right hb
  obtain ⟨j, last, x, y, hr₁, hj, ha, ht, hl⟩ := h.exists_last_turn feeds_eq hb
  rcases cutShort_of_parting ha (ha.parting hb ht hl) with ⟨y', hy, hyh, hrep, hne⟩ | ⟨hy, he, hrep⟩
  · refine ⟨_, _, hr₁, hs₂.run_eq (steps_add_step hj hy) hyh, fun _ => hrep.symm, ?_⟩
    intro limit hlim
    exact absurd hlim (hne limit)
  · obtain ⟨r₂, hr₂, hex, hout, hrem⟩ := hs₂.run_grows hj
    have hjb : j = b₁ := by
      have hje := executed_of_live hj hy
      rw [he] at hje
      exact (Nat.zero_add j).symm.trans hje.symm
    refine ⟨_, r₂, hr₁, hr₂, ?_, ?_⟩
    · intro hne
      rw [hrep] at hne
      exact absurd rfl (hne b₁)
    · intro limit hlim
      rw [hrep] at hlim ⊢
      have hlb : limit = b₁ := (Halt.budgetExceeded.inj hlim).symm
      have hle : b₁ ≤ r₂.executed := he ▸ hex
      subst hjb
      exact ⟨hlb, he, hle, hout, hrem, y, hj, hy, he, rfl, rfl⟩

theorem busyMailRoom_truncated :
    3 ≤ 5 ∧ ∃ r₁ r₂,
      (new Puzzle.busyMailRoom.program (.ofSize 0) (Batch.ofList [cap 'B', cap 'O'])
        ⟨3, false⟩).run = .ok r₁ ∧
      (new Puzzle.busyMailRoom.program (.ofSize 0) (Batch.ofList [cap 'B', cap 'O'])
        ⟨5, true⟩).run = .ok r₂ ∧
      r₁.halt = .budgetExceeded 3 ∧ r₁.executed = 3 ∧ 3 ≤ r₂.executed ∧
      r₁.outputs <+: r₂.outputs ∧ r₂.remaining <:+ r₁.remaining := by
  obtain ⟨r₁, r₂, h₁, h₂, _, h⟩ := budget_only_truncates Puzzle.busyMailRoom.program (.ofSize 0)
    [cap 'B', cap 'O'] false true (by decide : 3 ≤ 5)
  have hr : r₁.halt = .budgetExceeded 3 := by
    obtain rfl := Except.ok.inj h₁
    rfl
  obtain ⟨_, he, hle, hout, hrem, _⟩ := h 3 hr
  exact ⟨by decide, r₁, r₂, h₁, h₂, hr, he, hle, hout, hrem⟩

end Machine

end OfficeMachine
