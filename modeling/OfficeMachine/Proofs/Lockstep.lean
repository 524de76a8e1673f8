import OfficeMachine.Proofs.Halting

namespace OfficeMachine

variable {ι κ : Type}

namespace Office

theorem Completes.withInbox [Inbox ι] [Inbox κ] {o p : Office ι} {i : Instruction}
    (h : o.Completes i p) (hi : i ≠ .inbox) (b : κ) :
    (o.withInbox b).Completes i (p.withInbox b) := by
  cases h with
  | inbox => exact absurd rfl hi
  | outbox hh => exact .outbox hh
  | copyFrom hj hv => exact .copyFrom hj hv
  | copyTo hh hj => exact .copyTo hh hj
  | combine hop hx hj hy hn => exact .combine hop hx hj hy hn
  | bump hop hj hx hn => exact .bump hop hj hx hn
  | jump hb => exact .jump hb
  | pass hb => exact .pass hb

theorem Faults.withInbox {o : Office ι} {i : Instruction} {f : Fault} (h : o.Faults i f) (b : κ) :
    (o.withInbox b).Faults i f :=
  h.transfer rfl (fun hj => ⟨hj, rfl⟩) id

end Office

namespace Machine

theorem steps_related [Inbox ι] [Inbox κ] {R : Machine ι → Machine κ → Prop} {E : Machine ι → Prop}
    (hE : ∀ {x}, E x → x.halted = true) (hh : ∀ {x y}, R x y → x.halted = true → y.halted = true)
    (hR : ∀ {x y x'}, R x y → x.halted = false → x.Turn x' → E x' ∨ ∃ y', y.step = .ok y' ∧ R x' y')
    {x x' : Machine ι} {y : Machine κ} {k : Nat} (h : R x y) (hs : x.steps k = .ok x') :
    E x' ∨ ∃ y', y.steps k = .ok y' ∧ R x' y' := by
  induction k generalizing x y with
  | zero =>
      cases hs
      exact .inr ⟨y, rfl, h⟩
  | succ k ih =>
      obtain ⟨x₁, hx₁, hs₁⟩ := step_of_steps_succ hs
      cases hx : x.halted with
      | true =>
          rw [steps_of_halted hx] at hs
          cases hs
          exact .inr ⟨y, steps_of_halted (hh h hx) _, h⟩
      | false =>
          rcases hR h hx (turn_of_step hx hx₁) with he | ⟨y₁, hy₁, h₁⟩
          · rw [steps_of_halted (hE he)] at hs₁
            cases hs₁
            exact .inl he
          · rw [steps_succ_of_step hy₁]
            exact ih h₁ hs₁

def Paces [Inbox ι] [Inbox κ] (R : Machine ι → Machine κ → Prop) : Prop :=
  ∀ {x : Machine ι} {y : Machine κ} {i : Instruction} {o : Office ι}, R x y → x.halted = false →
    x.next? = some i → x.worker.executed < x.config.budget → x.office.Completes i o →
    ∃ y', y.step = .ok y' ∧ R (x.completing i o) y'

namespace Paces

variable [Inbox ι] [Inbox κ] {R : Machine ι → Machine κ → Prop} {x x₁ last : Machine ι}
  {y : Machine κ} {k : Nat}

theorem steps (hR : Paces R) (h : R x y) (hs : x.steps k = .ok x₁) (hl : x₁.halted = false) :
    ∃ y₁, y.steps k = .ok y₁ ∧ R x₁ y₁ := by
  have hsteps : x₁.halted = true ∨ ∃ y₁, y.steps k = .ok y₁ ∧ x₁.halted = false ∧ R x₁ y₁ := by
    refine steps_related (R := fun x y => x.halted = false ∧ R x y) (E := fun x => x.halted = true)
      id (fun h hx => by cases h.1.symm.trans hx) ?_ ⟨live_of_steps hs hl, h⟩ hs
    intro x y x' ⟨hx, h⟩ _ ht
    rcases ht.completes_or_stops with ⟨i, o, hi, hb, ho, rfl⟩ | ⟨r, b, hr, _⟩
    · obtain ⟨y', hy, h'⟩ := hR h hx hi hb ho
      exact .inr ⟨y', hy, (halted_completing ho).trans hx, h'⟩
    · exact .inl hr.halted
  rcases hsteps with hhalted | ⟨y₁, hy, _, h₁⟩
  · rw [hl] at hhalted
    cases hhalted
  · exact ⟨y₁, hy, h₁⟩

theorem until_halt (hR : Paces R) (h : R x y) (hx : x.halted = false) (hs : x.steps k = .ok last)
    (hl : last.halted = true) :
    ∃ j x₁ y₁, y.steps j = .ok y₁ ∧ R x₁ y₁ ∧ x₁.halted = false ∧ x₁.Turn last := by
  obtain ⟨j, x₁, hj, hx₁, ht⟩ := exists_last_turn hx hs hl
  obtain ⟨y₁, hy, h₁⟩ := hR.steps h hj hx₁
  exact ⟨j, x₁, y₁, hy, h₁, hx₁, ht⟩

end Paces

structure Alike (x y : Machine ι) : Prop where
  office : y.office = x.office
  budget : y.config.budget = x.config.budget

namespace Alike

variable {x y x' y' : Machine ι}

theorem worker (h : Alike x y) : y.worker = x.worker :=
  congrArg Office.worker h.office

theorem halted (h : Alike x y) : y.halted = x.halted := by
  rw [Machine.halted, h.worker]
  rfl

theorem live (h : Alike x y) (hx : x.halted = false) : y.halted = false :=
  h.halted.trans hx

theorem report [Inbox ι] (h : Alike x y) : y.report = x.report := by
  rw [Machine.report, h.worker, h.office]
  rfl

theorem turns [Inbox ι] (h : Alike x y) (hx : x.Turn x') (hy : y.Turn y')
    (ho : y'.office = x'.office) : Alike x' y' where
  office := ho
  budget := by rw [hx.config_eq, hy.config_eq, h.budget]

theorem turn [Inbox ι] (h : Alike x y) (ht : x.Turn x')
    (hnext : ∀ {i}, x.next? = some i → y.next? = some i) :
    (x.worker.pc = x.program.length ∧ x' = x.halting .endOfProgram) ∨
      ∃ y', y.Turn y' ∧ Alike x' y' := by
  have hlt (hb : x.worker.executed < x.config.budget) : y.worker.executed < y.config.budget := by
    rw [h.worker, h.budget]
    exact hb
  cases ht with
  | @completes i o hi hb ho =>
      have hy := Turn.completes (hnext hi) (hlt hb) (h.office ▸ ho)
      refine .inr ⟨_, hy, h.turns (.completes hi hb ho) hy ?_⟩
      rw [office_completing, office_completing]
  | @starves i r b hi hb hs =>
      have hy := Turn.starves (hnext hi) (hlt hb) (h.office ▸ hs)
      refine .inr ⟨_, hy, h.turns (.starves hi hb hs) hy ?_⟩
      rw [x.stopped_starving i r b, y.stopped_starving i r b, h.office, h.worker]
  | @faults i f hi hb hf =>
      have hy := Turn.faults (hnext hi) (hlt hb) (h.office ▸ hf)
      refine .inr ⟨_, hy, h.turns (.faults hi hb hf) hy ?_⟩
      rw [x.stopped_faulting i f, y.stopped_faulting i f, h.office, h.worker]
  | ends he => exact .inl ⟨he, rfl⟩
  | @spends i hi hb =>
      have hb' : y.config.budget ≤ y.worker.executed := by
        rw [h.worker, h.budget]
        exact hb
      have hr : y.budgetHalt i = x.budgetHalt i := by
        rw [budgetHalt, budgetHalt, h.office, h.budget]
      refine .inr ⟨_, .spends (hnext hi) hb', h.turns (.spends hi hb) (.spends (hnext hi) hb') ?_⟩
      rw [x.stopped_halting, y.stopped_halting, h.office, h.worker, hr]

end Alike

def Feeds [Inbox ι] [Inbox κ] (S : ι → κ → Prop) : Prop :=
  ∀ {a a' : ι} {b : κ} {v : Value}, S a b → Inbox.receive a = (.value v, a') →
    ∃ b', Inbox.receive b = (.value v, b') ∧ S a' b'

structure Agree (S : ι → κ → Prop) (x : Machine ι) (y : Machine κ) : Prop where
  program : y.program = x.program
  office : y.office = x.office.withInbox y.office.trays.inbox
  inbox : S x.office.trays.inbox y.office.trays.inbox

theorem agree_new {S : ι → κ → Prop} {a : ι} {b : κ} (h : S a b) (program : Program)
    (floor : Floor) (c d : Config) : Agree S (new program floor a c) (new program floor b d) :=
  ⟨rfl, rfl, h⟩

namespace Agree

variable {S : ι → κ → Prop} {x : Machine ι} {y : Machine κ} {i : Instruction}

theorem worker (h : Agree S x y) : y.worker = x.worker :=
  congrArg Office.worker h.office

theorem next (h : Agree S x y) : y.next? = x.next? := by
  rw [next?, next?, h.program, h.worker]

theorem faults {f : Fault} (h : Agree S x y) (hf : x.office.Faults i f) : y.office.Faults i f := by
  rw [h.office]
  exact hf.withInbox _

theorem completing {o : Office ι} {p : Office κ} (h : Agree S x y)
    (hp : p = o.withInbox p.trays.inbox) (hS : S o.trays.inbox p.trays.inbox) :
    Agree S (x.completing i o) (y.completing i p) where
  program := by rw [program_completing, program_completing, h.program]
  office := by
    rw [office_completing, office_completing, hp]
    rfl
  inbox := by
    rw [office_completing, office_completing]
    exact hS

variable [Inbox ι] [Inbox κ]

theorem completes {o : Office ι} (h : Agree S x y) (hS : Feeds S) (ho : x.office.Completes i o) :
    ∃ p, y.office.Completes i p ∧ Agree S (x.completing i o) (y.completing i p) := by
  by_cases hi : i = .inbox
  · subst hi
    cases ho with
    | inbox hr =>
        obtain ⟨b, hb, hS'⟩ := hS h.inbox hr
        refine ⟨_, .inbox hb, h.completing ?_ hS'⟩
        rw [h.office]
        rfl
  · have hc := ho.withInbox hi y.office.trays.inbox
    rw [← h.office] at hc
    refine ⟨_, hc, h.completing rfl ?_⟩
    have he : o.trays.inbox = x.office.trays.inbox := ho.inbox_eq hi
    rw [he]
    exact h.inbox

theorem report (h : Agree S x y) :
    y.report = { x.report with remaining := Inbox.remaining y.office.trays.inbox } := by
  rw [Machine.report, h.worker, h.office]
  rfl

theorem report_stopped {x' : Machine ι} {y' : Machine κ} {a : ι} {b : κ} {r s : Halt}
    (h : Agree S x y) (hx : x.Stopped r a x') (hy : y.Stopped s b y') :
    y'.report = { x'.report with remaining := Inbox.remaining b, halt := s } := by
  rw [hx.report, hy.report, h.report]

end Agree

structure Abreast (S : ι → κ → Prop) (c d : Nat) (x : Machine ι) (y : Machine κ) : Prop where
  agree : Agree S x y
  live : x.halted = false
  sound : x.Sound
  first : x.config.budget = c
  second : y.config.budget = d

theorem abreast_new {S : ι → κ → Prop} {a : ι} {b : κ} (h : S a b) (program : Program)
    (floor : Floor) (c d : Config) :
    Abreast S c.budget d.budget (new program floor a c) (new program floor b d) :=
  ⟨agree_new h program floor c d, rfl, sound_new program floor a c, rfl, rfl⟩

namespace Abreast

variable {S : ι → κ → Prop} {c d : Nat} {x : Machine ι} {y : Machine κ} {i : Instruction}

theorem live_right (h : Abreast S c d x y) : y.halted = false := by
  rw [halted, h.agree.worker]
  exact h.live

theorem next_right (h : Abreast S c d x y) (hi : x.next? = some i) : y.next? = some i := by
  rw [h.agree.next, hi]

theorem sound_right (h : Abreast S c d x y) (hcd : c ≤ d) : y.Sound where
  pc_le := by
    rw [h.agree.worker, h.agree.program]
    exact h.sound.pc_le
  executed_le := by
    have hx := h.sound.executed_le
    rw [h.first] at hx
    rw [h.agree.worker, h.second]
    exact Nat.le_trans hx hcd

theorem lt_right (h : Abreast S c d x y) (hcd : c ≤ d)
    (hb : x.worker.executed < x.config.budget) : y.worker.executed < y.config.budget := by
  rw [h.agree.worker, h.second]
  rw [h.first] at hb
  exact Nat.lt_of_lt_of_le hb hcd

variable [Inbox κ]

theorem step_spent (h : Abreast S c c x y) (hi : x.next? = some i) (hx : x.worker.executed = c)
    (hne : ¬(i = .inbox ∧ Inbox.exhausted y.office.trays.inbox = true)) :
    y.step = .ok (y.halting (.budgetExceeded c)) := by
  have hy : y.config.budget ≤ y.worker.executed := by
    have he : y.worker.executed = c := by rw [h.agree.worker, hx]
    exact Nat.le_of_eq (h.second.trans he.symm)
  have hr : y.budgetHalt i = .budgetExceeded c := by rw [budgetHalt, if_neg hne, h.second]
  rw [step_spends h.live_right (h.next_right hi) hy, hr]

variable [Inbox ι] {last : Machine ι}

theorem completes {o : Office ι} (h : Abreast S c d x y) (hS : Feeds S) (hcd : c ≤ d)
    (hi : x.next? = some i) (hb : x.worker.executed < x.config.budget)
    (ho : x.office.Completes i o) :
    ∃ y', y.step = .ok y' ∧ Abreast S c d (x.completing i o) y' := by
  obtain ⟨p, hp, ha⟩ := h.agree.completes hS ho
  have hs := step_completes h.live_right (h.next_right hi) (h.lt_right hcd hb) hp
  refine ⟨_, hs, ha, ?_, ?_, ?_, ?_⟩
  · exact (halted_completing ho).trans h.live
  · exact h.sound.turn (.completes hi hb ho)
  · rw [config_completing, h.first]
  · rw [config_completing, h.second]

theorem until_halt {k : Nat} (h : Abreast S c d x y) (hS : Feeds S) (hcd : c ≤ d)
    (hs : x.steps k = .ok last) (hl : last.halted = true) :
    ∃ j x₁ y₁, y.steps j = .ok y₁ ∧ Abreast S c d x₁ y₁ ∧ x₁.Turn last := by
  have hR : Paces (Abreast S c d) :=
    fun ha _ hi hb ho => ha.completes hS hcd hi hb ho
  obtain ⟨j, x₁, y₁, hj, h₁, _, ht⟩ := hR.until_halt h h.live hs hl
  exact ⟨j, x₁, y₁, hj, h₁, ht⟩

theorem exists_last_turn (h : Abreast S c d x y) (hS : Feeds S) (hcd : c ≤ d) :
    ∃ j last x₁ y₁, x.run = .ok last.report ∧ y.steps j = .ok y₁ ∧ Abreast S c d x₁ y₁ ∧
      x₁.Turn last ∧ last.halted = true := by
  obtain ⟨last, hf, hl⟩ := h.sound.finish_halts
  obtain ⟨j, x₁, y₁, hj, h₁, ht⟩ := h.until_halt hS hcd hf hl
  exact ⟨j, last, x₁, y₁, h.sound.run_eq hf hl, hj, h₁, ht, hl⟩

end Abreast

inductive Parting [Inbox κ] (c : Nat) (x x' : Machine Batch) (y : Machine κ) : Prop
  | together {r : Halt} {y' : Machine κ} (hs : y.step = .ok y')
      (hx : x.Stopped r x.office.trays.inbox x') (hy : y.Stopped r y.office.trays.inbox y')
      (hr : r ≠ .inputExhausted) (hb : ∀ limit, r ≠ .budgetExceeded limit)
  | exhausted (hi : x.next? = some .inbox) (hp : x.office.trays.inbox.pending = [])
      (hx : x.Stopped .inputExhausted x.office.trays.inbox x')
  | spent {i : Instruction} (hi : x.next? = some i)
      (hne : ¬(i = .inbox ∧ x.office.trays.inbox.pending = [])) (he : x.worker.executed = c)
      (hx : x.Stopped (.budgetExceeded c) x.office.trays.inbox x')

namespace Abreast

variable [Inbox κ] {c d : Nat} {S : Batch → κ → Prop} {x x' : Machine Batch} {y : Machine κ}
  {i : Instruction}

theorem parting_faults {f : Fault} (h : Abreast S c d x y) (hcd : c ≤ d)
    (hi : x.next? = some i) (hb : x.worker.executed < x.config.budget)
    (hf : x.office.Faults i f) : Parting c x (x.faulting i f) y := by
  have hy := y.stopped_faulting i f
  rw [h.agree.worker] at hy
  have hs := step_faults h.live_right (h.next_right hi) (h.lt_right hcd hb) (h.agree.faults hf)
  exact .together hs (x.stopped_faulting i f) hy nofun nofun

theorem parting_ends (h : Abreast S c d x y) (he : x.worker.pc = x.program.length) :
    Parting c x (x.halting .endOfProgram) y := by
  have he' : y.worker.pc = y.program.length := by rw [h.agree.worker, h.agree.program, he]
  have hs := step_ends h.live_right he'
  exact .together hs (x.stopped_halting _) (y.stopped_halting _) nofun nofun

theorem parting_spends (h : Abreast S c d x y) (hi : x.next? = some i)
    (hb : x.config.budget ≤ x.worker.executed) : Parting c x (x.halting (x.budgetHalt i)) y := by
  have hx := x.stopped_halting (x.budgetHalt i)
  rcases x.budgetHalt_cases i with ⟨rfl, hp, hr⟩ | ⟨hne, hr⟩
  · rw [hr] at hx ⊢
    exact .exhausted hi (Batch.exhausted_iff.mp hp) hx
  · have he : x.worker.executed = c := by
      have hle := h.sound.executed_le
      rw [h.first] at hb hle
      exact Nat.le_antisymm hle hb
    rw [hr, h.first] at hx ⊢
    exact .spent hi (fun hc => hne ⟨hc.1, Batch.exhausted_iff.mpr hc.2⟩) he hx

theorem parting (h : Abreast S c d x y) (hcd : c ≤ d) (ht : x.Turn x') (hl : x'.halted = true) :
    Parting c x x' y := by
  cases ht with
  | completes hi hb ho => exact absurd hl (not_halted_completing h.live ho)
  | starves hi hb hs =>
      obtain ⟨rfl, hp, rfl, rfl⟩ := hs.of_batch
      exact .exhausted hi hp (x.stopped_starving ..)
  | faults hi hb hf => exact h.parting_faults hcd hi hb hf
  | ends he => exact h.parting_ends he
  | spends hi hb => exact h.parting_spends hi hb

end Abreast

end Machine

end OfficeMachine
