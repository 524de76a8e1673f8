import OfficeMachine.Proofs.Lockstep
import OfficeMachine.Proofs.Stepping

namespace OfficeMachine

namespace Program

def Begins (p q : Program) : Prop := p.instructions <+: q.instructions

theorem begins_of_assemble {lines more : List Instruction} {p q : Program}
    (hp : assemble lines = .ok p) (hq : assemble (lines ++ more) = .ok q) : p.Begins q := by
  rw [Begins, instructions_of_assemble hp, instructions_of_assemble hq, List.map_append]
  exact List.prefix_append _ _

theorem Begins.fetch? {p q : Program} {k : Nat} {i : Instruction} (h : p.Begins q)
    (hi : p.fetch? k = some i) : q.fetch? k = some i := by
  obtain ⟨more, hmore⟩ := h
  have hlt : k < p.instructions.length := (List.getElem?_eq_some_iff.mp hi).1
  rw [Program.fetch?, ← hmore, List.getElem?_append_left hlt]
  exact hi

end Program

namespace Machine

variable {ι : Type}

section FallingOff

variable [Inbox ι] {m x : Machine ι} {r : Report}

theorem Turn.ends_of_halt (h : m.Turn x) (hm : m.halted = false) (hx : x.halted = true)
    (he : x.report.halt = .endOfProgram) :
    m.worker.pc = m.program.length ∧ m.Stopped .endOfProgram m.office.trays.inbox x := by
  cases h with
  | completes _ _ ho => exact absurd hx (not_halted_completing hm ho)
  | starves _ _ hs =>
      rw [(m.stopped_starving ..).report] at he
      cases hs with
      | @inbox d _ _ _ hd =>
          obtain rfl : _ = Halt.endOfProgram := he
          cases d <;> cases hd
  | faults _ _ _ =>
      rw [(m.stopped_faulting ..).report] at he
      cases he
  | ends hend => exact ⟨hend, m.stopped_halting _⟩
  | @spends i _ _ =>
      rw [(m.stopped_halting _).report] at he
      rcases m.budgetHalt_cases i with ⟨_, _, hr⟩ | ⟨_, hr⟩
      · cases hr.symm.trans he
      · cases hr.symm.trans he

theorem Sound.halt_of_steps {k : Nat} {h : Halt} (hm : m.Sound) (hc : m.worker.Consistent)
    (hs : m.steps k = .ok x) (hx : x.worker.halt = some h) (hr : m.run = .ok r) : r.halt = h := by
  have hl : x.halted = true := (consistent_of_steps hc hs).halted_iff.mpr ⟨h, hx⟩
  obtain rfl := Except.ok.inj ((hm.run_eq hs hl).symm.trans hr)
  rw [report, hx]
  rfl

theorem Sound.pc_lt_of_live {k : Nat} (hm : m.Sound) (hr : m.run = .ok r)
    (hne : r.halt ≠ .endOfProgram) (hs : m.steps k = .ok x) (hx : x.halted = false) :
    x.worker.pc < m.program.length := by
  have hle := (hm.steps hs).pc_le
  rw [program_of_steps hs] at hle
  refine Nat.lt_of_le_of_ne hle fun he => hne ?_
  have hend := step_ends hx (he.trans (congrArg Program.length (program_of_steps hs).symm))
  obtain rfl := Except.ok.inj ((hm.run_eq (steps_add_step hs hend) rfl).symm.trans hr)
  rfl

theorem Sound.pc_lt_of_steps {k : Nat} (hm : m.Sound) (hl : m.halted = false) (hr : m.run = .ok r)
    (hne : r.halt ≠ .endOfProgram) (hs : m.steps k = .ok x) :
    x.worker.pc < m.program.length := by
  cases hx : x.halted with
  | false => exact hm.pc_lt_of_live hr hne hs hx
  | true =>
      obtain ⟨j, y, hj, hy, ht⟩ := Machine.exists_last_turn hl hs hx
      rcases ht.completes_or_stops with ⟨i, o, _, _, ho, rfl⟩ | ⟨_, _, hstop, _⟩
      · exact absurd hx (not_halted_completing hy ho)
      · rw [hstop.worker]
        exact hm.pc_lt_of_live hr hne hj hy

end FallingOff

structure Prolongs (p q : Program) (x y : Machine ι) : Prop extends Alike x y where
  first : x.program = p
  second : y.program = q

theorem prolongs_new (p q : Program) (floor : Floor) (inbox : ι) (config : Config) :
    Prolongs p q (new p floor inbox config) (new q floor inbox config) :=
  ⟨⟨rfl, rfl⟩, rfl, rfl⟩

namespace Prolongs

variable {p q : Program} {x y x' : Machine ι}

theorem next {i : Instruction} (h : Prolongs p q x y) (hpq : p.Begins q)
    (hi : x.next? = some i) : y.next? = some i := by
  rw [next?, h.first] at hi
  rw [next?, h.second, h.worker]
  exact hpq.fetch? hi

variable [Inbox ι]

theorem turn (h : Prolongs p q x y) (hpq : p.Begins q) (hx : x.halted = false) (ht : x.Turn x') :
    x' = x.halting .endOfProgram ∨ ∃ y', y.step = .ok y' ∧ Prolongs p q x' y' := by
  rcases h.toAlike.turn ht (h.next hpq) with ⟨_, he⟩ | ⟨y', hy, ha⟩
  · exact .inl he
  · refine .inr ⟨y', hy.step_eq (h.live hx), ha, ?_, ?_⟩
    · rw [ht.program_eq, h.first]
    · rw [hy.program_eq, h.second]

theorem steps {k : Nat} (h : Prolongs p q x y) (hpq : p.Begins q) (hs : x.steps k = .ok x')
    (hne : x'.worker.halt ≠ some .endOfProgram) :
    ∃ y', y.steps k = .ok y' ∧ Prolongs p q x' y' := by
  have hends : (x'.halted = true ∧ x'.worker.halt = some .endOfProgram) ∨
      ∃ y', y.steps k = .ok y' ∧ Prolongs p q x' y' := by
    refine steps_related (E := fun x => x.halted = true ∧ x.worker.halt = some .endOfProgram)
      And.left (fun h hx => h.halted.trans hx) ?_ h hs
    intro x y x' h hx ht
    rcases h.turn hpq hx ht with rfl | hy
    · exact .inl ⟨rfl, rfl⟩
    · exact .inr hy
  exact hends.resolve_left fun he => hne he.2

theorem run_eq {r : Report} (h : Prolongs p q x y) (hpq : p.Begins q) (hx : x.Sound)
    (hc : x.worker.Consistent) (hl : x.halted = false) (hr : x.run = .ok r) (hy : y.Sound)
    (hne : r.halt ≠ .endOfProgram) :
    y.run = .ok r ∧ ∀ k m, y.steps k = .ok m → m.worker.pc < p.length := by
  have hsteps {k : Nat} {x' : Machine ι} (hk : x.steps k = .ok x') :
      ∃ y', y.steps k = .ok y' ∧ Prolongs p q x' y' :=
    h.steps hpq hk fun he => hne (hx.halt_of_steps hc hk he hr)
  refine ⟨?_, ?_⟩
  · obtain ⟨last, hf, hlast⟩ := hx.finish_halts
    obtain ⟨y', hy', h'⟩ := hsteps hf
    rw [hy.run_eq hy' (h'.halted.trans hlast), h'.report, ← hx.run_eq hf hlast, hr]
  · intro k m hm
    obtain ⟨x', hk⟩ := hx.exists_steps k
    obtain ⟨y', hy', h'⟩ := hsteps hk
    obtain rfl := Except.ok.inj (hy'.symm.trans hm)
    rw [h'.worker, ← h.first]
    exact hx.pc_lt_of_steps hl hr hne hk

theorem falls_off {r : Report} (h : Prolongs p q x y) (hpq : p.Begins q) (hx : x.Sound)
    (hc : x.worker.Consistent) (hl : x.halted = false) (hr : x.run = .ok r)
    (he : r.halt = .endOfProgram) :
    ∃ k m, y.steps k = .ok m ∧ m.halted = false ∧ m.worker.pc = p.length ∧
      r = { m.report with halt := .endOfProgram } := by
  obtain ⟨j, x', last, hj, hx', ht, hlast, hrun⟩ := hx.exists_last_turn hl
  obtain rfl := Except.ok.inj (hrun.symm.trans hr)
  have hnone := (consistent_of_steps hc hj).halt_eq_none hx'
  obtain ⟨y', hy', h'⟩ := h.steps hpq hj (by simp [hnone])
  obtain ⟨hpc, hstop⟩ := ht.ends_of_halt hx' hlast he
  refine ⟨j, y', hy', h'.live hx', ?_, ?_⟩
  · rw [h'.worker, hpc, h'.first]
  · rw [hstop.report, h'.report]
    rfl

end Prolongs

variable [Inbox ι]

theorem run_append_lines {lines more : List Instruction} {p q : Program}
    (hp : Program.assemble lines = .ok p) (hq : Program.assemble (lines ++ more) = .ok q)
    (floor : Floor) (inbox : ι) (config : Config) :
    ∃ r s, (new p floor inbox config).run = .ok r ∧ (new q floor inbox config).run = .ok s ∧
      (r.halt ≠ .endOfProgram → s = r ∧
        ∀ k m, (new q floor inbox config).steps k = .ok m → m.worker.pc < lines.length) ∧
      (r.halt = .endOfProgram → ∃ k m, (new q floor inbox config).steps k = .ok m ∧
        m.halted = false ∧ m.worker.pc = lines.length ∧
        r = { m.report with halt := .endOfProgram }) := by
  have hpq := Program.begins_of_assemble hp hq
  have h := prolongs_new p q floor inbox config
  have hx := sound_new p floor inbox config
  have hy := sound_new q floor inbox config
  have hc := consistent_new p floor inbox config
  obtain ⟨_, _, _, _, _, _, _, hr⟩ := hx.exists_last_turn rfl
  obtain ⟨_, _, _, _, _, _, _, hs⟩ := hy.exists_last_turn rfl
  refine ⟨_, _, hr, hs, fun hne => ?_, fun he => ?_⟩
  · obtain ⟨hsame, hpc⟩ := h.run_eq hpq hx hc rfl hr hy hne
    rw [← Program.length_of_assemble hp]
    exact ⟨Except.ok.inj (hs.symm.trans hsame), hpc⟩
  · rw [← Program.length_of_assemble hp]
    exact h.falls_off hpq hx hc rfl hr he

theorem echo_before_outbox :
    ∃ p q, Program.assemble [.inbox, .outbox, .jump .always 1] = .ok p ∧
      Program.assemble ([.inbox, .outbox, .jump .always 1] ++ [.outbox, .jump .always 5]) = .ok q ∧
      ∃ r, (new p (.ofSize 0) (Batch.ofList [.number .zero]) ⟨7, true⟩).run = .ok r ∧
        r.halt = .inputExhausted ∧
        (new q (.ofSize 0) (Batch.ofList [.number .zero]) ⟨7, true⟩).run = .ok r := by
  obtain ⟨p, hp⟩ : ∃ p, Program.assemble [.inbox, .outbox, .jump .always 1] = .ok p := ⟨_, rfl⟩
  obtain ⟨q, hq⟩ : ∃ q, Program.assemble
    ([.inbox, .outbox, .jump .always 1] ++ [.outbox, .jump .always 5]) = .ok q := ⟨_, rfl⟩
  obtain ⟨r, s, hr, hs, h, _⟩ :=
    run_append_lines hp hq (.ofSize 0) (Batch.ofList [.number .zero]) ⟨7, true⟩
  have hh : r.halt = .inputExhausted := by
    obtain rfl := Except.ok.inj hp
    obtain rfl := Except.ok.inj hr
    rfl
  obtain ⟨rfl, _⟩ := h (by rw [hh]; exact nofun)
  exact ⟨p, q, hp, hq, s, hr, hh, hs⟩

end Machine

end OfficeMachine
