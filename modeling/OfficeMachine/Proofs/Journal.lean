import OfficeMachine.Proofs.FaultReport
import OfficeMachine.Proofs.Lockstep

namespace OfficeMachine

def Report.attempts (r : Report) (budget : Nat) : Nat :=
  r.executed + if r.halt.isFault ∨ r.halt = .inputExhausted ∧ r.executed < budget then 1 else 0

def Program.warnings (p : Program) : Halt → List Event
  | .fault f pc => ((p.fetch? pc).map (Event.fault pc · f)).toList
  | _ => []

theorem Program.warnings_fault {p : Program} {pc : Nat} {i : Instruction}
    (hi : p.fetch? pc = some i) (f : Fault) : p.warnings (.fault f pc) = [.fault pc i f] := by
  rw [warnings, hi]
  rfl

theorem Program.warnings_of_not_fault (p : Program) {r : Halt} (h : r.isFault = false) :
    p.warnings r = [] := by
  cases r with
  | fault f pc => cases h
  | _ => rfl

namespace Machine

variable {ι : Type}

section Journal

variable (m : Machine ι) (i : Instruction) (h : Halt)

def haltNote : Event := .halted h m.worker.executed m.office.trays.outputs.length

theorem journal_trace :
    (m.trace i).journal.toList = m.journal.toList ++
      if m.config.trace then [.step m.worker.executed m.worker.pc i m.worker.hands] else [] := by
  unfold trace
  cases m.config.trace with
  | true => simp [record]
  | false => simp

theorem journal_halting : (m.halting h).journal.toList = m.journal.toList ++ [m.haltNote h] := by
  simp [halting, conclude, stop, onWorker, worker, Worker.stop, record, haltNote, Trays.outputs]

theorem journal_starving (b : ι) :
    (m.starving i h b).journal.toList = (m.trace i).journal.toList ++ [m.haltNote h] := by
  rw [starving, journal_halting]
  rfl

theorem journal_faulting (f : Fault) :
    (m.faulting i f).journal.toList = (m.trace i).journal.toList ++
      [.fault m.worker.pc i f, m.haltNote (.fault f m.worker.pc)] := by
  rw [faulting, journal_halting]
  simp [record, haltNote, worker]

theorem journal_completing [Inbox ι] {o : Office ι} (ho : m.office.Completes i o)
    (hn : m.worker.halt = none) : (m.completing i o).journal = (m.trace i).journal := by
  have hnone : o.worker.halt = none := ho.halt_eq.trans hn
  simp [completing, conclude, onWorker, worker, Worker.count, hnone]

end Journal

structure Twins (x y : Machine ι) : Prop extends Alike x y where
  program : y.program = x.program

theorem twins_new (program : Program) (floor : Floor) (inbox : ι) (budget : Nat) (s t : Bool) :
    Twins (new program floor inbox ⟨budget, s⟩) (new program floor inbox ⟨budget, t⟩) :=
  ⟨⟨rfl, rfl⟩, rfl⟩

namespace Twins

variable {x y x' : Machine ι}

theorem next (h : Twins x y) : y.next? = x.next? := by
  rw [next?, next?, h.program, h.worker]

variable [Inbox ι]

theorem turn (h : Twins x y) (hx : x.halted = false) (ht : x.Turn x') :
    ∃ y', y.step = .ok y' ∧ Twins x' y' := by
  have hy : ∃ y', y.Turn y' ∧ Alike x' y' := by
    rcases h.toAlike.turn ht h.next.trans with ⟨he, rfl⟩ | hy
    · have he' : y.Turn _ := .ends (by rw [h.worker, h.program, he])
      refine ⟨_, he', h.turns ht he' ?_⟩
      rw [x.stopped_halting, y.stopped_halting, h.office, h.worker]
    · exact hy
  obtain ⟨y', hy, ha⟩ := hy
  refine ⟨y', hy.step_eq (h.live hx), ha, ?_⟩
  rw [hy.program_eq, ht.program_eq, h.program]

theorem steps {k : Nat} (h : Twins x y) (hs : x.steps k = .ok x') :
    ∃ y', y.steps k = .ok y' ∧ Twins x' y' := by
  have hsteps : False ∨ ∃ y', y.steps k = .ok y' ∧ Twins x' y' :=
    steps_related (E := fun _ => False) False.elim (fun h hx => h.halted.trans hx)
      (fun h hx ht => .inr (h.turn hx ht)) h hs
  exact hsteps.resolve_left id

end Twins

section Lists

variable [Inbox ι] {m x : Machine ι} {es es' : List Event}

def Lists (m : Machine ι) (es : List Event) : Prop :=
  ∀ k e, es[k]? = some e → ∃ x i, m.steps k = .ok x ∧ x.halted = false ∧ x.next? = some i ∧
    e = .step k x.worker.pc i x.worker.hands

theorem Lists.nil (m : Machine ι) : m.Lists [] := by
  intro k e he
  cases he

theorem Lists.concat {k : Nat} {i : Instruction} (h : m.Lists es) (hk : es.length = k)
    (hs : m.steps k = .ok x) (hx : x.halted = false) (hi : x.next? = some i) :
    m.Lists (es ++ [.step k x.worker.pc i x.worker.hands]) := by
  intro j e he
  rcases Nat.lt_or_ge j es.length with hj | hj
  · rw [List.getElem?_append_left hj] at he
    exact h j e he
  · rw [List.getElem?_append_right hj, List.getElem?_singleton] at he
    have hjk : j = k := by
      split at he
      · omega
      · cases he
    subst hjk
    rw [hk, Nat.sub_self] at he
    exact ⟨x, i, hs, hx, hi, (Option.some.inj he).symm⟩

theorem Lists.unique (h : m.Lists es) (h' : m.Lists es') (hl : es.length = es'.length) :
    es = es' := by
  apply List.ext_getElem hl
  intro k hk hk'
  obtain ⟨x, i, hs, _, hi, he⟩ := h k _ (List.getElem?_eq_getElem hk)
  obtain ⟨x', i', hs', _, hi', he'⟩ := h' k _ (List.getElem?_eq_getElem hk')
  obtain rfl := Except.ok.inj (hs.symm.trans hs')
  obtain rfl := Option.some.inj (hi.symm.trans hi')
  rw [he, he']

theorem Twins.lists {y : Machine ι} (h : Twins x y) (hx : x.Lists es) : y.Lists es := by
  intro k e he
  obtain ⟨x', i, hs, hl, hi, rfl⟩ := hx k e he
  obtain ⟨y', hs', h'⟩ := h.steps hs
  exact ⟨y', i, hs', h'.live hl, h'.next.trans hi, by rw [h'.worker]⟩

theorem Sound.exists_turn_before {k : Nat} (hm : m.Sound) (hs : m.steps (k + 1) = .ok x)
    (hx : x.halted = false) : ∃ y, m.steps k = .ok y ∧ y.halted = false ∧ y.Turn x := by
  obtain ⟨y, hy, hyx⟩ := hm.exists_earlier (Nat.le_add_right k 1) hs
  have hl := live_of_steps hyx hx
  rw [Nat.add_sub_cancel_left] at hyx
  obtain ⟨x', hs', h⟩ := step_of_steps_succ hyx
  cases h
  exact ⟨y, hy, hl, turn_of_step hl hs'⟩

theorem Sound.journal_of_live {k : Nat} (hm : m.Sound) (hc : m.worker.Consistent)
    (he : m.worker.executed = 0) (hj : m.journal = #[]) (hs : m.steps k = .ok x)
    (hx : x.halted = false) :
    ∃ es, m.Lists es ∧ es.length = k ∧ x.journal.toList = if m.config.trace then es else [] := by
  induction k generalizing x with
  | zero =>
      cases hs
      refine ⟨[], .nil m, rfl, ?_⟩
      rw [hj]
      exact (ite_self _).symm
  | succ k ih =>
      obtain ⟨y, hy, hyl, ht⟩ := hm.exists_turn_before hs hx
      obtain ⟨es, hes, hlen, hjournal⟩ := ih hy hyl
      rcases ht.completes_or_stops with ⟨i, o, hi, _, ho, rfl⟩ | ⟨r, b, hstop, _⟩
      · have hk : y.worker.executed = k := by rw [executed_of_live hy hyl, he, Nat.zero_add]
        refine ⟨_, hes.concat hlen hy hyl hi, by simp [hlen], ?_⟩
        rw [journal_completing _ _ ho ((consistent_of_steps hc hy).halt_eq_none hyl),
          journal_trace, hjournal, config_of_steps hy, hk]
        cases m.config.trace <;> simp
      · rw [hstop.halted] at hx
        cases hx

end Lists

section Closing

variable {m x last : Machine Batch} {r : Halt} {b : Batch}

theorem Stopped.report_halt (h : x.Stopped r b last) : last.report.halt = r := by
  rw [h.report]

theorem Stopped.closing (h : x.Stopped r b last) :
    Event.halted last.report.halt last.report.executed last.report.outputs.length =
      x.haltNote r := by
  rw [h.report]
  rfl

theorem Stopped.attempts (h : x.Stopped r b last) (budget : Nat) :
    last.report.attempts budget = x.worker.executed +
      if r.isFault ∨ r = .inputExhausted ∧ x.worker.executed < budget then 1 else 0 := by
  rw [h.report]
  rfl

theorem Turn.journal_of_halted (ht : x.Turn last) (hx : x.halted = false)
    (hl : last.halted = true) :
    ∃ es, (es = [] ∨ ∃ i, x.next? = some i ∧
        es = [.step x.worker.executed x.worker.pc i x.worker.hands]) ∧
      last.report.attempts x.config.budget = x.worker.executed + es.length ∧
      last.journal.toList = x.journal.toList ++ (if x.config.trace then es else []) ++
        x.program.warnings last.report.halt ++
        [.halted last.report.halt last.report.executed last.report.outputs.length] := by
  cases ht with
  | completes _ _ ho => exact absurd hl (not_halted_completing hx ho)
  | @starves i _ _ hi hb hs =>
      obtain ⟨rfl, _, rfl, rfl⟩ := hs.of_batch
      have hstop := x.stopped_starving .inbox .inputExhausted x.office.trays.inbox
      refine ⟨_, .inr ⟨_, hi, rfl⟩, ?_, ?_⟩
      · rw [hstop.attempts, if_pos (.inr ⟨rfl, hb⟩)]
        rfl
      · rw [hstop.closing, hstop.report_halt, journal_starving, journal_trace,
          Program.warnings_of_not_fault _ rfl]
        simp
  | @faults i f hi hb hf =>
      have hstop := x.stopped_faulting i f
      refine ⟨_, .inr ⟨_, hi, rfl⟩, ?_, ?_⟩
      · rw [hstop.attempts, if_pos (.inl rfl)]
        rfl
      · rw [hstop.closing, hstop.report_halt, journal_faulting, journal_trace,
          Program.warnings_fault hi]
        simp
  | ends he =>
      have hstop := x.stopped_halting .endOfProgram
      refine ⟨[], .inl rfl, ?_, ?_⟩
      · rw [hstop.attempts]
        rfl
      · rw [hstop.closing, hstop.report_halt, journal_halting,
          Program.warnings_of_not_fault _ rfl]
        simp
  | @spends i hi hb =>
      have hstop := x.stopped_halting (x.budgetHalt i)
      have hquiet : (x.budgetHalt i).isFault = false := by
        rcases x.budgetHalt_cases i with ⟨_, _, hr⟩ | ⟨_, hr⟩ <;> rw [hr] <;> rfl
      refine ⟨[], .inl rfl, ?_, ?_⟩
      · rw [hstop.attempts, if_neg (by simp [hquiet, hb])]
        rfl
      · rw [hstop.closing, hstop.report_halt, journal_halting,
          Program.warnings_of_not_fault _ hquiet]
        simp

theorem Sound.journal_of_finish (hm : m.Sound) (hc : m.worker.Consistent)
    (hl : m.halted = false) (he : m.worker.executed = 0) (hj : m.journal = #[]) :
    ∃ last es, m.finish = .ok last ∧ last.halted = true ∧ m.Lists es ∧
      es.length = last.report.attempts m.config.budget ∧
      last.journal.toList = (if m.config.trace then es else []) ++
        m.program.warnings last.report.halt ++
        [.halted last.report.halt last.report.executed last.report.outputs.length] := by
  obtain ⟨last, hf, hlast⟩ := hm.finish_halts
  obtain ⟨k, x, hk, hx, ht⟩ := Machine.exists_last_turn hl hf hlast
  obtain ⟨es, hes, hlen, hjx⟩ := hm.journal_of_live hc he hj hk hx
  obtain ⟨es', hes', hatt, hjl⟩ := ht.journal_of_halted hx hlast
  have hex : x.worker.executed = k := by rw [executed_of_live hk hx, he, Nat.zero_add]
  rw [config_of_steps hk, hex] at hatt
  rw [hjx, config_of_steps hk, program_of_steps hk] at hjl
  refine ⟨last, es ++ es', hf, hlast, ?_, ?_, ?_⟩
  · rcases hes' with rfl | ⟨i, hi, rfl⟩
    · rw [List.append_nil]
      exact hes
    · rw [hex]
      exact hes.concat hlen hk hx hi
  · rw [hatt, List.length_append, hlen]
  · rw [hjl]
    cases m.config.trace <;> simp

end Closing

theorem journal_tells_the_run (program : Program) (floor : Floor) (inputs : List Value)
    (budget : Nat) :
    ∃ (r : Report) (steps warnings : List Event),
      steps.length = r.attempts budget ∧
      (∀ k e, steps[k]? = some e → ∀ trace, ∃ m i,
        (batch program floor inputs ⟨budget, trace⟩).stepTimes k = .ok m ∧ m.halted = false ∧
          m.next? = some i ∧ e = .step k m.worker.pc i m.worker.hands) ∧
      (∀ f pc, r.halt = .fault f pc → ∃ i, program.fetch? pc = some i ∧
        warnings = [.fault pc i f] ∧
        ("code", toString f.code) ∈ (Event.fault pc i f).details) ∧
      (r.halt.isFault = false → warnings = []) ∧
      ∀ trace, ∃ last, (batch program floor inputs ⟨budget, trace⟩).finish = .ok last ∧
        (batch program floor inputs ⟨budget, trace⟩).run = .ok r ∧
        last.halted = true ∧ last.report = r ∧
        last.journal.toList = (if trace then steps else []) ++ warnings ++
          [.halted r.halt r.executed r.outputs.length] ∧
        ∀ n, last.stepTimes n = .ok last := by
  have hs (trace : Bool) : (batch program floor inputs ⟨budget, trace⟩).Sound := sound_new ..
  have hjournal (trace : Bool) := (hs trace).journal_of_finish (consistent_new ..) rfl rfl rfl
  obtain ⟨last, es, hf, hlast, hes, hlen, _⟩ := hjournal true
  have hr := (hs true).run_eq hf hlast
  refine ⟨last.report, es, program.warnings last.report.halt, hlen, ?_, ?_, ?_, ?_⟩
  · intro k e he trace
    have ht := twins_new program floor (Batch.ofList inputs) budget true trace
    obtain ⟨m, i, hm, hrest⟩ := ht.lists hes k e he
    exact ⟨m, i, stepTimes_of_steps hm, hrest⟩
  · intro f pc hfault
    obtain ⟨x, hp, rfl, _, _, i, hi, _⟩ := (hs true).faults_of_report rfl hr hfault
    rw [next?, hp] at hi
    refine ⟨i, hi, ?_, by simp [Event.details]⟩
    rw [hfault]
    exact Program.warnings_fault hi f
  · exact program.warnings_of_not_fault
  · intro trace
    obtain ⟨last', es', hf', hlast', hes', hlen', hj'⟩ := hjournal trace
    have ht := twins_new program floor (Batch.ofList inputs) budget true trace
    obtain ⟨y, hy, htwin⟩ := ht.steps hf
    obtain rfl := eq_of_halted hy (htwin.halted.trans hlast) hf' hlast'
    rw [htwin.report] at hlen' hj'
    have hee : es' = es := hes'.unique (ht.lists hes) (hlen'.trans hlen.symm)
    rw [hee] at hj'
    have hr' := (hs trace).run_eq hf' hlast'
    rw [htwin.report] at hr'
    exact ⟨y, hf', hr', hlast', htwin.report, hj', fun n => stepTimes_of_steps (steps_of_halted hlast' n)⟩

theorem letter_in_lookupTable_journal :
    ∃ last i steps, (batch Puzzle.lookupTable.program (.ofRoom Puzzle.lookupTable.room)
        [Puzzle.cap 'D'] ⟨100, true⟩).finish = .ok last ∧
      Puzzle.lookupTable.program.fetch? 2 = some i ∧ steps.length = 3 ∧
      last.journal.toList =
        steps ++ [.fault 2 i .addressKind, .halted (.fault .addressKind 2) 2 0] := by
  obtain ⟨r, steps, warnings, hlen, _, hfault, _, h⟩ := journal_tells_the_run
    Puzzle.lookupTable.program (.ofRoom Puzzle.lookupTable.room) [Puzzle.cap 'D'] 100
  obtain ⟨last, hf, hr, _, _, hj, _⟩ := h true
  obtain rfl := Except.ok.inj hr
  obtain ⟨i, hi, rfl, _⟩ := hfault .addressKind 2 rfl
  refine ⟨last, i, steps, hf, hi, hlen, ?_⟩
  rw [hj, List.append_assoc]
  rfl

end Machine

end OfficeMachine
