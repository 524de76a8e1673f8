import OfficeMachine.Proofs.Budget
import OfficeMachine.Proofs.Stepping

namespace OfficeMachine

structure Scene where
  pc : Nat
  hands : Value
  floor : Floor
  inbox : List Value
  outbox : List Value

def Office.scene (o : Office Batch) : Scene where
  pc := o.worker.pc
  hands := o.worker.hands
  floor := o.floor
  inbox := o.trays.inbox.pending
  outbox := o.trays.outputs

namespace Scene

open Machine

def start (floor : Floor) (inputs : List Value) : Scene := ⟨0, .empty, floor, inputs, []⟩

def report (s : Scene) (executed : Nat) (halt : Halt) : Report :=
  ⟨executed, s.outbox, s.inbox, s.hands, s.floor, halt⟩

def Leads (p : Program) (n : Nat) (s s' : Scene) : Prop :=
  ∀ m : Machine Batch, m.program = p → m.halted = false → m.office.scene = s →
    m.worker.executed + n ≤ m.config.budget →
    ∃ m', m.steps n = .ok m' ∧ m'.halted = false ∧ m'.office.scene = s'

namespace Leads

variable {p : Program} {k n pc : Nat} {s s' s'' : Scene} {i : Instruction}

theorem refl (s : Scene) : Leads p 0 s s :=
  fun m _ hl hs _ => ⟨m, rfl, hl, hs⟩

theorem trans (h : Leads p k s s') (h' : Leads p n s' s'') : Leads p (k + n) s s'' := by
  intro m hp hl hs hb
  obtain ⟨m₁, h₁, hl₁, hs₁⟩ := h m hp hl hs (by omega)
  have hp₁ : m₁.program = p := (program_of_steps h₁).trans hp
  have hb₁ : m₁.worker.executed + n ≤ m₁.config.budget := by
    rw [executed_of_live h₁ hl₁, config_of_steps h₁]
    omega
  obtain ⟨m₂, h₂, hl₂, hs₂⟩ := h' m₁ hp₁ hl₁ hs₁ hb₁
  exact ⟨m₂, (steps_add h₁ n).trans h₂, hl₂, hs₂⟩

instance : Trans (Leads p k) (Leads p n) (Leads p (k + n)) := ⟨trans⟩

theorem next_of_scene {m : Machine Batch} (hp : m.program = p) (hs : m.office.scene = s)
    (hi : p.fetch? s.pc = some i) : m.next? = some i := by
  rw [next?, hp, worker, ← hi, ← hs]
  rfl

theorem of_completes (hi : p.fetch? s.pc = some i)
    (h : ∀ o : Office Batch, o.scene = s → ∃ o', o.Completes i o' ∧ o'.scene = s') :
    Leads p 1 s s' := by
  intro m hp hl hs hb
  obtain ⟨o, ho, hos⟩ := h m.office hs
  have hstep := step_completes hl (next_of_scene hp hs hi) hb ho
  refine ⟨m.completing i o, steps_succ_of_step hstep 0, (halted_completing ho).trans hl, ?_⟩
  rw [office_completing]
  exact hos

section Instructions

variable {hands v : Value} {floor : Floor} {pending given : List Value} {mode : Mode} {a t : UInt64}
  {j : Nat} {op : TileOp} {branch : Branch} {x y z : Number}

theorem inbox (hi : p.fetch? pc = some .inbox) :
    Leads p 1 ⟨pc, hands, floor, v :: pending, given⟩ ⟨pc + 1, v, floor, pending, given⟩ := by
  refine of_completes hi fun ⟨⟨_, _, _, _, _⟩, _, ⟨b, _⟩⟩ ho => ?_
  injection ho with hpc hhands hfloor hpending hgiven
  subst hpc hhands hfloor hgiven
  obtain ⟨b', hr, rfl⟩ := Batch.receive_of_cons hpending
  exact ⟨_, .inbox hr, rfl⟩

theorem outbox (hi : p.fetch? pc = some .outbox) (hh : hands ≠ .empty) :
    Leads p 1 ⟨pc, hands, floor, pending, given⟩
      ⟨pc + 1, hands, floor, pending, given ++ [hands]⟩ := by
  refine of_completes hi fun ⟨⟨_, _, _, _, _⟩, _, ⟨_, _⟩⟩ ho => ?_
  cases ho
  exact ⟨_, .outbox hh, congrArg (Scene.mk _ _ _ _) (Trays.outputs_deliver _ _)⟩

theorem copyFrom (hi : p.fetch? pc = some (.tile .copyFrom mode a))
    (hj : floor.locate mode (.tileAddress a) = .ok j) (hv : floor.tile j = v) (hne : v ≠ .empty) :
    Leads p 1 ⟨pc, hands, floor, pending, given⟩ ⟨pc + 1, v, floor, pending, given⟩ := by
  subst hv
  refine of_completes hi fun ⟨⟨_, _, _, _, _⟩, _, ⟨_, _⟩⟩ ho => ?_
  cases ho
  exact ⟨_, .copyFrom hj hne, rfl⟩

theorem copyTo (hi : p.fetch? pc = some (.tile .copyTo mode a)) (hh : hands ≠ .empty)
    (hj : floor.locate mode (.tileAddress a) = .ok j) :
    Leads p 1 ⟨pc, hands, floor, pending, given⟩
      ⟨pc + 1, .empty, floor.put j hands, pending, given⟩ := by
  refine of_completes hi fun ⟨⟨_, _, _, _, _⟩, _, ⟨_, _⟩⟩ ho => ?_
  cases ho
  exact ⟨_, .copyTo hh hj, rfl⟩

theorem combine {c : Combination} (hi : p.fetch? pc = some (.tile op mode a))
    (hop : op.combination? = some c) (hj : floor.locate mode (.tileAddress a) = .ok j)
    (hy : floor.tile j = .number y) (hz : c.result x y = .ok z) :
    Leads p 1 ⟨pc, .number x, floor, pending, given⟩
      ⟨pc + 1, .number z, floor, pending, given⟩ := by
  refine of_completes hi fun ⟨⟨_, _, _, _, _⟩, _, ⟨_, _⟩⟩ ho => ?_
  cases ho
  exact ⟨_, .combine hop rfl hj hy hz, rfl⟩

theorem bump {g : Number → Except OutOfRange Number} (hi : p.fetch? pc = some (.tile op mode a))
    (hop : op.bump? = some g) (hj : floor.locate mode (.tileAddress a) = .ok j)
    (hx : floor.tile j = .number x) (hz : g x = .ok z) :
    Leads p 1 ⟨pc, hands, floor, pending, given⟩
      ⟨pc + 1, .number z, floor.put j (.number z), pending, given⟩ := by
  refine of_completes hi fun ⟨⟨_, _, _, _, _⟩, _, ⟨_, _⟩⟩ ho => ?_
  cases ho
  exact ⟨_, .bump hop hj hx hz, rfl⟩

theorem jump (hi : p.fetch? pc = some (.jump branch t)) (hb : branch.taken? hands = some true) :
    Leads p 1 ⟨pc, hands, floor, pending, given⟩ ⟨t.toNat, hands, floor, pending, given⟩ := by
  refine of_completes hi fun ⟨⟨_, _, _, _, _⟩, _, ⟨_, _⟩⟩ ho => ?_
  cases ho
  exact ⟨_, .jump hb, rfl⟩

theorem pass (hi : p.fetch? pc = some (.jump branch t)) (hb : branch.taken? hands = some false) :
    Leads p 1 ⟨pc, hands, floor, pending, given⟩ ⟨pc + 1, hands, floor, pending, given⟩ := by
  refine of_completes hi fun ⟨⟨_, _, _, _, _⟩, _, ⟨_, _⟩⟩ ho => ?_
  cases ho
  exact ⟨_, .pass hb, rfl⟩

end Instructions

section Runs

variable {floor : Floor} {inputs : List Value} {config : Config} {r : Halt}

theorem run_stops (h : Leads p k (start floor inputs) s) (hb : k ≤ config.budget)
    (hstop : ∀ m : Machine Batch, m.program = p → m.config = config → m.halted = false →
      m.office.scene = s → m.worker.executed = k →
      ∃ m', m.step = .ok m' ∧ m.Stopped r m.office.trays.inbox m') :
    (batch p floor inputs config).run = .ok (s.report k r) := by
  have hsound : (batch p floor inputs config).Sound := sound_new ..
  have hfits : 0 + k ≤ config.budget := by omega
  obtain ⟨m, hm, hl, hs⟩ := h (batch p floor inputs config) rfl rfl rfl hfits
  have he : m.worker.executed = k := (executed_of_live hm hl).trans (Nat.zero_add k)
  obtain ⟨m', hstep, hst⟩ := hstop m (program_of_steps hm) (config_of_steps hm) hl hs he
  rw [hsound.run_eq (steps_add_step hm hstep) hst.halted, hst.report, ← he, ← hs]
  rfl

theorem run_exhausted (h : Leads p k (start floor inputs) s) (hb : k ≤ config.budget)
    (hi : p.fetch? s.pc = some .inbox) (hp : s.inbox = []) :
    (batch p floor inputs config).run = .ok (s.report k .inputExhausted) := by
  refine h.run_stops hb fun m hm _ hl hs _ => ?_
  exact step_of_exhausted hl (next_of_scene hm hs hi) ((congrArg Scene.inbox hs).trans hp)

theorem run_faults {f : Fault} (h : Leads p k (start floor inputs) s) (hb : k < config.budget)
    (hi : p.fetch? s.pc = some i) (hf : ∀ o : Office Batch, o.scene = s → o.Faults i f) :
    (batch p floor inputs config).run = .ok (s.report k (.fault f s.pc)) := by
  refine h.run_stops (Nat.le_of_lt hb) fun m hm hc hl hs he => ?_
  have hlt : m.worker.executed < m.config.budget := by rw [he, hc]; exact hb
  have hpc : m.worker.pc = s.pc := congrArg Scene.pc hs
  refine ⟨_, step_faults hl (next_of_scene hm hs hi) hlt (hf _ hs), ?_⟩
  rw [← hpc]
  exact m.stopped_faulting i f

theorem run_spends (h : Leads p k (start floor inputs) s) (hb : config.budget = k)
    (hi : p.fetch? s.pc = some i) (hne : ¬(i = .inbox ∧ s.inbox = [])) :
    (batch p floor inputs config).run = .ok (s.report k (.budgetExceeded k)) := by
  refine h.run_stops (Nat.le_of_eq hb.symm) fun m hm hc hl hs he => ?_
  have hspent : m.config.budget ≤ m.worker.executed := Nat.le_of_eq (by rw [he, hc, hb])
  have hr : m.budgetHalt i = .budgetExceeded k := by
    rcases m.budgetHalt_cases i with ⟨hin, hx, _⟩ | ⟨_, hr⟩
    · exact absurd ⟨hin, (congrArg Scene.inbox hs).symm.trans (Batch.exhausted_iff.mp hx)⟩ hne
    · rw [hr, hc, hb]
  refine ⟨_, step_spends hl (next_of_scene hm hs hi) hspent, ?_⟩
  rw [hr]
  exact m.stopped_halting _

end Runs

end Leads

end Scene

theorem leading_part {α : Type} (p : α → Prop) [DecidablePred p] (l : List α) :
    l.takeWhile (fun a => p a) ++ l.dropWhile (fun a => p a) = l ∧
      (∀ a ∈ l.takeWhile fun a => p a, p a) ∧
      ∀ a rest, l.dropWhile (fun a => p a) = a :: rest → ¬p a := by
  refine ⟨List.takeWhile_append_dropWhile, ?_, ?_⟩
  · intro a ha
    exact of_decide_eq_true (List.all_eq_true.mp List.all_takeWhile a ha)
  · intro a rest h
    have hhead := List.head?_dropWhile_not (fun a => p a) l
    rw [h] at hhead
    exact of_decide_eq_false hhead

end OfficeMachine
