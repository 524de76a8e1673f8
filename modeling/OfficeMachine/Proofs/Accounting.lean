import OfficeMachine.Proofs.Growth
import OfficeMachine.Proofs.StepEffect

namespace OfficeMachine

structure Deed where
  instruction : Instruction
  hands : Value
  deriving DecidableEq, Repr

namespace Deed

def received (log : List Deed) : Nat := log.countP (·.instruction = .inbox)

def delivered (log : List Deed) : List Value :=
  (log.filter (·.instruction = .outbox)).map Deed.hands

theorem received_append (log log' : List Deed) :
    received (log ++ log') = received log + received log' :=
  List.countP_append

theorem delivered_append (log log' : List Deed) :
    delivered (log ++ log') = delivered log ++ delivered log' := by
  rw [delivered, List.filter_append, List.map_append]
  rfl

theorem received_add_delivered_le (log : List Deed) :
    received log + (delivered log).length ≤ log.length := by
  induction log with
  | nil => exact Nat.le_refl _
  | cons d log ih =>
      have hr := received_append [d] log
      have hd := congrArg List.length (delivered_append [d] log)
      have hone : received [d] + (delivered [d]).length ≤ 1 := by
        obtain ⟨i, v⟩ := d
        cases i <;> simp [received, delivered]
      simp only [List.singleton_append, List.length_append] at hr hd
      simp only [List.length_cons]
      omega

end Deed

open Deed (received delivered)

structure Trays.Accounts (log : List Deed) (t t' : Trays Batch) : Prop where
  received_le : received log ≤ t.inbox.pending.length
  pending : t'.inbox.pending = t.inbox.pending.drop (received log)
  consumed : t'.inbox.consumed = t.inbox.consumed + received log
  outputs : t'.outputs = t.outputs ++ delivered log

namespace Trays.Accounts

variable {log log' : List Deed} {t t' t'' : Trays Batch}

theorem refl (t : Trays Batch) : Accounts [] t t :=
  ⟨Nat.zero_le _, rfl, rfl, (List.append_nil _).symm⟩

theorem trans (h : Accounts log t t') (h' : Accounts log' t' t'') :
    Accounts (log ++ log') t t'' where
  received_le := by
    have hle := h.received_le
    have hle' := h'.received_le
    rw [h.pending, List.length_drop] at hle'
    rw [Deed.received_append]
    omega
  pending := by rw [h'.pending, h.pending, List.drop_drop, Deed.received_append]
  consumed := by rw [h'.consumed, h.consumed, Deed.received_append, Nat.add_assoc]
  outputs := by rw [h'.outputs, h.outputs, Deed.delivered_append, List.append_assoc]

end Trays.Accounts

theorem Office.Completes.accounts {o p : Office Batch} {i : Instruction} (h : o.Completes i p) :
    Trays.Accounts [⟨i, o.worker.hands⟩] o.trays p.trays := by
  cases h with
  | inbox hr =>
      have hp := Batch.pending_of_receive hr
      have hc := Batch.consumed_of_receive hr
      refine ⟨?_, ?_, hc, (List.append_nil _).symm⟩
      · rw [hp]
        exact Nat.succ_le_succ (Nat.zero_le _)
      · rw [hp]
        rfl
  | outbox hh => exact ⟨Nat.zero_le _, rfl, rfl, Trays.outputs_deliver ..⟩
  | _ => exact ⟨Nat.zero_le _, rfl, rfl, (List.append_nil _).symm⟩

namespace Machine

section History

variable {ι : Type} [Inbox ι]

def history : Nat → Machine ι → List Deed
  | 0, _ => []
  | n + 1, m =>
      match m.step, m.next? with
      | .ok m', some i => if m'.halted then [] else ⟨i, m.worker.hands⟩ :: history n m'
      | _, _ => []

variable {m m' : Machine ι}

theorem history_of_halted (hs : m.step = .ok m') (hl : m'.halted = true) (n : Nat) :
    m.history (n + 1) = [] := by
  rw [history, hs]
  cases m.next? with
  | none => rfl
  | some i => exact if_pos hl

theorem history_of_live {i : Instruction} (hs : m.step = .ok m') (hl : m'.halted = false)
    (hi : m.next? = some i) (n : Nat) :
    m.history (n + 1) = ⟨i, m.worker.hands⟩ :: m'.history n := by
  rw [history, hs, hi]
  simp [hl]

end History

variable {m m' : Machine Batch}

structure Follows (log : List Deed) (m m' : Machine Batch) : Prop where
  executed : m'.worker.executed = m.worker.executed + log.length
  trays : Trays.Accounts log m.office.trays m'.office.trays

theorem Follows.cons {i : Instruction} {o : Office Batch} {log : List Deed}
    (ho : m.office.Completes i o) (h : Follows log (m.completing i o) m') :
    Follows (⟨i, m.worker.hands⟩ :: log) m m' where
  executed := by
    rw [h.executed, executed_completing ho, List.length_cons]
    omega
  trays := by
    have ht := h.trays
    rw [office_completing] at ht
    exact ho.accounts.trans ht

theorem Sound.follows_history {n : Nat} (hm : m.Sound) (h : m.steps n = .ok m') :
    Follows (m.history n) m m' := by
  induction n generalizing m with
  | zero =>
      cases h
      exact ⟨rfl, .refl _⟩
  | succ n ih =>
      obtain ⟨m₁, hs, h₁⟩ := step_of_steps_succ h
      -- a step that halts adds nothing to the history, and none that follows does
      rcases hm.step_cases hs with ⟨hl, he, _, ht⟩ | ⟨hl, i, o, hi, ho, rfl⟩
      · rw [steps_of_halted hl] at h₁
        cases h₁
        rw [history_of_halted hs hl]
        refine ⟨he, ?_⟩
        rw [ht]
        exact .refl _
      · have hm₁ := hm.steps (steps_succ_of_step hs 0)
        rw [history_of_live hs hl hi]
        exact .cons ho (ih hm₁ h₁)

theorem trays_follow_history (program : Program) (floor : Floor) (xs : List Value)
    (config : Config) :
    (∀ n, ∃ m log, (batch program floor xs config).stepTimes n = .ok m ∧
      (batch program floor xs config).history n = log ∧ log.length = m.worker.executed ∧
      received log ≤ xs.length ∧ m.office.trays.inbox.consumed = received log ∧
      m.office.trays.inbox.pending = xs.drop (received log) ∧
      m.office.trays.outputs = delivered log ∧
      received log + m.office.trays.outputs.length ≤ m.worker.executed ∧
      ∀ k ≤ n, ∃ x, (batch program floor xs config).stepTimes k = .ok x ∧
        x.office.trays.outputs <+: m.office.trays.outputs) ∧
    ∃ n last r log, (batch program floor xs config).stepTimes n = .ok last ∧
      last.halted = true ∧ (batch program floor xs config).run = .ok r ∧
      (batch program floor xs config).history n = log ∧
      r.outputs = delivered log ∧ r.remaining = xs.drop (received log) := by
  have hs : (batch program floor xs config).Sound := sound_new ..
  refine ⟨?_, ?_⟩
  · intro n
    obtain ⟨m, hm⟩ := hs.exists_steps n
    obtain ⟨he, ht⟩ := hs.follows_history hm
    have hlog := he.trans (Nat.zero_add _)
    have hcon := ht.consumed.trans (Nat.zero_add _)
    refine ⟨m, _, stepTimes_of_steps hm, rfl, hlog.symm, ht.received_le, hcon, ht.pending,
      ht.outputs, ?_, ?_⟩
    · rw [hlog, ht.outputs]
      exact Deed.received_add_delivered_le _
    · intro k hk
      obtain ⟨x, hx, hxm⟩ := hs.exists_earlier hk hm
      exact ⟨x, stepTimes_of_steps hx, outputs_prefix_of_steps hxm⟩
  · obtain ⟨last, hf, hl⟩ := hs.finish_halts
    obtain ⟨_, ht⟩ := hs.follows_history hf
    exact ⟨_, last, _, _, stepTimes_of_steps hf, hl, hs.run_eq hf hl, rfl, ht.outputs, ht.pending⟩

end Machine

end OfficeMachine
