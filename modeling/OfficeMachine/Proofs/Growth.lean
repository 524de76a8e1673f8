import OfficeMachine.Proofs.Halting

namespace OfficeMachine

theorem Batch.pending_receive (b : Batch) : (Inbox.receive b).2.pending <:+ b.pending := by
  cases hp : b.pending with
  | nil =>
      have hr : (Inbox.receive b).2.pending = [] := by rw [Batch.receive_of_nil hp, hp]
      exact hr ▸ List.suffix_refl []
  | cons v rest =>
      obtain ⟨_, hr, hrest⟩ := Batch.receive_of_cons hp
      rw [hr, hrest]
      exact List.suffix_cons v rest

namespace Machine

variable {ι : Type} [Inbox ι] {m m' : Machine ι}

namespace Turn

theorem executed_mono (h : m.Turn m') : m.worker.executed ≤ m'.worker.executed := by
  rcases h.completes_or_stops with ⟨i, o, _, _, ho, rfl⟩ | ⟨r, b, hs, _⟩
  · rw [executed_completing ho]
    exact Nat.le_succ _
  · exact Nat.le_of_eq hs.executed.symm

theorem outputs_prefix (h : m.Turn m') :
    m.office.trays.outputs <+: m'.office.trays.outputs := by
  rcases h.completes_or_stops with ⟨i, o, _, _, ho, rfl⟩ | ⟨r, b, hs, _⟩
  · rw [office_completing]
    exact ho.outputs_prefix
  · have he : m'.office.trays.outputs = m.office.trays.outputs := by rw [hs]; rfl
    exact he ▸ List.prefix_refl _

theorem inbox_or (h : m.Turn m') :
    m'.office.trays.inbox = m.office.trays.inbox ∨
      m'.office.trays.inbox = (Inbox.receive m.office.trays.inbox).2 := by
  rcases h.completes_or_stops with ⟨i, o, _, _, ho, rfl⟩ | ⟨r, b, hs, hb⟩
  · rw [office_completing]
    by_cases hi : i = .inbox
    · subst hi
      cases ho with
      | inbox hr => exact .inr (by rw [hr]; rfl)
    · exact .inl (ho.inbox_eq hi)
  · rw [hs]
    rcases hb with hb | ⟨i, hb⟩
    · exact .inl hb
    · cases hb with
      | inbox hr hd => exact .inr (by rw [hr]; rfl)

end Turn

theorem executed_le_of_steps {k : Nat} (h : m.steps k = .ok m') :
    m.worker.executed ≤ m'.worker.executed :=
  steps_invariant (P := fun x => m.worker.executed ≤ x.worker.executed)
    (fun hx ht => Nat.le_trans hx ht.executed_mono) (Nat.le_refl _) h

theorem outputs_prefix_of_steps {k : Nat} (h : m.steps k = .ok m') :
    m.office.trays.outputs <+: m'.office.trays.outputs :=
  steps_invariant (P := fun x => m.office.trays.outputs <+: x.office.trays.outputs)
    (fun hx ht => hx.trans ht.outputs_prefix) (List.prefix_refl _) h

theorem pending_suffix_of_steps {m m' : Machine Batch} {k : Nat} (h : m.steps k = .ok m') :
    m'.office.trays.inbox.pending <:+ m.office.trays.inbox.pending := by
  refine steps_invariant
    (P := fun x => x.office.trays.inbox.pending <:+ m.office.trays.inbox.pending) ?_
    (List.suffix_refl _) h
  intro x y hx ht
  rcases ht.inbox_or with he | he
  · rw [he]
    exact hx
  · rw [he]
    exact (Batch.pending_receive _).trans hx

theorem Sound.run_grows {m m' : Machine Batch} {k : Nat} (hm : m.Sound) (h : m.steps k = .ok m') :
    ∃ r, m.run = .ok r ∧ m'.report.executed ≤ r.executed ∧ m'.report.outputs <+: r.outputs ∧
      r.remaining <:+ m'.report.remaining := by
  obtain ⟨n, last, hn, hr⟩ := hm.run_of_steps h
  exact ⟨_, hr, executed_le_of_steps hn, outputs_prefix_of_steps hn, pending_suffix_of_steps hn⟩

end Machine

end OfficeMachine
