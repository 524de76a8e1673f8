import OfficeMachine.Proofs.StepEffect

namespace OfficeMachine

theorem Floor.tile_mem {f : Floor} {j : Nat} (h : f.tile j ≠ .empty) : f.tile j ∈ f.tiles := by
  rcases Nat.lt_or_ge j f.size with hj | hj
  · exact Array.mem_of_getElem? (f.getElem?_tiles hj)
  · exact absurd (f.tile_of_size_le hj) h

theorem Floor.tile_put_ne_empty {f : Floor} {i j : Nat} {v : Value} (hv : v ≠ .empty)
    (h : f.tile j ≠ .empty) : (f.put i v).tile j ≠ .empty := by
  rw [tile_put]
  split
  · exact hv
  · exact h

def Value.Plain (v : Value) : Prop := v = .empty ∨ ∃ n, v = .number n

def Value.KnownFrom (floor : Floor) (seen : List Value) (v : Value) : Prop :=
  v.Plain ∨ v ∈ floor.tiles ∨ v ∈ seen

theorem Value.KnownFrom.append {floor : Floor} {seen : List Value} {v : Value}
    (h : v.KnownFrom floor seen) (more : List Value) : v.KnownFrom floor (seen ++ more) := by
  rcases h with h | h | h
  · exact .inl h
  · exact .inr (.inl h)
  · exact .inr (.inr (List.mem_append_left more h))

namespace Office

inductive Holds {ι : Type} (o : Office ι) : Value → Prop
  | hands : Holds o o.worker.hands
  | tile {v : Value} (h : v ∈ o.floor.tiles) : Holds o v
  | output {v : Value} (h : v ∈ o.trays.outputs) : Holds o v

namespace Completes

variable {ι : Type} [Inbox ι] {o p : Office ι} {i : Instruction} {v : Value}

theorem hands_origin (h : o.Completes i p) :
    o.Holds p.worker.hands ∨ p.worker.hands.Plain ∨
      i = .inbox ∧ ∃ b, Inbox.receive o.trays.inbox = (.value p.worker.hands, b) := by
  cases h with
  | @inbox _ b hr => exact .inr (.inr ⟨rfl, b, hr⟩)
  | copyFrom hj ht => exact .inl (.tile (Floor.tile_mem ht))
  | copyTo => exact .inr (.inl (.inl rfl))
  | combine => exact .inr (.inl (.inr ⟨_, rfl⟩))
  | bump => exact .inr (.inl (.inr ⟨_, rfl⟩))
  | _ => exact .inl .hands

theorem tile_origin (h : o.Completes i p) (hv : v ∈ p.floor.tiles) : o.Holds v ∨ v.Plain := by
  cases h with
  | copyTo hh hj =>
      rcases Array.mem_or_eq_of_mem_setIfInBounds hv with ht | rfl
      · exact .inl (.tile ht)
      · exact .inl .hands
  | bump hop hj hx hn =>
      rcases Array.mem_or_eq_of_mem_setIfInBounds hv with ht | rfl
      · exact .inl (.tile ht)
      · exact .inr (.inr ⟨_, rfl⟩)
  | _ => exact .inl (.tile hv)

theorem output_origin (h : o.Completes i p) (hv : v ∈ p.trays.outputs) :
    v ∈ o.trays.outputs ∨ v = o.worker.hands ∧ v ≠ .empty := by
  cases h with
  | outbox hh =>
      rw [Trays.outputs_deliver] at hv
      rcases List.mem_append.mp hv with hv | hv
      · exact .inl hv
      · obtain rfl := List.mem_singleton.mp hv
        exact .inr ⟨rfl, hh⟩
  | _ => exact .inl hv

theorem holds (h : o.Completes i p) (hv : p.Holds v) :
    o.Holds v ∨ v.Plain ∨ i = .inbox ∧ ∃ b, Inbox.receive o.trays.inbox = (.value v, b) := by
  cases hv with
  | hands => exact h.hands_origin
  | tile hv =>
      rcases h.tile_origin hv with hv | hv
      · exact .inl hv
      · exact .inr (.inl hv)
  | output hv =>
      rcases h.output_origin hv with hv | ⟨rfl, _⟩
      · exact .inl (.output hv)
      · exact .inl .hands

theorem size_eq (h : o.Completes i p) : p.floor.size = o.floor.size := by
  cases h with
  | copyTo => exact Floor.size_put ..
  | bump => exact Floor.size_put ..
  | _ => rfl

theorem tile_ne_empty {j : Nat} (h : o.Completes i p) (hj : o.floor.tile j ≠ .empty) :
    p.floor.tile j ≠ .empty := by
  cases h with
  | copyTo hh => exact Floor.tile_put_ne_empty hh hj
  | bump => exact Floor.tile_put_ne_empty nofun hj
  | _ => exact hj

theorem empty_not_mem_outputs (h : o.Completes i p) (ho : Value.empty ∉ o.trays.outputs) :
    Value.empty ∉ p.trays.outputs := by
  intro hv
  rcases h.output_origin hv with hv | ⟨_, hne⟩
  · exact ho hv
  · exact hne rfl

end Completes

structure Traced (floor : Floor) (inputs seen : List Value) (o : Office Batch) : Prop where
  inbox : seen ++ o.trays.inbox.pending = inputs
  consumed : seen.length = o.trays.inbox.consumed
  size : o.floor.size = floor.size
  known : ∀ v, o.Holds v → v.KnownFrom floor seen
  outputs : Value.empty ∉ o.trays.outputs

variable {floor : Floor} {inputs seen : List Value} {o p : Office Batch} {i : Instruction}

theorem Traced.receives (ho : o.Traced floor inputs seen) (h : o.Completes .inbox p) :
    ∃ v, p.Traced floor inputs (seen ++ [v]) := by
  have hsize := h.size_eq.trans ho.size
  have hout := h.empty_not_mem_outputs ho.outputs
  have hholds := fun v => h.holds (v := v)
  cases h with
  | @inbox w b hr =>
      refine ⟨w, ?_, ?_, hsize, ?_, hout⟩
      · rw [List.append_assoc, List.singleton_append, ← ho.inbox, Batch.pending_of_receive hr]
        rfl
      · rw [List.length_append, ho.consumed]
        exact (Batch.consumed_of_receive hr).symm
      · intro v hv
        rcases hholds v hv with hv | hv | ⟨_, c, hc⟩
        · exact (ho.known v hv).append _
        · exact .inl hv
        · rw [hr] at hc
          cases hc
          exact .inr (.inr (List.mem_append_right seen (List.mem_singleton_self w)))

theorem Traced.works (ho : o.Traced floor inputs seen) (h : o.Completes i p) (hi : i ≠ .inbox) :
    p.Traced floor inputs seen where
  inbox := by rw [h.inbox_eq hi, ho.inbox]
  consumed := by rw [h.inbox_eq hi, ho.consumed]
  size := h.size_eq.trans ho.size
  known := by
    intro v hv
    rcases h.holds hv with hv | hv | ⟨hc, _⟩
    · exact ho.known v hv
    · exact .inl hv
    · exact absurd hc hi
  outputs := h.empty_not_mem_outputs ho.outputs

theorem Traced.completes (ho : o.Traced floor inputs seen) (h : o.Completes i p) :
    ∃ seen', p.Traced floor inputs seen' := by
  by_cases hi : i = .inbox
  · subst hi
    obtain ⟨v, hv⟩ := ho.receives h
    exact ⟨_, hv⟩
  · exact ⟨seen, ho.works h hi⟩

theorem Traced.withWorker {w : Worker} (ho : o.Traced floor inputs seen)
    (hw : w.hands = o.worker.hands) : Traced floor inputs seen { o with worker := w } where
  inbox := ho.inbox
  consumed := ho.consumed
  size := ho.size
  known := by
    intro v hv
    cases hv with
    | hands =>
        rw [hw]
        exact ho.known _ .hands
    | tile ht => exact ho.known v (.tile ht)
    | output hv => exact ho.known v (.output hv)
  outputs := ho.outputs

end Office

namespace Machine

variable {m m' : Machine Batch} {floor : Floor} {inputs : List Value}

theorem traced_batch (program : Program) (floor : Floor) (inputs : List Value) (config : Config) :
    (batch program floor inputs config).office.Traced floor inputs [] where
  inbox := rfl
  consumed := rfl
  size := rfl
  known := by
    intro v hv
    cases hv with
    | hands => exact .inl (.inl rfl)
    | tile ht => exact .inr (.inl ht)
    | output hw => cases hw
  outputs := nofun

theorem Turn.traced {seen : List Value} (h : m.Turn m') (hm : m.Sound)
    (ho : m.office.Traced floor inputs seen) : ∃ seen', m'.office.Traced floor inputs seen' := by
  rcases h.completes_or_due hm with ⟨i, o, _, hc, rfl⟩ | ⟨r, _, hs⟩
  · obtain ⟨seen', hp⟩ := ho.completes hc
    rw [office_completing]
    exact ⟨seen', hp.withWorker rfl⟩
  · rw [hs]
    exact ⟨seen, ho.withWorker rfl⟩

theorem Sound.traced_of_steps {k : Nat} {seen : List Value} (hm : m.Sound)
    (ho : m.office.Traced floor inputs seen) (h : m.steps k = .ok m') :
    ∃ seen', m'.office.Traced floor inputs seen' := by
  have hall : m'.Sound ∧ ∃ seen', m'.office.Traced floor inputs seen' := by
    refine steps_invariant
      (P := fun x => x.Sound ∧ ∃ seen', x.office.Traced floor inputs seen') ?_ ⟨hm, seen, ho⟩ h
    rintro x y ⟨hx, seen', hox⟩ ht
    exact ⟨hx.turn ht, ht.traced hx hox⟩
  exact hall.2

theorem Turn.tile_ne_empty {ι : Type} [Inbox ι] {m m' : Machine ι} {j : Nat} (h : m.Turn m')
    (hj : m.office.floor.tile j ≠ .empty) : m'.office.floor.tile j ≠ .empty := by
  rcases h.completes_or_stops with ⟨i, o, _, _, ho, rfl⟩ | ⟨r, b, hs, _⟩
  · rw [office_completing]
    exact ho.tile_ne_empty hj
  · rw [hs.floor]
    exact hj

theorem tile_ne_empty_of_steps {ι : Type} [Inbox ι] {m m' : Machine ι} {j k : Nat}
    (h : m.steps k = .ok m') (hj : m.office.floor.tile j ≠ .empty) :
    m'.office.floor.tile j ≠ .empty :=
  steps_invariant (P := fun x => x.office.floor.tile j ≠ .empty)
    (fun hx ht => ht.tile_ne_empty hx) hj h

theorem values_keep_their_origin (program : Program) (floor : Floor) (inputs : List Value)
    (config : Config) (n : Nat) :
    ∃ m seen, (batch program floor inputs config).stepTimes n = .ok m ∧
      seen ++ m.office.trays.inbox.pending = inputs ∧
      seen.length = m.office.trays.inbox.consumed ∧
      m.office.floor.size = floor.size ∧
      (∀ x, m.office.Holds (.number x) → -999 ≤ x.val ∧ x.val ≤ 999) ∧
      (∀ v, m.office.Holds v → v ≠ .empty → (∀ x, v ≠ .number x) →
        v ∈ floor.tiles ∨ v ∈ seen) ∧
      (∀ k ≤ n, ∃ x, (batch program floor inputs config).stepTimes k = .ok x ∧
        ∀ j, x.office.floor.tile j ≠ .empty → m.office.floor.tile j ≠ .empty) ∧
      Value.empty ∉ m.office.trays.outputs := by
  have hs : (batch program floor inputs config).Sound := sound_new ..
  obtain ⟨m, hm⟩ := hs.exists_steps n
  obtain ⟨seen, ho⟩ := hs.traced_of_steps (traced_batch program floor inputs config) hm
  refine ⟨m, seen, stepTimes_of_steps hm, ho.inbox, ho.consumed, ho.size, ?_, ?_, ?_, ho.outputs⟩
  · intro x _
    exact ⟨x.lower, x.upper⟩
  · intro v hv hne hnum
    rcases ho.known v hv with (he | ⟨x, hx⟩) | hk
    · exact absurd he hne
    · exact absurd hx (hnum x)
    · exact hk
  · intro k hk
    obtain ⟨x, hx, hxm⟩ := hs.exists_earlier hk hm
    exact ⟨x, stepTimes_of_steps hx, fun j hj => tile_ne_empty_of_steps hxm hj⟩

end Machine

end OfficeMachine
