import OfficeMachine.Proofs.Scene

namespace OfficeMachine

open Scene

theorem Branch.taken?_ifZero_of_kind {v : Value} (h : v.kind ≠ .number) :
    Branch.ifZero.taken? v = none := by
  cases v with
  | number n => exact absurd rfl h
  | _ => rfl

namespace Puzzle

def siftLength (xs : List Value) : Nat := 4 * xs.count zero + 3 * xs.countP (· ≠ zero)

theorem siftLength_zero (xs : List Value) : siftLength (zero :: xs) = 4 + siftLength xs := by
  simp [siftLength]
  omega

theorem siftLength_of_ne {v : Value} (h : v ≠ zero) (xs : List Value) :
    siftLength (v :: xs) = 3 + siftLength xs := by
  simp [siftLength, h]
  omega

variable {n : Number} {v hands : Value} {floor : Floor} {pending given : List Value}

theorem zeroPreservation_gives :
    Leads zeroPreservation.program 4 ⟨0, hands, floor, zero :: pending, given⟩
      ⟨0, zero, floor, pending, given ++ [zero]⟩ := by
  have hne : zero ≠ .empty := nofun
  calc
    Leads zeroPreservation.program 1 ⟨0, hands, floor, zero :: pending, given⟩
      ⟨1, zero, floor, pending, given⟩ := .inbox rfl
    Leads zeroPreservation.program 1 _ ⟨3, zero, floor, pending, given⟩ := .jump (t := 3) rfl rfl
    Leads zeroPreservation.program 1 _ ⟨4, zero, floor, pending, given ++ [zero]⟩ :=
      .outbox rfl hne
    Leads zeroPreservation.program 1 _ ⟨0, zero, floor, pending, given ++ [zero]⟩ :=
      .jump (t := 0) rfl rfl

theorem zeroPreservation_passes (h : Value.number n ≠ zero) :
    Leads zeroPreservation.program 3 ⟨0, hands, floor, .number n :: pending, given⟩
      ⟨0, .number n, floor, pending, given⟩ := by
  have h0 : n.val ≠ 0 := fun hn => h (congrArg Value.number (Number.ext hn))
  have hpass : Branch.ifZero.taken? (.number n) = some false := by
    simp [Branch.taken?, Number.isZero, h0]
  calc
    Leads zeroPreservation.program 1 ⟨0, hands, floor, .number n :: pending, given⟩
      ⟨1, .number n, floor, pending, given⟩ := .inbox rfl
    Leads zeroPreservation.program 1 _ ⟨2, .number n, floor, pending, given⟩ := .pass rfl hpass
    Leads zeroPreservation.program 1 _ ⟨0, .number n, floor, pending, given⟩ :=
      .jump (t := 0) rfl rfl

theorem zeroPreservation_sifts {xs : List Value} (hxs : ∀ v ∈ xs, v.kind = .number)
    (hands : Value) (floor : Floor) (pending given : List Value) :
    ∃ hands', Leads zeroPreservation.program (siftLength xs)
      ⟨0, hands, floor, xs ++ pending, given⟩
      ⟨0, hands', floor, pending, given ++ xs.filter (· = zero)⟩ := by
  induction xs generalizing hands given with
  | nil =>
      refine ⟨hands, ?_⟩
      rw [List.filter_nil, List.append_nil]
      exact .refl _
  | cons v xs ih =>
      obtain ⟨hv, hrest⟩ := List.forall_mem_cons.mp hxs
      by_cases h0 : v = zero
      · obtain ⟨hands', h⟩ := ih hrest zero (given ++ [zero])
        refine ⟨hands', ?_⟩
        rw [List.filter_cons_of_pos (by simpa using h0), List.append_cons, h0, siftLength_zero]
        exact zeroPreservation_gives.trans h
      · obtain ⟨hands', h⟩ := ih hrest v given
        refine ⟨hands', ?_⟩
        rw [List.filter_cons_of_neg (by simpa using h0), siftLength_of_ne h0]
        cases v with
        | number n => exact (zeroPreservation_passes h0).trans h
        | _ => cases hv

theorem zeroPreservation_keeps_zeros (inputs : List Value) (config : Config) :
    ∃ xs rest, inputs.takeWhile (·.kind = .number) = xs ∧
      inputs.dropWhile (·.kind = .number) = rest ∧
      (rest = [] → siftLength xs ≤ config.budget →
        ∃ r, (Machine.batch zeroPreservation.program (.ofRoom zeroPreservation.room) inputs
            config).run = .ok r ∧
          r.halt = .inputExhausted ∧ r.outputs = xs.filter (· = zero) ∧
          r.executed = siftLength xs ∧ r.floor = .ofRoom zeroPreservation.room) ∧
      ∀ v later, rest = v :: later → siftLength xs + 1 < config.budget →
        ∃ r, (Machine.batch zeroPreservation.program (.ofRoom zeroPreservation.room) inputs
            config).run = .ok r ∧
          r.halt = .fault .jumpCondition 1 ∧ r.executed = siftLength xs + 1 ∧
          r.outputs = xs.filter (· = zero) ∧ r.hands = v ∧ r.remaining = later ∧
          r.floor = .ofRoom zeroPreservation.room := by
  obtain ⟨hsplit, hxs, hnext⟩ := leading_part (fun v : Value => v.kind = .number) inputs
  obtain ⟨hands, h⟩ := zeroPreservation_sifts hxs .empty (.ofRoom zeroPreservation.room)
    (inputs.dropWhile (·.kind = .number)) []
  rw [hsplit] at h
  refine ⟨_, _, rfl, rfl, fun hrest hb => ?_, fun v later hrest hb => ?_⟩
  · exact ⟨_, h.run_exhausted hb rfl hrest, rfl, rfl, rfl, rfl⟩
  · rw [hrest] at h
    have hv : Branch.ifZero.taken? v = none := Branch.taken?_ifZero_of_kind (hnext v later hrest)
    refine ⟨_, (h.trans (.inbox rfl)).run_faults hb rfl fun o ho => ?_, rfl, rfl, rfl, rfl, rfl, rfl⟩
    have hhands : o.worker.hands = v := congrArg Scene.hands ho
    exact .jumpHands (hhands ▸ hv)

theorem zeroPreservation_stops_at_letter :
    (∃ r, (Machine.batch zeroPreservation.program (.ofRoom zeroPreservation.room)
        zeroPreservation.inbox ⟨12, true⟩).run = .ok r ∧
      r.halt = .fault .jumpCondition 1 ∧ r.executed = 11 ∧ r.outputs = [zero] ∧
      r.hands = cap 'D' ∧ r.remaining = [zero, zero, zero, zero] ∧ r.floor = .ofSize 9) ∧
    ∃ r, (Machine.batch zeroPreservation.program (.ofRoom zeroPreservation.room)
        [num 7, zero, num (-1), zero] ⟨14, false⟩).run = .ok r ∧
      r.halt = .inputExhausted ∧ r.outputs = [zero, zero] ∧ r.executed = 14 ∧
      r.floor = .ofSize 9 := by
  obtain ⟨_, _, rfl, rfl, _, hstops⟩ :=
    zeroPreservation_keeps_zeros zeroPreservation.inbox ⟨12, true⟩
  obtain ⟨_, _, rfl, rfl, hends, _⟩ :=
    zeroPreservation_keeps_zeros [num 7, zero, num (-1), zero] ⟨14, false⟩
  exact ⟨hstops _ _ rfl (by decide), hends rfl (by decide)⟩

end Puzzle

end OfficeMachine
