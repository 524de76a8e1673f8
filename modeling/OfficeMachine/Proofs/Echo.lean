import OfficeMachine.Proofs.Scene

namespace OfficeMachine

open Scene

namespace Puzzle

def echoScene (floor : Floor) (xs : List Value) (k : Nat) : Scene where
  pc := k % 3
  hands := (xs.take ((k + 2) / 3)).getLastD .empty
  floor := floor
  inbox := xs.drop ((k + 2) / 3)
  outbox := xs.take ((k + 1) / 3)

theorem echo_phase (k : Nat) : ∃ q, k = 3 * q ∨ k = 3 * q + 1 ∨ k = 3 * q + 2 :=
  ⟨k / 3, by omega⟩

section Phases

variable (floor : Floor) (xs : List Value) (q : Nat)

theorem echoScene_phase {c : Nat} (hc : c < 3) : echoScene floor xs (3 * q + c) =
    ⟨c, (xs.take (q + (c + 2) / 3)).getLastD .empty, floor, xs.drop (q + (c + 2) / 3),
      xs.take (q + (c + 1) / 3)⟩ := by
  have hpc : (3 * q + c) % 3 = c := by omega
  have hread : (3 * q + c + 2) / 3 = q + (c + 2) / 3 := by omega
  have hgiven : (3 * q + c + 1) / 3 = q + (c + 1) / 3 := by omega
  rw [echoScene, hpc, hread, hgiven]

theorem echoScene_before : echoScene floor xs (3 * q) =
    ⟨0, (xs.take q).getLastD .empty, floor, xs.drop q, xs.take q⟩ :=
  echoScene_phase floor xs q (by decide : 0 < 3)

theorem echoScene_held : echoScene floor xs (3 * q + 1) =
    ⟨1, (xs.take (q + 1)).getLastD .empty, floor, xs.drop (q + 1), xs.take q⟩ :=
  echoScene_phase floor xs q (by decide : 1 < 3)

theorem echoScene_given : echoScene floor xs (3 * q + 2) =
    ⟨2, (xs.take (q + 1)).getLastD .empty, floor, xs.drop (q + 1), xs.take (q + 1)⟩ :=
  echoScene_phase floor xs q (by decide : 2 < 3)

end Phases

variable {xs : List Value} {k q : Nat}

theorem getLastD_take (h : q < xs.length) : (xs.take (q + 1)).getLastD .empty = xs[q] := by
  rw [← List.take_append_getElem h, List.getLastD_concat]

theorem echo_step (hxs : ∀ v ∈ xs, v ≠ .empty) (floor : Floor) (hk : k < 3 * xs.length) :
    Leads busyMailRoom.program 1 (echoScene floor xs k) (echoScene floor xs (k + 1)) := by
  obtain ⟨q, hq⟩ := echo_phase k
  have hlt : q < xs.length := by omega
  have hlast := getLastD_take hlt
  rcases hq with rfl | rfl | rfl
  · rw [echoScene_before, echoScene_held, hlast, List.drop_eq_getElem_cons hlt]
    exact .inbox rfl
  · rw [echoScene_held, echoScene_given, hlast, ← List.take_append_getElem hlt]
    exact .outbox rfl (hxs _ (List.getElem_mem hlt))
  · have hturn : 3 * q + 2 + 1 = 3 * (q + 1) := by omega
    rw [echoScene_given, hturn, echoScene_before]
    exact .jump (t := 0) rfl rfl

theorem echo_steps (hxs : ∀ v ∈ xs, v ≠ .empty) (floor : Floor) (hk : k ≤ 3 * xs.length) :
    Leads busyMailRoom.program k (start floor xs) (echoScene floor xs k) := by
  induction k with
  | zero => exact .refl _
  | succ k ih => exact (ih (Nat.le_of_succ_le hk)).trans (echo_step hxs floor hk)

theorem echo_next (floor : Floor) (hk : k < 3 * xs.length) :
    ∃ i, busyMailRoom.program.fetch? (echoScene floor xs k).pc = some i ∧
      ¬(i = .inbox ∧ (echoScene floor xs k).inbox = []) := by
  obtain ⟨q, hq⟩ := echo_phase k
  have hlt : q < xs.length := by omega
  rcases hq with rfl | rfl | rfl
  · rw [echoScene_before, List.drop_eq_getElem_cons hlt]
    exact ⟨.inbox, rfl, nofun⟩
  · rw [echoScene_held]
    exact ⟨.outbox, rfl, nofun⟩
  · rw [echoScene_given]
    exact ⟨.jump .always 0, rfl, nofun⟩

theorem busyMailRoom_echoes_at_every_budget {xs : List Value} (hxs : ∀ v ∈ xs, v ≠ .empty)
    (floor : Floor) (config : Config) :
    (3 * xs.length ≤ config.budget →
      (Machine.batch busyMailRoom.program floor xs config).run = .ok {
        executed := 3 * xs.length
        outputs := xs
        remaining := []
        hands := xs.getLastD .empty
        floor := floor
        halt := .inputExhausted }) ∧
    (config.budget < 3 * xs.length →
      (Machine.batch busyMailRoom.program floor xs config).run = .ok {
        executed := config.budget
        outputs := xs.take ((config.budget + 1) / 3)
        remaining := xs.drop ((config.budget + 2) / 3)
        hands := (xs.take ((config.budget + 2) / 3)).getLastD .empty
        floor := floor
        halt := .budgetExceeded config.budget }) := by
  constructor
  · intro hb
    have h := echo_steps hxs floor (Nat.le_refl _)
    rw [echoScene_before, List.take_length, List.drop_length] at h
    exact h.run_exhausted hb rfl rfl
  · intro hb
    obtain ⟨i, hi, hne⟩ := echo_next floor hb
    exact (echo_steps hxs floor (Nat.le_of_lt hb)).run_spends rfl hi hne

theorem busyMailRoom_cut_with_input_in_hands :
    (∀ v ∈ [cap 'B', zero, .tileAddress 3], v ≠ .empty) ∧
    (Machine.batch busyMailRoom.program (.ofSize 1) [cap 'B', zero, .tileAddress 3] ⟨9, true⟩).run =
      .ok ⟨9, [cap 'B', zero, .tileAddress 3], [], .tileAddress 3, .ofSize 1, .inputExhausted⟩ ∧
    (Machine.batch busyMailRoom.program (.ofSize 1) [cap 'B', zero, .tileAddress 3] ⟨4, false⟩).run =
      .ok ⟨4, [cap 'B'], [.tileAddress 3], zero, .ofSize 1, .budgetExceeded 4⟩ := by
  have hxs : ∀ v ∈ [cap 'B', zero, .tileAddress 3], v ≠ .empty := by decide
  exact ⟨hxs, (busyMailRoom_echoes_at_every_budget hxs (.ofSize 1) ⟨9, true⟩).1 (by decide),
    (busyMailRoom_echoes_at_every_budget hxs (.ofSize 1) ⟨4, false⟩).2 (by decide)⟩

end Puzzle

end OfficeMachine
