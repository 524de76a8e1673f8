import OfficeMachine.Program

namespace OfficeMachine

namespace Instruction

theorem opcode_resolved (i : Instruction) : i.resolved.opcode = i.opcode := by
  cases i <;> rfl

theorem resolved_of_not_jump {i : Instruction} (h : i.opcode.isJump = false) : i.resolved = i := by
  cases i with
  | jump => cases h
  | _ => rfl

theorem target_resolved {n : Nat} {i : Instruction} {t : UInt64} (hi : i.JumpsWithin n)
    (ht : i.target? = some t) :
    ∃ u, i.resolved.target? = some u ∧ 1 ≤ t.toNat ∧ u.toNat = t.toNat - 1 := by
  have hle := (jumpsWithin_iff.mp hi t ht).1
  have hone : 1 ≤ t := by rwa [UInt64.le_iff_toNat_le, UInt64.toNat_one]
  refine ⟨t - 1, ?_, hle, ?_⟩
  · rw [resolved, target?_retarget, ht, Option.map_some]
  · rw [UInt64.toNat_sub_of_le _ _ hone, UInt64.toNat_one]

theorem lt_size_of_authored {n : Nat} {i : Instruction} {t : UInt64}
    (hi : i.authored.JumpsWithin n) (ht : i.target? = some t) : t.toNat + 1 < UInt64.size := by
  have ht' : i.authored.target? = some (t + 1) := by
    rw [authored, target?_retarget, ht, Option.map_some]
  have hle := (jumpsWithin_iff.mp hi (t + 1) ht').1
  have hlt : t.toNat < UInt64.size := t.toNat_lt_size
  rw [UInt64.toNat_add, UInt64.toNat_one] at hle
  -- the highest address would become zero, which is no line
  simp only [UInt64.size] at hlt ⊢
  omega

theorem jumpsWithin_iff_of_isJump {n : Nat} {i : Instruction} :
    i.JumpsWithin n ↔
      (i.opcode.isJump = true → ∃ t, i.target? = some t ∧ 1 ≤ t.toNat ∧ t.toNat ≤ n) := by
  cases i <;> simp [JumpsWithin, opcode, Opcode.isJump, target?]

theorem not_jumpsWithin_iff {n : Nat} {i : Instruction} :
    ¬i.JumpsWithin n ↔ ∃ t, i.target? = some t ∧ (t.toNat = 0 ∨ n < t.toNat) := by
  cases i with
  | jump branch t =>
      simp only [JumpsWithin, target?, Option.some.injEq, exists_eq_left']
      omega
  | _ => simp [JumpsWithin, target?]

end Instruction

namespace Program

variable {n line : Nat} {i : Instruction} {lines : List Instruction} {p : Program}

theorem firstStray_cons (n line : Nat) (i : Instruction) (rest : List Instruction) :
    firstStray n line (i :: rest) =
      if i.JumpsWithin n then firstStray n (line + 1) rest else i.target?.map (line, ·) := by
  cases i <;> rfl

theorem firstStray_eq_some {k : Nat} {t : UInt64} :
    firstStray n line lines = some (k, t) ↔
      ∃ before i after, lines = before ++ i :: after ∧ (∀ j ∈ before, j.JumpsWithin n) ∧
        ¬i.JumpsWithin n ∧ i.target? = some t ∧ k = line + before.length := by
  induction lines generalizing line with
  | nil => simp [firstStray]
  | cons i rest ih =>
      rw [firstStray_cons]
      by_cases hi : i.JumpsWithin n
      · rw [if_pos hi, ih]
        constructor
        · rintro ⟨before, j, after, rfl, hbefore, hj, ht, rfl⟩
          refine ⟨i :: before, j, after, rfl, ?_, hj, ht, ?_⟩
          · exact List.forall_mem_cons.mpr ⟨hi, hbefore⟩
          · rw [List.length_cons]
            omega
        · rintro ⟨before, j, after, hl, hbefore, hj, ht, rfl⟩
          cases before with
          | nil =>
              obtain ⟨rfl, _⟩ := List.cons.inj hl
              exact absurd hi hj
          | cons b before =>
              obtain ⟨rfl, rfl⟩ := List.cons.inj hl
              refine ⟨before, j, after, rfl, (List.forall_mem_cons.mp hbefore).2, hj, ht, ?_⟩
              rw [List.length_cons]
              omega
      · rw [if_neg hi]
        constructor
        · intro h
          obtain ⟨u, hu, he⟩ := Option.map_eq_some_iff.mp h
          cases he
          exact ⟨[], i, rest, rfl, List.forall_mem_nil _, hi, hu, rfl⟩
        · rintro ⟨before, j, after, hl, hbefore, hj, ht, rfl⟩
          cases before with
          | nil =>
              obtain ⟨rfl, _⟩ := List.cons.inj hl
              rw [ht]
              rfl
          | cons b before =>
              obtain ⟨rfl, _⟩ := List.cons.inj hl
              exact absurd (List.forall_mem_cons.mp hbefore).1 hi

theorem assemble_eq_error {e : BuildError} :
    assemble lines = .error e ↔
      ∃ before i after t, lines = before ++ i :: after ∧
        (∀ j ∈ before, j.JumpsWithin lines.length) ∧ ¬i.JumpsWithin lines.length ∧
        i.target? = some t ∧ e = .strayJump (before.length + 1) t lines.length := by
  unfold assemble
  constructor
  · intro h
    split at h
    · next k t hk =>
        cases h
        obtain ⟨before, i, after, hl, hbefore, hi, ht, rfl⟩ := firstStray_eq_some.mp hk
        exact ⟨before, i, after, t, hl, hbefore, hi, ht, by rw [Nat.add_comm]⟩
    · cases h
  · rintro ⟨before, i, after, t, hl, hbefore, hi, ht, rfl⟩
    have hstray : firstStray lines.length 1 lines = some (1 + before.length, t) :=
      firstStray_eq_some.mpr ⟨before, i, after, hl, hbefore, hi, ht, rfl⟩
    split
    · next k u hk =>
        cases hstray.symm.trans hk
        rw [Nat.add_comm]
    · next hnone => cases hstray.symm.trans hnone

theorem fetch?_of_assemble (h : assemble lines = .ok p) (k : Nat) :
    p.fetch? k = lines[k]?.map Instruction.resolved := by
  rw [fetch?, instructions_of_assemble h, List.getElem?_map]

theorem jumpsWithin_of_assemble (h : assemble lines = .ok p) (hi : i ∈ lines) :
    i.JumpsWithin lines.length := by
  rw [assemble_eq_ok.mp h] at hi ⊢
  exact p.jumpsWithin_authored i hi

theorem exists_assemble_iff :
    (∃ p, assemble lines = .ok p) ↔ ∀ i ∈ lines, i.JumpsWithin lines.length := by
  constructor
  · rintro ⟨p, hp⟩ i hi
    exact jumpsWithin_of_assemble hp hi
  · intro h
    cases ha : assemble lines with
    | ok p => exact ⟨p, rfl⟩
    | error e =>
        obtain ⟨before, i, after, t, hl, _, hi, _⟩ := assemble_eq_error.mp ha
        have hmem : i ∈ lines := by
          rw [hl]
          exact List.mem_append_right _ (List.mem_cons_self ..)
        exact absurd (h i hmem) hi

theorem assemble_and_authored_are_inverse :
    (∀ (lines : List Instruction) (p : Program), assemble lines = .ok p →
      p.authored = lines ∧ p.length = lines.length ∧
      ∀ k i, lines[k]? = some i → ∃ j, p.fetch? k = some j ∧ j.opcode = i.opcode ∧
        (i.opcode.isJump = true → ∃ t u, i.target? = some t ∧ j.target? = some u ∧
          1 ≤ t.toNat ∧ u.toNat = t.toNat - 1) ∧
        (i.opcode.isJump = false → j = i)) ∧
    ∀ p : Program, assemble p.authored = .ok p ∧
      ∀ i ∈ p.instructions, ∀ t, i.target? = some t → t.toNat + 1 < UInt64.size := by
  refine ⟨?_, ?_⟩
  · intro lines p h
    refine ⟨(assemble_eq_ok.mp h).symm, length_of_assemble h, ?_⟩
    intro k i hi
    refine ⟨i.resolved, ?_, i.opcode_resolved, ?_, Instruction.resolved_of_not_jump⟩
    · rw [fetch?_of_assemble h, hi, Option.map_some]
    · intro hjump
      obtain ⟨t, ht⟩ := i.exists_target_of_isJump hjump
      obtain ⟨u, hu⟩ :=
        Instruction.target_resolved (jumpsWithin_of_assemble h (List.mem_of_getElem? hi)) ht
      exact ⟨t, u, ht, hu⟩
  · intro p
    refine ⟨assemble_eq_ok.mpr rfl, ?_⟩
    intro i hi t ht
    exact Instruction.lt_size_of_authored (p.inRange i hi) ht

theorem fourth_line_stored_as_third :
    ∃ p, assemble [.inbox, .jump .ifZero 4, .jump .always 1, .outbox, .jump .always 1] = .ok p ∧
      p.authored = [.inbox, .jump .ifZero 4, .jump .always 1, .outbox, .jump .always 1] ∧
      p.length = 5 ∧ ∃ j u, p.fetch? 1 = some j ∧ j.opcode = .jump .ifZero ∧
        j.target? = some u ∧ u.toNat = 3 := by
  obtain ⟨p, hp⟩ : ∃ p, assemble [.inbox, .jump .ifZero 4, .jump .always 1, .outbox,
      .jump .always 1] = .ok p := ⟨_, rfl⟩
  obtain ⟨hlines, hlen, hstored⟩ := assemble_and_authored_are_inverse.1 _ p hp
  obtain ⟨j, hj, hop, hjump, _⟩ := hstored 1 (.jump .ifZero 4) rfl
  obtain ⟨t, u, ht, hu, _, hval⟩ := hjump rfl
  cases ht
  exact ⟨p, hp, hlines, hlen, j, u, hj, hop, hu, hval⟩

theorem assemble_accepts_exactly_inner_jumps (lines : List Instruction) :
    ((∃ p, assemble lines = .ok p) ↔
      ∀ i ∈ lines, i.opcode.isJump = true →
        ∃ t, i.target? = some t ∧ 1 ≤ t.toNat ∧ t.toNat ≤ lines.length) ∧
    ∀ e, assemble lines = .error e ↔
      ∃ before i after t, lines = before ++ i :: after ∧
        (∀ j ∈ before, ∀ u, j.target? = some u → 1 ≤ u.toNat ∧ u.toNat ≤ lines.length) ∧
        i.target? = some t ∧ (t.toNat = 0 ∨ lines.length < t.toNat) ∧
        e = .strayJump (before.length + 1) t lines.length := by
  refine ⟨?_, fun e => ?_⟩
  · rw [exists_assemble_iff]
    exact forall₂_congr fun i _ => Instruction.jumpsWithin_iff_of_isJump
  · rw [assemble_eq_error]
    constructor
    · rintro ⟨before, i, after, t, hl, hbefore, hi, ht, rfl⟩
      obtain ⟨u, hu, hstray⟩ := Instruction.not_jumpsWithin_iff.mp hi
      obtain rfl := Option.some.inj (ht.symm.trans hu)
      refine ⟨before, i, after, t, hl, ?_, ht, hstray, rfl⟩
      exact fun j hj => Instruction.jumpsWithin_iff.mp (hbefore j hj)
    · rintro ⟨before, i, after, t, hl, hbefore, ht, hstray, rfl⟩
      refine ⟨before, i, after, t, hl, ?_, ?_, ht, rfl⟩
      · exact fun j hj => Instruction.jumpsWithin_iff.mpr (hbefore j hj)
      · exact Instruction.not_jumpsWithin_iff.mpr ⟨t, ht, hstray⟩

end Program

end OfficeMachine
