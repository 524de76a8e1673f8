import OfficeMachine.Proofs.Scene

namespace OfficeMachine

open Scene

def trail (n : Int) : List Int := (List.range (n.natAbs + 1)).map fun k : Nat => n - n.sign * k

theorem trail_zero : trail 0 = [0] := rfl

theorem trail_reaches_zero (n : Int) :
    (trail n).length = n.natAbs + 1 ∧ (trail n).getLast? = some 0 := by
  constructor
  · rw [trail, List.length_map, List.length_range]
  · rw [trail, List.range_succ, List.map_append, List.map_singleton, List.getLast?_concat,
      Int.sign_mul_natAbs, Int.sub_self]

theorem natAbs_eq_succ {n : Int} (h : n ≠ 0) : n.natAbs = (n - n.sign).natAbs + 1 := by
  rcases Int.lt_or_gt_of_ne h with hn | hn
  · rw [Int.sign_eq_neg_one_of_neg hn]
    omega
  · rw [Int.sign_eq_one_of_pos hn]
    omega

theorem sign_mul_of_le {n : Int} (h : n ≠ 0) {k : Nat} (hk : k ≤ (n - n.sign).natAbs) :
    (n - n.sign).sign * k = n.sign * k := by
  rcases Nat.eq_zero_or_pos k with rfl | hpos
  · simp
  · rcases Int.lt_or_gt_of_ne h with hn | hn
    · rw [Int.sign_eq_neg_one_of_neg hn] at hk ⊢
      rw [Int.sign_eq_neg_one_of_neg (by omega)]
    · rw [Int.sign_eq_one_of_pos hn] at hk ⊢
      rw [Int.sign_eq_one_of_pos (by omega)]

theorem trail_of_ne_zero {n : Int} (h : n ≠ 0) : trail n = n :: trail (n - n.sign) := by
  rw [trail, natAbs_eq_succ h, List.range_succ_eq_map, List.map_cons, List.map_map]
  congr 1
  · rw [Int.natCast_zero, Int.mul_zero, Int.sub_zero]
  · refine List.map_congr_left fun k hk => ?_
    rw [sign_mul_of_le h (Nat.lt_succ_iff.mp (List.mem_range.mp hk)), Function.comp_apply,
      Int.natCast_succ, Int.mul_add, Int.mul_one]
    omega

namespace Puzzle

variable {n m : Number} {hands : Value} {floor : Floor} {pending given : List Value}

theorem countdown_shows (hf : 0 < floor.size) (hn : floor.tile 0 = .number n) :
    Leads countdown.program 3 ⟨2, hands, floor, pending, given⟩
      ⟨5, .number n, floor, pending, given ++ [.number n]⟩ := by
  have hj : floor.locate .direct (.tileAddress 0) = .ok 0 := Floor.locate_direct hf
  have hne : Value.number n ≠ .empty := nofun
  calc
    Leads countdown.program 1 ⟨2, hands, floor, pending, given⟩
      ⟨3, .number n, floor, pending, given⟩ := .copyFrom rfl hj hn hne
    Leads countdown.program 1 _ ⟨4, .number n, floor, pending, given ++ [.number n]⟩ :=
      .outbox rfl hne
    Leads countdown.program 1 _ ⟨5, .number n, floor, pending, given ++ [.number n]⟩ :=
      .copyFrom rfl hj hn hne

theorem countdown_goes_on (hf : 0 < floor.size) (hn : floor.tile 0 = .number n) (h0 : n.val ≠ 0) :
    Leads countdown.program 4 ⟨2, hands, floor, pending, given⟩
      ⟨6, .number n, floor, pending, given ++ [.number n]⟩ := by
  have hzero : Branch.ifZero.taken? (.number n) = some false := by
    simp [Branch.taken?, Number.isZero, h0]
  calc
    Leads countdown.program 3 ⟨2, hands, floor, pending, given⟩
      ⟨5, .number n, floor, pending, given ++ [.number n]⟩ := countdown_shows hf hn
    Leads countdown.program 1 _ ⟨6, .number n, floor, pending, given ++ [.number n]⟩ :=
      .pass rfl hzero

theorem countdown_moves (hf : 0 < floor.size) (hn : floor.tile 0 = .number n) (h0 : n.val ≠ 0)
    (hm : m.val = n.val - n.val.sign) :
    Leads countdown.program 3 ⟨6, .number n, floor, pending, given⟩
      ⟨2, .number m, floor.put 0 (.number m), pending, given⟩ := by
  have hj : floor.locate .direct (.tileAddress 0) = .ok 0 := Floor.locate_direct hf
  rcases Int.lt_or_gt_of_ne h0 with hneg | hpos
  · have hup : n.increment = .ok m := Number.ofResult_eq_ok.mpr (by
      rw [hm, Int.sign_eq_neg_one_of_neg hneg]
      omega)
    have htaken : Branch.ifNegative.taken? (.number n) = some true := by
      simp [Branch.taken?, Number.isNegative, hneg]
    calc
      Leads countdown.program 1 ⟨6, .number n, floor, pending, given⟩
        ⟨9, .number n, floor, pending, given⟩ := .jump (t := 9) rfl htaken
      Leads countdown.program 1 _ ⟨10, .number m, floor.put 0 (.number m), pending, given⟩ :=
        .bump rfl rfl hj hn hup
      Leads countdown.program 1 _ ⟨2, .number m, floor.put 0 (.number m), pending, given⟩ :=
        .jump (t := 2) rfl rfl
  · have hdown : n.decrement = .ok m := Number.ofResult_eq_ok.mpr (by
      rw [hm, Int.sign_eq_one_of_pos hpos])
    have hpass : Branch.ifNegative.taken? (.number n) = some false := by
      simp [Branch.taken?, Number.isNegative, Int.le_of_lt hpos]
    calc
      Leads countdown.program 1 ⟨6, .number n, floor, pending, given⟩
        ⟨7, .number n, floor, pending, given⟩ := .pass rfl hpass
      Leads countdown.program 1 _ ⟨8, .number m, floor.put 0 (.number m), pending, given⟩ :=
        .bump rfl rfl hj hn hdown
      Leads countdown.program 1 _ ⟨2, .number m, floor.put 0 (.number m), pending, given⟩ :=
        .jump (t := 2) rfl rfl

theorem countdown_ends (hf : 0 < floor.size) (hn : floor.tile 0 = .number n) (h0 : n.val = 0) :
    Leads countdown.program 4 ⟨2, hands, floor, pending, given⟩
      ⟨0, .number n, floor, pending, given ++ [.number n]⟩ := by
  have hzero : Branch.ifZero.taken? (.number n) = some true := by
    simp [Branch.taken?, Number.isZero, h0]
  calc
    Leads countdown.program 3 ⟨2, hands, floor, pending, given⟩
      ⟨5, .number n, floor, pending, given ++ [.number n]⟩ := countdown_shows hf hn
    Leads countdown.program 1 _ ⟨0, .number n, floor, pending, given ++ [.number n]⟩ :=
      .jump (t := 0) rfl hzero

-- The induction is on the distance from zero, which each turn makes less by one.
theorem countdown_follows_trail {k : Nat} (hk : n.val.natAbs = k) (hf : 0 < floor.size)
    (hn : floor.tile 0 = .number n) (hands : Value) (given : List Value) :
    ∃ vs hands' floor', Value.numbers (trail n.val) = .ok vs ∧ floor'.size = floor.size ∧
      Leads countdown.program (7 * k + 4) ⟨2, hands, floor, pending, given⟩
        ⟨0, hands', floor', pending, given ++ vs⟩ := by
  induction k generalizing n floor hands given with
  | zero =>
      have h0 : n.val = 0 := Int.natAbs_eq_zero.mp hk
      have htrail : trail n.val = [n.val] := by rw [h0, trail_zero]
      refine ⟨[.number n], _, floor, ?_, rfl, countdown_ends hf hn h0⟩
      rw [htrail]
      exact Value.numbers_cons n rfl
  | succ k ih =>
      have h0 : n.val ≠ 0 := by omega
      have hlow := n.lower
      have hup := n.upper
      have habs := natAbs_eq_succ h0
      obtain ⟨m, hm⟩ : ∃ m : Number, m.val = n.val - n.val.sign :=
        ⟨⟨n.val - n.val.sign, by omega, by omega⟩, rfl⟩
      have hf' : 0 < (floor.put 0 (.number m)).size := by rwa [Floor.size_put]
      obtain ⟨vs, hands', floor', hvs, hsize, hrest⟩ := ih (by rw [hm]; omega) hf'
        (Floor.tile_put_self hf _) (.number m) (given ++ [.number n])
      refine ⟨.number n :: vs, hands', floor', ?_, ?_, ?_⟩
      · rw [trail_of_ne_zero h0, ← hm]
        exact Value.numbers_cons n hvs
      · rw [hsize, Floor.size_put]
      · have hcount : 7 * (k + 1) + 4 = 7 + (7 * k + 4) := by omega
        rw [hcount, List.append_cons]
        exact ((countdown_goes_on hf hn h0).trans (countdown_moves hf hn h0 hm)).trans hrest

def countdownLength : List Number → Nat
  | [] => 0
  | n :: ns => 7 * n.val.natAbs + 6 + countdownLength ns

theorem countdown_takes_inputs (ns : List Number) (hf : 0 < floor.size) (hands : Value)
    (given : List Value) :
    ∃ vs hands' floor', Value.numbers (ns.flatMap fun n => trail n.val) = .ok vs ∧
      Leads countdown.program (countdownLength ns) ⟨0, hands, floor, ns.map .number, given⟩
        ⟨0, hands', floor', [], given ++ vs⟩ := by
  induction ns generalizing floor hands given with
  | nil =>
      refine ⟨[], hands, floor, rfl, ?_⟩
      rw [List.append_nil]
      exact .refl _
  | cons n ns ih =>
      have hne : Value.number n ≠ .empty := nofun
      have hf' : 0 < (floor.put 0 (.number n)).size := by rwa [Floor.size_put]
      obtain ⟨us, hands₁, floor₁, hus, hsize, htrail⟩ :=
        countdown_follows_trail rfl hf' (Floor.tile_put_self hf _) .empty given
      obtain ⟨vs, hands₂, floor₂, hvs, hrest⟩ := ih (by rwa [hsize]) hands₁ (given ++ us)
      refine ⟨us ++ vs, hands₂, floor₂, Value.numbers_append hus hvs, ?_⟩
      have hcount : countdownLength (n :: ns) =
          1 + 1 + (7 * n.val.natAbs + 4) + countdownLength ns := by
        rw [countdownLength]
        omega
      rw [hcount, ← List.append_assoc]
      calc
        Leads countdown.program 1 ⟨0, hands, floor, (n :: ns).map .number, given⟩
          ⟨1, .number n, floor, ns.map .number, given⟩ := .inbox rfl
        Leads countdown.program 1 _
          ⟨2, .empty, floor.put 0 (.number n), ns.map .number, given⟩ :=
          .copyTo rfl hne (Floor.locate_direct hf)
        Leads countdown.program (7 * n.val.natAbs + 4) _
          ⟨0, hands₁, floor₁, ns.map .number, given ++ us⟩ := htrail
        Leads countdown.program _ _ ⟨0, hands₂, floor₂, [], given ++ us ++ vs⟩ := hrest

theorem countdown_counts_to_zero (ns : List Number) (config : Config)
    (hb : countdownLength ns ≤ config.budget) :
    ∃ r, (Machine.batch countdown.program (.ofRoom countdown.room) (ns.map .number) config).run =
        .ok r ∧
      r.halt = .inputExhausted ∧
      Value.numbers (ns.flatMap fun n => trail n.val) = .ok r.outputs ∧
      (∀ n ∈ ns, (trail n.val).length = n.val.natAbs + 1 ∧ (trail n.val).getLast? = some 0) ∧
      r.executed = countdownLength ns ∧ r.remaining = [] := by
  have hf : 0 < (Floor.ofRoom countdown.room).size := by decide
  obtain ⟨vs, hands, floor, hvs, h⟩ := countdown_takes_inputs ns hf .empty []
  refine ⟨_, h.run_exhausted hb rfl rfl, rfl, hvs, ?_, rfl, rfl⟩
  exact fun n _ => trail_reaches_zero n.val

theorem countdown_within_exact_budget :
    ∃ r, (Machine.batch countdown.program (.ofRoom countdown.room) countdown.inbox ⟨53, true⟩).run =
        .ok r ∧
      r.halt = .inputExhausted ∧ Value.numbers [3, 2, 1, 0, -2, -1, 0, 0] = .ok r.outputs ∧
      r.executed = 53 ∧ r.remaining = [] := by
  obtain ⟨r, hrun, hhalt, hout, _, hcount, hleft⟩ := countdown_counts_to_zero
    [⟨3, by decide, by decide⟩, ⟨-2, by decide, by decide⟩, .zero] ⟨53, true⟩ (by decide)
  exact ⟨r, hrun, hhalt, hout, hcount, hleft⟩

end Puzzle

end OfficeMachine
