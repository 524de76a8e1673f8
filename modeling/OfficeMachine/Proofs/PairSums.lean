import OfficeMachine.Proofs.Scene

namespace OfficeMachine

open Scene

section Pairs

variable {α : Type}

def inPairs : List α → List (α × α)
  | a :: b :: rest => (a, b) :: inPairs rest
  | _ => []

def leftOver : List α → List α
  | _ :: _ :: rest => leftOver rest
  | l => l

def outOfPairs (xs : List (α × α)) : List α := xs.flatMap fun x => [x.1, x.2]

theorem outOfPairs_append_leftOver : ∀ l : List α, outOfPairs (inPairs l) ++ leftOver l = l
  | [] => rfl
  | [_] => rfl
  | a :: b :: rest => congrArg (a :: b :: ·) (outOfPairs_append_leftOver rest)

theorem leftOver_cases : ∀ l : List α, leftOver l = [] ∨ ∃ a, leftOver l = [a]
  | [] => .inl rfl
  | [a] => .inr ⟨a, rfl⟩
  | _ :: _ :: rest => leftOver_cases rest

end Pairs

namespace Number

def pairSum (x : Number × Number) : Int := x.1.val + x.2.val

def SumFits (x : Number × Number) : Prop := -999 ≤ pairSum x ∧ pairSum x ≤ 999

instance : DecidablePred SumFits := fun _ => inferInstanceAs (Decidable (_ ∧ _))

theorem add_of_fits {a b : Number} (h : SumFits (a, b)) :
    ∃ c : Number, b.add a = .ok c ∧ c.val = pairSum (a, b) := by
  refine ⟨⟨pairSum (a, b), h.1, h.2⟩, ofResult_eq_ok.mpr ?_, rfl⟩
  exact Int.add_comm ..

theorem add_of_not_fits {a b : Number} (h : ¬SumFits (a, b)) :
    ∃ e, b.add a = .error e ∧ (999 < a.val + b.val → e.fault = .overflow) ∧
      (a.val + b.val < -999 → e.fault = .underflow) := by
  by_cases hi : 999 < a.val + b.val
  · refine ⟨.above (b.val + a.val), ofResult_eq_above.mpr ⟨by omega, rfl⟩, fun _ => rfl, ?_⟩
    omega
  · have hout : ¬(-999 ≤ a.val + b.val ∧ a.val + b.val ≤ 999) := h
    have hlo : a.val + b.val < -999 := by omega
    exact ⟨.below (b.val + a.val), ofResult_eq_below.mpr ⟨by omega, rfl⟩, fun hc => absurd hc hi,
      fun _ => rfl⟩

end Number

open Number

namespace Puzzle

variable {a b c : Number} {hands : Value} {floor : Floor} {pending given : List Value}

theorem rainySummer_stores (hf : 0 < floor.size) :
    Leads rainySummer.program 2 ⟨0, hands, floor, .number a :: pending, given⟩
      ⟨2, .empty, floor.put 0 (.number a), pending, given⟩ := by
  have hne : Value.number a ≠ .empty := nofun
  calc
    Leads rainySummer.program 1 ⟨0, hands, floor, .number a :: pending, given⟩
      ⟨1, .number a, floor, pending, given⟩ := .inbox rfl
    Leads rainySummer.program 1 _ ⟨2, .empty, floor.put 0 (.number a), pending, given⟩ :=
      .copyTo rfl hne (Floor.locate_direct hf)

theorem rainySummer_meets (hf : 0 < floor.size) :
    Leads rainySummer.program 3 ⟨0, hands, floor, .number a :: .number b :: pending, given⟩
      ⟨3, .number b, floor.put 0 (.number a), pending, given⟩ :=
  (rainySummer_stores hf).trans (.inbox rfl)

theorem rainySummer_adds (hf : 0 < floor.size) (hc : b.add a = .ok c) :
    Leads rainySummer.program 6 ⟨0, hands, floor, .number a :: .number b :: pending, given⟩
      ⟨0, .number c, floor.put 0 (.number a), pending, given ++ [.number c]⟩ := by
  have hj : (floor.put 0 (.number a)).locate .direct (.tileAddress 0) = .ok 0 :=
    Floor.locate_direct (by rwa [Floor.size_put])
  have hne : Value.number c ≠ .empty := nofun
  calc
    Leads rainySummer.program 3 ⟨0, hands, floor, .number a :: .number b :: pending, given⟩
      ⟨3, .number b, floor.put 0 (.number a), pending, given⟩ := rainySummer_meets hf
    Leads rainySummer.program 1 _ ⟨4, .number c, floor.put 0 (.number a), pending, given⟩ :=
      .combine rfl rfl hj (Floor.tile_put_self hf _) hc
    Leads rainySummer.program 1 _
      ⟨5, .number c, floor.put 0 (.number a), pending, given ++ [.number c]⟩ := .outbox rfl hne
    Leads rainySummer.program 1 _
      ⟨0, .number c, floor.put 0 (.number a), pending, given ++ [.number c]⟩ :=
      .jump (t := 0) rfl rfl

theorem rainySummer_adds_all {xs : List (Number × Number)} (hfit : ∀ x ∈ xs, SumFits x)
    (hf : 0 < floor.size) (hands : Value) (pending given : List Value) :
    ∃ vs hands' floor', Value.numbers (xs.map pairSum) = .ok vs ∧ 0 < floor'.size ∧
      Leads rainySummer.program (6 * xs.length)
        ⟨0, hands, floor, (outOfPairs xs).map .number ++ pending, given⟩
        ⟨0, hands', floor', pending, given ++ vs⟩ := by
  induction xs generalizing floor hands given with
  | nil =>
      refine ⟨[], hands, floor, rfl, hf, ?_⟩
      rw [List.append_nil]
      exact .refl _
  | cons x xs ih =>
      obtain ⟨a, b⟩ := x
      obtain ⟨hx, hxs⟩ := List.forall_mem_cons.mp hfit
      obtain ⟨c, hc, hsum⟩ := add_of_fits hx
      have hf' : 0 < (floor.put 0 (.number a)).size := by rwa [Floor.size_put]
      obtain ⟨vs, hands', floor', hvs, hsize, hrest⟩ :=
        ih hxs hf' (.number c) (given ++ [.number c])
      refine ⟨.number c :: vs, hands', floor', ?_, hsize, ?_⟩
      · rw [List.map_cons, ← hsum]
        exact Value.numbers_cons c hvs
      · have hcount : 6 * ((a, b) :: xs).length = 6 + 6 * xs.length := by
          rw [List.length_cons]
          omega
        rw [hcount, List.append_cons]
        exact (rainySummer_adds hf hc).trans hrest

theorem rainySummer_meets_pair {ns : List Number} {before after : List (Number × Number)}
    (hpairs : inPairs ns = before ++ (a, b) :: after) (hfit : ∀ x ∈ before, SumFits x)
    (hf : 0 < floor.size) :
    ∃ vs, ∃ floor' : Floor, ∃ pending, Value.numbers (before.map pairSum) = .ok vs ∧ 0 < floor'.size ∧
      Leads rainySummer.program (6 * before.length + 3) (start floor (ns.map .number))
        ⟨3, .number b, floor'.put 0 (.number a), pending, vs⟩ := by
  have hns : ns = outOfPairs before ++ a :: b :: (outOfPairs after ++ leftOver ns) := by
    conv => lhs; rw [← outOfPairs_append_leftOver ns]
    rw [hpairs, outOfPairs, List.flatMap_append, List.append_assoc]
    rfl
  obtain ⟨vs, hands, floor', hvs, hsize, h⟩ := rainySummer_adds_all hfit hf .empty
    ((a :: b :: (outOfPairs after ++ leftOver ns)).map .number) []
  rw [← List.map_append, ← hns] at h
  exact ⟨vs, floor', _, hvs, hsize, h.trans (rainySummer_meets hsize)⟩

theorem rainySummer_sums_pairs (ns : List Number) (config : Config) :
    ((∀ x ∈ inPairs ns, SumFits x) →
      6 * (inPairs ns).length + 2 * (leftOver ns).length ≤ config.budget →
      ∃ r, (Machine.batch rainySummer.program (.ofRoom rainySummer.room) (ns.map .number)
          config).run = .ok r ∧
        r.halt = .inputExhausted ∧ Value.numbers ((inPairs ns).map pairSum) = .ok r.outputs ∧
        r.executed = 6 * (inPairs ns).length + 2 * (leftOver ns).length) ∧
    ∀ before a b after, inPairs ns = before ++ (a, b) :: after → (∀ x ∈ before, SumFits x) →
      ¬SumFits (a, b) → 6 * before.length + 3 < config.budget →
      ∃ r, (Machine.batch rainySummer.program (.ofRoom rainySummer.room) (ns.map .number)
          config).run = .ok r ∧
        (999 < a.val + b.val → r.halt = .fault .overflow 3) ∧
        (a.val + b.val < -999 → r.halt = .fault .underflow 3) ∧
        Value.numbers (before.map pairSum) = .ok r.outputs ∧ r.hands = .number b ∧
        r.floor.tile 0 = .number a ∧ r.executed = 6 * before.length + 3 := by
  have hf : 0 < (Floor.ofRoom rainySummer.room).size := by decide
  refine ⟨fun hfit hb => ?_, fun before a b after hpairs hfit hbad hb => ?_⟩
  · obtain ⟨vs, hands, floor, hvs, hsize, h⟩ :=
      rainySummer_adds_all hfit hf .empty ((leftOver ns).map .number) []
    rw [← List.map_append, outOfPairs_append_leftOver] at h
    rcases leftOver_cases ns with hleft | ⟨c, hleft⟩
    · rw [hleft] at h hb ⊢
      exact ⟨_, h.run_exhausted hb rfl rfl, rfl, hvs, rfl⟩
    · rw [hleft] at h hb ⊢
      exact ⟨_, (h.trans (rainySummer_stores hsize)).run_exhausted hb rfl rfl, rfl, hvs, rfl⟩
  · obtain ⟨vs, floor, pending, hvs, hsize, h⟩ := rainySummer_meets_pair hpairs hfit hf
    obtain ⟨e, he, hover, hunder⟩ := add_of_not_fits hbad
    have htile := Floor.tile_put_self hsize (.number a)
    have hfaults (o : Office Batch)
        (ho : o.scene = ⟨3, .number b, floor.put 0 (.number a), pending, vs⟩) :
        o.Faults (.tile .add .direct 0) e.fault := by
      have hfloor : o.floor = floor.put 0 (.number a) := congrArg Scene.floor ho
      refine .combineRange rfl (congrArg Scene.hands ho) ?_ (hfloor ▸ htile) he
      exact Floor.locate_direct (by rwa [hfloor, Floor.size_put])
    refine ⟨_, h.run_faults hb rfl hfaults, ?_, ?_, hvs, rfl, htile, rfl⟩
    · exact fun hi => congrArg (Halt.fault · 3) (hover hi)
    · exact fun hlo => congrArg (Halt.fault · 3) (hunder hlo)

theorem rainySummer_underflows_at_second_pair :
    ∃ ns : List Number, ns.map Number.val = [500, 499, -999, -1, 7] ∧
      inPairs (ns.map Number.val) = [(500, 499), (-999, -1)] ∧
      (∃ r, (Machine.batch rainySummer.program (.ofRoom rainySummer.room) (ns.map .number)
          ⟨10, false⟩).run = .ok r ∧
        r.halt = .fault .underflow 3 ∧ Value.numbers [999] = .ok r.outputs ∧ r.executed = 9) ∧
      ∃ r, (Machine.batch rainySummer.program (.ofRoom rainySummer.room)
          ((ns.take 1).map .number) ⟨2, true⟩).run = .ok r ∧
        r.halt = .inputExhausted ∧ Value.numbers [] = .ok r.outputs ∧ r.executed = 2 := by
  let fiveHundred : Number := ⟨500, by decide, by decide⟩
  let nextDown : Number := ⟨499, by decide, by decide⟩
  let minusOne : Number := ⟨-1, by decide, by decide⟩
  let ns := [fiveHundred, nextDown, .least, minusOne, ⟨7, by decide, by decide⟩]
  refine ⟨ns, rfl, rfl, ?_, ?_⟩
  · obtain ⟨r, hrun, _, hunder, hout, _, _, hcount⟩ := (rainySummer_sums_pairs ns ⟨10, false⟩).2
      [(fiveHundred, nextDown)] .least minusOne [] rfl (by decide) (by decide) (by decide)
    exact ⟨r, hrun, hunder (by decide), hout, hcount⟩
  · exact (rainySummer_sums_pairs [fiveHundred] ⟨2, true⟩).1 (List.forall_mem_nil _) (by decide)

end Puzzle

end OfficeMachine
