import OfficeMachine.Proofs.Addressing
import OfficeMachine.Proofs.Scene

namespace OfficeMachine

open Scene

namespace Puzzle

def table : Floor := .ofRoom lookupTable.room

def IsKey : Value → Prop
  | .number n => 0 ≤ n.val ∧ n.val ≤ 4 ∨ n.val = 9
  | _ => False

instance : DecidablePred IsKey
  | .number n => inferInstanceAs (Decidable (0 ≤ n.val ∧ n.val ≤ 4 ∨ n.val = 9))
  | .empty => isFalse id
  | .letter _ => isFalse id
  | .tileAddress _ => isFalse id
  | .lineAddress _ => isFalse id

def lookedUp : Value → Value
  | .number n => if n.val = 9 then .number n else table.tile n.val.toNat
  | v => v

def missFault : Value → Fault
  | .number n => if 5 ≤ n.val ∧ n.val ≤ 8 then .emptyTile else .addressRange
  | _ => .addressKind

theorem table_letters : ∀ i < 5, (table.tile i).kind = .letter := by decide

theorem table_gap : ∀ i < 9, 5 ≤ i → table.tile i = .empty := by decide

structure HasTable (floor : Floor) : Prop where
  size : floor.size = 10
  tile : ∀ i < 9, floor.tile i = table.tile i

theorem hasTable_table : HasTable table := ⟨by decide, fun _ _ => rfl⟩

variable {n : Number} {v hands : Value} {floor : Floor} {pending given : List Value}

namespace HasTable

theorem put (h : HasTable floor) (v : Value) : HasTable (floor.put 9 v) where
  size := by rw [Floor.size_put, h.size]
  tile i hi := by
    rw [Floor.tile_put, if_neg (by omega)]
    exact h.tile i hi

theorem pointer (h : HasTable floor) (v : Value) : (floor.put 9 v).tile 9 = v :=
  Floor.tile_put_self (by rw [h.size]; decide) v

theorem locate (h : HasTable floor) (v : Value) :
    (floor.put 9 v).locate .indirect (.tileAddress 9) = (floor.put 9 v).direct v := by
  have hlt : (9 : UInt64).toNat < (floor.put 9 v).size := by rw [(h.put v).size]; decide
  rw [Floor.locate_indirect hlt]
  exact congrArg _ (h.pointer v)

theorem locate_number (h : HasTable floor) (hlo : 0 ≤ n.val) (hhi : n.val ≤ 9) :
    (floor.put 9 (.number n)).locate .indirect (.tileAddress 9) = .ok n.val.toNat := by
  rw [h.locate, Floor.direct, Floor.find_of_names (.number n), (h.put _).size,
    if_pos ⟨hlo, by omega⟩]

theorem lookedUp_eq (h : HasTable floor) (hn : IsKey (.number n)) :
    (floor.put 9 (.number n)).tile n.val.toNat = lookedUp (.number n) := by
  rw [lookedUp]
  by_cases h9 : n.val = 9
  · rw [if_pos h9, h9]
    exact h.pointer _
  · have hlt : n.val.toNat < 9 := by
      rcases hn with hn | hn <;> omega
    rw [if_neg h9]
    exact (h.put _).tile _ hlt

theorem faults (h : HasTable floor) (hkind : v.kind = .number ∨ v.kind = .letter)
    (hv : ¬IsKey v) {o : Office Batch} (ho : o.floor = floor.put 9 v) :
    o.Faults (.tile .copyFrom .indirect 9) (missFault v) := by
  cases v with
  | number n =>
      have hkey : ¬(0 ≤ n.val ∧ n.val ≤ 4 ∨ n.val = 9) := hv
      rw [missFault]
      split
      · next hgap =>
          refine .copyFromTile (ho ▸ h.locate_number (by omega) (by omega)) ?_
          rw [ho, (h.put _).tile _ (by omega)]
          exact table_gap _ (by omega) (by omega)
      · next hgap =>
          refine .copyFromAddress ?_
          rw [ho, h.locate]
          refine (Floor.find_eq_range (by decide)).mpr ⟨n.val, .number n, ?_⟩
          rw [(h.put _).size]
          omega
  | letter c =>
      refine .copyFromAddress ?_
      rw [ho, h.locate]
      exact Floor.find_of_none rfl
  | _ => rcases hkind with hkind | hkind <;> cases hkind

end HasTable

theorem lookedUp_ne_empty (hn : IsKey (.number n)) : lookedUp (.number n) ≠ .empty := by
  rw [lookedUp]
  by_cases h9 : n.val = 9
  · rw [if_pos h9]
    nofun
  · have hlt : n.val.toNat < 5 := by
      rcases hn with hn | hn <;> omega
    have hletter := table_letters _ hlt
    rw [if_neg h9]
    intro he
    rw [he] at hletter
    cases hletter

theorem lookupTable_points (h : HasTable floor) (hv : v ≠ .empty) :
    Leads lookupTable.program 2 ⟨0, hands, floor, v :: pending, given⟩
      ⟨2, .empty, floor.put 9 v, pending, given⟩ := by
  have hlt : (9 : UInt64).toNat < floor.size := by rw [h.size]; decide
  calc
    Leads lookupTable.program 1 ⟨0, hands, floor, v :: pending, given⟩
      ⟨1, v, floor, pending, given⟩ := .inbox rfl
    Leads lookupTable.program 1 _ ⟨2, .empty, floor.put 9 v, pending, given⟩ :=
      .copyTo rfl hv (Floor.locate_direct hlt)

theorem lookupTable_answers (h : HasTable floor) (hn : IsKey (.number n)) :
    Leads lookupTable.program 5 ⟨0, hands, floor, .number n :: pending, given⟩
      ⟨0, lookedUp (.number n), floor.put 9 (.number n), pending,
        given ++ [lookedUp (.number n)]⟩ := by
  have hne := lookedUp_ne_empty hn
  have hlocate : (floor.put 9 (.number n)).locate .indirect (.tileAddress 9) =
      .ok n.val.toNat := by
    refine h.locate_number ?_ ?_ <;> rcases hn with hn | hn <;> omega
  calc
    Leads lookupTable.program 2 ⟨0, hands, floor, .number n :: pending, given⟩
      ⟨2, .empty, floor.put 9 (.number n), pending, given⟩ := lookupTable_points h nofun
    Leads lookupTable.program 1 _
      ⟨3, lookedUp (.number n), floor.put 9 (.number n), pending, given⟩ :=
      .copyFrom rfl hlocate (h.lookedUp_eq hn) hne
    Leads lookupTable.program 1 _
      ⟨4, lookedUp (.number n), floor.put 9 (.number n), pending,
        given ++ [lookedUp (.number n)]⟩ := .outbox rfl hne
    Leads lookupTable.program 1 _
      ⟨0, lookedUp (.number n), floor.put 9 (.number n), pending,
        given ++ [lookedUp (.number n)]⟩ := .jump (t := 0) rfl rfl

theorem lookupTable_answers_all {xs : List Value} (hxs : ∀ v ∈ xs, IsKey v) (h : HasTable floor)
    (hands : Value) (pending given : List Value) :
    ∃ hands' floor', HasTable floor' ∧ Leads lookupTable.program (5 * xs.length)
      ⟨0, hands, floor, xs ++ pending, given⟩
      ⟨0, hands', floor', pending, given ++ xs.map lookedUp⟩ := by
  induction xs generalizing floor hands given with
  | nil =>
      refine ⟨hands, floor, h, ?_⟩
      rw [List.map_nil, List.append_nil]
      exact .refl _
  | cons v xs ih =>
      obtain ⟨hv, hrest⟩ := List.forall_mem_cons.mp hxs
      obtain ⟨hands', floor', h', hleads⟩ :=
        ih hrest (h.put v) (lookedUp v) (given ++ [lookedUp v])
      refine ⟨hands', floor', h', ?_⟩
      have hcount : 5 * (v :: xs).length = 5 + 5 * xs.length := by
        rw [List.length_cons]
        omega
      rw [hcount, List.map_cons, List.append_cons]
      cases v with
      | number n => exact (lookupTable_answers h hv).trans hleads
      | _ => cases hv

theorem lookupTable_looks_up_every_key (inputs : List Value)
    (hinputs : ∀ v ∈ inputs, v.kind = .number ∨ v.kind = .letter) (config : Config) :
    (∀ i < 5, (table.tile i).kind = .letter) ∧
    ∃ xs rest, inputs.takeWhile (fun v => IsKey v) = xs ∧
      inputs.dropWhile (fun v => IsKey v) = rest ∧
      (rest = [] → 5 * xs.length ≤ config.budget →
        ∃ r, (Machine.batch lookupTable.program (.ofRoom lookupTable.room) inputs config).run =
            .ok r ∧
          r.halt = .inputExhausted ∧ r.executed = 5 * xs.length ∧
          r.outputs = xs.map lookedUp ∧ ∀ i < 9, r.floor.tile i = table.tile i) ∧
      ∀ v later, rest = v :: later → 5 * xs.length + 2 < config.budget →
        ∃ r, (Machine.batch lookupTable.program (.ofRoom lookupTable.room) inputs config).run =
            .ok r ∧
          r.halt = .fault (missFault v) 2 ∧ r.executed = 5 * xs.length + 2 ∧
          r.outputs = xs.map lookedUp ∧ r.floor.tile 9 = v ∧
          ∀ i < 9, r.floor.tile i = table.tile i := by
  refine ⟨table_letters, ?_⟩
  obtain ⟨hsplit, hxs, hnext⟩ := leading_part IsKey inputs
  obtain ⟨hands, floor, hfloor, h⟩ := lookupTable_answers_all hxs hasTable_table .empty
    (inputs.dropWhile fun v => IsKey v) []
  rw [hsplit] at h
  refine ⟨_, _, rfl, rfl, fun hrest hb => ?_, fun v later hrest hb => ?_⟩
  · exact ⟨_, h.run_exhausted hb rfl hrest, rfl, rfl, rfl, hfloor.tile⟩
  · rw [hrest] at h
    have hmem : v ∈ inputs := by
      rw [← hsplit, hrest]
      exact List.mem_append_right _ (List.mem_cons_self ..)
    have hkind := hinputs v hmem
    have hne : v ≠ .empty := by
      rintro rfl
      rcases hkind with hkind | hkind <;> cases hkind
    refine ⟨_, (h.trans (lookupTable_points hfloor hne)).run_faults hb rfl fun o ho => ?_, rfl, rfl,
      rfl, hfloor.pointer v, (hfloor.put v).tile⟩
    exact hfloor.faults hkind (hnext v later hrest) (congrArg Scene.floor ho)

theorem lookupTable_pointer_looked_up :
    (∃ r, (Machine.batch lookupTable.program (.ofRoom lookupTable.room) [num 2, num 9, zero]
        ⟨15, false⟩).run = .ok r ∧
      r.halt = .inputExhausted ∧ r.executed = 15 ∧ r.outputs = [cap 'C', num 9, cap 'A'] ∧
      ∀ i < 9, r.floor.tile i = table.tile i) ∧
    ∃ r, (Machine.batch lookupTable.program (.ofRoom lookupTable.room) [num 9, num 7, cap 'Q']
        ⟨8, true⟩).run = .ok r ∧
      r.halt = .fault .emptyTile 2 ∧ r.executed = 7 ∧ r.outputs = [num 9] ∧
      r.floor.tile 9 = num 7 ∧ ∀ i < 9, r.floor.tile i = table.tile i := by
  obtain ⟨_, _, _, rfl, rfl, hends, _⟩ :=
    lookupTable_looks_up_every_key [num 2, num 9, zero] (by decide) ⟨15, false⟩
  obtain ⟨_, _, _, rfl, rfl, _, hstops⟩ :=
    lookupTable_looks_up_every_key [num 9, num 7, cap 'Q'] (by decide) ⟨8, true⟩
  exact ⟨hends rfl (by decide), hstops _ _ rfl (by decide)⟩

end Puzzle

end OfficeMachine
