import OfficeMachine.Proofs.StepEffect
import OfficeMachine.Puzzle

namespace OfficeMachine

def Mode.faults : Mode → List Fault
  | .direct => [.addressRange]
  | .indirect => [.pointerRange, .addressKind, .addressRange]

def TileOp.faults : TileOp → List Fault
  | .copyFrom => [.emptyTile]
  | .copyTo => [.emptyHands]
  | .add => [.addendInHands, .addendOnTile, .overflow, .underflow]
  | .sub => [.subtrahendInHands, .subtrahendOnTile, .overflow, .underflow]
  | .bumpUp => [.bumpOnTile, .overflow]
  | .bumpDown => [.bumpOnTile, .underflow]

def TileOp.forms (op : TileOp) : List Opcode := [.tile op .direct, .tile op .indirect]

def Opcode.faults : Opcode → List Fault
  | .inbox | .jump .always => []
  | .outbox => [.emptyHands]
  | .tile op mode => mode.faults ++ op.faults
  | .jump .ifZero | .jump .ifNegative => [.jumpCondition]

def Fault.Blames (f : Fault) (o : Opcode) : Prop :=
  f ≠ .pointerKind ∧
  (f = .addressKind ∨ f = .pointerRange → o.isIndirect = true) ∧
  (f = .emptyHands → o ∈ .outbox :: TileOp.copyTo.forms) ∧
  (f = .emptyTile → o ∈ TileOp.copyFrom.forms) ∧
  (f = .overflow → o ∈ TileOp.add.forms ++ TileOp.sub.forms ++ TileOp.bumpUp.forms) ∧
  (f = .underflow → o ∈ TileOp.add.forms ++ TileOp.sub.forms ++ TileOp.bumpDown.forms) ∧
  (f = .jumpCondition → o ∈ [.jump .ifZero, .jump .ifNegative]) ∧
  o ≠ .inbox ∧ o ≠ .jump .always

theorem Floor.mem_faults_of_locate {floor : Floor} {mode : Mode} {a : UInt64} {f : Fault}
    (h : floor.locate mode (.tileAddress a) = .error f) : f ∈ mode.faults := by
  cases mode with
  | direct =>
      rw [locate, direct] at h
      rcases find_eq_error h with rfl | ⟨_, hv⟩
      · decide
      · cases hv
  | indirect =>
      rcases indirect_eq_error.mp h with hp | ⟨_, _, hj⟩
      · rcases find_eq_error hp with rfl | ⟨_, hv⟩
        · decide
        · cases hv
      · rcases find_eq_error hj with rfl | ⟨rfl, _⟩
        · decide
        · decide

theorem Number.fault_of_increment {x : Number} {e : OutOfRange} (h : x.increment = .error e) :
    e.fault = .overflow := by
  cases e with
  | above m => rfl
  | below m =>
      have hlt := (Number.ofResult_eq_below.mp h).1
      have hlow := x.lower
      omega

theorem Number.fault_of_decrement {x : Number} {e : OutOfRange} (h : x.decrement = .error e) :
    e.fault = .underflow := by
  cases e with
  | below m => rfl
  | above m =>
      have hlt := (Number.ofResult_eq_above.mp h).1
      have hhigh := x.upper
      omega

theorem TileOp.faults_of_combination {op : TileOp} {c : Combination}
    (h : op.combination? = some c) :
    c.inHands ∈ op.faults ∧ c.onTile ∈ op.faults ∧ ∀ e : OutOfRange, e.fault ∈ op.faults := by
  have hrange (e : OutOfRange) : e.fault = .overflow ∨ e.fault = .underflow := by
    cases e with
    | above m => exact .inl rfl
    | below m => exact .inr rfl
  cases op with
  | add =>
      obtain rfl := Option.some.inj h
      refine ⟨by decide, by decide, fun e => ?_⟩
      rcases hrange e with he | he <;> rw [he] <;> decide
  | sub =>
      obtain rfl := Option.some.inj h
      refine ⟨by decide, by decide, fun e => ?_⟩
      rcases hrange e with he | he <;> rw [he] <;> decide
  | _ => cases h

theorem TileOp.faults_of_bump {op : TileOp} {g : Number → Except OutOfRange Number}
    (h : op.bump? = some g) :
    .bumpOnTile ∈ op.faults ∧ ∀ {x e}, g x = .error e → e.fault ∈ op.faults := by
  cases op with
  | bumpUp =>
      obtain rfl := Option.some.inj h
      refine ⟨by decide, fun he => ?_⟩
      rw [Number.fault_of_increment he]
      decide
  | bumpDown =>
      obtain rfl := Option.some.inj h
      refine ⟨by decide, fun he => ?_⟩
      rw [Number.fault_of_decrement he]
      decide
  | _ => cases h

theorem Office.Faults.mem_faults {ι : Type} {o : Office ι} {i : Instruction} {f : Fault}
    (h : o.Faults i f) : f ∈ i.opcode.faults := by
  have hmode {op : TileOp} {mode : Mode} {a : UInt64} {e : Fault}
      (hj : o.floor.locate mode (.tileAddress a) = .error e) :
      e ∈ (Instruction.tile op mode a).opcode.faults :=
    List.mem_append_left _ (Floor.mem_faults_of_locate hj)
  have hop {op : TileOp} {mode : Mode} {a : UInt64} {e : Fault} (he : e ∈ op.faults) :
      e ∈ (Instruction.tile op mode a).opcode.faults :=
    List.mem_append_right _ he
  cases h with
  | outboxHands _ => decide
  | copyFromAddress hj => exact hmode hj
  | copyFromTile _ _ => exact hop (by decide)
  | copyToHands _ => exact hop (by decide)
  | copyToAddress _ hj => exact hmode hj
  | combineHands hc _ => exact hop (TileOp.faults_of_combination hc).1
  | combineAddress _ _ hj => exact hmode hj
  | combineTile hc _ _ _ => exact hop (TileOp.faults_of_combination hc).2.1
  | combineRange hc _ _ _ _ => exact hop ((TileOp.faults_of_combination hc).2.2 _)
  | bumpAddress _ hj => exact hmode hj
  | bumpTile hg _ _ => exact hop (TileOp.faults_of_bump hg).1
  | bumpRange hg _ _ hn => exact hop ((TileOp.faults_of_bump hg).2 hn)
  | @jumpHands branch _ hb =>
      cases branch with
      | always => cases hb
      | ifZero => exact List.mem_singleton_self _
      | ifNegative => exact List.mem_singleton_self _

theorem Fault.blames_of_mem {o : Opcode} {f : Fault} (h : f ∈ o.faults) : f.Blames o := by
  have hall : ∀ o ∈ Opcode.all, ∀ f ∈ o.faults, f.Blames o := by
    unfold Blames
    decide
  exact hall o o.mem_all f h

namespace Machine

theorem Sound.faults_of_report {m : Machine Batch} {r : Report} {f : Fault} {pc : Nat}
    (hm : m.Sound) (hl : m.halted = false) (hr : m.run = .ok r) (hf : r.halt = .fault f pc) :
    ∃ x : Machine Batch, x.program = m.program ∧ x.worker.pc = pc ∧ x.worker.hands = r.hands ∧
      x.office.floor = r.floor ∧ ∃ i, x.next? = some i ∧ x.office.Faults i f := by
  obtain ⟨j, x, last, hj, hx, ht, hlast, hrun⟩ := hm.exists_last_turn hl
  obtain rfl := Except.ok.inj (hrun.symm.trans hr)
  rcases ht.completes_or_due (hm.steps hj) with ⟨i, o, _, ho, rfl⟩ | ⟨reason, hdue, hs⟩
  · exact absurd hlast (not_halted_completing hx ho)
  · rw [hs.report] at hf ⊢
    obtain rfl : reason = .fault f pc := hf
    obtain ⟨rfl, _, i, hi, he⟩ := hdue
    exact ⟨x, program_of_steps hj, rfl, rfl, rfl, i, hi, .of_execute he⟩

theorem fault_reports_reproduce (program : Program) (floor : Floor) (inputs : List Value)
    (config : Config) :
    ∃ r, (batch program floor inputs config).run = .ok r ∧
      ∀ f pc, r.halt = .fault f pc → pc < program.length ∧ ∃ i, program.fetch? pc = some i ∧
        (∀ {κ : Type} [Inbox κ] (o : Office κ), o.worker.hands = r.hands → o.floor = r.floor →
          o.execute i = (.error (.fault f), o)) ∧
        f.Blames i.opcode := by
  have hs : (batch program floor inputs config).Sound := sound_new ..
  obtain ⟨_, _, last, _, _, _, _, hrun⟩ := hs.exists_last_turn rfl
  refine ⟨_, hrun, ?_⟩
  intro f pc hf
  obtain ⟨x, hp, rfl, hhands, hfloor, i, hi, hfault⟩ := hs.faults_of_report rfl hrun hf
  rw [next?, hp] at hi
  have hlt : x.worker.pc < program.length := (List.getElem?_eq_some_iff.mp hi).1
  refine ⟨hlt, i, hi, ?_, Fault.blames_of_mem hfault.mem_faults⟩
  intro κ _ o hh hfl
  have hsame : o.floor = x.office.floor := hfl.trans hfloor.symm
  refine (hfault.transfer (hh.trans hhands.symm) ?_ ?_).execute_eq
  · rw [hsame]
    exact fun hj => ⟨hj, rfl⟩
  · rw [hsame]
    exact id

theorem letter_in_lookupTable_reproduces :
    ∃ r, (batch Puzzle.lookupTable.program (.ofRoom Puzzle.lookupTable.room) [Puzzle.cap 'D']
        .default).run = .ok r ∧ r.halt = .fault .addressKind 2 ∧
      ∃ i, Puzzle.lookupTable.program.fetch? 2 = some i ∧ i.isIndirect = true ∧
        Office.execute ⟨⟨r.hands, 7, 0, false, none⟩, r.floor, .ofInbox (Batch.ofList [])⟩ i =
          (.error (.fault .addressKind),
            ⟨⟨r.hands, 7, 0, false, none⟩, r.floor, .ofInbox (Batch.ofList [])⟩) := by
  obtain ⟨r, hr, h⟩ := fault_reports_reproduce Puzzle.lookupTable.program
    (.ofRoom Puzzle.lookupTable.room) [Puzzle.cap 'D'] .default
  have hf : r.halt = .fault .addressKind 2 := by
    obtain rfl := Except.ok.inj hr
    rfl
  obtain ⟨_, i, hi, hagain, _, hindirect, _⟩ := h .addressKind 2 hf
  exact ⟨r, hr, hf, i, hi, hindirect (.inl rfl), hagain _ rfl rfl⟩

end Machine

end OfficeMachine
