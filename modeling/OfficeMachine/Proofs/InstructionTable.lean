import OfficeMachine.Proofs.Outcome

namespace OfficeMachine

structure Check where
  passes : Bool
  fault : Fault
  deriving DecidableEq, Repr

def Check.fault? (c : Check) : Option Fault := if c.passes then none else some c.fault

def firstFault (checks : List Check) : Option Fault := checks.findSome? Check.fault?

@[simp]
theorem firstFault_nil : firstFault [] = none := rfl

@[simp]
theorem firstFault_append (xs ys : List Check) :
    firstFault (xs ++ ys) = (firstFault xs).or (firstFault ys) :=
  List.findSome?_append

@[simp]
theorem firstFault_cons (c : Check) (rest : List Check) :
    firstFault (c :: rest) = if c.passes then firstFault rest else some c.fault := by
  rw [firstFault, List.findSome?_cons, Check.fault?]
  cases c.passes <;> rfl

theorem firstFault_eq_none {checks : List Check} :
    firstFault checks = none ↔ ∀ c ∈ checks, c.passes = true := by
  simp [firstFault, Check.fault?]

theorem firstFault_eq_some {checks : List Check} {f : Fault} :
    firstFault checks = some f ↔
      ∃ before c after, checks = before ++ c :: after ∧ (∀ b ∈ before, b.passes = true) ∧
        c.passes = false ∧ c.fault = f := by
  rw [firstFault, List.findSome?_eq_some_iff]
  simp [Check.fault?, and_comm]

namespace Value

def isNumber : Value → Bool
  | .number _ => true
  | _ => false

def isAddress : Value → Bool
  | .number _ | .tileAddress _ => true
  | _ => false

def payload : Value → Int
  | .number n => n.val
  | .tileAddress a => a.toNat
  | _ => 0

def ofResult (n : Int) : Value := ((Number.ofInt? n).map Value.number).getD .empty

@[simp]
theorem isNumber_number (n : Number) : (Value.number n).isNumber = true := rfl

@[simp]
theorem payload_number (n : Number) : (Value.number n).payload = n.val := rfl

theorem Names.isAddress {v : Value} {n : Int} (h : v.Names n) :
    v.isAddress = true ∧ v.payload = n := by
  cases h <;> exact ⟨rfl, rfl⟩

theorem isNumber_of_ne {v : Value} (h : ∀ n, v ≠ .number n) : v.isNumber = false := by
  cases v with
  | number n => exact absurd rfl (h n)
  | _ => rfl

end Value

def rangeChecks (n : Int) : List Check := [⟨n ≤ 999, .overflow⟩, ⟨-999 ≤ n, .underflow⟩]

theorem rangeChecks_of_ok {n : Int} {x : Number} (h : Number.ofResult n = .ok x) :
    firstFault (rangeChecks n) = none ∧ Value.ofResult n = .number x := by
  obtain rfl := Number.ofResult_eq_ok.mp h
  have hl := x.lower
  have hu := x.upper
  simp [rangeChecks, Value.ofResult, Number.ofInt?_val, hl, hu]

theorem rangeChecks_of_error {n : Int} {e : OutOfRange} (h : Number.ofResult n = .error e) :
    firstFault (rangeChecks n) = some e.fault := by
  cases e with
  | above m =>
      obtain ⟨hn, rfl⟩ := Number.ofResult_eq_above.mp h
      simp [rangeChecks, hn, OutOfRange.fault]
  | below m =>
      obtain ⟨hn, rfl⟩ := Number.ofResult_eq_below.mp h
      have hle : m ≤ 999 := by omega
      simp [rangeChecks, hle, Int.not_le.mpr hn, OutOfRange.fault]

namespace Floor

def stage (f : Floor) (kind range : Fault) (v : Value) : List Check :=
  [⟨v.isAddress, kind⟩, ⟨0 ≤ v.payload ∧ v.payload < f.size, range⟩]

def addressChecks (f : Floor) : Mode → UInt64 → List Check
  | .direct, a => f.stage .addressKind .addressRange (.tileAddress a)
  | .indirect, a =>
      f.stage .pointerKind .pointerRange (.tileAddress a) ++
        f.stage .addressKind .addressRange (f.tile a.toNat)

def destination (f : Floor) : Mode → UInt64 → Nat
  | .direct, a => a.toNat
  | .indirect, a => (f.tile a.toNat).payload.toNat

def cell (f : Floor) (mode : Mode) (a : UInt64) : Value := f.tile (f.destination mode a)

theorem isAddress_of_none {v : Value} (h : place? v = none) : v.isAddress = false := by
  cases v with
  | number | tileAddress => cases h
  | _ => rfl

theorem find_eq (f : Floor) (kind range : Fault) (v : Value) :
    f.find kind range v =
      match firstFault (f.stage kind range v) with
      | none => .ok v.payload.toNat
      | some e => .error e := by
  rw [stage, firstFault_cons, firstFault_cons]
  rcases names_or v with ⟨n, hn⟩ | hv
  · obtain ⟨ha, hp⟩ := hn.isAddress
    rw [find_of_names hn, ha, hp]
    by_cases hin : 0 ≤ n ∧ n < f.size <;> simp [hin]
  · rw [find_of_none hv, isAddress_of_none hv]
    rfl

theorem locate_eq (f : Floor) (mode : Mode) (a : UInt64) :
    f.locate mode (.tileAddress a) =
      match firstFault (f.addressChecks mode a) with
      | none => .ok (f.destination mode a)
      | some e => .error e := by
  cases mode with
  | direct =>
      rw [locate, direct, find_eq]
      rfl
  | indirect =>
      rw [locate, indirect, find_eq, addressChecks, firstFault_append]
      cases firstFault (f.stage .pointerKind .pointerRange (.tileAddress a)) with
      | some e => rfl
      | none =>
          change f.direct (f.tile a.toNat) = _
          rw [direct, find_eq]
          rfl

theorem firstFault_of_locate_ok {f : Floor} {mode : Mode} {a : UInt64} {j : Nat}
    (h : f.locate mode (.tileAddress a) = .ok j) :
    firstFault (f.addressChecks mode a) = none ∧ f.destination mode a = j := by
  rw [locate_eq] at h
  split at h
  · next hn => exact ⟨hn, Except.ok.inj h⟩
  · cases h

theorem firstFault_of_locate_error {f : Floor} {mode : Mode} {a : UInt64} {e : Fault}
    (h : f.locate mode (.tileAddress a) = .error e) :
    firstFault (f.addressChecks mode a) = some e := by
  rw [locate_eq] at h
  split at h
  · cases h
  · next hs => rw [hs, Except.error.inj h]

end Floor

structure Effect where
  hands : Value
  pc : Nat
  laid : Option (Nat × Value) := none
  received : Nat := 0
  delivered : List Value := []
  halt : Option Halt := none
  deriving DecidableEq, Repr

structure Row where
  checks : List Check
  effect : Effect
  deriving DecidableEq, Repr

namespace Office

variable {ι : Type}

def combining (o : Office ι) (g : Int → Int → Int) (inHands onTile : Fault) (mode : Mode)
    (a : UInt64) : Row :=
  let n := g o.worker.hands.payload (o.floor.cell mode a).payload
  { checks := ⟨o.worker.hands.isNumber, inHands⟩ :: o.floor.addressChecks mode a ++
      ⟨(o.floor.cell mode a).isNumber, onTile⟩ :: rangeChecks n
    effect := { hands := .ofResult n, pc := o.worker.pc + 1 } }

def bumping (o : Office ι) (g : Int → Int) (mode : Mode) (a : UInt64) : Row :=
  let n := g (o.floor.cell mode a).payload
  { checks := o.floor.addressChecks mode a ++
      ⟨(o.floor.cell mode a).isNumber, .bumpOnTile⟩ :: rangeChecks n
    effect := {
      hands := .ofResult n
      pc := o.worker.pc + 1
      laid := some (o.floor.destination mode a, .ofResult n) } }

def branching (o : Office ι) (taken : Bool) (t : UInt64) : Row where
  checks := [⟨o.worker.hands.isNumber, .jumpCondition⟩]
  effect := { hands := o.worker.hands, pc := if taken then t.toNat else o.worker.pc + 1 }

def row (o : Office Batch) : Instruction → Row
  | .inbox =>
      match o.trays.inbox.pending with
      | [] => ⟨[], { hands := o.worker.hands, pc := o.worker.pc, halt := some .inputExhausted }⟩
      | v :: _ => ⟨[], { hands := v, pc := o.worker.pc + 1, received := 1 }⟩
  | .outbox => {
      checks := [⟨o.worker.hands ≠ .empty, .emptyHands⟩]
      effect := {
        hands := o.worker.hands
        pc := o.worker.pc + 1
        delivered := [o.worker.hands] } }
  | .tile .copyFrom mode a => {
      checks := o.floor.addressChecks mode a ++ [⟨o.floor.cell mode a ≠ .empty, .emptyTile⟩]
      effect := { hands := o.floor.cell mode a, pc := o.worker.pc + 1 } }
  | .tile .copyTo mode a => {
      checks := ⟨o.worker.hands ≠ .empty, .emptyHands⟩ :: o.floor.addressChecks mode a
      effect := {
        hands := .empty
        pc := o.worker.pc + 1
        laid := some (o.floor.destination mode a, o.worker.hands) } }
  | .tile .add mode a => o.combining (· + ·) .addendInHands .addendOnTile mode a
  | .tile .sub mode a => o.combining (· - ·) .subtrahendInHands .subtrahendOnTile mode a
  | .tile .bumpUp mode a => o.bumping (· + 1) mode a
  | .tile .bumpDown mode a => o.bumping (· - 1) mode a
  | .jump .always t => ⟨[], { hands := o.worker.hands, pc := t.toNat }⟩
  | .jump .ifZero t => o.branching (o.worker.hands.payload = 0) t
  | .jump .ifNegative t => o.branching (o.worker.hands.payload < 0) t

structure Shows (o p : Office Batch) (e : Effect) : Prop where
  hands : p.worker.hands = e.hands
  pc : p.worker.pc = e.pc
  executed : p.worker.executed = o.worker.executed
  halted : p.worker.halted = (o.worker.halted || e.halt.isSome)
  halt : p.worker.halt = e.halt.or o.worker.halt
  size : p.floor.size = o.floor.size
  laid : ∀ j v, e.laid = some (j, v) → p.floor.tile j = v
  tile : ∀ j, e.laid.map Prod.fst ≠ some j → p.floor.tile j = o.floor.tile j
  outputs : p.trays.outputs = o.trays.outputs ++ e.delivered
  pending : p.trays.inbox.pending = o.trays.inbox.pending.drop e.received
  consumed : p.trays.inbox.consumed = o.trays.inbox.consumed + e.received

section Rows

variable (o : Office Batch)

theorem row_combination {op : TileOp} {c : Combination} (hop : op.combination? = some c) :
    ∃ g : Int → Int → Int, (∀ x y, c.result x y = Number.ofResult (g x.val y.val)) ∧
      ∀ mode a, o.row (.tile op mode a) = o.combining g c.inHands c.onTile mode a := by
  cases op with
  | add =>
      obtain rfl := Option.some.inj hop
      exact ⟨(· + ·), fun _ _ => rfl, fun _ _ => rfl⟩
  | sub =>
      obtain rfl := Option.some.inj hop
      exact ⟨(· - ·), fun _ _ => rfl, fun _ _ => rfl⟩
  | _ => cases hop

theorem row_bump {op : TileOp} {g : Number → Except OutOfRange Number} (hop : op.bump? = some g) :
    ∃ k : Int → Int, (∀ x, g x = Number.ofResult (k x.val)) ∧
      ∀ mode a, o.row (.tile op mode a) = o.bumping k mode a := by
  cases op with
  | bumpUp =>
      obtain rfl := Option.some.inj hop
      exact ⟨(· + 1), fun _ => rfl, fun _ _ => rfl⟩
  | bumpDown =>
      obtain rfl := Option.some.inj hop
      exact ⟨(· - 1), fun _ => rfl, fun _ _ => rfl⟩
  | _ => cases hop

theorem row_jump_of_none {branch : Branch} {t : UInt64}
    (hb : branch.taken? o.worker.hands = none) :
    firstFault (o.row (.jump branch t)).checks = some .jumpCondition := by
  cases branch with
  | always => cases hb
  | _ =>
      rw [row, branching]
      cases hh : o.worker.hands with
      | number n =>
          rw [hh] at hb
          cases hb
      | _ => simp [Value.isNumber]

theorem row_jump_of_some {branch : Branch} {t : UInt64} {taken : Bool}
    (hb : branch.taken? o.worker.hands = some taken) :
    firstFault (o.row (.jump branch t)).checks = none ∧
      (o.row (.jump branch t)).effect =
        { hands := o.worker.hands, pc := if taken then t.toNat else o.worker.pc + 1 } := by
  cases branch with
  | always =>
      obtain rfl := Option.some.inj hb
      exact ⟨rfl, rfl⟩
  | _ =>
      rw [row, branching]
      cases hh : o.worker.hands with
      | number n =>
          rw [hh] at hb
          obtain rfl := Option.some.inj hb
          exact ⟨rfl, rfl⟩
      | _ =>
          rw [hh] at hb
          cases hb

theorem shows_worker (v : Value) (n : Nat) :
    o.Shows { o with worker := { o.worker with hands := v, pc := n } } { hands := v, pc := n } where
  hands := rfl
  pc := rfl
  executed := rfl
  halted := (Bool.or_false _).symm
  halt := rfl
  size := rfl
  laid := fun _ _ h => by cases h
  tile := fun _ _ => rfl
  outputs := (List.append_nil _).symm
  pending := rfl
  consumed := rfl

theorem shows_put (v : Value) (n : Nat) {j : Nat} (hj : j < o.floor.size) (w : Value) :
    o.Shows
      { o with worker := { o.worker with hands := v, pc := n }, floor := o.floor.put j w }
      { hands := v, pc := n, laid := some (j, w) } :=
  { o.shows_worker v n with
    size := Floor.size_put ..
    laid := by
      intro k u h
      cases h
      simp [Floor.tile_put, hj]
    tile := by
      intro k h
      have hk : j ≠ k := fun he => h (congrArg some he)
      simp [Floor.tile_put, hk] }

end Rows

variable {o p : Office Batch} {i : Instruction}

theorem Faults.firstFault_row {f : Fault} (h : o.Faults i f) :
    firstFault (o.row i).checks = some f := by
  cases h with
  | outboxHands hh => simp [row, hh]
  | copyFromAddress hj => simp [row, Floor.firstFault_of_locate_error hj]
  | copyFromTile hj hv =>
      obtain ⟨hn, rfl⟩ := Floor.firstFault_of_locate_ok hj
      simp [row, hn, Floor.cell, hv]
  | copyToHands hh => simp [row, hh]
  | copyToAddress hh hj => simp [row, hh, Floor.firstFault_of_locate_error hj]
  | combineHands hop hx =>
      obtain ⟨g, _, hrow⟩ := o.row_combination hop
      simp [hrow, combining, Value.isNumber_of_ne hx]
  | combineAddress hop hx hj =>
      obtain ⟨g, _, hrow⟩ := o.row_combination hop
      simp [hrow, combining, hx, Floor.firstFault_of_locate_error hj]
  | combineTile hop hx hj hy =>
      obtain ⟨g, _, hrow⟩ := o.row_combination hop
      obtain ⟨hn, rfl⟩ := Floor.firstFault_of_locate_ok hj
      simp [hrow, combining, hx, hn, Floor.cell, Value.isNumber_of_ne hy]
  | combineRange hop hx hj hy he =>
      obtain ⟨g, hg, hrow⟩ := o.row_combination hop
      obtain ⟨hn, rfl⟩ := Floor.firstFault_of_locate_ok hj
      rw [hg] at he
      simp [hrow, combining, hx, hn, Floor.cell, hy, rangeChecks_of_error he]
  | bumpAddress hop hj =>
      obtain ⟨k, _, hrow⟩ := o.row_bump hop
      simp [hrow, bumping, Floor.firstFault_of_locate_error hj]
  | bumpTile hop hj hx =>
      obtain ⟨k, _, hrow⟩ := o.row_bump hop
      obtain ⟨hn, rfl⟩ := Floor.firstFault_of_locate_ok hj
      simp [hrow, bumping, hn, Floor.cell, Value.isNumber_of_ne hx]
  | bumpRange hop hj hx he =>
      obtain ⟨k, hk, hrow⟩ := o.row_bump hop
      obtain ⟨hn, rfl⟩ := Floor.firstFault_of_locate_ok hj
      rw [hk] at he
      simp [hrow, bumping, hn, Floor.cell, hx, rangeChecks_of_error he]
  | jumpHands hb => exact o.row_jump_of_none hb

theorem Completes.shows_row (h : o.Completes i p) :
    firstFault (o.row i).checks = none ∧ o.Shows p (o.row i).effect := by
  cases h with
  | inbox hr =>
      have hp := Batch.pending_of_receive hr
      have hc := Batch.consumed_of_receive hr
      simp only [row, hp]
      exact ⟨rfl, { o.shows_worker _ _ with pending := by rw [hp]; rfl, consumed := hc }⟩
  | outbox hh =>
      refine ⟨by simp [row, hh], ?_⟩
      exact { o.shows_worker _ _ with outputs := Trays.outputs_deliver .. }
  | copyFrom hj hv =>
      obtain ⟨hn, rfl⟩ := Floor.firstFault_of_locate_ok hj
      exact ⟨by simp [row, hn, Floor.cell, hv], o.shows_worker _ _⟩
  | copyTo hh hj =>
      have hlt := Floor.locate_lt hj
      obtain ⟨hn, rfl⟩ := Floor.firstFault_of_locate_ok hj
      exact ⟨by simp [row, hh, hn], o.shows_put _ _ hlt _⟩
  | combine hop hx hj hy he =>
      obtain ⟨g, hg, hrow⟩ := o.row_combination hop
      obtain ⟨hn, rfl⟩ := Floor.firstFault_of_locate_ok hj
      rw [hg] at he
      obtain ⟨hr, hv⟩ := rangeChecks_of_ok he
      refine ⟨by simp [hrow, combining, hx, hn, Floor.cell, hy, hr], ?_⟩
      simp only [hrow, combining, hx, Floor.cell, hy, Value.payload_number, hv]
      exact o.shows_worker _ _
  | bump hop hj hx he =>
      obtain ⟨k, hk, hrow⟩ := o.row_bump hop
      have hlt := Floor.locate_lt hj
      obtain ⟨hn, rfl⟩ := Floor.firstFault_of_locate_ok hj
      rw [hk] at he
      obtain ⟨hr, hv⟩ := rangeChecks_of_ok he
      refine ⟨by simp [hrow, bumping, hn, Floor.cell, hx, hr], ?_⟩
      simp only [hrow, bumping, Floor.cell, hx, Value.payload_number, hv]
      exact o.shows_put _ _ hlt _
  | jump hb =>
      obtain ⟨hn, he⟩ := o.row_jump_of_some hb
      rw [he]
      exact ⟨hn, o.shows_worker _ _⟩
  | pass hb =>
      obtain ⟨hn, he⟩ := o.row_jump_of_some hb
      rw [he]
      exact ⟨hn, o.shows_worker _ _⟩

theorem Starves.shows_row {r : Halt} {b : Batch} (h : o.Starves i r b) :
    firstFault (o.row i).checks = none ∧
      o.Shows { o.withInbox b with worker := o.worker.stop r } (o.row i).effect := by
  obtain ⟨rfl, hp, rfl, rfl⟩ := h.of_batch
  simp only [row, hp]
  exact ⟨rfl, { o.shows_worker _ _ with halted := (Bool.or_true _).symm, halt := rfl }⟩

theorem execute_faults_iff {f : Fault} :
    (o.execute i).1 = .error (.fault f) ↔ firstFault (o.row i).checks = some f := by
  rcases o.outcome i with ⟨p, hp⟩ | ⟨r, b, hs⟩ | ⟨g, hg⟩
  · simp [hp.execute_eq, hp.shows_row.1]
  · simp [hs.execute_eq, hs.shows_row.1]
  · simp [hg.execute_eq, hg.firstFault_row]

theorem execute_shows (h : firstFault (o.row i).checks = none) :
    ∃ p, o.execute i = (.ok (), p) ∧ o.Shows p (o.row i).effect := by
  rcases o.outcome i with ⟨p, hp⟩ | ⟨r, b, hs⟩ | ⟨g, hg⟩
  · exact ⟨p, hp.execute_eq, hp.shows_row.2⟩
  · exact ⟨_, hs.execute_eq, hs.shows_row.2⟩
  · rw [hg.firstFault_row] at h
    cases h

theorem execute_inbox_of_nil (h : o.trays.inbox.pending = []) :
    o.execute .inbox = (.ok (), { o with worker := o.worker.stop .inputExhausted }) :=
  Starves.execute_eq (.inbox (Batch.receive_of_nil h) rfl)

theorem execute_keeps_halt (h : ¬(i = .inbox ∧ o.trays.inbox.pending = [])) :
    (o.execute i).2.worker.halted = o.worker.halted ∧
      (o.execute i).2.worker.halt = o.worker.halt := by
  rcases o.outcome i with ⟨p, hp⟩ | ⟨r, b, hs⟩ | ⟨g, hg⟩
  · rw [hp.execute_eq]
    exact ⟨hp.halted_eq, hp.halt_eq⟩
  · obtain ⟨hi, hpending, _⟩ := hs.of_batch
    exact absurd ⟨hi, hpending⟩ h
  · rw [hg.execute_eq]
    exact ⟨rfl, rfl⟩

theorem execute_follows_table (o : Office Batch) (i : Instruction) :
    (∀ f, (o.execute i).1 = .error (.fault f) ↔
      ∃ before c after, (o.row i).checks = before ++ c :: after ∧
        (∀ b ∈ before, b.passes = true) ∧ c.passes = false ∧ c.fault = f) ∧
    ((∀ c ∈ (o.row i).checks, c.passes = true) →
      ∃ p, o.execute i = (.ok (), p) ∧ o.Shows p (o.row i).effect) ∧
    (¬(i = .inbox ∧ o.trays.inbox.pending = []) →
      (o.execute i).2.worker.halted = o.worker.halted ∧
        (o.execute i).2.worker.halt = o.worker.halt) ∧
    (i = .inbox → o.trays.inbox.pending = [] →
      o.execute i = (.ok (), { o with worker := o.worker.stop .inputExhausted })) := by
  refine ⟨?_, ?_, execute_keeps_halt, ?_⟩
  · intro f
    rw [execute_faults_iff, firstFault_eq_some]
  · intro h
    exact execute_shows (firstFault_eq_none.mpr h)
  · rintro rfl h
    exact execute_inbox_of_nil h

theorem hands_before_pointer_and_bump_beyond_it :
    (execute ⟨⟨.tileAddress 0, 3, 9, false, none⟩, ⟨#[.number .greatest, .number .zero], by decide⟩,
      .ofInbox (Batch.ofList [])⟩ (.tile .add .indirect 0)).1 = .error (.fault .addendInHands) ∧
    ∃ p, execute ⟨⟨.empty, 3, 9, false, none⟩, ⟨#[.tileAddress 1, .number .zero], by decide⟩,
        .ofInbox (Batch.ofList [])⟩ (.tile .bumpDown .indirect 0) = (.ok (), p) ∧
      p.worker.hands = .ofResult (-1) ∧ p.worker.pc = 4 ∧ p.floor.tile 1 = .ofResult (-1) ∧
      p.floor.tile 0 = .tileAddress 1 := by
  refine ⟨?_, ?_⟩
  · refine ((execute_follows_table _ _).1 _).mpr ⟨[], _, _, rfl, ?_, rfl, rfl⟩
    exact List.forall_mem_nil _
  · obtain ⟨p, hp, hs⟩ := (execute_follows_table
      ⟨⟨.empty, 3, 9, false, none⟩, ⟨#[.tileAddress 1, .number .zero], by decide⟩, .ofInbox (Batch.ofList [])⟩
      (.tile .bumpDown .indirect 0)).2.1 (by decide)
    exact ⟨p, hp, hs.hands, hs.pc, hs.laid 1 _ rfl, hs.tile 0 (by decide)⟩

theorem failed_instruction_changes_nothing {ι : Type} [Inbox ι] {o p : Office ι} {i : Instruction}
    {e : Failure} (h : o.execute i = (.error e, p)) : (∃ f, e = .fault f) ∧ p = o := by
  rcases o.outcome i with ⟨q, hq⟩ | ⟨r, b, hs⟩ | ⟨f, hf⟩
  · rw [hq.execute_eq] at h
    cases h
  · rw [hs.execute_eq] at h
    cases h
  · rw [hf.execute_eq] at h
    cases h
    exact ⟨⟨f, rfl⟩, rfl⟩

theorem overflow_beyond_pointer_changes_nothing :
    ∃ o p : Office Batch, o = ⟨⟨.number .zero, 3, 9, false, none⟩,
        ⟨#[.tileAddress 1, .number .greatest], by decide⟩, ⟨.ofList [.number .zero], #[.number .least]⟩⟩ ∧
      o.execute (.tile .bumpUp .indirect 0) = (.error (.fault .overflow), p) ∧ p = o := by
  obtain ⟨p, hp⟩ : ∃ p, execute ⟨⟨.number .zero, 3, 9, false, none⟩,
      ⟨#[.tileAddress 1, .number .greatest], by decide⟩, ⟨Batch.ofList [.number .zero], #[.number .least]⟩⟩
      (.tile .bumpUp .indirect 0) = (.error (.fault .overflow), p) := ⟨_, rfl⟩
  exact ⟨_, p, rfl, hp, (failed_instruction_changes_nothing hp).2⟩

end Office

end OfficeMachine
