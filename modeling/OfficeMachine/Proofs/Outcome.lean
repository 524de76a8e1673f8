import OfficeMachine.Work

namespace OfficeMachine

variable {ι : Type}

def Delivery.halt? : Delivery → Option Halt
  | .value _ => none
  | .exhausted => some .inputExhausted
  | .cancelled => some .cancelled

structure Combination where
  result : Number → Number → Except OutOfRange Number
  inHands : Fault
  onTile : Fault

def TileOp.combination? : TileOp → Option Combination
  | .add => some ⟨Number.add, .addendInHands, .addendOnTile⟩
  | .sub => some ⟨Number.sub, .subtrahendInHands, .subtrahendOnTile⟩
  | _ => none

def TileOp.bump? : TileOp → Option (Number → Except OutOfRange Number)
  | .bumpUp => some Number.increment
  | .bumpDown => some Number.decrement
  | _ => none

def Branch.taken? : Branch → Value → Option Bool
  | .always, _ => some true
  | .ifZero, .number n => some n.isZero
  | .ifNegative, .number n => some n.isNegative
  | _, _ => none

theorem Value.number_or (v : Value) : (∃ n, v = .number n) ∨ ∀ n, v ≠ .number n := by
  cases v with
  | number n => exact .inl ⟨n, rfl⟩
  | _ => exact .inr (by simp)

namespace Office

def withInbox {κ : Type} (o : Office ι) (b : κ) : Office κ :=
  ⟨o.worker, o.floor, ⟨b, o.trays.outbox⟩⟩

inductive Completes [Inbox ι] (o : Office ι) : Instruction → Office ι → Prop
  | inbox {v : Value} {b : ι} (hr : Inbox.receive o.trays.inbox = (.value v, b)) :
      Completes o .inbox { o.withInbox b with worker := (o.worker.hold v).advance }
  | outbox (hh : o.worker.hands ≠ .empty) :
      Completes o .outbox
        { o with worker := o.worker.advance, trays := o.trays.deliver o.worker.hands }
  | copyFrom {mode : Mode} {a : UInt64} {j : Nat}
      (hj : o.floor.locate mode (.tileAddress a) = .ok j) (hv : o.floor.tile j ≠ .empty) :
      Completes o (.tile .copyFrom mode a)
        { o with worker := (o.worker.hold (o.floor.tile j)).advance }
  | copyTo {mode : Mode} {a : UInt64} {j : Nat} (hh : o.worker.hands ≠ .empty)
      (hj : o.floor.locate mode (.tileAddress a) = .ok j) :
      Completes o (.tile .copyTo mode a)
        { o with
          worker := (o.worker.hold .empty).advance
          floor := o.floor.put j o.worker.hands }
  | combine {op : TileOp} {c : Combination} {mode : Mode} {a : UInt64} {j : Nat} {x y n : Number}
      (hop : op.combination? = some c) (hx : o.worker.hands = .number x)
      (hj : o.floor.locate mode (.tileAddress a) = .ok j) (hy : o.floor.tile j = .number y)
      (hn : c.result x y = .ok n) :
      Completes o (.tile op mode a) { o with worker := (o.worker.hold (.number n)).advance }
  | bump {op : TileOp} {g : Number → Except OutOfRange Number} {mode : Mode} {a : UInt64} {j : Nat}
      {x n : Number} (hop : op.bump? = some g)
      (hj : o.floor.locate mode (.tileAddress a) = .ok j) (hx : o.floor.tile j = .number x)
      (hn : g x = .ok n) :
      Completes o (.tile op mode a)
        { o with
          worker := (o.worker.hold (.number n)).advance
          floor := o.floor.put j (.number n) }
  | jump {branch : Branch} {t : UInt64} (hb : branch.taken? o.worker.hands = some true) :
      Completes o (.jump branch t) { o with worker := o.worker.goTo t.toNat }
  | pass {branch : Branch} {t : UInt64} (hb : branch.taken? o.worker.hands = some false) :
      Completes o (.jump branch t) { o with worker := o.worker.advance }

inductive Faults (o : Office ι) : Instruction → Fault → Prop
  | outboxHands (hh : o.worker.hands = .empty) : Faults o .outbox .emptyHands
  | copyFromAddress {mode : Mode} {a : UInt64} {f : Fault}
      (hj : o.floor.locate mode (.tileAddress a) = .error f) : Faults o (.tile .copyFrom mode a) f
  | copyFromTile {mode : Mode} {a : UInt64} {j : Nat}
      (hj : o.floor.locate mode (.tileAddress a) = .ok j) (hv : o.floor.tile j = .empty) :
      Faults o (.tile .copyFrom mode a) .emptyTile
  | copyToHands {mode : Mode} {a : UInt64} (hh : o.worker.hands = .empty) :
      Faults o (.tile .copyTo mode a) .emptyHands
  | copyToAddress {mode : Mode} {a : UInt64} {f : Fault} (hh : o.worker.hands ≠ .empty)
      (hj : o.floor.locate mode (.tileAddress a) = .error f) : Faults o (.tile .copyTo mode a) f
  | combineHands {op : TileOp} {c : Combination} {mode : Mode} {a : UInt64}
      (hop : op.combination? = some c) (hx : ∀ x, o.worker.hands ≠ .number x) :
      Faults o (.tile op mode a) c.inHands
  | combineAddress {op : TileOp} {c : Combination} {mode : Mode} {a : UInt64} {x : Number}
      {f : Fault} (hop : op.combination? = some c) (hx : o.worker.hands = .number x)
      (hj : o.floor.locate mode (.tileAddress a) = .error f) : Faults o (.tile op mode a) f
  | combineTile {op : TileOp} {c : Combination} {mode : Mode} {a : UInt64} {j : Nat} {x : Number}
      (hop : op.combination? = some c) (hx : o.worker.hands = .number x)
      (hj : o.floor.locate mode (.tileAddress a) = .ok j) (hy : ∀ y, o.floor.tile j ≠ .number y) :
      Faults o (.tile op mode a) c.onTile
  | combineRange {op : TileOp} {c : Combination} {mode : Mode} {a : UInt64} {j : Nat}
      {x y : Number} {e : OutOfRange} (hop : op.combination? = some c)
      (hx : o.worker.hands = .number x) (hj : o.floor.locate mode (.tileAddress a) = .ok j)
      (hy : o.floor.tile j = .number y) (hn : c.result x y = .error e) :
      Faults o (.tile op mode a) e.fault
  | bumpAddress {op : TileOp} {g : Number → Except OutOfRange Number} {mode : Mode} {a : UInt64}
      {f : Fault} (hop : op.bump? = some g)
      (hj : o.floor.locate mode (.tileAddress a) = .error f) : Faults o (.tile op mode a) f
  | bumpTile {op : TileOp} {g : Number → Except OutOfRange Number} {mode : Mode} {a : UInt64}
      {j : Nat} (hop : op.bump? = some g) (hj : o.floor.locate mode (.tileAddress a) = .ok j)
      (hx : ∀ x, o.floor.tile j ≠ .number x) : Faults o (.tile op mode a) .bumpOnTile
  | bumpRange {op : TileOp} {g : Number → Except OutOfRange Number} {mode : Mode} {a : UInt64}
      {j : Nat} {x : Number} {e : OutOfRange} (hop : op.bump? = some g)
      (hj : o.floor.locate mode (.tileAddress a) = .ok j) (hx : o.floor.tile j = .number x)
      (hn : g x = .error e) : Faults o (.tile op mode a) e.fault
  | jumpHands {branch : Branch} {t : UInt64} (hb : branch.taken? o.worker.hands = none) :
      Faults o (.jump branch t) .jumpCondition

theorem Faults.transfer {κ : Type} {o : Office ι} {p : Office κ} {i : Instruction} {f : Fault}
    (h : o.Faults i f) (hh : p.worker.hands = o.worker.hands)
    (hok : ∀ {mode v j}, o.floor.locate mode v = .ok j →
      p.floor.locate mode v = .ok j ∧ p.floor.tile j = o.floor.tile j)
    (herror : ∀ {mode v}, o.floor.locate mode v = .error f → p.floor.locate mode v = .error f) :
    p.Faults i f := by
  cases h with
  | outboxHands he => exact .outboxHands (hh.trans he)
  | copyFromAddress hj => exact .copyFromAddress (herror hj)
  | copyFromTile hj hv => exact .copyFromTile (hok hj).1 ((hok hj).2.trans hv)
  | copyToHands he => exact .copyToHands (hh.trans he)
  | copyToAddress hne hj => exact .copyToAddress (hh ▸ hne) (herror hj)
  | combineHands hop hx => exact .combineHands hop (hh ▸ hx)
  | combineAddress hop hx hj => exact .combineAddress hop (hh.trans hx) (herror hj)
  | combineTile hop hx hj hy =>
      exact .combineTile hop (hh.trans hx) (hok hj).1 ((hok hj).2 ▸ hy)
  | combineRange hop hx hj hy hn =>
      exact .combineRange hop (hh.trans hx) (hok hj).1 ((hok hj).2.trans hy) hn
  | bumpAddress hop hj => exact .bumpAddress hop (herror hj)
  | bumpTile hop hj hx => exact .bumpTile hop (hok hj).1 ((hok hj).2 ▸ hx)
  | bumpRange hop hj hx hn => exact .bumpRange hop (hok hj).1 ((hok hj).2.trans hx) hn
  | jumpHands hb => exact .jumpHands (hh ▸ hb)

inductive Starves [Inbox ι] (o : Office ι) : Instruction → Halt → ι → Prop
  | inbox {d : Delivery} {b : ι} {h : Halt} (hr : Inbox.receive o.trays.inbox = (d, b))
      (hd : d.halt? = some h) : Starves o .inbox h b

section Outcome

variable [Inbox ι] (o : Office ι)

theorem outcome_combine {op : TileOp} {c : Combination} (hop : op.combination? = some c)
    (mode : Mode) (a : UInt64) :
    (∃ p, o.Completes (.tile op mode a) p) ∨ ∃ f, o.Faults (.tile op mode a) f := by
  rcases o.worker.hands.number_or with ⟨x, hx⟩ | hx
  · cases hj : o.floor.locate mode (.tileAddress a) with
    | error f => exact .inr ⟨f, .combineAddress hop hx hj⟩
    | ok j =>
        rcases (o.floor.tile j).number_or with ⟨y, hy⟩ | hy
        · cases hn : c.result x y with
          | error e => exact .inr ⟨e.fault, .combineRange hop hx hj hy hn⟩
          | ok n => exact .inl ⟨_, .combine hop hx hj hy hn⟩
        · exact .inr ⟨c.onTile, .combineTile hop hx hj hy⟩
  · exact .inr ⟨c.inHands, .combineHands hop hx⟩

theorem outcome_bump {op : TileOp} {g : Number → Except OutOfRange Number}
    (hop : op.bump? = some g) (mode : Mode) (a : UInt64) :
    (∃ p, o.Completes (.tile op mode a) p) ∨ ∃ f, o.Faults (.tile op mode a) f := by
  cases hj : o.floor.locate mode (.tileAddress a) with
  | error f => exact .inr ⟨f, .bumpAddress hop hj⟩
  | ok j =>
      rcases (o.floor.tile j).number_or with ⟨x, hx⟩ | hx
      · cases hn : g x with
        | error e => exact .inr ⟨e.fault, .bumpRange hop hj hx hn⟩
        | ok n => exact .inl ⟨_, .bump hop hj hx hn⟩
      · exact .inr ⟨.bumpOnTile, .bumpTile hop hj hx⟩

theorem outcome_tile (op : TileOp) (mode : Mode) (a : UInt64) :
    (∃ p, o.Completes (.tile op mode a) p) ∨ ∃ f, o.Faults (.tile op mode a) f := by
  cases op with
  | copyFrom =>
      cases hj : o.floor.locate mode (.tileAddress a) with
      | error f => exact .inr ⟨f, .copyFromAddress hj⟩
      | ok j =>
          by_cases hv : o.floor.tile j = .empty
          · exact .inr ⟨.emptyTile, .copyFromTile hj hv⟩
          · exact .inl ⟨_, .copyFrom hj hv⟩
  | copyTo =>
      by_cases hh : o.worker.hands = .empty
      · exact .inr ⟨.emptyHands, .copyToHands hh⟩
      · cases hj : o.floor.locate mode (.tileAddress a) with
        | error f => exact .inr ⟨f, .copyToAddress hh hj⟩
        | ok j => exact .inl ⟨_, .copyTo hh hj⟩
  | add => exact o.outcome_combine rfl mode a
  | sub => exact o.outcome_combine rfl mode a
  | bumpUp => exact o.outcome_bump rfl mode a
  | bumpDown => exact o.outcome_bump rfl mode a

theorem outcome (i : Instruction) :
    (∃ p, o.Completes i p) ∨ (∃ h b, o.Starves i h b) ∨ ∃ f, o.Faults i f := by
  cases i with
  | inbox =>
      rcases hr : Inbox.receive o.trays.inbox with ⟨d, b⟩
      cases d with
      | value v => exact .inl ⟨_, .inbox hr⟩
      | exhausted => exact .inr (.inl ⟨_, b, .inbox hr rfl⟩)
      | cancelled => exact .inr (.inl ⟨_, b, .inbox hr rfl⟩)
  | outbox =>
      by_cases hh : o.worker.hands = .empty
      · exact .inr (.inr ⟨.emptyHands, .outboxHands hh⟩)
      · exact .inl ⟨_, .outbox hh⟩
  | tile op mode a =>
      rcases o.outcome_tile op mode a with h | h
      · exact .inl h
      · exact .inr (.inr h)
  | jump branch t =>
      cases hb : branch.taken? o.worker.hands with
      | none => exact .inr (.inr ⟨.jumpCondition, .jumpHands hb⟩)
      | some taken =>
          cases taken with
          | true => exact .inl ⟨_, .jump hb⟩
          | false => exact .inl ⟨_, .pass hb⟩

end Outcome

end Office

namespace Work

@[simp]
theorem mapError_ok {ε δ α : Type} (f : ε → δ) (a : α) :
    (Except.ok a : Except ε α).mapError f = .ok a := rfl

@[simp]
theorem mapError_error {ε δ α : Type} (f : ε → δ) (e : ε) :
    (Except.error e : Except ε α).mapError f = .error (f e) := rfl

theorem apply_look_of_locate {mode : Mode} {v : Value} {j : Nat} {o : Office ι}
    (hj : o.floor.locate mode v = .ok j) : (look j).apply o = (.ok (o.floor.tile j), o) := by
  simp [Floor.read, Floor.locate_lt hj]

theorem apply_lay_of_locate {mode : Mode} {v : Value} {j : Nat} {o : Office ι}
    (hj : o.floor.locate mode v = .ok j) (w : Value) :
    (lay j w).apply o = (.ok (), { o with floor := o.floor.put j w }) := by
  simp [Floor.write, Floor.locate_lt hj]

@[simp]
theorem apply_asNumber_number (f : Fault) (n : Number) (o : Office ι) :
    (asNumber f (.number n)).apply o = (.ok n, o) := rfl

theorem apply_asNumber_of_ne (f : Fault) {v : Value} (hv : ∀ n, v ≠ .number n) (o : Office ι) :
    (asNumber f v).apply o = (.error (.fault f), o) := by
  cases v with
  | number n => exact absurd rfl (hv n)
  | _ => rfl

theorem execute_combination {op : TileOp} {c : Combination} (hop : op.combination? = some c)
    (mode : Mode) (a : UInt64) :
    (op.execute mode a : Work ι Unit) = combine c.result c.inHands c.onTile mode a := by
  cases op with
  | add =>
      obtain rfl := Option.some.inj hop
      rfl
  | sub =>
      obtain rfl := Option.some.inj hop
      rfl
  | _ => cases hop

theorem execute_bump {op : TileOp} {g : Number → Except OutOfRange Number}
    (hop : op.bump? = some g) (mode : Mode) (a : UInt64) :
    (op.execute mode a : Work ι Unit) = bump g mode a := by
  cases op with
  | bumpUp =>
      obtain rfl := Option.some.inj hop
      rfl
  | bumpDown =>
      obtain rfl := Option.some.inj hop
      rfl
  | _ => cases hop

theorem apply_jumpIf (p : Number → Bool) (t : UInt64) (o : Office ι) :
    (jumpIf p t).apply o =
      match o.worker.hands with
      | .number n =>
          (.ok (), { o with worker := if p n then o.worker.goTo t.toNat else o.worker.advance })
      | _ => (.error (.fault .jumpCondition), o) := by
  rw [jumpIf, apply_bind, apply_heldNumber]
  cases o.worker.hands with
  | number n =>
      cases hp : p n with
      | true => simp [hp]
      | false => simp [hp]
  | _ => rfl

theorem apply_branch (branch : Branch) (t : UInt64) (o : Office ι) :
    (branch.execute t).apply o =
      match branch.taken? o.worker.hands with
      | some taken =>
          (.ok (), { o with worker := if taken then o.worker.goTo t.toNat else o.worker.advance })
      | none => (.error (.fault .jumpCondition), o) := by
  cases branch with
  | always => rfl
  | ifZero =>
      rw [Branch.execute, apply_jumpIf]
      cases o.worker.hands <;> rfl
  | ifNegative =>
      rw [Branch.execute, apply_jumpIf]
      cases o.worker.hands <;> rfl

end Work

namespace Office

open Work

variable [Inbox ι]

theorem Completes.execute_eq {o p : Office ι} {i : Instruction} (h : o.Completes i p) :
    o.execute i = (.ok (), p) := by
  rw [Office.execute]
  cases h with
  | inbox hr => simp [Instruction.execute, takeInput, Trays.receive, hr, withInbox]
  | outbox hh => simp [Instruction.execute, giveOutput, hh]
  | copyFrom hj hv =>
      simp [Instruction.execute, TileOp.execute, Work.copyFrom, hj,
        apply_look_of_locate hj, hv]
  | copyTo hh hj =>
      simp [Instruction.execute, TileOp.execute, Work.copyTo, hh, hj,
        apply_lay_of_locate hj]
  | combine hop hx hj hy hn =>
      simp [Instruction.execute, execute_combination hop, Work.combine, hx, hj,
        apply_look_of_locate hj, hy, hn]
  | bump hop hj hx hn =>
      simp [Instruction.execute, execute_bump hop, Work.bump, hj,
        apply_look_of_locate hj, hx, hn, apply_lay_of_locate hj]
  | jump hb => simp [Instruction.execute, apply_branch, hb]
  | pass hb => simp [Instruction.execute, apply_branch, hb]

theorem Starves.execute_eq {o : Office ι} {i : Instruction} {h : Halt} {b : ι}
    (hs : o.Starves i h b) :
    o.execute i = (.ok (), { o.withInbox b with worker := o.worker.stop h }) := by
  rw [Office.execute]
  cases hs with
  | @inbox d _ _ hr hd =>
      cases d with
      | value v => cases hd
      | exhausted =>
          obtain rfl := Option.some.inj hd
          simp [Instruction.execute, takeInput, Trays.receive, hr, withInbox]
      | cancelled =>
          obtain rfl := Option.some.inj hd
          simp [Instruction.execute, takeInput, Trays.receive, hr, withInbox]

theorem Faults.execute_eq {o : Office ι} {i : Instruction} {f : Fault} (h : o.Faults i f) :
    o.execute i = (.error (.fault f), o) := by
  rw [Office.execute]
  cases h with
  | outboxHands hh => simp [Instruction.execute, giveOutput, hh]
  | copyFromAddress hj =>
      simp [Instruction.execute, TileOp.execute, Work.copyFrom, hj]
  | copyFromTile hj hv =>
      simp [Instruction.execute, TileOp.execute, Work.copyFrom, hj,
        apply_look_of_locate hj, hv]
  | copyToHands hh => simp [Instruction.execute, TileOp.execute, Work.copyTo, hh]
  | copyToAddress hh hj =>
      simp [Instruction.execute, TileOp.execute, Work.copyTo, hh, hj]
  | combineHands hop hx =>
      simp [Instruction.execute, execute_combination hop, Work.combine, apply_asNumber_of_ne _ hx]
  | combineAddress hop hx hj =>
      simp [Instruction.execute, execute_combination hop, Work.combine, hx, hj]
  | combineTile hop hx hj hy =>
      simp [Instruction.execute, execute_combination hop, Work.combine, hx, hj,
        apply_look_of_locate hj, apply_asNumber_of_ne _ hy]
  | combineRange hop hx hj hy hn =>
      simp [Instruction.execute, execute_combination hop, Work.combine, hx, hj,
        apply_look_of_locate hj, hy, hn]
  | bumpAddress hop hj =>
      simp [Instruction.execute, execute_bump hop, Work.bump, hj]
  | bumpTile hop hj hx =>
      simp [Instruction.execute, execute_bump hop, Work.bump, hj,
        apply_look_of_locate hj, apply_asNumber_of_ne _ hx]
  | bumpRange hop hj hx hn =>
      simp [Instruction.execute, execute_bump hop, Work.bump, hj,
        apply_look_of_locate hj, hx, hn]
  | jumpHands hb => simp [Instruction.execute, apply_branch, hb]

theorem Faults.of_execute {o p : Office ι} {i : Instruction} {f : Fault}
    (h : o.execute i = (.error (.fault f), p)) : o.Faults i f := by
  rcases o.outcome i with ⟨q, hq⟩ | ⟨r, b, hs⟩ | ⟨g, hg⟩
  · rw [hq.execute_eq] at h
    cases h
  · rw [hs.execute_eq] at h
    cases h
  · rw [hg.execute_eq] at h
    cases h
    exact hg

namespace Completes

variable {o p : Office ι} {i : Instruction}

theorem halted_eq (h : o.Completes i p) : p.worker.halted = o.worker.halted := by
  cases h <;> rfl

theorem halt_eq (h : o.Completes i p) : p.worker.halt = o.worker.halt := by
  cases h <;> rfl

theorem executed_eq (h : o.Completes i p) : p.worker.executed = o.worker.executed := by
  cases h <;> rfl

theorem pc_eq (h : o.Completes i p) :
    p.worker.pc = o.worker.pc + 1 ∨ ∃ t, i.target? = some t ∧ p.worker.pc = t.toNat := by
  cases h with
  | @jump branch t hb => exact .inr ⟨t, rfl, rfl⟩
  | _ => exact .inl rfl

theorem outputs_prefix (h : o.Completes i p) : o.trays.outputs <+: p.trays.outputs := by
  cases h with
  | outbox hh =>
      rw [Trays.outputs_deliver]
      exact List.prefix_append _ _
  | _ => exact List.prefix_refl _

theorem inbox_eq (h : o.Completes i p) (hi : i ≠ .inbox) : p.trays.inbox = o.trays.inbox := by
  cases h with
  | inbox => exact absurd rfl hi
  | _ => rfl

end Completes

theorem Starves.of_batch {o : Office Batch} {i : Instruction} {r : Halt} {b : Batch}
    (h : o.Starves i r b) :
    i = .inbox ∧ o.trays.inbox.pending = [] ∧ r = .inputExhausted ∧ b = o.trays.inbox := by
  cases h with
  | @inbox d _ _ hr hd =>
      cases hp : o.trays.inbox.pending with
      | nil =>
          rw [Batch.receive_of_nil hp] at hr
          cases hr
          exact ⟨rfl, rfl, (Option.some.inj hd).symm, rfl⟩
      | cons v rest =>
          obtain ⟨_, hv, _⟩ := Batch.receive_of_cons hp
          rw [hv] at hr
          cases hr
          cases hd

end Office

end OfficeMachine
