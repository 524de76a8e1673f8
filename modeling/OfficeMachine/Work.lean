import OfficeMachine.Instruction
import OfficeMachine.Office

namespace OfficeMachine

variable {ι : Type}

abbrev Work (ι : Type) := ExceptT Failure (StateM (Office ι))

namespace Work

variable {α β : Type}

def apply (w : Work ι α) (o : Office ι) : Except Failure α × Office ι := w.run.run o

@[simp]
theorem apply_pure (a : α) (o : Office ι) : (pure a : Work ι α).apply o = (.ok a, o) := rfl

@[simp]
theorem apply_bind (w : Work ι α) (f : α → Work ι β) (o : Office ι) :
    (w >>= f).apply o =
      match w.apply o with
      | (.ok a, o) => (f a).apply o
      | (.error e, o) => (.error e, o) := by
  simp only [apply, ExceptT.run_bind, StateT.run_bind]
  cases w.run.run o with
  | mk r o => cases r <;> rfl

@[simp]
theorem apply_get (o : Office ι) : (get : Work ι (Office ι)).apply o = (.ok o, o) := rfl

@[simp]
theorem apply_set (o p : Office ι) : (set p : Work ι PUnit).apply o = (.ok (), p) := rfl

@[simp]
theorem apply_modify (f : Office ι → Office ι) (o : Office ι) :
    (modify f : Work ι PUnit).apply o = (.ok (), f o) := rfl

@[simp]
theorem apply_throw (e : Failure) (o : Office ι) : (throw e : Work ι α).apply o = (.error e, o) := rfl

def fail (f : Fault) : Work ι α := throw (.fault f)

@[simp]
theorem apply_fail (f : Fault) (o : Office ι) :
    (fail f : Work ι α).apply o = (.error (.fault f), o) := rfl

def ofFault : Except Fault α → Work ι α
  | .ok a => pure a
  | .error f => fail f

@[simp]
theorem apply_ofFault (e : Except Fault α) (o : Office ι) :
    (ofFault e).apply o = (e.mapError .fault, o) := by
  cases e <;> rfl

def ofFailure : Except Failure α → Work ι α
  | .ok a => pure a
  | .error e => throw e

@[simp]
theorem apply_ofFailure (e : Except Failure α) (o : Office ι) : (ofFailure e).apply o = (e, o) := by
  cases e <;> rfl

def onWorker (f : Worker → Worker) : Work ι Unit :=
  modify fun o => { o with worker := f o.worker }

@[simp]
theorem apply_onWorker (f : Worker → Worker) (o : Office ι) :
    (onWorker f).apply o = (.ok (), { o with worker := f o.worker }) := rfl

def hands : Work ι Value := return (← get).worker.hands

@[simp]
theorem apply_hands (o : Office ι) : hands.apply o = (.ok o.worker.hands, o) := rfl

def held : Work ι Value := do
  let v ← hands
  if v.isEmpty then fail .emptyHands else return v

@[simp]
theorem apply_held (o : Office ι) :
    held.apply o =
      if o.worker.hands = .empty then (.error (.fault .emptyHands), o)
      else (.ok o.worker.hands, o) := by
  by_cases h : o.worker.hands = .empty <;> simp [held, h]

def asNumber (f : Fault) : Value → Work ι Number
  | .number n => pure n
  | _ => fail f

def heldNumber (f : Fault) : Work ι Number := do
  asNumber f (← hands)

@[simp]
theorem apply_heldNumber (f : Fault) (o : Office ι) :
    (heldNumber f).apply o = (asNumber f o.worker.hands).apply o := by
  simp [heldNumber]

def locate (mode : Mode) (address : UInt64) : Work ι Nat := do
  ofFault ((← get).floor.locate mode (.tileAddress address))

@[simp]
theorem apply_locate (mode : Mode) (address : UInt64) (o : Office ι) :
    (locate mode address).apply o =
      ((o.floor.locate mode (.tileAddress address)).mapError .fault, o) := by
  simp [locate]

def look (i : Nat) : Work ι Value := do
  ofFailure ((← get).floor.read i)

@[simp]
theorem apply_look (i : Nat) (o : Office ι) : (look i).apply o = (o.floor.read i, o) := by
  simp [look]

def lay (i : Nat) (v : Value) : Work ι Unit := do
  let o ← get
  let floor ← ofFailure (o.floor.write i v)
  set { o with floor := floor }

@[simp]
theorem apply_lay (i : Nat) (v : Value) (o : Office ι) :
    (lay i v).apply o =
      match o.floor.write i v with
      | .ok floor => (.ok (), { o with floor := floor })
      | .error e => (.error e, o) := by
  cases h : o.floor.write i v <;> simp [lay, h]

def inRange : Except OutOfRange Number → Work ι Number
  | .ok n => pure n
  | .error e => fail e.fault

@[simp]
theorem apply_inRange (r : Except OutOfRange Number) (o : Office ι) :
    (inRange r).apply o = (r.mapError fun e => .fault e.fault, o) := by
  cases r <;> rfl

def receive [Inbox ι] : Work ι Delivery := do
  let o ← get
  let (d, trays) := o.trays.receive
  set { o with trays := trays }
  return d

@[simp]
theorem apply_receive [Inbox ι] (o : Office ι) :
    receive.apply o = (.ok o.trays.receive.1, { o with trays := o.trays.receive.2 }) := rfl

def deliver (v : Value) : Work ι Unit :=
  modify fun o => { o with trays := o.trays.deliver v }

@[simp]
theorem apply_deliver (v : Value) (o : Office ι) :
    (deliver v).apply o = (.ok (), { o with trays := o.trays.deliver v }) := rfl

def hold (v : Value) : Work ι Unit := onWorker (·.hold v)

def advance : Work ι Unit := onWorker (·.advance)

def goTo (target : UInt64) : Work ι Unit := onWorker (·.goTo target.toNat)

def stop (h : Halt) : Work ι Unit := onWorker (·.stop h)

@[simp]
theorem apply_hold (v : Value) (o : Office ι) :
    (hold v).apply o = (.ok (), { o with worker := o.worker.hold v }) := rfl

@[simp]
theorem apply_advance (o : Office ι) :
    advance.apply o = (.ok (), { o with worker := o.worker.advance }) := rfl

@[simp]
theorem apply_goTo (target : UInt64) (o : Office ι) :
    (goTo target).apply o = (.ok (), { o with worker := o.worker.goTo target.toNat }) := rfl

@[simp]
theorem apply_stop (h : Halt) (o : Office ι) :
    (stop h).apply o = (.ok (), { o with worker := o.worker.stop h }) := rfl

def combine (f : Number → Number → Except OutOfRange Number) (inHands onTile : Fault)
    (mode : Mode) (address : UInt64) : Work ι Unit := do
  let a ← heldNumber inHands
  let i ← locate mode address
  let b ← asNumber onTile (← look i)
  let n ← inRange (f a b)
  hold (.number n)
  advance

def bump (f : Number → Except OutOfRange Number) (mode : Mode) (address : UInt64) :
    Work ι Unit := do
  let i ← locate mode address
  let a ← asNumber .bumpOnTile (← look i)
  let n ← inRange (f a)
  lay i (.number n)
  hold (.number n)
  advance

def jumpIf (p : Number → Bool) (target : UInt64) : Work ι Unit := do
  let n ← heldNumber .jumpCondition
  if p n then goTo target else advance

def copyFrom (mode : Mode) (address : UInt64) : Work ι Unit := do
  let i ← locate mode address
  let v ← look i
  if v.isEmpty then fail .emptyTile
  else
    hold v
    advance

def copyTo (mode : Mode) (address : UInt64) : Work ι Unit := do
  let v ← held
  let i ← locate mode address
  lay i v
  hold .empty
  advance

def takeInput [Inbox ι] : Work ι Unit := do
  match ← receive with
  | .value v =>
      hold v
      advance
  | .exhausted => stop .inputExhausted
  | .cancelled => stop .cancelled

def giveOutput : Work ι Unit := do
  let v ← held
  deliver v
  advance

end Work

def TileOp.execute : TileOp → Mode → UInt64 → Work ι Unit
  | .copyFrom => Work.copyFrom
  | .copyTo => Work.copyTo
  | .add => Work.combine Number.add .addendInHands .addendOnTile
  | .sub => Work.combine Number.sub .subtrahendInHands .subtrahendOnTile
  | .bumpUp => Work.bump Number.increment
  | .bumpDown => Work.bump Number.decrement

def Branch.execute : Branch → UInt64 → Work ι Unit
  | .always => Work.goTo
  | .ifZero => Work.jumpIf Number.isZero
  | .ifNegative => Work.jumpIf Number.isNegative

def Instruction.execute [Inbox ι] : Instruction → Work ι Unit
  | .inbox => Work.takeInput
  | .outbox => Work.giveOutput
  | .tile op mode address => op.execute mode address
  | .jump branch target => branch.execute target

def Office.execute [Inbox ι] (o : Office ι) (i : Instruction) : Except Failure Unit × Office ι :=
  i.execute.apply o

end OfficeMachine
