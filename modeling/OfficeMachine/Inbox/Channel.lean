import OfficeMachine.Inbox

namespace OfficeMachine

inductive Message where
  | value (v : Value)
  | cancel
  deriving DecidableEq, Repr

structure Channel where
  queue : List Message
  cancelled : Bool
  senders : List Bool
  attached : Bool
  deriving DecidableEq, Repr

namespace Channel

def new : Channel := ⟨[], false, [true], true⟩

def hasSender (c : Channel) (s : Nat) : Bool := c.senders.getD s false

def values (c : Channel) : List Value :=
  c.queue.filterMap fun
    | .value v => some v
    | .cancel => none

def waits (c : Channel) : Bool := !c.cancelled && c.queue.isEmpty && c.senders.any id

def receive (c : Channel) : Delivery × Channel :=
  if c.cancelled then (.cancelled, c)
  else
    match c.queue with
    | [] => (.exhausted, c)
    | .value v :: rest => (.value v, { c with queue := rest })
    | .cancel :: rest => (.cancelled, { c with queue := rest, cancelled := true })

instance : Inbox Channel where
  receive := receive
  remaining := values
  exhausted _ := false

inductive Action where
  | send (s : Nat) (v : Value)
  | cancel (s : Nat)
  | copy (s : Nat)
  | drop (s : Nat)
  | receive
  | drain
  | isExhausted
  | detach
  deriving DecidableEq, Repr

inductive Answer where
  | sent
  | returned (v : Value)
  | done
  | sender (s : Nat)
  | noSender
  | delivery (d : Delivery)
  | waiting
  | values (vs : List Value)
  | flag (b : Bool)
  | noInbox
  deriving DecidableEq, Repr

def bySender (c : Channel) (s : Nat) (act : Channel → Answer × Channel) : Answer × Channel :=
  if c.hasSender s then act c else (.noSender, c)

def byReader (c : Channel) (act : Channel → Answer × Channel) : Answer × Channel :=
  if c.attached then act c else (.noInbox, c)

def enqueue (c : Channel) (m : Message) : Channel := { c with queue := c.queue ++ [m] }

def perform (c : Channel) : Action → Answer × Channel
  | .send s v => c.bySender s fun c =>
      if c.attached then (.sent, c.enqueue (.value v)) else (.returned v, c)
  | .cancel s => c.bySender s fun c =>
      if c.attached then (.done, c.enqueue .cancel) else (.done, c)
  | .copy s => c.bySender s fun c =>
      (.sender c.senders.length, { c with senders := c.senders ++ [true] })
  | .drop s => c.bySender s fun c => (.done, { c with senders := c.senders.set s false })
  | .receive => c.byReader fun c =>
      if c.waits then (.waiting, c)
      else
        let (d, c) := c.receive
        (.delivery d, c)
  | .drain => c.byReader fun c => (.values c.values, { c with queue := [] })
  | .isExhausted => c.byReader fun c => (.flag (Inbox.exhausted c), c)
  | .detach => c.byReader fun c => (.done, { c with queue := [], attached := false })

def performAll (c : Channel) : List Action → List Answer × Channel
  | [] => ([], c)
  | a :: rest =>
      let (answer, c) := c.perform a
      let (answers, c) := performAll c rest
      (answer :: answers, c)

def close (c : Channel) : Channel := { c with senders := c.senders.map fun _ => false }

end Channel

end OfficeMachine
