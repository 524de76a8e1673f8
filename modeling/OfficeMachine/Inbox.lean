import OfficeMachine.Value

namespace OfficeMachine

inductive Delivery where
  | value (v : Value)
  | exhausted
  | cancelled
  deriving DecidableEq, Repr

class Inbox (ι : Type) where
  receive : ι → Delivery × ι
  remaining : ι → List Value
  exhausted : ι → Bool

structure Batch where
  values : Array Value
  cursor : Nat
  inside : cursor ≤ values.size
  deriving DecidableEq, Repr

namespace Batch

def ofList (values : List Value) : Batch := ⟨values.toArray, 0, Nat.zero_le _⟩

def consumed (b : Batch) : Nat := b.cursor

def pending (b : Batch) : List Value := b.values.toList.drop b.cursor

def receive (b : Batch) : Delivery × Batch :=
  if h : b.cursor < b.values.size then
    (.value b.values[b.cursor], ⟨b.values, b.cursor + 1, h⟩)
  else (.exhausted, b)

instance : Inbox Batch where
  receive := receive
  remaining := pending
  exhausted b := b.values.size ≤ b.cursor

inductive Request where
  | receive
  | remaining
  | exhausted
  | consumed
  deriving DecidableEq, Repr

inductive Answer where
  | delivery (d : Delivery)
  | values (vs : List Value)
  | flag (b : Bool)
  | count (n : Nat)
  deriving DecidableEq, Repr

def answer (b : Batch) : Request → Answer × Batch
  | .receive =>
      let (d, b) := b.receive
      (.delivery d, b)
  | .remaining => (.values (Inbox.remaining b), b)
  | .exhausted => (.flag (Inbox.exhausted b), b)
  | .consumed => (.count b.consumed, b)

def answerAll (b : Batch) : List Request → List Answer × Batch
  | [] => ([], b)
  | q :: rest =>
      let (a, b) := b.answer q
      let (answers, b) := answerAll b rest
      (a :: answers, b)

variable {a b : Batch} {v : Value} {rest : List Value}

theorem pending_eq_nil : b.pending = [] ↔ b.values.size ≤ b.cursor := List.drop_eq_nil_iff

theorem pending_of_lt (h : b.cursor < b.values.size) :
    b.pending = b.values[b.cursor] :: b.values.toList.drop (b.cursor + 1) :=
  List.drop_eq_getElem_cons h

theorem exhausted_iff : Inbox.exhausted b = true ↔ b.pending = [] :=
  decide_eq_true_iff.trans pending_eq_nil.symm

theorem receive_of_lt (h : b.cursor < b.values.size) :
    Inbox.receive b = (.value b.values[b.cursor], ⟨b.values, b.cursor + 1, h⟩) := dif_pos h

theorem receive_of_nil (h : b.pending = []) : Inbox.receive b = (.exhausted, b) :=
  dif_neg (Nat.not_lt.mpr (pending_eq_nil.mp h))

theorem receive_of_cons (h : b.pending = v :: rest) :
    ∃ b', Inbox.receive b = (.value v, b') ∧ b'.pending = rest := by
  have hlt : b.cursor < b.values.size := by
    refine Nat.lt_of_not_le fun hle => ?_
    rw [pending_eq_nil.mpr hle] at h
    cases h
  rw [pending_of_lt hlt] at h
  obtain ⟨rfl, rfl⟩ := List.cons.inj h
  exact ⟨_, receive_of_lt hlt, rfl⟩

theorem receive_eq_value (h : Inbox.receive a = (.value v, b)) :
    ∃ hlt : a.cursor < a.values.size,
      v = a.values[a.cursor] ∧ b = ⟨a.values, a.cursor + 1, hlt⟩ := by
  by_cases hlt : a.cursor < a.values.size
  · rw [receive_of_lt hlt] at h
    cases h
    exact ⟨hlt, rfl, rfl⟩
  · rw [receive_of_nil (pending_eq_nil.mpr (Nat.not_lt.mp hlt))] at h
    cases h

theorem pending_of_receive (h : Inbox.receive a = (.value v, b)) : a.pending = v :: b.pending := by
  obtain ⟨hlt, rfl, rfl⟩ := receive_eq_value h
  exact pending_of_lt hlt

theorem consumed_of_receive (h : Inbox.receive a = (.value v, b)) :
    b.consumed = a.consumed + 1 := by
  obtain ⟨_, _, rfl⟩ := receive_eq_value h
  rfl

end Batch

end OfficeMachine
