namespace OfficeMachine

structure Number where
  val : Int
  lower : -999 ≤ val
  upper : val ≤ 999
  deriving DecidableEq, Repr

inductive OutOfRange where
  | above (n : Int)
  | below (n : Int)
  deriving DecidableEq, Repr

namespace Number

@[ext]
theorem ext : ∀ {a b : Number}, a.val = b.val → a = b
  | ⟨_, _, _⟩, ⟨_, _, _⟩, rfl => rfl

def ofInt? (n : Int) : Option Number :=
  if h : -999 ≤ n ∧ n ≤ 999 then some ⟨n, h.1, h.2⟩ else none

theorem ofInt?_val (a : Number) : ofInt? a.val = some a := by
  simp [ofInt?, a.lower, a.upper]

theorem ofInt?_eq_some {n : Int} {a : Number} : ofInt? n = some a ↔ a.val = n := by
  constructor
  · intro h
    unfold ofInt? at h
    split at h
    · simp only [Option.some.injEq] at h; rw [← h]
    · simp at h
  · rintro rfl
    exact ofInt?_val a

def ofResult (n : Int) : Except OutOfRange Number :=
  if hi : 999 < n then .error (.above n)
  else if lo : n < -999 then .error (.below n)
  else .ok ⟨n, by omega, by omega⟩

theorem ofResult_eq_ok {n : Int} {a : Number} : ofResult n = .ok a ↔ a.val = n := by
  have := a.lower
  have := a.upper
  unfold ofResult
  split
  · simp; omega
  · split
    · simp; omega
    · simp [Number.ext_iff, eq_comm]

theorem ofResult_eq_above {n m : Int} : ofResult n = .error (.above m) ↔ 999 < n ∧ m = n := by
  unfold ofResult
  split
  · simp_all [eq_comm]
  · split <;> simp <;> omega

theorem ofResult_eq_below {n m : Int} : ofResult n = .error (.below m) ↔ n < -999 ∧ m = n := by
  unfold ofResult
  split
  · simp; omega
  · split <;> simp_all [eq_comm]

def least : Number := ⟨-999, by decide, by decide⟩

def greatest : Number := ⟨999, by decide, by decide⟩

def zero : Number := ⟨0, by decide, by decide⟩

def add (a b : Number) : Except OutOfRange Number := ofResult (a.val + b.val)

def sub (a b : Number) : Except OutOfRange Number := ofResult (a.val - b.val)

def increment (a : Number) : Except OutOfRange Number := ofResult (a.val + 1)

def decrement (a : Number) : Except OutOfRange Number := ofResult (a.val - 1)

def isZero (a : Number) : Bool := a.val == 0

def isNegative (a : Number) : Bool := a.val < 0

instance : Ord Number := ⟨fun a b => compare a.val b.val⟩

def text (a : Number) : String := Int.repr a.val

end Number

end OfficeMachine
