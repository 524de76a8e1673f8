import OfficeMachine.Machine

namespace OfficeMachine

structure Puzzle where
  name : String
  program : Program
  room : Room
  inbox : List Value
  deriving DecidableEq, Repr

namespace Puzzle

def num (n : Int) (lower : -999 ≤ n := by decide) (upper : n ≤ 999 := by decide) : Value :=
  .number ⟨n, lower, upper⟩

def zero : Value := .number .zero

def cap (c : Char) (lower : 'A' ≤ c := by decide) (upper : c ≤ 'Z' := by decide) : Value :=
  .letter ⟨c, lower, upper⟩

def withInbox (p : Puzzle) (inbox : List Value) : Puzzle := { p with inbox := inbox }

def run (p : Puzzle) : Option (Except Failure Report) :=
  OfficeMachine.run p.program p.room p.inbox

def busyMailRoom : Puzzle where
  name := "Busy Mail Room"
  program := .ofLines [.inbox, .outbox, .jump .always 1] (by decide)
  room := .ofSize 0
  inbox := [cap 'B', cap 'O', cap 'O', cap 'T', cap 'S', cap 'E', cap 'Q', cap 'U',
    cap 'E', cap 'N', cap 'C', cap 'E']

def zeroPreservation : Puzzle where
  name := "Zero Preservation Initiative"
  program := .ofLines [
    .inbox,
    .jump .ifZero 4,
    .jump .always 1,
    .outbox,
    .jump .always 1] (by decide)
  room := .ofSize 9
  inbox := [num 7, zero, num 5, cap 'D', zero, zero, zero, zero]

def rainySummer : Puzzle where
  name := "Rainy Summer"
  program := .ofLines [
    .inbox,
    .tile .copyTo .direct 0,
    .inbox,
    .tile .add .direct 0,
    .outbox,
    .jump .always 1] (by decide)
  room := .ofSize 3
  inbox := [num 6, num 2, num (-3), num 8, zero, zero, num 500, num 499]

def countdown : Puzzle where
  name := "Countdown"
  program := .ofLines [
    .inbox,
    .tile .copyTo .direct 0,
    .tile .copyFrom .direct 0,
    .outbox,
    .tile .copyFrom .direct 0,
    .jump .ifZero 1,
    .jump .ifNegative 10,
    .tile .bumpDown .direct 0,
    .jump .always 3,
    .tile .bumpUp .direct 0,
    .jump .always 3] (by decide)
  room := .ofSize 10
  inbox := [num 3, num (-2), zero]

def lookupTable : Puzzle where
  name := "Lookup Table"
  program := .ofLines [
    .inbox,
    .tile .copyTo .direct 9,
    .tile .copyFrom .indirect 9,
    .outbox,
    .jump .always 1] (by decide)
  room := {
    size := 10
    cells := ⟨[(0, cap 'A'), (1, cap 'B'), (2, cap 'C'), (3, cap 'D'), (4, cap 'E')], by decide⟩
    inside := by decide }
  inbox := [num 2, zero, num 4]

end Puzzle

end OfficeMachine
