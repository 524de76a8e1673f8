import OfficeMachine.BuildError

namespace OfficeMachine

inductive Fault where
  | emptyHands
  | addressKind
  | addressRange
  | pointerKind
  | pointerRange
  | emptyTile
  | addendInHands
  | subtrahendInHands
  | addendOnTile
  | subtrahendOnTile
  | bumpOnTile
  | overflow
  | underflow
  | jumpCondition
  deriving DecidableEq, Repr

namespace Fault

def all : List Fault := [
  .emptyHands, .addressKind, .addressRange, .pointerKind, .pointerRange, .emptyTile,
  .addendInHands, .subtrahendInHands, .addendOnTile, .subtrahendOnTile, .bumpOnTile,
  .overflow, .underflow, .jumpCondition]

def code : Fault → Nat
  | .jumpCondition => 1
  | .emptyHands => 2
  | .addressKind => 3
  | .addressRange => 4
  | .pointerKind => 5
  | .pointerRange => 6
  | .emptyTile => 7
  | .addendInHands => 9
  | .subtrahendInHands => 10
  | .addendOnTile => 11
  | .subtrahendOnTile => 12
  | .bumpOnTile => 13
  | .overflow => 14
  | .underflow => 15

def name : Fault → String
  | .emptyHands => "EmptyHands"
  | .addressKind => "InvalidDirectAddressType"
  | .addressRange => "DirectAddressOutOfRange"
  | .pointerKind => "InvalidIndirectAddressType"
  | .pointerRange => "IndirectAddressOutOfRange"
  | .emptyTile => "ReadingEmptyCell"
  | .addendInHands => "BadAddendTypeInHands"
  | .subtrahendInHands => "BadSubtrahendTypeInHands"
  | .addendOnTile => "BadAddendTypeInMemory"
  | .subtrahendOnTile => "BadSubtrahendTypeInMemory"
  | .bumpOnTile => "BadTypeForBumpInMemory"
  | .overflow => "Overflow"
  | .underflow => "Underflow"
  | .jumpCondition => "BadJumpConditionType"

def ofName? (s : String) : Option Fault := all.find? fun f => f.name == s

def message : Fault → String
  | .emptyHands => "Empty hands"
  | .addressKind => "Invalid type for direct address"
  | .addressRange => "Direct address out of range"
  | .pointerKind => "Invalid type for indirect address"
  | .pointerRange => "Indirect address out of range"
  | .emptyTile => "Reading an empty tile"
  | .addendInHands => "Bad addend type in hands"
  | .subtrahendInHands => "Bad subtrahend type in hands"
  | .addendOnTile => "Bad addend type in memory"
  | .subtrahendOnTile => "Bad subtrahend type in memory"
  | .bumpOnTile => "Bad type for bump in memory"
  | .overflow => "Overflow: result above 999"
  | .underflow => "Underflow: result below -999"
  | .jumpCondition => "Bad type for jump condition"

def isAddressFault : Fault → Bool
  | .addressKind | .addressRange | .pointerKind | .pointerRange => true
  | _ => false

end Fault

def OutOfRange.fault : OutOfRange → Fault
  | .above _ => .overflow
  | .below _ => .underflow

inductive Failure where
  | fault (f : Fault)
  | build (e : BuildError)
  | lostCounter (pc length : Nat)
  | missingTile (index size : Nat)
  deriving DecidableEq, Repr

def Failure.message : Failure → String
  | .fault f => "Trap: " ++ f.message
  | .build e => "Spec error: " ++ e.message
  | .lostCounter pc length => s!"Program counter out of bounds: pc {pc}, program length {length}"
  | .missingTile index size => s!"Memory index out of bounds: index {index}, floor size {size}"

end OfficeMachine
