import OfficeMachine.Binary.Value
import OfficeMachine.Room

namespace OfficeMachine

open Binary

namespace Cells

def entryBytes (e : UInt64 × Value) : Bytes := ofWord e.1 ++ e.2.toBytes

def readEntry : Reader (UInt64 × Value) := do
  let k ← readWord
  let v ← Value.read
  return (k, v)

def ofEntries (l : List (UInt64 × Value)) : Cells := l.foldl (fun c e => c.insert e.1 e.2) .empty

def toBytes (c : Cells) : Bytes := Binary.ofList entryBytes c.entries

def read : Reader Cells := return ofEntries (← readList readEntry)

end Cells

namespace Room

def toBytes (r : Room) : Bytes := ofWord r.size ++ r.cells.toBytes

def readParts : Reader (UInt64 × Cells) := do
  let size ← readWord
  let cells ← Cells.read
  return (size, cells)

def read : Reader Room := do
  let (size, cells) ← readParts
  ofBuild (ofCells size cells)

end Room

end OfficeMachine
