import OfficeMachine.Json.Fields
import OfficeMachine.Json.Value
import OfficeMachine.Room
import OfficeMachine.Text.Decimal

namespace OfficeMachine

namespace Cells

def toJson (c : Cells) : Json :=
  .obj (c.entries.map fun e => (Text.decimal e.1.toNat, e.2.toJson))

def readCell (c : Cells) : String × Json → Loaded Cells
  | (name, j) => do
      let n ← .ofOption (Text.decimal? name)
      let k ← Json.word? (.int n)
      let v ← Value.ofJson j
      return c.insert k v

def ofJson : Json → Loaded Cells
  | .obj fields => fields.foldlM readCell .empty
  | _ => .error .malformed

end Cells

namespace Room

def toJson (r : Room) : Json := .obj [("size", .word r.size), ("cells", r.cells.toJson)]

def readField (found : Option UInt64 × Option Cells) :
    String × Json → Loaded (Option UInt64 × Option Cells)
  | (name, j) =>
      if name = "size" then (·, found.2) <$> Json.once found.1 j.word?
      else if name = "cells" then (found.1, ·) <$> Json.once found.2 (Cells.ofJson j)
      else .ok found

def partsOfJson : Json → Loaded (UInt64 × Cells)
  | .obj fields => do
      let (size, cells) ← fields.foldlM readField (none, none)
      return (← Json.required size, ← Json.required cells)
  | .arr items => Json.pair Json.word? Cells.ofJson items
  | _ => .error .malformed

def ofJson (j : Json) : Loaded Room := do
  let (size, cells) ← partsOfJson j
  .ofBuild (ofCells size cells)

end Room

end OfficeMachine
