import OfficeMachine.LoadError

namespace OfficeMachine.Binary

abbrev Bytes := List UInt8

abbrev Reader (α : Type) := StateT Bytes Loaded α

def malformed {α : Type} : Reader α := throw .malformed

def ofBuild {α : Type} (e : Except BuildError α) : Reader α := StateT.lift (.ofBuild e)

def ofOption {α : Type} (o : Option α) : Reader α := StateT.lift (.ofOption o)

def readByte : Reader UInt8 := fun
  | [] => .error .malformed
  | b :: rest => .ok (b, rest)

def ofNat : (width : Nat) → Nat → Bytes
  | 0, _ => []
  | w + 1, n => UInt8.ofNat n :: ofNat w (n / 256)

def readNat : (width : Nat) → Reader Nat
  | 0 => return 0
  | w + 1 => do
      let low ← readByte
      let high ← readNat w
      return low.toNat + 256 * high

def ofTag (n : Nat) : Bytes := ofNat 4 n

def readTag : Reader Nat := readNat 4

def ofWord (n : UInt64) : Bytes := ofNat 8 n.toNat

def readWord : Reader UInt64 := return UInt64.ofNat (← readNat 8)

def ofChar (c : Char) : Bytes := String.utf8EncodeChar c

def readChar : Reader Char := fun bytes =>
  match (bytes.take 4).toByteArray.utf8DecodeChar? 0 with
  | some c => .ok (c, bytes.drop c.utf8Size)
  | none => .error .malformed

def readMany {α : Type} (read : Reader α) : Nat → Reader (List α)
  | 0 => return []
  | n + 1 => do
      let a ← read
      let rest ← readMany read n
      return a :: rest

def ofList {α : Type} (write : α → Bytes) (l : List α) : Bytes :=
  ofNat 8 l.length ++ l.flatMap write

def readList {α : Type} (read : Reader α) : Reader (List α) := do
  readMany read (← readNat 8)

def load {α : Type} (read : Reader α) (bytes : Bytes) : Loaded α := Prod.fst <$> read.run bytes

end OfficeMachine.Binary
