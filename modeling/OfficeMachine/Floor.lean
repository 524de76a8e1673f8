import OfficeMachine.Fault
import OfficeMachine.Opcode
import OfficeMachine.Room

namespace OfficeMachine

inductive Value.Names : Value → Int → Prop
  | number (n : Number) : Names (.number n) n.val
  | tileAddress (a : UInt64) : Names (.tileAddress a) a.toNat

def Floor.wordMax : Nat := 9223372036854775807

structure Floor where
  tiles : Array Value
  fits : tiles.size ≤ Floor.wordMax
  deriving DecidableEq, Repr

namespace Floor

-- a tile takes 16 bytes, and no block of memory has more than `wordMax` of them
def capacity : Nat := wordMax / 16

def ofSize (n : Nat) (h : n ≤ capacity := by decide) : Floor where
  tiles := Array.replicate n .empty
  fits := by
    rw [Array.size_replicate]
    exact Nat.le_trans h (Nat.div_le_self ..)

def ofSize? (n : Nat) : Option Floor := if h : n ≤ capacity then some (ofSize n h) else none

def size (f : Floor) : Nat := f.tiles.size

def tile (f : Floor) (i : Nat) : Value := f.tiles.getD i .empty

def put (f : Floor) (i : Nat) (v : Value) : Floor where
  tiles := f.tiles.setIfInBounds i v
  fits := by
    rw [Array.size_setIfInBounds]
    exact f.fits

@[ext]
theorem ext : ∀ {f g : Floor}, f.tiles = g.tiles → f = g
  | ⟨_, _⟩, ⟨_, _⟩, rfl => rfl

theorem ofSize?_of_le {n : Nat} (h : n ≤ capacity) : ofSize? n = some (ofSize n h) := dif_pos h

theorem ofSize?_of_lt {n : Nat} (h : capacity < n) : ofSize? n = none := dif_neg (Nat.not_le.mpr h)

@[simp]
theorem size_ofSize {n : Nat} (h : n ≤ capacity) : (ofSize n h).size = n := by simp [ofSize, size]

@[simp]
theorem tile_ofSize {n : Nat} (h : n ≤ capacity) (i : Nat) : (ofSize n h).tile i = .empty := by
  simp [ofSize, tile, Array.getD_eq_getD_getElem?, Array.getElem?_replicate]
  split <;> rfl

@[simp]
theorem size_put (f : Floor) (i : Nat) (v : Value) : (f.put i v).size = f.size := by
  simp [put, size]

theorem tile_put (f : Floor) (i : Nat) (v : Value) (j : Nat) :
    (f.put i v).tile j = if i = j ∧ i < f.size then v else f.tile j := by
  simp only [put, tile, size, Array.getD_eq_getD_getElem?, Array.getElem?_setIfInBounds]
  by_cases hij : i = j
  · subst hij
    by_cases hi : i < f.tiles.size <;> simp [hi]
  · simp [hij]

theorem tile_put_self {f : Floor} {i : Nat} (h : i < f.size) (v : Value) : (f.put i v).tile i = v := by
  rw [tile_put, if_pos ⟨rfl, h⟩]

theorem tile_of_size_le (f : Floor) {i : Nat} (h : f.size ≤ i) : f.tile i = .empty := by
  simp only [size] at h
  simp [tile, Array.getD_eq_getD_getElem?, Array.getElem?_eq_none h]

theorem getElem?_tiles (f : Floor) {i : Nat} (h : i < f.size) : f.tiles[i]? = some (f.tile i) := by
  rw [size] at h
  rw [tile, Array.getD_eq_getD_getElem?, Array.getElem?_eq_getElem h, Option.getD_some]

def read (f : Floor) (i : Nat) : Except Failure Value :=
  if i < f.size then .ok (f.tile i) else .error (.missingTile i f.size)

def write (f : Floor) (i : Nat) (v : Value) : Except Failure Floor :=
  if i < f.size then .ok (f.put i v) else .error (.missingTile i f.size)

def layAll (f : Floor) (cells : List (UInt64 × Value)) : Floor :=
  cells.foldl (fun f e => f.put e.1.toNat e.2) f

def ofRoom (r : Room) (h : r.size.toNat ≤ capacity := by decide) : Floor :=
  (ofSize r.size.toNat h).layAll r.cells.entries

def ofRoom? (r : Room) : Option Floor := do
  let f ← ofSize? r.size.toNat
  return f.layAll r.cells.entries

theorem ofRoom?_of_le {r : Room} (h : r.size.toNat ≤ capacity) : ofRoom? r = some (ofRoom r h) := by
  rw [ofRoom?, ofSize?_of_le h]
  rfl

theorem ofRoom?_of_lt {r : Room} (h : capacity < r.size.toNat) : ofRoom? r = none := by
  rw [ofRoom?, ofSize?_of_lt h]
  rfl

def occupied (f : Floor) : List (Nat × Value) :=
  f.tiles.toList.zipIdx.filterMap fun (v, i) => if v.isEmpty then none else some (i, v)

def place? : Value → Option Int
  | .number n => some n.val
  | .tileAddress a => some (if a.toNat ≤ wordMax then a.toNat else wordMax)
  | _ => none

def find (f : Floor) (kind range : Fault) (v : Value) : Except Fault Nat :=
  match place? v with
  | none => .error kind
  | some n => if 0 ≤ n ∧ n < f.size then .ok n.toNat else .error range

variable {f : Floor} {kind range e : Fault} {v : Value} {i : Nat} {n : Int}

theorem names_or (v : Value) : (∃ n, v.Names n) ∨ place? v = none := by
  cases v with
  | number n => exact .inl ⟨_, .number n⟩
  | tileAddress a => exact .inl ⟨_, .tileAddress a⟩
  | _ => exact .inr rfl

theorem find_of_none (h : place? v = none) : f.find kind range v = .error kind := by
  rw [find, h]

theorem find_of_names (h : v.Names n) :
    f.find kind range v = if 0 ≤ n ∧ n < f.size then .ok n.toNat else .error range := by
  cases h with
  | number n => rfl
  | tileAddress a =>
      have hf : f.size ≤ wordMax := f.fits
      rw [find, place?]
      by_cases ha : a.toNat ≤ wordMax
      · rw [if_pos ha]
      · -- neither the address nor the word it is cut down to is on the floor
        rw [if_neg ha]
        exact (if_neg (by omega)).trans (if_neg (by omega)).symm

theorem find_eq_ok : f.find kind range v = .ok i ↔ v.Names i ∧ i < f.size := by
  constructor
  · intro h
    rcases names_or v with ⟨n, hn⟩ | hv
    · rw [find_of_names hn] at h
      split at h
      · next hin =>
          cases h
          rw [Int.toNat_of_nonneg hin.1]
          exact ⟨hn, by omega⟩
      · cases h
    · rw [find_of_none hv] at h
      cases h
  · rintro ⟨hv, hi⟩
    rw [find_of_names hv, if_pos ⟨by omega, by omega⟩, Int.toNat_natCast]

theorem find_lt (h : f.find kind range v = .ok i) : i < f.size := (find_eq_ok.mp h).2

theorem find_eq_error (h : f.find kind range v = .error e) :
    e = range ∨ e = kind ∧ place? v = none := by
  unfold find at h
  split at h
  · next hv => exact .inr ⟨(Except.error.inj h).symm, hv⟩
  · split at h
    · cases h
    · exact .inl (Except.error.inj h).symm

def direct (f : Floor) (v : Value) : Except Fault Nat := f.find .addressKind .addressRange v

def indirect (f : Floor) (v : Value) : Except Fault Nat := do
  let pointer ← f.find .pointerKind .pointerRange v
  f.direct (f.tile pointer)

theorem indirect_eq_ok : f.indirect v = .ok i ↔
    ∃ pointer, f.find .pointerKind .pointerRange v = .ok pointer ∧
      f.direct (f.tile pointer) = .ok i := by
  unfold indirect
  cases f.find .pointerKind .pointerRange v <;> simp [bind, Except.bind]

theorem indirect_eq_error : f.indirect v = .error e ↔
    f.find .pointerKind .pointerRange v = .error e ∨
      ∃ pointer, f.find .pointerKind .pointerRange v = .ok pointer ∧
        f.direct (f.tile pointer) = .error e := by
  unfold indirect
  cases f.find .pointerKind .pointerRange v <;> simp [bind, Except.bind]

def locate (f : Floor) : Mode → Value → Except Fault Nat
  | .direct => f.direct
  | .indirect => f.indirect

theorem locate_direct {a : UInt64} (h : a.toNat < f.size) :
    f.locate .direct (.tileAddress a) = .ok a.toNat := by
  rw [locate, direct, find_eq_ok]
  exact ⟨.tileAddress a, h⟩

theorem locate_lt {mode : Mode} (h : f.locate mode v = .ok i) : i < f.size := by
  cases mode with
  | direct => exact find_lt h
  | indirect =>
      obtain ⟨_, _, hi⟩ := indirect_eq_ok.mp h
      exact find_lt hi

end Floor

end OfficeMachine
