import OfficeMachine.Binary.Program
import OfficeMachine.Proofs.CellOrder
import OfficeMachine.Proofs.Reading
import OfficeMachine.Puzzle

namespace OfficeMachine

open Binary

variable {b t : Bytes}

theorem Number.exact_read : Exact Number.read Number.toBytes := by
  intro b n t
  have hlo := n.lower
  have hhi := n.upper
  simp only [Number.read, run_bind_eq_ok, readNat_eq_ok, run_ofBuild_eq_ok, Number.ofInt_eq_ok,
    Number.toBytes]
  constructor
  · rintro ⟨k, _, ⟨hk, rfl⟩, hn, rfl⟩
    have hk : k < 65536 := hk
    -- the two bytes hold the residue, and the sign comes back as the residue nearest to zero
    have hmod : n.val % 65536 = k := by
      rw [hn]
      have := Int.bmod_emod (x := k) (m := 65536)
      omega
    rw [hmod, Int.toNat_natCast]
  · rintro rfl
    have hnonneg : 0 ≤ n.val % 65536 := Int.emod_nonneg _ (by decide)
    have hlt : n.val % 65536 < 65536 := Int.emod_lt_of_pos _ (by decide)
    refine ⟨(n.val % 65536).toNat, t, ⟨?_, rfl⟩, ?_, rfl⟩
    · have hcap : capacity 2 = 65536 := rfl
      omega
    · rw [Int.toNat_of_nonneg hnonneg]
      have hself : n.val.bmod 65536 = n.val := Int.bmod_eq_of_le (by omega) (by omega)
      exact ((Int.emod_bmod n.val 65536).trans hself).symm

theorem Letter.exact_read : Exact Letter.read Letter.toBytes := by
  intro b c t
  simp only [Letter.read, run_bind_eq_ok, exact_readChar _ _ _, run_ofBuild_eq_ok,
    Letter.ofChar_eq_ok, Letter.toBytes]
  constructor
  · rintro ⟨_, _, rfl, rfl, rfl⟩
    rfl
  · rintro rfl
    exact ⟨c.char, t, rfl, rfl, rfl⟩

theorem Value.Kind.exact_read : Exact Kind.read Kind.toBytes := by
  intro b k t
  simp only [Kind.read, run_bind_eq_ok, readTag_eq_ok, run_ofOption_eq_ok, Kind.ofIndex?_eq_some,
    Kind.toBytes]
  constructor
  · rintro ⟨_, _, ⟨_, rfl⟩, rfl, rfl⟩
    rfl
  · rintro rfl
    have hlt : k.index < capacity 4 := by cases k <;> decide
    exact ⟨k.index, t, ⟨hlt, rfl⟩, rfl, rfl⟩

theorem Value.readPayload_eq_ok {k : Kind} {v : Value} :
    (readPayload k).run b = .ok (v, t) ↔ v.kind = k ∧ b = v.payloadBytes ++ t := by
  cases k with
  | empty =>
      rw [readPayload, run_pure_eq_ok]
      cases v <;> simp [kind, payloadBytes]
  | number =>
      simp only [readPayload, run_bind_eq_ok, run_pure_eq_ok, Number.exact_read _ _ _]
      cases v <;> simp [kind, payloadBytes]
  | letter =>
      simp only [readPayload, run_bind_eq_ok, run_pure_eq_ok, Letter.exact_read _ _ _]
      cases v <;> simp [kind, payloadBytes]
  | tileAddress =>
      simp only [readPayload, run_bind_eq_ok, run_pure_eq_ok, exact_readWord _ _ _]
      cases v <;> simp [kind, payloadBytes]
  | lineAddress =>
      simp only [readPayload, run_bind_eq_ok, run_pure_eq_ok, exact_readWord _ _ _]
      cases v <;> simp [kind, payloadBytes]

theorem Value.exact_read : Exact Value.read Value.toBytes := by
  intro b v t
  simp only [Value.read, run_bind_eq_ok, Kind.exact_read _ _ _, readPayload_eq_ok, Value.toBytes]
  constructor
  · rintro ⟨_, _, rfl, rfl, rfl⟩
    exact (List.append_assoc ..).symm
  · rintro rfl
    exact ⟨v.kind, _, List.append_assoc .., rfl, rfl⟩

theorem Opcode.exact_read : Exact Opcode.read Opcode.toBytes := by
  intro b o t
  simp only [Opcode.read, run_bind_eq_ok, readTag_eq_ok, run_ofOption_eq_ok, Opcode.ofCode?_eq_some,
    Opcode.toBytes]
  constructor
  · rintro ⟨_, _, ⟨_, rfl⟩, rfl, rfl⟩
    rfl
  · rintro rfl
    have hlt : o.code < all.length := List.idxOf_lt_length_of_mem (mem_all o)
    exact ⟨o.code, t, ⟨Nat.lt_trans hlt (by decide), rfl⟩, rfl, rfl⟩

namespace Instruction

theorem exact_readParameter : Exact readParameter parameterToBytes := by
  intro b p t
  simp only [readParameter, run_bind_eq_ok, readByte_eq_ok]
  constructor
  · rintro ⟨x, u, rfl, h⟩
    split at h
    · obtain ⟨rfl, rfl⟩ := run_pure_eq_ok.mp h
      rfl
    · simp only [run_bind_eq_ok, run_pure_eq_ok, Value.exact_read _ _ _] at h
      obtain ⟨v, _, rfl, rfl, rfl⟩ := h
      rfl
    · cases h
  · rintro rfl
    cases p with
    | none => exact ⟨0, t, rfl, rfl⟩
    | some v =>
        refine ⟨1, v.toBytes ++ t, rfl, ?_⟩
        simp only [run_bind_eq_ok, run_pure_eq_ok]
        exact ⟨v, t, (Value.exact_read _ _ _).mpr rfl, rfl, rfl⟩

theorem exact_read : Exact Instruction.read Instruction.toBytes := by
  intro b i t
  simp only [Instruction.read, readParts, run_bind_eq_ok, run_pure_eq_ok, Opcode.exact_read _ _ _,
    exact_readParameter _ _ _, run_ofBuild_eq_ok, build_eq_ok, Instruction.toBytes]
  constructor
  · rintro ⟨_, _, ⟨_, _, rfl, _, _, rfl, rfl, rfl⟩, ⟨rfl, rfl⟩, rfl⟩
    exact (List.append_assoc ..).symm
  · rintro rfl
    exact ⟨(i.opcode, i.parameter), t,
      ⟨i.opcode, _, List.append_assoc .., i.parameter, t, rfl, rfl, rfl⟩, ⟨rfl, rfl⟩, rfl⟩

end Instruction

theorem Program.read_eq_ok {p : Program} :
    Program.read.run b = .ok (p, t) ↔ p.length < UInt64.size ∧ b = p.toBytes ++ t := by
  simp only [Program.read, run_bind_eq_ok, Instruction.exact_read.readList, run_ofBuild_eq_ok,
    assemble_eq_ok, Program.toBytes, ← length_authored]
  constructor
  · rintro ⟨_, _, ⟨hlt, rfl⟩, rfl, rfl⟩
    exact ⟨hlt, rfl⟩
  · rintro ⟨hlt, rfl⟩
    exact ⟨p.authored, t, ⟨hlt, rfl⟩, rfl, rfl⟩

theorem Cells.exact_readEntry : Exact readEntry entryBytes := by
  intro b e t
  simp only [readEntry, run_bind_eq_ok, run_pure_eq_ok, exact_readWord _ _ _, Value.exact_read _ _ _,
    entryBytes]
  constructor
  · rintro ⟨_, _, rfl, _, _, rfl, rfl, rfl⟩
    exact (List.append_assoc ..).symm
  · rintro rfl
    exact ⟨e.1, _, List.append_assoc .., e.2, t, rfl, rfl, rfl⟩

namespace Room

def readListed : Reader (List (UInt64 × Value)) := do
  let _ ← readWord
  readList Cells.readEntry

def listedBytes (size : UInt64) (l : List (UInt64 × Value)) : Bytes :=
  ofWord size ++ Binary.ofList Cells.entryBytes l

theorem toBytes_eq_listedBytes (r : Room) : r.toBytes = listedBytes r.size r.cells.entries := rfl

theorem read_eq_ok {r : Room} :
    Room.read.run b = .ok (r, t) ↔
      ∃ l, l.length < UInt64.size ∧ Cells.ofEntries l = r.cells ∧ b = listedBytes r.size l ++ t := by
  simp only [Room.read, Room.readParts, Cells.read, run_bind_eq_ok, run_pure_eq_ok,
    exact_readWord _ _ _, Cells.exact_readEntry.readList, run_ofBuild_eq_ok, ofCells_eq_ok,
    listedBytes]
  constructor
  · rintro ⟨_, _, ⟨_, _, rfl, _, _, ⟨l, _, ⟨hlt, rfl⟩, rfl, rfl⟩, rfl, rfl⟩, ⟨rfl, hc⟩, rfl⟩
    exact ⟨l, hlt, hc.symm, (List.append_assoc ..).symm⟩
  · rintro ⟨l, hlt, hc, rfl⟩
    exact ⟨(r.size, r.cells), t, ⟨r.size, _, List.append_assoc .., r.cells, t,
      ⟨l, t, ⟨hlt, rfl⟩, hc, rfl⟩, rfl, rfl⟩, ⟨rfl, rfl⟩, rfl⟩

theorem readListed_eq_ok {l : List (UInt64 × Value)} :
    readListed.run b = .ok (l, t) ↔
      l.length < UInt64.size ∧ ∃ size, b = listedBytes size l ++ t := by
  simp only [readListed, run_bind_eq_ok, exact_readWord _ _ _, Cells.exact_readEntry.readList,
    listedBytes]
  constructor
  · rintro ⟨size, _, rfl, hlt, rfl⟩
    exact ⟨hlt, size, (List.append_assoc ..).symm⟩
  · rintro ⟨hlt, size, rfl⟩
    exact ⟨size, _, List.append_assoc .., hlt, rfl⟩

theorem read_toBytes (r : Room) (t : Bytes) : Room.read.run (r.toBytes ++ t) = .ok (r, t) := by
  refine read_eq_ok.mpr ⟨r.cells.entries, r.length_entries_lt, ?_, rfl⟩
  exact Cells.ofEntries_of_perm (.refl _)

end Room

theorem binary_round_trip :
    (∀ (x : Number) (t : Bytes), Number.read.run (x.toBytes ++ t) = .ok (x, t)) ∧
    (∀ (x : Letter) (t : Bytes), Letter.read.run (x.toBytes ++ t) = .ok (x, t)) ∧
    (∀ (x : Value) (t : Bytes), Value.read.run (x.toBytes ++ t) = .ok (x, t)) ∧
    (∀ (x : Opcode) (t : Bytes), Opcode.read.run (x.toBytes ++ t) = .ok (x, t)) ∧
    (∀ (x : Instruction) (t : Bytes), Instruction.read.run (x.toBytes ++ t) = .ok (x, t)) ∧
    (∀ (x : Program) (t : Bytes), x.length < UInt64.size →
      Program.read.run (x.toBytes ++ t) = .ok (x, t)) ∧
    (∀ (x : Room) (t : Bytes), Room.read.run (x.toBytes ++ t) = .ok (x, t)) := by
  refine ⟨?_, ?_, ?_, ?_, ?_, ?_, Room.read_toBytes⟩
  · exact fun x t => (Number.exact_read _ _ _).mpr rfl
  · exact fun x t => (Letter.exact_read _ _ _).mpr rfl
  · exact fun x t => (Value.exact_read _ _ _).mpr rfl
  · exact fun x t => (Opcode.exact_read _ _ _).mpr rfl
  · exact fun x t => (Instruction.exact_read _ _ _).mpr rfl
  · exact fun x t hlt => Program.read_eq_ok.mpr ⟨hlt, rfl⟩

theorem countdown_round_trip :
    Puzzle.countdown.program.length < UInt64.size ∧
      Program.read.run (Puzzle.countdown.program.toBytes ++ [255]) =
        .ok (Puzzle.countdown.program, [255]) := by
  have hlt : Puzzle.countdown.program.length < UInt64.size := by decide
  obtain ⟨_, _, _, _, _, hprogram, _⟩ := binary_round_trip
  exact ⟨hlt, hprogram _ _ hlt⟩

namespace Binary

variable {α : Type} {read : Reader α} {write : α → Bytes}

def TookOwn (write : α → Bytes) (b t : Bytes) (a : α) : Prop :=
  ∃ k ≤ b.length, t = b.drop k ∧ write a = b.take k

theorem tookOwn_iff {a : α} : TookOwn write b t a ↔ b = write a ++ t := by
  constructor
  · rintro ⟨k, _, rfl, hw⟩
    rw [hw, List.take_append_drop]
  · rintro rfl
    exact ⟨(write a).length, by simp, List.drop_left.symm, List.take_left.symm⟩

structure Canonical (read : Reader α) (write : α → Bytes) : Prop where
  tookOwn : ∀ b a t, read.run b = .ok (a, t) → TookOwn write b t a
  unique : ∀ b c a, read.run b = .ok (a, []) → read.run c = .ok (a, []) → b = c

theorem canonical_of_read (h : ∀ b a t, read.run b = .ok (a, t) → b = write a ++ t) :
    Canonical read write where
  tookOwn b a t hb := tookOwn_iff.mpr (h b a t hb)
  unique b c a hb hc := (h b a [] hb).trans (h c a [] hc).symm

theorem Exact.canonical (h : Exact read write) : Canonical read write :=
  canonical_of_read fun b a t => (h b a t).mp

end Binary

theorem Program.canonical_read : Canonical Program.read Program.toBytes :=
  canonical_of_read fun _ _ _ h => (Program.read_eq_ok.mp h).2

namespace Room

theorem readListed_of_read {r : Room} (h : Room.read.run b = .ok (r, t)) :
    ∃ l, readListed.run b = .ok (l, t) ∧ Cells.ofEntries l = r.cells ∧
      b = listedBytes r.size l ++ t := by
  obtain ⟨l, hlt, hc, hb⟩ := read_eq_ok.mp h
  exact ⟨l, readListed_eq_ok.mpr ⟨hlt, r.size, hb⟩, hc, hb⟩

theorem eq_toBytes_iff_ascending {r : Room} {l : List (UInt64 × Value)}
    (h : Room.read.run b = .ok (r, t)) (hl : readListed.run b = .ok (l, t)) :
    b = r.toBytes ++ t ↔ Cells.Ascending l := by
  obtain ⟨m, hm, hc, hb⟩ := readListed_of_read h
  obtain ⟨rfl, _⟩ := Prod.mk.inj (Except.ok.inj (hl.symm.trans hm))
  constructor
  · intro hown
    have hown' : readListed.run b = .ok (r.cells.entries, t) :=
      readListed_eq_ok.mpr ⟨r.length_entries_lt, r.size, hown⟩
    obtain ⟨rfl, _⟩ := Prod.mk.inj (Except.ok.inj (hl.symm.trans hown'))
    exact r.cells.ascending
  · intro hasc
    have hentries : r.cells.entries = l := by rw [← hc, Cells.entries_ofEntries hasc]
    rw [toBytes_eq_listedBytes, hentries]
    exact hb

end Room

theorem binary_decoding_is_canonical :
    Canonical Number.read Number.toBytes ∧ Canonical Letter.read Letter.toBytes ∧
    Canonical Value.read Value.toBytes ∧ Canonical Opcode.read Opcode.toBytes ∧
    Canonical Instruction.read Instruction.toBytes ∧ Canonical Program.read Program.toBytes ∧
    (∀ b r t, Room.read.run b = .ok (r, t) → ∃ l, Room.readListed.run b = .ok (l, t) ∧
      Cells.ofEntries l = r.cells ∧ (TookOwn Room.toBytes b t r ↔ Cells.Ascending l)) ∧
    (∀ b c r l m, Room.read.run b = .ok (r, []) → Room.read.run c = .ok (r, []) →
      Room.readListed.run b = .ok (l, []) → Room.readListed.run c = .ok (m, []) →
      Cells.Ascending l → Cells.Ascending m → b = c) := by
  refine ⟨Number.exact_read.canonical, Letter.exact_read.canonical, Value.exact_read.canonical,
    Opcode.exact_read.canonical, Instruction.exact_read.canonical, Program.canonical_read, ?_, ?_⟩
  · intro b r t h
    obtain ⟨l, hl, hc, _⟩ := Room.readListed_of_read h
    exact ⟨l, hl, hc, tookOwn_iff.trans (Room.eq_toBytes_iff_ascending h hl)⟩
  · intro b c r l m hb hc hl hm hla hma
    have hb' := (Room.eq_toBytes_iff_ascending hb hl).mpr hla
    have hc' := (Room.eq_toBytes_iff_ascending hc hm).mpr hma
    exact hb'.trans hc'.symm

theorem descending_cells_not_own_bytes :
    ∃ b r, Room.read.run b = .ok (r, []) ∧
      Room.readListed.run b = .ok ([(1, .empty), (0, .empty)], []) ∧
      ¬TookOwn Room.toBytes b [] r := by
  have hb : Room.read.run (Room.listedBytes 2 [(1, .empty), (0, .empty)] ++ []) =
      .ok (⟨2, ⟨[(0, .empty), (1, .empty)], by decide⟩, by decide⟩, []) :=
    Room.read_eq_ok.mpr ⟨[(1, .empty), (0, .empty)], by decide, rfl, rfl⟩
  have hlisted : Room.readListed.run (Room.listedBytes 2 [(1, .empty), (0, .empty)] ++ []) =
      .ok ([(1, .empty), (0, .empty)], []) :=
    Room.readListed_eq_ok.mpr ⟨by decide, 2, rfl⟩
  obtain ⟨_, _, _, _, _, _, hroom, _⟩ := binary_decoding_is_canonical
  obtain ⟨l, hl, _, hown⟩ := hroom _ _ _ hb
  obtain ⟨rfl, _⟩ := Prod.mk.inj (Except.ok.inj (hlisted.symm.trans hl))
  exact ⟨_, _, hb, hl, fun htook => absurd (hown.mp htook) (by decide)⟩

end OfficeMachine
