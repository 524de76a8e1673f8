import OfficeMachine.Proofs.FloorPlan
import OfficeMachine.Proofs.JsonForm
import OfficeMachine.Proofs.Loading

namespace OfficeMachine

open Binary

variable {n k : UInt64} {v : Value} {l l' : List (UInt64 × Value)}

namespace Room

def LastEntry (l : List (UInt64 × Value)) (k : UInt64) (v : Value) : Prop :=
  ∃ before after, l = before ++ (k, v) :: after ∧ ∀ e ∈ after, e.1 ≠ k

theorem lastFor?_eq_some : lastFor? k l = some v ↔ LastEntry l k v := by
  constructor
  · intro h
    induction l with
    | nil => cases h
    | cons e rest ih =>
        rw [lastFor?_cons] at h
        cases hr : lastFor? k rest with
        | some w =>
            rw [hr, Option.some_or] at h
            obtain ⟨before, after, rfl, hafter⟩ := ih (hr.trans h)
            exact ⟨e :: before, after, rfl, hafter⟩
        | none =>
            rw [hr, Option.none_or] at h
            split at h
            · next hk =>
                obtain rfl := Option.some.inj h
                refine ⟨[], rest, by rw [← hk]; rfl, ?_⟩
                simpa [lastFor?] using hr
            · cases h
  · rintro ⟨before, after, rfl, hafter⟩
    exact lastFor?_append_cons before hafter

theorem exists_lastFor? : (∃ v, lastFor? k l = some v) ↔ k ∈ l.map Prod.fst := by
  rw [← Option.isSome_iff_exists]
  simp [lastFor?]

end Room

namespace Cells

theorem get?_foldl_insert (c : Cells) :
    (l.foldl (fun c e => c.insert e.1 e.2) c).get? k = (Room.lastFor? k l).or (c.get? k) := by
  induction l generalizing c with
  | nil => rfl
  | cons e rest ih =>
      rw [List.foldl_cons, ih, get?_insert, Room.lastFor?_cons, Option.or_assoc]
      by_cases hk : k = e.1
      · rw [if_pos hk, if_pos hk.symm, Option.some_or]
      · rw [if_neg hk, if_neg (Ne.symm hk), Option.none_or]

theorem get?_ofEntries : (ofEntries l).get? k = Room.lastFor? k l := by
  rw [ofEntries, get?_foldl_insert, get?_empty, Option.or_none]

theorem mem_keys_ofEntries : k ∈ (ofEntries l).entries.map Prod.fst ↔ k ∈ l.map Prod.fst := by
  rw [← Room.exists_lastFor? (l := l), ← get?_ofEntries, List.mem_map]
  constructor
  · rintro ⟨e, he, rfl⟩
    exact ⟨e.2, (lookup_eq_some (ofEntries l).ascending).mpr he⟩
  · rintro ⟨v, hv⟩
    exact ⟨(k, v), (lookup_eq_some (ofEntries l).ascending).mp hv, rfl⟩

theorem ofEntries_of_reordered (h : Room.Reordered l l') : ofEntries l = ofEntries l' := by
  refine ext_get? fun k => ?_
  rw [get?_ofEntries, get?_ofEntries, Room.lastFor?, Room.lastFor?, h]

end Cells

structure LowestOutside (n : UInt64) (keys : List UInt64) (k : UInt64) : Prop where
  mem : k ∈ keys
  outside : n ≤ k
  lowest : ∀ j ∈ keys, n ≤ j → k ≤ j

namespace LowestOutside

variable {keys keys' : List UInt64}

theorem unique {j : UInt64} (hj : LowestOutside n keys j) (hk : LowestOutside n keys k) : j = k :=
  UInt64.le_antisymm (hj.lowest k hk.mem hk.outside) (hk.lowest j hj.mem hj.outside)

theorem of_mem_iff (hk : LowestOutside n keys k) (h : ∀ {j}, j ∈ keys ↔ j ∈ keys') :
    LowestOutside n keys' k :=
  ⟨h.mp hk.mem, hk.outside, fun j hj => hk.lowest j (h.mpr hj)⟩

theorem of_find? (h : Cells.Ascending l) {e : UInt64 × Value}
    (hf : l.find? (fun e => !decide (e.1 < n)) = some e) :
    LowestOutside n (l.map Prod.fst) e.1 := by
  obtain ⟨hout, before, after, rfl, hbefore⟩ := List.find?_eq_some_iff_append.mp hf
  have hin : ∀ x ∈ before, x.1 < n := by simpa using hbefore
  have hlater : ∀ x ∈ after, e.1 < x.1 :=
    (List.pairwise_cons.mp (List.pairwise_append.mp h).2.1).1
  refine ⟨List.mem_map_of_mem (by simp), by simpa using hout, ?_⟩
  intro j hj hn
  obtain ⟨x, hx, rfl⟩ := List.mem_map.mp hj
  -- what stands before the first stray cell is inside, and what stands after it is higher
  rcases List.mem_append.mp hx with hx | hx
  · exact absurd (hin x hx) (UInt64.not_lt.mpr hn)
  · rcases List.mem_cons.mp hx with rfl | hx
    · exact UInt64.le_refl _
    · exact UInt64.le_of_lt (hlater x hx)

end LowestOutside

namespace Room

theorem ofCells_eq_error {cells : Cells} {e : BuildError} :
    ofCells n cells = .error e ↔
      ∃ k, e = .strayCell k n ∧ LowestOutside n (cells.entries.map Prod.fst) k := by
  cases hx : cells.entries.find? fun e => !decide (e.1 < n) with
  | some x =>
      have hlow := LowestOutside.of_find? cells.ascending hx
      rw [ofCells_of_find? hx]
      constructor
      · intro h
        cases h
        exact ⟨x.1, rfl, hlow⟩
      · rintro ⟨k, rfl, hk⟩
        rw [hlow.unique hk]
  | none =>
      have hin : ∀ x ∈ cells.entries, x.1 < n := by simpa using hx
      rw [ofCells_of_inside hin]
      constructor
      · intro h
        cases h
      · rintro ⟨k, _, hk⟩
        obtain ⟨x, hx, rfl⟩ := List.mem_map.mp hk.mem
        exact absurd (hin x hx) (UInt64.not_lt.mpr hk.outside)

theorem exists_ofCells {cells : Cells} :
    (∃ r, ofCells n cells = .ok r) ↔ ∀ k ∈ cells.entries.map Prod.fst, k < n := by
  constructor
  · rintro ⟨r, hr⟩ k hk
    obtain ⟨rfl, rfl⟩ := ofCells_eq_ok.mp hr
    obtain ⟨e, he, rfl⟩ := List.mem_map.mp hk
    exact r.inside e he
  · intro h
    cases hr : ofCells n cells with
    | ok r => exact ⟨r, rfl⟩
    | error e =>
        obtain ⟨k, _, hk⟩ := ofCells_eq_error.mp hr
        exact absurd (h k hk.mem) (UInt64.not_lt.mpr hk.outside)

structure Furnishes (n : UInt64) (l : List (UInt64 × Value)) (room : Loaded Room) : Prop where
  accepts : (∃ r, room = .ok r) ↔ ∀ e ∈ l, e.1 < n
  cells : ∀ r, room = .ok r → r.size = n ∧
    ∀ k v, r.cells.get? k = some v ↔ LastEntry l k v
  refuses : ∀ e, room = .error e ↔
    ∃ k, e = .rejected (.strayCell k n) ∧ LowestOutside n (l.map Prod.fst) k

theorem furnishes_ofEntries (n : UInt64) (l : List (UInt64 × Value)) :
    Furnishes n l (.ofBuild (ofCells n (.ofEntries l))) where
  accepts := by
    simp only [Loaded.ofBuild_eq_ok, exists_ofCells, Cells.mem_keys_ofEntries, List.forall_mem_map]
  cells := by
    intro r hr
    obtain ⟨hsize, hcells⟩ := ofCells_eq_ok.mp (Loaded.ofBuild_eq_ok.mp hr)
    refine ⟨hsize, fun k v => ?_⟩
    rw [hcells, Cells.get?_ofEntries, lastFor?_eq_some]
  refuses := by
    intro e
    rw [Loaded.ofBuild_eq_error]
    constructor
    · rintro ⟨_, rfl, hr⟩
      obtain ⟨k, rfl, hk⟩ := ofCells_eq_error.mp hr
      exact ⟨k, rfl, hk.of_mem_iff Cells.mem_keys_ofEntries⟩
    · rintro ⟨k, rfl, hk⟩
      have hk' := hk.of_mem_iff (Cells.mem_keys_ofEntries (l := l)).symm
      exact ⟨_, rfl, ofCells_eq_error.mpr ⟨k, rfl, hk'⟩⟩

theorem load_listedBytes (hlt : l.length < UInt64.size) (t : Bytes) :
    load Room.read (listedBytes n l ++ t) = .ofBuild (ofCells n (.ofEntries l)) := by
  have hparts : readParts.run (listedBytes n l ++ t) = .ok ((n, Cells.ofEntries l), t) := by
    simp only [readParts, Cells.read, run_bind_eq_ok, run_pure_eq_ok, exact_readWord _ _ _,
      Cells.exact_readEntry.readList, listedBytes]
    exact ⟨n, _, List.append_assoc .., _, t, ⟨l, t, ⟨hlt, rfl⟩, rfl, rfl⟩, rfl, rfl⟩
  have hread : Room.read = readParts >>= fun p => ofBuild (ofCells p.1 p.2) := rfl
  rw [hread, load_checked, load_of_run hparts]
  rfl

end Room

namespace Cells

inductive Listed : List (String × Json) → List (UInt64 × Value) → Prop
  | nil : Listed [] []
  | cons {k : UInt64} {v : Value} {j : Json} {fields : List (String × Json)}
      {l : List (UInt64 × Value)} (hv : Value.ofJson j = .ok v) (h : Listed fields l) :
      Listed ((Text.decimal k.toNat, j) :: fields) ((k, v) :: l)

theorem Listed.mapM {fields : List (String × Json)} (h : Listed fields l) :
    fields.mapM entryOfField = .ok l := by
  induction h with
  | nil => rfl
  | cons hv _ ih =>
      rw [List.mapM_cons, entryOfField_decimal hv, ih]
      rfl

theorem Listed.ofJson {fields : List (String × Json)} (h : Listed fields l) :
    Cells.ofJson (.obj fields) = .ok (ofEntries l) :=
  foldlM_readCell _ h.mapM

end Cells

namespace Room

inductive Lists (n : UInt64) (l : List (UInt64 × Value)) : Json → Prop
  | fields {fields cells : List (String × Json)}
      (hsize : fields.filter (·.1 == "size") = [("size", .word n)])
      (hcells : fields.filter (·.1 == "cells") = [("cells", .obj cells)])
      (hl : Cells.Listed cells l) : Lists n l (.obj fields)
  | items {cells : List (String × Json)} (hl : Cells.Listed cells l) :
      Lists n l (.arr [.word n, .obj cells])

theorem foldlM_readField {fields : List (String × Json)} {a a' : Option UInt64} {b b' : Option Cells}
    (ha : (fields.filter (·.1 == "size")).foldlM (fun a f => Json.once a f.2.word?) a = .ok a')
    (hb : (fields.filter (·.1 == "cells")).foldlM (fun b f => Json.once b (Cells.ofJson f.2)) b =
      .ok b') : fields.foldlM readField (a, b) = .ok (a', b') := by
  induction fields generalizing a b with
  | nil =>
      cases ha
      cases hb
      rfl
  | cons f rest ih =>
      obtain ⟨name, j⟩ := f
      rw [List.foldlM_cons]
      by_cases hs : name = "size"
      · subst hs
        rw [List.filter_cons_of_pos (by simp), List.foldlM_cons] at ha
        rw [List.filter_cons_of_neg (by simp)] at hb
        obtain ⟨x, hx, ha⟩ := Loaded.bind_eq_ok.mp ha
        rw [readField, if_pos rfl, hx]
        exact ih ha hb
      · rw [List.filter_cons_of_neg (by simpa using hs)] at ha
        by_cases hc : name = "cells"
        · subst hc
          rw [List.filter_cons_of_pos (by simp), List.foldlM_cons] at hb
          obtain ⟨x, hx, hb⟩ := Loaded.bind_eq_ok.mp hb
          rw [readField, if_neg hs, if_pos rfl, hx]
          exact ih ha hb
        · rw [List.filter_cons_of_neg (by simpa using hc)] at hb
          rw [readField, if_neg hs, if_neg hc]
          exact ih ha hb

theorem Lists.partsOfJson {j : Json} (h : Lists n l j) :
    Room.partsOfJson j = .ok (n, Cells.ofEntries l) := by
  cases h with
  | @fields fields _ hsize hcells hl =>
      have hfound : fields.foldlM readField (none, none) = .ok (some n, some (.ofEntries l)) := by
        apply foldlM_readField
        · rw [hsize]
          simp [Json.once, Json.word_of_reordered (.refl _)]
        · rw [hcells]
          simp [Json.once, hl.ofJson]
      rw [Room.partsOfJson, hfound]
      rfl
  | items hl =>
      rw [Room.partsOfJson, Json.pair, Json.word_of_reordered (.refl _), hl.ofJson]
      rfl

theorem Lists.ofJson {j : Json} (h : Lists n l j) :
    Room.ofJson j = .ofBuild (ofCells n (.ofEntries l)) := by
  rw [Room.ofJson, h.partsOfJson]
  rfl

end Room

theorem room_loading_ignores_entry_order :
    (∀ n l t, l.length < UInt64.size →
      Room.Furnishes n l (load Room.read (Room.listedBytes n l ++ t))) ∧
    (∀ n l j, Room.Lists n l j → Room.Furnishes n l (Room.ofJson j)) ∧
    ∀ n l l', Room.Reordered l l' ∨ (l.Perm l' ∧ (l.map Prod.fst).Nodup) →
      (∀ t t', l.length < UInt64.size → l'.length < UInt64.size →
        load Room.read (Room.listedBytes n l' ++ t') = load Room.read (Room.listedBytes n l ++ t)) ∧
      ∀ j j', Room.Lists n l j → Room.Lists n l' j' → Room.ofJson j' = Room.ofJson j := by
  refine ⟨?_, ?_, ?_⟩
  · intro n l t hlt
    rw [Room.load_listedBytes hlt]
    exact Room.furnishes_ofEntries n l
  · intro n l j hj
    rw [hj.ofJson]
    exact Room.furnishes_ofEntries n l
  · intro n l l' h
    have heq : Cells.ofEntries l = Cells.ofEntries l' := by
      rcases h with h | ⟨hp, hd⟩
      · exact Cells.ofEntries_of_reordered h
      · exact Cells.ofEntries_of_reordered (.of_perm hp hd)
    refine ⟨fun t t' hlt hlt' => ?_, fun j j' hj hj' => ?_⟩
    · rw [Room.load_listedBytes hlt, Room.load_listedBytes hlt', heq]
    · rw [hj.ofJson, hj'.ofJson, heq]

theorem lowest_stray_tile_reported_from_text_order :
    ∃ fields, Cells.Listed fields [(10, .empty), (2, .number .zero), (9, .empty)] ∧
      Room.ofJson (.obj [("cells", .obj fields), ("size", .int 9)]) =
        .error (.rejected (.strayCell 9 9)) ∧
      load Room.read (Room.listedBytes 9 [(10, .empty), (2, .number .zero), (9, .empty), (9, .empty)]) =
        .error (.rejected (.strayCell 9 9)) := by
  obtain ⟨hbytes, hjson, _⟩ := room_loading_ignores_entry_order
  have hlisted : Cells.Listed
      [("10", .str "Empty"), ("2", .obj [("Number", .int 0)]), ("9", .str "Empty")]
      [(10, .empty), (2, .number .zero), (9, .empty)] :=
    .cons (k := 10) rfl (.cons (k := 2) rfl (.cons (k := 9) rfl .nil))
  have hlowest (keys : List UInt64) : ∀ j ∈ keys, 9 ≤ j → 9 ≤ j := fun _ _ h => h
  refine ⟨_, hlisted, ?_, ?_⟩
  · refine ((hjson 9 _ _ (.fields rfl rfl hlisted)).refuses _).mpr ⟨9, rfl, ?_⟩
    exact ⟨by decide, by decide, hlowest _⟩
  · have hroom := hbytes 9 [(10, .empty), (2, .number .zero), (9, .empty), (9, .empty)] [] (by decide)
    rw [List.append_nil] at hroom
    exact (hroom.refuses _).mpr ⟨9, rfl, by decide, by decide, hlowest _⟩

end OfficeMachine
