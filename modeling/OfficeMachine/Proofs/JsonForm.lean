import OfficeMachine.Json.Program
import OfficeMachine.Json.Room
import OfficeMachine.Proofs.BinaryForm

namespace OfficeMachine

open Binary

mutual

inductive Json.Reordered : Json → Json → Prop
  | refl (j : Json) : Reordered j j
  | arr {items items' : List Json} : ReorderedItems items items' →
      Reordered (.arr items) (.arr items')
  | obj {fields renewed fields' : List (String × Json)} : ReorderedFields fields renewed →
      renewed.Perm fields' → Reordered (.obj fields) (.obj fields')

inductive Json.ReorderedItems : List Json → List Json → Prop
  | nil : ReorderedItems [] []
  | cons {j j' : Json} {l l' : List Json} : Reordered j j' → ReorderedItems l l' →
      ReorderedItems (j :: l) (j' :: l')

inductive Json.ReorderedFields : List (String × Json) → List (String × Json) → Prop
  | nil : ReorderedFields [] []
  | cons {s : String} {j j' : Json} {l l' : List (String × Json)} : Reordered j j' →
      ReorderedFields l l' → ReorderedFields ((s, j) :: l) ((s, j') :: l')

end

namespace Json

theorem ReorderedItems.refl (l : List Json) : ReorderedItems l l := by
  induction l with
  | nil => exact .nil
  | cons j l ih => exact .cons (.refl j) ih

theorem ReorderedFields.refl (l : List (String × Json)) : ReorderedFields l l := by
  induction l with
  | nil => exact .nil
  | cons f l ih => exact .cons (.refl f.2) ih

theorem Reordered.of_arr {items : List Json} {j : Json} (h : Reordered (.arr items) j) :
    ∃ items', j = .arr items' ∧ ReorderedItems items items' := by
  cases h with
  | refl => exact ⟨items, rfl, .refl items⟩
  | arr hi => exact ⟨_, rfl, hi⟩

theorem Reordered.of_obj {fields : List (String × Json)} {j : Json} (h : Reordered (.obj fields) j) :
    ∃ renewed fields', j = .obj fields' ∧ ReorderedFields fields renewed ∧ renewed.Perm fields' := by
  cases h with
  | refl => exact ⟨fields, fields, rfl, .refl fields, .refl fields⟩
  | obj hf hp => exact ⟨_, _, rfl, hf, hp⟩

theorem Reordered.of_single {s : String} {a j : Json} (h : Reordered (.obj [(s, a)]) j) :
    ∃ a', Reordered a a' ∧ j = .obj [(s, a')] := by
  obtain ⟨renewed, fields', rfl, hf, hp⟩ := h.of_obj
  cases hf with
  | cons ha hnil =>
      cases hnil
      exact ⟨_, ha, by rw [hp.singleton_eq]⟩

theorem perm_pair {α : Type} {x y : α} {l : List α} (h : [x, y].Perm l) : l = [x, y] ∨ l = [y, x] := by
  obtain ⟨l₁, l₂, rfl⟩ := List.append_of_mem (h.subset (List.mem_cons_self ..))
  have hy : [y].Perm (l₁ ++ l₂) := (h.trans List.perm_middle).cons_inv
  rcases List.append_eq_singleton_iff.mp hy.singleton_eq.symm with ⟨rfl, rfl⟩ | ⟨rfl, rfl⟩
  · exact .inl rfl
  · exact .inr rfl

theorem Reordered.of_pair {s t : String} {a b j : Json} (h : Reordered (.obj [(s, a), (t, b)]) j) :
    ∃ a' b', Reordered a a' ∧ Reordered b b' ∧
      (j = .obj [(s, a'), (t, b')] ∨ j = .obj [(t, b'), (s, a')]) := by
  obtain ⟨renewed, fields', rfl, hf, hp⟩ := h.of_obj
  cases hf with
  | cons ha htail =>
      cases htail with
      | cons hb hnil =>
          cases hnil
          refine ⟨_, _, ha, hb, ?_⟩
          rcases perm_pair hp with rfl | rfl
          · exact .inl rfl
          · exact .inr rfl

theorem word?_toNat (n : UInt64) : word? (.int n.toNat) = .ok n := by
  have hn : (0 : Int) ≤ n.toNat ∧ (n.toNat : Int) < UInt64.size :=
    ⟨Int.natCast_nonneg _, Int.ofNat_lt.mpr n.toNat_lt_size⟩
  rw [word?, if_pos hn, Int.toNat_natCast, UInt64.ofNat_toNat]

end Json

open Json (Reordered ReorderedItems ReorderedFields)

theorem Number.ofJson_of_reordered {n : Number} {j : Json} (h : n.toJson.Reordered j) :
    Number.ofJson j = .ok n := by
  cases h
  have hn : -32768 ≤ n.val ∧ n.val < 32768 := by
    have := n.lower
    have := n.upper
    constructor <;> omega
  rw [Number.toJson, Number.ofJson, if_pos hn, Number.ofInt_val, Loaded.ofBuild_ok]

theorem Letter.ofJson_of_reordered {c : Letter} {j : Json} (h : c.toJson.Reordered j) :
    Letter.ofJson j = .ok c := by
  cases h
  simp [Letter.toJson, Letter.ofJson, Letter.ofChar_char]

theorem Value.Kind.ofTag?_tag (k : Kind) : Kind.ofTag? k.tag = some k := by
  cases k <;> decide

theorem Json.word_of_reordered {n : UInt64} {j : Json} (h : (Json.word n).Reordered j) :
    j.word? = .ok n := by
  cases h
  rw [Json.word, Json.word?_toNat]

theorem Value.ofJson_obj (k : Kind) (j : Json) :
    Value.ofJson (.obj [(k.tag, j)]) = ofPayload k (some j) := by
  simp [Value.ofJson, Json.variant?, Kind.ofTag?_tag]

theorem Value.ofJson_of_reordered {v : Value} {j : Json} (h : v.toJson.Reordered j) :
    Value.ofJson j = .ok v := by
  cases v with
  | empty =>
      cases h
      rfl
  | number n =>
      obtain ⟨_, hn, rfl⟩ := h.of_single
      rw [ofJson_obj, ofPayload, Number.ofJson_of_reordered hn, Loaded.map_ok]
  | letter c =>
      obtain ⟨_, hc, rfl⟩ := h.of_single
      rw [ofJson_obj, ofPayload, Letter.ofJson_of_reordered hc, Loaded.map_ok]
  | tileAddress a =>
      obtain ⟨_, ha, rfl⟩ := h.of_single
      rw [ofJson_obj, ofPayload, Json.word_of_reordered ha, Loaded.map_ok]
  | lineAddress a =>
      obtain ⟨_, ha, rfl⟩ := h.of_single
      rw [ofJson_obj, ofPayload, Json.word_of_reordered ha, Loaded.map_ok]

theorem Opcode.ofTag?_tag (o : Opcode) : ofTag? o.tag = some o := by
  rcases o with _ | _ | ⟨op, mode⟩ | ⟨branch⟩
  · decide
  · decide
  · cases op <;> cases mode <;> decide
  · cases branch <;> decide

theorem Opcode.ofJson_of_reordered {o : Opcode} {j : Json} (h : o.toJson.Reordered j) :
    Opcode.ofJson j = .ok o := by
  cases h
  simp [Opcode.toJson, Opcode.ofJson, Json.bare?, Json.variant?, Opcode.ofTag?_tag]

namespace Instruction

theorem parameterOfJson_of_reordered {p : Option Value} {j : Json}
    (h : (parameterToJson p).Reordered j) : parameterOfJson j = .ok p := by
  cases p with
  | none =>
      cases h
      rfl
  | some v =>
      have hv := Value.ofJson_of_reordered h
      -- no value is written as null, which stands for an absent parameter
      have hnull : j ≠ .null := by
        rintro rfl
        cases hv
      unfold parameterOfJson
      split
      · exact absurd rfl hnull
      · rw [hv, Loaded.map_ok]

theorem ofJson_of_reordered {i : Instruction} {j : Json} (h : i.toJson.Reordered j) :
    Instruction.ofJson j = .ok i := by
  obtain ⟨a, b, ha, hb, hj⟩ := h.of_pair
  have ho := Opcode.ofJson_of_reordered ha
  have hp := parameterOfJson_of_reordered hb
  have hparts : partsOfJson j = .ok (i.opcode, i.parameter) := by
    rcases hj with rfl | rfl <;>
      simp [partsOfJson, readField, Json.once, Json.required, ho, hp]
  rw [Instruction.ofJson, hparts, Loaded.ok_bind]
  simp only [build_opcode_parameter, Loaded.ofBuild_ok]

end Instruction

namespace Program

theorem mapM_of_reorderedItems {lines : List Instruction} {items : List Json}
    (h : ReorderedItems (lines.map Instruction.toJson) items) :
    items.mapM Instruction.ofJson = .ok lines := by
  induction lines generalizing items with
  | nil =>
      cases h
      rfl
  | cons i lines ih =>
      cases h with
      | cons hi hl =>
          rw [List.mapM_cons, Instruction.ofJson_of_reordered hi, ih hl]
          rfl

theorem ofJson_of_reordered {p : Program} {j : Json} (h : p.toJson.Reordered j) :
    Program.ofJson j = .ok p := by
  obtain ⟨items, rfl, hi⟩ := h.of_arr
  rw [Program.ofJson, mapM_of_reorderedItems hi, Loaded.ok_bind, assemble_eq_ok.mpr rfl,
    Loaded.ofBuild_ok]

end Program

namespace Cells

def entryOfField (f : String × Json) : Loaded (UInt64 × Value) := do
  let n ← .ofOption (Text.decimal? f.1)
  let k ← Json.word? (.int n)
  let v ← Value.ofJson f.2
  return (k, v)

theorem readCell_eq (c : Cells) (f : String × Json) :
    c.readCell f = entryOfField f >>= fun e => .ok (c.insert e.1 e.2) := by
  simp only [readCell, entryOfField, bind_assoc, Loaded.pure_eq_ok, Loaded.ok_bind]

theorem foldlM_readCell {fields : List (String × Json)} {l : List (UInt64 × Value)} (c : Cells)
    (h : fields.mapM entryOfField = .ok l) :
    fields.foldlM readCell c = .ok (l.foldl (fun c e => c.insert e.1 e.2) c) := by
  induction fields generalizing c l with
  | nil =>
      cases h
      rfl
  | cons f fields ih =>
      rw [List.mapM_cons] at h
      obtain ⟨e, he, h⟩ := Loaded.bind_eq_ok.mp h
      obtain ⟨rest, hrest, h⟩ := Loaded.bind_eq_ok.mp h
      cases h
      rw [List.foldlM_cons, readCell_eq, he, Loaded.ok_bind, Loaded.ok_bind, ih _ hrest,
        List.foldl_cons]

theorem mapM_of_perm {fields fields' : List (String × Json)} (hp : fields.Perm fields') :
    ∀ {l : List (UInt64 × Value)}, fields.mapM entryOfField = .ok l →
      ∃ l', fields'.mapM entryOfField = .ok l' ∧ l'.Perm l := by
  induction hp with
  | nil => exact fun h => ⟨_, h, .refl _⟩
  | cons f _ ih =>
      intro l h
      rw [List.mapM_cons] at h
      obtain ⟨e, he, h⟩ := Loaded.bind_eq_ok.mp h
      obtain ⟨rest, hrest, h⟩ := Loaded.bind_eq_ok.mp h
      cases h
      obtain ⟨rest', hrest', hperm⟩ := ih hrest
      exact ⟨e :: rest', by rw [List.mapM_cons, he, hrest']; rfl, hperm.cons e⟩
  | swap f g fields =>
      intro l h
      simp only [List.mapM_cons, Loaded.bind_eq_ok] at h
      obtain ⟨e, he, _, ⟨d, hd, rest, hrest, h'⟩, h⟩ := h
      cases h'
      cases h
      exact ⟨d :: e :: rest, by simp [hd, he, hrest], .swap e d rest⟩
  | trans _ _ ih₁ ih₂ =>
      intro l h
      obtain ⟨l₁, h₁, hp₁⟩ := ih₁ h
      obtain ⟨l₂, h₂, hp₂⟩ := ih₂ h₁
      exact ⟨l₂, h₂, hp₂.trans hp₁⟩

theorem entryOfField_decimal {k : UInt64} {v : Value} {j : Json} (h : Value.ofJson j = .ok v) :
    entryOfField (Text.decimal k.toNat, j) = .ok (k, v) := by
  rw [entryOfField, Text.decimal?_decimal, Loaded.ofOption_some, Loaded.ok_bind, Json.word?_toNat,
    Loaded.ok_bind, h]
  rfl

theorem mapM_of_reorderedFields {l : List (UInt64 × Value)} {fields : List (String × Json)}
    (h : ReorderedFields (l.map fun e => (Text.decimal e.1.toNat, e.2.toJson)) fields) :
    fields.mapM entryOfField = .ok l := by
  induction l generalizing fields with
  | nil =>
      cases h
      rfl
  | cons e l ih =>
      cases h with
      | cons he hl =>
          rw [List.mapM_cons, entryOfField_decimal (Value.ofJson_of_reordered he), ih hl]
          rfl

theorem ofJson_of_reordered {c : Cells} {j : Json} (h : c.toJson.Reordered j) :
    Cells.ofJson j = .ok c := by
  obtain ⟨renewed, fields, rfl, hf, hp⟩ := h.of_obj
  obtain ⟨l, hl, hperm⟩ := mapM_of_perm hp (mapM_of_reorderedFields hf)
  rw [Cells.ofJson, foldlM_readCell _ hl]
  exact congrArg Except.ok (ofEntries_of_perm hperm)

end Cells

theorem Room.ofJson_of_reordered {r : Room} {j : Json} (h : r.toJson.Reordered j) :
    Room.ofJson j = .ok r := by
  obtain ⟨a, b, ha, hb, hj⟩ := h.of_pair
  have hs := Json.word_of_reordered ha
  have hc := Cells.ofJson_of_reordered hb
  have hparts : partsOfJson j = .ok (r.size, r.cells) := by
    rcases hj with rfl | rfl <;>
      simp [partsOfJson, readField, Json.once, Json.required, hs, hc]
  have hroom : ofCells r.size r.cells = .ok r := ofCells_eq_ok.mpr ⟨rfl, rfl⟩
  rw [Room.ofJson, hparts, Loaded.ok_bind]
  simp only [hroom, Loaded.ofBuild_ok]

section Interchange

variable {α : Type} {toJson : α → Json} {ofJson : Json → Loaded α} {toBytes : α → Bytes}
  {read : Reader α} {x : α}

def Interchanges (toJson : α → Json) (ofJson : Json → Loaded α) (toBytes : α → Bytes)
    (read : Reader α) (x : α) : Prop :=
  (∀ j, (toJson x).Reordered j → ∃ y, ofJson j = .ok y ∧ load read (toBytes y) = .ok x) ∧
    ∃ y, load read (toBytes x) = .ok y ∧ ∀ j, (toJson y).Reordered j → ofJson j = .ok x

theorem interchanges_of_run (hr : read.run (toBytes x ++ []) = .ok (x, []))
    (hj : ∀ j, (toJson x).Reordered j → ofJson j = .ok x) :
    Interchanges toJson ofJson toBytes read x := by
  have hload : load read (toBytes x) = .ok x := by
    rw [List.append_nil] at hr
    rw [load, hr, Loaded.map_ok]
  exact ⟨fun j h => ⟨x, hj j h, hload⟩, x, hload, hj⟩

theorem interchanges_of_exact (hr : Exact read toBytes)
    (hj : ∀ j, (toJson x).Reordered j → ofJson j = .ok x) :
    Interchanges toJson ofJson toBytes read x :=
  interchanges_of_run ((hr _ _ _).mpr rfl) hj

end Interchange

theorem json_round_trip :
    (∀ (x : Number) j, x.toJson.Reordered j → Number.ofJson j = .ok x) ∧
    (∀ (x : Letter) j, x.toJson.Reordered j → Letter.ofJson j = .ok x) ∧
    (∀ (x : Value) j, x.toJson.Reordered j → Value.ofJson j = .ok x) ∧
    (∀ (x : Opcode) j, x.toJson.Reordered j → Opcode.ofJson j = .ok x) ∧
    (∀ (x : Instruction) j, x.toJson.Reordered j → Instruction.ofJson j = .ok x) ∧
    (∀ (x : Program) j, x.toJson.Reordered j → Program.ofJson j = .ok x) ∧
    (∀ (x : Room) j, x.toJson.Reordered j → Room.ofJson j = .ok x) ∧
    (∀ x, Interchanges Number.toJson Number.ofJson Number.toBytes Number.read x) ∧
    (∀ x, Interchanges Letter.toJson Letter.ofJson Letter.toBytes Letter.read x) ∧
    (∀ x, Interchanges Value.toJson Value.ofJson Value.toBytes Value.read x) ∧
    (∀ x, Interchanges Opcode.toJson Opcode.ofJson Opcode.toBytes Opcode.read x) ∧
    (∀ x, Interchanges Instruction.toJson Instruction.ofJson Instruction.toBytes
      Instruction.read x) ∧
    (∀ x, x.length < UInt64.size →
      Interchanges Program.toJson Program.ofJson Program.toBytes Program.read x) ∧
    (∀ x, Interchanges Room.toJson Room.ofJson Room.toBytes Room.read x) := by
  refine ⟨?_, ?_, ?_, ?_, ?_, ?_, ?_, ?_, ?_, ?_, ?_, ?_, ?_, ?_⟩
  · exact fun _ _ => Number.ofJson_of_reordered
  · exact fun _ _ => Letter.ofJson_of_reordered
  · exact fun _ _ => Value.ofJson_of_reordered
  · exact fun _ _ => Opcode.ofJson_of_reordered
  · exact fun _ _ => Instruction.ofJson_of_reordered
  · exact fun _ _ => Program.ofJson_of_reordered
  · exact fun _ _ => Room.ofJson_of_reordered
  · exact fun _ => interchanges_of_exact Number.exact_read fun _ => Number.ofJson_of_reordered
  · exact fun _ => interchanges_of_exact Letter.exact_read fun _ => Letter.ofJson_of_reordered
  · exact fun _ => interchanges_of_exact Value.exact_read fun _ => Value.ofJson_of_reordered
  · exact fun _ => interchanges_of_exact Opcode.exact_read fun _ => Opcode.ofJson_of_reordered
  · exact fun _ => interchanges_of_exact Instruction.exact_read fun _ =>
      Instruction.ofJson_of_reordered
  · exact fun x hlt => interchanges_of_run (Program.read_eq_ok.mpr ⟨hlt, rfl⟩) fun _ =>
      Program.ofJson_of_reordered
  · exact fun x => interchanges_of_run (x.read_toBytes []) fun _ => Room.ofJson_of_reordered

theorem cells_in_text_order_read_back :
    ∃ r : Room, r.cells.entries = [(2, .empty), (10, .number .zero)] ∧
      Room.ofJson (.obj [("cells", .obj [("10", .obj [("Number", .int 0)]), ("2", .str "Empty")]),
        ("size", .int 11)]) = .ok r ∧
      Puzzle.countdown.program.length < UInt64.size ∧
      Interchanges Program.toJson Program.ofJson Program.toBytes Program.read
        Puzzle.countdown.program := by
  obtain ⟨_, _, _, _, _, _, hroom, _, _, _, _, _, hprogram, _⟩ := json_round_trip
  have hlt : Puzzle.countdown.program.length < UInt64.size := by decide
  refine ⟨⟨11, ⟨[(2, .empty), (10, .number .zero)], by decide⟩, by decide⟩, rfl, ?_, hlt,
    hprogram _ hlt⟩
  apply hroom
  have hcells : Reordered (.obj [("2", .str "Empty"), ("10", .obj [("Number", .int 0)])])
      (.obj [("10", .obj [("Number", .int 0)]), ("2", .str "Empty")]) :=
    .obj (.refl _) (.swap ..)
  exact .obj (.cons (.refl _) (.cons hcells .nil)) (.swap ..)

end OfficeMachine
