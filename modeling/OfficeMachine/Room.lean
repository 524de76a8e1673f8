import OfficeMachine.BuildError

namespace OfficeMachine

structure Cells where
  entries : List (UInt64 × Value)
  ascending : entries.Pairwise fun a b => a.1 < b.1
  deriving DecidableEq, Repr

namespace Cells

@[ext]
theorem ext : ∀ {c d : Cells}, c.entries = d.entries → c = d
  | ⟨_, _⟩, ⟨_, _⟩, rfl => rfl

def empty : Cells := ⟨[], .nil⟩

def insertEntry (k : UInt64) (v : Value) : List (UInt64 × Value) → List (UInt64 × Value)
  | [] => [(k, v)]
  | e :: rest =>
      if k < e.1 then (k, v) :: e :: rest
      else if k = e.1 then (k, v) :: rest
      else e :: insertEntry k v rest

theorem mem_insertEntry {k : UInt64} {v : Value} {e : UInt64 × Value} :
    ∀ {l : List (UInt64 × Value)}, e ∈ insertEntry k v l → e = (k, v) ∨ e ∈ l := by
  intro l
  induction l with
  | nil => simp [insertEntry]
  | cons x rest ih =>
      unfold insertEntry
      split
      · simp
      · split
        · intro h
          rcases List.mem_cons.mp h with h | h
          · exact .inl h
          · exact .inr (List.mem_cons_of_mem _ h)
        · intro h
          rcases List.mem_cons.mp h with h | h
          · exact .inr (by simp [h])
          · rcases ih h with h | h
            · exact .inl h
            · exact .inr (List.mem_cons_of_mem _ h)

theorem insertEntry_ascending (k : UInt64) (v : Value) {l : List (UInt64 × Value)}
    (h : l.Pairwise fun a b => a.1 < b.1) :
    (insertEntry k v l).Pairwise fun a b => a.1 < b.1 := by
  induction l with
  | nil => simp [insertEntry]
  | cons e rest ih =>
      obtain ⟨he, hrest⟩ := List.pairwise_cons.mp h
      unfold insertEntry
      split
      · next hk =>
          refine List.pairwise_cons.mpr ⟨?_, h⟩
          intro x hx
          rcases List.mem_cons.mp hx with rfl | hx
          · exact hk
          · exact UInt64.lt_trans hk (he x hx)
      · next hk =>
          split
          · next heq =>
              refine List.pairwise_cons.mpr ⟨?_, hrest⟩
              intro x hx
              simpa [heq] using he x hx
          · next hne =>
              refine List.pairwise_cons.mpr ⟨?_, ih hrest⟩
              intro x hx
              rcases mem_insertEntry hx with rfl | hx
              · exact UInt64.lt_of_le_of_ne (UInt64.not_lt.mp hk) (Ne.symm hne)
              · exact he x hx

theorem insertEntry_of_forall_lt {k : UInt64} {v : Value} {l : List (UInt64 × Value)}
    (h : ∀ e ∈ l, e.1 < k) : insertEntry k v l = l ++ [(k, v)] := by
  induction l with
  | nil => rfl
  | cons e rest ih =>
      have he : e.1 < k := h e (List.mem_cons_self ..)
      rw [insertEntry, if_neg (UInt64.lt_asymm he), if_neg (UInt64.ne_of_lt he).symm,
        ih fun x hx => h x (List.mem_cons_of_mem _ hx), List.cons_append]

def insert (c : Cells) (k : UInt64) (v : Value) : Cells :=
  ⟨insertEntry k v c.entries, insertEntry_ascending k v c.ascending⟩

def get? (c : Cells) (k : UInt64) : Option Value := c.entries.lookup k

@[simp]
theorem get?_empty (k : UInt64) : empty.get? k = none := rfl

theorem lookup_cons_ite (j i : UInt64) (w : Value) (rest : List (UInt64 × Value)) :
    List.lookup j ((i, w) :: rest) = if j = i then some w else rest.lookup j := by
  by_cases h : j = i
  · simp [h]
  · simp [List.lookup_cons, beq_false_of_ne h, h]

@[simp]
theorem get?_insert (c : Cells) (k : UInt64) (v : Value) (j : UInt64) :
    (c.insert k v).get? j = if j = k then some v else c.get? j := by
  unfold get? insert
  simp only
  induction c.entries with
  | nil => simp [insertEntry, lookup_cons_ite]
  | cons e rest ih =>
      obtain ⟨i, w⟩ := e
      by_cases hk : k < i
      · simp [insertEntry, hk, lookup_cons_ite]
      · by_cases hi : k = i
        · subst hi
          by_cases h : j = k <;> simp [insertEntry, lookup_cons_ite, h]
        · by_cases hj : j = i
          · subst hj
            simp [insertEntry, hk, hi, Ne.symm hi]
          · simp [insertEntry, hk, hi, hj, lookup_cons_ite, ih]

end Cells

structure Room where
  size : UInt64
  cells : Cells
  inside : ∀ e ∈ cells.entries, e.1 < size
  deriving DecidableEq, Repr

namespace Room

@[ext]
theorem ext : ∀ {r s : Room}, r.size = s.size → r.cells = s.cells → r = s
  | ⟨_, _, _⟩, ⟨_, _, _⟩, rfl, rfl => rfl

def ofSize (size : UInt64) : Room := ⟨size, .empty, by simp [Cells.empty]⟩

def place (r : Room) (k : UInt64) (v : Value) : Except BuildError Room :=
  if h : k < r.size then
    .ok {
      size := r.size
      cells := r.cells.insert k v
      inside := by
        intro e he
        rcases Cells.mem_insertEntry he with rfl | he
        · exact h
        · exact r.inside e he }
  else .error (.strayCell k r.size)

theorem place_eq_error {r : Room} {k : UInt64} {v : Value} {e : BuildError} :
    r.place k v = .error e ↔ r.size ≤ k ∧ e = .strayCell k r.size := by
  unfold place
  split
  · next h => simp [UInt64.not_le.mpr h]
  · next h => simp [UInt64.not_lt.mp h, eq_comm]

theorem place_eq_ok {r s : Room} {k : UInt64} {v : Value} :
    r.place k v = .ok s ↔ k < r.size ∧ s.size = r.size ∧ s.cells = r.cells.insert k v := by
  unfold place
  split
  · next h =>
      simp only [Except.ok.injEq, h, true_and]
      constructor
      · rintro rfl
        exact ⟨rfl, rfl⟩
      · rintro ⟨hs, hc⟩
        exact ext hs.symm hc.symm
  · next h => simp [h]

def placeAll (r : Room) (cells : List (UInt64 × Value)) : Except BuildError Room :=
  cells.foldlM (fun r e => r.place e.1 e.2) r

def ofCells (size : UInt64) (cells : Cells) : Except BuildError Room :=
  (ofSize size).placeAll cells.entries

section Placing

variable {r s : Room} {e : UInt64 × Value} {before after l : List (UInt64 × Value)}

theorem placeAll_cons_of_ok (h : r.place e.1 e.2 = .ok s) : r.placeAll (e :: l) = s.placeAll l := by
  rw [placeAll, List.foldlM_cons, h]
  rfl

theorem placeAll_of_inside (h : (r.cells.entries ++ l).Pairwise fun a b => a.1 < b.1)
    (hin : ∀ e ∈ l, e.1 < r.size) :
    ∃ s, r.placeAll l = .ok s ∧ s.size = r.size ∧ s.cells.entries = r.cells.entries ++ l := by
  induction l generalizing r with
  | nil => exact ⟨r, rfl, rfl, (List.append_nil _).symm⟩
  | cons e rest ih =>
      obtain ⟨he, hrest⟩ := List.forall_mem_cons.mp hin
      obtain ⟨s, hs⟩ : ∃ s, r.place e.1 e.2 = .ok s := ⟨_, dif_pos he⟩
      obtain ⟨_, hsize, hcells⟩ := place_eq_ok.mp hs
      have hlast : s.cells.entries = r.cells.entries ++ [e] := by
        rw [hcells]
        refine Cells.insertEntry_of_forall_lt fun x hx => ?_
        exact (List.pairwise_append.mp h).2.2 x hx e (List.mem_cons_self ..)
      rw [List.append_cons, ← hlast] at h ⊢
      obtain ⟨t, ht, htsize, htcells⟩ := ih h (hsize ▸ hrest)
      exact ⟨t, (placeAll_cons_of_ok hs).trans ht, htsize.trans hsize, htcells⟩

theorem placeAll_of_stray (hin : ∀ x ∈ before, x.1 < r.size) (he : r.size ≤ e.1) :
    r.placeAll (before ++ e :: after) = .error (.strayCell e.1 r.size) := by
  induction before generalizing r with
  | nil =>
      have hplace : r.place e.1 e.2 = .error (.strayCell e.1 r.size) :=
        place_eq_error.mpr ⟨he, rfl⟩
      rw [List.nil_append, placeAll, List.foldlM_cons, hplace]
      rfl
  | cons x rest ih =>
      obtain ⟨hx, hrest⟩ := List.forall_mem_cons.mp hin
      obtain ⟨s, hs⟩ : ∃ s, r.place x.1 x.2 = .ok s := ⟨_, dif_pos hx⟩
      have hsize := (place_eq_ok.mp hs).2.1
      rw [List.cons_append, placeAll_cons_of_ok hs, ← hsize]
      exact ih (hsize ▸ hrest) (hsize ▸ he)

end Placing

variable {size : UInt64} {cells : Cells}

theorem ofCells_of_inside (h : ∀ e ∈ cells.entries, e.1 < size) :
    ofCells size cells = .ok ⟨size, cells, h⟩ := by
  have hasc : ((ofSize size).cells.entries ++ cells.entries).Pairwise fun a b => a.1 < b.1 :=
    cells.ascending
  obtain ⟨s, hs, hsize, hcells⟩ := placeAll_of_inside hasc h
  rw [ofCells, hs]
  exact congrArg Except.ok (ext hsize (Cells.ext hcells))

theorem ofCells_of_find? {e : UInt64 × Value}
    (h : cells.entries.find? (fun e => !decide (e.1 < size)) = some e) :
    ofCells size cells = .error (.strayCell e.1 size) := by
  obtain ⟨he, before, after, hcells, hin⟩ := List.find?_eq_some_iff_append.mp h
  have hbefore : ∀ x ∈ before, x.1 < size := fun x hx => by simpa using hin x hx
  have hstray : size ≤ e.1 := by simpa using he
  rw [ofCells, hcells]
  exact placeAll_of_stray hbefore hstray

theorem ofCells_eq_ok {r : Room} :
    ofCells size cells = .ok r ↔ r.size = size ∧ r.cells = cells := by
  constructor
  · intro h
    cases hs : cells.entries.find? fun e => !decide (e.1 < size) with
    | some e =>
        rw [ofCells_of_find? hs] at h
        cases h
    | none =>
        rw [ofCells_of_inside (by simpa using hs)] at h
        cases h
        exact ⟨rfl, rfl⟩
  · rintro ⟨rfl, rfl⟩
    exact ofCells_of_inside r.inside

end Room

end OfficeMachine
