import OfficeMachine.Floor
import OfficeMachine.Proofs.CellOrder

namespace OfficeMachine

namespace Room

abbrev Call := UInt64 × Value

variable {k : UInt64} {v : Value} {calls calls' : List Call}

def attempt (r : Room) (call : Call) : Room :=
  match r.place call.1 call.2 with
  | .ok s => s
  | .error _ => r

def furnish (n : UInt64) (calls : List Call) : Room := calls.foldl attempt (ofSize n)

theorem size_attempt (r : Room) (call : Call) : (r.attempt call).size = r.size := by
  unfold attempt
  split
  · next h => exact (place_eq_ok.mp h).2.1
  · rfl

theorem get?_attempt (r : Room) (call : Call) (k : UInt64) :
    (r.attempt call).cells.get? k =
      if call.1 = k ∧ k < r.size then some call.2 else r.cells.get? k := by
  unfold attempt
  split
  · next h =>
      obtain ⟨hlt, _, hc⟩ := place_eq_ok.mp h
      rw [hc, Cells.get?_insert]
      by_cases hk : k = call.1
      · rw [if_pos hk, if_pos ⟨hk.symm, hk ▸ hlt⟩]
      · rw [if_neg hk, if_neg fun hc => hk hc.1.symm]
  · next h =>
      have hle := (place_eq_error.mp h).1
      rw [if_neg]
      rintro ⟨rfl, hlt⟩
      exact UInt64.not_le.mpr hlt hle

def lastFor? (k : UInt64) (calls : List Call) : Option Value :=
  (calls.filter (·.1 == k)).getLast?.map Prod.snd

theorem lastFor?_nil (k : UInt64) : lastFor? k [] = none := rfl

theorem lastFor?_cons (k : UInt64) (call : Call) (rest : List Call) :
    lastFor? k (call :: rest) =
      (lastFor? k rest).or (if call.1 = k then some call.2 else none) := by
  unfold lastFor?
  by_cases hk : call.1 = k
  · rw [List.filter_cons_of_pos (by simpa using hk), List.getLast?_cons, if_pos hk]
    cases (rest.filter (·.1 == k)).getLast? <;> rfl
  · rw [List.filter_cons_of_neg (by simpa using hk), if_neg hk, Option.or_none]

theorem get?_foldl_attempt (r : Room) (calls : List Call) (k : UInt64) :
    (calls.foldl attempt r).cells.get? k =
      if k < r.size then (lastFor? k calls).or (r.cells.get? k) else r.cells.get? k := by
  induction calls generalizing r with
  | nil => simp [lastFor?_nil]
  | cons call rest ih =>
      rw [List.foldl_cons, ih, size_attempt, get?_attempt, lastFor?_cons]
      by_cases hin : k < r.size
      · simp only [hin, and_true, if_true, Option.or_assoc]
        by_cases hk : call.1 = k <;> simp [hk]
      · simp [hin]

theorem size_foldl_attempt (r : Room) (calls : List Call) :
    (calls.foldl attempt r).size = r.size := by
  induction calls generalizing r with
  | nil => rfl
  | cons call rest ih => rw [List.foldl_cons, ih, size_attempt]

theorem size_furnish (n : UInt64) (calls : List Call) : (furnish n calls).size = n :=
  size_foldl_attempt ..

theorem get?_furnish (n : UInt64) (calls : List Call) (k : UInt64) :
    (furnish n calls).cells.get? k = if k < n then lastFor? k calls else none := by
  rw [furnish, get?_foldl_attempt]
  simp [ofSize]

theorem lastFor?_eq_none (h : ∀ call ∈ calls, call.1 ≠ k) : lastFor? k calls = none := by
  induction calls with
  | nil => rfl
  | cons call rest ih =>
      obtain ⟨hcall, hrest⟩ := List.forall_mem_cons.mp h
      rw [lastFor?_cons, ih hrest, if_neg hcall, Option.or_none]

theorem lastFor?_append_cons (before : List Call) {after : List Call}
    (h : ∀ call ∈ after, call.1 ≠ k) : lastFor? k (before ++ (k, v) :: after) = some v := by
  induction before with
  | nil => rw [List.nil_append, lastFor?_cons, lastFor?_eq_none h, if_pos rfl, Option.none_or]
  | cons call rest ih => rw [List.cons_append, lastFor?_cons, ih, Option.some_or]

def Reordered (calls calls' : List Call) : Prop :=
  ∀ k, calls.filter (·.1 == k) = calls'.filter (·.1 == k)

theorem furnish_of_reordered (h : Reordered calls calls') (n : UInt64) :
    furnish n calls = furnish n calls' := by
  refine ext ?_ (Cells.ext_get? fun k => ?_)
  · rw [size_furnish, size_furnish]
  · rw [get?_furnish, get?_furnish, lastFor?, lastFor?, h]

theorem Reordered.of_perm (hp : calls.Perm calls') (hd : (calls.map Prod.fst).Nodup) :
    Reordered calls calls' := by
  intro k
  have hperm := hp.filter (·.1 == k)
  have hkey : ∀ call ∈ calls.filter (·.1 == k), call.1 = k := fun call hc => by
    simpa using (List.mem_filter.mp hc).2
  have hdist : ((calls.filter (·.1 == k)).map Prod.fst).Nodup :=
    (List.filter_sublist.map Prod.fst).nodup hd
  match hl : calls.filter (·.1 == k) with
  | [] =>
      rw [hl] at hperm
      exact hl.trans hperm.nil_eq
  | [a] =>
      rw [hl] at hperm
      exact hl.trans (List.singleton_perm.mp hperm)
  | a :: b :: rest =>
      rw [hl] at hkey hdist
      have ha := hkey a (by simp)
      have hb := hkey b (by simp)
      simp [ha, hb] at hdist

end Room

namespace Floor

variable {f : Floor} {r : Room} {cells : List (UInt64 × Value)}

theorem layAll_cons (f : Floor) (e : UInt64 × Value) (rest : List (UInt64 × Value)) :
    f.layAll (e :: rest) = (f.put e.1.toNat e.2).layAll rest := rfl

theorem size_layAll (f : Floor) (cells : List (UInt64 × Value)) : (f.layAll cells).size = f.size := by
  induction cells generalizing f with
  | nil => rfl
  | cons e rest ih => rw [layAll_cons, ih, size_put]

theorem tile_layAll (h : Cells.Ascending cells) (hin : ∀ e ∈ cells, e.1.toNat < f.size)
    (k : UInt64) : (f.layAll cells).tile k.toNat = (cells.lookup k).getD (f.tile k.toNat) := by
  induction cells generalizing f with
  | nil => rfl
  | cons e rest ih =>
      obtain ⟨i, w⟩ := e
      obtain ⟨hi, hrest⟩ := List.pairwise_cons.mp h
      obtain ⟨hsize, hin⟩ := List.forall_mem_cons.mp hin
      rw [layAll_cons, ih hrest (by simpa using hin), tile_put, Cells.lookup_cons_ite]
      by_cases hk : k = i
      · subst hk
        -- the keys ascend, so nothing is laid on this tile again
        have hnone : rest.lookup k = none := by
          refine Option.eq_none_iff_forall_ne_some.mpr fun v hv => ?_
          exact UInt64.lt_irrefl k (hi _ ((Cells.lookup_eq_some hrest).mp hv))
        rw [hnone, if_pos ⟨rfl, hsize⟩, if_pos rfl]
        rfl
      · have hne : ¬(i.toNat = k.toNat ∧ i.toNat < f.size) := fun hc =>
          hk (UInt64.toNat_inj.mp hc.1).symm
        rw [if_neg hne, if_neg hk]

theorem eq_ofRoom (h : ofRoom? r = some f) : ∃ hfits, f = ofRoom r hfits := by
  by_cases hfits : r.size.toNat ≤ capacity
  · rw [ofRoom?_of_le hfits] at h
    exact ⟨hfits, (Option.some.inj h).symm⟩
  · rw [ofRoom?_of_lt (Nat.not_le.mp hfits)] at h
    cases h

theorem size_ofRoom (h : r.size.toNat ≤ capacity) : (ofRoom r h).size = r.size.toNat := by
  rw [ofRoom, size_layAll, size_ofSize]

theorem tile_ofRoom (h : r.size.toNat ≤ capacity) (k : UInt64) :
    (ofRoom r h).tile k.toNat = (r.cells.get? k).getD .empty := by
  rw [ofRoom, tile_layAll r.cells.ascending, tile_ofSize, Cells.get?]
  intro e he
  rw [size_ofSize]
  exact UInt64.lt_iff_toNat_lt.mp (r.inside e he)

theorem tile_ofRoom_of_mem (h : r.size.toNat ≤ capacity) {e : UInt64 × Value}
    (he : e ∈ r.cells.entries) : (ofRoom r h).tile e.1.toNat = e.2 := by
  have hget : r.cells.get? e.1 = some e.2 := (Cells.lookup_eq_some r.cells.ascending).mpr he
  rw [tile_ofRoom, hget, Option.getD_some]

end Floor

namespace Room

theorem last_call_lies_on_tile :
    (∀ (n : UInt64) (calls : List Call),
      (∀ k v e, (furnish n calls).place k v = .error e ↔ n ≤ k ∧ e = .strayCell k n) ∧
      (furnish n calls).cells.entries.Pairwise (fun a b => a.1 < b.1) ∧
      (∀ e ∈ (furnish n calls).cells.entries, e.1 < n) ∧
      (n.toNat ≤ Floor.capacity → ∃ floor, Floor.ofRoom? (furnish n calls) = some floor ∧
        floor.size = n.toNat ∧
        (∀ before k v after, calls = before ++ (k, v) :: after → k < n →
          (∀ call ∈ after, call.1 ≠ k) → floor.tile k.toNat = v) ∧
        ∀ k, (∀ call ∈ calls, call.1 ≠ k) → floor.tile k.toNat = .empty) ∧
      (Floor.capacity < n.toNat → Floor.ofRoom? (furnish n calls) = none) ∧
      ∀ calls', Reordered calls calls' ∨ (calls.Perm calls' ∧ (calls.map Prod.fst).Nodup) →
        furnish n calls' = furnish n calls ∧
          Floor.ofRoom? (furnish n calls') = Floor.ofRoom? (furnish n calls)) ∧
    ∀ (r : Room) floor, Floor.ofRoom? r = some floor →
      ∃ bare, Floor.ofSize? r.size.toNat = some bare ∧
        ∀ before e after, r.cells.entries = before ++ e :: after →
          e.1.toNat < (bare.layAll before).size ∧ floor.tile e.1.toNat = e.2 := by
  refine ⟨fun n calls => ⟨?_, (furnish n calls).cells.ascending, ?_, ?_, ?_, ?_⟩, ?_⟩
  · intro k v e
    rw [place_eq_error, size_furnish]
  · intro e he
    simpa only [size_furnish] using (furnish n calls).inside e he
  · intro hn
    have hfits : (furnish n calls).size.toNat ≤ Floor.capacity := by rwa [size_furnish]
    refine ⟨_, Floor.ofRoom?_of_le hfits, ?_, ?_, ?_⟩
    · rw [Floor.size_ofRoom, size_furnish]
    · rintro before k v after rfl hk hafter
      rw [Floor.tile_ofRoom, get?_furnish, if_pos hk, lastFor?_append_cons before hafter,
        Option.getD_some]
    · intro k hk
      rw [Floor.tile_ofRoom, get?_furnish, lastFor?_eq_none hk, ite_self, Option.getD_none]
  · intro hn
    exact Floor.ofRoom?_of_lt (by rwa [size_furnish])
  · intro calls' h
    have heq : furnish n calls = furnish n calls' := by
      rcases h with h | ⟨hp, hd⟩
      · exact furnish_of_reordered h n
      · exact furnish_of_reordered (.of_perm hp hd) n
    exact ⟨heq.symm, congrArg Floor.ofRoom? heq.symm⟩
  · intro r floor hfloor
    obtain ⟨hfits, rfl⟩ := Floor.eq_ofRoom hfloor
    refine ⟨_, Floor.ofSize?_of_le hfits, fun before e after he => ?_⟩
    have hmem : e ∈ r.cells.entries := by
      rw [he]
      exact List.mem_append_right _ (List.mem_cons_self ..)
    rw [Floor.size_layAll, Floor.size_ofSize]
    exact ⟨UInt64.lt_iff_toNat_lt.mp (r.inside e hmem), Floor.tile_ofRoom_of_mem hfits hmem⟩

theorem second_call_for_tile_wins :
    ∃ calls : List Call, calls = [(9, .number .zero), (10, .number .zero), (3, .number .least),
        (9, .number .greatest)] ∧
      (furnish 10 calls).place 10 .empty = .error (.strayCell 10 10) ∧
      (∃ floor, Floor.ofRoom? (furnish 10 calls) = some floor ∧ floor.size = 10 ∧
        floor.tile 9 = .number .greatest ∧ floor.tile 4 = .empty) ∧
      furnish 10 [(10, .number .zero), (9, .number .zero), (3, .number .least),
        (9, .number .greatest)] = furnish 10 calls := by
  obtain ⟨hrefused, _, _, hlaid, _, hsame⟩ := last_call_lies_on_tile.1 10
    [(9, .number .zero), (10, .number .zero), (3, .number .least), (9, .number .greatest)]
  obtain ⟨floor, hfloor, hsize, hlast, hnone⟩ := hlaid (by decide)
  refine ⟨_, rfl, ?_, ⟨floor, hfloor, hsize, ?_, ?_⟩, ?_⟩
  · exact (hrefused 10 .empty _).mpr ⟨by decide, rfl⟩
  · exact hlast [(9, .number .zero), (10, .number .zero), (3, .number .least)] 9 _ [] rfl (by decide)
      (List.forall_mem_nil _)
  · exact hnone 4 (by decide)
  · refine (hsame _ (.inl fun k => ?_)).1
    by_cases hk : k = 9
    · rw [hk]
      rfl
    · simp [List.filter_cons, Ne.symm hk]

theorem largest_room_has_no_floor :
    ¬∃ floor, Floor.ofRoom? (furnish 18446744073709551615 []) = some floor ∧
      floor.size = 18446744073709551615 := by
  have hnone : Floor.ofRoom? (furnish 18446744073709551615 []) = none :=
    Floor.ofRoom?_of_lt (by decide)
  rintro ⟨floor, hfloor, _⟩
  rw [hnone] at hfloor
  cases hfloor

end Room

end OfficeMachine
