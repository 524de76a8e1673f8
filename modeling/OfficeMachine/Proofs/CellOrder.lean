import OfficeMachine.Binary.Room

namespace OfficeMachine.Cells

abbrev Ascending (l : List (UInt64 × Value)) : Prop := l.Pairwise fun a b => a.1 < b.1

variable {c d : Cells} {k : UInt64} {v : Value} {l : List (UInt64 × Value)}

theorem lookup_eq_some (h : Ascending l) : l.lookup k = some v ↔ (k, v) ∈ l := by
  induction l with
  | nil => simp
  | cons e rest ih =>
      obtain ⟨i, w⟩ := e
      obtain ⟨hi, hrest⟩ := List.pairwise_cons.mp h
      rw [lookup_cons_ite, List.mem_cons, Prod.mk.injEq]
      by_cases hk : k = i
      · subst hk
        have hnot : (k, v) ∉ rest := fun hv => UInt64.lt_irrefl k (hi _ hv)
        simp [hnot, eq_comm]
      · simp [hk, ih hrest]

theorem eq_of_mem (h : Ascending l) {a b : UInt64 × Value} (ha : a ∈ l) (hb : b ∈ l)
    (hk : a.1 = b.1) : a = b := by
  have hla := (lookup_eq_some h).mpr ha
  have hlb := (lookup_eq_some h).mpr hb
  rw [hk, hlb] at hla
  exact Prod.ext hk (Option.some.inj hla).symm

theorem nodup_of_ascending (h : Ascending l) : l.Nodup :=
  h.imp fun hlt heq => UInt64.ne_of_lt hlt (congrArg Prod.fst heq)

theorem ext_get? (h : ∀ k, c.get? k = d.get? k) : c = d := by
  have hmem : ∀ e, e ∈ c.entries ↔ e ∈ d.entries := fun e => by
    rw [← lookup_eq_some c.ascending, ← lookup_eq_some d.ascending]
    exact iff_of_eq (congrArg (· = _) (h e.1))
  have hperm : c.entries.Perm d.entries :=
    (List.perm_ext_iff_of_nodup (nodup_of_ascending c.ascending)
      (nodup_of_ascending d.ascending)).mpr hmem
  exact ext (hperm.eq_of_pairwise (fun a b _ _ hab hba => absurd hba (UInt64.lt_asymm hab))
    c.ascending d.ascending)

theorem insert_comm {a b : UInt64 × Value} (h : a.1 = b.1 → a = b) (c : Cells) :
    (c.insert a.1 a.2).insert b.1 b.2 = (c.insert b.1 b.2).insert a.1 a.2 := by
  by_cases hab : a.1 = b.1
  · rw [h hab]
  · refine ext_get? fun k => ?_
    simp only [get?_insert]
    by_cases hk : k = b.1
    · rw [if_pos hk, if_neg fun hka => hab (hka.symm.trans hk), if_pos hk]
    · rw [if_neg hk, if_neg hk]

theorem entries_foldl_insert (h : Ascending (c.entries ++ l)) :
    (l.foldl (fun c e => c.insert e.1 e.2) c).entries = c.entries ++ l := by
  induction l generalizing c with
  | nil => exact (List.append_nil _).symm
  | cons e rest ih =>
      have hlt : ∀ x ∈ c.entries, x.1 < e.1 := fun x hx =>
        (List.pairwise_append.mp h).2.2 x hx e (List.mem_cons_self ..)
      have hi : (c.insert e.1 e.2).entries = c.entries ++ [e] := insertEntry_of_forall_lt hlt
      rw [List.append_cons] at h ⊢
      rw [List.foldl_cons, ih (hi ▸ h), hi]

theorem entries_ofEntries (h : Ascending l) : (ofEntries l).entries = l :=
  entries_foldl_insert h

theorem ofEntries_of_perm (h : l.Perm c.entries) : ofEntries l = c := by
  have hfold : ofEntries l = ofEntries c.entries := by
    refine h.foldl_eq' (fun a ha b hb d => insert_comm ?_ d) empty
    exact eq_of_mem c.ascending (h.mem_iff.mp ha) (h.mem_iff.mp hb)
  rw [hfold]
  exact ext (entries_ofEntries c.ascending)

theorem length_le_of_keys {m n : Nat} (h : Ascending l)
    (hk : ∀ e ∈ l, m ≤ e.1.toNat ∧ e.1.toNat < n) : l.length ≤ n - m := by
  induction l generalizing m with
  | nil => exact Nat.zero_le _
  | cons e rest ih =>
      obtain ⟨he, hrest⟩ := List.pairwise_cons.mp h
      have hhead := hk e (List.mem_cons_self ..)
      have htail : rest.length ≤ n - (e.1.toNat + 1) := by
        refine ih hrest fun x hx => ⟨?_, (hk x (List.mem_cons_of_mem _ hx)).2⟩
        exact UInt64.lt_iff_toNat_lt.mp (he x hx)
      rw [List.length_cons]
      omega

end OfficeMachine.Cells

namespace OfficeMachine

theorem Room.length_entries_lt (r : Room) : r.cells.entries.length < UInt64.size := by
  have hle : r.cells.entries.length ≤ r.size.toNat - 0 :=
    Cells.length_le_of_keys r.cells.ascending fun e he =>
      ⟨Nat.zero_le _, UInt64.lt_iff_toNat_lt.mp (r.inside e he)⟩
  exact Nat.lt_of_le_of_lt hle r.size.toNat_lt

end OfficeMachine
