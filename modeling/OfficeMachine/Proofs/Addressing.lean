import OfficeMachine.Proofs.Outcome

namespace OfficeMachine

def Value.exactPlace? : Value → Option Int
  | .number n => some n.val
  | .tileAddress a => some a.toNat
  | _ => none

namespace Floor

variable {f g : Floor} {v : Value} {kind range e : Fault} {i : Nat}

theorem place?_eq_none :
    place? v = none ↔ v.kind = .empty ∨ v.kind = .letter ∨ v.kind = .lineAddress := by
  cases v <;> simp [place?, Value.kind]

theorem find_of_size_eq (h : f.size = g.size) : f.find kind range v = g.find kind range v := by
  rw [find, find, h]

theorem find_eq_kind (hne : kind ≠ range) :
    f.find kind range v = .error kind ↔ place? v = none := by
  refine ⟨?_, find_of_none⟩
  intro h
  rcases find_eq_error h with hr | ⟨_, hv⟩
  · exact absurd hr hne
  · exact hv

theorem find_eq_range (hne : kind ≠ range) :
    f.find kind range v = .error range ↔ ∃ n, v.Names n ∧ ¬(0 ≤ n ∧ n < f.size) := by
  constructor
  · intro h
    rcases names_or v with ⟨n, hn⟩ | hv
    · rw [find_of_names hn] at h
      split at h
      · cases h
      · next hout => exact ⟨n, hn, hout⟩
    · rw [find_of_none hv] at h
      exact absurd (Except.error.inj h) hne
  · rintro ⟨n, hn, hout⟩
    rw [find_of_names hn, if_neg hout]

def findExact (f : Floor) (kind range : Fault) (v : Value) : Except Fault Nat :=
  match v.exactPlace? with
  | none => .error kind
  | some n => if 0 ≤ n ∧ n < f.size then .ok n.toNat else .error range

theorem find_eq_findExact (f : Floor) (kind range : Fault) (v : Value) :
    f.find kind range v = f.findExact kind range v := by
  cases v with
  | tileAddress a => exact find_of_names (.tileAddress a)
  | _ => rfl

theorem direct_error (h : f.direct v = .error e) : e = .addressKind ∨ e = .addressRange := by
  rcases find_eq_error h with hr | ⟨hk, _⟩
  · exact .inr hr
  · exact .inl hk

theorem indirect_outer (he : e = .pointerKind ∨ e = .pointerRange) :
    f.indirect v = .error e ↔ f.find .pointerKind .pointerRange v = .error e := by
  rw [indirect_eq_error]
  refine ⟨?_, .inl⟩
  rintro (h | ⟨pointer, _, h⟩)
  · exact h
  · rcases direct_error h with rfl | rfl <;> rcases he with he | he <;> cases he

theorem indirect_of_direct (h : f.direct v = .ok i) : f.indirect v = f.direct (f.tile i) := by
  have hp : f.find .pointerKind .pointerRange v = .ok i := find_eq_ok.mpr (find_eq_ok.mp h)
  rw [indirect, hp]
  rfl

theorem finding_tiles_is_exact (f : Floor) (v : Value) :
    (∀ i, f.direct v = .ok i ↔ v.Names i ∧ i < f.size) ∧
    (f.direct v = .error .addressKind ↔
      v.kind = .empty ∨ v.kind = .letter ∨ v.kind = .lineAddress) ∧
    (f.direct v = .error .addressRange ↔ ∃ n, v.Names n ∧ ¬(0 ≤ n ∧ n < f.size)) ∧
    (∀ e, f.direct v = .error e → e = .addressKind ∨ e = .addressRange) ∧
    (∀ kind range, f.find kind range v = f.findExact kind range v) ∧
    (f.indirect v = .error .pointerKind ↔ f.direct v = .error .addressKind) ∧
    (f.indirect v = .error .pointerRange ↔ f.direct v = .error .addressRange) ∧
    (∀ g : Floor, g.size = f.size → ∀ e, e = .pointerKind ∨ e = .pointerRange →
      (g.indirect v = .error e ↔ f.indirect v = .error e)) ∧
    (∀ i, f.direct v = .ok i → ∃ w, f.tiles[i]? = some w ∧ f.indirect v = f.direct w) ∧
    ∀ mode i, f.locate mode v = .ok i → i < f.size := by
  have hkind : f.direct v = .error .addressKind ↔ place? v = none := find_eq_kind (by decide)
  have hrange : f.direct v = .error .addressRange ↔ ∃ n, v.Names n ∧ ¬(0 ≤ n ∧ n < f.size) :=
    find_eq_range (by decide)
  refine ⟨fun i => find_eq_ok, hkind.trans place?_eq_none, hrange, fun e => direct_error,
    fun kind range => f.find_eq_findExact kind range v, ?_, ?_, ?_, ?_, fun mode i => locate_lt⟩
  · rw [indirect_outer (.inl rfl), find_eq_kind (by decide), hkind]
  · rw [indirect_outer (.inr rfl), find_eq_range (by decide), hrange]
  · intro g hg e he
    rw [indirect_outer he, indirect_outer he, find_of_size_eq hg]
  · intro i hi
    exact ⟨f.tile i, f.getElem?_tiles (find_lt hi), indirect_of_direct hi⟩

theorem highest_address_on_one_tile :
    ∃ f : Floor, f = ⟨#[.tileAddress 18446744073709551615], by decide⟩ ∧
      f.indirect (.tileAddress 18446744073709551615) = .error .pointerRange ∧
      f.indirect (.tileAddress 0) = .error .addressRange := by
  have hexact := finding_tiles_is_exact ⟨#[.tileAddress 18446744073709551615], by decide⟩
  obtain ⟨_, _, hrange, _, _, _, hpointer, _⟩ := hexact (.tileAddress 18446744073709551615)
  obtain ⟨hok, _, _, _, _, _, _, _, hfollow, _⟩ := hexact (.tileAddress 0)
  have hfar := hrange.mpr ⟨_, .tileAddress _, by decide⟩
  obtain ⟨w, hw, hi⟩ := hfollow 0 ((hok 0).mpr ⟨.tileAddress 0, by decide⟩)
  obtain rfl := Option.some.inj hw
  exact ⟨_, rfl, hpointer.mpr hfar, hi.trans hfar⟩

variable {a b : UInt64}

theorem locate_indirect (ha : a.toNat < f.size) :
    f.locate .indirect (.tileAddress a) = f.direct (f.tile a.toNat) :=
  indirect_of_direct (find_eq_ok.mpr ⟨.tileAddress a, ha⟩)

theorem locate_indirect_of_le (ha : f.size ≤ a.toNat) :
    f.locate .indirect (.tileAddress a) = .error .pointerRange := by
  refine (indirect_outer (.inr rfl)).mpr ((find_eq_range (by decide)).mpr ?_)
  exact ⟨a.toNat, .tileAddress a, by omega⟩

theorem locate_indirect_eq_direct (ha : a.toNat < f.size)
    (hb : (f.tile a.toNat).Names b.toNat) :
    f.locate .indirect (.tileAddress a) = f.locate .direct (.tileAddress b) := by
  rw [locate_indirect ha, locate, direct, direct, find_of_names hb, find_of_names (.tileAddress b)]

end Floor

def TileOp.handsFault? : TileOp → Value → Option Fault
  | .copyTo, .empty => some .emptyHands
  | .copyTo, _ => none
  | .add, .number _ => none
  | .add, _ => some .addendInHands
  | .sub, .number _ => none
  | .sub, _ => some .subtrahendInHands
  | _, _ => none

theorem TileOp.handsFault?_of_combination {op : TileOp} {c : Combination}
    (hop : op.combination? = some c) :
    (∀ x, op.handsFault? (.number x) = none) ∧
      ∀ v, (∀ x, v ≠ .number x) → op.handsFault? v = some c.inHands := by
  cases op with
  | add | sub =>
      obtain rfl := Option.some.inj hop
      refine ⟨fun x => rfl, fun v hv => ?_⟩
      cases v with
      | number x => exact absurd rfl (hv x)
      | _ => rfl
  | _ => cases hop

theorem Number.exists_address {n : Number} (h : 0 ≤ n.val) : ∃ b : UInt64, b.toNat = n.val := by
  have hlt : n.val.toNat < UInt64.size := by
    have hu := n.upper
    rw [UInt64.size]
    omega
  refine ⟨UInt64.ofNat n.val.toNat, ?_⟩
  rw [UInt64.toNat_ofNat_of_lt' hlt, Int.toNat_of_nonneg h]

namespace Office

variable {ι : Type} {o p : Office ι} {op : TileOp} {mode mode' : Mode} {a b : UInt64} {f : Fault}

theorem Completes.readdress [Inbox ι] (h : o.Completes (.tile op mode a) p)
    (hl : o.floor.locate mode' (.tileAddress b) = o.floor.locate mode (.tileAddress a)) :
    o.Completes (.tile op mode' b) p := by
  cases h with
  | copyFrom hj hv => exact .copyFrom (hl.trans hj) hv
  | copyTo hh hj => exact .copyTo hh (hl.trans hj)
  | combine hop hx hj hy hn => exact .combine hop hx (hl.trans hj) hy hn
  | bump hop hj hx hn => exact .bump hop (hl.trans hj) hx hn

theorem Faults.readdress (h : o.Faults (.tile op mode a) f)
    (hl : o.floor.locate mode' (.tileAddress b) = o.floor.locate mode (.tileAddress a)) :
    o.Faults (.tile op mode' b) f := by
  cases h with
  | copyFromAddress hj => exact .copyFromAddress (hl.trans hj)
  | copyFromTile hj hv => exact .copyFromTile (hl.trans hj) hv
  | copyToHands hh => exact .copyToHands hh
  | copyToAddress hh hj => exact .copyToAddress hh (hl.trans hj)
  | combineHands hop hx => exact .combineHands hop hx
  | combineAddress hop hx hj => exact .combineAddress hop hx (hl.trans hj)
  | combineTile hop hx hj hy => exact .combineTile hop hx (hl.trans hj) hy
  | combineRange hop hx hj hy hn => exact .combineRange hop hx (hl.trans hj) hy hn
  | bumpAddress hop hj => exact .bumpAddress hop (hl.trans hj)
  | bumpTile hop hj hx => exact .bumpTile hop (hl.trans hj) hx
  | bumpRange hop hj hx hn => exact .bumpRange hop (hl.trans hj) hx hn

theorem execute_readdress [Inbox ι] (o : Office ι) (op : TileOp)
    (hl : o.floor.locate mode' (.tileAddress b) = o.floor.locate mode (.tileAddress a)) :
    o.execute (.tile op mode' b) = o.execute (.tile op mode a) := by
  rcases o.outcome_tile op mode a with ⟨p, hp⟩ | ⟨f, hf⟩
  · rw [(hp.readdress hl).execute_eq, hp.execute_eq]
  · rw [(hf.readdress hl).execute_eq, hf.execute_eq]

theorem Faults.of_locate_combine {c : Combination} (hop : op.combination? = some c)
    (hf : o.floor.locate mode (.tileAddress a) = .error f) :
    o.Faults (.tile op mode a) ((op.handsFault? o.worker.hands).getD f) := by
  obtain ⟨hnumber, hother⟩ := TileOp.handsFault?_of_combination hop
  rcases o.worker.hands.number_or with ⟨x, hx⟩ | hx
  · rw [hx, hnumber]
    exact .combineAddress hop hx hf
  · rw [hother _ hx]
    exact .combineHands hop hx

theorem Faults.of_locate (hf : o.floor.locate mode (.tileAddress a) = .error f) :
    o.Faults (.tile op mode a) ((op.handsFault? o.worker.hands).getD f) := by
  cases op with
  | copyFrom => exact .copyFromAddress hf
  | copyTo =>
      cases hh : o.worker.hands with
      | empty => exact .copyToHands hh
      | _ => exact .copyToAddress (by simp [hh]) hf
  | add | sub => exact .of_locate_combine rfl hf
  | bumpUp | bumpDown => exact .bumpAddress rfl hf

theorem indirect_follows_pointer [Inbox ι] (o : Office ι) (op : TileOp) (a : UInt64) :
    (a.toNat < o.floor.size → ∀ n, o.floor.tile a.toNat = .number n → 0 ≤ n.val →
      ∃ b : UInt64, b.toNat = n.val ∧
        o.execute (.tile op .indirect a) = o.execute (.tile op .direct b)) ∧
    (a.toNat < o.floor.size → ∀ b, o.floor.tile a.toNat = .tileAddress b →
      o.execute (.tile op .indirect a) = o.execute (.tile op .direct b)) ∧
    (o.floor.size ≤ a.toNat → o.execute (.tile op .indirect a) =
      (.error (.fault ((op.handsFault? o.worker.hands).getD .pointerRange)), o)) ∧
    (a.toNat < o.floor.size → ∀ n, o.floor.tile a.toNat = .number n → n.val < 0 →
      o.execute (.tile op .indirect a) =
        (.error (.fault ((op.handsFault? o.worker.hands).getD .addressRange)), o)) ∧
    (a.toNat < o.floor.size → ((o.floor.tile a.toNat).kind = .empty ∨
        (o.floor.tile a.toNat).kind = .letter ∨ (o.floor.tile a.toNat).kind = .lineAddress) →
      o.execute (.tile op .indirect a) =
        (.error (.fault ((op.handsFault? o.worker.hands).getD .addressKind)), o)) := by
  refine ⟨?_, ?_, ?_, ?_, ?_⟩
  · intro ha n hn hpos
    obtain ⟨b, hb⟩ := Number.exists_address hpos
    refine ⟨b, hb, o.execute_readdress op (Floor.locate_indirect_eq_direct ha ?_)⟩
    rw [hn, hb]
    exact .number n
  · intro ha b hb
    refine o.execute_readdress op (Floor.locate_indirect_eq_direct ha ?_)
    rw [hb]
    exact .tileAddress b
  · intro ha
    exact (Faults.of_locate (Floor.locate_indirect_of_le ha)).execute_eq
  · intro ha n hn hneg
    refine (Faults.of_locate ?_).execute_eq
    rw [Floor.locate_indirect ha, hn]
    exact (Floor.find_eq_range (by decide)).mpr ⟨n.val, .number n, by omega⟩
  · intro ha hkind
    refine (Faults.of_locate ?_).execute_eq
    rw [Floor.locate_indirect ha]
    exact Floor.find_of_none (Floor.place?_eq_none.mpr hkind)

theorem pointer_at_itself_overwritten :
    ∃ o : Office Batch, o = ⟨⟨.number .zero, 3, 9, false, none⟩, ⟨#[.tileAddress 0, .number .zero], by decide⟩,
        .ofInbox (Batch.ofList [])⟩ ∧
      o.execute (.tile .copyTo .indirect 0) = o.execute (.tile .copyTo .direct 0) ∧
      (o.execute (.tile .copyTo .indirect 0)).2.floor.tile 0 = .number .zero ∧
      (∃ b : UInt64, b.toNat = Number.zero.val ∧
        o.execute (.tile .bumpUp .indirect 1) = o.execute (.tile .bumpUp .direct b)) ∧
      o.execute (.tile .sub .indirect 2) = (.error (.fault .pointerRange), o) := by
  refine ⟨_, rfl, ?_⟩
  have hself := (indirect_follows_pointer ⟨⟨.number .zero, 3, 9, false, none⟩,
    ⟨#[.tileAddress 0, .number .zero], by decide⟩, .ofInbox (Batch.ofList [])⟩ .copyTo 0).2.1 (by decide) 0 rfl
  refine ⟨hself, ?_, ?_, ?_⟩
  · rw [hself]
    rfl
  · exact (indirect_follows_pointer _ .bumpUp 1).1 (by decide) .zero rfl (by decide)
  · exact (indirect_follows_pointer _ .sub 2).2.2.1 (by decide)

end Office

end OfficeMachine
