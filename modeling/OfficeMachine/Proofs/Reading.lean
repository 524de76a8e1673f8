import OfficeMachine.Binary

namespace OfficeMachine.Binary

variable {α β : Type} {b t : Bytes}

theorem run_bind_eq_ok {r : Reader α} {f : α → Reader β} {y : β} :
    (r >>= f).run b = .ok (y, t) ↔ ∃ x u, r.run b = .ok (x, u) ∧ (f x).run u = .ok (y, t) := by
  rw [StateT.run_bind]
  cases hr : r.run b with
  | error e =>
      constructor
      · intro h
        cases h
      · rintro ⟨x, u, h, _⟩
        cases h
  | ok p =>
      obtain ⟨x, u⟩ := p
      constructor
      · intro h
        exact ⟨x, u, rfl, h⟩
      · rintro ⟨_, _, h, hf⟩
        cases h
        exact hf

theorem run_pure_eq_ok {a y : α} : (pure a : Reader α).run b = .ok (y, t) ↔ a = y ∧ b = t := by
  rw [StateT.run_pure]
  constructor
  · intro h
    cases h
    exact ⟨rfl, rfl⟩
  · rintro ⟨rfl, rfl⟩
    rfl

theorem run_ofBuild_eq_ok {e : Except BuildError α} {y : α} :
    (ofBuild e).run b = .ok (y, t) ↔ e = .ok y ∧ b = t := by
  cases e with
  | error e => exact ⟨nofun, nofun⟩
  | ok a =>
      rw [Except.ok.injEq]
      exact run_pure_eq_ok

theorem run_ofOption_eq_ok {o : Option α} {y : α} :
    (ofOption o).run b = .ok (y, t) ↔ o = some y ∧ b = t := by
  cases o with
  | none => exact ⟨nofun, nofun⟩
  | some a =>
      rw [Option.some.injEq]
      exact run_pure_eq_ok

def Exact (read : Reader α) (write : α → Bytes) : Prop :=
  ∀ b a t, read.run b = .ok (a, t) ↔ b = write a ++ t

theorem readByte_eq_ok {x : UInt8} : readByte.run b = .ok (x, t) ↔ b = x :: t := by
  cases b with
  | nil => exact ⟨nofun, nofun⟩
  | cons y rest =>
      constructor
      · intro h
        cases h
        rfl
      · intro h
        cases h
        rfl

def capacity : (width : Nat) → Nat
  | 0 => 1
  | w + 1 => 256 * capacity w

theorem readNat_eq_ok {w n : Nat} :
    (readNat w).run b = .ok (n, t) ↔ n < capacity w ∧ b = ofNat w n ++ t := by
  induction w generalizing b t n with
  | zero =>
      rw [readNat, run_pure_eq_ok, capacity, Nat.lt_one_iff, eq_comm]
      rfl
  | succ w ih =>
      simp only [readNat, run_bind_eq_ok, run_pure_eq_ok, readByte_eq_ok, ih]
      constructor
      · rintro ⟨low, _, rfl, high, _, ⟨hlt, rfl⟩, rfl, rfl⟩
        have hlow := low.toNat_lt
        have hdiv : (low.toNat + 256 * high) / 256 = high := by omega
        have hmod : UInt8.ofNat (low.toNat + 256 * high) = low := by
          apply UInt8.toNat_inj.mp
          simp only [UInt8.toNat_ofNat']
          omega
        refine ⟨?_, ?_⟩
        · rw [capacity]
          omega
        · rw [ofNat, hdiv, hmod, List.cons_append]
      · rintro ⟨hlt, rfl⟩
        rw [capacity] at hlt
        refine ⟨_, _, rfl, n / 256, _, ⟨by omega, rfl⟩, ?_, rfl⟩
        simp only [UInt8.toNat_ofNat']
        omega

theorem capacity_eight : capacity 8 = UInt64.size := rfl

theorem readTag_eq_ok {n : Nat} :
    readTag.run b = .ok (n, t) ↔ n < capacity 4 ∧ b = ofTag n ++ t :=
  readNat_eq_ok

theorem exact_readWord : Exact readWord ofWord := by
  intro b n t
  simp only [readWord, run_bind_eq_ok, run_pure_eq_ok, readNat_eq_ok, capacity_eight, ofWord]
  constructor
  · rintro ⟨k, _, ⟨hk, rfl⟩, rfl, rfl⟩
    rw [UInt64.toNat_ofNat_of_lt' hk]
  · rintro rfl
    exact ⟨n.toNat, t, ⟨n.toNat_lt_size, rfl⟩, UInt64.ofNat_toNat, rfl⟩

theorem exact_readChar : Exact readChar ofChar := by
  intro b c t
  have hlen : (ofChar c).length = c.utf8Size := String.length_utf8EncodeChar c
  have hle := c.utf8Size_le_four
  constructor
  · intro h
    have hread : readChar.run b = readChar b := rfl
    rw [hread, readChar] at h
    split at h
    · next d hd =>
        cases h
        obtain ⟨rest, hrest⟩ := ByteArray.exists_of_utf8DecodeChar?_eq_some hd
        have htake : b.take 4 = ofChar c ++ rest.data.toList := by
          have hdata := congrArg (fun a => a.data.toList) hrest
          simpa [ofChar] using hdata
        have hb : b = ofChar c ++ (rest.data.toList ++ b.drop 4) := by
          rw [← List.append_assoc, ← htake, List.take_append_drop]
        rw [hb, ← hlen, List.drop_left]
    · cases h
  · rintro rfl
    have htake : (ofChar c ++ t).take 4 = ofChar c ++ t.take (4 - c.utf8Size) := by
      rw [List.take_append, hlen, List.take_of_length_le (by omega)]
    have hread : readChar.run (ofChar c ++ t) = readChar (ofChar c ++ t) := rfl
    rw [hread, readChar, htake, List.toByteArray_append, ofChar,
      ByteArray.utf8DecodeChar?_utf8EncodeChar_append]
    simp only
    rw [← hlen]
    exact congrArg (fun u => Except.ok (c, u)) List.drop_left

section Sequences

variable {read : Reader α} {write : α → Bytes}

theorem Exact.readMany (h : Exact read write) {n : Nat} {l : List α} :
    (readMany read n).run b = .ok (l, t) ↔ l.length = n ∧ b = l.flatMap write ++ t := by
  induction n generalizing b t l with
  | zero =>
      rw [Binary.readMany, run_pure_eq_ok]
      constructor
      · rintro ⟨rfl, rfl⟩
        exact ⟨rfl, rfl⟩
      · rintro ⟨hl, rfl⟩
        obtain rfl := List.length_eq_zero_iff.mp hl
        exact ⟨rfl, rfl⟩
  | succ n ih =>
      simp only [Binary.readMany, run_bind_eq_ok, run_pure_eq_ok, ih, h _ _ _]
      constructor
      · rintro ⟨a, _, rfl, rest, _, ⟨rfl, rfl⟩, rfl, rfl⟩
        exact ⟨rfl, by simp⟩
      · rintro ⟨hl, rfl⟩
        obtain ⟨a, rest, rfl⟩ := List.exists_cons_of_length_eq_add_one hl
        exact ⟨a, _, by simp, rest, t, ⟨by simpa using hl, rfl⟩, rfl, rfl⟩

theorem Exact.readList (h : Exact read write) {l : List α} :
    (readList read).run b = .ok (l, t) ↔ l.length < UInt64.size ∧ b = ofList write l ++ t := by
  simp only [Binary.readList, run_bind_eq_ok, readNat_eq_ok, capacity_eight, h.readMany]
  constructor
  · rintro ⟨_, _, ⟨hn, rfl⟩, rfl, rfl⟩
    exact ⟨hn, by rw [ofList, List.append_assoc]⟩
  · rintro ⟨hn, rfl⟩
    exact ⟨_, _, ⟨hn, by rw [ofList, List.append_assoc]⟩, rfl, rfl⟩

end Sequences

end OfficeMachine.Binary
