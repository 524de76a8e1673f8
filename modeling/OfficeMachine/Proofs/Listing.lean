import OfficeMachine.Program
import OfficeMachine.Puzzle
import OfficeMachine.Text.Decimal

namespace OfficeMachine

namespace Text

variable {c : Char} {a b s t : List Char}

def StopsAt (c : Char) (s : List Char) : Prop := ∀ d ∈ s.head?, d = c

theorem stopsAt_nil (c : Char) : StopsAt c [] := nofun

theorem stopsAt_cons (c : Char) (s : List Char) : StopsAt c (c :: s) := by
  simp [StopsAt]

theorem cut_unique (ha : c ∉ a) (hb : c ∉ b) (hs : StopsAt c s) (ht : StopsAt c t)
    (h : a ++ s = b ++ t) : a = b ∧ s = t := by
  induction a generalizing b with
  | nil =>
      cases b with
      | nil => exact ⟨rfl, h⟩
      | cons y b =>
          subst h
          obtain rfl : y = c := hs y rfl
          exact absurd (List.mem_cons_self ..) hb
  | cons x a ih =>
      cases b with
      | nil =>
          subst h
          obtain rfl : x = c := ht x rfl
          exact absurd (List.mem_cons_self ..) ha
      | cons y b =>
          obtain ⟨rfl, hrest⟩ := List.cons.inj h
          obtain ⟨rfl, rfl⟩ := ih (fun hc => ha (List.mem_cons_of_mem _ hc))
            (fun hc => hb (List.mem_cons_of_mem _ hc)) hrest
          exact ⟨rfl, rfl⟩

theorem not_mem_decimal (h : c.isDigit = false) (n : Nat) : c ∉ (decimal n).toList := by
  intro hc
  rw [decimal, Nat.toList_repr] at hc
  have hd := Nat.isDigit_of_mem_toDigits (by decide) (by decide) hc
  rw [h] at hd
  cases hd

theorem word_of_decimal {m n : UInt64} (h : decimal m.toNat = decimal n.toNat) : m = n :=
  UInt64.toNat_inj.mp (Nat.repr_injective h)

structure Lines (s : String) (lines : List String) : Prop where
  joined : s = String.join (lines.map (· ++ "\n"))
  single : ∀ line ∈ lines, '\n' ∉ line.toList

theorem toList_line (line : String) (rest : List String) :
    (String.join ((line :: rest).map (· ++ "\n"))).toList =
      line.toList ++ '\n' :: (String.join (rest.map (· ++ "\n"))).toList := by
  rw [List.map_cons, String.join_cons, String.toList_append, String.toList_append, List.append_assoc]
  rfl

theorem eq_of_join_lines {xs ys : List String} (hxs : ∀ x ∈ xs, '\n' ∉ x.toList)
    (hys : ∀ y ∈ ys, '\n' ∉ y.toList)
    (h : (String.join (xs.map (· ++ "\n"))).toList = (String.join (ys.map (· ++ "\n"))).toList) :
    xs = ys := by
  induction xs generalizing ys with
  | nil =>
      cases ys with
      | nil => rfl
      | cons y ys =>
          rw [toList_line] at h
          simp at h
  | cons x xs ih =>
      cases ys with
      | nil =>
          rw [toList_line] at h
          simp at h
      | cons y ys =>
          obtain ⟨hx, hxs⟩ := List.forall_mem_cons.mp hxs
          obtain ⟨hy, hys⟩ := List.forall_mem_cons.mp hys
          rw [toList_line, toList_line] at h
          obtain ⟨hline, hrest⟩ := cut_unique hx hy (stopsAt_cons _ _) (stopsAt_cons _ _) h
          rw [String.toList_inj.mp hline, ih hxs hys (List.cons.inj hrest).2]

theorem Lines.unique {s : String} {xs ys : List String} (hx : Lines s xs) (hy : Lines s ys) :
    xs = ys :=
  eq_of_join_lines hx.single hy.single (congrArg String.toList (hx.joined.symm.trans hy.joined))

def RightAligned (width : Nat) (s padded : String) : Prop :=
  ∃ k, padded = String.ofList (List.replicate k ' ') ++ s ∧ padded.length = max width s.length

end Text

open Text

namespace Opcode

def unmoded : Opcode → Opcode
  | .tile op _ => .tile op .direct
  | o => o

theorem unmoded_of_mnemonic {o o' : Opcode} (h : o.mnemonic = o'.mnemonic) :
    o.unmoded = o'.unmoded := by
  have hall : ∀ x ∈ all, ∀ y ∈ all, x.mnemonic = y.mnemonic → x.unmoded = y.unmoded := by decide
  exact hall o (mem_all o) o' (mem_all o') h

theorem not_mem_mnemonic (o : Opcode) : ' ' ∉ o.mnemonic.toList ∧ '\n' ∉ o.mnemonic.toList := by
  have hall : ∀ x ∈ all, ' ' ∉ x.mnemonic.toList ∧ '\n' ∉ x.mnemonic.toList := by decide
  exact hall o (mem_all o)

end Opcode

namespace Instruction

variable {i j : Instruction}

def address? : Instruction → Option (Mode × UInt64)
  | .inbox | .outbox => none
  | .tile _ mode a => some (mode, a)
  | .jump _ t => some (.direct, t)

theorem eq_of_address? (ho : i.opcode.unmoded = j.opcode.unmoded) (ha : i.address? = j.address?) :
    i = j := by
  cases i <;> cases j <;> simp_all [opcode, Opcode.unmoded, address?]

def addressText : Mode × UInt64 → String
  | (.direct, a) => decimal a.toNat
  | (.indirect, a) => "[" ++ decimal a.toNat ++ "]"

theorem addressText_ne (a b : UInt64) : addressText (.direct, a) ≠ addressText (.indirect, b) := by
  intro h
  refine not_mem_decimal (c := '[') (by decide) a.toNat ?_
  have h : decimal a.toNat = "[" ++ decimal b.toNat ++ "]" := h
  simp [h]

theorem addressText_injective {x y : Mode × UInt64} (h : addressText x = addressText y) : x = y := by
  obtain ⟨mode, a⟩ := x
  obtain ⟨mode', b⟩ := y
  cases mode with
  | direct =>
      cases mode' with
      | direct => rw [word_of_decimal h]
      | indirect => exact absurd h (addressText_ne a b)
  | indirect =>
      cases mode' with
      | direct => exact absurd h.symm (addressText_ne b a)
      | indirect =>
          have hd := (String.append_right_inj "[").mp ((String.append_left_inj "]").mp h)
          rw [word_of_decimal hd]

def tail : Option (Mode × UInt64) → List Char
  | none => []
  | some x => ' ' :: (addressText x).toList

theorem stopsAt_tail (x : Option (Mode × UInt64)) : StopsAt ' ' (tail x) := by
  cases x with
  | none => exact stopsAt_nil _
  | some x => exact stopsAt_cons _ _

theorem tail_injective {x y : Option (Mode × UInt64)} (h : tail x = tail y) : x = y := by
  cases x with
  | none =>
      cases y with
      | none => rfl
      | some y => cases h
  | some x =>
      cases y with
      | none => cases h
      | some y => rw [addressText_injective (String.toList_inj.mp (List.cons.inj h).2)]

theorem toList_text (i : Instruction) : i.text.toList = i.mnemonic.toList ++ tail i.address? := by
  cases i with
  | inbox => rfl
  | outbox => rfl
  | tile op mode a =>
      cases mode with
      | direct => simp [text, mnemonic, opcode, Opcode.mnemonic, address?, tail, addressText, decimal]
      | indirect => simp [text, mnemonic, opcode, Opcode.mnemonic, address?, tail, addressText, decimal]
  | jump branch t =>
      simp [text, mnemonic, opcode, Opcode.mnemonic, address?, tail, addressText, decimal]

theorem text_injective (h : i.text = j.text) : i = j := by
  have hl := congrArg String.toList h
  rw [toList_text, toList_text] at hl
  obtain ⟨hm, ht⟩ := cut_unique i.opcode.not_mem_mnemonic.1 j.opcode.not_mem_mnemonic.1
    (stopsAt_tail _) (stopsAt_tail _) hl
  exact eq_of_address? (Opcode.unmoded_of_mnemonic (String.toList_inj.mp hm)) (tail_injective ht)

theorem newline_not_mem_text (i : Instruction) : '\n' ∉ i.text.toList := by
  have hd := not_mem_decimal (c := '\n') (by decide)
  have haddress (x : Mode × UInt64) : '\n' ∉ (addressText x).toList := by
    obtain ⟨mode, a⟩ := x
    cases mode with
    | direct => exact hd _
    | indirect => simp [addressText, hd]
  rw [toList_text, List.mem_append]
  rintro (h | h)
  · exact i.opcode.not_mem_mnemonic.2 h
  · cases hx : i.address? with
    | none => simp [hx, tail] at h
    | some x => simp [hx, tail, haddress] at h

end Instruction

namespace Program

def lineNumber (n : Nat) : String :=
  String.ofList (List.replicate (3 - (decimal n).length) ' ') ++ decimal n

theorem rightAligned_lineNumber (n : Nat) : RightAligned 3 (decimal n) (lineNumber n) := by
  refine ⟨_, rfl, ?_⟩
  rw [lineNumber, String.length_append, String.length_ofList, List.length_replicate]
  omega

def line (n : Nat) (i : Instruction) : String := lineNumber n ++ ": " ++ i.text

theorem newline_not_mem_line (n : Nat) (i : Instruction) : '\n' ∉ (line n i).toList := by
  have hd := not_mem_decimal (c := '\n') (by decide) n
  simp [line, lineNumber, hd, i.newline_not_mem_text]

def numbered (n : Nat) (lines : List Instruction) : List String :=
  (lines.zipIdx n).map fun (i, k) => line k i

theorem numbered_injective {n : Nat} {xs ys : List Instruction} (h : numbered n xs = numbered n ys) :
    xs = ys := by
  induction xs generalizing n ys with
  | nil =>
      cases ys with
      | nil => rfl
      | cons y ys => cases h
  | cons x xs ih =>
      cases ys with
      | nil => cases h
      | cons y ys =>
          obtain ⟨hline, hrest⟩ := List.cons.inj h
          have hxy := Instruction.text_injective ((String.append_right_inj _).mp hline)
          rw [hxy, ih hrest]

theorem lines_listing (p : Program) : Lines p.listing (numbered 1 p.authored) where
  joined := by
    rw [listing, numbered, List.map_map]
    rfl
  single := by
    intro s hs
    obtain ⟨⟨i, k⟩, _, rfl⟩ := List.mem_map.mp hs
    exact newline_not_mem_line k i

theorem eq_of_listing {p q : Program} (h : p.listing = q.listing) : p = q := by
  have hlines : numbered 1 p.authored = numbered 1 q.authored :=
    p.lines_listing.unique (h ▸ q.lines_listing)
  have hp : assemble p.authored = .ok p := assemble_eq_ok.mpr rfl
  have hq : assemble p.authored = .ok q := assemble_eq_ok.mpr (numbered_injective hlines)
  exact Except.ok.inj (hp.symm.trans hq)

theorem listing_determines_program :
    (∀ p q : Program, p.listing = q.listing ↔ p = q) ∧
    ∀ p : Program, ∃ lines, Lines p.listing lines ∧ lines.length = p.length ∧
      ∀ k i, p.authored[k]? = some i → ∃ number, RightAligned 3 (decimal (k + 1)) number ∧
        lines[k]? = some (number ++ ": " ++ i.text) := by
  refine ⟨fun p q => ⟨eq_of_listing, congrArg listing⟩, fun p => ⟨_, p.lines_listing, ?_, ?_⟩⟩
  · rw [numbered, List.length_map, List.length_zipIdx, length_authored]
  · intro k i hi
    refine ⟨lineNumber (k + 1), rightAligned_lineNumber _, ?_⟩
    rw [numbered, List.getElem?_map, List.getElem?_zipIdx, hi, Nat.add_comm]
    rfl

theorem brackets_in_third_line :
    Puzzle.lookupTable.program.authored[2]? = some (.tile .copyFrom .indirect 9) ∧
      (∃ lines, Lines Puzzle.lookupTable.program.listing lines ∧ lines.length = 5 ∧
        lines[2]? = some "  3: COPYFROM [9]") ∧
      ∃ p q : Program, p.authored = [.tile .copyFrom .direct 9] ∧
        q.authored = [.tile .copyFrom .indirect 9] ∧ p.listing ≠ q.listing := by
  obtain ⟨hinjective, hlines⟩ := listing_determines_program
  have hthird : Puzzle.lookupTable.program.authored[2]? = some (.tile .copyFrom .indirect 9) := rfl
  refine ⟨hthird, ?_, ?_⟩
  · obtain ⟨lines, hl, hlen, hline⟩ := hlines Puzzle.lookupTable.program
    obtain ⟨number, ⟨k, hk, hwidth⟩, hnumber⟩ := hline 2 _ hthird
    have hpad : number = "  3" := by
      rw [hk, String.length_append, String.length_ofList, List.length_replicate] at hwidth
      have hk2 : k = 2 := by
        have hone : (decimal (2 + 1)).length = 1 := rfl
        omega
      rw [hk, hk2]
      rfl
    refine ⟨lines, hl, hlen, ?_⟩
    rw [hnumber, hpad]
    rfl
  · refine ⟨ofLines [.tile .copyFrom .direct 9] (by decide),
      ofLines [.tile .copyFrom .indirect 9] (by decide), rfl, rfl, fun h => ?_⟩
    have hp := congrArg authored ((hinjective _ _).mp h)
    cases hp

end Program

end OfficeMachine
