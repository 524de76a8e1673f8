import OfficeMachine.Binary.Program
import OfficeMachine.Json.Program
import OfficeMachine.Proofs.Assembly
import OfficeMachine.Proofs.Reading

namespace OfficeMachine

open Binary

def Parameter.kind? : Parameter → Option Value.Kind
  | .absent => none
  | .tile => some .tileAddress
  | .line => some .lineAddress

abbrev Draft := Opcode × Option Value

namespace Draft

def ofInstruction (i : Instruction) : Draft := (i.opcode, i.parameter)

def build (d : Draft) : Except BuildError Instruction := Instruction.build d.1 d.2

def Fits (d : Draft) : Prop := d.2.map Value.kind = d.1.parameter.kind?

instance (d : Draft) : Decidable d.Fits :=
  inferInstanceAs (Decidable (d.2.map Value.kind = d.1.parameter.kind?))

def LeadsWithin (n : Nat) (d : Draft) : Prop :=
  ∀ t, d.2 = some (.lineAddress t) → 1 ≤ t.toNat ∧ t.toNat ≤ n

theorem fits_ofInstruction (i : Instruction) : (ofInstruction i).Fits := by
  cases i <;> rfl

theorem leadsWithin_ofInstruction {n : Nat} {i : Instruction} :
    (ofInstruction i).LeadsWithin n ↔ i.JumpsWithin n := by
  cases i <;> simp [LeadsWithin, ofInstruction, Instruction.parameter, Instruction.JumpsWithin]

theorem target_of_parameter {i : Instruction} {t : UInt64} :
    (ofInstruction i).2 = some (.lineAddress t) ↔ i.target? = some t := by
  cases i <;> simp [ofInstruction, Instruction.parameter, Instruction.target?]

theorem build_eq_ok {d : Draft} {i : Instruction} : d.build = .ok i ↔ d = ofInstruction i := by
  rw [build, Instruction.build_eq_ok, Prod.ext_iff, ofInstruction]

theorem build_of_not_fits {d : Draft} (h : ¬d.Fits) :
    d.build = .error (.wrongParameter d.1 (d.2.map Value.kind)) := by
  cases hb : d.build with
  | ok i =>
      rw [build_eq_ok.mp hb] at h
      exact absurd (fits_ofInstruction i) h
  | error e =>
      unfold build Instruction.build at hb
      split at hb
      · cases hb
      · cases hb
      · cases hb
      · cases hb
      · exact hb.symm

theorem exists_of_fits {d : Draft} (h : d.Fits) : ∃ i, d = ofInstruction i := by
  obtain ⟨o, p⟩ := d
  cases o with
  | inbox =>
      obtain rfl := Option.map_eq_none_iff.mp h
      exact ⟨.inbox, rfl⟩
  | outbox =>
      obtain rfl := Option.map_eq_none_iff.mp h
      exact ⟨.outbox, rfl⟩
  | tile op mode =>
      obtain ⟨v, rfl, hv⟩ := Option.map_eq_some_iff.mp h
      cases v with
      | tileAddress a => exact ⟨.tile op mode a, rfl⟩
      | _ => cases hv
  | jump branch =>
      obtain ⟨v, rfl, hv⟩ := Option.map_eq_some_iff.mp h
      cases v with
      | lineAddress t => exact ⟨.jump branch t, rfl⟩
      | _ => cases hv

theorem mapM_build_map (lines : List Instruction) :
    (lines.map ofInstruction).mapM build = .ok lines := by
  induction lines with
  | nil => rfl
  | cons i lines ih =>
      rw [List.map_cons, List.mapM_cons, build_eq_ok.mpr rfl, ih]
      rfl

theorem mapM_build_of_not_fits {before after : List Draft} {d : Draft}
    (hbefore : ∀ x ∈ before, x.Fits) (hd : ¬d.Fits) :
    (before ++ d :: after).mapM build = .error (.wrongParameter d.1 (d.2.map Value.kind)) := by
  induction before with
  | nil =>
      rw [List.nil_append, List.mapM_cons, build_of_not_fits hd]
      rfl
  | cons x before ih =>
      obtain ⟨hx, hrest⟩ := List.forall_mem_cons.mp hbefore
      obtain ⟨i, hi⟩ := exists_of_fits hx
      rw [List.cons_append, List.mapM_cons, build_eq_ok.mpr hi, ih hrest]
      rfl

theorem fit_or_first_not (l : List Draft) :
    (∃ lines : List Instruction, l = lines.map ofInstruction) ∨
      ∃ before d after, l = before ++ d :: after ∧ (∀ x ∈ before, x.Fits) ∧ ¬d.Fits := by
  induction l with
  | nil => exact .inl ⟨[], rfl⟩
  | cons d l ih =>
      by_cases hd : d.Fits
      · rcases ih with ⟨lines, rfl⟩ | ⟨before, x, after, rfl, hbefore, hx⟩
        · obtain ⟨i, rfl⟩ := exists_of_fits hd
          exact .inl ⟨i :: lines, rfl⟩
        · exact .inr ⟨d :: before, x, after, rfl, List.forall_mem_cons.mpr ⟨hd, hbefore⟩, hx⟩
      · exact .inr ⟨[], d, l, rfl, List.forall_mem_nil _, hd⟩

theorem exists_lines_of_fits {l : List Draft} (h : ∀ d ∈ l, d.Fits) :
    ∃ lines : List Instruction, l = lines.map ofInstruction := by
  rcases fit_or_first_not l with hl | ⟨before, d, after, rfl, _, hd⟩
  · exact hl
  · exact absurd (h d (by simp)) hd

def assemble (l : List Draft) : Except BuildError Program := l.mapM build >>= Program.assemble

theorem assemble_map (lines : List Instruction) :
    assemble (lines.map ofInstruction) = Program.assemble lines := by
  rw [assemble, mapM_build_map]
  rfl

inductive Refused (l : List Draft) : BuildError → Prop
  | parameter {before after : List Draft} {d : Draft} (hl : l = before ++ d :: after)
      (hbefore : ∀ x ∈ before, x.Fits) (hd : ¬d.Fits) :
      Refused l (.wrongParameter d.1 (d.2.map Value.kind))
  | target {before after : List Draft} {d : Draft} {t : UInt64} (hfits : ∀ x ∈ l, x.Fits)
      (hl : l = before ++ d :: after) (hbefore : ∀ x ∈ before, x.LeadsWithin l.length)
      (hd : ¬d.LeadsWithin l.length) (ht : d.2 = some (.lineAddress t)) :
      Refused l (.strayJump (before.length + 1) t l.length)

theorem refused_map {lines : List Instruction} {e : BuildError}
    (h : Program.assemble lines = .error e) : Refused (lines.map ofInstruction) e := by
  obtain ⟨before, i, after, t, hl, hbefore, hi, ht, rfl⟩ := Program.assemble_eq_error.mp h
  have hlen : (lines.map ofInstruction).length = lines.length := List.length_map _
  have hpos : (before.map ofInstruction).length = before.length := List.length_map _
  have hl' : lines.map ofInstruction =
      before.map ofInstruction ++ ofInstruction i :: after.map ofInstruction := by
    rw [hl, List.map_append, List.map_cons]
  rw [← hlen, ← hpos]
  refine .target ?_ hl' ?_ ?_ (target_of_parameter.mpr ht)
  · intro x hx
    obtain ⟨j, _, rfl⟩ := List.mem_map.mp hx
    exact fits_ofInstruction j
  · intro x hx
    obtain ⟨j, hj, rfl⟩ := List.mem_map.mp hx
    rw [hlen, leadsWithin_ofInstruction]
    exact hbefore j hj
  · rw [hlen, leadsWithin_ofInstruction]
    exact hi

theorem assemble_eq_error {l : List Draft} {e : BuildError} :
    assemble l = .error e ↔ Refused l e := by
  constructor
  · intro h
    rcases fit_or_first_not l with ⟨lines, rfl⟩ | ⟨before, d, after, rfl, hbefore, hd⟩
    · rw [assemble_map] at h
      exact refused_map h
    · rw [assemble, mapM_build_of_not_fits hbefore hd] at h
      cases h
      exact .parameter rfl hbefore hd
  · intro h
    cases h with
    | parameter hl hbefore hd =>
        rw [hl, assemble, mapM_build_of_not_fits hbefore hd]
        rfl
    | target hfits hl hbefore hd ht =>
        obtain ⟨lines, rfl⟩ := exists_lines_of_fits hfits
        obtain ⟨b, c, rfl, rfl, hc⟩ := List.map_eq_append_iff.mp hl
        obtain ⟨i, a, rfl, rfl, rfl⟩ := List.map_eq_cons_iff.mp hc
        rw [List.length_map] at hbefore hd
        rw [assemble_map, List.length_map, List.length_map]
        refine Program.assemble_eq_error.mpr ⟨b, i, a, _, rfl, ?_, ?_, ?_, rfl⟩
        · intro j hj
          exact leadsWithin_ofInstruction.mp (hbefore _ (List.mem_map_of_mem hj))
        · exact fun hc => hd (leadsWithin_ofInstruction.mpr hc)
        · exact target_of_parameter.mp ht

theorem assemble_eq_ok {l : List Draft} {p : Program} :
    assemble l = .ok p ↔ l = p.authored.map ofInstruction := by
  constructor
  · intro h
    rcases fit_or_first_not l with ⟨lines, rfl⟩ | ⟨before, d, after, rfl, hbefore, hd⟩
    · rw [assemble_map] at h
      rw [Program.assemble_eq_ok.mp h]
    · rw [assemble, mapM_build_of_not_fits hbefore hd] at h
      cases h
  · rintro rfl
    rw [assemble_map, Program.assemble_eq_ok]

theorem exists_refused_iff {l : List Draft} :
    (∃ e, Refused l e) ↔ ∃ d ∈ l, ¬d.Fits ∨ ¬d.LeadsWithin l.length := by
  constructor
  · rintro ⟨e, h⟩
    cases h with
    | @parameter before after d hl _ hd => exact ⟨d, by simp [hl], .inl hd⟩
    | @target before after d t _ hl _ hd _ => exact ⟨d, by simp [hl], .inr hd⟩
  · rintro ⟨d, hd, hbad⟩
    cases h : assemble l with
    | error e => exact ⟨e, assemble_eq_error.mp h⟩
    | ok p =>
        obtain rfl := assemble_eq_ok.mp h
        obtain ⟨i, hi, rfl⟩ := List.mem_map.mp hd
        rw [List.length_map, leadsWithin_ofInstruction] at hbad
        rcases hbad with hfits | hwithin
        · exact absurd (fits_ofInstruction i) hfits
        · exact absurd (p.jumpsWithin_authored i hi) hwithin

end Draft

namespace Binary

variable {α β : Type} {read : Reader α} {b t : Bytes}

theorem run_bind_of_ok {f : α → Reader β} {a : α} (h : read.run b = .ok (a, t)) :
    (read >>= f).run b = (f a).run t := by
  rw [StateT.run_bind, h]
  rfl

theorem load_of_run {a : α} (h : read.run b = .ok (a, t)) : load read b = .ok a := by
  rw [load, h, Loaded.map_ok]

theorem run_of_load {a : α} (h : load read b = .ok a) : ∃ t, read.run b = .ok (a, t) := by
  rw [load] at h
  cases hr : read.run b with
  | error e =>
      rw [hr] at h
      cases h
  | ok x =>
      rw [hr] at h
      cases h
      exact ⟨x.2, rfl⟩

theorem load_checked {check : α → Except BuildError β} :
    load (read >>= fun a => ofBuild (check a)) b = load read b >>= fun a => .ofBuild (check a) := by
  rw [load, load, StateT.run_bind]
  cases read.run b with
  | error e => rfl
  | ok x =>
      have hrun : (ofBuild (check x.1)).run x.2 = Loaded.ofBuild (check x.1) >>= fun c =>
          .ok (c, x.2) := rfl
      rw [Loaded.map_ok, Loaded.ok_bind, Loaded.ok_bind, hrun]
      cases check x.1 <;> rfl

theorem readMany_of_read {other : Reader β} {g : α → β}
    (hg : ∀ {b a t}, read.run b = .ok (a, t) → other.run b = .ok (g a, t)) {n : Nat} {l : List α}
    (h : (readMany read n).run b = .ok (l, t)) : (readMany other n).run b = .ok (l.map g, t) := by
  induction n generalizing b l with
  | zero =>
      cases h
      rfl
  | succ n ih =>
      simp only [readMany, run_bind_eq_ok, run_pure_eq_ok] at h
      obtain ⟨a, u, ha, rest, _, hrest, rfl, rfl⟩ := h
      rw [readMany, run_bind_of_ok (hg ha), run_bind_of_ok (ih hrest)]
      rfl

theorem readMany_checked {check : α → Except BuildError β} {n : Nat} {l : List α}
    (h : (readMany read n).run b = .ok (l, t)) :
    (readMany (read >>= fun a => ofBuild (check a)) n).run b = (ofBuild (l.mapM check)).run t := by
  induction n generalizing b l with
  | zero =>
      cases h
      rfl
  | succ n ih =>
      simp only [readMany, run_bind_eq_ok, run_pure_eq_ok] at h
      obtain ⟨a, u, ha, rest, _, hrest, rfl, rfl⟩ := h
      rw [readMany, bind_assoc, run_bind_of_ok ha, List.mapM_cons]
      cases check a with
      | error e => rfl
      | ok c =>
          have hih := ih hrest
          rw [run_bind_of_ok rfl, StateT.run_bind, hih]
          cases rest.mapM check <;> rfl

theorem run_readList {l : List α} (h : (readList read).run b = .ok (l, t)) :
    ∃ n u, (readMany read n).run u = .ok (l, t) ∧
      ∀ {β : Type} (other : Reader β), (readList other).run b = (readMany other n).run u := by
  obtain ⟨n, u, hn, hl⟩ := run_bind_eq_ok.mp h
  exact ⟨n, u, hl, fun _ => run_bind_of_ok hn⟩

end Binary

namespace Json

variable {α β : Type} {read : Json → Loaded α} {j : Json}

def list (read : Json → Loaded α) : Json → Loaded (List α)
  | .arr items => items.mapM read
  | _ => .error .malformed

theorem mapM_of_read {other : Json → Loaded β} {g : α → β}
    (hg : ∀ {j a}, read j = .ok a → other j = .ok (g a)) {items : List Json} {l : List α}
    (h : items.mapM read = .ok l) : items.mapM other = .ok (l.map g) := by
  induction items generalizing l with
  | nil =>
      cases h
      rfl
  | cons j items ih =>
      simp only [List.mapM_cons, Loaded.bind_eq_ok] at h
      obtain ⟨a, ha, rest, hrest, hl⟩ := h
      cases hl
      rw [List.mapM_cons, hg ha, ih hrest]
      rfl

theorem mapM_checked {check : α → Except BuildError β} {items : List Json} {l : List α}
    (h : items.mapM read = .ok l) :
    (items.mapM fun j => read j >>= fun a => .ofBuild (check a)) = .ofBuild (l.mapM check) := by
  induction items generalizing l with
  | nil =>
      cases h
      rfl
  | cons j items ih =>
      simp only [List.mapM_cons, Loaded.bind_eq_ok] at h
      obtain ⟨a, ha, rest, hrest, hl⟩ := h
      cases hl
      rw [List.mapM_cons, ih hrest, ha, Loaded.ok_bind, List.mapM_cons]
      cases check a with
      | error e => rfl
      | ok c => cases rest.mapM check <;> rfl

theorem list_eq_ok {l : List α} :
    list read j = .ok l ↔ ∃ items, j = .arr items ∧ items.mapM read = .ok l := by
  cases j <;> simp [list]

end Json

structure Guards (drafts : Loaded (List Draft)) (lines : Loaded (List Instruction))
    (program : Loaded Program) : Prop where
  parameters : ∀ p, program = .ok p → ∀ i ∈ p.instructions,
    i.parameter.map Value.kind = i.opcode.parameter.kind?
  targets : ∀ p, program = .ok p → ∀ i ∈ p.instructions, ∀ t, i.target? = some t →
    t.toNat < p.length
  assembled : ∀ p, program = .ok p → ∃ v, lines = .ok v ∧
    drafts = .ok (v.map Draft.ofInstruction) ∧ Program.assemble v = .ok p
  fails : ∀ l, drafts = .ok l →
    ((∃ e, program = .error e) ↔ ∃ d ∈ l, ¬d.Fits ∨ ¬d.LeadsWithin l.length)
  reports : ∀ l, drafts = .ok l → ∀ e,
    (program = .error e ↔ ∃ r, e = .rejected r ∧ Draft.Refused l r)

theorem Loaded.ofBuild_eq_ok {α : Type} {x : Except BuildError α} {a : α} :
    ofBuild x = .ok a ↔ x = .ok a := by
  cases x with
  | ok b => rw [ofBuild_ok, Except.ok.injEq, Except.ok.injEq]
  | error r => exact ⟨nofun, nofun⟩

theorem Loaded.ofBuild_eq_error {α : Type} {x : Except BuildError α} {e : LoadError} :
    ofBuild x = .error e ↔ ∃ r, e = .rejected r ∧ x = .error r := by
  cases x with
  | ok a => exact ⟨nofun, nofun⟩
  | error r =>
      constructor
      · intro h
        cases h
        exact ⟨r, rfl, rfl⟩
      · rintro ⟨_, rfl, h⟩
        cases h
        rfl

theorem guards_of_lines {drafts : Loaded (List Draft)} {lines : Loaded (List Instruction)}
    (hdrafts : ∀ v, lines = .ok v → drafts = .ok (v.map Draft.ofInstruction))
    (hlines : ∀ l, drafts = .ok l → lines = .ofBuild (l.mapM Draft.build)) :
    Guards drafts lines (lines >>= fun v => .ofBuild (Program.assemble v)) := by
  have hprogram (l : List Draft) (hl : drafts = .ok l) :
      (lines >>= fun v => .ofBuild (Program.assemble v)) = .ofBuild (Draft.assemble l) := by
    rw [hlines l hl, Draft.assemble]
    cases l.mapM Draft.build <;> rfl
  have hreports (l : List Draft) (hl : drafts = .ok l) (e : LoadError) :
      (lines >>= fun v => .ofBuild (Program.assemble v)) = .error e ↔
        ∃ r, e = .rejected r ∧ Draft.Refused l r := by
    simp only [hprogram l hl, Loaded.ofBuild_eq_error, Draft.assemble_eq_error]
  refine ⟨?_, ?_, ?_, ?_, hreports⟩
  · exact fun p _ i _ => Draft.fits_ofInstruction i
  · exact fun p _ i hi t ht => p.target_lt_length hi ht
  · intro p hp
    obtain ⟨v, hv, hp⟩ := Loaded.bind_eq_ok.mp hp
    exact ⟨v, hv, hdrafts v hv, Loaded.ofBuild_eq_ok.mp hp⟩
  · intro l hl
    rw [← Draft.exists_refused_iff]
    constructor
    · rintro ⟨e, he⟩
      obtain ⟨r, _, hr⟩ := (hreports l hl e).mp he
      exact ⟨r, hr⟩
    · rintro ⟨r, hr⟩
      exact ⟨.rejected r, (hreports l hl _).mpr ⟨r, rfl, hr⟩⟩

namespace Instruction

theorem read_eq_checked : Instruction.read = readParts >>= fun d => ofBuild (Draft.build d) := rfl

theorem ofJson_eq_checked :
    Instruction.ofJson = fun j => partsOfJson j >>= fun d => .ofBuild (Draft.build d) := rfl

theorem readParts_of_read {b t : Bytes} {i : Instruction} (h : Instruction.read.run b = .ok (i, t)) :
    readParts.run b = .ok (Draft.ofInstruction i, t) := by
  simp only [read_eq_checked, run_bind_eq_ok, run_ofBuild_eq_ok, Draft.build_eq_ok] at h
  obtain ⟨_, _, hd, rfl, rfl⟩ := h
  exact hd

theorem partsOfJson_of_ofJson {j : Json} {i : Instruction} (h : Instruction.ofJson j = .ok i) :
    partsOfJson j = .ok (Draft.ofInstruction i) := by
  simp only [ofJson_eq_checked, Loaded.bind_eq_ok, Loaded.ofBuild_eq_ok, Draft.build_eq_ok] at h
  obtain ⟨_, hd, rfl⟩ := h
  exact hd

end Instruction

namespace Program

theorem guards_read (b : Bytes) :
    Guards (load (readList Instruction.readParts) b) (load (readList Instruction.read) b)
      (load Program.read b) := by
  rw [Program.read, load_checked]
  apply guards_of_lines
  · intro v hv
    obtain ⟨t, hrun⟩ := run_of_load hv
    obtain ⟨n, u, hmany, hlist⟩ := run_readList hrun
    apply load_of_run
    rw [hlist, readMany_of_read Instruction.readParts_of_read hmany]
  · intro l hl
    obtain ⟨t, hrun⟩ := run_of_load hl
    obtain ⟨n, u, hmany, hlist⟩ := run_readList hrun
    rw [load, hlist, Instruction.read_eq_checked, readMany_checked hmany]
    cases l.mapM Draft.build <;> rfl

theorem guards_ofJson (j : Json) :
    Guards (Json.list Instruction.partsOfJson j) (Json.list Instruction.ofJson j)
      (Program.ofJson j) := by
  have hprogram : Program.ofJson j =
      Json.list Instruction.ofJson j >>= fun v => .ofBuild (assemble v) := by
    cases j <;> rfl
  rw [hprogram]
  apply guards_of_lines
  · intro v hv
    obtain ⟨items, rfl, hitems⟩ := Json.list_eq_ok.mp hv
    exact Json.mapM_of_read Instruction.partsOfJson_of_ofJson hitems
  · intro l hl
    obtain ⟨items, rfl, hitems⟩ := Json.list_eq_ok.mp hl
    exact Json.mapM_checked hitems

end Program

theorem loading_cannot_forge_programs :
    (∀ b, Guards (load (readList Instruction.readParts) b) (load (readList Instruction.read) b)
      (load Program.read b)) ∧
    ∀ j, Guards (Json.list Instruction.partsOfJson j) (Json.list Instruction.ofJson j)
      (Program.ofJson j) :=
  ⟨Program.guards_read, Program.guards_ofJson⟩

theorem wrong_parameter_reported_before_stray_jump :
    ∃ drafts : List Draft, ¬Draft.LeadsWithin drafts.length (drafts.headD (.inbox, none)) ∧
      ∃ b j, load (readList Instruction.readParts) b = .ok drafts ∧
        Json.list Instruction.partsOfJson j = .ok drafts ∧
        load Program.read b =
          .error (.rejected (.wrongParameter (.tile .copyTo .direct) (some .lineAddress))) ∧
        Program.ofJson j =
          .error (.rejected (.wrongParameter (.tile .copyTo .direct) (some .lineAddress))) := by
  obtain ⟨hread, hjson⟩ := loading_cannot_forge_programs
  have hrefused : Draft.Refused [(.jump .always, some (.lineAddress 9)),
      (.tile .copyTo .direct, some (.lineAddress 1))]
      (.wrongParameter (.tile .copyTo .direct) (some .lineAddress)) :=
    .parameter (List.singleton_append).symm (by decide) (by decide)
  have hbytes : load (readList Instruction.readParts)
      [2, 0, 0, 0, 0, 0, 0, 0, 14, 0, 0, 0, 1, 4, 0, 0, 0, 9, 0, 0, 0, 0, 0, 0, 0,
        4, 0, 0, 0, 1, 4, 0, 0, 0, 1, 0, 0, 0, 0, 0, 0, 0] =
      .ok [(.jump .always, some (.lineAddress 9)),
        (.tile .copyTo .direct, some (.lineAddress 1))] := rfl
  have hitems : Json.list Instruction.partsOfJson
      (.arr [.obj [("opcode", .str "Jump"), ("param", .obj [("ProgramAddress", .int 9)])],
        .arr [.str "CopyTo", .obj [("ProgramAddress", .int 1)]]]) =
      .ok [(.jump .always, some (.lineAddress 9)),
        (.tile .copyTo .direct, some (.lineAddress 1))] := rfl
  refine ⟨_, ?_, _, _, hbytes, hitems, ?_, ?_⟩
  · intro h
    exact absurd (h 9 rfl) (by decide)
  · exact ((hread _).reports _ hbytes _).mpr ⟨_, rfl, hrefused⟩
  · exact ((hjson _).reports _ hitems _).mpr ⟨_, rfl, hrefused⟩

end OfficeMachine
