import OfficeMachine.Proofs.Lockstep
import OfficeMachine.Puzzle

namespace OfficeMachine

def Fault.OffFloor (f : Fault) : Prop := f = .addressRange ∨ f = .pointerRange

namespace Floor

def Extended (f : Floor) (extra : List Value) (g : Floor) : Prop :=
  g.tiles = f.tiles ++ extra.toArray

def extend (f : Floor) (extra : List Value) (h : f.size + extra.length ≤ wordMax) : Floor where
  tiles := f.tiles ++ extra.toArray
  fits := by
    rw [Array.size_append, List.size_toArray]
    exact h

theorem extended_extend {f : Floor} {extra : List Value} (h : f.size + extra.length ≤ wordMax) :
    f.Extended extra (f.extend extra h) := rfl

namespace Extended

variable {f g : Floor} {extra : List Value} {kind range e : Fault} {mode : Mode} {v : Value}
  {j : Nat}

theorem toList_tiles (h : f.Extended extra g) : g.tiles.toList = f.tiles.toList ++ extra := by
  rw [h, Array.toList_append]

theorem size_eq (h : f.Extended extra g) : g.size = f.size + extra.length := by
  rw [size, h, Array.size_append, List.size_toArray]
  rfl

theorem eq_extend (h : f.Extended extra g) : ∃ hfits, g = f.extend extra hfits :=
  ⟨h.size_eq ▸ g.fits, ext h⟩

theorem tile_eq (h : f.Extended extra g) (hj : j < f.size) : g.tile j = f.tile j := by
  have hlt : j < f.tiles.size := hj
  rw [tile, tile, h, Array.getD_eq_getD_getElem?, Array.getElem?_append_left hlt,
    Array.getD_eq_getD_getElem?]

theorem put (h : f.Extended extra g) (hj : j < f.size) (w : Value) :
    (f.put j w).Extended extra (g.put j w) := by
  have hlt : j < f.tiles.size := hj
  have hput : (f.tiles ++ extra.toArray).setIfInBounds j w =
      f.tiles.setIfInBounds j w ++ extra.toArray := Array.setIfInBounds_append_left hlt
  exact (congrArg (·.setIfInBounds j w) h).trans hput

theorem find_ok (h : f.Extended extra g) (hf : f.find kind range v = .ok j) :
    g.find kind range v = .ok j := by
  obtain ⟨hv, hlt⟩ := find_eq_ok.mp hf
  refine find_eq_ok.mpr ⟨hv, ?_⟩
  rw [h.size_eq]
  exact Nat.lt_add_right _ hlt

theorem find_error (hf : f.find kind range v = .error e) (he : e ≠ range) :
    g.find kind range v = .error e := by
  rcases find_eq_error hf with rfl | ⟨rfl, hv⟩
  · exact absurd rfl he
  · exact find_of_none hv

theorem locate_ok (h : f.Extended extra g) (hf : f.locate mode v = .ok j) :
    g.locate mode v = .ok j := by
  cases mode with
  | direct => exact h.find_ok hf
  | indirect =>
      obtain ⟨pointer, hp, hj⟩ := indirect_eq_ok.mp hf
      refine indirect_eq_ok.mpr ⟨pointer, h.find_ok hp, ?_⟩
      rw [h.tile_eq (find_lt hp)]
      exact h.find_ok hj

theorem locate_error (h : f.Extended extra g) (hf : f.locate mode v = .error e)
    (he : ¬e.OffFloor) : g.locate mode v = .error e := by
  cases mode with
  | direct => exact find_error hf fun hr => he (.inl hr)
  | indirect =>
      rcases indirect_eq_error.mp hf with hp | ⟨pointer, hp, hj⟩
      · exact indirect_eq_error.mpr (.inl (find_error hp fun hr => he (.inr hr)))
      · refine indirect_eq_error.mpr (.inr ⟨pointer, h.find_ok hp, ?_⟩)
        rw [h.tile_eq (find_lt hp)]
        exact find_error hj fun hr => he (.inl hr)

end Extended

end Floor

variable {ι : Type}

namespace Office

structure Extended (o : Office ι) (extra : List Value) (q : Office ι) : Prop where
  worker : q.worker = o.worker
  trays : q.trays = o.trays
  floor : o.floor.Extended extra q.floor

variable {o p q : Office ι} {extra : List Value} {i : Instruction}

theorem Faults.extended {f : Fault} (h : o.Faults i f) (hf : ¬f.OffFloor)
    (hq : o.Extended extra q) : q.Faults i f := by
  refine h.transfer (congrArg Worker.hands hq.worker) ?_ ?_
  · intro mode v j hj
    exact ⟨hq.floor.locate_ok hj, hq.floor.tile_eq (Floor.locate_lt hj)⟩
  · intro mode v hj
    exact hq.floor.locate_error hj hf

variable [Inbox ι]

theorem Completes.extended (h : o.Completes i p) (hq : o.Extended extra q) :
    ∃ q', q.Completes i q' ∧ p.Extended extra q' := by
  obtain ⟨worker, floor, trays⟩ := q
  obtain ⟨rfl, rfl, hfloor⟩ := hq
  cases h with
  | inbox hr => exact ⟨_, .inbox hr, rfl, rfl, hfloor⟩
  | outbox hh => exact ⟨_, .outbox hh, rfl, rfl, hfloor⟩
  | copyFrom hj hv =>
      have ht := hfloor.tile_eq (Floor.locate_lt hj)
      refine ⟨_, .copyFrom (hfloor.locate_ok hj) (ht ▸ hv), ?_, rfl, hfloor⟩
      exact congrArg (fun v => (o.worker.hold v).advance) ht
  | copyTo hh hj =>
      exact ⟨_, .copyTo hh (hfloor.locate_ok hj), rfl, rfl, hfloor.put (Floor.locate_lt hj) _⟩
  | combine hop hx hj hy hn =>
      have ht := hfloor.tile_eq (Floor.locate_lt hj)
      exact ⟨_, .combine hop hx (hfloor.locate_ok hj) (ht.trans hy) hn, rfl, rfl, hfloor⟩
  | bump hop hj hx hn =>
      have hlt := Floor.locate_lt hj
      have ht := hfloor.tile_eq hlt
      exact ⟨_, .bump hop (hfloor.locate_ok hj) (ht.trans hx) hn, rfl, rfl, hfloor.put hlt _⟩
  | jump hb => exact ⟨_, .jump hb, rfl, rfl, hfloor⟩
  | pass hb => exact ⟨_, .pass hb, rfl, rfl, hfloor⟩

theorem Starves.extended {r : Halt} {b : ι} (h : o.Starves i r b) (hq : o.Extended extra q) :
    q.Starves i r b := by
  cases h with
  | inbox hr hd => exact .inbox (hq.trays ▸ hr) hd

end Office

namespace Machine

structure Widened (extra : List Value) (x y : Machine ι) : Prop where
  program : y.program = x.program
  config : y.config = x.config
  office : x.office.Extended extra y.office

namespace Widened

variable {extra : List Value} {x y last : Machine ι} {i : Instruction}

theorem worker (h : Widened extra x y) : y.worker = x.worker := h.office.worker

theorem live (h : Widened extra x y) (hx : x.halted = false) : y.halted = false := by
  rw [halted, h.worker]
  exact hx

theorem next (h : Widened extra x y) (hi : x.next? = some i) : y.next? = some i := by
  rw [next?, h.program, h.worker]
  exact hi

theorem lt_budget (h : Widened extra x y) (hb : x.worker.executed < x.config.budget) :
    y.worker.executed < y.config.budget := by
  rw [h.worker, h.config]
  exact hb

variable [Inbox ι]

theorem budgetHalt (h : Widened extra x y) (i : Instruction) : y.budgetHalt i = x.budgetHalt i := by
  rw [Machine.budgetHalt, Machine.budgetHalt, h.office.trays, h.config]

theorem report (h : Widened extra x y) :
    y.report = { x.report with floor := y.office.floor } := by
  rw [Machine.report, h.worker, h.office.trays]
  rfl

theorem report_stopped {x' y' : Machine ι} {r : Halt} {b : ι} (h : Widened extra x y)
    (hx : x.Stopped r b x') (hy : y.Stopped r b y') :
    ∃ hfits, y'.report = { x'.report with floor := x'.report.floor.extend extra hfits } := by
  obtain ⟨hfits, hfloor⟩ := h.office.floor.eq_extend
  rw [hx.report, hy.report, h.report, hfloor]
  exact ⟨hfits, rfl⟩

theorem stops (h : Widened extra x y) (hx : x.halted = false) (ht : x.Turn last)
    (hl : last.halted = true) (hr : ∀ f pc, last.report.halt = .fault f pc → ¬f.OffFloor) :
    ∃ y' r b, y.step = .ok y' ∧ x.Stopped r b last ∧ y.Stopped r b y' := by
  cases ht with
  | completes hi hb ho => exact absurd hl (not_halted_completing hx ho)
  | starves hi hb hs =>
      have hy := step_starves (h.live hx) (h.next hi) (h.lt_budget hb) (hs.extended h.office)
      exact ⟨_, _, _, hy, x.stopped_starving .., y.stopped_starving ..⟩
  | @faults i f hi hb hf =>
      -- only here the reason matters: off the shorter floor, the longer one may have a tile
      have hxs := x.stopped_faulting i f
      have hys := y.stopped_faulting i f
      have hf' := hf.extended (hr f x.worker.pc (by rw [hxs.report])) h.office
      rw [h.worker, h.office.trays] at hys
      exact ⟨_, _, _, step_faults (h.live hx) (h.next hi) (h.lt_budget hb) hf', hxs, hys⟩
  | ends he =>
      have he' : y.worker.pc = y.program.length := by rw [h.worker, h.program, he]
      have hys := y.stopped_halting .endOfProgram
      rw [h.office.trays] at hys
      exact ⟨_, _, _, step_ends (h.live hx) he', x.stopped_halting _, hys⟩
  | @spends i hi hb =>
      have hb' : y.config.budget ≤ y.worker.executed := by
        rw [h.worker, h.config]
        exact hb
      have hy := step_spends (h.live hx) (h.next hi) hb'
      have hys := y.stopped_halting (y.budgetHalt i)
      rw [h.budgetHalt] at hy hys
      rw [h.office.trays] at hys
      exact ⟨_, _, _, hy, x.stopped_halting _, hys⟩

end Widened

variable [Inbox ι]

theorem paces_widened (extra : List Value) :
    Paces (Widened extra : Machine ι → Machine ι → Prop) := by
  intro x y i o h hx hi hb ho
  obtain ⟨q, hq, hoq⟩ := ho.extended h.office
  refine ⟨_, step_completes (h.live hx) (h.next hi) (h.lt_budget hb) hq, ?_, ?_, ?_⟩
  · rw [program_completing, program_completing, h.program]
  · rw [config_completing, config_completing, h.config]
  · rw [office_completing, office_completing]
    exact ⟨congrArg Worker.count hoq.worker, hoq.trays, hoq.floor⟩

theorem run_extend_floor (program : Program) (floor : Floor) (extra : List Value)
    (hfits : floor.size + extra.length ≤ Floor.wordMax) (inbox : ι) (config : Config) :
    ∃ r s, (new program floor inbox config).run = .ok r ∧
      (new program (floor.extend extra hfits) inbox config).run = .ok s ∧
      ((∀ pc, r.halt ≠ .fault .addressRange pc ∧ r.halt ≠ .fault .pointerRange pc) →
        (∃ hr, s = { r with floor := r.floor.extend extra hr }) ∧
          s.floor.tiles.toList = r.floor.tiles.toList ++ extra) := by
  have hx := sound_new program floor inbox config
  have hy := sound_new program (floor.extend extra hfits) inbox config
  obtain ⟨last, hf, hl⟩ := hx.finish_halts
  obtain ⟨end₂, hf₂, hl₂⟩ := hy.finish_halts
  refine ⟨last.report, end₂.report, hx.run_eq hf hl, hy.run_eq hf₂ hl₂, fun hr => ?_⟩
  have hnew : Widened extra (new program floor inbox config)
      (new program (floor.extend extra hfits) inbox config) :=
    ⟨rfl, rfl, rfl, rfl, Floor.extended_extend hfits⟩
  obtain ⟨j, x₁, y₁, hj, h₁, hx₁, ht⟩ :=
    Paces.until_halt (paces_widened extra) hnew rfl hf hl
  have hoff : ∀ f pc, last.report.halt = .fault f pc → ¬f.OffFloor := by
    rintro f pc he (rfl | rfl)
    · exact (hr pc).1 he
    · exact (hr pc).2 he
  obtain ⟨y', r, b, hs, hxs, hys⟩ := h₁.stops hx₁ ht hl hoff
  obtain rfl : y' = end₂ := eq_of_halted (steps_add_step hj hs) hys.halted hf₂ hl₂
  obtain ⟨hr, hreport⟩ := h₁.report_stopped hxs hys
  refine ⟨⟨hr, hreport⟩, ?_⟩
  rw [hreport]
  exact (Floor.extended_extend hr).toList_tiles

theorem lookupTable_with_two_more_tiles :
    ∃ r s, (new Puzzle.lookupTable.program (.ofRoom Puzzle.lookupTable.room)
        (Batch.ofList Puzzle.lookupTable.inbox) .default).run = .ok r ∧
      (new Puzzle.lookupTable.program
        ((Floor.ofRoom Puzzle.lookupTable.room).extend [Puzzle.cap 'Z', Puzzle.zero] (by decide))
        (Batch.ofList Puzzle.lookupTable.inbox) .default).run = .ok s ∧
      r.halt = .inputExhausted ∧ s.halt = .inputExhausted ∧ s.outputs = r.outputs ∧
      s.floor.tiles.toList = r.floor.tiles.toList ++ [Puzzle.cap 'Z', Puzzle.zero] := by
  obtain ⟨r, s, hr, hs, h⟩ := run_extend_floor Puzzle.lookupTable.program
    (.ofRoom Puzzle.lookupTable.room) [Puzzle.cap 'Z', Puzzle.zero] (by decide)
    (Batch.ofList Puzzle.lookupTable.inbox) .default
  have hh : r.halt = .inputExhausted := by
    obtain rfl := Except.ok.inj hr
    rfl
  obtain ⟨⟨_, he⟩, ht⟩ := h fun pc => by
    rw [hh]
    exact ⟨nofun, nofun⟩
  refine ⟨r, s, hr, hs, hh, ?_, ?_, ht⟩
  · rw [he, hh]
  · rw [he]

end Machine

end OfficeMachine
