import OfficeMachine.Inbox.Channel
import OfficeMachine.Proofs.Lockstep
import OfficeMachine.Puzzle

namespace OfficeMachine

namespace Message

def value? : Message → Option Value
  | .value v => some v
  | .cancel => none

def before (msgs : List Message) : List Value :=
  (msgs.takeWhile (· ≠ .cancel)).filterMap value?

def after (msgs : List Message) : List Value :=
  (msgs.dropWhile (· ≠ .cancel)).filterMap value?

theorem before_append_rest (msgs : List Message) :
    msgs = (before msgs).map .value ++ msgs.dropWhile (· ≠ .cancel) := by
  induction msgs with
  | nil => rfl
  | cons m rest ih =>
      cases m with
      | value v => simpa [before, value?] using ih
      | cancel => simp [before]

theorem dropWhile_cancel (msgs : List Message) :
    (Message.cancel ∉ msgs ∧ msgs.dropWhile (· ≠ .cancel) = []) ∨
      Message.cancel ∈ msgs ∧ ∃ rest, msgs.dropWhile (· ≠ .cancel) = .cancel :: rest := by
  induction msgs with
  | nil => exact .inl ⟨by simp, rfl⟩
  | cons m rest ih =>
      cases m with
      | value v => simpa using ih
      | cancel => exact .inr ⟨by simp, rest, by simp⟩

end Message

def Report.interactive (r : Report) (budget : Nat) (msgs : List Message) : Report :=
  { r with
    remaining := r.remaining ++ Message.after msgs
    halt :=
      if r.halt = .inputExhausted then
        if r.executed = budget then .budgetExceeded budget
        else if .cancel ∈ msgs then .cancelled else .inputExhausted
      else r.halt }

namespace Channel

def Action.produces : Action → Bool
  | .send _ _ | .cancel _ | .copy _ | .drop _ => true
  | _ => false

variable {c : Channel}

theorem receive_of_value {v : Value} {rest : List Message} (hc : c.cancelled = false)
    (hq : c.queue = .value v :: rest) : Inbox.receive c = (.value v, { c with queue := rest }) := by
  simp [Inbox.receive, receive, hc, hq]

theorem receive_of_cancel {rest : List Message} (hc : c.cancelled = false)
    (hq : c.queue = .cancel :: rest) :
    Inbox.receive c = (.cancelled, { c with queue := rest, cancelled := true }) := by
  simp [Inbox.receive, receive, hc, hq]

theorem receive_of_nil (hc : c.cancelled = false) (hq : c.queue = []) :
    Inbox.receive c = (.exhausted, c) := by
  simp [Inbox.receive, receive, hc, hq]

theorem remaining_eq (c : Channel) : Inbox.remaining c = c.queue.filterMap Message.value? := by
  have hf : Message.value? = fun
      | .value v => some v
      | .cancel => none := by
    funext m
    cases m <;> rfl
  rw [hf]
  rfl

theorem cancelled_bySender {act : Channel → Answer × Channel} (s : Nat)
    (h : (act c).2.cancelled = c.cancelled) : (c.bySender s act).2.cancelled = c.cancelled := by
  unfold bySender
  split
  · exact h
  · rfl

theorem cancelled_perform {a : Action} (ha : a.produces = true) :
    (c.perform a).2.cancelled = c.cancelled := by
  cases a with
  | send s v =>
      apply cancelled_bySender
      split <;> rfl
  | cancel s =>
      apply cancelled_bySender
      split <;> rfl
  | copy s => exact cancelled_bySender s rfl
  | drop s => exact cancelled_bySender s rfl
  | _ => cases ha

theorem performAll_cons (c : Channel) (a : Action) (acts : List Action) :
    (c.performAll (a :: acts)).2 = ((c.perform a).2.performAll acts).2 := rfl

theorem cancelled_performAll {acts : List Action} (h : ∀ a ∈ acts, a.produces = true) :
    (c.performAll acts).2.cancelled = c.cancelled := by
  induction acts generalizing c with
  | nil => rfl
  | cons a rest ih =>
      have ha : a.produces = true := h a (List.mem_cons_self ..)
      have hrest : ∀ b ∈ rest, b.produces = true := fun b hb => h b (List.mem_cons_of_mem _ hb)
      rw [performAll_cons, ih hrest, cancelled_perform ha]

def Action.queueing : Message → Action
  | .value v => .send 0 v
  | .cancel => .cancel 0

theorem perform_queueing (hs : c.hasSender 0 = true) (ha : c.attached = true) (m : Message) :
    (c.perform (.queueing m)).2 = c.enqueue m := by
  cases m with
  | value v => simp [Action.queueing, perform, bySender, hs, ha]
  | cancel => simp [Action.queueing, perform, bySender, hs, ha]

theorem queue_performAll_queueing (hs : c.hasSender 0 = true) (ha : c.attached = true)
    (msgs : List Message) :
    (c.performAll (msgs.map .queueing)).2.queue = c.queue ++ msgs := by
  induction msgs generalizing c with
  | nil => exact (List.append_nil _).symm
  | cons m rest ih =>
      have hm : (c.enqueue m).queue ++ rest = c.queue ++ (m :: rest) := List.append_assoc ..
      have hr := ih (c := c.enqueue m) hs ha
      rw [List.map_cons, performAll_cons, perform_queueing hs ha, hr, hm]

theorem exists_queue_eq (msgs : List Message) :
    ∃ acts : List Action, (∀ a ∈ acts, a.produces = true) ∧
      (new.performAll acts).2.queue = msgs := by
  refine ⟨msgs.map .queueing, ?_, queue_performAll_queueing rfl rfl msgs⟩
  intro a ha
  obtain ⟨m, _, rfl⟩ := List.mem_map.mp ha
  cases m <;> rfl

def Relays (msgs : List Message) (a : Batch) (c : Channel) : Prop :=
  c.cancelled = false ∧ c.queue = a.pending.map .value ++ msgs.dropWhile (· ≠ .cancel)

theorem Relays.remaining {msgs : List Message} {a : Batch} (h : Relays msgs a c) :
    Inbox.remaining c = a.pending ++ Message.after msgs := by
  have hv : (a.pending.map Message.value).filterMap Message.value? = a.pending := by
    rw [List.filterMap_map]
    exact List.filterMap_some
  rw [remaining_eq, h.2, List.filterMap_append, hv]
  rfl

end Channel

namespace Machine

open Channel (Relays)
open Puzzle (cap)

variable {msgs : List Message} {b : Nat} {x x' : Machine Batch} {y : Machine Channel}

theorem feeds_relays (msgs : List Message) : Feeds (Relays msgs) := by
  rintro a a' c v ⟨hc, hq⟩ hr
  rw [Batch.pending_of_receive hr, List.map_cons, List.cons_append] at hq
  exact ⟨_, Channel.receive_of_value hc hq, hc, rfl⟩

def Relayed (b : Nat) (msgs : List Message) (last : Machine Batch) (y : Machine Channel) : Prop :=
  ∃ y', y.step = .ok y' ∧ y'.halted = true ∧ y'.report = last.report.interactive b msgs

theorem relayed_of_stopped {y' : Machine Channel} {r : Halt} (h : Abreast (Relays msgs) b b x y)
    (hs : y.step = .ok y') (hx : x.Stopped r x.office.trays.inbox x')
    (hy : y.Stopped r y.office.trays.inbox y') (hr : r ≠ .inputExhausted) :
    Relayed b msgs x' y := by
  have hhalt : x'.report.halt = r := by rw [hx.report]
  have hrem : Inbox.remaining y.office.trays.inbox = x'.report.remaining ++ Message.after msgs := by
    rw [hx.report]
    exact h.agree.inbox.remaining
  refine ⟨y', hs, hy.halted, ?_⟩
  rw [h.agree.report_stopped hx hy, Report.interactive, hhalt, if_neg hr, hrem]

theorem relayed_of_exhausted {y' : Machine Channel} {a : Channel} {r : Halt}
    (h : Abreast (Relays msgs) b b x y) (hs : y.step = .ok y')
    (hx : x.Stopped .inputExhausted x.office.trays.inbox x') (hy : y.Stopped r a y')
    (ha : Inbox.remaining a = x.office.trays.inbox.pending ++ Message.after msgs)
    (hr : r = if x.worker.executed = b then .budgetExceeded b
      else if .cancel ∈ msgs then .cancelled else .inputExhausted) : Relayed b msgs x' y := by
  refine ⟨y', hs, hy.halted, ?_⟩
  rw [h.agree.report_stopped hx hy, hx.report, ha, hr, Report.interactive, if_pos rfl]
  rfl

theorem relayed_of_starving (h : Abreast (Relays msgs) b b x y) (hi : x.next? = some .inbox)
    (hp : x.office.trays.inbox.pending = [])
    (hx : x.Stopped .inputExhausted x.office.trays.inbox x') (hlt : x.worker.executed < b) :
    Relayed b msgs x' y := by
  obtain ⟨hc, hq⟩ := h.agree.inbox
  have hrem := h.agree.inbox.remaining
  have hb := h.lt_right (Nat.le_refl b) (h.first ▸ hlt)
  have hne : x.worker.executed ≠ b := Nat.ne_of_lt hlt
  rw [hp, List.map_nil, List.nil_append] at hq
  rcases Message.dropWhile_cancel msgs with ⟨hm, hd⟩ | ⟨hm, rest, hd⟩
  · have hs : y.office.Starves .inbox .inputExhausted y.office.trays.inbox :=
      .inbox (Channel.receive_of_nil hc (hq.trans hd)) rfl
    apply relayed_of_exhausted h (step_starves h.live_right (h.next_right hi) hb hs) hx
      (y.stopped_starving ..) hrem
    rw [if_neg hne, if_neg hm]
  · have hs := Office.Starves.inbox (Channel.receive_of_cancel hc (hq.trans hd)) rfl
    apply relayed_of_exhausted h (step_starves h.live_right (h.next_right hi) hb hs) hx
      (y.stopped_starving ..)
    · rw [Channel.remaining_eq, hp, Message.after, hd]
      rfl
    · rw [if_neg hne, if_pos hm]

theorem relayed_of_parting (h : Abreast (Relays msgs) b b x y) (hp : Parting b x x' y) :
    Relayed b msgs x' y := by
  -- a channel never knows ahead of a request that it has nothing left
  have hopen (i : Instruction) :
      ¬(i = .inbox ∧ Inbox.exhausted y.office.trays.inbox = true) := fun hc => nomatch hc.2
  cases hp with
  | together hs hx hy hr _ => exact relayed_of_stopped h hs hx hy hr
  | exhausted hi hp hx =>
      have hle : x.worker.executed ≤ b := h.first ▸ h.sound.executed_le
      rcases Nat.lt_or_eq_of_le hle with hlt | he
      · exact relayed_of_starving h hi hp hx hlt
      · apply relayed_of_exhausted h (h.step_spent hi he (hopen _)) hx (y.stopped_halting _)
          h.agree.inbox.remaining
        rw [if_pos he]
  | spent hi _ he hx =>
      exact relayed_of_stopped h (h.step_spent hi he (hopen _)) hx (y.stopped_halting _) nofun

theorem interactive_run_matches_batch (program : Program) (floor : Floor) (config : Config)
    (msgs : List Message) :
    (∃ acts : List Channel.Action, (∀ a ∈ acts, a.produces = true) ∧
      (Channel.new.performAll acts).2.queue = msgs) ∧
    ∀ acts : List Channel.Action, (∀ a ∈ acts, a.produces = true) →
      (Channel.new.performAll acts).2.queue = msgs →
      ∃ r, (new program floor (Batch.ofList (Message.before msgs)) config).run = .ok r ∧
        (new program floor (Channel.new.performAll acts).2.close config).run =
          .ok (r.interactive config.budget msgs) := by
  refine ⟨Channel.exists_queue_eq msgs, ?_⟩
  intro acts hacts hmsgs
  have hS : Relays msgs (Batch.ofList (Message.before msgs))
      (Channel.new.performAll acts).2.close := by
    refine ⟨Channel.cancelled_performAll hacts, ?_⟩
    exact hmsgs.trans (Message.before_append_rest msgs)
  have h := abreast_new hS program floor config config
  obtain ⟨j, last, x, y, hr, hj, ha, ht, hl⟩ :=
    h.exists_last_turn (feeds_relays msgs) (Nat.le_refl _)
  obtain ⟨y', hy, hyh, hrep⟩ := relayed_of_parting ha (ha.parting (Nat.le_refl _) ht hl)
  refine ⟨_, hr, ?_⟩
  rw [(h.sound_right (Nat.le_refl _)).run_eq (steps_add_step hj hy) hyh, hrep]

theorem busyMailRoom_cancelled :
    ∃ acts : List Channel.Action, (∀ a ∈ acts, a.produces = true) ∧
      (Channel.new.performAll acts).2.queue =
        [.value (cap 'B'), .cancel, .value (cap 'O'), .cancel, .value (cap 'T')] ∧
      ∃ r, (new Puzzle.busyMailRoom.program (.ofSize 0) (Batch.ofList [cap 'B']) ⟨9, false⟩).run =
          .ok r ∧ r.halt = .inputExhausted ∧
        (new Puzzle.busyMailRoom.program (.ofSize 0) (Channel.new.performAll acts).2.close
            ⟨9, false⟩).run =
          .ok { r with remaining := r.remaining ++ [cap 'O', cap 'T'], halt := .cancelled } := by
  have hacts : ∀ a ∈ [Channel.Action.send 0 (cap 'B'), .copy 0, .cancel 1, .send 1 (cap 'O'),
      .drop 1, .cancel 0, .send 1 (cap 'E'), .send 0 (cap 'T')], a.produces = true := by decide
  obtain ⟨r, hr, hc⟩ := (interactive_run_matches_batch Puzzle.busyMailRoom.program (.ofSize 0)
    ⟨9, false⟩ _).2 _ hacts rfl
  refine ⟨_, hacts, rfl, r, hr, ?_, ?_⟩
  · obtain rfl := Except.ok.inj hr
    rfl
  · rw [hc]
    obtain rfl := Except.ok.inj hr
    rfl

end Machine

end OfficeMachine
