import OfficeMachine.Proofs.Interactive

namespace OfficeMachine.Channel

abbrev Log := List (Action × Answer)

def log (c : Channel) (acts : List Action) : Log := acts.zip (c.performAll acts).1

theorem log_cons (c : Channel) (a : Action) (acts : List Action) :
    c.log (a :: acts) = (a, (c.perform a).1) :: (c.perform a).2.log acts := rfl

namespace Log

def sentBy : Action × Answer → Option Message
  | (.send _ v, .sent) => some (.value v)
  | (.cancel _, .done) => some .cancel
  | _ => none

def sent (l : Log) : List Message := l.filterMap sentBy

def sentValues (l : Log) : List Value := l.sent.filterMap Message.value?

def handedOutBy : Action × Answer → List Value
  | (.receive, .delivery (.value v)) => [v]
  | (.drain, .values vs) => vs
  | _ => []

def handedOut (l : Log) : List Value := l.flatMap handedOutBy

def Made (l : Log) (s : Nat) : Prop := s = 0 ∨ ∃ r, (.copy r, .sender s) ∈ l

theorem made_concat {l : Log} {e : Action × Answer} {s : Nat} :
    Made (l ++ [e]) s ↔ Made l s ∨ ∃ r, e = (.copy r, .sender s) := by
  simp only [Made, List.mem_append, List.mem_singleton, exists_or, eq_comm (b := e), or_assoc]

end Log

open Log (sentBy sent sentValues handedOutBy handedOut Made)
open Puzzle (cap)

def Action.sender? : Action → Option Nat
  | .send s _ | .cancel s | .copy s | .drop s => some s
  | _ => none

inductive Performs (c : Channel) : Action → Answer → Channel → Prop
  | lacks {a : Action} {s : Nat} : a.sender? = some s → c.hasSender s = false →
      Performs c a .noSender c
  | sends {s : Nat} {v : Value} : c.hasSender s = true → c.attached = true →
      Performs c (.send s v) .sent (c.enqueue (.value v))
  | returns {s : Nat} {v : Value} : c.hasSender s = true → c.attached = false →
      Performs c (.send s v) (.returned v) c
  | cancels {s : Nat} : c.hasSender s = true → c.attached = true →
      Performs c (.cancel s) .done (c.enqueue .cancel)
  | loses {s : Nat} : c.hasSender s = true → c.attached = false → Performs c (.cancel s) .done c
  | copies {s : Nat} : c.hasSender s = true →
      Performs c (.copy s) (.sender c.senders.length) { c with senders := c.senders ++ [true] }
  | drops {s : Nat} : c.hasSender s = true →
      Performs c (.drop s) .done { c with senders := c.senders.set s false }
  | unheard {a : Action} : a.sender? = none → c.attached = false → Performs c a .noInbox c
  | waits : c.attached = true → c.cancelled = false → c.queue = [] → c.senders.any id = true →
      Performs c .receive .waiting c
  | exhausts : c.attached = true → c.cancelled = false → c.queue = [] →
      c.senders.any id = false → Performs c .receive (.delivery .exhausted) c
  | takes {v : Value} {rest : List Message} : c.attached = true → c.cancelled = false →
      c.queue = .value v :: rest →
      Performs c .receive (.delivery (.value v)) { c with queue := rest }
  | reaches {rest : List Message} : c.attached = true → c.cancelled = false →
      c.queue = .cancel :: rest →
      Performs c .receive (.delivery .cancelled) { c with queue := rest, cancelled := true }
  | refuses : c.attached = true → c.cancelled = true →
      Performs c .receive (.delivery .cancelled) c
  | drains : c.attached = true → Performs c .drain (.values c.values) { c with queue := [] }
  | asks : c.attached = true → Performs c .isExhausted (.flag false) c
  | detaches : c.attached = true →
      Performs c .detach .done { c with queue := [], attached := false }

variable {c c' : Channel} {a : Action} {r : Answer} {acts : List Action}

theorem performs_bySender {act : Channel → Answer × Channel} {s : Nat} (ha : a.sender? = some s)
    (h : c.hasSender s = true → Performs c a (act c).1 (act c).2) :
    Performs c a (c.bySender s act).1 (c.bySender s act).2 := by
  unfold bySender
  split
  · next hs => exact h hs
  · next hs => exact .lacks ha (Bool.eq_false_iff.mpr hs)

theorem performs_byReader {act : Channel → Answer × Channel} (ha : a.sender? = none)
    (h : c.attached = true → Performs c a (act c).1 (act c).2) :
    Performs c a (c.byReader act).1 (c.byReader act).2 := by
  unfold byReader
  split
  · next hc => exact h hc
  · next hc => exact .unheard ha (Bool.eq_false_iff.mpr hc)

theorem performs_receive (hc : c.attached = true) :
    Performs c .receive (c.perform .receive).1 (c.perform .receive).2 := by
  cases hx : c.cancelled with
  | true =>
      have hr : c.perform .receive = (.delivery .cancelled, c) := by
        simp [perform, byReader, waits, receive, hc, hx]
      rw [hr]
      exact .refuses hc hx
  | false =>
      cases hq : c.queue with
      | cons m rest =>
          cases m with
          | value v =>
              have hr : c.perform .receive = (.delivery (.value v), { c with queue := rest }) := by
                simp [perform, byReader, waits, receive, hc, hx, hq]
              rw [hr]
              exact .takes hc hx hq
          | cancel =>
              have hr : c.perform .receive =
                  (.delivery .cancelled, { c with queue := rest, cancelled := true }) := by
                simp [perform, byReader, waits, receive, hc, hx, hq]
              rw [hr]
              exact .reaches hc hx hq
      | nil =>
          cases hs : c.senders.any id with
          | true =>
              have hr : c.perform .receive = (.waiting, c) := by
                simp [perform, byReader, waits, hc, hx, hq, hs]
              rw [hr]
              exact .waits hc hx hq hs
          | false =>
              have hr : c.perform .receive = (.delivery .exhausted, c) := by
                simp [perform, byReader, waits, receive, hc, hx, hq, hs]
              rw [hr]
              exact .exhausts hc hx hq hs

theorem performs (c : Channel) (a : Action) : Performs c a (c.perform a).1 (c.perform a).2 := by
  cases a with
  | send s v =>
      refine performs_bySender rfl fun hs => ?_
      split
      · next hc => exact .sends hs hc
      · next hc => exact .returns hs (Bool.eq_false_iff.mpr hc)
  | cancel s =>
      refine performs_bySender rfl fun hs => ?_
      split
      · next hc => exact .cancels hs hc
      · next hc => exact .loses hs (Bool.eq_false_iff.mpr hc)
  | copy s => exact performs_bySender rfl .copies
  | drop s => exact performs_bySender rfl .drops
  | receive =>
      cases hc : c.attached with
      | true => exact performs_receive hc
      | false =>
          have hr : c.perform .receive = (.noInbox, c) := by simp [perform, byReader, hc]
          rw [hr]
          exact .unheard rfl hc
  | drain => exact performs_byReader rfl .drains
  | isExhausted => exact performs_byReader rfl .asks
  | detach => exact performs_byReader rfl .detaches

namespace Performs

theorem attached (h : Performs c a r c') :
    c'.attached = false ↔ c.attached = false ∨ (a, r) = (.detach, .done) := by
  cases h with
  | detaches hc => simp
  | _ => simp [enqueue]

theorem attached_of_ne (h : Performs c a r c') (hc : c.attached = true)
    (hr : (a, r) ≠ (.detach, .done)) : c'.attached = true := by
  cases hc' : c'.attached with
  | true => rfl
  | false =>
      rcases h.attached.mp hc' with hn | hn
      · cases hc.symm.trans hn
      · exact absurd hn hr

theorem accounts (h : Performs c a r c') (hc : c.attached = true) (hr : (a, r) ≠ (.detach, .done)) :
    ∃ taken, c.queue ++ sent [(a, r)] = taken ++ c'.queue ∧
      taken.filterMap Message.value? = handedOut [(a, r)] := by
  cases h with
  | lacks ha hs =>
      refine ⟨[], ?_, ?_⟩
      · cases a <;> simp [sent, sentBy]
      · cases a <;> simp [handedOut, handedOutBy]
  | loses hs hn | unheard ha hn => cases hc.symm.trans hn
  | @takes v rest _ hx hq => exact ⟨[.value v], by simp [hq, sent, sentBy], rfl⟩
  | @reaches rest _ hx hq => exact ⟨[.cancel], by simp [hq, sent, sentBy], rfl⟩
  | drains =>
      refine ⟨c.queue, rfl, ?_⟩
      rw [← remaining_eq]
      exact (List.append_nil _).symm
  | detaches => exact absurd rfl hr
  | sends hs | cancels hs => exact ⟨[], rfl, rfl⟩
  | _ => exact ⟨[], List.append_nil _, rfl⟩

theorem cancelled (h : Performs c a r c') :
    c'.cancelled = true ↔ c.cancelled = true ∨ (a, r) = (.receive, .delivery .cancelled) := by
  cases h with
  | refuses _ hx => simp [hx]
  | _ => simp [enqueue]

theorem sticky (h : Performs c .receive r c') (hc : c.attached = true) (hx : c.cancelled = true) :
    r = .delivery .cancelled := by
  cases h with
  | lacks hs => cases hs
  | unheard _ hn => cases hc.symm.trans hn
  | waits _ hn | exhausts _ hn | takes _ hn => cases hx.symm.trans hn
  | reaches | refuses => rfl

theorem lt_senders (h : Performs c a r c') (s : Nat) :
    s < c'.senders.length ↔ s < c.senders.length ∨ ∃ k, (a, r) = (.copy k, .sender s) := by
  cases h with
  | copies hs =>
      simp only [List.length_append, List.length_singleton, Prod.mk.injEq, Action.copy.injEq,
        Answer.sender.injEq, exists_and_right, exists_eq', true_and]
      omega
  | drops hs => simp
  | _ => simp [enqueue]

theorem gone (h : Performs c a r c') (s : Nat) :
    s < c'.senders.length ∧ c'.hasSender s = false ↔
      s < c.senders.length ∧ c.hasSender s = false ∨ (a, r) = (.drop s, .done) := by
  cases h with
  | @copies k hk =>
      rcases Nat.lt_trichotomy s c.senders.length with hs | rfl | hs
      · simp [hasSender, hs, Nat.lt_succ_of_lt hs]
      · simp [hasSender]
      · simp [Nat.not_lt.mpr hs, Nat.not_lt_of_lt hs]
  | @drops k hk =>
      have hlt : k < c.senders.length := by
        apply Nat.lt_of_not_le
        intro hle
        simp [hasSender, hle] at hk
      by_cases hs : k = s
      · subst hs
        simp [hasSender, hlt]
      · simp [hasSender, hs]
  | _ => simp [enqueue, hasSender]

end Performs

structure Tells (l : Log) (c : Channel) : Prop where
  attached : c.attached = false ↔ (.detach, .done) ∈ l
  cancelled : c.cancelled = true ↔ (.receive, .delivery .cancelled) ∈ l
  made (s : Nat) : s < c.senders.length ↔ Made l s
  gone (s : Nat) : s < c.senders.length ∧ c.hasSender s = false ↔ (.drop s, .done) ∈ l

namespace Tells

variable {l : Log}

theorem concat (h : Tells l c) (hp : Performs c a r c') : Tells (l ++ [(a, r)]) c' where
  attached := by
    rw [hp.attached, h.attached, List.mem_append, List.mem_singleton, eq_comm (a := (a, r))]
  cancelled := by
    rw [hp.cancelled, h.cancelled, List.mem_append, List.mem_singleton, eq_comm (a := (a, r))]
  made s := by rw [hp.lt_senders, h.made, Log.made_concat]
  gone s := by rw [hp.gone, h.gone, List.mem_append, List.mem_singleton, eq_comm (a := (a, r))]

theorem performAll (h : Tells l c) (acts : List Action) :
    Tells (l ++ c.log acts) (c.performAll acts).2 := by
  induction acts generalizing l c with
  | nil =>
      have hl : l ++ c.log [] = l := List.append_nil l
      rw [hl]
      exact h
  | cons a acts ih =>
      rw [log_cons, performAll_cons, List.append_cons]
      exact ih (h.concat (c.performs a))

theorem new : Tells [] new where
  attached := ⟨nofun, nofun⟩
  cancelled := ⟨nofun, nofun⟩
  made s := by simp [Channel.new, Made]
  gone s := by
    constructor
    · rintro ⟨hs, hn⟩
      obtain rfl : s = 0 := Nat.lt_one_iff.mp hs
      cases hn
    · nofun

theorem attached_of_not_mem (h : Tells l c) (hl : (.detach, .done) ∉ l) : c.attached = true :=
  Bool.not_eq_false _ ▸ mt h.attached.mp hl

theorem any_senders (h : Tells l c) :
    c.senders.any id = false ↔ ∀ s, Made l s → (.drop s, .done) ∈ l := by
  simp only [← h.made, ← h.gone, hasSender]
  constructor
  · intro hn s hs
    refine ⟨hs, ?_⟩
    have hs' := List.any_eq_false.mp hn _ (List.getElem_mem hs)
    simpa [hs] using hs'
  · intro hn
    refine List.any_eq_false.mpr fun b hb => ?_
    obtain ⟨s, hs, rfl⟩ := List.getElem_of_mem hb
    have hs' := (hn s hs).2
    simpa [hs] using hs'

theorem receive_cancelled (h : Tells l c) (hl : (.detach, .done) ∉ l) :
    (c.perform .receive).1 = .delivery .cancelled ↔
      (.receive, .delivery .cancelled) ∈ l ∨ c.queue.head? = some .cancel := by
  rw [← h.cancelled]
  have hp := c.performs .receive
  have hc := h.attached_of_not_mem hl
  generalize (c.perform .receive).1 = r, (c.perform .receive).2 = c' at hp
  cases hp with
  | lacks ha => cases ha
  | unheard _ hn => cases hc.symm.trans hn
  | waits _ hx hq | exhausts _ hx hq | takes _ hx hq | reaches _ hx hq => simp [hx, hq]
  | refuses _ hx => simp [hx]

theorem receive_exhausted (h : Tells l c) (hl : (.detach, .done) ∉ l) :
    (c.perform .receive).1 = .delivery .exhausted ↔
      (.receive, .delivery .cancelled) ∉ l ∧ c.queue = [] ∧
        ∀ s, Made l s → (.drop s, .done) ∈ l := by
  rw [← h.cancelled, ← h.any_senders]
  have hp := c.performs .receive
  have hc := h.attached_of_not_mem hl
  generalize (c.perform .receive).1 = r, (c.perform .receive).2 = c' at hp
  cases hp with
  | lacks ha => cases ha
  | unheard _ hn => cases hc.symm.trans hn
  | waits _ hx hq hs | exhausts _ hx hq hs => simp [hx, hq, hs]
  | takes _ hx hq | reaches _ hx hq => simp [hq]
  | refuses _ hx => simp [hx]

theorem send (h : Tells l c) {s : Nat} (hm : Made l s) (hs : (.drop s, .done) ∉ l) (v : Value) :
    (c.perform (.send s v)).1 = if (.detach, .done) ∈ l then .returned v else .sent := by
  have hlt : s < c.senders.length := (h.made s).mpr hm
  have hp := c.performs (.send s v)
  generalize (c.perform (.send s v)).1 = r, (c.perform (.send s v)).2 = c' at hp
  cases hp with
  | lacks ha hn =>
      cases ha
      exact absurd ((h.gone s).mp ⟨hlt, hn⟩) hs
  | sends _ hc =>
      have hl : (.detach, .done) ∉ l := fun hl => nomatch hc.symm.trans (h.attached.mpr hl)
      exact (if_neg hl).symm
  | returns _ hc => exact (if_pos (h.attached.mp hc)).symm
  | unheard ha => cases ha

end Tells

theorem accounts_performAll (hc : c.attached = true) (hl : (.detach, .done) ∉ c.log acts) :
    ∃ taken, c.queue ++ sent (c.log acts) = taken ++ (c.performAll acts).2.queue ∧
      taken.filterMap Message.value? = handedOut (c.log acts) := by
  induction acts generalizing c with
  | nil => exact ⟨[], List.append_nil _, rfl⟩
  | cons a acts ih =>
      rw [log_cons] at hl ⊢
      obtain ⟨hr, hl⟩ := List.ne_and_not_mem_of_not_mem_cons hl
      have hp := c.performs a
      obtain ⟨first, hq, hv⟩ := hp.accounts hc hr.symm
      have hc' : (c.perform a).2.attached = true := hp.attached_of_ne hc hr.symm
      obtain ⟨rest, hq', hv'⟩ := ih hc' hl
      have hsent : sent ((a, (c.perform a).1) :: (c.perform a).2.log acts) =
          sent [(a, (c.perform a).1)] ++ sent ((c.perform a).2.log acts) :=
        List.filterMap_append (l := [_])
      refine ⟨first ++ rest, ?_, ?_⟩
      · rw [hsent, ← List.append_assoc, hq, List.append_assoc, hq', performAll_cons,
          List.append_assoc]
      · rw [List.filterMap_append, hv, hv']
        simp [handedOut]

theorem sentValues_eq (hc : c.attached = true) (hl : (.detach, .done) ∉ c.log acts) :
    c.values ++ sentValues (c.log acts) =
      handedOut (c.log acts) ++ (c.performAll acts).2.values := by
  obtain ⟨taken, hq, hv⟩ := accounts_performAll hc hl
  have h := congrArg (List.filterMap Message.value?) hq
  rwa [List.filterMap_append, List.filterMap_append, hv, ← remaining_eq, ← remaining_eq] at h

theorem reads_cancelled (hc : c.attached = true) (hx : c.cancelled = true)
    (hl : (.detach, .done) ∉ c.log acts) :
    ∀ r, (.receive, r) ∈ c.log acts → r = .delivery .cancelled := by
  induction acts generalizing c with
  | nil => intro r hr; cases hr
  | cons a acts ih =>
      rw [log_cons] at hl ⊢
      obtain ⟨hne, hl⟩ := List.ne_and_not_mem_of_not_mem_cons hl
      intro r hr
      have hp := c.performs a
      rcases List.mem_cons.mp hr with h | h
      · obtain ⟨rfl, rfl⟩ := Prod.mk.inj h
        exact hp.sticky hc hx
      · exact ih (hp.attached_of_ne hc hne.symm) (hp.cancelled.mpr (.inl hx)) hl r h

theorem exists_cancel_of_queue {l : Log} {taken rest : List Message}
    (h : sent l = taken ++ .cancel :: rest) :
    ∃ before s after, l = before ++ (.cancel s, .done) :: after ∧ sent before = taken ∧
      sent after = rest := by
  obtain ⟨l₁, l₂, rfl, h₁, h₂⟩ := List.filterMap_eq_append_iff.mp h
  obtain ⟨l₃, e, after, rfl, h₃, he, hafter⟩ := List.filterMap_eq_cons_iff.mp h₂
  obtain ⟨s, rfl⟩ : ∃ s, e = (.cancel s, .done) := by
    unfold sentBy at he
    split at he
    · cases he
    · exact ⟨_, rfl⟩
    · cases he
  refine ⟨l₁ ++ l₃, s, after, (List.append_assoc ..).symm, ?_, hafter⟩
  have hnone : sent l₃ = [] := List.filterMap_eq_nil_iff.mpr h₃
  rw [sent, List.filterMap_append, h₁]
  exact (congrArg _ hnone).trans (List.append_nil _)

theorem channel_keeps_every_value (acts : List Action) :
    ∃ l c, new.log acts = l ∧ (new.performAll acts).2 = c ∧
      ((.detach, .done) ∉ l →
        sentValues l = handedOut l ++ c.values ∧
        ((c.perform .receive).1 = .delivery .cancelled ↔
          (.receive, .delivery .cancelled) ∈ l ∨ c.queue.head? = some .cancel) ∧
        ((c.perform .receive).1 = .delivery .exhausted ↔
          (.receive, .delivery .cancelled) ∉ l ∧ c.queue = [] ∧
            ∀ s, Made l s → (.drop s, .done) ∈ l) ∧
        ((c.perform .receive).1 = .delivery .cancelled → (.receive, .delivery .cancelled) ∉ l →
          ∃ before s after, l = before ++ (.cancel s, .done) :: after ∧
            handedOut l = sentValues before ∧ c.queue = .cancel :: sent after ∧
            ∀ later, (.detach, .done) ∉ c.log (.receive :: later) →
              (∀ r, (.receive, r) ∈ c.log (.receive :: later) → r = .delivery .cancelled) ∧
              sentValues after ++ sentValues (c.log (.receive :: later)) =
                handedOut (c.log (.receive :: later)) ++
                  (c.performAll (.receive :: later)).2.values)) ∧
      ∀ s v, Made l s → (.drop s, .done) ∉ l →
        (c.perform (.send s v)).1 = if (.detach, .done) ∈ l then .returned v else .sent := by
  have ht : Tells (new.log acts) (new.performAll acts).2 := Tells.new.performAll acts
  refine ⟨_, _, rfl, rfl, ?_, fun s v hm hs => ht.send hm hs v⟩
  intro hl
  have hc := ht.attached_of_not_mem hl
  refine ⟨sentValues_eq (c := new) rfl hl, ht.receive_cancelled hl, ht.receive_exhausted hl, ?_⟩
  intro hr hnone
  obtain ⟨taken, hq, hv⟩ := accounts_performAll (c := new) rfl hl
  have hhead := ((ht.receive_cancelled hl).mp hr).resolve_left hnone
  obtain ⟨rest, hrest⟩ := List.head?_eq_some_iff.mp hhead
  rw [hrest] at hq
  obtain ⟨before, s, after, hsplit, hbefore, hafter⟩ := exists_cancel_of_queue hq
  refine ⟨before, s, after, hsplit, ?_, hafter ▸ hrest, ?_⟩
  · rw [sentValues, hbefore, hv]
  · intro later hlater
    refine ⟨?_, ?_⟩
    · have hp := (new.performAll acts).2.performs .receive
      rw [log_cons, hr] at hlater ⊢
      intro r hmem
      rcases List.mem_cons.mp hmem with h | h
      · exact (Prod.mk.inj h).2
      · exact reads_cancelled (hp.attached_of_ne hc (by rw [hr]; nofun))
          (hp.cancelled.mpr (.inr (by rw [hr]))) (List.not_mem_of_not_mem_cons hlater) r h
    · have hvalues : sentValues after = (new.performAll acts).2.values := by
        have hqueue := remaining_eq (new.performAll acts).2
        rw [hrest, ← hafter] at hqueue
        exact hqueue.symm
      rw [hvalues]
      exact sentValues_eq hc hlater

theorem second_cancellation_parts_values :
    ∃ acts c, acts = [Action.send 0 (cap 'A'), .copy 0, .send 1 (cap 'B'), .receive, .cancel 1, .drain,
        .send 0 (cap 'C'), .cancel 0, .drop 0, .send 1 (cap 'D'), .receive] ∧
      (new.performAll acts).2 = c ∧ (.detach, .done) ∉ new.log acts ∧
      (c.perform .receive).1 = .delivery .cancelled ∧
      (.receive, .delivery .cancelled) ∉ new.log acts ∧
      (∃ before s after, new.log acts = before ++ (.cancel s, .done) :: after ∧
        sentValues before = [cap 'A', cap 'B', cap 'C'] ∧ sentValues after = [cap 'D'] ∧
        handedOut (c.log [.receive, .receive, .drain]) = sentValues after) ∧
      (c.perform (.send 1 (cap 'E'))).1 = .sent := by
  obtain ⟨_, _, rfl, rfl, hkeep, hsend⟩ := channel_keeps_every_value [Action.send 0 (cap 'A'),
    .copy 0, .send 1 (cap 'B'), .receive, .cancel 1, .drain, .send 0 (cap 'C'), .cancel 0, .drop 0,
    .send 1 (cap 'D'), .receive]
  obtain ⟨_, _, _, hparts⟩ := hkeep (by decide)
  obtain ⟨before, s, after, hl, hbefore, hafter, hlater⟩ := hparts rfl (by decide)
  refine ⟨_, _, rfl, rfl, by decide, rfl, by decide, ⟨before, s, after, hl, hbefore.symm, ?_, ?_⟩,
    hsend 1 _ (.inr ⟨0, by decide⟩) (by decide)⟩
  · exact congrArg (List.filterMap Message.value?) (List.tail_eq_of_cons_eq hafter).symm
  · have h := (hlater [.receive, .drain] (by decide)).2
    exact h.symm.trans (List.append_nil _)

end OfficeMachine.Channel
