import OfficeMachine.Puzzle

namespace OfficeMachine.Batch

open Puzzle (cap)

abbrev Log := List (Request × Answer)

def log (b : Batch) (requests : List Request) : Log := requests.zip (b.answerAll requests).1

def receivedBy : Request × Answer → Option Value
  | (.receive, .delivery (.value v)) => some v
  | _ => none

def received (l : Log) : List Value := l.filterMap receivedBy

variable {b b' : Batch} {q : Request} {a : Answer} {values : List Value} {l : Log}

theorem log_cons (b : Batch) (q : Request) (requests : List Request) :
    b.log (q :: requests) = (q, (b.answer q).1) :: (b.answer q).2.log requests := rfl

theorem answerAll_cons (b : Batch) (q : Request) (requests : List Request) :
    (b.answerAll (q :: requests)).2 = ((b.answer q).2.answerAll requests).2 := rfl

theorem log_append (b : Batch) (requests later : List Request) :
    b.log (requests ++ later) = b.log requests ++ (b.answerAll requests).2.log later := by
  induction requests generalizing b with
  | nil => rfl
  | cons q requests ih =>
      rw [List.cons_append, log_cons, log_cons, answerAll_cons, ih]
      rfl

inductive Answers (b : Batch) : Request → Answer → Batch → Prop
  | takes (h : b.cursor < b.values.size) :
      Answers b .receive (.delivery (.value b.values[b.cursor])) ⟨b.values, b.cursor + 1, h⟩
  | lacks (h : b.pending = []) : Answers b .receive (.delivery .exhausted) b
  | shows : Answers b .remaining (.values b.pending) b
  | foresees : Answers b .exhausted (.flag (Inbox.exhausted b)) b
  | counts : Answers b .consumed (.count b.consumed) b

theorem answers (b : Batch) (q : Request) : Answers b q (b.answer q).1 (b.answer q).2 := by
  cases q with
  | receive =>
      by_cases h : b.cursor < b.values.size
      · have hr : b.receive = (.value b.values[b.cursor], ⟨b.values, b.cursor + 1, h⟩) :=
          receive_of_lt h
        rw [answer, hr]
        exact .takes h
      · have hp := pending_eq_nil.mpr (Nat.not_lt.mp h)
        have hr : b.receive = (.exhausted, b) := receive_of_nil hp
        rw [answer, hr]
        exact .lacks hp
  | remaining => exact .shows
  | exhausted => exact .foresees
  | consumed => exact .counts

namespace Answers

theorem unchanged (h : Answers b q a b') (hq : q ≠ .receive ∨ a = .delivery .exhausted) :
    b' = b := by
  cases h with
  | takes =>
      rcases hq with hq | hq
      · exact absurd rfl hq
      · cases hq
  | _ => rfl

theorem not_cancelled (h : Answers b q a b') : a ≠ .delivery .cancelled := by
  cases h <;> nofun

theorem lacks_iff (h : Answers b .receive a b') :
    a = .delivery .exhausted ↔ b.pending = [] := by
  cases h with
  | takes hlt => simp [pending_of_lt hlt]
  | lacks hp => simp [hp]

end Answers

structure Follows (values : List Value) (l : Log) (b : Batch) : Prop where
  held : b.values.toList = values
  given : received l = values.take b.cursor

namespace Follows

theorem ofList (values : List Value) : Follows values [] (ofList values) := ⟨rfl, rfl⟩

theorem concat (h : Follows values l b) (ha : Answers b q a b') :
    Follows values (l ++ [(q, a)]) b' := by
  have hreceived : received (l ++ [(q, a)]) = received l ++ received [(q, a)] :=
    List.filterMap_append
  cases ha with
  | takes hlt =>
      refine ⟨h.held, ?_⟩
      rw [hreceived, h.given, ← h.held]
      exact (List.take_succ_eq_append_getElem hlt).symm
  | _ => exact ⟨h.held, (hreceived.trans (List.append_nil _)).trans h.given⟩

theorem answerAll (h : Follows values l b) (requests : List Request) :
    Follows values (l ++ b.log requests) (b.answerAll requests).2 := by
  induction requests generalizing l b with
  | nil =>
      have hl : l ++ b.log [] = l := List.append_nil l
      rw [hl]
      exact h
  | cons q requests ih =>
      rw [log_cons, answerAll_cons, List.append_cons]
      exact ih (h.concat (b.answers q))

theorem cursor_le (h : Follows values l b) : b.cursor ≤ values.length := by
  rw [← h.held]
  exact b.inside

theorem cursor_eq (h : Follows values l b) : b.cursor = (received l).length := by
  rw [h.given, List.length_take, Nat.min_eq_left h.cursor_le]

theorem pending_eq (h : Follows values l b) : b.pending = values.drop b.cursor := by
  rw [pending, h.held]

theorem whole (h : Follows values l b) : received l ++ b.pending = values := by
  rw [h.given, h.pending_eq, List.take_append_drop]

end Follows

theorem batch_hands_out_in_order (values : List Value) (requests : List Request) :
    ∃ l b, (ofList values).log requests = l ∧ ((ofList values).answerAll requests).2 = b ∧
      (∃ rest, (b.answer .remaining).1 = .values rest ∧ received l ++ rest = values ∧
        rest = values.drop (received l).length) ∧
      (b.answer .consumed).1 = .count (received l).length ∧
      (received l).length ≤ values.length ∧
      (∃ e, (b.answer .exhausted).1 = .flag e ∧
        (e = true ↔ (b.answer .receive).1 = .delivery .exhausted)) ∧
      ((b.answer .receive).1 = .delivery .exhausted → (b.answer .receive).2 = b) ∧
      (b.answer .receive).1 ≠ .delivery .cancelled ∧
      ∀ q later, q ≠ .receive →
        (ofList values).log (requests ++ later) = l ++ b.log later ∧
        (ofList values).log (requests ++ q :: later) =
          l ++ (q, (b.answer q).1) :: b.log later := by
  have h := (Follows.ofList values).answerAll requests
  generalize hb : ((ofList values).answerAll requests).2 = b at h
  have hreceive := b.answers .receive
  have hcursor := h.cursor_eq
  refine ⟨_, b, rfl, rfl, ⟨_, rfl, h.whole, hcursor ▸ h.pending_eq⟩, congrArg Answer.count hcursor,
    hcursor ▸ h.cursor_le, ⟨_, rfl, ?_⟩, fun he => hreceive.unchanged (.inr he),
    hreceive.not_cancelled, ?_⟩
  · exact exhausted_iff.trans hreceive.lacks_iff.symm
  · intro q later hq
    rw [log_append, log_append, log_cons, hb, (b.answers q).unchanged (.inl hq)]
    exact ⟨rfl, rfl⟩

theorem peeks_between_deliveries :
    ∃ values requests, values = [cap 'A', .empty] ∧
      requests = [Request.exhausted, .receive, .remaining, .receive, .consumed] ∧
      (((ofList values).answerAll requests).2.answer .consumed).1 = .count 2 ∧
      (((ofList values).answerAll requests).2.answer .receive).2 =
        ((ofList values).answerAll requests).2 ∧
      (ofList values).log (requests ++ [.exhausted, .receive]) =
        (ofList values).log requests ++ [(.exhausted, .flag true), (.receive, .delivery .exhausted)] := by
  obtain ⟨_, _, rfl, rfl, _, hcount, _, _, hsame, _, hpeek⟩ := batch_hands_out_in_order
    [cap 'A', .empty] [.exhausted, .receive, .remaining, .receive, .consumed]
  exact ⟨_, _, rfl, rfl, hcount, hsame rfl, (hpeek .exhausted [.receive] nofun).2⟩

end OfficeMachine.Batch
