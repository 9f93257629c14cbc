import Coaty.Transition

/-!
# First in, first out with retransmission

An outbox holds elements until a transmission of them is confirmed. Its head may be transmitted any number of times, confirmations may arrive late and for any element ever transmitted, and urgent elements may be put in front of the one in transit. Elements enqueued at the end are nevertheless transmitted for the first time in the order in which they were enqueued.
-/

variable {α : Type}

structure Outbox (α : Type) where
  queue : List α
  /-- The elements enqueued at the end so far, oldest first. -/
  enqueued : List α
  /-- The transmissions so far, oldest first. -/
  sent : List α

namespace Outbox

inductive Action (α : Type) where
  | enqueue (x : α)
  | putFirst (x : α)
  | send
  | confirm (x : α)

variable [DecidableEq α]

def step (o : Outbox α) : Action α → Outbox α
  | .enqueue x => { o with queue := o.queue ++ [x], enqueued := o.enqueued ++ [x] }
  | .putFirst x => { o with queue := x :: o.queue }
  | .send => { o with sent := o.sent ++ o.queue.head?.toList }
  | .confirm x => { o with queue := o.queue.erase x }

def IsFresh (o : Outbox α) (x : α) : Prop := x ∉ o.queue ∧ x ∉ o.enqueued ∧ x ∉ o.sent

/-- New elements are new, and only what was sent is confirmed. -/
def Allowed (o : Outbox α) : Action α → Prop
  | .enqueue x => o.IsFresh x
  | .putFirst x => o.IsFresh x
  | .send => True
  | .confirm x => x ∈ o.sent

structure FirstInFirstOut (o : Outbox α) : Prop where
  nodup : o.queue.Nodup
  /-- Enqueued elements wait in the order in which they were enqueued. -/
  waiting : o.queue.Pairwise fun x y => x ∈ o.enqueued → y ∈ o.enqueued →
    o.enqueued.idxOf x < o.enqueued.idxOf y
  kept : ∀ x ∈ o.enqueued, x ∈ o.queue ∨ x ∈ o.sent
  /-- An enqueued element is not sent before those enqueued earlier have been sent. -/
  firstSent : ∀ x ∈ o.enqueued, ∀ y ∈ o.enqueued, o.enqueued.idxOf x < o.enqueued.idxOf y → y ∈ o.sent →
    x ∈ o.sent ∧ o.sent.idxOf x < o.sent.idxOf y

theorem firstInFirstOut_empty : (⟨[], [], []⟩ : Outbox α).FirstInFirstOut where
  nodup := List.nodup_nil
  waiting := List.Pairwise.nil
  kept := by simp
  firstSent := by simp

variable {o : Outbox α} {x : α}

theorem FirstInFirstOut.enqueue (h : o.FirstInFirstOut) (hx : o.IsFresh x) :
    (o.step (.enqueue x)).FirstInFirstOut := by
  obtain ⟨hqueue, henqueued, hsent⟩ := hx
  have hold : ∀ {y}, y ∈ o.enqueued → (o.enqueued ++ [x]).idxOf y = o.enqueued.idxOf y :=
    fun hy => List.idxOf_append_of_mem hy
  have hlast : (o.enqueued ++ [x]).idxOf x = o.enqueued.length := by
    rw [List.idxOf_append_of_notMem henqueued, List.idxOf_cons_self, Nat.add_zero]
  have hmem : ∀ {y}, y ∈ o.enqueued ++ [x] ↔ y ∈ o.enqueued ∨ y = x := by simp
  refine ⟨?_, ?_, ?_, ?_⟩
  · refine List.nodup_append.mpr ⟨h.nodup, by simp, ?_⟩
    rintro y hy z hz rfl
    exact hqueue (List.mem_singleton.mp hz ▸ hy)
  · refine List.pairwise_append.mpr ⟨?_, List.pairwise_singleton _ _, ?_⟩
    · refine h.waiting.imp_of_mem fun {y z} hy hz hlt hyIn hzIn => ?_
      have hy' := (hmem.mp hyIn).resolve_right fun heq => hqueue (heq ▸ hy)
      have hz' := (hmem.mp hzIn).resolve_right fun heq => hqueue (heq ▸ hz)
      show List.idxOf y (o.enqueued ++ [x]) < List.idxOf z (o.enqueued ++ [x])
      rw [hold hy', hold hz']
      exact hlt hy' hz'
    · intro y hy z hz hyIn _
      obtain rfl := List.mem_singleton.mp hz
      have hy' := (hmem.mp hyIn).resolve_right fun heq => hqueue (heq ▸ hy)
      show List.idxOf y (o.enqueued ++ [z]) < List.idxOf z (o.enqueued ++ [z])
      rw [hold hy', hlast]
      exact List.idxOf_lt_length_of_mem hy'
  · intro y hy
    rcases hmem.mp hy with hy | rfl
    · exact (h.kept y hy).imp_left (List.mem_append_left _)
    · exact Or.inl (by simp [step])
  · intro y hy z hz hlt hzSent
    have hz' := (hmem.mp hz).resolve_right fun heq => hsent (heq ▸ hzSent)
    have hy' : y ∈ o.enqueued := by
      refine (hmem.mp hy).resolve_right ?_
      rintro rfl
      change List.idxOf y (o.enqueued ++ [y]) < List.idxOf z (o.enqueued ++ [y]) at hlt
      rw [hlast, hold hz'] at hlt
      exact absurd (List.idxOf_lt_length_of_mem hz') (by omega)
    change List.idxOf y (o.enqueued ++ [x]) < List.idxOf z (o.enqueued ++ [x]) at hlt
    rw [hold hy', hold hz'] at hlt
    exact h.firstSent y hy' z hz' hlt hzSent

theorem FirstInFirstOut.putFirst (h : o.FirstInFirstOut) (hx : o.IsFresh x) :
    (o.step (.putFirst x)).FirstInFirstOut where
  nodup := List.nodup_cons.mpr ⟨hx.1, h.nodup⟩
  waiting := List.pairwise_cons.mpr ⟨fun _ _ hxIn => absurd hxIn hx.2.1, h.waiting⟩
  kept y hy := (h.kept y hy).imp_left (List.mem_cons_of_mem _)
  firstSent := h.firstSent

theorem FirstInFirstOut.send (h : o.FirstInFirstOut) : (o.step .send).FirstInFirstOut := by
  refine ⟨h.nodup, h.waiting, fun y hy => (h.kept y hy).imp_right (List.mem_append_left _), ?_⟩
  intro y hy z hz hlt hzSent
  have hold : ∀ {w}, w ∈ o.sent → (o.sent ++ o.queue.head?.toList).idxOf w = o.sent.idxOf w :=
    fun hw => List.idxOf_append_of_mem hw
  show y ∈ o.sent ++ o.queue.head?.toList ∧
    List.idxOf y (o.sent ++ o.queue.head?.toList) < List.idxOf z (o.sent ++ o.queue.head?.toList)
  by_cases hzOld : z ∈ o.sent
  · obtain ⟨hySent, hidx⟩ := h.firstSent y hy z hz hlt hzOld
    rw [hold hySent, hold hzOld]
    exact ⟨List.mem_append_left _ hySent, hidx⟩
  · -- The head is sent for the first time, so nothing enqueued earlier waits any more.
    have hhead : z ∈ o.queue.head?.toList := (List.mem_append.mp hzSent).resolve_left hzOld
    obtain ⟨rest, hqueue⟩ : ∃ rest, o.queue = z :: rest := by
      cases hq : o.queue with
      | nil => simp [hq] at hhead
      | cons w rest => exact ⟨rest, by simp [hq] at hhead; rw [hhead]⟩
    have hySent : y ∈ o.sent := by
      refine (h.kept y hy).resolve_left fun hyQueue => ?_
      rw [hqueue, List.mem_cons] at hyQueue
      rcases hyQueue with rfl | hyRest
      · exact absurd hlt (Nat.lt_irrefl _)
      · have hwaiting := h.waiting
        rw [hqueue, List.pairwise_cons] at hwaiting
        exact absurd (hwaiting.1 y hyRest hz hy) (Nat.lt_asymm hlt)
    refine ⟨List.mem_append_left _ hySent, ?_⟩
    rw [hold hySent, List.idxOf_append_of_notMem hzOld]
    exact Nat.lt_add_right _ (List.idxOf_lt_length_of_mem hySent)

theorem FirstInFirstOut.confirm (h : o.FirstInFirstOut) (hx : x ∈ o.sent) :
    (o.step (.confirm x)).FirstInFirstOut := by
  refine ⟨h.nodup.erase x, h.waiting.sublist List.erase_sublist, fun y hy => ?_, h.firstSent⟩
  by_cases heq : y = x
  · exact Or.inr (heq ▸ hx)
  · exact (h.kept y hy).imp_left fun hq => (List.mem_erase_of_ne heq).mpr hq

theorem FirstInFirstOut.step (h : o.FirstInFirstOut) {action : Action α} (hallowed : o.Allowed action) :
    (o.step action).FirstInFirstOut := by
  cases action with
  | enqueue x => exact h.enqueue hallowed
  | putFirst x => exact h.putFirst hallowed
  | send => exact h.send
  | confirm x => exact h.confirm hallowed

/-! ### Repeated transmissions -/

/-- The elements in their order, each of them once or several times in a row. -/
inductive Repeats {β : Type} : List β → List β → Prop
  | nil : Repeats [] []
  | next {sent elements : List β} (x : β) : Repeats sent elements → Repeats (sent ++ [x]) (elements ++ [x])
  | again {sent elements : List β} {x : β} : Repeats sent (elements ++ [x]) → Repeats (sent ++ [x]) (elements ++ [x])

theorem Repeats.map {β γ : Type} (f : β → γ) {sent elements : List β} (h : Repeats sent elements) :
    Repeats (sent.map f) (elements.map f) := by
  induction h with
  | nil => exact .nil
  | next x _ ih =>
    rw [List.map_append, List.map_append]
    exact ih.next (f x)
  | again _ ih =>
    rw [List.map_append] at ih
    rw [List.map_append, List.map_append]
    exact ih.again

theorem Repeats.mem {β : Type} {sent elements : List β} (h : Repeats sent elements) {y : β} (hy : y ∈ sent) :
    y ∈ elements := by
  induction h with
  | nil => exact hy
  | next x _ ih =>
    rcases List.mem_append.mp hy with hy | hy
    · exact List.mem_append_left _ (ih hy)
    · exact List.mem_append_right _ hy
  | again _ ih =>
    rcases List.mem_append.mp hy with hy | hy
    · exact ih hy
    · exact List.mem_append_right _ hy

/-- The enqueued elements that are still to be confirmed. -/
def waiting (o : Outbox α) : List α := o.queue.filter (· ∈ o.enqueued)

def transmissions (o : Outbox α) : List α := o.sent.filter (· ∈ o.enqueued)

/-- The first `sent` of the enqueued elements were sent, in their order, and all but the first `confirmed` are waiting. At most one element is both sent and waiting. -/
structure Progress (o : Outbox α) (confirmed sent : Nat) : Prop where
  nodup : o.enqueued.Nodup
  confirmed_le : confirmed ≤ sent
  sent_le_succ : sent ≤ confirmed + 1
  sent_le : sent ≤ o.enqueued.length
  waiting : o.waiting = o.enqueued.drop confirmed
  transmissions : Repeats o.transmissions (o.enqueued.take sent)

/-- An outbox is a stream of its enqueued elements. -/
def Streams (o : Outbox α) : Prop := ∃ confirmed sent, o.Progress confirmed sent

theorem streams_empty : (⟨[], [], []⟩ : Outbox α).Streams :=
  ⟨0, 0, List.nodup_nil, Nat.le_refl _, Nat.zero_le _, Nat.le_refl _, rfl, .nil⟩

variable {confirmed sent : Nat}

theorem Progress.enqueue (h : o.Progress confirmed sent) (hx : o.IsFresh x) :
    (o.step (.enqueue x)).Progress confirmed sent := by
  obtain ⟨hqueue, henqueued, hsent⟩ := hx
  have hsame : ∀ {l : List α}, x ∉ l → l.filter (· ∈ o.enqueued ++ [x]) = l.filter (· ∈ o.enqueued) := by
    intro l hl
    refine List.filter_congr fun y hy => ?_
    have hne : y ≠ x := fun heq => hl (heq ▸ hy)
    simp [hne]
  have hlength : confirmed ≤ o.enqueued.length := Nat.le_trans h.confirmed_le h.sent_le
  refine ⟨?_, h.confirmed_le, h.sent_le_succ, ?_, ?_, ?_⟩
  · refine List.nodup_append.mpr ⟨h.nodup, List.pairwise_singleton _ _, ?_⟩
    rintro y hy z hz rfl
    exact henqueued (List.mem_singleton.mp hz ▸ hy)
  · show sent ≤ (o.enqueued ++ [x]).length
    rw [List.length_append]
    exact Nat.le_add_right_of_le h.sent_le
  · show (o.queue ++ [x]).filter (· ∈ o.enqueued ++ [x]) = (o.enqueued ++ [x]).drop confirmed
    rw [List.filter_append, hsame hqueue, List.drop_append_of_le_length hlength, ← h.waiting]
    simp [Outbox.waiting]
  · show Repeats (o.sent.filter (· ∈ o.enqueued ++ [x])) ((o.enqueued ++ [x]).take sent)
    rw [hsame hsent, List.take_append_of_le_length h.sent_le]
    exact h.transmissions

theorem Progress.putFirst (h : o.Progress confirmed sent) (hx : o.IsFresh x) :
    (o.step (.putFirst x)).Progress confirmed sent := by
  have hnew : ¬ decide (x ∈ o.enqueued) = true := fun henqueued => hx.2.1 (of_decide_eq_true henqueued)
  have hwaiting : (o.step (.putFirst x)).waiting = o.waiting := List.filter_cons_of_neg hnew
  exact ⟨h.nodup, h.confirmed_le, h.sent_le_succ, h.sent_le, hwaiting.trans h.waiting, h.transmissions⟩

theorem Progress.send (h : o.Progress confirmed sent) : (o.step .send).Streams := by
  cases hqueue : o.queue with
  | nil =>
    refine ⟨confirmed, sent, h.nodup, h.confirmed_le, h.sent_le_succ, h.sent_le, h.waiting, ?_⟩
    show Repeats ((o.sent ++ o.queue.head?.toList).filter (· ∈ o.enqueued)) (o.enqueued.take sent)
    rw [hqueue]
    simpa [Outbox.transmissions] using h.transmissions
  | cons x rest =>
    have htransmissions : (o.step .send).transmissions
        = o.transmissions ++ [x].filter (· ∈ o.enqueued) := by
      show (o.sent ++ o.queue.head?.toList).filter (· ∈ o.enqueued) = _
      rw [hqueue, List.filter_append]
      rfl
    by_cases hx : x ∈ o.enqueued
    · have hdrop : x :: rest.filter (· ∈ o.enqueued) = o.enqueued.drop confirmed := by
        rw [← h.waiting, Outbox.waiting, hqueue, List.filter_cons_of_pos (by simpa using hx)]
      have hget : o.enqueued[confirmed]? = some x := by
        rw [← List.head?_drop, ← hdrop]
        rfl
      obtain ⟨hlt, -⟩ := List.getElem?_eq_some_iff.mp hget
      have htake : o.enqueued.take (confirmed + 1) = o.enqueued.take confirmed ++ [x] := by
        rw [List.take_add_one, hget]
        rfl
      have hfilter : [x].filter (· ∈ o.enqueued) = [x] := by simpa using hx
      have hprogress : Repeats (o.step .send).transmissions (o.enqueued.take (confirmed + 1)) := by
        rw [htransmissions, hfilter, htake]
        rcases Nat.lt_or_eq_of_le h.sent_le_succ with hfirst | hagain
        · have heq : sent = confirmed := Nat.le_antisymm (Nat.le_of_lt_succ hfirst) h.confirmed_le
          exact (heq ▸ h.transmissions).next x
        · have hold := h.transmissions
          rw [hagain, htake] at hold
          exact hold.again
      exact ⟨confirmed, confirmed + 1, h.nodup, Nat.le_succ _, Nat.le_refl _, hlt, h.waiting, hprogress⟩
    · refine ⟨confirmed, sent, h.nodup, h.confirmed_le, h.sent_le_succ, h.sent_le, h.waiting, ?_⟩
      have hfilter : [x].filter (· ∈ o.enqueued) = [] := by simpa using hx
      rw [htransmissions, hfilter, List.append_nil]
      exact h.transmissions

theorem Progress.confirm (hfifo : o.FirstInFirstOut) (h : o.Progress confirmed sent) (hx : x ∈ o.sent) :
    (o.step (.confirm x)).Streams := by
  have hwaiting : (o.step (.confirm x)).waiting = o.waiting.erase x := by
    show (o.queue.erase x).filter (· ∈ o.enqueued) = (o.queue.filter (· ∈ o.enqueued)).erase x
    have hnodup : (o.queue.filter (· ∈ o.enqueued)).Nodup := hfifo.nodup.filter _
    rw [hfifo.nodup.erase_eq_filter, hnodup.erase_eq_filter, List.filter_filter, List.filter_filter]
    exact List.filter_congr fun y _ => Bool.and_comm _ _
  by_cases hmem : x ∈ o.waiting
  · have henqueued : x ∈ o.enqueued := by simpa using List.of_mem_filter hmem
    have hsent : x ∈ o.enqueued.take sent := h.transmissions.mem (List.mem_filter.mpr ⟨hx, by simpa using henqueued⟩)
    have hdrop : x ∈ o.enqueued.drop confirmed := h.waiting ▸ hmem
    have hapart : x ∉ o.enqueued.drop sent := by
      have hnodup := h.nodup
      rw [← List.take_append_drop sent o.enqueued] at hnodup
      exact fun hrest => (List.nodup_append.mp hnodup).2.2 x hsent x hrest rfl
    have hsucc : sent = confirmed + 1 := by
      refine Nat.le_antisymm h.sent_le_succ (Nat.lt_of_le_of_ne h.confirmed_le fun heq => ?_)
      exact hapart (heq ▸ hdrop)
    have hlt : confirmed < o.enqueued.length := Nat.lt_of_lt_of_le (hsucc ▸ Nat.lt_succ_self _) h.sent_le
    have hcons := List.drop_eq_getElem_cons hlt
    have hhead : x = o.enqueued[confirmed] := by
      rw [hcons, ← hsucc] at hdrop
      exact (List.mem_cons.mp hdrop).resolve_right hapart
    refine ⟨sent, sent, h.nodup, Nat.le_refl _, Nat.le_succ _, h.sent_le, ?_, h.transmissions⟩
    rw [hwaiting, h.waiting, hcons, hhead, List.erase_cons_head, hsucc]
    rfl
  · refine ⟨confirmed, sent, h.nodup, h.confirmed_le, h.sent_le_succ, h.sent_le, ?_, h.transmissions⟩
    rw [hwaiting, List.erase_of_not_mem hmem]
    exact h.waiting

theorem Streams.step (hfifo : o.FirstInFirstOut) (h : o.Streams) {action : Action α} (hallowed : o.Allowed action) :
    (o.step action).Streams := by
  obtain ⟨confirmed, sent, h⟩ := h
  cases action with
  | enqueue x => exact ⟨confirmed, sent, h.enqueue hallowed⟩
  | putFirst x => exact ⟨confirmed, sent, h.putFirst hallowed⟩
  | send => exact h.send
  | confirm x => exact h.confirm hfifo hallowed

/-! ### Runs -/

/-- The outbox comes from another one by actions that are allowed. -/
inductive Follows (o : Outbox α) : Outbox α → Prop
  | refl : o.Follows o
  | step {o' : Outbox α} {action : Action α} : o.Follows o' → o'.Allowed action → o.Follows (o'.step action)

theorem Follows.single {action : Action α} (h : o.Allowed action) : o.Follows (o.step action) := .step .refl h

theorem Follows.trans {o₁ o₂ : Outbox α} (h : o.Follows o₁) (h' : o₁.Follows o₂) : o.Follows o₂ := by
  induction h' with
  | refl => exact h
  | step _ hallowed ih => exact ih.step hallowed

theorem Follows.streams {o' : Outbox α} (h : o.Follows o') (hfifo : o.FirstInFirstOut) (hstreams : o.Streams) :
    o'.FirstInFirstOut ∧ o'.Streams := by
  induction h with
  | refl => exact ⟨hfifo, hstreams⟩
  | step _ hallowed ih => exact ⟨ih.1.step hallowed, ih.2.step ih.1 hallowed⟩

end Outbox
