import Mathlib.Data.List.Nodup
import Mathlib.Tactic.Cases

/-!
# At-least-once delivery in the order of each key, with an inbox

The messages of a topic in the order they were written, and the identifiers the consumer has
recorded in its inbox. Delivery is at least once: a message may be handed over again at any time,
and a message whose identifier is in the inbox is then skipped. Delivery keeps the order of the
messages of one key, so that a message is handed over for the first time only when every earlier
message of its key is in the inbox (`NextFor`).

## The queue of one key

Under that discipline a key sees a plain queue: the messages it has `handled`, in order, followed
by those still `inflight`. The lemmas here are the queue laws: writing a message appends to
`inflight` of its key, handling one moves the head of `inflight` to the end of `handled`, and
neither is seen by any other key.

## Main results

* `inflight_of_next`, `next_of_inflight` — the message to be handed over next is the head
* `handled_claim`, `inflight_claim` — handling a message
* `inflight_write`, `handled_write` — writing messages
* `pending_claim`, `pending_write` — the same for all keys together
* `ordered_claim`, `ordered_write` — the discipline is kept
-/

namespace FifoTopic

variable {κ ι μ : Type*} {key : μ → κ} {ident : μ → ι} {log new pre post : List μ}
  {inbox : List ι} {k : κ} {m : μ}

/-- What delivery keeps: no identifier is used twice, and in each key the handled messages come
before the others. -/
structure Ordered (key : μ → κ) (ident : μ → ι) (log : List μ) (inbox : List ι) : Prop where
  /-- Identifiers are unique. -/
  nodup : (log.map ident).Nodup
  /-- Nothing is handled before an earlier message of its key. -/
  sorted : log.Pairwise fun m m' => key m = key m' → ident m' ∈ inbox → ident m ∈ inbox

/-- `m`, between `pre` and `post` in the topic, may be handed over for the first time. -/
structure NextFor (key : μ → κ) (ident : μ → ι) (pre : List μ) (m : μ) (inbox : List ι) : Prop where
  /-- It has not been handled. -/
  unclaimed : ident m ∉ inbox
  /-- All earlier messages of its key have been. -/
  earlier : ∀ m' ∈ pre, key m' = key m → ident m' ∈ inbox

/-- Nothing of the key after the next message has been handled. -/
theorem unhandled_after (h : Ordered key ident (pre ++ m :: post) inbox)
    (hm : ident m ∉ inbox) : ∀ m' ∈ post, key m' = key m → ident m' ∉ inbox := by
  intro m' hm' hk hin
  have hs := (List.pairwise_append.mp h.sorted).2.1
  exact hm ((List.pairwise_cons.mp hs).1 m' hm' hk.symm hin)

theorem ident_ne_of_mem_pre (h : Ordered key ident (pre ++ m :: post) inbox) :
    ∀ m' ∈ pre, ident m' ≠ ident m := by
  intro m' hm' he
  have hn := h.nodup
  rw [List.map_append, List.map_cons, List.nodup_append] at hn
  exact hn.2.2 _ (List.mem_map_of_mem hm') _ (List.mem_cons_self ..) he

theorem ident_ne_of_mem_post (h : Ordered key ident (pre ++ m :: post) inbox) :
    ∀ m' ∈ post, ident m' ≠ ident m := by
  intro m' hm' he
  have hn := h.nodup
  rw [List.map_append, List.map_cons, List.nodup_append] at hn
  exact (List.nodup_cons.mp hn.2.1).1 (he ▸ List.mem_map_of_mem hm')

section Queue

variable [DecidableEq κ] [DecidableEq ι]

/-- The messages of a key the consumer has handled. -/
def handled (key : μ → κ) (ident : μ → ι) (log : List μ) (inbox : List ι) (k : κ) : List μ :=
  log.filter fun m => key m = k ∧ ident m ∈ inbox

/-- The messages of a key the consumer has still to handle. -/
def inflight (key : μ → κ) (ident : μ → ι) (log : List μ) (inbox : List ι) (k : κ) : List μ :=
  log.filter fun m => key m = k ∧ ident m ∉ inbox

theorem mem_handled {m : μ} :
    m ∈ handled key ident log inbox k ↔ m ∈ log ∧ key m = k ∧ ident m ∈ inbox := by
  simp [handled]

theorem mem_inflight {m : μ} :
    m ∈ inflight key ident log inbox k ↔ m ∈ log ∧ key m = k ∧ ident m ∉ inbox := by
  simp [inflight]

/-- The messages that the consumer has still to handle, of all keys. -/
def pending (ident : μ → ι) (log : List μ) (inbox : List ι) : List μ :=
  log.filter fun m => ident m ∉ inbox

omit [DecidableEq κ] in
theorem mem_pending {m : μ} : m ∈ pending ident log inbox ↔ m ∈ log ∧ ident m ∉ inbox := by
  simp [pending]

/-! ### Handling a message

The message at the head of a queue is handled: it becomes the last of those that were. The queues of
other keys stay as they are. -/

/-- Before it is handled, the next message is the head of its key's queue. -/
theorem inflight_of_next (hn : NextFor key ident pre m inbox) :
    inflight key ident (pre ++ m :: post) inbox (key m) =
      m :: inflight key ident post inbox (key m) := by
  have hpre : inflight key ident pre inbox (key m) = [] := by
    rw [inflight, List.filter_eq_nil_iff]
    intro m' hm' hc
    have hc : key m' = key m ∧ ident m' ∉ inbox := by simpa using hc
    exact hc.2 (hn.earlier m' hm' hc.1)
  rw [inflight, List.filter_append, ← inflight, hpre, List.nil_append,
    List.filter_cons_of_pos (by simp [hn.unclaimed])]
  rfl

/-- The head of a key's queue may be handed over for the first time. -/
theorem next_of_inflight {rest : List μ} (h : inflight key ident log inbox k = m :: rest) :
    ∃ pre post, log = pre ++ m :: post ∧ key m = k ∧ NextFor key ident pre m inbox := by
  obtain ⟨pre, post, rfl, hpre, hm, -⟩ := List.filter_eq_cons_iff.mp h
  have hm : key m = k ∧ ident m ∉ inbox := by simpa using hm
  refine ⟨pre, post, rfl, hm.1, hm.2, fun m' hm' hk => ?_⟩
  have hpre : ¬ (key m' = k ∧ ident m' ∉ inbox) := by simpa using hpre m' hm'
  exact not_not.mp fun hu => hpre ⟨hk.trans hm.1, hu⟩

/-- After it is handled, the message is the last of the handled ones of its key. -/
theorem handled_claim (h : Ordered key ident (pre ++ m :: post) inbox)
    (hn : NextFor key ident pre m inbox) :
    handled key ident (pre ++ m :: post) (ident m :: inbox) (key m) =
      handled key ident (pre ++ m :: post) inbox (key m) ++ [m] := by
  have hpost : ∀ (l : List ι), (∀ m' ∈ post, key m' = key m → ident m' ∉ l) →
      (post.filter fun m' => key m' = key m ∧ ident m' ∈ l) = [] := by
    intro l hl
    rw [List.filter_eq_nil_iff]
    intro m' hm' hc
    have hc : key m' = key m ∧ ident m' ∈ l := by simpa using hc
    exact hl m' hm' hc.1 hc.2
  have hafter := unhandled_after h hn.unclaimed
  have hafter' : ∀ m' ∈ post, key m' = key m → ident m' ∉ ident m :: inbox := by
    intro m' hm' hk hin
    rcases List.mem_cons.mp hin with he | hin
    · exact ident_ne_of_mem_post h m' hm' he
    · exact hafter m' hm' hk hin
  rw [handled, handled, List.filter_append, List.filter_append,
    List.filter_cons_of_pos (by simp), List.filter_cons_of_neg (by simp [hn.unclaimed]),
    hpost _ hafter, hpost _ hafter', List.append_nil]
  congr 1
  refine List.filter_congr fun m' hm' => ?_
  simp [ident_ne_of_mem_pre h m' hm']

/-- And the rest of the queue is what is in flight. -/
theorem inflight_claim (h : Ordered key ident (pre ++ m :: post) inbox)
    (hn : NextFor key ident pre m inbox) :
    inflight key ident (pre ++ m :: post) inbox (key m) =
      m :: inflight key ident (pre ++ m :: post) (ident m :: inbox) (key m) := by
  rw [inflight_of_next hn]
  congr 1
  have hpre : (pre.filter fun m' => key m' = key m ∧ ident m' ∉ ident m :: inbox) = [] := by
    rw [List.filter_eq_nil_iff]
    intro m' hm' hc
    have hc : key m' = key m ∧ ident m' ∉ ident m :: inbox := by simpa using hc
    exact hc.2 (List.mem_cons_of_mem _ (hn.earlier m' hm' hc.1))
  rw [inflight, inflight, List.filter_append, hpre, List.nil_append,
    List.filter_cons_of_neg (by simp)]
  refine List.filter_congr fun m' hm' => ?_
  simp [ident_ne_of_mem_post h m' hm']

/-- Other keys see nothing of it. -/
theorem handled_claim_of_ne (h : (log.map ident).Nodup) (hm : m ∈ log) (hk : key m ≠ k) :
    handled key ident log (ident m :: inbox) k = handled key ident log inbox k := by
  refine List.filter_congr fun m' hm' => ?_
  by_cases hk' : key m' = k
  · have hne : ident m' ≠ ident m := fun he =>
      hk ((congrArg key (List.inj_on_of_nodup_map h hm' hm he)).symm.trans hk')
    simp [hne]
  · simp [hk']

theorem inflight_claim_of_ne (h : (log.map ident).Nodup) (hm : m ∈ log) (hk : key m ≠ k) :
    inflight key ident log (ident m :: inbox) k = inflight key ident log inbox k := by
  refine List.filter_congr fun m' hm' => ?_
  by_cases hk' : key m' = k
  · have hne : ident m' ≠ ident m := fun he =>
      hk ((congrArg key (List.inj_on_of_nodup_map h hm' hm he)).symm.trans hk')
    simp [hne]
  · simp [hk']

omit [DecidableEq κ] in
/-- Handling a message takes it out of what is pending, and nothing else. -/
theorem pending_claim (h : (log.map ident).Nodup) (hm : m ∈ log) (hu : ident m ∉ inbox) :
    (pending ident log inbox).Perm (m :: pending ident log (ident m :: inbox)) := by
  obtain ⟨pre, post, rfl⟩ := List.append_of_mem hm
  rw [List.map_append, List.map_cons, List.nodup_append] at h
  obtain ⟨-, hpost, hpre⟩ := h
  have hrest (l : List μ) (hl : ∀ m' ∈ l, ident m' ≠ ident m) :
      (l.filter fun m' => ident m' ∉ ident m :: inbox) = l.filter fun m' => ident m' ∉ inbox := by
    refine List.filter_congr fun m' hm' => ?_
    simp [hl m' hm']
  have hpre' : ∀ m' ∈ pre, ident m' ≠ ident m := fun m' hm' =>
    hpre _ (List.mem_map_of_mem hm') _ (List.mem_cons_self ..)
  have hpost' : ∀ m' ∈ post, ident m' ≠ ident m := fun m' hm' he =>
    (List.nodup_cons.mp hpost).1 (he ▸ List.mem_map_of_mem hm')
  rw [pending, pending, List.filter_append, List.filter_append,
    List.filter_cons_of_pos (by simp [hu]), List.filter_cons_of_neg (by simp), hrest pre hpre',
    hrest post hpost']
  exact List.perm_middle

end Queue

/-- Handling the next message of a key keeps the order. -/
theorem ordered_claim (h : Ordered key ident (pre ++ m :: post) inbox)
    (hn : NextFor key ident pre m inbox) :
    Ordered key ident (pre ++ m :: post) (ident m :: inbox) := by
  have hold : ∀ a b, ident b ≠ ident m → (key a = key b → ident b ∈ inbox → ident a ∈ inbox) →
      key a = key b → ident b ∈ ident m :: inbox → ident a ∈ ident m :: inbox := by
    intro a b hne hab hk hin
    rcases List.mem_cons.mp hin with he | hin
    · exact absurd he hne
    · exact List.mem_cons_of_mem _ (hab hk hin)
  have hpre := ident_ne_of_mem_pre h
  have hpost := ident_ne_of_mem_post h
  obtain ⟨hsp, hsq, hsx⟩ := List.pairwise_append.mp h.sorted
  obtain ⟨hsm, hsq⟩ := List.pairwise_cons.mp hsq
  refine ⟨h.nodup, List.pairwise_append.mpr ⟨?_, List.pairwise_cons.mpr ⟨?_, ?_⟩, ?_⟩⟩
  · exact hsp.imp_of_mem fun {a b} _ hb hab => hold a b (hpre b hb) hab
  · exact fun b hb => hold m b (hpost b hb) (hsm b hb)
  · exact hsq.imp_of_mem fun {a b} _ hb hab => hold a b (hpost b hb) hab
  · intro a ha b hb
    rcases List.mem_cons.mp hb with rfl | hb
    · exact fun hk _ => List.mem_cons_of_mem _ (hn.earlier a ha hk)
    · exact hold a b (hpost b hb) (hsx a ha b (List.mem_cons_of_mem _ hb))

/-! ### Writing messages

Messages are written at the end, in order, so each queue gets those of its own key. -/

/-- New messages have identifiers that were not used before. -/
def Fresh (ident : μ → ι) (log : List μ) (inbox : List ι) (new : List μ) : Prop :=
  (new.map ident).Nodup ∧ ∀ m ∈ new, ident m ∉ inbox ∧ ident m ∉ log.map ident

theorem handled_write [DecidableEq κ] [DecidableEq ι] (h : Fresh ident log inbox new) (k : κ) :
    handled key ident (log ++ new) inbox k = handled key ident log inbox k := by
  rw [handled, List.filter_append, ← handled, List.append_right_eq_self, List.filter_eq_nil_iff]
  intro m hm hc
  have hc : key m = k ∧ ident m ∈ inbox := by simpa using hc
  exact (h.2 m hm).1 hc.2

theorem inflight_write [DecidableEq κ] [DecidableEq ι] (h : Fresh ident log inbox new) (k : κ) :
    inflight key ident (log ++ new) inbox k =
      inflight key ident log inbox k ++ new.filter fun m => key m = k := by
  rw [inflight, List.filter_append, ← inflight]
  congr 1
  refine List.filter_congr fun m hm => ?_
  simp [(h.2 m hm).1]

theorem pending_write [DecidableEq ι] (h : Fresh ident log inbox new) :
    pending ident (log ++ new) inbox = pending ident log inbox ++ new := by
  rw [pending, List.filter_append, ← pending]
  congr 1
  refine List.filter_eq_self.mpr fun m hm => ?_
  simpa using (h.2 m hm).1

theorem ordered_write (h : Ordered key ident log inbox) (hf : Fresh ident log inbox new) :
    Ordered key ident (log ++ new) inbox := by
  refine ⟨?_, ?_⟩
  · rw [List.map_append, List.nodup_append]
    refine ⟨h.nodup, hf.1, fun a ha b hb he => ?_⟩
    obtain ⟨m, hm, rfl⟩ := List.mem_map.mp hb
    exact (hf.2 m hm).2 (he ▸ ha)
  · rw [List.pairwise_append]
    refine ⟨h.sorted, ?_, fun m _ m' hm' _ hin => absurd hin (hf.2 m' hm').1⟩
    exact List.pairwise_of_forall_mem_list fun m _ m' hm' _ hin => absurd hin (hf.2 m' hm').1

end FifoTopic
