import CarFlow.Shared.KafkaConsumer

/-!
# Effects exactly once

Why the two logs of a consumer, the inbox and the offsets, keep each other right. The claim commits
with the writes of the handler, so an event whose claim is committed has had its effects, and one
whose claim is not has had none; a second claim waits for the first and then finds it. A position
only moves past a record the process takes in hand, and is committed only after that record's
transaction, so the records below it have all been claimed.

## Implementation notes

The invariant has a part for the two logs (`offsets`, `claimed`, `once`), a part for the effects
(`effects`, `returned`, `tables`), and a family for the processes. That two processes never hold a
claim to one event is `ConsumerProcess.Apart`, and is what a commit needs: the process that commits
finds the inbox as it was when it claimed.

A position is a process's own; an offset is the group's. `passed` is about positions, with the
record in hand as the one exception, and becomes `offsets` at the commit of the offset, when there
is no exception any more.

## Main results

* `GroupOk.step` — the invariant
* `GroupOk.commit_process` — a commit is `postgresInboxProcessor` on the committed database
* `effects_exactly_once` — **in every reachable state** no event has had its effects committed
  twice, and no offset is committed past a record that was not claimed, with its effects
-/

namespace CarFlow

/-! ### The invariant

What the inbox, the offsets and the processes know of one another. -/

section Invariant

variable {μ σ δ ω ε : Type} {S : InboxService μ σ δ ω ε} {s s' : ConsumerGroup μ δ ω}

/-- The handler has returned `writes`, or the type has none. -/
structure InboxService.Returned (S : InboxService μ σ δ ω ε) (payload : μ) (writes : Option ω) :
    Prop where
  handler : ∀ handler ∈ S.handlers payload, ∃ seen w, handler seen = .ok w ∧ writes = some w
  none : S.handlers payload = none → writes = none

/-- What holds of the record in hand. -/
inductive InboxService.Holds (S : InboxService μ σ δ ω ε) (inbox : List EventId)
    (row : OutboxRow μ) : RecordStage ω → Prop
  | received : Holds S inbox row .received
  | claimed (hnew : row.id ∉ inbox) : Holds S inbox row .claimed
  | handled (writes : Option ω) (hnew : row.id ∉ inbox)
      (hreturned : S.Returned row.payload writes) :
      Holds S inbox row (.handled writes)
  | skipped (hclaimed : row.id ∈ inbox) : Holds S inbox row .skipped
  | processed (hclaimed : row.id ∈ inbox) : Holds S inbox row .processed

/-- What holds of a process: the records it has passed have been claimed, but for the one in
hand. -/
structure ConsumerProcess.Ok (S : InboxService μ σ δ ω ε) (s : ConsumerGroup μ δ ω)
    (t : ConsumerProcess μ ω) : Prop where
  inHand : ∀ row stage, t.inHand = some (row, stage) → row ∈ s.outbox ∧
    S.Holds s.db.inbox row stage
  bound : ∀ q position, t.positions q = some position → position ≤ (s.partitions q).length
  passed : ∀ q position, t.positions q = some position → ∀ o < position, ∀ row,
    (s.partitions q)[o]? = some row → row.id ∈ s.db.inbox ∨ ∃ stage, t.inHand = some (row, stage)

/-- Two processes have not claimed one event. -/
def ConsumerProcess.Apart (t u : ConsumerProcess μ ω) : Prop :=
  ∀ eventId ∈ t.claim?, u.claim? ≠ some eventId

theorem ConsumerProcess.Apart.symm {t u : ConsumerProcess μ ω} (h : t.Apart u) : u.Apart t :=
  fun eventId hu ht => h eventId ht hu

/-- **The invariant of the consumers.** -/
structure GroupOk (S : InboxService μ σ δ ω ε) (s : ConsumerGroup μ δ ω) : Prop where
  ids : s.outbox.map (·.id) = List.range s.outbox.length
  known : ∀ eventId ∈ s.db.inbox, eventId < s.outbox.length
  shipped : ∀ q, ∀ row ∈ s.partitions q, row ∈ s.outbox
  offsets : ∀ q, s.offsets q ≤ (s.partitions q).length ∧
    ∀ o < s.offsets q, ∀ row, (s.partitions q)[o]? = some row → row.id ∈ s.db.inbox
  /-- The writes of a handler are committed with its claim. -/
  effects : ∀ row ∈ s.outbox, row.id ∈ s.db.inbox → (S.handlers row.payload).isSome →
    ∃ w, (some row.id, w) ∈ s.writes
  claimed : ∀ eventId ∈ s.writes.filterMap Prod.fst, eventId ∈ s.db.inbox
  returned : ∀ eventId w, (some eventId, w) ∈ s.writes →
    ∃ row ∈ s.outbox, row.id = eventId ∧ S.Returned row.payload (some w)
  once : (s.writes.filterMap Prod.fst).Nodup
  tables : s.db.tables = s.writes.foldl (fun tables w => S.apply w.2 tables) S.tables
  processes : ProcessFamily (ConsumerProcess.Ok S s) ConsumerProcess.Apart s.processes

theorem groupOk_init : GroupOk S S.consumerGroup.init where
  ids := rfl
  known _ h := by cases h
  shipped _ _ h := by cases h
  offsets _ := ⟨Nat.le_refl 0, fun _ ho => by cases ho⟩
  effects _ h := by cases h
  claimed _ h := by cases h
  returned _ _ h := by cases h
  once := List.nodup_nil
  tables := rfl
  processes := .nil

namespace ConsumerProcess.Ok

variable {t u : ConsumerProcess μ ω} {row : OutboxRow μ}

/-- A claim that is not committed is not in the inbox. -/
theorem claim_notMem (h : t.Ok S s) : ∀ eventId ∈ t.claim?, eventId ∉ s.db.inbox := by
  intro eventId hclaim
  cases hinHand : t.inHand with
  | none => simp [claim?, hinHand] at hclaim
  | some x =>
    obtain ⟨row, stage⟩ := x
    obtain ⟨-, hholds⟩ := h.inHand row stage hinHand
    cases hholds with
    | claimed hnew | handled _ hnew =>
      obtain rfl : row.id = eventId := by simpa [claim?, hinHand] using hclaim
      exact hnew
    | received | skipped | processed => simp [claim?, hinHand] at hclaim

/-- What the others do does not matter to a process, but for its own claim. -/
theorem frame (h : t.Ok S s) (houtbox : s.outbox ⊆ s'.outbox)
    (hpartitions : ∀ q, s.partitions q <+: s'.partitions q) (hinbox : s.db.inbox ⊆ s'.db.inbox)
    (hclaim : ∀ eventId ∈ t.claim?, eventId ∉ s'.db.inbox) : t.Ok S s' where
  inHand row stage hinHand := by
    obtain ⟨hrow, hholds⟩ := h.inHand row stage hinHand
    refine ⟨houtbox hrow, ?_⟩
    cases hholds with
    | received => exact .received
    | claimed => exact .claimed (hclaim _ (by simp [claim?, hinHand]))
    | handled writes _ hreturned =>
      exact .handled writes (hclaim _ (by simp [claim?, hinHand])) hreturned
    | skipped hclaimed => exact .skipped (hinbox hclaimed)
    | processed hclaimed => exact .processed (hinbox hclaimed)
  bound q position hposition := by
    have hlength := (hpartitions q).length_le
    have := h.bound q position hposition
    omega
  passed q position hposition o ho row hrow := by
    have hlt : o < (s.partitions q).length := by
      have := h.bound q position hposition
      omega
    refine (h.passed q position hposition o ho row ?_).imp_left (hinbox ·)
    obtain ⟨rest, hrest⟩ := hpartitions q
    rwa [← hrest, List.getElem?_append_left hlt] at hrow

/-- A step that neither publishes, ships nor claims does not matter to any process. -/
theorem unmoved (h : t.Ok S s) (houtbox : s'.outbox = s.outbox)
    (hpartitions : s'.partitions = s.partitions) (hinbox : s'.db.inbox = s.db.inbox) :
    t.Ok S s' := by
  refine h.frame (fun _ hrow => houtbox ▸ hrow) (fun q => ?_) (fun _ hmem => hinbox ▸ hmem)
    fun eventId hclaim => hinbox ▸ h.claim_notMem eventId hclaim
  exact hpartitions.symm ▸ List.prefix_refl _

/-- The record in hand gets to another stage. -/
theorem stage (h : t.Ok S s) {old new : RecordStage ω} (hinHand : t.inHand = some (row, old))
    (hholds : S.Holds s.db.inbox row new) : (t.at row new).Ok S s where
  inHand row' stage hstage := by
    obtain ⟨rfl, rfl⟩ := Prod.mk.inj (Option.some.inj hstage)
    exact ⟨(h.inHand row old hinHand).1, hholds⟩
  bound := h.bound
  passed q position hposition o ho row' hrow := by
    refine (h.passed q position hposition o ho row' hrow).imp_right ?_
    rintro ⟨stage, hstage⟩
    obtain ⟨rfl, -⟩ := Prod.mk.inj (Option.some.inj (hinHand.symm.trans hstage))
    exact ⟨new, rfl⟩

end ConsumerProcess.Ok

/-- Identifiers are unique. -/
theorem GroupOk.row_eq (h : GroupOk S s) {row row' : OutboxRow μ} (hrow : row ∈ s.outbox)
    (hrow' : row' ∈ s.outbox) (hid : row.id = row'.id) : row = row' := by
  have hnodup : (s.outbox.map (·.id)).Nodup := by
    rw [h.ids]
    exact List.nodup_range
  exact List.inj_on_of_nodup_map hnodup hrow hrow' hid

/-- A process takes a step of its own: nothing shared changes. -/
theorem GroupOk.own (h : GroupOk S s) {p : ℕ} {t t' : ConsumerProcess μ ω}
    (hp : s.processes[p]? = some t) (ht' : t'.Ok S s)
    (hclaim : ∀ eventId ∈ t'.claim?, t.claim? = some eventId ∨
      ∀ u ∈ s.processes.eraseIdx p, u.claim? ≠ some eventId) :
    GroupOk S { s with processes := s.processes.set p t' } := by
  have hsymm : ∀ t u : ConsumerProcess μ ω, t.Apart u → u.Apart t :=
    fun _ _ => ConsumerProcess.Apart.symm
  refine { h with
    processes := h.processes.step hsymm hp (fun u _ hu => hu.unmoved rfl rfl rfl)
      (ht'.unmoved rfl rfl rfl) fun u hu => ?_ }
  intro eventId hmem
  rcases hclaim eventId hmem with hold | hfree
  · exact h.processes.others hsymm hp u hu eventId hold
  · exact hfree u hu

/-- A process has gone past a record it holds. -/
theorem GroupOk.passed (h : GroupOk S s) {p : ℕ} {t : ConsumerProcess μ ω} {row : OutboxRow μ}
    (hp : s.processes[p]? = some t) (hinHand : t.inHand = some (row, .processed)) {q position : ℕ}
    (hposition : t.positions q = some position) :
    position ≤ (s.partitions q).length ∧ ∀ o < position, ∀ row,
      (s.partitions q)[o]? = some row → row.id ∈ s.db.inbox := by
  have ht := h.processes.each t (List.mem_of_getElem? hp)
  refine ⟨ht.bound q position hposition, fun o ho row' hrow => ?_⟩
  rcases ht.passed q position hposition o ho row' hrow with hclaimed | ⟨stage, hstage⟩
  · exact hclaimed
  · obtain ⟨rfl, -⟩ := Prod.mk.inj (Option.some.inj (hinHand.symm.trans hstage))
    obtain ⟨-, hholds⟩ := ht.inHand row .processed hinHand
    cases hholds with
    | processed hclaimed => exact hclaimed

/-- The commit of a claim, with the writes of its handler. -/
theorem GroupOk.commit (h : GroupOk S s) {p : ℕ} {t : ConsumerProcess μ ω} {row : OutboxRow μ}
    {writes : Option ω} (hp : s.processes[p]? = some t)
    (hinHand : t.inHand = some (row, .handled writes)) :
    GroupOk S { s with
      db := S.commit s.db row.id writes
      writes := s.writes ++ writes.toList.map fun w => (some row.id, w)
      processes := s.processes.set p (t.at row .processed) } := by
  have hsymm : ∀ t u : ConsumerProcess μ ω, t.Apart u → u.Apart t :=
    fun _ _ => ConsumerProcess.Apart.symm
  have ht := h.processes.each t (List.mem_of_getElem? hp)
  have hclaim : t.claim? = some row.id := by simp [ConsumerProcess.claim?, hinHand]
  have hnew : row.id ∉ s.db.inbox := ht.claim_notMem row.id hclaim
  obtain ⟨hrow, hholds⟩ := ht.inHand row _ hinHand
  have hreturned : S.Returned row.payload writes := by
    cases hholds with
    | handled _ _ hreturned => exact hreturned
  have hids : (s.writes ++ writes.toList.map fun w => (some row.id, w)).filterMap Prod.fst =
      s.writes.filterMap Prod.fst ++ writes.toList.map fun _ => row.id := by
    cases writes <;> simp
  refine ⟨h.ids, fun eventId hmem => ?_, h.shipped, fun q => ?_, fun r hr hmem hsome => ?_,
    fun eventId hmem => ?_, fun eventId w hmem => ?_, ?_, ?_, ?_⟩
  · rcases List.mem_cons.mp hmem with rfl | hmem
    · have hmem : row.id ∈ s.outbox.map (·.id) := List.mem_map_of_mem hrow
      rw [h.ids] at hmem
      exact List.mem_range.mp hmem
    · exact h.known eventId hmem
  · exact ⟨(h.offsets q).1, fun o ho r hr => List.mem_cons_of_mem _ ((h.offsets q).2 o ho r hr)⟩
  · rcases List.mem_cons.mp hmem with hid | hmem
    · obtain rfl := h.row_eq hr hrow hid
      obtain ⟨handler, hhandler⟩ := Option.isSome_iff_exists.mp hsome
      obtain ⟨seen, w, -, rfl⟩ := hreturned.handler handler hhandler
      exact ⟨w, List.mem_append_right _ (by simp)⟩
    · obtain ⟨w, hw⟩ := h.effects r hr hmem hsome
      exact ⟨w, List.mem_append_left _ hw⟩
  · rw [hids] at hmem
    rcases List.mem_append.mp hmem with hmem | hmem
    · exact List.mem_cons_of_mem _ (h.claimed eventId hmem)
    · obtain ⟨w, -, rfl⟩ := List.mem_map.mp hmem
      exact List.mem_cons_self
  · rcases List.mem_append.mp hmem with hmem | hmem
    · exact h.returned eventId w hmem
    · obtain ⟨w', hw', he⟩ := List.mem_map.mp hmem
      obtain ⟨hid, rfl⟩ := Prod.mk.inj he
      obtain rfl := Option.mem_toList.mp hw'
      exact ⟨row, hrow, Option.some.inj hid, hreturned⟩
  · rw [hids, List.nodup_append]
    refine ⟨h.once, by cases writes <;> simp, fun eventId hmem eventId' hmem' he => ?_⟩
    obtain ⟨w, -, rfl⟩ := List.mem_map.mp hmem'
    exact hnew (he ▸ h.claimed eventId hmem)
  · rw [List.foldl_append, ← h.tables]
    cases writes <;> rfl
  · refine h.processes.step hsymm hp (fun u hu hok => ?_) ?_ fun u _ eventId hmem => ?_
    · refine hok.frame (fun _ => id) (fun q => List.prefix_refl _)
        (fun _ => List.mem_cons_of_mem _) fun eventId hmem => ?_
      rw [InboxService.commit, List.mem_cons, not_or]
      refine ⟨fun he => ?_, hok.claim_notMem eventId hmem⟩
      exact h.processes.others hsymm hp u hu row.id hclaim (he ▸ hmem)
    · refine ⟨fun row' stage hstage => ?_, ht.bound, fun q position hposition o ho row' hrow' => ?_⟩
      · obtain ⟨rfl, rfl⟩ := Prod.mk.inj (Option.some.inj hstage)
        exact ⟨hrow, .processed List.mem_cons_self⟩
      · rcases ht.passed q position hposition o ho row' hrow' with hclaimed | ⟨stage, hstage⟩
        · exact .inl (List.mem_cons_of_mem _ hclaimed)
        · obtain ⟨rfl, -⟩ := Prod.mk.inj (Option.some.inj (hinHand.symm.trans hstage))
          exact .inl List.mem_cons_self
    · cases hmem

/-- A new record: nobody has claimed it. -/
theorem GroupOk.publish (h : GroupOk S s) (aggregateId : Uuid) (payload : μ) :
    GroupOk S { s with outbox := writeOutboxEvent s.outbox aggregateId payload } := by
  have houtbox : s.outbox ⊆ writeOutboxEvent s.outbox aggregateId payload :=
    List.subset_append_left _ _
  refine { h with
    ids := by simp [writeOutboxEvent, h.ids, List.range_succ]
    known := fun eventId hmem => ?_
    shipped := fun q row hrow => houtbox (h.shipped q row hrow)
    effects := fun row hrow hmem hsome => ?_
    returned := fun eventId w hmem => ?_
    processes := ⟨fun u hu => ?_, h.processes.apart⟩ }
  · rw [writeOutboxEvent, List.length_append]
    exact Nat.lt_add_right _ (h.known eventId hmem)
  · rcases List.mem_append.mp hrow with hrow | hrow
    · exact h.effects row hrow hmem hsome
    · obtain rfl := List.mem_singleton.mp hrow
      exact absurd (h.known _ hmem) (Nat.lt_irrefl _)
  · obtain ⟨row, hrow, hid, hreturned⟩ := h.returned eventId w hmem
    exact ⟨row, houtbox hrow, hid, hreturned⟩
  · have hok := h.processes.each u hu
    exact hok.frame houtbox (fun q => List.prefix_refl _) (fun _ => id) hok.claim_notMem

/-- A partition grows at its end, past every offset and position. -/
theorem GroupOk.ship (h : GroupOk S s) (partition : ℕ) {row : OutboxRow μ}
    (hrow : row ∈ s.outbox) :
    GroupOk S { s with
      partitions := Function.update s.partitions partition
        (s.partitions partition ++ [row]) } := by
  have hgrown (q : ℕ) : s.partitions q <+:
      Function.update s.partitions partition (s.partitions partition ++ [row]) q := by
    by_cases hq : q = partition
    · subst hq
      rw [Function.update_self]
      exact List.prefix_append _ _
    · exact (Function.update_of_ne hq ..).symm ▸ List.prefix_refl _
  have hships (q : ℕ) : ∀ r ∈ Function.update s.partitions partition
      (s.partitions partition ++ [row]) q, r ∈ s.outbox := by
    intro r hr
    by_cases hq : q = partition
    · subst hq
      rw [Function.update_self] at hr
      rcases List.mem_append.mp hr with hr | hr
      · exact h.shipped q r hr
      · rwa [List.mem_singleton.mp hr]
    · rw [Function.update_of_ne hq] at hr
      exact h.shipped q r hr
  refine { h with
    shipped := hships
    offsets := fun q => ⟨Nat.le_trans (h.offsets q).1 (hgrown q).length_le,
      fun o ho r hr => (h.offsets q).2 o ho r ?_⟩
    processes := ⟨fun u hu => ?_, h.processes.apart⟩ }
  · have hlt : o < (s.partitions q).length := Nat.lt_of_lt_of_le ho (h.offsets q).1
    obtain ⟨rest, hrest⟩ := hgrown q
    dsimp only at hr
    rwa [← hrest, List.getElem?_append_left hlt] at hr
  · have hok := h.processes.each u hu
    exact hok.frame (fun _ => id) hgrown (fun _ => id) hok.claim_notMem

/-- Another transaction of the service commits. -/
theorem GroupOk.change (h : GroupOk S s) (w : ω) :
    GroupOk S { s with
      db := { s.db with tables := S.apply w s.db.tables }
      writes := s.writes ++ [(none, w)] } := by
  have hids : (s.writes ++ [((none : Option EventId), w)]).filterMap Prod.fst =
      s.writes.filterMap Prod.fst := by simp
  refine { h with
    effects := fun row hrow hmem hsome => ?_
    claimed := by rw [hids]; exact h.claimed
    returned := fun eventId w' hmem => ?_
    once := by rw [hids]; exact h.once
    tables := ?_
    processes := ⟨fun u hu => (h.processes.each u hu).unmoved rfl rfl rfl, h.processes.apart⟩ }
  · obtain ⟨w', hw'⟩ := h.effects row hrow hmem hsome
    exact ⟨w', List.mem_append_left _ hw'⟩
  · rcases List.mem_append.mp hmem with hmem | hmem
    · exact h.returned eventId w' hmem
    · cases List.mem_singleton.mp hmem
  · rw [List.foldl_append, ← h.tables]
    rfl

/-- A process takes the next record of a partition. It has nothing in hand, so all it has passed
before is claimed. -/
theorem GroupOk.fetch (h : GroupOk S s) {p partition position : ℕ} {t : ConsumerProcess μ ω}
    {row : OutboxRow μ} (hp : s.processes[p]? = some t)
    (hposition : t.positions partition = some position)
    (hrow : (s.partitions partition)[position]? = some row) (hidle : t.inHand = none) :
    GroupOk S { s with
      processes := s.processes.set p
        { positions := Function.update t.positions partition (some (position + 1))
          inHand := some (row, .received) } } := by
  have ht := h.processes.each t (List.mem_of_getElem? hp)
  have hpositions {q position' : ℕ} (hposition' :
      Function.update t.positions partition (some (position + 1)) q = some position') :
      q = partition ∧ position' = position + 1 ∨ t.positions q = some position' := by
    by_cases hq : q = partition
    · subst hq
      rw [Function.update_self] at hposition'
      exact .inl ⟨rfl, (Option.some.inj hposition').symm⟩
    · rw [Function.update_of_ne hq] at hposition'
      exact .inr hposition'
  have hold {q position' o : ℕ} {row' : OutboxRow μ} (hposition' : t.positions q = some position')
      (ho : o < position') (hrow' : (s.partitions q)[o]? = some row') :
      row'.id ∈ s.db.inbox := by
    rcases ht.passed q position' hposition' o ho row' hrow' with hclaimed | ⟨stage, hstage⟩
    · exact hclaimed
    · cases hidle.symm.trans hstage
  refine h.own hp ⟨fun row' stage hstage => ?_, fun q position' hposition' => ?_,
    fun q position' hposition' o ho row' hrow' => ?_⟩ fun eventId hclaim => by cases hclaim
  · obtain ⟨rfl, rfl⟩ := Prod.mk.inj (Option.some.inj hstage)
    exact ⟨h.shipped partition row (List.mem_of_getElem? hrow), .received⟩
  · rcases hpositions hposition' with ⟨rfl, rfl⟩ | hposition'
    · exact (List.getElem?_eq_some_iff.mp hrow).1
    · exact ht.bound q position' hposition'
  · rcases hpositions hposition' with ⟨rfl, rfl⟩ | hposition'
    · rcases Nat.lt_or_eq_of_le (Nat.le_of_lt_succ ho) with ho | rfl
      · exact .inl (hold hposition ho hrow')
      · obtain rfl := Option.some.inj (hrow.symm.trans hrow')
        exact .inr ⟨_, rfl⟩
    · exact .inl (hold hposition' ho hrow')

/-- The offsets of a process are committed once its record is claimed. -/
theorem GroupOk.commitOffset (h : GroupOk S s) {p : ℕ} {t : ConsumerProcess μ ω}
    {row : OutboxRow μ} (hp : s.processes[p]? = some t)
    (hinHand : t.inHand = some (row, .processed)) :
    GroupOk S { s with
      offsets := fun q => (t.positions q).getD (s.offsets q)
      processes := s.processes.set p { t with inHand := none } } := by
  have ht := h.processes.each t (List.mem_of_getElem? hp)
  have hidle : ConsumerProcess.Ok S s { t with inHand := none } :=
    ⟨fun _ _ hstage => (by cases hstage), ht.bound, fun q position hposition o ho row' hrow' =>
      .inl ((h.passed hp hinHand hposition).2 o ho row' hrow')⟩
  have hown := h.own hp hidle fun eventId hclaim => by cases hclaim
  refine { hown with
    offsets := fun q => ?_
    processes := ⟨fun u hu => (hown.processes.each u hu).unmoved rfl rfl rfl,
      hown.processes.apart⟩ }
  cases hposition : t.positions q with
  | none => simpa [hposition] using h.offsets q
  | some position => simpa [hposition] using h.passed hp hinHand hposition

/-- **Every step keeps the invariant.** -/
theorem GroupOk.step (h : GroupOk S s) (hstep : GroupStep S s s') : GroupOk S s' := by
  cases hstep with
  | published aggregateId payload => exact h.publish aggregateId payload
  | shipped partition row hrow => exact h.ship partition hrow
  | changed w => exact h.change w
  | started =>
    have hnew : ConsumerProcess.Ok S s ({} : ConsumerProcess μ ω) :=
      ⟨fun _ _ hinHand => (by cases hinHand), fun _ _ hposition => (by cases hposition),
        fun _ _ hposition => (by cases hposition)⟩
    have hfamily := h.processes.start hnew fun u _ eventId _ hclaim => by cases hclaim
    exact { h with
      processes := ⟨fun u hu => (hfamily.each u hu).unmoved rfl rfl rfl, hfamily.apart⟩ }
  | assigned p partitions t hp =>
    have ht := h.processes.each t (List.mem_of_getElem? hp)
    have hpositions {q position : ℕ} (hposition :
        (if q ∈ partitions then some (s.offsets q) else none) = some position) :
        s.offsets q = position :=
      Option.some.inj (Option.ite_none_right_eq_some.mp hposition).2
    refine h.own hp ⟨ht.inHand, fun q position hposition => ?_,
      fun q position hposition o ho row hrow => ?_⟩ fun eventId hclaim => .inl hclaim
    · obtain rfl := hpositions hposition
      exact (h.offsets q).1
    · obtain rfl := hpositions hposition
      exact .inl ((h.offsets q).2 o ho row hrow)
  | fetched p partition position t row hp hposition hrow hidle =>
    exact h.fetch hp hposition hrow hidle
  | claimed p t row hp hinHand hnew hfree =>
    have ht := h.processes.each t (List.mem_of_getElem? hp)
    refine h.own hp (ht.stage hinHand (.claimed hnew)) fun eventId hclaim => .inr fun u hu => ?_
    obtain rfl := Option.some.inj hclaim
    exact hfree u hu
  | skipped p t row hp hinHand hclaimed =>
    have ht := h.processes.each t (List.mem_of_getElem? hp)
    exact h.own hp (ht.stage hinHand (.skipped hclaimed)) fun eventId hclaim => by cases hclaim
  | handled p seen t row writes hp hinHand hwrites hnone =>
    have ht := h.processes.each t (List.mem_of_getElem? hp)
    have hclaim : t.claim? = some row.id := by simp [ConsumerProcess.claim?, hinHand]
    refine h.own hp (ht.stage hinHand (.handled writes (ht.claim_notMem _ hclaim)
      ⟨fun handler hh => ⟨seen, hwrites handler hh⟩, hnone⟩)) fun eventId hmem => .inl ?_
    exact hclaim.trans hmem
  | committed p t row writes hp hinHand => exact h.commit hp hinHand
  | passed p t row hp hinHand =>
    have ht := h.processes.each t (List.mem_of_getElem? hp)
    obtain ⟨-, hholds⟩ := ht.inHand row _ hinHand
    cases hholds with
    | skipped hclaimed =>
      exact h.own hp (ht.stage hinHand (.processed hclaimed)) fun eventId hclaim => by cases hclaim
  | offsetCommitted p t row hp hinHand => exact h.commitOffset hp hinHand
  | ended p =>
    exact { h with processes := h.processes.finish p fun u _ hu => hu.unmoved rfl rfl rfl }

theorem groupOk_of_reachable (h : S.consumerGroup.Reachable s) : GroupOk S s :=
  h.invariant (GroupOk S) groupOk_init fun _ _ _ _ hok hstep => hok.step (groupStep_cases hstep)

end Invariant

/-! ### Exactly once

The invariant read off: each event has its effects once, and the tables are the fold of them. -/

section ExactlyOnce

variable {μ σ δ ω ε : Type} {S : InboxService μ σ δ ω ε} {s : ConsumerGroup μ δ ω}

/-- The handler of a record, as `postgresInboxProcessor` runs it when it sees `seen`. -/
def InboxService.handlerOn (S : InboxService μ σ δ ω ε) (handler : σ → Except ε ω) (seen : σ)
    (db : InboxDb δ) : Except ε (InboxDb δ) :=
  (handler seen).map fun w => { db with tables := S.apply w db.tables }

/-- **A commit is the processor's**, on the database that is committed by then. -/
theorem GroupOk.commit_process (h : GroupOk S s) {p : ℕ} {t : ConsumerProcess μ ω}
    {row : OutboxRow μ} {writes : Option ω} (hp : s.processes[p]? = some t)
    (hinHand : t.inHand = some (row, .handled writes)) :
    (∀ handler, S.handlers row.payload = some handler → ∃ seen,
      postgresInboxProcessor .ok (some (S.handlerOn handler seen)) row.id s.db =
        .ok (S.commit s.db row.id writes)) ∧
    (S.handlers row.payload = none →
      postgresInboxProcessor (.ok : InboxDb δ → Except ε (InboxDb δ)) none row.id s.db =
        .ok (S.commit s.db row.id writes)) := by
  have ht := h.processes.each t (List.mem_of_getElem? hp)
  obtain ⟨-, hholds⟩ := ht.inHand row _ hinHand
  cases hholds with
  | handled _ hnew hreturned =>
    refine ⟨fun handler hhandler => ?_, fun hnone => ?_⟩
    · obtain ⟨seen, w, hw, rfl⟩ := hreturned.handler handler hhandler
      refine ⟨seen, ?_⟩
      rw [postgresInboxProcessor_of_notMem hnew]
      simp only [Option.getD_some, InboxService.handlerOn, hw]
      rfl
    · rw [postgresInboxProcessor_of_notMem hnew, hreturned.none hnone]
      rfl

/-- **The effects of an event are committed exactly once**, in every reachable state. The writes
committed for events are those of their handlers, at most once for each event and with its claim,
and the tables are what all committed writes make of the ones at the start. Below a committed offset
every record has been claimed, and if its type has a handler, with its writes. -/
theorem effects_exactly_once (h : S.consumerGroup.Reachable s) :
    (s.writes.filterMap Prod.fst).Nodup ∧
    (∀ eventId w, (some eventId, w) ∈ s.writes → eventId ∈ s.db.inbox ∧
      ∃ row ∈ s.outbox, row.id = eventId ∧ S.Returned row.payload (some w)) ∧
    s.db.tables = s.writes.foldl (fun tables w => S.apply w.2 tables) S.tables ∧
    ∀ q o row, (s.partitions q)[o]? = some row → o < s.offsets q → row.id ∈ s.db.inbox ∧
      ((S.handlers row.payload).isSome → ∃ w, (some row.id, w) ∈ s.writes) := by
  have hok := groupOk_of_reachable h
  refine ⟨hok.once, fun eventId w hmem => ⟨?_, hok.returned eventId w hmem⟩, hok.tables,
    fun q o row hrow ho => ?_⟩
  · exact hok.claimed eventId (List.mem_filterMap.mpr ⟨_, hmem, rfl⟩)
  · have hclaimed := (hok.offsets q).2 o ho row hrow
    exact ⟨hclaimed, hok.effects row (hok.shipped q row (List.mem_of_getElem? hrow)) hclaimed⟩

end ExactlyOnce

/-- A service that adds up the numbers it is sent, and ignores other events. Its handler raises if
it sees `false`. -/
def sampleTally : InboxService (Option ℕ) Bool ℕ ℕ Unit where
  tables := 0
  handlers payload := payload.map fun n seen => if seen then .ok n else .error ()
  apply n total := total + n

/-- The handler raises at first. Then the first record is delivered to two processes at once, and
shipped a second time. -/
def sampleDeliveries : List (GroupAction (Option ℕ) Bool ℕ) :=
  [.publish 7 (some 5), .publish 7 none, .ship 0 0, .ship 0 0, .ship 1 0,
    .start, .assign 0 [0], .fetch 0 0, .claim 0, .handle 0 false,
    .start, .assign 0 [0], .fetch 0 0, .start, .assign 1 [0], .fetch 1 0,
    .claim 0, .handle 0 true, .commit 0, .crash 0,
    .claim 0, .commit 0, .commitOffset 0, .fetch 0 0, .claim 0, .commit 0, .commitOffset 0,
    .fetch 0 0, .claim 0, .handle 0 true, .commit 0, .commitOffset 0]

theorem effects_exactly_once_sampleDeliveries :
    ∃ s, sampleTally.consumerGroup.run sampleTally.consumerGroup.init sampleDeliveries = some s ∧
      s.offsets 0 = 3 ∧ s.db.tables = 5 ∧ (s.writes.filterMap Prod.fst).Nodup ∧
      ∀ o row, (s.partitions 0)[o]? = some row → o < 3 → row.id ∈ s.db.inbox := by
  have hend : (sampleTally.consumerGroup.run sampleTally.consumerGroup.init
      sampleDeliveries).map (fun s => (s.offsets 0, s.db.tables)) = some (3, 5) := by decide
  obtain ⟨s, hrun, hs⟩ := Option.map_eq_some_iff.mp hend
  obtain ⟨hoffset, htables⟩ := Prod.mk.inj hs
  obtain ⟨honce, -, -, hclaimed⟩ :=
    effects_exactly_once (TransitionSystem.reachable_of_run .init hrun)
  exact ⟨s, hrun, hoffset, htables, honce, fun o row hrow ho =>
    (hclaimed 0 o row hrow (hoffset ▸ ho)).1⟩

end CarFlow
