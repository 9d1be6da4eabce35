import CarFlow.Listing.Transactions

/-!
# Decisions about a vehicle

`approve_vehicle` and `reject_vehicle` read the row, check that its status is `pending`, and then
update it by its primary key. The update does not repeat the check. Two admins who both read a
pending row both get through: the second update waits for the first transaction, and then
overwrites its decision.

## What a run decides

`decisions` are the decisions about a vehicle that a run has committed, in order. The committed
status is the last of them (`DecisionLog.step`), so whether a vehicle is decided once can be read
off this list.

## Implementation notes

The service checks the status that it has read. `DecidesOpen` is the same check of the committed
row, in the state before the commit, and the result is that this one is what counts: a run may
contain any number of operations that were checked on an old row, as long as none of them commits
over another decision.

## Main results

* `decided_once_iff` — a vehicle is decided once in exactly the runs in which no decision is
  committed over a different one
-/

namespace CarFlow

/-! ### The decisions of a run

The log of decisions is a part of the run, beside the database that the service has. -/

/-- The committed status of a vehicle. -/
def ListingDb.status (db : ListingDb) (vehicleId : Uuid) : Option ApprovalStatus :=
  (db.getById vehicleId).map (·.approvalStatus)

/-- What an operation decides about a vehicle. -/
def ListingOperation.decision (vehicleId : Uuid) : ListingOperation → Option ApprovalStatus
  | .approveVehicle id => if id = vehicleId then some .approved else none
  | .rejectVehicle id => if id = vehicleId then some .rejected else none
  | _ => none

/-- The decision about a vehicle that a step commits. -/
def decisionOf (vehicleId : Uuid) (x : ListingServer × ListingAction) : Option ApprovalStatus :=
  match x.2 with
  | .commit i => x.1.transactions[i]?.bind fun t => t.op.decision vehicleId
  | _ => none

/-- The decisions about a vehicle that a run commits. -/
def decisions (vehicleId : Uuid) (run : List (ListingServer × ListingAction)) :
    List ApprovalStatus :=
  run.filterMap (decisionOf vehicleId)

/-- The committed status leaves `pending` in a step. -/
def leavesPending (vehicleId : Uuid) (x : ListingServer × ListingAction) : Bool :=
  x.1.db.status vehicleId = some .pending ∧
    (listingStep x.1 x.2).any fun s => (s.db.status vehicleId).any (· ≠ .pending)

/-- The outbox says that a vehicle was approved. -/
def ListingDb.Announces (db : ListingDb) (vehicleId : Uuid) : Prop :=
  ∃ message ∈ writtenFor db.outbox vehicleId, message.eventType = .vehicleApproved

/-- A vehicle is decided once: its status leaves `pending` at most once, the committed decisions
are of one kind, and the outbox announces an approval exactly if the vehicle is approved. -/
structure DecidedOnce (vehicleId : Uuid) (run : List (ListingServer × ListingAction))
    (s : ListingServer) : Prop where
  leaves : run.countP (leavesPending vehicleId) ≤ 1
  kinds : ∀ d ∈ decisions vehicleId run, ∀ d' ∈ decisions vehicleId run, d = d'
  announced : s.db.Announces vehicleId ↔ s.db.status vehicleId = some .approved

/-- A decision is committed while the row is still pending, or decided the same way. -/
def DecidesOpen (vehicleId : Uuid) (s : ListingServer) : ListingAction → Prop
  | .commit i => ∀ t, s.transactions[i]? = some t → ∀ d, t.op.decision vehicleId = some d →
    ∀ status, s.db.status vehicleId = some status → status = .pending ∨ status = d
  | _ => True

/-! ### One commit

What a commit does to the status of a vehicle and to the approvals that were announced. -/

section Commit

variable {db : ListingDb} {t : ListingTransaction} {vehicleId : Uuid} {d : ApprovalStatus}

theorem ListingOperation.decision_ne_pending {op : ListingOperation}
    (h : op.decision vehicleId = some d) : d ≠ .pending := by
  cases op with
  | createVehicle | updateVehicle => cases h
  | approveVehicle id | rejectVehicle id =>
    simp only [decision, Option.ite_none_right_eq_some, Option.some.injEq] at h
    rw [← h.2]
    simp

theorem ListingOperation.vehicleId_of_decision {op : ListingOperation}
    (h : op.decision vehicleId = some d) : op.vehicleId = vehicleId ∧ op.creates = false := by
  cases op with
  | createVehicle | updateVehicle => cases h
  | approveVehicle id | rejectVehicle id =>
    simp only [decision, Option.ite_none_right_eq_some] at h
    exact ⟨h.1, rfl⟩

/-- What an accepted operation does to the status of the row it updates. -/
theorem ListingAccepts.status {read current : Vehicle} {op : ListingOperation} {w : ListingWrites}
    (h : ListingAccepts read op w) :
    (read.updateColumns w.vehicle current).approvalStatus =
      (op.decision op.vehicleId).getD current.approvalStatus := by
  cases h with
  | update id fields => exact if_pos rfl
  | approve id hpending | reject id hpending =>
    have hset : ∀ status, status ≠ .pending →
        (read.updateColumns (read.withStatus status) current).approvalStatus = status :=
      fun status hne => if_neg fun he => hne (he.trans hpending)
    simp only [ListingOperation.decision, ListingOperation.vehicleId, if_true, Option.getD_some]
    exact hset _ (by simp)

/-- A commit that decides finds a row, and leaves its decision. -/
theorem ListingTransaction.Ok.commit_decides (h : t.Ok db) (hflushed : t.flushed = true)
    (hd : t.op.decision vehicleId = some d) :
    db.status vehicleId ≠ none ∧ (db.commit t).status vehicleId = some d := by
  obtain ⟨rfl, hc⟩ := ListingOperation.vehicleId_of_decision hd
  cases hread : t.read with
  | none => cases hc.symm.trans (h.opens hread).1
  | some read =>
    obtain ⟨-, current, hcurrent, -⟩ := h.read read hread
    refine ⟨by simp [ListingDb.status, hcurrent], ?_⟩
    rw [ListingDb.status, (h.commit_getById hflushed).2 read hread current hcurrent,
      Option.map_some, (h.accepts hread).status, hd, Option.getD_some]

/-- A commit that does not decide leaves the status, or the first one. -/
theorem ListingTransaction.Ok.commit_keeps (h : t.Ok db) (hflushed : t.flushed = true)
    (hd : t.op.decision vehicleId = none) :
    (db.commit t).status vehicleId = db.status vehicleId ∨
      db.status vehicleId = none ∧ (db.commit t).status vehicleId = some .pending := by
  by_cases hk : t.op.vehicleId = vehicleId
  swap
  · exact .inl (by rw [ListingDb.status, h.commit_getById_of_ne hk, ListingDb.status])
  subst hk
  cases hread : t.read with
  | none =>
    obtain ⟨-, hostId, payload, hw⟩ := h.opens hread
    refine .inr ⟨by simp [ListingDb.status, (h.inserted hread hflushed).2], ?_⟩
    rw [ListingDb.status, (h.commit_getById hflushed).1 hread, hw]
    rfl
  | some read =>
    obtain ⟨-, current, hcurrent, -⟩ := h.read read hread
    refine .inl ?_
    rw [ListingDb.status, (h.commit_getById hflushed).2 read hread current hcurrent,
      Option.map_some, (h.accepts hread).status, hd, Option.getD_none, ListingDb.status, hcurrent,
      Option.map_some]

/-- A commit announces an approval exactly if it is one. -/
theorem ListingTransaction.Ok.announces_commit (h : t.Ok db) :
    (db.commit t).Announces vehicleId ↔
      db.Announces vehicleId ∨ t.op.decision vehicleId = some .approved := by
  have hevent : (∃ message ∈ t.writes.event, message.eventType = .vehicleApproved) ∧
      t.op.vehicleId = vehicleId ↔ t.op.decision vehicleId = some .approved := by
    cases hread : t.read with
    | none =>
      obtain ⟨hc, hostId, payload, hw⟩ := h.opens hread
      rw [hw]
      generalize t.op = op at hc
      cases op with
      | createVehicle => simp [ListingOperation.decision]
      | _ => cases hc
    | some read =>
      have hacc := h.accepts hread
      generalize t.op = op, t.writes = w at hacc
      cases hacc <;> simp [ListingOperation.decision, ListingOperation.vehicleId]
  rw [← hevent]
  simp only [ListingDb.Announces, ListingDb.commit]
  cases he : t.writes.event with
  | none => simp
  | some message =>
    rw [writtenFor_write]
    by_cases hk : t.op.vehicleId = vehicleId <;> simp [hk, or_and_right, exists_or]

end Commit

/-! ### A run -/

/-- **The row and the outbox against the decisions of the run.** -/
structure DecisionLog (vehicleId : Uuid) (run : List (ListingServer × ListingAction))
    (s : ListingServer) : Prop where
  /-- The committed status is the last decision. -/
  status : ∀ status, s.db.status vehicleId = some status →
    status = (decisions vehicleId run).getLast?.getD .pending
  exists_row : decisions vehicleId run ≠ [] → s.db.status vehicleId ≠ none
  announces : s.db.Announces vehicleId ↔ .approved ∈ decisions vehicleId run
  leaves : run.countP (leavesPending vehicleId) ≤ if decisions vehicleId run = [] then 0 else 1

section Run

variable {s s' : ListingServer} {a : ListingAction} {vehicleId : Uuid}
  {run : List (ListingServer × ListingAction)}

theorem decisions_snoc (x : ListingServer × ListingAction) :
    decisions vehicleId (run ++ [x]) =
      decisions vehicleId run ++ (decisionOf vehicleId x).toList := by
  rw [decisions, List.filterMap_append, ← decisions]
  cases hd : decisionOf vehicleId x <;> simp [hd]

theorem ne_pending_of_mem_decisions {d : ApprovalStatus} (h : d ∈ decisions vehicleId run) :
    d ≠ .pending := by
  obtain ⟨⟨s, a⟩, -, hd⟩ := List.mem_filterMap.mp h
  cases a with
  | commit i =>
    obtain ⟨t, -, hd⟩ := Option.bind_eq_some_iff.mp hd
    exact ListingOperation.decision_ne_pending hd
  | begin | flush | abort => cases hd

/-- The status is still pending exactly as long as there is no decision. -/
theorem DecisionLog.pending_iff (h : DecisionLog vehicleId run s) {status : ApprovalStatus}
    (hstatus : s.db.status vehicleId = some status) :
    status = .pending ↔ decisions vehicleId run = [] := by
  rw [h.status status hstatus]
  constructor
  · intro hpending
    by_contra hne
    refine ne_pending_of_mem_decisions (List.getLast_mem hne) ?_
    rwa [List.getLast?_eq_some_getLast hne, Option.getD_some] at hpending
  · intro hnil
    rw [hnil]
    rfl

/-- A step that commits no decision: the status stays, or a pending row appears. -/
theorem DecisionLog.undecided (h : DecisionLog vehicleId run s)
    (hd : decisionOf vehicleId (s, a) = none) (hstep : listingStep s a = some s')
    (hannounces : s'.db.Announces vehicleId ↔ s.db.Announces vehicleId)
    (hstatus : s'.db.status vehicleId = s.db.status vehicleId ∨
      s.db.status vehicleId = none ∧ s'.db.status vehicleId = some .pending) :
    DecisionLog vehicleId (run ++ [(s, a)]) s' := by
  have hsame : decisions vehicleId (run ++ [(s, a)]) = decisions vehicleId run := by
    rw [decisions_snoc, hd, Option.toList_none, List.append_nil]
  have hleaves : leavesPending vehicleId (s, a) = false := by
    simp only [leavesPending, hstep, Option.any_some, decide_eq_false_iff_not]
    rintro ⟨hpending, hany⟩
    rcases hstatus with hstatus | ⟨hnone, -⟩
    · rw [hstatus, hpending] at hany
      simp at hany
    · cases hnone.symm.trans hpending
  refine ⟨fun status hstatus' => ?_, fun hne => ?_, ?_, ?_⟩
  · rw [hsame]
    rcases hstatus with hstatus | ⟨hnone, hpending⟩
    · exact h.status status (hstatus ▸ hstatus')
    · have hnil : decisions vehicleId run = [] := by
        by_contra hne
        exact h.exists_row hne hnone
      rw [hnil]
      exact (Option.some.inj (hpending.symm.trans hstatus')).symm
  · rw [hsame] at hne
    rcases hstatus with hstatus | ⟨-, hpending⟩
    · exact hstatus ▸ h.exists_row hne
    · simp [hpending]
  · rw [hsame, hannounces, h.announces]
  · rw [hsame, List.countP_append, List.countP_singleton, hleaves]
    exact h.leaves

/-- A step that commits a decision. -/
theorem DecisionLog.decided (h : DecisionLog vehicleId run s) {d : ApprovalStatus}
    (hd : decisionOf vehicleId (s, a) = some d)
    (hannounces : s'.db.Announces vehicleId ↔ s.db.Announces vehicleId ∨ d = .approved)
    (hstatus : s'.db.status vehicleId = some d) :
    DecisionLog vehicleId (run ++ [(s, a)]) s' := by
  have hsnoc : decisions vehicleId (run ++ [(s, a)]) = decisions vehicleId run ++ [d] := by
    rw [decisions_snoc, hd, Option.toList_some]
  refine ⟨fun status hstatus' => ?_, fun _ => by simp [hstatus], ?_, ?_⟩
  · rw [hsnoc, List.getLast?_concat, Option.getD_some]
    exact Option.some.inj (hstatus'.symm.trans hstatus)
  · rw [hsnoc, hannounces, h.announces, List.mem_append, List.mem_singleton, eq_comm]
  · have hleaves := h.leaves
    rw [if_neg (by simp [hsnoc]), List.countP_append, List.countP_singleton]
    by_cases hnil : decisions vehicleId run = []
    · rw [if_pos hnil] at hleaves
      split <;> omega
    · -- the status has left `pending` before
      rw [if_neg hnil] at hleaves
      have hstays : leavesPending vehicleId (s, a) = false := by
        simp only [leavesPending, decide_eq_false_iff_not]
        exact fun hleave => hnil ((h.pending_iff hleave.1).mp rfl)
      rw [hstays]
      simpa using hleaves

/-- **Every step keeps the log.** -/
theorem DecisionLog.step (h : DecisionLog vehicleId run s) (hok : ListingServerOk s)
    (hstep : listingStep s a = some s') : DecisionLog vehicleId (run ++ [(s, a)]) s' := by
  cases listingStep_cases hstep with
  | began op w hplan => exact h.undecided rfl hstep Iff.rfl (.inl rfl)
  | flushed i t own hi hflush => exact h.undecided rfl hstep Iff.rfl (.inl rfl)
  | raised i => exact h.undecided rfl hstep Iff.rfl (.inl rfl)
  | aborted i => exact h.undecided rfl hstep Iff.rfl (.inl rfl)
  | committed i t hi hflushed =>
    have ht := hok.each t (List.mem_of_getElem? hi)
    have hof : decisionOf vehicleId (s, .commit i) = t.op.decision vehicleId := by
      simp [decisionOf, hi]
    cases hd : t.op.decision vehicleId with
    | none =>
      refine h.undecided (hof.trans hd) hstep ?_ (ht.commit_keeps hflushed hd)
      rw [ht.announces_commit, hd]
      simp
    | some d =>
      refine h.decided (hof.trans hd) ?_ (ht.commit_decides hflushed hd).2
      rw [ht.announces_commit, hd, Option.some.injEq]

theorem decisionLog_of_exec (h : listingServer.Exec listingServer.init run s) :
    DecisionLog vehicleId run s := by
  induction h with
  | nil => exact ⟨by simp [listingServer, ListingDb.status, ListingDb.getById], by simp [decisions],
      by simp [ListingDb.Announces, listingServer, writtenFor, decisions], by simp⟩
  | snoc hexec hstep ih => exact ih.step (listingServerOk_of_reachable hexec.reachable) hstep

/-- One more decision is of the same kind if the last one is. -/
theorem kinds_concat {ds : List ApprovalStatus} {e : ApprovalStatus} :
    (∀ d ∈ ds ++ [e], ∀ d' ∈ ds ++ [e], d = d') ↔
      (∀ d ∈ ds, ∀ d' ∈ ds, d = d') ∧ ∀ d ∈ ds.getLast?, d = e := by
  constructor
  · intro h
    refine ⟨fun d hd d' hd' => h d (List.mem_append_left _ hd) d' (List.mem_append_left _ hd'),
      fun d hd => ?_⟩
    exact h d (List.mem_append_left _ (List.mem_of_getLast? hd)) e (by simp)
  · rintro ⟨hall, hlast⟩
    have he : ∀ d ∈ ds, d = e := by
      intro d hd
      have hl := List.getLast?_eq_some_getLast (List.ne_nil_of_mem hd)
      exact (hall d hd _ (List.mem_of_getLast? hl)).trans (hlast _ hl)
    have he' : ∀ d ∈ ds ++ [e], d = e :=
      List.forall_mem_append.mpr ⟨he, List.forall_mem_singleton.mpr rfl⟩
    exact fun d hd d' hd' => (he' d hd).trans (he' d' hd').symm

/-- A step commits a decision over an open row exactly if its decision is of the kind of the last
one. -/
theorem DecisionLog.decidesOpen_iff (h : DecisionLog vehicleId run s) (hok : ListingServerOk s)
    (hstep : listingStep s a = some s') :
    DecidesOpen vehicleId s a ↔ ∀ d ∈ decisionOf vehicleId (s, a),
      ∀ l ∈ (decisions vehicleId run).getLast?, l = d := by
  cases listingStep_cases hstep with
  | began op w hplan => exact iff_of_true trivial (by simp [decisionOf])
  | flushed i t own hi hflush => exact iff_of_true trivial (by simp [decisionOf])
  | raised i => exact iff_of_true trivial (by simp [decisionOf])
  | aborted i => exact iff_of_true trivial (by simp [decisionOf])
  | committed i t hi hflushed =>
    have ht := hok.each t (List.mem_of_getElem? hi)
    simp only [DecidesOpen, decisionOf, hi, Option.some.injEq, forall_eq', Option.bind_some,
      Option.mem_def]
    refine forall_congr' fun d => imp_congr_right fun hd => ?_
    obtain ⟨status, hstatus⟩ := Option.ne_none_iff_exists'.mp (ht.commit_decides hflushed hd).1
    rw [hstatus]
    simp only [Option.some.injEq, forall_eq']
    rw [h.pending_iff hstatus, h.status status hstatus]
    constructor
    · rintro (hnil | heq) l hl
      · rw [hnil] at hl
        cases hl
      · rwa [hl] at heq
    · intro hall
      cases hl : (decisions vehicleId run).getLast? with
      | none => exact .inl (List.getLast?_eq_none_iff.mp hl)
      | some l => exact .inr (hall l hl)

/-- The decisions of a run are of one kind exactly if each is committed over an open row. -/
theorem kinds_iff (h : listingServer.Exec listingServer.init run s) :
    (∀ d ∈ decisions vehicleId run, ∀ d' ∈ decisions vehicleId run, d = d') ↔
      ∀ x ∈ run, DecidesOpen vehicleId x.1 x.2 := by
  induction h with
  | nil => simp [decisions]
  | snoc hexec hstep ih =>
    rename_i run s s' a
    have hok := listingServerOk_of_reachable hexec.reachable
    rw [List.forall_mem_append, List.forall_mem_singleton, ← ih, decisions_snoc,
      (decisionLog_of_exec hexec).decidesOpen_iff hok hstep]
    cases hd : decisionOf vehicleId (s, a) with
    | none => simp
    | some d =>
      rw [Option.toList_some, kinds_concat]
      simp

/-- **A vehicle is decided once** in a run, exactly if no decision is committed in it over a
different one. -/
theorem decided_once_iff (h : listingServer.Exec listingServer.init run s) (vehicleId : Uuid) :
    DecidedOnce vehicleId run s ↔ ∀ x ∈ run, DecidesOpen vehicleId x.1 x.2 := by
  have hlog : DecisionLog vehicleId run s := decisionLog_of_exec h
  rw [← kinds_iff h]
  refine ⟨DecidedOnce.kinds, fun hkinds => ⟨?_, hkinds, ?_⟩⟩
  · refine Nat.le_trans hlog.leaves ?_
    split <;> omega
  · rw [hlog.announces]
    constructor
    · intro hmem
      obtain ⟨status, hstatus⟩ := Option.ne_none_iff_exists'.mp
        (hlog.exists_row (List.ne_nil_of_mem hmem))
      have hlast := List.getLast?_eq_some_getLast (List.ne_nil_of_mem hmem)
      rw [hstatus, hlog.status status hstatus, hlast, Option.getD_some,
        hkinds _ (List.getLast_mem _) _ hmem]
    · intro hstatus
      have hlast := hlog.status _ hstatus
      cases hl : (decisions vehicleId run).getLast? with
      | none =>
        rw [hl] at hlast
        cases hlast
      | some l =>
        rw [hl, Option.getD_some] at hlast
        exact hlast ▸ List.mem_of_getLast? hl

end Run

/-- Two admins decide about a pending vehicle at the same time. The rejection commits last. -/
def sampleTwoAdmins : List ListingAction :=
  [.begin (.createVehicle 7 1 ⟨"make", "model", 2020, 5000, 200, .instant, 0, 0⟩), .flush 0,
    .commit 0, .begin (.approveVehicle 7), .begin (.rejectVehicle 7), .flush 0, .commit 0,
    .flush 0, .commit 0]

/-- The vehicle is approved, then rejected, and search has been told of the approval. -/
theorem sampleTwoAdmins_end :
    decisions 7 (listingServer.steps {} sampleTwoAdmins) = [.approved, .rejected] ∧
    ∃ s, listingServer.run {} sampleTwoAdmins = some s ∧ s.transactions = [] ∧
      s.db.status 7 = some .rejected ∧ s.db.Announces 7 := by
  refine ⟨by decide, ?_⟩
  obtain ⟨s, hrun, hs⟩ : ∃ s, listingServer.run {} sampleTwoAdmins = some s ∧
      (s.transactions.isEmpty, s.db.status 7,
        (writtenFor s.db.outbox 7).map (·.eventType)) =
        (true, some .rejected, [.vehicleApproved]) := by
    rw [← Option.map_eq_some_iff]
    decide
  simp only [Prod.mk.injEq, List.isEmpty_iff] at hs
  obtain ⟨hidle, hstatus, hevents⟩ := hs
  obtain ⟨message, hmem, htype⟩ := List.mem_map.mp
    (hevents ▸ List.mem_singleton_self ListingEventType.vehicleApproved)
  exact ⟨s, hrun, hidle, hstatus, message, hmem, htype⟩

theorem not_decidedOnce_of_rejected {vehicleId : Uuid}
    {run : List (ListingServer × ListingAction)} {s : ListingServer}
    (hstatus : s.db.status vehicleId = some .rejected) (hannounces : s.db.Announces vehicleId) :
    ¬ DecidedOnce vehicleId run s := by
  intro honce
  have happroved := honce.announced.mp hannounces
  rw [hstatus] at happroved
  cases happroved

theorem decided_once_iff_sampleTwoAdmins :
    ∃ s run, listingServer.Exec listingServer.init run s ∧ run.map Prod.snd = sampleTwoAdmins ∧
      decisions 7 run = [.approved, .rejected] ∧ ¬ DecidedOnce 7 run s ∧
      ¬ ∀ x ∈ run, DecidesOpen 7 x.1 x.2 := by
  obtain ⟨hdecisions, s, hrun, -, hstatus, hannounces⟩ := sampleTwoAdmins_end
  have hexec := TransitionSystem.exec_steps hrun
  have hnot : ¬ DecidedOnce 7 (listingServer.steps {} sampleTwoAdmins) s :=
    not_decidedOnce_of_rejected hstatus hannounces
  exact ⟨s, _, hexec, TransitionSystem.map_snd_steps hrun, hdecisions, hnot,
    (decided_once_iff hexec 7).not.mp hnot⟩

theorem vehicle_decided_twice :
    ∃ s run, listingServer.Exec listingServer.init run s ∧ s.transactions = [] ∧
      decisions 7 run = [.approved, .rejected] ∧ s.db.status 7 = some .rejected ∧
      s.db.Announces 7 ∧ ¬ DecidedOnce 7 run s := by
  obtain ⟨hdecisions, s, hrun, hidle, hstatus, hannounces⟩ := sampleTwoAdmins_end
  exact ⟨s, _, TransitionSystem.exec_steps hrun, hidle, hdecisions, hstatus, hannounces,
    not_decidedOnce_of_rejected hstatus hannounces⟩

end CarFlow
