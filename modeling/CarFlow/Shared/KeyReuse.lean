import CarFlow.Shared.KeyExpiry

/-!
# Keys used for another operation

The guard knows a request by its caller, its `Idempotency-Key` and the hash of its body. It does
not know the method and the path, and several routes take no body at all: `accept` and `reject` of
a booking, `approve` and `reject` of a vehicle, the two switches of the kill switch. So a key that
has been used for one of them answers for the other, although the refusal speaks of "a different
request".

And it knows a key only as long as the row of the key is stored: once the cleanup has deleted it,
the key is free for any operation.

## Scope

Requests come **one at a time**, so that no race for a key is involved. The passes of the cleanup
come as they like, also while a request is under way.

## Main results

* `SequentialOk.step` — the invariant: a stored row is that of a performed request, and a request
  that is still to be performed has none
* `replays_own_iff` — every answer is that of the same operation in exactly the runs in which a key
  that comes back for another operation still has its row, with the hash of another body
-/

namespace CarFlow

/-! ### Operations -/

/-- The same caller asks for the same thing. -/
def SameOperation (r r' : Request) : Prop :=
  r.consumerId = r'.consumerId ∧ r.method = r'.method ∧ r.path = r'.path ∧ r.body = r'.body

instance (r r' : Request) : Decidable (SameOperation r r') :=
  inferInstanceAs (Decidable (_ ∧ _ ∧ _ ∧ _))

/-- A successful answer is what the operation has returned when it was performed. -/
def AnsweredOwn (performed : List (Request × String)) (request : Request) (answer : Answer) :
    Prop :=
  ∀ responseBody statusCode, answer = .response responseBody statusCode →
    ∃ x ∈ performed, SameOperation request x.1 ∧ x.2 = responseBody

/-- A replay only ever answers a retry of the same operation. -/
structure ReplaysOwn (s : ExpiringService) : Prop where
  answered : ∀ x ∈ s.answers, AnsweredOwn s.performed x.1 x.2
  /-- Also the answer that a request is about to get. -/
  answering : ∀ t ∈ s.requests, ∀ answer, t.phase = .finished answer →
    AnsweredOwn s.performed t.request answer
  /-- A key that has been used for another operation is refused. -/
  refused : ∀ t ∈ s.requests, ∀ x ∈ s.performed, x.1.slot = t.request.slot →
    ¬ SameOperation t.request x.1 → t.phase = .finished keyReused
  /-- No two operations are performed under one key. -/
  once : ∀ x ∈ s.performed, ∀ y ∈ s.performed, x.1.slot = y.1.slot → SameOperation x.1 y.1

/-- A request arrives when no other is under way. -/
def OneAtATime (s : ExpiringService) : ExpiryAction → Prop
  | .arrive _ => s.requests = []
  | _ => True

instance (s : ExpiringService) (a : ExpiryAction) : Decidable (OneAtATime s a) :=
  match a with
  | .arrive _ => decidable_of_iff (s.requests.isEmpty = true) List.isEmpty_iff
  | .tick _ | .advance _ _ | .commit _ | .respond _ | .abort _ | .cutoff | .purge _ =>
    .isTrue trivial

/-- A key that comes back for another operation has its row, and the hash of another body. -/
def KeepsKeysApart (hash : List UInt8 → String) (s : ExpiringService) : ExpiryAction → Prop
  | .arrive request => ∀ x ∈ s.performed, x.1.slot = request.slot → ¬ SameOperation request x.1 →
    (∃ row ∈ s.table, row.slot = request.slot) ∧ hash x.1.body ≠ hash request.body
  | _ => True

instance (hash : List UInt8 → String) (s : ExpiringService) (a : ExpiryAction) :
    Decidable (KeepsKeysApart hash s a) :=
  match a with
  | .arrive request => inferInstanceAs (Decidable (∀ x ∈ s.performed, x.1.slot = request.slot →
      ¬ SameOperation request x.1 →
        (∃ row ∈ s.table, row.slot = request.slot) ∧ hash x.1.body ≠ hash request.body))
  | .tick _ | .advance _ _ | .commit _ | .respond _ | .abort _ | .cutoff | .purge _ =>
    .isTrue trivial

theorem SameOperation.refl (r : Request) : SameOperation r r := ⟨rfl, rfl, rfl, rfl⟩

theorem SameOperation.symm {r r' : Request} (h : SameOperation r r') : SameOperation r' r :=
  ⟨h.1.symm, h.2.1.symm, h.2.2.1.symm, h.2.2.2.symm⟩

theorem AnsweredOwn.mono {performed performed' : List (Request × String)} {request : Request}
    {answer : Answer} (h : AnsweredOwn performed request answer)
    (hsub : ∀ x ∈ performed, x ∈ performed') : AnsweredOwn performed' request answer := by
  intro responseBody statusCode hanswer
  obtain ⟨x, hx, hsame⟩ := h responseBody statusCode hanswer
  exact ⟨x, hsub x hx, hsame⟩

/-! ### One request at a time -/

section Sequential

variable {hash : List UInt8 → String} {olderThan : ℤ} {table : List IdempotencyRow} {u : Running}
  {t : TimedRequest} {s s' : ExpiringService} {a : ExpiryAction}

/-- A request that is still to be performed has no row, and has lost no race. -/
def Running.Alone (table : List IdempotencyRow) (t : Running) : Prop :=
  match t.phase with
  | .conflicted _ => False
  | .lost _ _ => False
  | .finished _ => True
  | _ => findRow table t.request.slot = none

/-- **The invariant** of requests that come one at a time. -/
structure SequentialOk (hash : List UInt8 → String) (s : ExpiringService) : Prop where
  alone : s.requests.length ≤ 1
  requests : ∀ t ∈ s.requests, t.toRunning.Alone s.rows
  performed : ∀ row ∈ s.rows, ∃ x ∈ s.performed, x.1.row hash x.2 = row

/-- The only request under way. -/
theorem SequentialOk.eq_singleton (h : SequentialOk hash s) {i : ℕ} (hi : s.requests[i]? = some t) :
    s.requests = [t] ∧ i = 0 := by
  have hlength := h.alone
  have hlt := (List.getElem?_eq_some_iff.mp hi).1
  obtain rfl : i = 0 := by omega
  obtain ⟨u, hu⟩ := List.length_eq_one_iff.mp (show s.requests.length = 1 by omega)
  rw [hu] at hi ⊢
  exact ⟨congrArg (fun v => [v]) (Option.some.inj hi), rfl⟩

/-- A key with a row has been performed under. -/
theorem SequentialOk.exists_performed (h : SequentialOk hash s) {slot : Slot}
    {row : IdempotencyRow} (hrow : findRow s.rows slot = some row) :
    ∃ x ∈ s.performed, x.1.slot = slot ∧ x.1.row hash x.2 = row := by
  have hkey : row.slot = slot := RowTable.key_of_lookup hrow
  obtain ⟨x, hx, rfl⟩ := h.performed row (RowTable.mem_of_lookup hrow)
  exact ⟨x, hx, hkey, rfl⟩

theorem Running.Alone.start (request : Request) :
    Running.Alone table ⟨request, guardPhase hash table request⟩ := by
  unfold Running.Alone guardPhase
  cases hr : findRow table request.slot with
  | none => trivial
  | some row => by_cases hh : row.requestHash = hash request.body <;> simp [hh, keyReused]

/-- A step of a request that is alone: it stays alone, and if it gets an answer, that is an
error. -/
theorem Running.Alone.next (h : u.Alone table) {step : RequestStep} {phase : Phase}
    (hnext : nextPhase hash table [] u step = some phase) :
    Running.Alone table { u with phase } ∧
      ∀ responseBody statusCode, phase ≠ .finished (.response responseBody statusCode) := by
  obtain ⟨request, before⟩ := u
  cases step with
  | build outcome =>
    simp only [nextPhase] at hnext
    split at hnext
    · obtain rfl := Option.some.inj hnext
      cases outcome with
      | returns responseBody => exact ⟨h, by simp⟩
      | raises statusCode detail => exact ⟨trivial, by simp⟩
    · cases hnext
  | insert =>
    simp only [nextPhase] at hnext
    split at hnext
    · have hnone : findRow table request.slot = none := h
      rw [hnone] at hnext
      split at hnext
      · cases hnext
      · obtain rfl := Option.some.inj hnext
        exact ⟨hnone, by simp⟩
    · cases hnext
  | select =>
    simp only [nextPhase] at hnext
    split at hnext
    · exact h.elim
    · cases hnext

/-- A step is never taken by a request that has been refused. -/
theorem not_finished_of_nextPhase {others : List Running} {step : RequestStep} {phase : Phase}
    (hnext : nextPhase hash table others u step = some phase) (answer : Answer) :
    u.phase ≠ .finished answer := by
  intro hphase
  cases step <;> simp [nextPhase, hphase] at hnext

/-- A row that is deleted leaves a request alone. -/
theorem Running.Alone.mono {table' : List IdempotencyRow} (h : u.Alone table)
    (hsub : table'.Sublist table) : u.Alone table' := by
  have hnone (hfree : findRow table u.request.slot = none) : findRow table' u.request.slot = none :=
    RowTable.lookup_eq_none_iff.mpr fun row hrow =>
      RowTable.lookup_eq_none_iff.mp hfree row (hsub.mem hrow)
  unfold Running.Alone at h ⊢
  split at h
  · exact h
  · exact h
  · exact h
  · exact hnone h

/-- The race for a key is lost by nobody. -/
theorem SequentialOk.not_lost (h : SequentialOk hash s) {i : ℕ} (hi : s.requests[i]? = some t)
    {body : String} {row : IdempotencyRow} (hphase : t.phase = .lost body row) : False := by
  have ht := h.requests t (List.mem_of_getElem? hi)
  unfold Running.Alone at ht
  rwa [hphase] at ht

/-- **Every step keeps the invariant.** -/
theorem SequentialOk.step (h : SequentialOk hash s) (ha : OneAtATime s a)
    (hstep : ExpiryStep hash olderThan s a s') : SequentialOk hash s' := by
  cases hstep with
  | ticked seconds => exact { h with }
  | cutOff => exact { h with }
  | arrived request =>
    rw [show s.requests = [] from ha]
    exact ⟨Nat.le_refl 1, List.forall_mem_singleton.mpr (.start request), h.performed⟩
  | advanced i step t phase hi hphase =>
    obtain ⟨hs, rfl⟩ := h.eq_singleton hi
    have ht := h.requests t (List.mem_of_getElem? hi)
    rw [hs] at hphase ⊢
    exact ⟨Nat.le_refl 1, List.forall_mem_singleton.mpr (ht.next hphase).1, h.performed⟩
  | committed i t body hi hphase =>
    obtain ⟨hs, rfl⟩ := h.eq_singleton hi
    rw [hs]
    refine ⟨Nat.le_refl 1, List.forall_mem_singleton.mpr trivial, fun row hrow => ?_⟩
    obtain ⟨timed, htimed, rfl⟩ := List.mem_map.mp hrow
    rcases List.mem_append.mp htimed with htimed | htimed
    · obtain ⟨x, hx, hrow⟩ := h.performed _ (List.mem_map_of_mem htimed)
      exact ⟨x, List.mem_append_left _ hx, hrow⟩
    · rw [List.mem_singleton.mp htimed]
      exact ⟨(t.request, body), List.mem_append_right _ (List.mem_singleton_self _), rfl⟩
  | committedLost i t body row hi hphase => exact (h.not_lost hi hphase).elim
  | responded i t answer hi hphase =>
    obtain ⟨hs, rfl⟩ := h.eq_singleton hi
    rw [hs]
    exact ⟨Nat.zero_le 1, fun _ hu => absurd hu List.not_mem_nil, h.performed⟩
  | aborted i =>
    exact ⟨Nat.le_trans (List.length_eraseIdx_le ..) h.alone,
      fun u hu => h.requests u (ProcessFamily.mem_of_mem_eraseIdx hu), h.performed⟩
  | purged j cutoff hj =>
    have hsub : ((s.table.filter fun row => ¬ row.createdAt < cutoff).map
        (·.toIdempotencyRow)).Sublist s.rows := List.filter_sublist.map _
    exact ⟨h.alone, fun u hu => (h.requests u hu).mono hsub,
      fun row hrow => h.performed row (hsub.mem hrow)⟩

theorem sequentialOk_of_reachable
    (h : (expiringService hash olderThan).ReachableWhere OneAtATime s) : SequentialOk hash s := by
  refine h.invariant (SequentialOk hash) ⟨?_, ?_, ?_⟩
    fun _ _ _ _ hok ha hstep => hok.step ha (expiryStep_cases hstep)
  · exact Nat.zero_le 1
  · exact fun t ht => (by cases ht)
  · exact fun row hrow => (by cases hrow)

/-! ### The answers -/

/-- What the guard says about a key with a row. -/
theorem guardPhase_of_row {x : Request × String} {request : Request}
    (hrow : findRow table request.slot = some (x.1.row hash x.2)) :
    guardPhase hash table request = .finished
      (if hash x.1.body = hash request.body then .response x.2 x.1.statusCode else keyReused) := by
  rw [guardPhase, hrow]
  by_cases hh : hash x.1.body = hash request.body <;> simp [Request.row, hh]

/-- **A new request is told the right thing** exactly if it brings back no key of another operation,
or one that still has its row, with another hash. -/
theorem ReplaysOwn.arrive_iff (h : ReplaysOwn s) (hok : SequentialOk hash s) (request : Request)
    (hone : s.requests = []) :
    ReplaysOwn { s with
      requests := s.requests ++
        [{ request, phase := guardPhase hash s.rows request, started := s.now }] } ↔
      KeepsKeysApart hash s (.arrive request) := by
  rw [hone]
  constructor
  · intro hs x hx hslot hdiff
    have hphase := hs.refused _ List.mem_cons_self x hx hslot hdiff
    cases hr : findRow s.rows request.slot with
    | none =>
      rw [guardPhase, hr] at hphase
      cases hphase
    | some row =>
      obtain ⟨y, hy, hyslot, rfl⟩ := hok.exists_performed hr
      -- the row is that of the operation of the key, of which there is only one
      have hbody := (h.once x hx y hy (hslot.trans hyslot.symm)).2.2.2
      rw [guardPhase_of_row hr] at hphase
      refine ⟨?_, fun hhash => ?_⟩
      · obtain ⟨timed, htimed, hrow⟩ := List.mem_map.mp (RowTable.mem_of_lookup hr)
        exact ⟨timed, htimed, (congrArg IdempotencyRow.slot hrow).trans hyslot⟩
      · rw [if_pos (hbody ▸ hhash)] at hphase
        cases hphase
  · intro hapart
    refine { h with answering := List.forall_mem_singleton.mpr fun answer hanswer => ?_
                    refused := List.forall_mem_singleton.mpr fun x hx hslot hdiff => ?_ }
    · rintro responseBody statusCode rfl
      cases hr : findRow s.rows request.slot with
      | none =>
        rw [guardPhase, hr] at hanswer
        cases hanswer
      | some row =>
        obtain ⟨y, hy, hyslot, rfl⟩ := hok.exists_performed hr
        rw [guardPhase_of_row hr] at hanswer
        split at hanswer
        · rename_i hhash
          cases hanswer
          refine ⟨y, hy, ?_, rfl⟩
          by_contra hdiff
          exact (hapart y hy hyslot hdiff).2 hhash
        · cases hanswer
    · obtain ⟨⟨timed, htimed, hkey⟩, hhash⟩ := hapart x hx hslot hdiff
      cases hr : findRow s.rows request.slot with
      | none => exact absurd hkey (RowTable.lookup_eq_none_iff.mp hr _ (List.mem_map_of_mem htimed))
      | some row =>
        obtain ⟨y, hy, hyslot, rfl⟩ := hok.exists_performed hr
        have hbody := (h.once x hx y hy (hslot.trans hyslot.symm)).2.2.2
        rw [guardPhase_of_row hr]
        exact congrArg Phase.finished (if_neg (hbody ▸ hhash))

/-- A request that has not been refused is for the operation of its key. -/
theorem ReplaysOwn.same (h : ReplaysOwn s) {i : ℕ} (hi : s.requests[i]? = some t)
    (hphase : t.phase ≠ .finished keyReused) {x : Request × String} (hx : x ∈ s.performed)
    (hslot : x.1.slot = t.request.slot) : SameOperation t.request x.1 := by
  by_contra hdiff
  exact hphase (h.refused t (List.mem_of_getElem? hi) x hx hslot hdiff)

/-- **The other steps never tell a request something wrong.** -/
theorem ReplaysOwn.step (h : ReplaysOwn s) (hok : SequentialOk hash s)
    (harrive : ∀ request, a ≠ .arrive request) (hstep : ExpiryStep hash olderThan s a s') :
    ReplaysOwn s' := by
  cases hstep with
  | ticked | cutOff | purged => exact { h with }
  | arrived request => exact absurd rfl (harrive request)
  | advanced i step t phase hi hphase =>
    obtain ⟨hs, rfl⟩ := hok.eq_singleton hi
    have hsame {x : Request × String} := h.same hi (not_finished_of_nextPhase hphase _) (x := x)
    rw [hs] at hphase ⊢
    obtain ⟨-, herror⟩ := (hok.requests t (List.mem_of_getElem? hi)).next hphase
    refine { h with answering := List.forall_mem_singleton.mpr fun answer hanswer => ?_
                    refused := List.forall_mem_singleton.mpr fun x hx hslot hdiff => ?_ }
    · intro responseBody statusCode hresponse
      exact absurd (hresponse ▸ hanswer) (herror responseBody statusCode)
    · exact absurd (hsame hx hslot) hdiff
  | committed i t body hi hphase =>
    obtain ⟨hs, rfl⟩ := hok.eq_singleton hi
    have hsame {x : Request × String} := h.same hi (by rw [hphase]; nofun) (x := x)
    rw [hs]
    refine { answered := fun x hx => (h.answered x hx).mono fun y => List.mem_append_left _
             answering := List.forall_mem_singleton.mpr fun answer hanswer => ?_
             refused := List.forall_mem_singleton.mpr fun x hx hslot hdiff => ?_
             once := fun x hx y hy hslot => ?_ }
    · cases hanswer
      rintro responseBody statusCode hresponse
      cases hresponse
      exact ⟨(t.request, body), List.mem_append_right _ (List.mem_singleton_self _), .refl _, rfl⟩
    · rcases List.mem_append.mp hx with hx | hx
      · exact absurd (hsame hx hslot) hdiff
      · rw [List.mem_singleton.mp hx] at hdiff
        exact absurd (.refl _) hdiff
    · rcases List.mem_append.mp hx with hx | hx <;> rcases List.mem_append.mp hy with hy | hy
      · exact h.once x hx y hy hslot
      · rw [List.mem_singleton.mp hy] at hslot ⊢
        exact (hsame hx hslot).symm
      · rw [List.mem_singleton.mp hx] at hslot ⊢
        exact hsame hy hslot.symm
      · rw [List.mem_singleton.mp hx, List.mem_singleton.mp hy]
        exact .refl _
  | committedLost i t body row hi hphase => exact (hok.not_lost hi hphase).elim
  | responded i t answer hi hphase =>
    have ht := List.mem_of_getElem? hi
    refine { h with
      answered := List.forall_mem_append.mpr ⟨h.answered, List.forall_mem_singleton.mpr ?_⟩
      answering := fun u hu => h.answering u (ProcessFamily.mem_of_mem_eraseIdx hu)
      refused := fun u hu => h.refused u (ProcessFamily.mem_of_mem_eraseIdx hu) }
    exact h.answering t ht answer hphase
  | aborted i =>
    exact { h with
      answering := fun u hu => h.answering u (ProcessFamily.mem_of_mem_eraseIdx hu)
      refused := fun u hu => h.refused u (ProcessFamily.mem_of_mem_eraseIdx hu) }

theorem replaysOwn_step_iff (h : ReplaysOwn s) (hok : SequentialOk hash s) (ha : OneAtATime s a)
    (hstep : ExpiryStep hash olderThan s a s') : ReplaysOwn s' ↔ KeepsKeysApart hash s a := by
  cases a with
  | arrive request =>
    cases hstep
    exact h.arrive_iff hok request ha
  | _ => exact iff_of_true (h.step hok (fun _ ha => by cases ha) hstep) trivial

/-- **A replay answers a retry of the same operation** throughout a run of requests one at a time,
exactly if a key that comes back in it for another operation still has its row, and the hash of
another body. -/
theorem replays_own_iff {run : List (ExpiringService × ExpiryAction)}
    (h : (expiringService hash olderThan).Exec (expiringService hash olderThan).init run s)
    (hone : ∀ x ∈ run, OneAtATime x.1 x.2) :
    TransitionSystem.Throughout ReplaysOwn run s ↔ ∀ x ∈ run, KeepsKeysApart hash x.1 x.2 := by
  have hinit : ReplaysOwn (expiringService hash olderThan).init := by
    refine ⟨?_, ?_, ?_, ?_⟩
    · exact fun x hx => (by cases hx)
    · exact fun t ht => (by cases ht)
    · exact fun t ht => (by cases ht)
    · exact fun x hx => (by cases hx)
  refine h.forall_iff_where OneAtATime ReplaysOwn (KeepsKeysApart hash) hinit
    (fun s a s' hr ha hown hstep => ?_) hone
  exact replaysOwn_step_iff hown (sequentialOk_of_reachable hr) ha (expiryStep_cases hstep)

/-! ### Samples -/

/-- A host answers a booking request. The two routes take no body. -/
def answerBooking (path : String) : Request where
  consumerId := "host"
  key := "k"
  method := "POST"
  path := path
  body := []
  statusCode := 200

def sampleAccept : Request := answerBooking "/bookings/1/accept"

def sampleReject : Request := answerBooking "/bookings/1/reject"

/-- The car is handed over under the same key, with a body. -/
def sampleTakeover : Request := { answerBooking "/bookings/1/handover" with body := [1] }

/-- The host accepts, and repeats that, before and after the row is deleted. The handover comes
between, under the same key. -/
def sampleRepeats : List ExpiryAction :=
  [.arrive sampleAccept, .advance 0 (.build (.returns "accepted")), .advance 0 .insert, .commit 0,
    .respond 0, .arrive sampleAccept, .respond 0, .arrive sampleTakeover, .respond 0,
    .tick 86401, .cutoff, .purge 0, .arrive sampleAccept,
    .advance 0 (.build (.returns "accepted again")), .advance 0 .insert, .commit 0, .respond 0]

theorem replays_own_iff_sampleRepeats :
    ∃ s run, (expiringService sampleHash 86400).Exec (expiringService sampleHash 86400).init run s ∧
      run.map Prod.snd = sampleRepeats ∧
      s.answers = [(sampleAccept, .response "accepted" 200),
        (sampleAccept, .response "accepted" 200), (sampleTakeover, keyReused),
        (sampleAccept, .response "accepted again" 200)] ∧
      TransitionSystem.Throughout ReplaysOwn run s := by
  have hend : ((expiringService sampleHash 86400).run {} sampleRepeats).map (·.answers) =
      some [(sampleAccept, .response "accepted" 200), (sampleAccept, .response "accepted" 200),
        (sampleTakeover, keyReused), (sampleAccept, .response "accepted again" 200)] := by decide
  obtain ⟨s, hrun, hanswers⟩ := Option.map_eq_some_iff.mp hend
  have hexec := TransitionSystem.exec_steps hrun
  exact ⟨s, _, hexec, TransitionSystem.map_snd_steps hrun, hanswers,
    (replays_own_iff hexec (by decide)).mpr (by decide)⟩

/-- A host accepts a booking, and tries to reject it under the same key. -/
def sampleReuse : List ExpiryAction :=
  [.arrive sampleAccept, .advance 0 (.build (.returns "accepted")), .advance 0 .insert, .commit 0,
    .respond 0, .arrive sampleReject, .respond 0]

/-- The rejection is answered with the acceptance. -/
theorem rejection_answered_accepted :
    ∃ s run, (expiringService sampleHash 86400).Exec (expiringService sampleHash 86400).init run s ∧
      (∀ x ∈ run, OneAtATime x.1 x.2) ∧ s.performed = [(sampleAccept, "accepted")] ∧
      s.answers = [(sampleAccept, .response "accepted" 200),
        (sampleReject, .response "accepted" 200)] ∧ ¬ ReplaysOwn s := by
  have hend : ((expiringService sampleHash 86400).run {} sampleReuse).map
      (fun s => (s.performed, s.answers)) = some ([(sampleAccept, "accepted")],
        [(sampleAccept, .response "accepted" 200), (sampleReject, .response "accepted" 200)]) := by
    decide
  obtain ⟨s, hrun, hs⟩ := Option.map_eq_some_iff.mp hend
  obtain ⟨hperformed, hanswers⟩ := Prod.mk.inj hs
  refine ⟨s, _, TransitionSystem.exec_steps hrun, by decide, hperformed, hanswers, fun hown => ?_⟩
  obtain ⟨x, hx, hsame, -⟩ := hown.answered (sampleReject, .response "accepted" 200)
    (by simp [hanswers]) "accepted" 200 rfl
  rw [hperformed, List.mem_singleton] at hx
  subst hx
  exact absurd hsame.2.2.1 (by decide)

end Sequential

end CarFlow
