import CarFlow.Shared.Retries
import Mathlib.Data.List.InsertIdx

/-!
# A key with another body

Requests side by side, as in the model of the guard, now with what their builds write: each request
has a session with pending writes, which no one else sees. By the time `store` finds a conflict, a
request may have done all its work. What becomes of its writes depends on how the request leaves:
only `session.commit()` keeps them, and every exception closes the session and drops them.

## Implementation notes

A session is a request of the guard's model with a list of pending writes. `forget` drops these, and
`SessionStep.forget` shows that every step is then one of the guard's, or none; what is known of the
guard, such as who holds a slot, comes over by `guardOk_forget` and is not proved again.

`raised` collects the errors of builds, since a request that is refused for its key and one whose
build has raised the same status cannot be told apart by their answers. `OwnRow` is the counterpart
for commits: the row that is stored under the key has the hash of this request's body.

## Main results

* `GuardedDb.forget_reachable` — without its writes, the service is the one of the guard
* `GuardOk.ends` — a request with another body than its key's can always come to an end
* `KeyConflictsOk.step` — the invariant: an error is a conflict or was raised by a build, and a
  transaction is committed with the body of its key only
* `reused_key_has_no_effect` — **a request with a key of another body** is refused or fails by
  itself, and nothing of it is ever committed
-/

namespace CarFlow

/-! ### Sessions -/

/-- A request with the writes pending in its session. -/
structure Session (ω : Type) extends Running where
  writes : List ω := []

/-- A committed transaction: whose it is, what its build returned, and what it left. -/
structure CommittedRequest (ω : Type) where
  request : Request
  responseBody : String
  transaction : WriteSet ω

/-- A service with a guard and its database. Nothing reads the last three. -/
structure GuardedDb (δ ω : Type) where
  db : Database δ
  sessions : List (Session ω) := []
  /-- The transactions committed so far. -/
  log : List (CommittedRequest ω) := []
  answers : List (Request × Answer) := []
  /-- The errors that builds have raised. -/
  raised : List (Request × Answer) := []

/-- The steps of the sessions. -/
inductive SessionAction (ω : Type)
  | arrive (request : Request)
  /-- A build writes. -/
  | write (i : ℕ) (w : ω)
  /-- A build rolls its session back, as the handlers do before they raise. -/
  | rollback (i : ℕ)
  | advance (i : ℕ) (step : RequestStep)
  | commit (i : ℕ)
  | respond (i : ℕ)
  | abort (i : ℕ)

/-- The error that a step raises, if it is a build that raises. -/
def RequestStep.raised (request : Request) : RequestStep → List (Request × Answer)
  | .build (.raises statusCode detail) => [(request, .httpException statusCode detail)]
  | _ => []

section Steps

variable {δ ω : Type} (apply : δ → ω → δ) (hash : List UInt8 → String)

/-- One step. A request that is answered closes its session. -/
def sessionStep (s : GuardedDb δ ω) : SessionAction ω → Option (GuardedDb δ ω)
  | .arrive request =>
    let t : Session ω := { request, phase := guardPhase hash s.db.keys request }
    some { s with sessions := s.sessions ++ [t] }
  | .write i w => do
    let t ← s.sessions[i]?
    match t.phase with
    | .guarded =>
      some { s with sessions := s.sessions.set i { t with writes := t.writes ++ [w] } }
    | _ => none
  | .rollback i => do
    let t ← s.sessions[i]?
    match t.phase with
    | .guarded => some { s with sessions := s.sessions.set i { t with writes := [] } }
    | _ => none
  | .advance i step => do
    let t ← s.sessions[i]?
    let others := (s.sessions.eraseIdx i).map Session.toRunning
    let phase ← nextPhase hash s.db.keys others t.toRunning step
    some { s with
      sessions := s.sessions.set i { t with phase }
      raised := s.raised ++ step.raised t.request }
  | .commit i => do
    let t ← s.sessions[i]?
    match t.phase with
    | .inserted responseBody =>
      let transaction := { writes := t.writes, rows := [t.request.row hash responseBody] }
      let answer := Answer.response responseBody t.request.statusCode
      some { s with
        db := s.db.commit apply transaction
        log := s.log ++ [{ request := t.request, responseBody, transaction }]
        sessions := s.sessions.set i { request := t.request, phase := .finished answer } }
    | .lost responseBody row =>
      let transaction := { writes := t.writes, rows := [] }
      let answer := Answer.response row.responseBody row.statusCode
      some { s with
        db := s.db.commit apply transaction
        log := s.log ++ [{ request := t.request, responseBody, transaction }]
        sessions := s.sessions.set i { request := t.request, phase := .finished answer } }
    | _ => none
  | .respond i => do
    let t ← s.sessions[i]?
    match t.phase with
    | .finished answer => some { s with
        sessions := s.sessions.eraseIdx i
        answers := s.answers ++ [(t.request, answer)] }
    | _ => none
  | .abort i => do
    let _ ← s.sessions[i]?
    some { s with sessions := s.sessions.eraseIdx i }

/-- The service, on a database that has stored no key yet. -/
def guardedDb (tables : δ) : TransitionSystem (GuardedDb δ ω) (SessionAction ω) where
  init := { db := { tables, keys := [] } }
  step := sessionStep apply hash

end Steps

/-- The ways a step can go. -/
inductive SessionStep {δ ω : Type} (apply : δ → ω → δ) (hash : List UInt8 → String)
    (s : GuardedDb δ ω) : GuardedDb δ ω → Prop
  | arrived (request : Request) : SessionStep apply hash s { s with
      sessions := s.sessions ++ [{ request, phase := guardPhase hash s.db.keys request }] }
  /-- The build writes, or rolls back. -/
  | wrote (i : ℕ) (t : Session ω) (writes : List ω) (hi : s.sessions[i]? = some t) :
      SessionStep apply hash s { s with sessions := s.sessions.set i { t with writes } }
  | advanced (i : ℕ) (step : RequestStep) (t : Session ω) (phase : Phase)
      (hi : s.sessions[i]? = some t)
      (hphase : nextPhase hash s.db.keys ((s.sessions.eraseIdx i).map Session.toRunning)
        t.toRunning step = some phase) :
      SessionStep apply hash s { s with
        sessions := s.sessions.set i { t with phase }
        raised := s.raised ++ step.raised t.request }
  | committed (i : ℕ) (t : Session ω) (body : String) (hi : s.sessions[i]? = some t)
      (hphase : t.phase = .inserted body) : SessionStep apply hash s { s with
        db := s.db.commit apply ⟨t.writes, [t.request.row hash body]⟩
        log := s.log ++ [⟨t.request, body, ⟨t.writes, [t.request.row hash body]⟩⟩]
        sessions := s.sessions.set i
          { request := t.request, phase := .finished (.response body t.request.statusCode) } }
  | committedLost (i : ℕ) (t : Session ω) (body : String) (row : IdempotencyRow)
      (hi : s.sessions[i]? = some t) (hphase : t.phase = .lost body row) :
      SessionStep apply hash s { s with
        db := s.db.commit apply ⟨t.writes, []⟩
        log := s.log ++ [⟨t.request, body, ⟨t.writes, []⟩⟩]
        sessions := s.sessions.set i
          { request := t.request
            phase := .finished (.response row.responseBody row.statusCode) } }
  | responded (i : ℕ) (t : Session ω) (answer : Answer) (hi : s.sessions[i]? = some t)
      (hphase : t.phase = .finished answer) : SessionStep apply hash s { s with
        sessions := s.sessions.eraseIdx i
        answers := s.answers ++ [(t.request, answer)] }
  | aborted (i : ℕ) (t : Session ω) (hi : s.sessions[i]? = some t) :
      SessionStep apply hash s { s with sessions := s.sessions.eraseIdx i }

section Conflicts

variable {δ ω : Type} {apply : δ → ω → δ} {hash : List UInt8 → String} {tables : δ}
  {s s' : GuardedDb δ ω} {a : SessionAction ω}

theorem sessionStep_cases (h : sessionStep apply hash s a = some s') :
    SessionStep apply hash s s' := by
  cases a with
  | arrive request =>
    cases h
    exact .arrived request
  | write i w =>
    simp only [sessionStep, Option.bind_eq_bind, Option.bind_eq_some_iff] at h
    obtain ⟨t, hi, h⟩ := h
    split at h
    · cases h
      exact .wrote i t _ hi
    · cases h
  | rollback i =>
    simp only [sessionStep, Option.bind_eq_bind, Option.bind_eq_some_iff] at h
    obtain ⟨t, hi, h⟩ := h
    split at h
    · cases h
      exact .wrote i t _ hi
    · cases h
  | advance i step =>
    simp only [sessionStep, Option.bind_eq_bind, Option.bind_eq_some_iff] at h
    obtain ⟨t, hi, phase, hphase, h⟩ := h
    cases h
    exact .advanced i step t phase hi hphase
  | commit i =>
    simp only [sessionStep, Option.bind_eq_bind, Option.bind_eq_some_iff] at h
    obtain ⟨t, hi, h⟩ := h
    split at h
    · rename_i body hphase
      cases h
      exact .committed i t body hi hphase
    · rename_i body row hphase
      cases h
      exact .committedLost i t body row hi hphase
    · cases h
  | respond i =>
    simp only [sessionStep, Option.bind_eq_bind, Option.bind_eq_some_iff] at h
    obtain ⟨t, hi, h⟩ := h
    split at h
    · rename_i answer hphase
      cases h
      exact .responded i t answer hi hphase
    · cases h
  | abort i =>
    simp only [sessionStep, Option.bind_eq_bind, Option.bind_eq_some_iff] at h
    obtain ⟨t, hi, h⟩ := h
    cases h
    exact .aborted i t hi

/-! ### Without the writes

What the guard does does not depend on what is written in between. -/

/-- The service of the guard. -/
def GuardedDb.forget (s : GuardedDb δ ω) : GuardedService where
  table := s.db.keys
  requests := s.sessions.map Session.toRunning
  performed := s.log.map fun c => (c.request, c.responseBody)
  answers := s.answers

theorem getElem?_forget {i : ℕ} {t : Session ω} (hi : s.sessions[i]? = some t) :
    s.forget.requests[i]? = some t.toRunning := by
  simp [GuardedDb.forget, hi]

/-- Writes aside, each step is one of the guard's, or nothing. -/
theorem SessionStep.forget (h : SessionStep apply hash s s') :
    (guardedService hash).Leads s.forget s'.forget := by
  have hmatched {a : GuardAction} (h : guardStep hash s.forget a = some s'.forget) :
      (guardedService hash).Leads s.forget s'.forget := TransitionSystem.leads_of_step h
  cases h with
  | arrived request =>
    refine hmatched (a := .arrive request) ?_
    simp [guardStep, GuardedDb.forget]
  | wrote i t writes hi =>
    obtain ⟨hlt, hget⟩ := List.getElem?_eq_some_iff.mp (getElem?_forget hi)
    have hset : s.forget.requests.set i t.toRunning = s.forget.requests :=
      hget ▸ List.set_getElem_self hlt
    have hsame : GuardedDb.forget { s with sessions := s.sessions.set i { t with writes } } =
        s.forget := by
      simp only [GuardedDb.forget, List.map_set, GuardedService.mk.injEq, true_and, and_true]
      exact hset
    exact hsame ▸ .refl
  | advanced i step t phase hi hphase =>
    rw [← List.eraseIdx_map] at hphase
    refine hmatched (a := .advance i step) ?_
    simp only [guardStep, getElem?_forget hi]
    simp [GuardedDb.forget, hphase, List.map_set]
  | committed i t body hi hphase =>
    refine hmatched (a := .commit i) ?_
    simp only [guardStep, getElem?_forget hi]
    simp [GuardedDb.forget, hphase, Database.commit, List.map_set]
  | committedLost i t body row hi hphase =>
    refine hmatched (a := .commit i) ?_
    simp only [guardStep, getElem?_forget hi]
    simp [GuardedDb.forget, hphase, Database.commit, List.map_set]
  | responded i t answer hi hphase =>
    refine hmatched (a := .respond i) ?_
    simp only [guardStep, getElem?_forget hi]
    simp [GuardedDb.forget, hphase, List.eraseIdx_map]
  | aborted i t hi =>
    refine hmatched (a := .abort i) ?_
    simp only [guardStep, getElem?_forget hi]
    simp [GuardedDb.forget, List.eraseIdx_map]

theorem GuardedDb.forget_reachable (h : (guardedDb apply hash tables).Reachable s) :
    (guardedService hash).Reachable s.forget :=
  h.simulates GuardedDb.forget rfl fun _ _ _ _ hstep => (sessionStep_cases hstep).forget

theorem guardOk_forget (h : (guardedDb apply hash tables).Reachable s) : GuardOk hash s.forget :=
  guardOk_of_reachable (GuardedDb.forget_reachable h)

/-! ### The invariant -/

/-- An error that a request gets is the refusal, or its build has raised it. -/
def Explained (raised : List (Request × Answer)) (request : Request) : Answer → Prop
  | .httpException statusCode detail =>
    .httpException statusCode detail = keyReused ∨
      (request, .httpException statusCode detail) ∈ raised
  | .response _ _ => True

/-- What holds of a request under way: a conflict is with a row that is there, and an error has
its reason. -/
def Running.Conflicts (keys : List IdempotencyRow) (raised : List (Request × Answer))
    (t : Running) : Prop :=
  match t.phase with
  | .conflicted _ => findRow keys t.request.slot ≠ none
  | .finished answer => Explained raised t.request answer
  | _ => True

/-- The row of the key has the hash of the body. -/
def OwnRow (hash : List UInt8 → String) (keys : List IdempotencyRow) (request : Request) : Prop :=
  ∃ row, findRow keys request.slot = some row ∧ row.requestHash = hash request.body

/-- **The invariant**: the database is what the logged transactions have made of it, each of them
has the body of its key, and no error is without a reason. -/
structure KeyConflictsOk (apply : δ → ω → δ) (hash : List UInt8 → String) (tables : δ)
    (s : GuardedDb δ ω) : Prop where
  db_eq : s.db = s.log.foldl (fun db c => db.commit apply c.transaction) ⟨tables, []⟩
  log : ∀ c ∈ s.log, OwnRow hash s.db.keys c.request
  sessions : ∀ t ∈ s.sessions, t.toRunning.Conflicts s.db.keys s.raised
  answers : ∀ x ∈ s.answers, Explained s.raised x.1 x.2

variable {keys : List IdempotencyRow} {raised : List (Request × Answer)} {request : Request}
  {t : Running}

theorem Explained.append {answer : Answer} (h : Explained raised request answer)
    (more : List (Request × Answer)) : Explained (raised ++ more) request answer := by
  cases answer with
  | response body statusCode => trivial
  | httpException statusCode detail => exact h.imp_right fun hmem => List.mem_append_left _ hmem

theorem Running.Conflicts.raise (h : t.Conflicts keys raised) (more : List (Request × Answer)) :
    t.Conflicts keys (raised ++ more) := by
  unfold Running.Conflicts at h ⊢
  split at h
  · exact h
  · exact h.append more
  · trivial

theorem Running.Conflicts.insert (h : t.Conflicts keys raised) (row : IdempotencyRow) :
    t.Conflicts (keys ++ [row]) raised := by
  unfold Running.Conflicts at h ⊢
  split at h
  · exact (findRow_append h).symm ▸ h
  · exact h
  · trivial

theorem OwnRow.insert (h : OwnRow hash keys request) (row : IdempotencyRow) :
    OwnRow hash (keys ++ [row]) request := by
  obtain ⟨r, hr, hhash⟩ := h
  exact ⟨r, (findRow_append (by simp [hr])).trans hr, hhash⟩

theorem Running.Conflicts.start (request : Request) :
    Running.Conflicts keys raised ⟨request, guardPhase hash keys request⟩ := by
  unfold Running.Conflicts guardPhase
  cases hr : findRow keys request.slot with
  | none => trivial
  | some row =>
    by_cases hh : row.requestHash = hash request.body
    · simp [hh, Explained]
    · simp [hh, Explained, keyReused]

/-- A step finds a conflict only where there is a row, and raises only what the build raises. -/
theorem Running.Conflicts.next (h : t.Conflicts keys raised) {others : List Running}
    {step : RequestStep} {phase : Phase} (hnext : nextPhase hash keys others t step = some phase) :
    Running.Conflicts keys (raised ++ step.raised t.request) { t with phase } := by
  cases step with
  | build outcome =>
    simp only [nextPhase] at hnext
    split at hnext
    · obtain rfl := Option.some.inj hnext
      cases outcome with
      | returns body => trivial
      | raises statusCode detail => simp [Running.Conflicts, Explained, RequestStep.raised]
    · cases hnext
  | insert =>
    simp only [nextPhase] at hnext
    split at hnext
    · split at hnext
      · cases hnext
      · split at hnext
        · rename_i hsome
          obtain rfl := Option.some.inj hnext
          exact Option.isSome_iff_ne_none.mp hsome
        · obtain rfl := Option.some.inj hnext
          trivial
    · cases hnext
  | select =>
    simp only [nextPhase] at hnext
    split at hnext
    · rename_i body hphase
      obtain rfl := Option.some.inj hnext
      unfold Running.Conflicts at h
      rw [hphase] at h
      obtain ⟨row, hrow⟩ := Option.ne_none_iff_exists'.mp h
      by_cases hh : row.requestHash = hash t.request.body
      · simp [Running.Conflicts, hrow, hh]
      · simp [Running.Conflicts, hrow, hh, Explained, keyReused]
    · cases hnext

theorem foldl_commit_snoc {db db' : Database δ} {log : List (CommittedRequest ω)}
    (h : db = log.foldl (fun db c => db.commit apply c.transaction) db')
    (c : CommittedRequest ω) : db.commit apply c.transaction =
      (log ++ [c]).foldl (fun db c => db.commit apply c.transaction) db' := by
  rw [List.foldl_append, ← h, List.foldl_cons, List.foldl_nil]

/-- **Every step keeps the invariant.** -/
theorem KeyConflictsOk.step (h : KeyConflictsOk apply hash tables s)
    (hguard : GuardOk hash s.forget) (hstep : SessionStep apply hash s s') :
    KeyConflictsOk apply hash tables s' := by
  have hset {i : ℕ} {u : Session ω} {keys : List IdempotencyRow}
      {raised : List (Request × Answer)}
      (hothers : ∀ v ∈ s.sessions, v.toRunning.Conflicts keys raised)
      (hu : u.toRunning.Conflicts keys raised) :
      ∀ v ∈ s.sessions.set i u, v.toRunning.Conflicts keys raised := by
    intro v hv
    rcases List.mem_or_eq_of_mem_set hv with hv | rfl
    · exact hothers v hv
    · exact hu
  have hok {i : ℕ} {t : Session ω} (hi : s.sessions[i]? = some t) :
      t.toRunning.Ok hash s.db.keys :=
    hguard.requests.each _ (List.mem_of_getElem? (getElem?_forget hi))
  cases hstep with
  | arrived request =>
    exact { h with sessions := List.forall_mem_append.mpr
                     ⟨h.sessions, List.forall_mem_singleton.mpr (.start request)⟩ }
  | wrote i t writes hi =>
    exact { h with sessions := hset h.sessions (h.sessions t (List.mem_of_getElem? hi)) }
  | advanced i step t phase hi hphase =>
    refine { h with sessions := ?_, answers := fun x hx => (h.answers x hx).append _ }
    refine hset (fun v hv => (h.sessions v hv).raise _) ?_
    exact (h.sessions t (List.mem_of_getElem? hi)).next hphase
  | committed i t body hi hphase =>
    have ht := hok hi
    unfold Running.Ok at ht
    rw [hphase] at ht
    refine ⟨foldl_commit_snoc h.db_eq ⟨_, body, _⟩, ?_,
      hset (fun v hv => (h.sessions v hv).insert _) trivial, h.answers⟩
    refine List.forall_mem_append.mpr ⟨fun c hc => (h.log c hc).insert _, ?_⟩
    exact List.forall_mem_singleton.mpr ⟨_, findRow_append_self ht, rfl⟩
  | committedLost i t body row hi hphase =>
    have ht := hok hi
    unfold Running.Ok at ht
    rw [hphase] at ht
    have hkeys : (s.db.commit apply ⟨t.writes, []⟩).keys = s.db.keys := List.append_nil _
    refine ⟨foldl_commit_snoc h.db_eq ⟨_, body, _⟩, ?_, ?_, h.answers⟩
    · rw [hkeys]
      exact List.forall_mem_append.mpr
        ⟨h.log, List.forall_mem_singleton.mpr ⟨row, ht.1, ht.2⟩⟩
    · rw [hkeys]
      exact hset h.sessions trivial
  | responded i t answer hi hphase =>
    have ht := h.sessions t (List.mem_of_getElem? hi)
    unfold Running.Conflicts at ht
    rw [hphase] at ht
    exact { h with
      sessions := fun v hv => h.sessions v (ProcessFamily.mem_of_mem_eraseIdx hv)
      answers := List.forall_mem_append.mpr ⟨h.answers, List.forall_mem_singleton.mpr ht⟩ }
  | aborted i t hi =>
    exact { h with sessions := fun v hv => h.sessions v (ProcessFamily.mem_of_mem_eraseIdx hv) }

theorem keyConflictsOk_of_reachable (h : (guardedDb apply hash tables).Reachable s) :
    KeyConflictsOk apply hash tables s := by
  refine h.invariant (KeyConflictsOk apply hash tables) ⟨rfl, ?_, ?_, ?_⟩
    fun _ _ _ hr hok hstep => hok.step (guardOk_forget hr) (sessionStep_cases hstep)
  · exact fun c hc => (by cases hc)
  · exact fun t ht => (by cases ht)
  · exact fun x hx => (by cases hx)

/-! ### How a conflicting request ends

From each phase the steps of the request itself lead to an answer, and none of them commits. -/

/-- Steps of the request lead to its answer, and leave the database alone. -/
def Ends (apply : δ → ω → δ) (hash : List UInt8 → String) (tables : δ) (s : GuardedDb δ ω)
    (i : ℕ) (request : Request) : Prop :=
  ∃ s' answer, (guardedDb apply hash tables).Leads s s' ∧ s'.db = s.db ∧ s'.log = s.log ∧
    s'.sessions = s.sessions.eraseIdx i ∧ s'.answers = s.answers ++ [(request, answer)]

section Ends

variable {i : ℕ} {t : Session ω} {row : IdempotencyRow}

theorem ends_of_finished {answer : Answer} (hi : s.sessions[i]? = some t)
    (hphase : t.phase = .finished answer) : Ends apply hash tables s i t.request := by
  refine ⟨{ s with
    sessions := s.sessions.eraseIdx i
    answers := s.answers ++ [(t.request, answer)] }, answer, ?_, rfl, rfl, rfl, rfl⟩
  refine TransitionSystem.leads_of_step (a := .respond i) ?_
  simp [guardedDb, sessionStep, hi, hphase]

theorem ends_of_advance {step : RequestStep} {phase : Phase} (hi : s.sessions[i]? = some t)
    (hphase : nextPhase hash s.db.keys ((s.sessions.eraseIdx i).map Session.toRunning)
      t.toRunning step = some phase)
    (h : Ends apply hash tables { s with
      sessions := s.sessions.set i { t with phase }
      raised := s.raised ++ step.raised t.request } i t.request) :
    Ends apply hash tables s i t.request := by
  obtain ⟨s', answer, hleads, hdb, hlog, hsessions, hanswers⟩ := h
  refine ⟨s', answer, .head ⟨.advance i step, ?_⟩ hleads, hdb, hlog, ?_, hanswers⟩
  · simp [guardedDb, sessionStep, hi, hphase]
  · rw [hsessions, List.eraseIdx_set_eq]

theorem ends_of_conflicted {body : String} (hi : s.sessions[i]? = some t)
    (hrow : findRow s.db.keys t.request.slot = some row)
    (hne : hash t.request.body ≠ row.requestHash) (hphase : t.phase = .conflicted body) :
    Ends apply hash tables s i t.request := by
  have hlt := (List.getElem?_eq_some_iff.mp hi).1
  have hself := List.getElem?_set_self (a := { t with phase := .finished keyReused }) hlt
  refine ends_of_advance hi (?_ : nextPhase _ _ _ _ .select = some (.finished keyReused))
    (ends_of_finished (t := { t with phase := .finished keyReused }) hself rfl)
  simp [nextPhase, hphase, hrow, hne.symm]

theorem ends_of_built {body : String} (hi : s.sessions[i]? = some t)
    (hrow : findRow s.db.keys t.request.slot = some row)
    (hne : hash t.request.body ≠ row.requestHash) (hphase : t.phase = .built body)
    (hfree : ¬ SlotPending ((s.sessions.eraseIdx i).map Session.toRunning) t.request.slot) :
    Ends apply hash tables s i t.request := by
  have hlt := (List.getElem?_eq_some_iff.mp hi).1
  have hself := List.getElem?_set_self (a := { t with phase := .conflicted body }) hlt
  refine ends_of_advance hi (?_ : nextPhase _ _ _ _ .insert = some (.conflicted body))
    (ends_of_conflicted (t := { t with phase := .conflicted body }) hself hrow hne rfl)
  simp [nextPhase, hphase, hrow, hfree]

theorem ends_of_guarded (hi : s.sessions[i]? = some t)
    (hrow : findRow s.db.keys t.request.slot = some row)
    (hne : hash t.request.body ≠ row.requestHash) (hphase : t.phase = .guarded)
    (hfree : ¬ SlotPending ((s.sessions.eraseIdx i).map Session.toRunning) t.request.slot) :
    Ends apply hash tables s i t.request := by
  have hlt := (List.getElem?_eq_some_iff.mp hi).1
  have hself := List.getElem?_set_self (a := { t with phase := .built "" }) hlt
  refine ends_of_advance hi
    (?_ : nextPhase _ _ _ _ (.build (.returns "")) = some (.built ""))
    (ends_of_built (t := { t with phase := .built "" }) hself hrow hne rfl ?_)
  · simp [nextPhase, hphase]
  · rwa [List.eraseIdx_set_eq]

/-- Nobody holds a key that is stored. -/
theorem GuardOk.not_slotPending (h : GuardOk hash s.forget) {slot : Slot}
    (hrow : findRow s.db.keys slot = some row) :
    ¬ SlotPending ((s.sessions.eraseIdx i).map Session.toRunning) slot := by
  rintro ⟨u, hu, rfl, hphase⟩
  rw [← List.eraseIdx_map] at hu
  have hok := h.requests.each u (ProcessFamily.mem_of_mem_eraseIdx hu)
  unfold Running.Ok at hok
  split at hphase
  · rename_i body hinserted
    rw [hinserted] at hok
    exact absurd (hrow.symm.trans hok) (Option.some_ne_none _)
  · exact hphase

/-- Whatever phase it is in, a request with another body than its key's can come to an end. -/
theorem GuardOk.ends (h : GuardOk hash s.forget) (hi : s.sessions[i]? = some t)
    (hrow : findRow s.db.keys t.request.slot = some row)
    (hne : hash t.request.body ≠ row.requestHash) : Ends apply hash tables s i t.request := by
  have hok : t.toRunning.Ok hash s.db.keys :=
    h.requests.each _ (List.mem_of_getElem? (getElem?_forget hi))
  unfold Running.Ok at hok
  cases hphase : t.phase with
  | guarded => exact ends_of_guarded hi hrow hne hphase (h.not_slotPending hrow)
  | built body => exact ends_of_built hi hrow hne hphase (h.not_slotPending hrow)
  | conflicted body => exact ends_of_conflicted hi hrow hne hphase
  | finished answer => exact ends_of_finished hi hphase
  | inserted body =>
    rw [hphase] at hok
    exact absurd (hrow.symm.trans hok) (Option.some_ne_none _)
  | lost body row' =>
    rw [hphase] at hok
    obtain rfl := Option.some.inj (hrow.symm.trans hok.1)
    exact absurd hok.2.symm hne

end Ends

/-- **A key with another body has no effect.** In every run of requests side by side, a request
whose hash is not that of the row of its key is answered with the refusal, or with the error that
its own build has raised; one under way can always come to that end; and of the transactions that
make up the database, none is its own. -/
theorem reused_key_has_no_effect (h : (guardedDb apply hash tables).Reachable s)
    {slot : Slot} {row : IdempotencyRow} (hrow : findRow s.db.keys slot = some row) :
    s.db = s.log.foldl (fun db c => db.commit apply c.transaction) ⟨tables, []⟩ ∧
      (∀ c ∈ s.log, c.request.slot = slot → hash c.request.body = row.requestHash) ∧
      (∀ x ∈ s.answers, x.1.slot = slot → hash x.1.body ≠ row.requestHash →
        x.2 = keyReused ∨ ∃ statusCode detail,
          x.2 = .httpException statusCode detail ∧ x ∈ s.raised) ∧
      ∀ i t, s.sessions[i]? = some t → t.request.slot = slot →
        hash t.request.body ≠ row.requestHash → Ends apply hash tables s i t.request := by
  have hok := keyConflictsOk_of_reachable h
  have hguard := guardOk_forget h
  refine ⟨hok.db_eq, fun c hc hslot => ?_, fun x hx hslot hne => ?_, fun i t hi hslot hne => ?_⟩
  · obtain ⟨r, hr, hhash⟩ := hok.log c hc
    rw [hslot] at hr
    obtain rfl := Option.some.inj (hrow.symm.trans hr)
    exact hhash.symm
  · obtain ⟨request, answer⟩ := x
    have hx' := hok.answers _ hx
    cases answer with
    | response body statusCode =>
      -- only the stored response is given, and only to its own body
      obtain ⟨r, hr, hhash, -⟩ := hguard.answers _ hx body statusCode rfl
      have hr' : findRow s.db.keys slot = some r := hslot ▸ hr
      obtain rfl := Option.some.inj (hrow.symm.trans hr')
      exact absurd hhash.symm hne
    | httpException statusCode detail =>
      exact hx'.imp_right fun hraised => ⟨statusCode, detail, rfl, hraised⟩
  · exact hguard.ends hi (hslot ▸ hrow) hne

/-- Two requests with one key are both past the check, and both write. The one that comes second
to the insert has another body. -/
def sampleConflict : List (SessionAction ℕ) :=
  [.arrive sampleRequest, .arrive { sampleRequest with body := [1] }, .write 0 10, .write 1 20,
    .advance 0 (.build (.returns "first")), .advance 1 (.build (.returns "second")),
    .advance 0 .insert, .commit 0, .respond 0, .advance 0 .insert, .advance 0 .select, .respond 0]

theorem reused_key_has_no_effect_sampleConflict :
    ∃ s, (guardedDb (· + ·) sampleHash 0).run (guardedDb (· + ·) sampleHash 0).init
        sampleConflict = some s ∧ s.db.tables = 10 ∧
      findRow s.db.keys sampleRequest.slot = some (sampleRequest.row sampleHash "first") ∧
      s.db = s.log.foldl (fun db c => db.commit (· + ·) c.transaction) ⟨0, []⟩ ∧
      (∀ c ∈ s.log, c.request.slot = sampleRequest.slot →
        sampleHash c.request.body = (sampleRequest.row sampleHash "first").requestHash) ∧
      (∀ x ∈ s.answers, x.1.slot = sampleRequest.slot →
        sampleHash x.1.body ≠ (sampleRequest.row sampleHash "first").requestHash →
        x.2 = keyReused ∨ ∃ statusCode detail,
          x.2 = .httpException statusCode detail ∧ x ∈ s.raised) ∧
      ∀ i t, s.sessions[i]? = some t → t.request.slot = sampleRequest.slot →
        sampleHash t.request.body ≠ (sampleRequest.row sampleHash "first").requestHash →
        Ends (· + ·) sampleHash 0 s i t.request := by
  have hend : ((guardedDb (· + ·) sampleHash 0).run (guardedDb (· + ·) sampleHash 0).init
      sampleConflict).map (fun s => (s.db.tables, findRow s.db.keys sampleRequest.slot)) =
        some (10, some (sampleRequest.row sampleHash "first")) := by decide
  obtain ⟨s, hrun, hs⟩ := Option.map_eq_some_iff.mp hend
  obtain ⟨htables, hrow⟩ := Prod.mk.inj hs
  exact ⟨s, hrun, htables, hrow,
    reused_key_has_no_effect (TransitionSystem.reachable_of_run .init hrun) hrow⟩

end Conflicts

end CarFlow
