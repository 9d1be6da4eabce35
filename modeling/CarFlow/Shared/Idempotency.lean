import CarFlow.Lib.ProcessFamily
import CarFlow.Lib.RowTable
import CarFlow.Lib.TransitionSystem
import Mathlib.Data.Nat.Notation

/-!
# The idempotency guard

`shared/idempotency.py`: a request with an `Idempotency-Key` is looked up before its work is done,
and its response is stored after it, in the transaction of the work. Here the requests of a service
run side by side, each in its own transaction, and what a request does for its caller is the opaque
`build`: it returns a response or raises, and its effects are committed with the transaction.

## The steps of a request

* the guard reads `idempotency_keys`: a stored response is replayed, or the request is refused if
  it was stored for another body;
* otherwise the request builds its response, and `store` inserts it, waiting for any unfinished
  transaction that has inserted the same key;
* if the key was taken meanwhile, `store` reads the row of the winner and refuses or replays it;
* in both cases `store` then **commits**, and the request is answered.

A request may also be cut off at any point, which rolls back what it has not committed. Bodies are
compared by their hash, a parameter here: `hashlib.sha256`.

## Implementation notes

A request is in one of the phases of `respond_idempotently`, and a step moves one request. The
transaction that it runs in is not a field: that a row is pending is what its phase says, and
`SlotPending` of the others is what an insert has to wait for. The builds are left open here. What
they write is added in `Shared.Retries` and `Shared.KeyConflicts`, and what the cleanup loop does in
`Shared.KeyExpiry`; both are tied to this model by a map that forgets the addition.

## Main results

* `GuardOk.step` — the invariant: all answers are the stored ones, and each stored one was built
* `identical_requests_iff` — identical requests have one effect and one answer in exactly the runs
  in which no request commits that lost the race for its key
-/

namespace CarFlow

/-! ### Requests -/

/-- A request to a route with a guard. -/
structure Request where
  consumerId : String
  /-- The `Idempotency-Key`. -/
  key : String
  method : String
  path : String
  body : List UInt8
  /-- The status its route answers with. -/
  statusCode : ℕ
  deriving DecidableEq

/-- A row of `idempotency_keys`. -/
structure IdempotencyRow where
  consumerId : String
  key : String
  requestHash : String
  responseBody : String
  statusCode : ℕ
  deriving DecidableEq

/-- The primary key of `idempotency_keys`. -/
abbrev Slot := String × String

/-- The key of a row. -/
def IdempotencyRow.slot (row : IdempotencyRow) : Slot := (row.consumerId, row.key)

/-- The key a request uses. -/
def Request.slot (request : Request) : Slot := (request.consumerId, request.key)

/-- What the caller gets. -/
inductive Answer
  | response (body : String) (statusCode : ℕ)
  | httpException (statusCode : ℕ) (detail : String)
  deriving DecidableEq

/-- What a build does. -/
inductive BuildOutcome
  | returns (responseBody : String)
  | raises (statusCode : ℕ) (detail : String)

/-- Where a request is. -/
inductive Phase
  /-- The guard found no row. -/
  | guarded
  | built (responseBody : String)
  /-- The insert of `store` added the row. -/
  | inserted (responseBody : String)
  /-- It did not: the key was taken. -/
  | conflicted (responseBody : String)
  /-- The row of the winner has been read, and is to be replayed. -/
  | lost (responseBody : String) (row : IdempotencyRow)
  | finished (answer : Answer)
  deriving DecidableEq

/-- A request under way. -/
structure Running where
  request : Request
  phase : Phase

/-- A service with a guard: the committed rows, the requests under way, the committed builds with
what they returned, and the answers given. Nothing reads the last two. -/
structure GuardedService where
  table : List IdempotencyRow := []
  requests : List Running := []
  performed : List (Request × String) := []
  answers : List (Request × Answer) := []

/-- The row of a key. -/
def findRow (table : List IdempotencyRow) (slot : Slot) : Option IdempotencyRow :=
  RowTable.lookup IdempotencyRow.slot table slot

/-- The detail of a refusal. -/
def keyReused : Answer :=
  .httpException 409 "Idempotency-Key was already used with a different request"

/-! ### The steps

Between the steps of a request those of others may come. An insert waits while the transaction of
another request has inserted the key. -/

section Steps

variable (hash : List UInt8 → String)

/-- `idempotency_guard_dependency`. -/
def guardPhase (table : List IdempotencyRow) (request : Request) : Phase :=
  match findRow table request.slot with
  | none => .guarded
  | some row =>
    if row.requestHash ≠ hash request.body then .finished keyReused
    else .finished (.response row.responseBody row.statusCode)

/-- Another unfinished transaction has inserted the key. -/
def SlotPending (others : List Running) (slot : Slot) : Prop :=
  ∃ t ∈ others, t.request.slot = slot ∧ match t.phase with
    | .inserted _ => True
    | _ => False

instance (others : List Running) (slot : Slot) : Decidable (SlotPending others slot) := by
  unfold SlotPending
  have : DecidablePred fun t : Running => t.request.slot = slot ∧ match t.phase with
      | .inserted _ => True
      | _ => False := fun t => by
    dsimp only
    cases t.phase <;> infer_instance
  infer_instance

/-- The steps of one request that commit nothing. -/
inductive RequestStep
  | build (outcome : BuildOutcome)
  /-- `store`: the insert. -/
  | insert
  /-- `store`: the select after an insert that added nothing. -/
  | select

/-- Where such a step leads. -/
def nextPhase (table : List IdempotencyRow) (others : List Running) (t : Running) :
    RequestStep → Option Phase
  | .build outcome =>
    match t.phase with
    | .guarded => some <| match outcome with
      | .returns responseBody => .built responseBody
      | .raises statusCode detail => .finished (.httpException statusCode detail)
    | _ => none
  | .insert =>
    match t.phase with
    | .built responseBody =>
      if SlotPending others t.request.slot then none
      else if (findRow table t.request.slot).isSome then some (.conflicted responseBody)
      else some (.inserted responseBody)
    | _ => none
  | .select =>
    match t.phase with
    | .conflicted responseBody => some <| match findRow table t.request.slot with
      | none => .finished (.httpException 500 "Internal Server Error")
      | some row =>
        if row.requestHash ≠ hash t.request.body then .finished keyReused
        else .lost responseBody row
    | _ => none

/-- The row a request inserts. -/
def Request.row (request : Request) (responseBody : String) : IdempotencyRow where
  consumerId := request.consumerId
  key := request.key
  requestHash := hash request.body
  responseBody := responseBody
  statusCode := request.statusCode

/-- The steps of the service. -/
inductive GuardAction
  | arrive (request : Request)
  | advance (i : ℕ) (step : RequestStep)
  | commit (i : ℕ)
  | respond (i : ℕ)
  | abort (i : ℕ)

/-- One step. -/
def guardStep (s : GuardedService) : GuardAction → Option GuardedService
  | .arrive request => some { s with
      requests := s.requests ++ [{ request, phase := guardPhase hash s.table request }] }
  | .advance i step => do
    let t ← s.requests[i]?
    let phase ← nextPhase hash s.table (s.requests.eraseIdx i) t step
    some { s with requests := s.requests.set i { t with phase } }
  | .commit i => do
    let t ← s.requests[i]?
    match t.phase with
    | .inserted responseBody => some { s with
        table := s.table ++ [t.request.row hash responseBody]
        performed := s.performed ++ [(t.request, responseBody)]
        requests := s.requests.set i
          { t with phase := .finished (.response responseBody t.request.statusCode) } }
    | .lost responseBody row => some { s with
        performed := s.performed ++ [(t.request, responseBody)]
        requests := s.requests.set i
          { t with phase := .finished (.response row.responseBody row.statusCode) } }
    | _ => none
  | .respond i => do
    let t ← s.requests[i]?
    match t.phase with
    | .finished answer => some { s with
        requests := s.requests.eraseIdx i
        answers := s.answers ++ [(t.request, answer)] }
    | _ => none
  | .abort i => do
    let _ ← s.requests[i]?
    some { s with requests := s.requests.eraseIdx i }

/-- The service. -/
def guardedService : TransitionSystem GuardedService GuardAction where
  init := {}
  step := guardStep hash

end Steps

/-- The ways a step can go. -/
inductive GuardStep (hash : List UInt8 → String) (s : GuardedService) :
    GuardAction → GuardedService → Prop
  | arrived (request : Request) : GuardStep hash s (.arrive request) { s with
      requests := s.requests ++ [{ request, phase := guardPhase hash s.table request }] }
  | advanced (i : ℕ) (step : RequestStep) (t : Running) (phase : Phase)
      (hi : s.requests[i]? = some t)
      (hphase : nextPhase hash s.table (s.requests.eraseIdx i) t step = some phase) :
      GuardStep hash s (.advance i step) { s with requests := s.requests.set i { t with phase } }
  | committed (i : ℕ) (t : Running) (body : String) (hi : s.requests[i]? = some t)
      (hphase : t.phase = .inserted body) : GuardStep hash s (.commit i) { s with
        table := s.table ++ [t.request.row hash body]
        performed := s.performed ++ [(t.request, body)]
        requests := s.requests.set i
          { t with phase := .finished (.response body t.request.statusCode) } }
  | committedLost (i : ℕ) (t : Running) (body : String) (row : IdempotencyRow)
      (hi : s.requests[i]? = some t) (hphase : t.phase = .lost body row) :
      GuardStep hash s (.commit i) { s with
        performed := s.performed ++ [(t.request, body)]
        requests := s.requests.set i
          { t with phase := .finished (.response row.responseBody row.statusCode) } }
  | responded (i : ℕ) (t : Running) (answer : Answer) (hi : s.requests[i]? = some t)
      (hphase : t.phase = .finished answer) : GuardStep hash s (.respond i) { s with
        requests := s.requests.eraseIdx i
        answers := s.answers ++ [(t.request, answer)] }
  | aborted (i : ℕ) : GuardStep hash s (.abort i) { s with requests := s.requests.eraseIdx i }

theorem guardStep_cases {hash : List UInt8 → String} {s s' : GuardedService} {a : GuardAction}
    (h : guardStep hash s a = some s') : GuardStep hash s a s' := by
  cases a with
  | arrive request =>
    cases h
    exact .arrived request
  | advance i step =>
    simp only [guardStep, Option.bind_eq_bind, Option.bind_eq_some_iff] at h
    obtain ⟨t, hi, phase, hphase, h⟩ := h
    cases h
    exact .advanced i step t phase hi hphase
  | commit i =>
    simp only [guardStep, Option.bind_eq_bind, Option.bind_eq_some_iff] at h
    obtain ⟨t, hi, h⟩ := h
    split at h
    · rename_i body hphase
      cases h
      exact .committed i t body hi hphase
    · rename_i body row hphase
      cases h
      exact .committedLost i t body row hi hphase
    · cases h
  | respond i =>
    simp only [guardStep, Option.bind_eq_bind, Option.bind_eq_some_iff] at h
    obtain ⟨t, hi, h⟩ := h
    split at h
    · rename_i answer hphase
      cases h
      exact .responded i t answer hi hphase
    · cases h
  | abort i =>
    simp only [guardStep, Option.bind_eq_bind, Option.bind_eq_some_iff] at h
    obtain ⟨t, hi, h⟩ := h
    cases h
    exact .aborted i

/-! ### The invariant

Rows are never changed, so what a request has found or is told stays true of the table. -/

section Invariant

variable {hash : List UInt8 → String} {table table' : List IdempotencyRow} {t u : Running}
  {others : List Running}

/-- The answer is the stored one. -/
def Stored (hash : List UInt8 → String) (table : List IdempotencyRow) (request : Request)
    (responseBody : String) (statusCode : ℕ) : Prop :=
  ∃ row, findRow table request.slot = some row ∧ row.requestHash = hash request.body ∧
    row.responseBody = responseBody ∧ row.statusCode = statusCode

/-- What holds of a request under way. -/
def Running.Ok (hash : List UInt8 → String) (table : List IdempotencyRow) (t : Running) : Prop :=
  match t.phase with
  | .inserted _ => findRow table t.request.slot = none
  | .lost _ row => findRow table t.request.slot = some row ∧
    row.requestHash = hash t.request.body
  | .finished (.response responseBody statusCode) =>
    Stored hash table t.request responseBody statusCode
  | _ => True

/-- Two unfinished transactions have not inserted one key. -/
def Running.Apart (t u : Running) : Prop :=
  ∀ body body', t.phase = .inserted body → u.phase = .inserted body' →
    t.request.slot ≠ u.request.slot

theorem Running.Apart.symm (h : t.Apart u) : u.Apart t :=
  fun body body' ht hu => (h body' body hu ht).symm

/-- **The invariant of the service**: what is answered is stored, what was done is stored, and what
is stored was done. -/
structure GuardOk (hash : List UInt8 → String) (s : GuardedService) : Prop where
  requests : ProcessFamily (Running.Ok hash s.table) Running.Apart s.requests
  answers : ∀ x ∈ s.answers, ∀ responseBody statusCode, x.2 = .response responseBody statusCode →
    Stored hash s.table x.1 responseBody statusCode
  performed : ∀ x ∈ s.performed, findRow s.table x.1.slot ≠ none
  stored : ∀ row ∈ s.table, ∃ x ∈ s.performed, x.1.row hash x.2 = row

theorem findRow_append {row : IdempotencyRow} {slot : Slot}
    (h : findRow table slot ≠ none) : findRow (table ++ [row]) slot = findRow table slot := by
  obtain ⟨r, hr⟩ := Option.ne_none_iff_exists'.mp h
  rw [findRow, RowTable.lookup_append_singleton, ← findRow, hr, Option.some_or]

theorem Stored.append {request : Request} {responseBody : String} {statusCode : ℕ}
    (h : Stored hash table request responseBody statusCode) (row : IdempotencyRow) :
    Stored hash (table ++ [row]) request responseBody statusCode := by
  obtain ⟨r, hr, hrest⟩ := h
  exact ⟨r, (findRow_append (by simp [hr])).trans hr, hrest⟩

theorem Running.Ok.start (request : Request) :
    Running.Ok hash table ⟨request, guardPhase hash table request⟩ := by
  unfold Running.Ok guardPhase
  cases hr : findRow table request.slot with
  | none => trivial
  | some row =>
    by_cases hh : row.requestHash = hash request.body
    · simp only [hh, ne_eq, not_true_eq_false, if_false]
      exact ⟨row, hr, hh, rfl, rfl⟩
    · simp [hh, keyReused]

/-- A step of a request keeps what holds of it, and apart from the others. -/
theorem Running.Ok.next {step : RequestStep} {phase : Phase}
    (h : nextPhase hash table others t step = some phase) :
    Running.Ok hash table { t with phase } ∧
      ∀ u ∈ others, Running.Apart { t with phase } u := by
  have hapart (hne : ∀ body, phase ≠ .inserted body) :
      ∀ u ∈ others, Running.Apart { t with phase } u :=
    fun u _ body _ ht => absurd ht (hne body)
  cases step with
  | build outcome =>
    simp only [nextPhase] at h
    split at h
    swap
    · cases h
    obtain rfl := Option.some.inj h
    cases outcome <;> exact ⟨trivial, hapart (by simp)⟩
  | insert =>
    simp only [nextPhase] at h
    split at h
    swap
    · cases h
    split at h
    · cases h
    rename_i hpending
    split at h
    · obtain rfl := Option.some.inj h
      exact ⟨trivial, hapart (by simp)⟩
    · rename_i hnone
      obtain rfl := Option.some.inj h
      refine ⟨Option.not_isSome_iff_eq_none.mp hnone, fun u hu _ _ _ hphase hslot => hpending ?_⟩
      exact ⟨u, hu, hslot.symm, by rw [hphase]; trivial⟩
  | select =>
    simp only [nextPhase] at h
    split at h
    swap
    · cases h
    obtain rfl := Option.some.inj h
    cases hr : findRow table t.request.slot with
    | none => exact ⟨trivial, by simp [Running.Apart]⟩
    | some row =>
      by_cases hh : row.requestHash = hash t.request.body
      · simp only [hh, ne_eq, not_true_eq_false, if_false]
        exact ⟨⟨hr, hh⟩, by simp [Running.Apart]⟩
      · simp [Running.Ok, Running.Apart, hh, keyReused]

/-- A row that another request commits changes nothing for a request with another key in its
hands. -/
theorem Running.Ok.append (h : u.Ok hash table) (row : IdempotencyRow)
    (hapart : ∀ body, u.phase = .inserted body → row.slot ≠ u.request.slot) :
    u.Ok hash (table ++ [row]) := by
  unfold Running.Ok at h ⊢
  split at h
  · rename_i body hphase
    rw [findRow, RowTable.lookup_append_of_ne (hapart body hphase)]
    exact h
  · exact ⟨(findRow_append (by simp [h.1])).trans h.1, h.2⟩
  · exact h.append row
  · trivial

section Step

variable {s s' : GuardedService} {i : ℕ} {a : GuardAction}

theorem findRow_append_self {row : IdempotencyRow} (h : findRow table row.slot = none) :
    findRow (table ++ [row]) row.slot = some row := by
  rw [findRow]
  exact RowTable.lookup_append_self h

/-- The transaction that inserted the key commits. -/
theorem GuardOk.commit_inserted (h : GuardOk hash s) (hi : s.requests[i]? = some t) {body : String}
    (hphase : t.phase = .inserted body) :
    GuardOk hash { s with
      table := s.table ++ [t.request.row hash body]
      performed := s.performed ++ [(t.request, body)]
      requests := s.requests.set i
        { t with phase := .finished (.response body t.request.statusCode) } } := by
  have hsymm : ∀ t u : Running, t.Apart u → u.Apart t := fun _ _ => Running.Apart.symm
  have hnone : findRow s.table t.request.slot = none := by
    have ht := h.requests.each t (List.mem_of_getElem? hi)
    unfold Running.Ok at ht
    rwa [hphase] at ht
  have hself : findRow (s.table ++ [t.request.row hash body]) t.request.slot =
      some (t.request.row hash body) := findRow_append_self hnone
  refine ⟨h.requests.step hsymm hi (fun u hu hok => ?_) ?_ fun u _ _ _ hb => (by cases hb), ?_, ?_,
    ?_⟩
  · refine hok.append _ fun body' hphase' => ?_
    exact h.requests.others hsymm hi u hu body body' hphase hphase'
  · exact ⟨_, hself, rfl, rfl, rfl⟩
  · exact fun x hx responseBody statusCode hanswer =>
      (h.answers x hx responseBody statusCode hanswer).append _
  · intro x hx
    rcases List.mem_append.mp hx with hx | hx
    · rw [findRow_append (h.performed x hx)]
      exact h.performed x hx
    · rw [List.mem_singleton.mp hx, hself]
      exact Option.some_ne_none _
  · intro row hrow
    rcases List.mem_append.mp hrow with hrow | hrow
    · obtain ⟨x, hx, hbuilt⟩ := h.stored row hrow
      exact ⟨x, List.mem_append_left _ hx, hbuilt⟩
    · exact ⟨_, List.mem_append_right _ (List.mem_singleton_self _),
        (List.mem_singleton.mp hrow).symm⟩

/-- The transaction that lost the race for the key commits too. -/
theorem GuardOk.commit_lost (h : GuardOk hash s) (hi : s.requests[i]? = some t) {body : String}
    {row : IdempotencyRow} (hphase : t.phase = .lost body row) :
    GuardOk hash { s with
      performed := s.performed ++ [(t.request, body)]
      requests := s.requests.set i
        { t with phase := .finished (.response row.responseBody row.statusCode) } } := by
  have hsymm : ∀ t u : Running, t.Apart u → u.Apart t := fun _ _ => Running.Apart.symm
  have hrow : findRow s.table t.request.slot = some row ∧
      row.requestHash = hash t.request.body := by
    have ht := h.requests.each t (List.mem_of_getElem? hi)
    unfold Running.Ok at ht
    rwa [hphase] at ht
  refine { requests := h.requests.step hsymm hi (fun _ _ hu => hu) ⟨row, hrow.1, hrow.2, rfl, rfl⟩
             fun u _ _ _ hb => (by cases hb)
           answers := h.answers, performed := fun x hx => ?_, stored := fun row hrow => ?_ }
  · rcases List.mem_append.mp hx with hx | hx
    · exact h.performed x hx
    · rw [List.mem_singleton.mp hx]
      simp [hrow.1]
  · obtain ⟨x, hx, hbuilt⟩ := h.stored row hrow
    exact ⟨x, List.mem_append_left _ hx, hbuilt⟩

theorem GuardOk.respond (h : GuardOk hash s) (hi : s.requests[i]? = some t) {answer : Answer}
    (hphase : t.phase = .finished answer) :
    GuardOk hash { s with
      requests := s.requests.eraseIdx i
      answers := s.answers ++ [(t.request, answer)] } := by
  refine { h with requests := h.requests.finish i fun _ _ hu => hu, answers := fun x hx => ?_ }
  rcases List.mem_append.mp hx with hx | hx
  · exact h.answers x hx
  · intro responseBody statusCode hanswer
    obtain rfl := List.mem_singleton.mp hx
    have ht := h.requests.each t (List.mem_of_getElem? hi)
    unfold Running.Ok at ht
    rw [hphase, show answer = _ from hanswer] at ht
    exact ht

/-- **Every step keeps the invariant.** -/
theorem GuardOk.step (h : GuardOk hash s) (hstep : GuardStep hash s a s') : GuardOk hash s' := by
  have hsymm : ∀ t u : Running, t.Apart u → u.Apart t := fun _ _ => Running.Apart.symm
  cases hstep with
  | arrived request =>
    refine { h with requests := h.requests.start (.start request) fun u _ body body' _ hb => ?_ }
    simp only [guardPhase] at hb
    split at hb
    · cases hb
    · split at hb <;> cases hb
  | advanced i step t phase hi hphase =>
    obtain ⟨hok, hapart⟩ := Running.Ok.next hphase
    exact { h with requests := h.requests.step hsymm hi (fun _ _ hu => hu) hok hapart }
  | committed i t body hi hphase => exact h.commit_inserted hi hphase
  | committedLost i t body row hi hphase => exact h.commit_lost hi hphase
  | responded i t answer hi hphase => exact h.respond hi hphase
  | aborted i => exact { h with requests := h.requests.finish i fun _ _ hu => hu }

theorem guardOk_of_reachable (h : (guardedService hash).Reachable s) : GuardOk hash s := by
  refine h.invariant (GuardOk hash) ⟨.nil, ?_, ?_, ?_⟩ fun _ _ _ _ hok hstep =>
    hok.step (guardStep_cases hstep)
  · exact fun x hx => (by cases hx)
  · exact fun x hx => (by cases hx)
  · exact fun row hrow => (by cases hrow)

end Step

end Invariant

/-! ### Identical requests

All have one key and one body. They are told one answer, whoever wins; what is at stake is whether
the one that loses commits. -/

section Identical

variable {hash : List UInt8 → String} {request : Request} {s s' : GuardedService} {a : GuardAction}

/-- Only one request ever arrives, as often as it likes. -/
def OnlyArrives (request : Request) : GuardAction → Prop
  | .arrive request' => request' = request
  | _ => True

/-- The step is not the commit of a request that lost the race for its key. -/
def CommitsOwn (s : GuardedService) : GuardAction → Prop
  | .commit i => ∀ t, s.requests[i]? = some t → ∀ body row, t.phase ≠ .lost body row
  | _ => True

/-- At most one build has been committed, and all successful answers are the same. -/
def PerformedOnce (s : GuardedService) : Prop :=
  s.performed.length ≤ 1 ∧
    ∀ x ∈ s.answers, ∀ y ∈ s.answers, ∀ body statusCode body' statusCode',
      x.2 = .response body statusCode → y.2 = .response body' statusCode' →
      body = body' ∧ statusCode = statusCode'

/-- All requests of the state are the one that arrives. -/
structure OnlyRequest (request : Request) (s : GuardedService) : Prop where
  requests : ∀ t ∈ s.requests, t.request = request
  performed : ∀ x ∈ s.performed, x.1 = request
  answers : ∀ x ∈ s.answers, x.1 = request

theorem OnlyRequest.step (h : OnlyRequest request s) (ha : OnlyArrives request a)
    (hstep : GuardStep hash s a s') : OnlyRequest request s' := by
  have hset {i : ℕ} {t : Running} (hi : s.requests[i]? = some t) (phase : Phase) :
      ∀ u ∈ s.requests.set i { t with phase }, u.request = request := by
    intro u hu
    rcases List.mem_or_eq_of_mem_set hu with hu | rfl
    · exact h.requests u hu
    · exact h.requests t (List.mem_of_getElem? hi)
  have hadd {i : ℕ} {t : Running} (hi : s.requests[i]? = some t) (body : String) :
      ∀ x ∈ s.performed ++ [(t.request, body)], x.1 = request := by
    refine List.forall_mem_append.mpr ⟨h.performed, List.forall_mem_singleton.mpr ?_⟩
    exact h.requests t (List.mem_of_getElem? hi)
  have herase (i : ℕ) : ∀ u ∈ s.requests.eraseIdx i, u.request = request :=
    fun u hu => h.requests u (ProcessFamily.mem_of_mem_eraseIdx hu)
  cases hstep with
  | arrived request' =>
    exact { h with requests := List.forall_mem_append.mpr
                      ⟨h.requests, List.forall_mem_singleton.mpr ha⟩ }
  | advanced i step t phase hi hphase => exact { h with requests := hset hi phase }
  | committed i t body hi hphase =>
    exact { h with requests := hset hi _, performed := hadd hi body }
  | committedLost i t body row hi hphase =>
    exact { h with requests := hset hi _, performed := hadd hi body }
  | responded i t answer hi hphase =>
    refine ⟨herase i, h.performed, List.forall_mem_append.mpr ⟨h.answers, ?_⟩⟩
    exact List.forall_mem_singleton.mpr (h.requests t (List.mem_of_getElem? hi))
  | aborted i => exact { h with requests := herase i }

theorem onlyRequest_of_reachable
    (h : (guardedService hash).ReachableWhere (fun _ => OnlyArrives request) s) :
    OnlyRequest request s := by
  refine h.invariant (OnlyRequest request) ⟨?_, ?_, ?_⟩ fun _ _ _ _ hok ha hstep =>
    hok.step ha (guardStep_cases hstep)
  · exact fun t ht => (by cases ht)
  · exact fun x hx => (by cases hx)
  · exact fun x hx => (by cases hx)

/-- Identical requests all get the stored answer. -/
theorem OnlyRequest.answers_eq (h : OnlyRequest request s) (hok : GuardOk hash s) :
    ∀ x ∈ s.answers, ∀ y ∈ s.answers, ∀ body statusCode body' statusCode',
      x.2 = .response body statusCode → y.2 = .response body' statusCode' →
      body = body' ∧ statusCode = statusCode' := by
  intro x hx y hy body statusCode body' statusCode' hxa hya
  obtain ⟨row, hrow, -, rfl, rfl⟩ := hok.answers x hx body statusCode hxa
  obtain ⟨row', hrow', -, rfl, rfl⟩ := hok.answers y hy body' statusCode' hya
  rw [h.answers x hx] at hrow
  rw [h.answers y hy] at hrow'
  obtain rfl := Option.some.inj (hrow.symm.trans hrow')
  exact ⟨rfl, rfl⟩

/-- A step keeps identical requests to one effect exactly if it is not a loser's commit. -/
theorem performedOnce_step (h : OnlyRequest request s) (hok : GuardOk hash s)
    (ha : OnlyArrives request a) (honce : PerformedOnce s) (hstep : GuardStep hash s a s') :
    PerformedOnce s' ↔ CommitsOwn s a := by
  have hanswers := (h.step ha hstep).answers_eq (hok.step hstep)
  cases hstep with
  | arrived request' => exact iff_of_true ⟨honce.1, hanswers⟩ trivial
  | advanced i step t phase hi hphase => exact iff_of_true ⟨honce.1, hanswers⟩ trivial
  | responded i t answer hi hphase => exact iff_of_true ⟨honce.1, hanswers⟩ trivial
  | aborted i => exact iff_of_true ⟨honce.1, hanswers⟩ trivial
  | committed i t body hi hphase =>
    have ht := hok.requests.each t (List.mem_of_getElem? hi)
    have hrequest := h.requests t (List.mem_of_getElem? hi)
    unfold Running.Ok at ht
    rw [hphase] at ht
    -- nothing was committed before the key was
    have hnone : s.performed = [] := by
      refine List.eq_nil_iff_forall_not_mem.mpr fun x hx => hok.performed x hx ?_
      rw [h.performed x hx, ← hrequest]
      exact ht
    refine iff_of_true ⟨by simp [hnone], hanswers⟩ fun t' hi' body' row hphase' => ?_
    obtain rfl := Option.some.inj (hi.symm.trans hi')
    rw [hphase] at hphase'
    cases hphase'
  | committedLost i t body row hi hphase =>
    have ht := hok.requests.each t (List.mem_of_getElem? hi)
    unfold Running.Ok at ht
    rw [hphase] at ht
    -- the winner has been committed
    obtain ⟨x, hx, -⟩ := hok.stored row (RowTable.mem_of_lookup ht.1)
    refine iff_of_false (fun hlong => ?_) fun hown => hown t hi body row hphase
    have hlen := hlong.1
    rw [List.length_append, List.length_singleton] at hlen
    have hpos := List.length_pos_of_mem hx
    omega

/-- **Identical requests have one effect and one answer** throughout a run, exactly if no request
commits in it that has lost the race for the key. -/
theorem identical_requests_iff {run : List (GuardedService × GuardAction)}
    (h : (guardedService hash).Exec (guardedService hash).init run s)
    (harrives : ∀ x ∈ run, OnlyArrives request x.2) :
    TransitionSystem.Throughout PerformedOnce run s ↔ ∀ x ∈ run, CommitsOwn x.1 x.2 := by
  have hinit : PerformedOnce (guardedService hash).init :=
    ⟨Nat.zero_le 1, fun x hx => (by cases hx)⟩
  refine h.forall_iff_where (fun _ => OnlyArrives request) PerformedOnce CommitsOwn hinit
    (fun s a s' hr ha honce hstep => ?_) harrives
  exact performedOnce_step (onlyRequest_of_reachable hr) (guardOk_of_reachable hr.reachable) ha
    honce (guardStep_cases hstep)

/-- A request for a vehicle. -/
def sampleRequest : Request where
  consumerId := "host"
  key := "k"
  method := "POST"
  path := "/vehicles"
  body := []
  statusCode := 201

/-- A hash that tells the empty body from the others. -/
def sampleHash (body : List UInt8) : String := if body = [] then "empty" else "other"

/-- Two copies of it are past the check before either stores its response, and both commit. -/
def sampleRetries : List GuardAction :=
  [.arrive sampleRequest, .arrive sampleRequest, .advance 0 (.build (.returns "first")),
    .advance 1 (.build (.returns "second")), .advance 0 .insert, .commit 0, .respond 0,
    .advance 0 .insert, .advance 0 .select, .commit 0]

/-- The request has been performed twice. -/
theorem sampleRetries_end :
    ∃ s run, (guardedService fun _ => "").Exec (guardedService fun _ => "").init run s ∧
      (∀ x ∈ run, OnlyArrives sampleRequest x.2) ∧
      s.performed = [(sampleRequest, "first"), (sampleRequest, "second")] := by
  have hend : ((guardedService fun _ => "").run {} sampleRetries).map (·.performed) =
      some [(sampleRequest, "first"), (sampleRequest, "second")] := by decide
  obtain ⟨s, hrun, hs⟩ := Option.map_eq_some_iff.mp hend
  obtain ⟨run, hexec, has⟩ := TransitionSystem.exec_of_run hrun
  refine ⟨s, run, hexec, fun x hx => ?_, hs⟩
  have hall : ∀ a ∈ sampleRetries, OnlyArrives sampleRequest a := by
    simp [sampleRetries, OnlyArrives]
  exact hall x.2 (has ▸ List.mem_map_of_mem hx)

theorem identical_requests_iff_sampleRetries :
    ∃ s run, (guardedService fun _ => "").Exec (guardedService fun _ => "").init run s ∧
      s.performed = [(sampleRequest, "first"), (sampleRequest, "second")] ∧
      ¬ TransitionSystem.Throughout PerformedOnce run s ∧ ¬ ∀ x ∈ run, CommitsOwn x.1 x.2 := by
  obtain ⟨s, run, hexec, harrives, hperformed⟩ := sampleRetries_end
  have hnot : ¬ TransitionSystem.Throughout PerformedOnce run s := by
    refine TransitionSystem.not_throughout run fun honce => ?_
    have hlength := honce.1
    rw [hperformed] at hlength
    exact absurd hlength (by decide)
  exact ⟨s, run, hexec, hperformed, hnot, (identical_requests_iff hexec harrives).not.mp hnot⟩

theorem identical_requests_performed_twice :
    ∃ s run, (guardedService fun _ => "").Exec (guardedService fun _ => "").init run s ∧
      (∀ x ∈ run, OnlyArrives sampleRequest x.2) ∧
      s.performed = [(sampleRequest, "first"), (sampleRequest, "second")] := sampleRetries_end

end Identical

end CarFlow
