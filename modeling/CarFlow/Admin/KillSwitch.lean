import CarFlow.Admin.Service
import CarFlow.Lib.ProcessFamily
import CarFlow.Shared.KillSwitch
import Mathlib.Data.List.MinMax

/-!
# The kill switch and the audit log

`activate_kill_switch` and `deactivate_kill_switch` of `services/admin`: a request writes the flag
of the vehicle to Redis, then records an `AdminAction`, which the session commits. Nothing orders
the requests of two admins, and nothing takes a flag back when the transaction is rolled back.

## The model

* A request that is refused, or replayed by the guard, ends before it writes.
* `created_at` is what the clock of the process says when the row is made: any instant.
* A request may end at any point without a commit: the process is stopped, the database is away, or
  another request with its key was faster.
* Vehicles are told apart by `str` of their UUIDs, in Redis as in `target_id`.

Three things set the log against the flag: a request that is cut off after its command, opposite
requests whose commands and rows come in different orders, and a clock that goes back. `TakesTurns`
excludes them, on the schedule, the cuts and the clock alone. It does not exclude every run in which
requests overlap: two of one kind may, and so may opposite ones, up to their commands.

## Main results

* `tellsTruth_iff` — what the rows have to look like
* `KillSwitchOk.step` — the flag is what Redis was told last
* `TurnsOk.step` — what Redis was told last is recorded last
* `audit_log_truthful` — **the audit log tells the truth about the kill switch** as long as opposite
  requests take turns
-/

namespace CarFlow

open LastWrite

/-! ### Rows of the audit log

The log is sorted by time, and what it says of a vehicle is its last row. Which row is last after an
insert depends on the times alone. -/

/-- The `action_type` of a toggle. -/
def Toggle.actionType : Toggle → AdminActionType
  | activate => .killSwitchActivated
  | deactivate => .killSwitchDeactivated

/-- A row of `admin_actions`, with its timestamp. -/
structure AdminActionRow extends AdminAction where
  createdAt : ℤ
  deriving DecidableEq

/-- The row is about a kill switch. -/
def AdminActionRow.isToggle (row : AdminActionRow) : Bool :=
  row.actionType = .killSwitchActivated ∨ row.actionType = .killSwitchDeactivated

/-- The kill-switch rows of a vehicle. -/
def switchRows (actions : List AdminActionRow) (vehicleId : String) : List AdminActionRow :=
  actions.filter fun row => row.isToggle ∧ uuidStr row.targetId = vehicleId

/-- The most recent of them: more than one if they were made at the same instant. -/
def mostRecent (actions : List AdminActionRow) (vehicleId : String) : List AdminActionRow :=
  (switchRows actions vehicleId).filter fun row =>
    ∀ row' ∈ switchRows actions vehicleId, row'.createdAt ≤ row.createdAt

/-- The log tells that the switch is on, or that it is off. -/
structure TellsTruth (actions : List AdminActionRow) (vehicleId : String) (active : Bool) :
    Prop where
  /-- A switch that is on was recorded. -/
  recorded : active = true → mostRecent actions vehicleId ≠ []
  /-- The most recent row tells how the switch was left. -/
  agrees : ∀ row ∈ mostRecent actions vehicleId,
    row.actionType = .killSwitchActivated ↔ active = true

/-- The rows of this kind come last: each row of the other kind has a newer one after it. -/
structure ComesLast (actions : List AdminActionRow) (vehicleId : String) (toggle : Toggle) :
    Prop where
  exists_row : toggle = .activate →
    ∃ row ∈ switchRows actions vehicleId, row.actionType = toggle.actionType
  newer : ∀ row ∈ switchRows actions vehicleId, row.actionType ≠ toggle.actionType →
    ∃ row' ∈ switchRows actions vehicleId,
      row'.actionType = toggle.actionType ∧ row.createdAt < row'.createdAt

section Rows

variable {actions : List AdminActionRow} {row : AdminActionRow} {v : String} {toggle : Toggle}

theorem mem_switchRows :
    row ∈ switchRows actions v ↔
      row ∈ actions ∧ row.isToggle = true ∧ uuidStr row.targetId = v := by
  simp [switchRows]

theorem mem_mostRecent :
    row ∈ mostRecent actions v ↔ row ∈ switchRows actions v ∧
      ∀ row' ∈ switchRows actions v, row'.createdAt ≤ row.createdAt := by
  simp [mostRecent]

theorem exists_mostRecent (h : row ∈ switchRows actions v) :
    ∃ row', row' ∈ mostRecent actions v := by
  cases hmax : (switchRows actions v).argmax AdminActionRow.createdAt with
  | none =>
    rw [List.argmax_eq_none.mp hmax] at h
    exact absurd h List.not_mem_nil
  | some row' =>
    exact ⟨row', mem_mostRecent.mpr ⟨List.argmax_mem hmax,
      fun row'' h'' => List.le_of_mem_argmax h'' hmax⟩⟩

/-- A kill-switch row is of the one kind or of the other. -/
theorem actionType_eq_iff (h : row ∈ switchRows actions v) :
    row.actionType = toggle.actionType ↔
      (row.actionType = .killSwitchActivated ↔ toggle = .activate) := by
  have hkind : row.actionType = .killSwitchActivated ∨ row.actionType = .killSwitchDeactivated := by
    simpa [AdminActionRow.isToggle] using (mem_switchRows.mp h).2.1
  rcases hkind with hkind | hkind <;> cases toggle <;> simp [hkind, Toggle.actionType]

/-- **The log tells the truth** about what was done last if the rows of this come last. -/
theorem tellsTruth_iff :
    TellsTruth actions v (decide (toggle = .activate)) ↔ ComesLast actions v toggle := by
  constructor
  · intro h
    have hagrees : ∀ row ∈ mostRecent actions v, row.actionType = toggle.actionType := by
      intro row hrow
      rw [actionType_eq_iff (mem_mostRecent.mp hrow).1, h.agrees row hrow, decide_eq_true_iff]
    refine ⟨fun ht => ?_, fun row hrow hne => ?_⟩
    · obtain ⟨row, hrow⟩ := List.exists_mem_of_ne_nil _ (h.recorded (decide_eq_true ht))
      exact ⟨row, (mem_mostRecent.mp hrow).1, hagrees row hrow⟩
    · obtain ⟨row', hrow'⟩ := exists_mostRecent hrow
      obtain ⟨hmem, hmax⟩ := mem_mostRecent.mp hrow'
      refine ⟨row', hmem, hagrees row' hrow', lt_of_le_of_ne (hmax row hrow) fun heq => ?_⟩
      -- otherwise it is a most recent row itself
      exact hne (hagrees row (mem_mostRecent.mpr ⟨hrow, fun r hr => heq ▸ hmax r hr⟩))
  · intro h
    refine ⟨fun ht => ?_, fun row hrow => ?_⟩
    · obtain ⟨row, hrow, -⟩ := h.exists_row (of_decide_eq_true ht)
      obtain ⟨row', hrow'⟩ := exists_mostRecent hrow
      exact List.ne_nil_of_mem hrow'
    · obtain ⟨hmem, hmax⟩ := mem_mostRecent.mp hrow
      rw [decide_eq_true_iff, ← actionType_eq_iff hmem]
      by_contra hne
      obtain ⟨row', hrow', -, hlt⟩ := h.newer row hmem hne
      exact absurd (hmax row' hrow') (not_le_of_gt hlt)

/-- Rows about other vehicles, and other rows, make no difference. -/
theorem switchRows_concat_of_ne (h : ¬(row.isToggle = true ∧ uuidStr row.targetId = v)) :
    switchRows (actions ++ [row]) v = switchRows actions v := by
  rw [switchRows, List.filter_append, switchRows, List.filter_cons_of_neg (by simpa using h),
    List.filter_nil, List.append_nil]

theorem TellsTruth.congr {actions' : List AdminActionRow} {active : Bool}
    (h : switchRows actions' v = switchRows actions v) :
    TellsTruth actions' v active ↔ TellsTruth actions v active := by
  have hrecent : mostRecent actions' v = mostRecent actions v := by
    rw [mostRecent, h, mostRecent]
  exact ⟨fun ⟨h₁, h₂⟩ => ⟨hrecent ▸ h₁, hrecent ▸ h₂⟩,
    fun ⟨h₁, h₂⟩ => ⟨hrecent ▸ h₁, hrecent ▸ h₂⟩⟩

end Rows

/-! ### The requests -/

/-- How far a request is. -/
inductive ToggleStage
  | started
  /-- Redis has carried out the command. -/
  | written
  /-- The row is flushed. -/
  | recorded (createdAt : ℤ)
  deriving DecidableEq

/-- A request to `enable_kill_switch` or `disable_kill_switch`. -/
structure ToggleRequest where
  toggle : Toggle
  adminId : Uuid
  vehicleId : Uuid
  stage : ToggleStage := .started
  deriving DecidableEq

namespace ToggleRequest

variable (r : ToggleRequest)

/-- `str(vehicle_id)`. -/
def target : String := uuidStr r.vehicleId

/-- The row of the request. -/
def row (createdAt : ℤ) : AdminActionRow where
  adminId := r.adminId
  actionType := r.toggle.actionType
  targetId := r.vehicleId
  createdAt := createdAt

end ToggleRequest

/-- Redis, the admin database, and the requests in progress. -/
structure KillSwitchState where
  redis : List String := []
  /-- The committed rows of `admin_actions`. -/
  actions : List AdminActionRow := []
  requests : List ToggleRequest := []
  /-- What Redis was told, in order. Nothing reads this. -/
  commands : List (String × Toggle) := []

inductive KillSwitchAction
  | arrive (toggle : Toggle) (adminId vehicleId : Uuid)
  /-- `kill_switch.activate` or `kill_switch.deactivate`. -/
  | write (i : ℕ)
  /-- `actions_repo.record`. -/
  | record (i : ℕ) (createdAt : ℤ)
  | commit (i : ℕ)
  /-- The request ends, and its transaction is rolled back. -/
  | abort (i : ℕ)
  /-- An approval or a rejection is recorded. -/
  | decision (row : AdminActionRow)

def killSwitchStep (s : KillSwitchState) : KillSwitchAction → Option KillSwitchState
  | .arrive toggle adminId vehicleId =>
    some { s with requests := s.requests ++ [{ toggle, adminId, vehicleId }] }
  | .write i => do
    let r ← s.requests[i]?
    if r.stage = .started then
      some { s with
        redis := r.toggle.run s.redis r.target
        commands := s.commands ++ [(r.target, r.toggle)]
        requests := s.requests.set i { r with stage := .written } }
    else none
  | .record i createdAt => do
    let r ← s.requests[i]?
    if r.stage = .written then
      some { s with requests := s.requests.set i { r with stage := .recorded createdAt } }
    else none
  | .commit i => do
    let r ← s.requests[i]?
    match r.stage with
    | .recorded createdAt =>
      some { s with actions := s.actions ++ [r.row createdAt], requests := s.requests.eraseIdx i }
    | _ => none
  | .abort i => do
    let _ ← s.requests[i]?
    some { s with requests := s.requests.eraseIdx i }
  | .decision row =>
    if row.isToggle then none else some { s with actions := s.actions ++ [row] }

/-- The admin service, as far as kill switches go. -/
def killSwitches : TransitionSystem KillSwitchState KillSwitchAction where
  init := {}
  step := killSwitchStep

/-- No request for the vehicle is in progress. -/
def Quiescent (requests : List ToggleRequest) (vehicleId : String) : Prop :=
  ∀ r ∈ requests, r.target ≠ vehicleId

/-- The audit log tells the truth about every vehicle without a request in progress. -/
def AuditTruthful (s : KillSwitchState) : Prop :=
  ∀ vehicleId, Quiescent s.requests vehicleId →
    TellsTruth s.actions vehicleId (isActive s.redis vehicleId)

/-! ### What a step does -/

/-- The ways a step can go. -/
inductive KillSwitchStep (s : KillSwitchState) : KillSwitchAction → KillSwitchState → Prop
  | arrived (toggle : Toggle) (adminId vehicleId : Uuid) :
      KillSwitchStep s (.arrive toggle adminId vehicleId)
        { s with requests := s.requests ++ [{ toggle, adminId, vehicleId }] }
  | wrote (i : ℕ) (r : ToggleRequest) (hi : s.requests[i]? = some r) (hstage : r.stage = .started) :
      KillSwitchStep s (.write i) { s with
        redis := r.toggle.run s.redis r.target
        commands := s.commands ++ [(r.target, r.toggle)]
        requests := s.requests.set i { r with stage := .written } }
  | recorded (i : ℕ) (createdAt : ℤ) (r : ToggleRequest) (hi : s.requests[i]? = some r)
      (hstage : r.stage = .written) :
      KillSwitchStep s (.record i createdAt)
        { s with requests := s.requests.set i { r with stage := .recorded createdAt } }
  | committed (i : ℕ) (createdAt : ℤ) (r : ToggleRequest) (hi : s.requests[i]? = some r)
      (hstage : r.stage = .recorded createdAt) :
      KillSwitchStep s (.commit i)
        { s with actions := s.actions ++ [r.row createdAt], requests := s.requests.eraseIdx i }
  | aborted (i : ℕ) (r : ToggleRequest) (hi : s.requests[i]? = some r) :
      KillSwitchStep s (.abort i) { s with requests := s.requests.eraseIdx i }
  | decided (row : AdminActionRow) (htoggle : ¬ row.isToggle) :
      KillSwitchStep s (.decision row) { s with actions := s.actions ++ [row] }

theorem killSwitchStep_cases {s s' : KillSwitchState} {a : KillSwitchAction}
    (h : killSwitchStep s a = some s') : KillSwitchStep s a s' := by
  cases a with
  | arrive toggle adminId vehicleId =>
    cases h
    exact .arrived toggle adminId vehicleId
  | write i =>
    simp only [killSwitchStep, Option.bind_eq_bind, Option.bind_eq_some_iff,
      Option.ite_none_right_eq_some, Option.some.injEq] at h
    obtain ⟨r, hi, hstage, rfl⟩ := h
    exact .wrote i r hi hstage
  | record i createdAt =>
    simp only [killSwitchStep, Option.bind_eq_bind, Option.bind_eq_some_iff,
      Option.ite_none_right_eq_some, Option.some.injEq] at h
    obtain ⟨r, hi, hstage, rfl⟩ := h
    exact .recorded i createdAt r hi hstage
  | commit i =>
    simp only [killSwitchStep, Option.bind_eq_bind, Option.bind_eq_some_iff] at h
    obtain ⟨r, hi, h⟩ := h
    split at h
    · rename_i createdAt hstage
      cases h
      exact .committed i createdAt r hi hstage
    · cases h
  | abort i =>
    simp only [killSwitchStep, Option.bind_eq_bind, Option.bind_eq_some_iff,
      Option.some.injEq] at h
    obtain ⟨r, hi, rfl⟩ := h
    exact .aborted i r hi
  | decision row =>
    simp only [killSwitchStep] at h
    split at h
    · cases h
    · rename_i htoggle
      cases h
      exact .decided row htoggle

section Steps

variable {s s' : KillSwitchState} {a : KillSwitchAction} {r : ToggleRequest} {i : ℕ} {v : String}

/-- Requests arrive, and keep their vehicle; Redis is told about the vehicles of requests. -/
theorem KillSwitchStep.vehicles (h : KillSwitchStep s a s') :
    (∀ r' ∈ s'.requests, (∃ r ∈ s.requests, r.vehicleId = r'.vehicleId) ∨
      ∃ toggle adminId, a = .arrive toggle adminId r'.vehicleId) ∧
    ∀ command ∈ s'.commands, command ∈ s.commands ∨
      ∃ r ∈ s.requests, command.1 = r.target := by
  have hset : ∀ {i : ℕ} {r : ToggleRequest} {stage : ToggleStage}, s.requests[i]? = some r →
      ∀ r' ∈ s.requests.set i { r with stage }, ∃ r ∈ s.requests, r.vehicleId = r'.vehicleId := by
    intro i r stage hi r' hr'
    rcases List.mem_or_eq_of_mem_set hr' with hr' | rfl
    · exact ⟨r', hr', rfl⟩
    · exact ⟨r, List.mem_of_getElem? hi, rfl⟩
  cases h with
  | arrived toggle adminId vehicleId =>
    refine ⟨fun r' hr' => ?_, fun _ => .inl⟩
    rcases List.mem_append.mp hr' with hr' | hr'
    · exact .inl ⟨r', hr', rfl⟩
    · rw [List.mem_singleton.mp hr']
      exact .inr ⟨toggle, adminId, rfl⟩
  | wrote i r hi hstage =>
    refine ⟨fun r' hr' => .inl (hset hi r' hr'), fun command hcommand => ?_⟩
    rcases List.mem_append.mp hcommand with hcommand | hcommand
    · exact .inl hcommand
    · rw [List.mem_singleton.mp hcommand]
      exact .inr ⟨r, List.mem_of_getElem? hi, rfl⟩
  | recorded i createdAt r hi hstage =>
    exact ⟨fun r' hr' => .inl (hset hi r' hr'), fun _ => .inl⟩
  | committed i createdAt r hi hstage =>
    exact ⟨fun r' hr' => .inl ⟨r', List.mem_of_mem_eraseIdx hr', rfl⟩, fun _ => .inl⟩
  | aborted i r hi =>
    exact ⟨fun r' hr' => .inl ⟨r', List.mem_of_mem_eraseIdx hr', rfl⟩, fun _ => .inl⟩
  | decided row htoggle => exact ⟨fun r' hr' => .inl ⟨r', hr', rfl⟩, fun _ => .inl⟩

end Steps

/-! ### Runs -/

/-- What holds of every reachable state. -/
structure KillSwitchOk (s : KillSwitchState) : Prop where
  redis_eq : s.redis = runToggles s.commands
  /-- A request writes before it records. -/
  written : ∀ r ∈ s.requests, r.stage ≠ .started → last Prod.fst s.commands r.target ≠ none
  recorded : ∀ v, ∀ row ∈ switchRows s.actions v, last Prod.fst s.commands v ≠ none

theorem last_concat_ne_none {commands : List (String × Toggle)} {v : String}
    (command : String × Toggle) (h : last Prod.fst commands v ≠ none) :
    last Prod.fst (commands ++ [command]) v ≠ none := by
  rw [last_concat]
  split
  · exact Option.some_ne_none _
  · exact h

section Runs

variable {s s' : KillSwitchState} {a : KillSwitchAction}
  {run : List (KillSwitchState × KillSwitchAction)}

theorem KillSwitchOk.init : KillSwitchOk {} := ⟨rfl, by simp, by simp [switchRows]⟩

/-- **What Redis holds** is what it was told last. -/
theorem KillSwitchOk.step (hs : KillSwitchOk s) (h : KillSwitchStep s a s') :
    KillSwitchOk s' := by
  cases h with
  | arrived toggle adminId vehicleId =>
    refine { hs with written := fun r hr hstage => ?_ }
    rcases List.mem_append.mp hr with hr | hr
    · exact hs.written r hr hstage
    · rw [List.mem_singleton.mp hr] at hstage
      exact absurd rfl hstage
  | wrote i r hi hstage =>
    refine ⟨?_, fun r' hr' hstage' => ?_,
      fun v row hrow => last_concat_ne_none _ (hs.recorded v row hrow)⟩
    · rw [runToggles_concat, ← hs.redis_eq]
    · rcases List.mem_or_eq_of_mem_set hr' with hr' | rfl
      · exact last_concat_ne_none _ (hs.written r' hr' hstage')
      · show last Prod.fst (s.commands ++ [(r.target, r.toggle)]) r.target ≠ none
        rw [last_concat, if_pos rfl]
        exact Option.some_ne_none _
  | recorded i createdAt r hi hstage =>
    refine { hs with written := fun r' hr' hstage' => ?_ }
    rcases List.mem_or_eq_of_mem_set hr' with hr' | rfl
    · exact hs.written r' hr' hstage'
    · exact hs.written r (List.mem_of_getElem? hi) (by rw [hstage]; exact nofun)
  | committed i createdAt r hi hstage =>
    refine { hs with
      written := fun r' hr' => hs.written r' (List.mem_of_mem_eraseIdx hr')
      recorded := fun v row hrow => ?_ }
    obtain ⟨hmem, htoggle, htarget⟩ := mem_switchRows.mp hrow
    rcases List.mem_append.mp hmem with hmem | hmem
    · exact hs.recorded v row (mem_switchRows.mpr ⟨hmem, htoggle, htarget⟩)
    · obtain rfl := List.mem_singleton.mp hmem
      exact htarget ▸ hs.written r (List.mem_of_getElem? hi) (by rw [hstage]; exact nofun)
  | aborted i r hi =>
    exact { hs with written := fun r' hr' => hs.written r' (List.mem_of_mem_eraseIdx hr') }
  | decided row htoggle =>
    refine { hs with recorded := fun v row' hrow => ?_ }
    rw [switchRows_concat_of_ne fun h => htoggle h.1] at hrow
    exact hs.recorded v row' hrow

theorem killSwitchOk_of_reachable (h : killSwitches.Reachable s) : KillSwitchOk s :=
  h.invariant _ KillSwitchOk.init fun _ _ _ _ hs hstep => hs.step (killSwitchStep_cases hstep)

/-- Of a reachable state, the log tells the truth if the rows of the last command come last. -/
theorem KillSwitchOk.tellsTruth_iff (hs : KillSwitchOk s) (v : String) :
    TellsTruth s.actions v (isActive s.redis v) ↔
      ∀ toggle, last Prod.fst s.commands v = some (v, toggle) → ComesLast s.actions v toggle := by
  have hactive : isActive s.redis v = true ↔ last Prod.fst s.commands v = some (v, .activate) := by
    rw [hs.redis_eq]
    exact isActive_runToggles _ _
  cases hlast : last Prod.fst s.commands v with
  | none =>
    -- nothing was ever recorded
    have hrows : switchRows s.actions v = [] :=
      List.eq_nil_iff_forall_not_mem.mpr fun row hrow => hs.recorded v row hrow hlast
    have hrecent : mostRecent s.actions v = [] := by rw [mostRecent, hrows]; rfl
    refine iff_of_true ⟨fun h => ?_, fun row hrow => ?_⟩ (by simp)
    · rw [hactive, hlast] at h
      cases h
    · rw [hrecent] at hrow
      exact absurd hrow List.not_mem_nil
  | some command =>
    obtain ⟨w, toggle⟩ := command
    obtain rfl : w = v := (mem_of_last hlast).2
    have hflag : isActive s.redis w = decide (toggle = .activate) := by
      rw [Bool.eq_iff_iff, hactive, hlast, decide_eq_true_iff]
      simp
    rw [hflag, CarFlow.tellsTruth_iff]
    simp

/-! ### When the log tells the truth -/

/-- A request has told Redis, and has not ended. -/
def ToggleRequest.Told (r : ToggleRequest) : Prop := r.stage ≠ .started

instance (r : ToggleRequest) : Decidable r.Told := inferInstanceAs (Decidable (r.stage ≠ .started))

/-- Opposite requests for a vehicle have not both told Redis and still to end; the clock goes
forward from the rows of the one kind to those of the other; and a request that has told Redis is
not cut off, unless another one for its vehicle goes on. -/
def TakesTurns (s : KillSwitchState) : KillSwitchAction → Prop
  | .write i => ∀ r ∈ s.requests[i]?, ∀ u ∈ s.requests, u.target = r.target → u.Told →
    u.toggle = r.toggle
  | .record i createdAt => ∀ r ∈ s.requests[i]?, ∀ row ∈ switchRows s.actions r.target,
    row.actionType ≠ r.toggle.actionType → row.createdAt < createdAt
  | .abort i => ∀ r ∈ s.requests[i]?, r.Told →
    ∃ u ∈ s.requests.eraseIdx i, u.target = r.target ∧ u.Told
  | _ => True

instance (s : KillSwitchState) : (a : KillSwitchAction) → Decidable (TakesTurns s a)
  | .write i => inferInstanceAs (Decidable (∀ r ∈ s.requests[i]?, ∀ u ∈ s.requests,
      u.target = r.target → u.Told → u.toggle = r.toggle))
  | .record i createdAt => inferInstanceAs (Decidable (∀ r ∈ s.requests[i]?,
      ∀ row ∈ switchRows s.actions r.target,
        row.actionType ≠ r.toggle.actionType → row.createdAt < createdAt))
  | .abort i => inferInstanceAs (Decidable (∀ r ∈ s.requests[i]?, r.Told →
      ∃ u ∈ s.requests.eraseIdx i, u.target = r.target ∧ u.Told))
  | .arrive .. | .commit _ | .decision _ => isTrue trivial

/-- A request in progress. -/
structure RequestOk (s : KillSwitchState) (r : ToggleRequest) : Prop where
  last_eq : r.Told → last Prod.fst s.commands r.target = some (r.target, r.toggle)
  newer : ∀ createdAt, r.stage = .recorded createdAt → ∀ row ∈ switchRows s.actions r.target,
    row.actionType ≠ r.toggle.actionType → row.createdAt < createdAt

/-- What holds of runs in which requests take turns. -/
structure TurnsOk (s : KillSwitchState) : Prop where
  requests : ∀ r ∈ s.requests, RequestOk s r
  /-- What Redis was told is recorded, unless a request that told it is still in progress. -/
  settled : ∀ v toggle, last Prod.fst s.commands v = some (v, toggle) →
    (∀ r ∈ s.requests, r.target = v → ¬ r.Told) → ComesLast s.actions v toggle

theorem RequestOk.congr {r : ToggleRequest} (h : RequestOk s r)
    (hlast : last Prod.fst s'.commands r.target = last Prod.fst s.commands r.target)
    (hrows : switchRows s'.actions r.target = switchRows s.actions r.target) : RequestOk s' r :=
  ⟨hlast ▸ h.last_eq, hrows ▸ h.newer⟩

theorem ComesLast.congr {actions actions' : List AdminActionRow} {v : String} {toggle : Toggle}
    (h : ComesLast actions v toggle) (hrows : switchRows actions' v = switchRows actions v) :
    ComesLast actions' v toggle :=
  ⟨hrows ▸ h.exists_row, hrows ▸ h.newer⟩

/-- The rows after a commit: those of before, and the new one, which is of the kind of its
request. -/
theorem mem_switchRows_concat {actions : List AdminActionRow} {r : ToggleRequest} {createdAt : ℤ}
    {row : AdminActionRow} (h : row ∈ switchRows (actions ++ [r.row createdAt]) r.target) :
    row ∈ switchRows actions r.target ∨ row.actionType = r.toggle.actionType := by
  obtain ⟨hmem, htoggle, htarget⟩ := mem_switchRows.mp h
  rcases List.mem_append.mp hmem with hmem | hmem
  · exact .inl (mem_switchRows.mpr ⟨hmem, htoggle, htarget⟩)
  · rw [List.mem_singleton.mp hmem]
    exact .inr rfl

/-- A row that is newer than those of the other kind comes last. -/
theorem comesLast_concat {actions : List AdminActionRow} {r : ToggleRequest} {createdAt : ℤ}
    (hnewer : ∀ row ∈ switchRows actions r.target,
      row.actionType ≠ r.toggle.actionType → row.createdAt < createdAt) :
    ComesLast (actions ++ [r.row createdAt]) r.target r.toggle := by
  have hrow : r.row createdAt ∈ switchRows (actions ++ [r.row createdAt]) r.target := by
    refine mem_switchRows.mpr ⟨List.mem_append_right _ List.mem_cons_self, ?_, rfl⟩
    cases htoggle : r.toggle <;>
      simp [AdminActionRow.isToggle, ToggleRequest.row, htoggle, Toggle.actionType]
  exact ⟨fun _ => ⟨_, hrow, rfl⟩, fun row hmem hne =>
    ⟨_, hrow, rfl, hnewer row ((mem_switchRows_concat hmem).resolve_right hne) hne⟩⟩

/-- A vehicle none of whose requests has told Redis is not that of a request that has, and was the
same before that one got there. -/
theorem others_untold {v : String} {r : ToggleRequest} {stage : ToggleStage} {i : ℕ}
    (hi : s.requests[i]? = some r)
    (h : ∀ u ∈ s.requests.set i { r with stage }, u.target = v → ¬ u.Told)
    (hne : stage ≠ .started) :
    r.target ≠ v ∧ ∀ u ∈ s.requests, u.target = v → ¬ u.Told := by
  have hv : r.target ≠ v := fun hv => by
    obtain ⟨hlt, -⟩ := List.getElem?_eq_some_iff.mp hi
    exact h _ (List.mem_set hlt _) hv hne
  refine ⟨hv, fun u hu huv => ?_⟩
  rcases ProcessFamily.eq_or_mem_eraseIdx hi hu with rfl | hu
  · exact absurd huv hv
  · exact h u (ProcessFamily.mem_set_of_mem_eraseIdx hi hu) huv

/-- **Redis is told**, while nobody has told it the opposite and has still to end. -/
theorem TurnsOk.write (hs : TurnsOk s) {i : ℕ} {r : ToggleRequest} (hi : s.requests[i]? = some r)
    (hturn : TakesTurns s (.write i)) : TurnsOk { s with
      redis := r.toggle.run s.redis r.target
      commands := s.commands ++ [(r.target, r.toggle)]
      requests := s.requests.set i { r with stage := .written } } := by
  refine ⟨fun u hu => ?_, fun v toggle hlast huntold => ?_⟩
  · rcases List.mem_or_eq_of_mem_set hu with hu | rfl
    · refine ⟨fun htold => ?_, (hs.requests u hu).newer⟩
      rw [last_concat]
      by_cases htarget : u.target = r.target
      · rw [if_pos htarget.symm, htarget, hturn r hi u hu htarget htold]
      · rw [if_neg (Ne.symm htarget)]
        exact (hs.requests u hu).last_eq htold
    · exact ⟨fun _ => last_concat.trans (if_pos rfl), nofun⟩
  · obtain ⟨hv, huntold⟩ := others_untold hi huntold nofun
    rw [last_concat, if_neg hv] at hlast
    exact hs.settled v toggle hlast huntold

/-- **The row is made**, with a newer timestamp than the rows of the other kind. -/
theorem TurnsOk.record (hs : TurnsOk s) {i : ℕ} {r : ToggleRequest} {createdAt : ℤ}
    (hi : s.requests[i]? = some r) (hstage : r.stage = .written)
    (hturn : TakesTurns s (.record i createdAt)) :
    TurnsOk { s with requests := s.requests.set i { r with stage := .recorded createdAt } } := by
  refine ⟨fun u hu => ?_, fun v toggle hlast huntold => ?_⟩
  · rcases List.mem_or_eq_of_mem_set hu with hu | rfl
    · exact (hs.requests u hu).congr rfl rfl
    · refine ⟨fun _ => ?_, fun c hc => ?_⟩
      · refine (hs.requests r (List.mem_of_getElem? hi)).last_eq ?_
        rw [ToggleRequest.Told, hstage]
        exact nofun
      · cases hc
        exact hturn r hi
  · exact hs.settled v toggle hlast (others_untold hi huntold nofun).2

/-- **The row is committed**: it comes last, and is of the kind of all that have still to end. -/
theorem TurnsOk.commit (hs : TurnsOk s) {i : ℕ} {r : ToggleRequest} {createdAt : ℤ}
    (hi : s.requests[i]? = some r) (hstage : r.stage = .recorded createdAt) :
    TurnsOk { s with
      actions := s.actions ++ [r.row createdAt]
      requests := s.requests.eraseIdx i } := by
  have hr := hs.requests r (List.mem_of_getElem? hi)
  have htold : r.Told := by rw [ToggleRequest.Told, hstage]; exact nofun
  have hrows {v : String} (hv : r.target ≠ v) :
      switchRows (s.actions ++ [r.row createdAt]) v = switchRows s.actions v :=
    switchRows_concat_of_ne fun h => hv h.2
  refine ⟨fun u hu => ?_, fun v toggle hlast huntold => ?_⟩
  · have hu := hs.requests u (List.mem_of_mem_eraseIdx hu)
    by_cases htarget : r.target = u.target
    · refine ⟨hu.last_eq, fun c hc row hrow hne => ?_⟩
      have hsame : r.toggle = u.toggle := by
        have hlast := hu.last_eq (by rw [ToggleRequest.Told, hc]; exact nofun)
        rw [← htarget, hr.last_eq htold] at hlast
        exact congrArg Prod.snd (Option.some.inj hlast)
      rw [← htarget] at hrow
      rw [← hsame] at hne
      have hold := (mem_switchRows_concat hrow).resolve_right hne
      exact hu.newer c hc row (htarget ▸ hold) (hsame ▸ hne)
    · exact hu.congr rfl (hrows htarget)
  · by_cases hv : r.target = v
    · subst hv
      obtain rfl : r.toggle = toggle :=
        congrArg Prod.snd (Option.some.inj ((hr.last_eq htold).symm.trans hlast))
      exact comesLast_concat (hr.newer createdAt hstage)
    · refine (hs.settled v toggle hlast fun u hu huv => ?_).congr (hrows hv)
      rcases ProcessFamily.eq_or_mem_eraseIdx hi hu with rfl | hu
      · exact absurd huv hv
      · exact huntold u hu huv

/-- **A request is cut off** that has not told Redis, or leaves another one that has. -/
theorem TurnsOk.abort (hs : TurnsOk s) {i : ℕ} {r : ToggleRequest} (hi : s.requests[i]? = some r)
    (hturn : TakesTurns s (.abort i)) :
    TurnsOk { s with requests := s.requests.eraseIdx i } := by
  refine ⟨fun u hu => (hs.requests u (List.mem_of_mem_eraseIdx hu)).congr rfl rfl,
    fun v toggle hlast huntold => hs.settled v toggle hlast fun u hu huv htold => ?_⟩
  rcases ProcessFamily.eq_or_mem_eraseIdx hi hu with rfl | hu
  · obtain ⟨u', hu', htarget, htold'⟩ := hturn u hi htold
    exact huntold u' hu' (htarget.trans huv) htold'
  · exact huntold u hu huv htold

theorem TurnsOk.step (hs : TurnsOk s) (hturn : TakesTurns s a) (h : KillSwitchStep s a s') :
    TurnsOk s' := by
  cases h with
  | arrived toggle adminId vehicleId =>
    refine ⟨List.forall_mem_append.mpr ⟨fun r hr => (hs.requests r hr).congr rfl rfl,
      List.forall_mem_singleton.mpr ⟨fun htold => absurd rfl htold, nofun⟩⟩, ?_⟩
    exact fun v t hlast huntold =>
      hs.settled v t hlast fun r hr => huntold r (List.mem_append_left _ hr)
  | wrote i r hi hstage => exact hs.write hi hturn
  | recorded i createdAt r hi hstage => exact hs.record hi hstage hturn
  | committed i createdAt r hi hstage => exact hs.commit hi hstage
  | aborted i r hi => exact hs.abort hi hturn
  | decided row htoggle =>
    have hrows (v : String) : switchRows (s.actions ++ [row]) v = switchRows s.actions v :=
      switchRows_concat_of_ne fun h => htoggle h.1
    exact ⟨fun r hr => (hs.requests r hr).congr rfl (hrows _),
      fun v toggle hlast huntold => (hs.settled v toggle hlast huntold).congr (hrows v)⟩

theorem turnsOk_of_reachableWhere (h : killSwitches.ReachableWhere TakesTurns s) : TurnsOk s :=
  h.invariant TurnsOk ⟨fun _ hr => absurd hr List.not_mem_nil, fun _ _ hlast => by cases hlast⟩
    fun _ _ _ _ hs hturn hstep => hs.step hturn (killSwitchStep_cases hstep)

/-- **The audit log tells the truth about the kill switch** in every state of a run in which
opposite requests take turns, no request is cut off alone once it has told Redis, and the clock goes
forward. -/
theorem audit_log_truthful (h : killSwitches.ReachableWhere TakesTurns s) : AuditTruthful s := by
  intro v hquiet
  rw [(killSwitchOk_of_reachable h.reachable).tellsTruth_iff]
  exact fun toggle hlast => (turnsOk_of_reachableWhere h).settled v toggle hlast
    fun r hr htarget => absurd htarget (hquiet r hr)

end Runs

/-- Admin 1 activates the switch of vehicle 7. Meanwhile admin 2 asks to deactivate it, and gets to
Redis after the commit. Two activations follow side by side, and one of them is cut off. -/
def sampleTurns : List KillSwitchAction :=
  [.arrive .activate 1 7, .arrive .deactivate 2 7, .write 0, .record 0 10, .commit 0,
    .write 0, .record 0 11, .commit 0,
    .arrive .activate 1 7, .arrive .activate 2 7, .write 0, .write 1, .record 1 12, .abort 0,
    .commit 0]

/-- The switch is on, and the most recent row is that of the activation. -/
theorem audit_log_truthful_sampleTurns :
    ∃ s, killSwitches.Reachable s ∧ s.requests = [] ∧ isActive s.redis (uuidStr 7) = true ∧
      s.actions = [⟨⟨1, .killSwitchActivated, "vehicle", 7⟩, 10⟩,
        ⟨⟨2, .killSwitchDeactivated, "vehicle", 7⟩, 11⟩,
        ⟨⟨2, .killSwitchActivated, "vehicle", 7⟩, 12⟩] ∧
      TellsTruth s.actions (uuidStr 7) (isActive s.redis (uuidStr 7)) := by
  have hend : (killSwitches.run {} sampleTurns).map (fun s =>
      (s.requests, isActive s.redis (uuidStr 7), s.actions)) =
        some ([], true, [⟨⟨1, .killSwitchActivated, "vehicle", 7⟩, 10⟩,
          ⟨⟨2, .killSwitchDeactivated, "vehicle", 7⟩, 11⟩,
          ⟨⟨2, .killSwitchActivated, "vehicle", 7⟩, 12⟩]) := by decide +kernel
  obtain ⟨s, hrun, hs⟩ := Option.map_eq_some_iff.mp hend
  simp only [Prod.mk.injEq] at hs
  obtain ⟨hrequests, hactive, hactions⟩ := hs
  have hexec := TransitionSystem.exec_steps hrun
  have hturns : ∀ x ∈ killSwitches.steps {} sampleTurns, TakesTurns x.1 x.2 := by decide +kernel
  exact ⟨s, hexec.reachable, hrequests, hactive, hactions,
    audit_log_truthful (hexec.reachableWhere hturns) (uuidStr 7)
      (hrequests ▸ fun _ hr => absurd hr List.not_mem_nil)⟩

/-- An activation that is cut off before its commit: the switch is on, and no row says so. -/
theorem cut_activation_unrecorded :
    ∃ s, killSwitches.Reachable s ∧ s.requests = [] ∧ isActive s.redis (uuidStr 7) = true ∧
      s.actions = [] ∧ ¬ AuditTruthful s := by
  have hrun : killSwitches.run {} [.arrive .activate 1 7, .write 0, .record 0 10, .abort 0] = some {
      redis := activateSwitch [] (uuidStr 7)
      commands := [(uuidStr 7, .activate)] } := by rfl
  refine ⟨_, TransitionSystem.reachable_of_run .init hrun, rfl, ?_, rfl, fun htrue => ?_⟩
  · rw [isActive_activate, if_pos rfl]
  · have hactive : isActive (activateSwitch [] (uuidStr 7)) (uuidStr 7) = true := by
      rw [isActive_activate, if_pos rfl]
    exact (htrue (uuidStr 7) nofun).recorded hactive rfl

end CarFlow
