import CarFlow.Lib.LastWrite
import CarFlow.Shared.Uuid

/-!
# The kill switch

`shared/kill_switch.py`: the switch of a vehicle is on while its key is in Redis. The admin service
writes the keys, under `str` of the UUID in its path, and the telemetry service reads them, under
the text of its own path.

## Main results

* `isActive_runToggles` — a switch is on if the last command about it was to switch it on
-/

namespace CarFlow

open LastWrite

/-- What an admin does to a switch. -/
inductive Toggle
  | activate
  | deactivate
  deriving DecidableEq

/-- `_key`. -/
def killSwitchKey (vehicleId : String) : String := "kill-switch:" ++ vehicleId

/-- `activate`: `SET`, in a Redis that holds these keys. -/
def activateSwitch (redis : List String) (vehicleId : String) : List String :=
  if killSwitchKey vehicleId ∈ redis then redis else redis ++ [killSwitchKey vehicleId]

/-- `deactivate`: `DELETE`. -/
def deactivateSwitch (redis : List String) (vehicleId : String) : List String :=
  redis.filter (· ≠ killSwitchKey vehicleId)

/-- `is_active`: `EXISTS`. -/
def isActive (redis : List String) (vehicleId : String) : Bool := killSwitchKey vehicleId ∈ redis

/-- The command of a toggle. -/
def Toggle.run (redis : List String) (vehicleId : String) : Toggle → List String
  | activate => activateSwitch redis vehicleId
  | deactivate => deactivateSwitch redis vehicleId

/-- Redis after some commands, each with the vehicle it is about. -/
def runToggles (commands : List (String × Toggle)) : List String :=
  commands.foldl (fun redis command => command.2.run redis command.1) []

theorem killSwitchKey_inj {v w : String} : killSwitchKey v = killSwitchKey w ↔ v = w :=
  String.append_right_inj _

theorem isActive_activate (redis : List String) (v w : String) :
    isActive (activateSwitch redis v) w = if v = w then true else isActive redis w := by
  unfold isActive activateSwitch
  by_cases hvw : v = w
  · subst hvw
    by_cases hv : killSwitchKey v ∈ redis <;> simp [hv]
  · by_cases hv : killSwitchKey v ∈ redis <;> simp [hv, hvw, killSwitchKey_inj, Ne.symm hvw]

theorem isActive_deactivate (redis : List String) (v w : String) :
    isActive (deactivateSwitch redis v) w = if v = w then false else isActive redis w := by
  unfold isActive deactivateSwitch
  by_cases hvw : v = w
  · simp [hvw]
  · simp [hvw, killSwitchKey_inj, Ne.symm hvw]

/-- A command decides about its own switch, and leaves the others alone. -/
theorem isActive_run (redis : List String) (v w : String) (toggle : Toggle) :
    isActive (toggle.run redis v) w = if v = w then decide (toggle = .activate)
      else isActive redis w := by
  cases toggle with
  | activate => exact isActive_activate redis v w
  | deactivate => exact isActive_deactivate redis v w

theorem runToggles_concat (commands : List (String × Toggle)) (command : String × Toggle) :
    runToggles (commands ++ [command]) = command.2.run (runToggles commands) command.1 :=
  List.foldl_concat ..

/-- **A switch is on** if the last command about it was to switch it on. -/
theorem isActive_runToggles (commands : List (String × Toggle)) (v : String) :
    isActive (runToggles commands) v = true ↔
      last Prod.fst commands v = some (v, .activate) := by
  induction commands using List.reverseRecOn with
  | nil => simp [runToggles, isActive]
  | append_singleton commands command ih =>
    rw [runToggles_concat, isActive_run, last_concat]
    by_cases hv : command.1 = v
    · obtain ⟨w, toggle⟩ := command
      obtain rfl : w = v := hv
      simp
    · rw [if_neg hv, if_neg hv, ih]

end CarFlow
