import CarFlow.Lib.Json.Decoder
import CarFlow.Lib.Json.Objects
import CarFlow.Shared.Basic
import CarFlow.Shared.Uuid

/-!
# Envelopes on the wire

What lies between `write_outbox_event` and the `process` of a consumer. The envelope goes through
`json.dumps` into a `jsonb` column, which keeps its value and gives its members back in an order of
its own; Debezium ships the text of the column as a JSON string, so a record is encoded twice;
`decode_envelope` undoes that, and takes a record that was encoded once as well.

## Scope

The records are those whose text the interpreter has no reservation about. `json.loads` is more
liberal than the texts here in one thing: it takes an escape that is half of a surrogate pair. In
two it is stricter: it raises on an integer of more than 4300 digits, and on a text that is nested
deeper than the recursion limit. No record that a service writes is one of these: the `data` of its
messages has strings that were read from a database, and integers that fit a column.

## The model

* A text is a list of characters. Its encoding as bytes is left out, and so is a string with half
  of a surrogate pair. Numbers and nesting have no bound.
* What `propagate.extract` takes for a carrier is a parameter.
* The `data` of the messages between booking, payment and notification has strings and integers
  only. Members of other kinds are left out when a handler reads it.

## Main results

* `received_iff` — which records `process` is called for
* `receive_of_onWire` — **what is written is received**
-/

namespace CarFlow

/-! ### Data -/

/-- A value in the `data` of an event. -/
inductive DataValue
  | text (s : String)
  | number (n : ℤ)

def DataValue.toJson : DataValue → Json
  | .text s => .str s
  | .number n => .int n

def DataValue.ofJson : Json → Option DataValue
  | .str s => some (.text s)
  | .int n => some (.number n)
  | _ => none

@[simp] theorem DataValue.ofJson_toJson (value : DataValue) : ofJson value.toJson = some value := by
  cases value <;> rfl

/-- The `data` of an event: a `dict`. -/
abbrev EventData := List (String × DataValue)

namespace EventData

/-- The members of the JSON object. -/
def members (data : EventData) : List (String × Json) :=
  data.map fun entry => (entry.1, entry.2.toJson)

/-- The `dict` that `json.loads` makes of them: of members with one key, the last counts. -/
def ofMembers (members : List (String × Json)) : EventData :=
  members.reverse.filterMap fun member =>
    (DataValue.ofJson member.2).map fun value => (member.1, value)

end EventData

/-- What a handler raises. -/
inductive DataError
  | keyError (key : String)
  | valueError (key : String)

/-- `data[key]`. -/
def getItem (data : EventData) (key : String) : Except DataError DataValue :=
  match data.lookup key with
  | none => .error (.keyError key)
  | some value => .ok value

/-- `uuid.UUID(data[key])`. -/
def getUuid (data : EventData) (key : String) : Except DataError Uuid := do
  match ← getItem data key with
  | .number _ => .error (.valueError key)
  | .text s => match uuidOfString s with
    | none => .error (.valueError key)
    | some u => .ok u

/-- `data[key]`, where it is taken for an integer. -/
def getNumber (data : EventData) (key : String) : Except DataError ℤ := do
  match ← getItem data key with
  | .number n => .ok n
  | .text _ => .error (.valueError key)

/-! ### Writing and reading -/

/-- The envelope of `write_outbox_event`. -/
def envelope (eventId eventType : String) (data : EventData)
    (traceContext : List (String × String)) : Json :=
  .obj [("event_id", .str eventId), ("event_type", .str eventType), ("data", .obj data.members),
    ("trace_context", .obj (traceContext.map fun entry => (entry.1, .str entry.2)))]

/-- `decode_envelope`. -/
def decodeEnvelope (raw : List Char) : Option Json := do
  match ← Json.loads raw with
  | .str s => Json.loads s.toList
  | envelope => some envelope

/-- What `run_consumer` hands to `process`. -/
structure ReceivedEvent where
  eventId : Json
  eventType : Json
  data : Json

/-- The part of `run_consumer` before `process`. An error is `none`. -/
def receive (extracts : Json → Bool) (raw : List Char) : Option ReceivedEvent := do
  match ← decodeEnvelope raw with
  | .obj members =>
    -- `envelope.get("trace_context", {})`
    if extracts ((Json.lookup members "trace_context").getD (.obj [])) then
      let eventType ← Json.lookup members "event_type"
      let eventId ← Json.lookup members "event_id"
      let data ← Json.lookup members "data"
      some { eventId, eventType, data }
    else none
  -- only a `dict` has `get`
  | _ => none

/-- `propagate.extract` takes a `dict` of strings. -/
def ExtractsText (extracts : Json → Bool) : Prop :=
  ∀ carrier : List (String × Json), (∀ entry ∈ carrier, ∃ s, entry.2 = .str s) →
    extracts (.obj carrier) = true

/-- A record that is made of what `json.dumps` has written: `jsonb` reads the text and keeps its
value, in some order, and Debezium writes its text as a string. A record that was shipped by hand is
not in a string. -/
def OnWire (written : Json) (raw : List Char) : Prop :=
  ∃ kept stored, Json.TextOf kept (Json.dumps written) ∧ Json.Reordered kept stored ∧
    (Json.TextOf stored raw ∨ ∃ payload, Json.TextOf stored payload ∧
      Json.TextOf (.str (String.ofList payload)) raw)

section Wire

variable {raw : List Char} {data data' : EventData} {v w : Json}
  {eventId eventType key : String} {traceContext : List (String × String)}

/-- **Which records are decoded**: the texts of a value that is not a string, and the texts of a
string which is itself the text of a value. -/
theorem decodeEnvelope_iff : decodeEnvelope raw = some v ↔
    ((∀ s, v ≠ .str s) ∧ Json.TextOf v raw) ∨
      ∃ s : String, Json.TextOf (.str s) raw ∧ Json.TextOf v s.toList := by
  simp only [← Json.loads_eq_some_iff]
  unfold decodeEnvelope
  constructor
  · intro h
    obtain ⟨v', hv', h⟩ := Option.bind_eq_some_iff.mp h
    cases v' with
    | str s => exact .inr ⟨s, hv', h⟩
    | _ =>
      cases h
      exact .inl ⟨fun s hs => (by cases hs), hv'⟩
  · rintro (⟨hne, hv⟩ | ⟨s, hs, hv⟩)
    · refine Option.bind_eq_some_iff.mpr ⟨v, hv, ?_⟩
      cases v with
      | str s => exact absurd rfl (hne s)
      | _ => rfl
    · exact Option.bind_eq_some_iff.mpr ⟨_, hs, hv⟩

namespace EventData

/-- With keys of their own, values are found by their keys. -/
theorem lookup_eq_some_iff {value : DataValue} (hnodup : (data.map Prod.fst).Nodup) :
    data.lookup key = some value ↔ (key, value) ∈ data := by
  induction data with
  | nil => simp
  | cons entry data ih =>
    obtain ⟨key', value'⟩ := entry
    obtain ⟨hnotMem, hnodup⟩ := List.nodup_cons.mp hnodup
    rw [List.lookup_cons]
    by_cases hkey : key = key'
    · subst hkey
      have hne : (key, value) ∉ data := fun hmem =>
        hnotMem (List.mem_map.mpr ⟨(key, value), hmem, rfl⟩)
      simp [hne, eq_comm]
    · have hbeq : (key == key') = false := beq_eq_false_iff_ne.mpr hkey
      simp only [hbeq, ih hnodup, List.mem_cons, Prod.mk.injEq, hkey, false_and, false_or]

theorem lookup_perm (hperm : data.Perm data') (hnodup : (data.map Prod.fst).Nodup) (key : String) :
    data'.lookup key = data.lookup key := by
  have hnodup' : (data'.map Prod.fst).Nodup := (hperm.map Prod.fst).nodup_iff.mp hnodup
  ext value
  rw [lookup_eq_some_iff hnodup, lookup_eq_some_iff hnodup', hperm.mem_iff]

/-- Strings and integers have nothing in them to reorder. -/
theorem members_reordered {ms : List (String × Json)}
    (h : Json.MembersReordered data.members ms) : ms = data.members := by
  refine h.eq_of_leaves fun m hm w hw => ?_
  obtain ⟨⟨key, value⟩, -, rfl⟩ := List.mem_map.mp hm
  cases value with
  | text s => exact hw.str
  | number n => exact hw.int

/-- **Data is read back**, in some order. -/
theorem ofMembers_perm {ms : List (String × Json)} (hperm : data.members.Perm ms) :
    data.Perm (ofMembers ms) := by
  have hself : data.members.filterMap (fun member =>
      (DataValue.ofJson member.2).map fun value => (member.1, value)) = data := by
    rw [members, List.filterMap_map]
    exact (List.filterMap_congr fun entry _ => by simp).trans List.filterMap_some
  have hreverse : data.members.Perm ms.reverse := hperm.trans ms.reverse_perm.symm
  exact hself ▸ hreverse.filterMap _

end EventData

theorem decodeEnvelope_of_onWire {written : Json} (h : OnWire written raw)
    (hstr : ∀ s w, Json.Reordered written w → w ≠ .str s) :
    ∃ stored, Json.Reordered written stored ∧ decodeEnvelope raw = some stored := by
  obtain ⟨kept, stored, hkept, hstored, hraw⟩ := h
  obtain rfl := hkept.unique (Json.text_dumps written).textOf
  refine ⟨stored, hstored, decodeEnvelope_iff.mpr ?_⟩
  rcases hraw with hraw | ⟨payload, hpayload, hraw⟩
  · exact .inl ⟨fun s => hstr s stored hstored, hraw⟩
  · exact .inr ⟨String.ofList payload, hraw, by rwa [String.toList_ofList]⟩

theorem ExtractsText.reordered {extracts : Json → Bool} (hextracts : ExtractsText extracts)
    (h : Json.Reordered (.obj (traceContext.map fun entry => (entry.1, .str entry.2))) v) :
    extracts v = true := by
  obtain ⟨ms, ms', rfl, hms, hperm⟩ := h.members
  have hstr : ∀ m ∈ traceContext.map fun entry => (entry.1, Json.str entry.2),
      ∃ s, m.2 = .str s := by
    intro m hm
    obtain ⟨entry, -, rfl⟩ := List.mem_map.mp hm
    exact ⟨entry.2, rfl⟩
  have hsame := hms.eq_of_leaves fun m hm w hw => by
    obtain ⟨s, hs⟩ := hstr m hm
    rw [hs] at hw ⊢
    exact hw.str
  subst hsame
  exact hextracts ms' fun m hm => hstr m (hperm.mem_iff.mpr hm)

/-- **What is written is received**: the identifier, the type and the data, whatever spacing,
escapes and order of members the record has, and whether it is encoded twice or once. -/
theorem receive_of_onWire {extracts : Json → Bool} (hextracts : ExtractsText extracts)
    (hnodup : (data.map Prod.fst).Nodup)
    (h : OnWire (envelope eventId eventType data traceContext) raw) :
    ∃ members, receive extracts raw = some ⟨.str eventId, .str eventType, .obj members⟩ ∧
      ∀ key, (EventData.ofMembers members).lookup key = data.lookup key := by
  obtain ⟨stored, hstored, hdecode⟩ := decodeEnvelope_of_onWire h fun s w hw hs => by
    obtain ⟨-, ms, rfl, -⟩ := hw.members
    cases hs
  obtain ⟨ms, rfl, hlookup⟩ := hstored.lookup
    (show ["event_id", "event_type", "data", "trace_context"].Nodup by decide)
  obtain ⟨v, hv, hid⟩ := hlookup "event_id" _ rfl
  obtain rfl := hv.str
  obtain ⟨v, hv, htype⟩ := hlookup "event_type" _ rfl
  obtain rfl := hv.str
  obtain ⟨v, hv, hdata⟩ := hlookup "data" _ rfl
  obtain ⟨ms₁, ms₂, rfl, hms, hperm⟩ := hv.members
  obtain rfl := EventData.members_reordered hms
  obtain ⟨v, hv, htrace⟩ := hlookup "trace_context" _ rfl
  refine ⟨ms₂, ?_, EventData.lookup_perm (EventData.ofMembers_perm hperm) hnodup⟩
  refine Option.bind_eq_some_iff.mpr ⟨_, hdecode, ?_⟩
  simp only [htrace, Option.getD_some, hextracts.reordered hv, hid, htype, hdata]
  rfl

/-- **Which records `process` is called for**, and with what: the JSON texts of an object, in a
string or not, which has an `event_id`, an `event_type` and `data`, and whose `trace_context`, if it
has one, is a carrier. Every other text in scope makes `run_consumer` raise, as does a record that
was put in a string twice. -/
theorem received_iff {extracts : Json → Bool} {event : ReceivedEvent} :
    receive extracts raw = some event ↔ ∃ members,
      (Json.TextOf (.obj members) raw ∨ ∃ payload : String, Json.TextOf (.str payload) raw ∧
        Json.TextOf (.obj members) payload.toList) ∧
      extracts ((Json.lookup members "trace_context").getD (.obj [])) = true ∧
      Json.lookup members "event_id" = some event.eventId ∧
      Json.lookup members "event_type" = some event.eventType ∧
      Json.lookup members "data" = some event.data := by
  have hdecode : ∀ members, decodeEnvelope raw = some (.obj members) ↔
      (Json.TextOf (.obj members) raw ∨ ∃ payload : String, Json.TextOf (.str payload) raw ∧
        Json.TextOf (.obj members) payload.toList) := by
    intro members
    rw [decodeEnvelope_iff, and_iff_right fun s hs => (by cases hs)]
  simp only [← hdecode]
  unfold receive
  constructor
  · intro h
    obtain ⟨v, hv, h⟩ := Option.bind_eq_some_iff.mp h
    cases v with
    | obj members =>
      dsimp only at h
      split at h
      · rename_i hextracts
        obtain ⟨eventType, htype, h⟩ := Option.bind_eq_some_iff.mp h
        obtain ⟨eventId, hid, h⟩ := Option.bind_eq_some_iff.mp h
        obtain ⟨data, hdata, h⟩ := Option.bind_eq_some_iff.mp h
        cases h
        exact ⟨members, hv, hextracts, hid, htype, hdata⟩
      · cases h
    | _ => cases h
  · rintro ⟨members, hv, hextracts, hid, htype, hdata⟩
    refine Option.bind_eq_some_iff.mpr ⟨_, hv, ?_⟩
    simp only [hextracts, hid, htype, hdata]
    rfl

end Wire

end CarFlow
