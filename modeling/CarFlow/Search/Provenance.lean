import CarFlow.Search.Cache
import CarFlow.Search.Consumer

/-!
# Where responses come from

Crashes, lost claims and redeliveries may leave a document in the index that is older than another
one, and the cache may return an old response. None of them makes anything up: a document was made
of a snapshot that was passed to `handle_vehicle_event`, and an item of a response of a document
that searches have seen. So whatever holds of all snapshots, and goes on to hold, holds of all that
is ever returned.

## Implementation notes

Both invariants are stated for any predicate `P`, and both are monotone in it. What the documents
come from changes with time: a vehicle is announced, and stays so. The users of this module take
for `P` what the platform knows at the moment, and move on with `Carries.mono` and `Reports.mono`.

## Main results

* `Carries.step` — the rule for the consumer
* `Reports.step` — the rule for the route and its cache
-/

namespace CarFlow

open TiedPages

/-! ### The index -/

/-- Every document was made of an approved snapshot that satisfies `P`. -/
def SearchIndex.MadeOf (P : VehicleSnapshot → Prop) (index : SearchIndex) : Prop :=
  ∀ id document, index id = some document →
    ∃ data, P data ∧ data.approvalStatus = .approved ∧ vehicleToDocument data = document

/-- The consumer has, and has applied, only snapshots that satisfy `P`. -/
structure SearchState.Carries (P : VehicleSnapshot → Prop) (s : SearchState) : Prop where
  topic : ∀ row ∈ s.topic, P row.payload.data
  inHand : ∀ row stage, s.inHand = some (row, stage) → P row.payload.data
  index : s.index.MadeOf P

section Index

variable {P Q : VehicleSnapshot → Prop} {index : SearchIndex} {data : VehicleSnapshot}
  {s s' : SearchState} {a : SearchAction}

theorem SearchIndex.MadeOf.mono (h : index.MadeOf P) (hPQ : ∀ data, P data → Q data) :
    index.MadeOf Q := by
  intro id document hdocument
  obtain ⟨data, hdata, hmade⟩ := h id document hdocument
  exact ⟨data, hPQ data hdata, hmade⟩

theorem SearchIndex.MadeOf.handleVehicleEvent (h : index.MadeOf P) (hdata : P data) :
    (index.handleVehicleEvent data).MadeOf P := by
  intro id document hdocument
  rw [handleVehicleEvent_apply] at hdocument
  split at hdocument
  · unfold VehicleSnapshot.indexed at hdocument
    obtain ⟨happroved, hmade⟩ := Option.ite_none_right_eq_some.mp hdocument
    exact ⟨data, hdata, happroved, Option.some.inj hmade⟩
  · exact h id document hdocument

theorem SearchState.Carries.mono (h : s.Carries P) (hPQ : ∀ data, P data → Q data) :
    s.Carries Q :=
  ⟨fun row hrow => hPQ _ (h.topic row hrow),
    fun row stage hhand => hPQ _ (h.inHand row stage hhand), h.index.mono hPQ⟩

/-- **The consumer passes on what it was given.** -/
theorem SearchState.Carries.step (h : s.Carries P)
    (ha : ∀ message, a = .publish message → P message.data) (hstep : searchStep s a = some s') :
    s'.Carries P := by
  cases a with
  | publish message =>
    cases hstep
    refine { h with topic := fun row hrow => ?_ }
    rcases List.mem_append.mp hrow with hrow | hrow
    · exact h.topic row hrow
    · rw [List.mem_singleton.mp hrow]
      exact ha message rfl
  | fetch i =>
    simp only [searchStep, Option.bind_eq_bind, Option.bind_eq_some_iff,
      Option.ite_none_right_eq_some] at hstep
    obtain ⟨row, hi, -, hstep⟩ := hstep
    cases hstep
    refine { h with inHand := fun row' stage hhand => ?_ }
    cases hhand
    exact h.topic row (List.mem_of_getElem? hi)
  | claim =>
    simp only [searchStep] at hstep
    split at hstep
    swap
    · cases hstep
    rename_i row hhand
    have hrow : ∀ stage row' (stage' : SearchStage), some (row, stage) = some (row', stage') →
        P row'.payload.data := by
      intro stage row' stage' heq
      cases heq
      exact h.inHand row _ hhand
    split at hstep
    · cases hstep
      exact { h with inHand := hrow _ }
    · cases hstep
      exact { h with inHand := hrow _ }
  | write answered =>
    simp only [searchStep] at hstep
    split at hstep
    swap
    · cases hstep
    rename_i row hhand
    cases hstep
    have hrow := h.inHand row _ hhand
    refine ⟨h.topic, fun row' stage hhand' => ?_, h.index.handleVehicleEvent hrow⟩
    cases answered with
    | true =>
      cases hhand'
      exact hrow
    | false => cases hhand'
  | commitOffset =>
    simp only [searchStep] at hstep
    split at hstep
    · cases hstep
      exact { h with inHand := fun row stage hhand => by cases hhand }
    · cases hstep
  | crash =>
    cases hstep
    exact { h with inHand := fun row stage hhand => by cases hhand }
  | expire eventId =>
    cases hstep
    exact ⟨h.topic, h.inHand, h.index⟩

end Index

/-! ### The responses -/

/-- Every item is made of a document that satisfies `P`. -/
def ItemsOf (P : Document → Prop) (response : List VehicleSearchResult) : Prop :=
  ∀ item ∈ response, ∃ document, P document ∧ documentToResult document = item

/-- Searches see, and have returned, only documents that satisfy `P`. -/
structure SearchServer.Reports (P : Document → Prop) (ttl : ℤ) (s : SearchServer) : Prop where
  documents : ∀ document ∈ s.documents, P document
  searched : ∀ request ∈ s.pending, ∀ response time, request.stage = .searched response time →
    ItemsOf P response
  cache : s.cache.Written (fun _ response _ => ItemsOf P response) ttl
  answers : ∀ answer ∈ s.answers, ∀ response, answer.response = .ok response → ItemsOf P response

section Responses

variable {P Q : Document → Prop} {keyOf : SearchQuery → String} {ttl : ℤ} {window : ℕ}
  {geo : Geo} {s s' : SearchServer} {a : QueryAction} {response : List VehicleSearchResult}

theorem ItemsOf.mono (h : ItemsOf P response) (hPQ : ∀ document, P document → Q document) :
    ItemsOf Q response := by
  intro item hitem
  obtain ⟨document, hdocument, hmade⟩ := h item hitem
  exact ⟨document, hPQ document hdocument, hmade⟩

/-- The items of a search are among its hits. -/
theorem itemsOf_searchRoute {params : SearchParams} {hits : List Document} {limit offset : ℤ}
    (hroute : searchRoute window params hits limit offset = .ok response) :
    ItemsOf (· ∈ hits) response := by
  unfold searchRoute at hroute
  split at hroute
  swap
  · cases hroute
  obtain ⟨found, hfound, rfl⟩ := Except.map_eq_ok_iff.mp hroute
  unfold searchVehicles at hfound
  split at hfound
  · cases hfound
  split at hfound
  · cases hfound
  unfold searchHits at hfound
  split at hfound
  swap
  · cases hfound
  cases hfound
  intro item hitem
  obtain ⟨document, hdocument, rfl⟩ := List.mem_map.mp hitem
  exact ⟨document, List.mem_of_mem_drop (List.mem_of_mem_take hdocument), rfl⟩

theorem SearchServer.Reports.mono (h : s.Reports P ttl)
    (hPQ : ∀ document, P document → Q document) : s.Reports Q ttl :=
  ⟨fun document hdocument => hPQ document (h.documents document hdocument),
    fun request hr response time hstage => (h.searched request hr response time hstage).mono hPQ,
    h.cache.mono fun _ _ _ hresponse => hresponse.mono hPQ,
    fun answer ha response hresponse => (h.answers answer ha response hresponse).mono hPQ⟩

/-- A request is answered, and leaves. -/
theorem SearchServer.Reports.answer (h : s.Reports P ttl) {i : ℕ} {query : SearchQuery}
    {response : Except HttpException (List VehicleSearchResult)}
    (hresponse : ∀ items, response = .ok items → ItemsOf P items) :
    (s.answer i query response).Reports P ttl := by
  refine ⟨h.documents, fun request hr => h.searched request (ProcessFamily.mem_of_mem_eraseIdx hr),
    h.cache, fun answer ha items hitems => ?_⟩
  rcases List.mem_append.mp ha with ha | ha
  · exact h.answers answer ha items hitems
  · rw [List.mem_singleton.mp ha] at hitems
    exact hresponse items hitems

/-- **The route and its cache return what searches have seen.** -/
theorem SearchServer.Reports.step (h : s.Reports P ttl)
    (ha : ∀ documents, a = .index documents → ∀ document ∈ documents, P document)
    (hstep : QueryStep keyOf ttl window geo s a s') : s'.Reports P ttl := by
  cases hstep with
  | ticked seconds => exact ⟨h.documents, h.searched, h.cache, h.answers⟩
  | indexed documents => exact ⟨ha documents rfl, h.searched, h.cache, h.answers⟩
  | asked query =>
    refine { h with searched := fun request hr response time hstage => ?_ }
    rcases List.mem_append.mp hr with hr | hr
    · exact h.searched request hr response time hstage
    · rw [List.mem_singleton.mp hr] at hstage
      cases hstage
  | hit i request cached hi hget =>
    refine h.answer fun items hitems => ?_
    cases hitems
    obtain ⟨-, -, hcached⟩ := h.cache.get hget
    exact hcached
  | missed i request hi =>
    refine { h with searched := fun request' hr response time hstage => ?_ }
    rcases List.mem_or_eq_of_mem_set hr with hr | rfl
    · exact h.searched request' hr response time hstage
    · cases hstage
  | searched i request hits response hi hhits hroute =>
    refine { h with searched := fun request' hr response' time hstage => ?_ }
    rcases List.mem_or_eq_of_mem_set hr with hr | rfl
    · exact h.searched request' hr response' time hstage
    · cases hstage
      refine (itemsOf_searchRoute hroute).mono fun document hdocument => h.documents document ?_
      exact List.mem_of_mem_filter (hhits.1.mem_iff.mp hdocument)
  | stored i request response time hi hstage httl =>
    have hresponse := h.searched request (List.mem_of_getElem? hi) response time hstage
    have hanswer : (s.answer i request.query (.ok response)).Reports P ttl :=
      h.answer fun items hitems => by
        cases hitems
        exact hresponse
    exact { hanswer with cache := hanswer.cache.set hresponse }
  | failed a i query e => exact h.answer fun items hitems => by cases hitems
  | dropped i =>
    exact { h with
      searched := fun request hr => h.searched request (ProcessFamily.mem_of_mem_eraseIdx hr) }

end Responses

end CarFlow
