import CarFlow.Search.Service
import CarFlow.Shared.Sweeps
import Mathlib.Algebra.Order.Ring.Rat

/-!
# Searching for vehicles

`GET /search/vehicles`: the route, `search_vehicles`, and the query that `SearchRepository.search`
sends to Elasticsearch. The sort clause has one key, the price or the distance, so vehicles with
the same key come in any order.

## The model

* How Elasticsearch measures distances is a parameter, and so is the window beyond which it returns
  no hits. An index that does not exist is an empty one.
* A route gets the matching documents as they are sorted for this request.
* A response that is replayed from the cache was computed for the same parameters before, so it is
  a page of such documents too. There is no cache here.

## Main results

* `searchRoute_page` — the items of a response
-/

namespace CarFlow

open TiedPages

/-! ### The query -/

/-- The parameters of a search, but for the page. -/
structure SearchParams where
  make : Option String := none
  bookingMode : Option String := none
  minPriceCents : Option ℤ := none
  maxPriceCents : Option ℤ := none
  lat : Option ℚ := none
  lon : Option ℚ := none
  radiusKm : Option ℚ := none
  sort : String := "price_asc"
  deriving DecidableEq

/-- What Elasticsearch knows about the earth. -/
structure Geo where
  /-- Whether a point is within a radius of another one. -/
  within : ℚ → ℚ → ℚ → ℚ → ℚ → Bool
  /-- The distance between two points. -/
  distance : ℚ → ℚ → ℚ → ℚ → ℚ

/-- A `booking_mode`, as it is indexed. -/
def BookingMode.text : BookingMode → String
  | .instant => "instant"
  | .request => "request"

/-- A clause of the filter. -/
inductive EsFilter
  | make (term : String)
  | bookingMode (term : String)
  | dailyPriceCents (gte lte : Option ℤ)
  | geoDistance (radiusKm lat lon : ℚ)
  deriving DecidableEq

/-- The sort clause. -/
inductive EsSort
  | geoDistance (lat lon : Option ℚ)
  | dailyPriceCents (descending : Bool)
  deriving DecidableEq

/-- A document passes a filter. -/
def EsFilter.matches (geo : Geo) (document : Document) : EsFilter → Bool
  | .make term => document.make = term
  | .bookingMode term => document.bookingMode.text = term
  | .dailyPriceCents gte lte =>
    (∀ n ∈ gte, n ≤ document.dailyPriceCents) ∧ ∀ n ∈ lte, document.dailyPriceCents ≤ n
  | .geoDistance radiusKm lat lon => geo.within radiusKm lat lon document.lat document.lon

/-- The value that documents are sorted by, in ascending order. A sort by distance has a point:
`search_vehicles` has seen to it. -/
def EsSort.key (geo : Geo) (document : Document) : EsSort → ℚ
  | .geoDistance lat lon => geo.distance (lat.getD 0) (lon.getD 0) document.lat document.lon
  | .dailyPriceCents descending =>
    if descending then -document.dailyPriceCents else document.dailyPriceCents

namespace SearchParams

variable (params : SearchParams) (geo : Geo)

/-- The `filters` of `search`. -/
def filters : List EsFilter :=
  params.make.toList.map .make ++ params.bookingMode.toList.map .bookingMode ++
    (if params.minPriceCents.isSome ∨ params.maxPriceCents.isSome then
      [.dailyPriceCents params.minPriceCents params.maxPriceCents] else []) ++
    match params.lat, params.lon, params.radiusKm with
    | some lat, some lon, some radiusKm => [.geoDistance radiusKm lat lon]
    | _, _, _ => []

/-- The `sort_clause` of `search`. -/
def sortClause : EsSort :=
  if params.sort = "distance" then .geoDistance params.lat params.lon
  else .dailyPriceCents (params.sort = "price_desc")

/-- The documents that match. -/
def matching (documents : List Document) : List Document :=
  documents.filter fun document => params.filters.all fun filter => filter.matches geo document

/-- The order that the sort clause asks for. -/
def before (document document' : Document) : Prop :=
  params.sortClause.key geo document ≤ params.sortClause.key geo document'

instance : DecidableRel (params.before geo) := fun _ _ => inferInstanceAs (Decidable (_ ≤ _))

instance : Std.Total (params.before geo) :=
  ⟨fun d d' => le_total (params.sortClause.key geo d) (params.sortClause.key geo d')⟩

instance : IsTrans Document (params.before geo) :=
  ⟨fun d d' _ => le_trans (a := params.sortClause.key geo d) (b := params.sortClause.key geo d')⟩

/-- The bounds that the route declares. -/
def InBounds : Prop :=
  (∀ n ∈ params.minPriceCents, 0 ≤ n) ∧ (∀ n ∈ params.maxPriceCents, 0 ≤ n) ∧
    (∀ lat ∈ params.lat, -90 ≤ lat ∧ lat ≤ 90) ∧ (∀ lon ∈ params.lon, -180 ≤ lon ∧ lon ≤ 180) ∧
    ∀ radiusKm ∈ params.radiusKm, 0 < radiusKm

instance : Decidable params.InBounds := by
  unfold InBounds
  infer_instance

/-- There is no point to measure from. -/
def LacksPoint : Prop := params.lat = none ∨ params.lon = none

instance : Decidable params.LacksPoint := inferInstanceAs (Decidable (_ ∨ _))

end SearchParams

/-! ### The route -/

/-- `SearchRepository.search`, over the hits as they are sorted for this request. -/
def searchHits (window : ℕ) (hits : List Document) (limit offset : ℤ) :
    Except HttpException (List Document) :=
  if offset + limit ≤ window then .ok ((hits.drop offset.toNat).take limit.toNat)
  else .error ⟨500, "Internal Server Error"⟩

/-- `search_vehicles`, with its errors as the route raises them. -/
def searchVehicles (window : ℕ) (params : SearchParams) (hits : List Document)
    (limit offset : ℤ) : Except HttpException (List Document) :=
  if params.sort = "distance" ∧ params.LacksPoint then
    .error ⟨400, "sort=distance requires lat and lon"⟩
  else if params.radiusKm.isSome ∧ params.LacksPoint then
    .error ⟨400, "radius_km requires lat and lon"⟩
  else searchHits window hits limit offset

/-- `VehicleSearchResult`. -/
structure VehicleSearchResult where
  vehicleId : Uuid
  hostId : Uuid
  make : String
  model : String
  year : ℤ
  dailyPriceCents : ℤ
  dailyMileageLimit : ℤ
  bookingMode : BookingMode
  latitude : ℚ
  longitude : ℚ
  deriving DecidableEq

/-- `document_to_result`. -/
def documentToResult (document : Document) : VehicleSearchResult where
  vehicleId := document.vehicleId
  hostId := document.hostId
  make := document.make
  model := document.model
  year := document.year
  dailyPriceCents := document.dailyPriceCents
  dailyMileageLimit := document.dailyMileageLimit
  bookingMode := document.bookingMode
  latitude := document.lat
  longitude := document.lon

/-- `GET /search/vehicles`. -/
def searchRoute (window : ℕ) (params : SearchParams) (hits : List Document) (limit offset : ℤ) :
    Except HttpException (List VehicleSearchResult) :=
  if params.InBounds ∧ (0 < limit ∧ limit ≤ 100) ∧ 0 ≤ offset then
    (searchVehicles window params hits limit offset).map (List.map documentToResult)
  else .error ⟨422, "Unprocessable Entity"⟩

/-- The filter and the sort are accepted. -/
structure SearchParams.Accepted (params : SearchParams) : Prop where
  inBounds : params.InBounds
  sort : params.sort = "distance" → ¬ params.LacksPoint
  radius : params.radiusKm.isSome → ¬ params.LacksPoint

/-- The documents of the index: each vehicle has one at most. -/
structure IndexedDocuments where
  documents : List Document
  ids : (documents.map Document.vehicleId).Nodup

section Pages

variable {params : SearchParams} {geo : Geo} {window L : ℕ}

/-- The limit is not too large, and the page is within the window. -/
def searchAccepts (window L offset : ℕ) : Bool := L ≤ 100 ∧ offset + L ≤ window

theorem searchAccepts_iff {offset : ℕ} :
    searchAccepts window L offset = true ↔ L ≤ 100 ∧ offset + L ≤ window :=
  decide_eq_true_iff

/-- The items of a response. -/
theorem searchRoute_page (hparams : params.Accepted) (hL : 0 < L) (hits : List Document) (k : ℕ) :
    (searchRoute window params hits L (k * L : ℕ)).toOption.getD [] =
      if searchAccepts window L (k * L) then (pageAt L hits k).map documentToResult else [] := by
  have hsearch : searchVehicles window params hits L (k * L : ℕ) =
      searchHits window hits L (k * L : ℕ) := by
    rw [searchVehicles, if_neg fun h => hparams.sort h.1 h.2,
      if_neg fun h => hparams.radius h.1 h.2]
  rw [searchRoute, hsearch, searchHits]
  simp only [searchAccepts_iff]
  by_cases hlimit : L ≤ 100
  · rw [if_pos ⟨hparams.inBounds, by omega, by omega⟩]
    by_cases hwindow : k * L + L ≤ window
    · rw [if_pos (by exact_mod_cast hwindow), if_pos ⟨hlimit, hwindow⟩]
      rfl
    · rw [if_neg (by exact_mod_cast hwindow), if_neg fun h => hwindow h.2]
      rfl
  · rw [if_neg (by omega), if_neg fun h => hlimit h.1]
    rfl

/-- The responses tell the documents apart. -/
theorem nodup_matching (index : IndexedDocuments) (params : SearchParams) (geo : Geo) :
    ((params.matching geo index.documents).map documentToResult).Nodup := by
  have hids : ((params.matching geo index.documents).map documentToResult).map
      VehicleSearchResult.vehicleId =
        (params.matching geo index.documents).map Document.vehicleId := by
    rw [List.map_map]
    rfl
  refine List.Nodup.of_map VehicleSearchResult.vehicleId ?_
  rw [hids]
  exact index.ids.sublist (List.filter_sublist.map Document.vehicleId)

end Pages

end CarFlow
