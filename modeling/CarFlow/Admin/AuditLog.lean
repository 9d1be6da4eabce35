import CarFlow.Admin.KillSwitch
import CarFlow.Search.Query
import CarFlow.Shared.Paging
import Mathlib.Algebra.Order.Group.Unbundled.Abs

/-!
# Paging the audit log, and a search

`GET /admin/actions` lists the rows of `admin_actions` by `created_at`, the newest first. As with
the sort clause of a search, rows with the same key come in any order, and in another one for the
next page. `list_all` of the bookings and `list_by_approval_status` of the vehicles end their order
with the `id`.

## Implementation notes

The audit log and the search are two uses of `Lib.TiedPages`: a list of rows, a key, and pages of a
size at offsets, each in any order that the key allows. What they do not share is how a request is
refused. The driver encodes limit and offset as 64-bit integers, and Elasticsearch has a result
window; both are parameters, and the condition of the result has a part for each.

## Main results

* `listActionsRoute_page` — the items of a response
* `paging_yields_each_iff` — **when paging loses nothing**
-/

namespace CarFlow

open TiedPages

/-- A row of `admin_actions` with its key. -/
structure AdminActionEntry extends AdminActionRow where
  id : Uuid
  deriving DecidableEq

/-- The table: a key has 128 bits, and no two rows have the same. -/
structure AuditLog where
  rows : List AdminActionEntry
  ids : (rows.map AdminActionEntry.id).Nodup
  uuids : ∀ row ∈ rows, row.id < 16 ^ 32

/-- `AdminActionResponse`, without the payload. -/
structure AdminActionResponse where
  id : String
  adminId : String
  actionType : AdminActionType
  targetType : String
  targetId : String
  createdAt : ℤ
  deriving DecidableEq

/-- `_action_response`. -/
def actionResponse (action : AdminActionEntry) : AdminActionResponse where
  id := uuidStr action.id
  adminId := uuidStr action.adminId
  actionType := action.actionType
  targetType := action.targetType
  targetId := uuidStr action.targetId
  createdAt := action.createdAt

/-- `ORDER BY created_at DESC`. -/
def recentBefore (row row' : AdminActionEntry) : Prop := row'.createdAt ≤ row.createdAt

instance : DecidableRel recentBefore := fun _ _ => inferInstanceAs (Decidable (_ ≤ _))

instance : Std.Total recentBefore := ⟨fun row row' => le_total row'.createdAt row.createdAt⟩

instance : IsTrans AdminActionEntry recentBefore := ⟨fun _ _ _ h h' => le_trans h' h⟩

/-- `list_recent`, over the rows as they are sorted for this request. -/
def listRecent (encodes : ℤ → Bool) (rows : List AdminActionEntry) (limit offset : ℤ) :
    Option (List AdminActionEntry) :=
  if encodes limit ∧ encodes offset then limitOffset rows limit offset else none

/-- `GET /admin/actions`: `list_actions`. -/
def listActionsRoute (encodes : ℤ → Bool) (claims : TokenClaims) (rows : List AdminActionEntry)
    (limit offset : ℤ) : Except HttpException (List AdminActionResponse) := do
  requireRole claims ["admin"]
  match listRecent encodes rows limit offset with
  | none => .error ⟨500, "Internal Server Error"⟩
  | some actions => .ok (actions.map actionResponse)

section Pages

variable {encodes : ℤ → Bool} {claims : TokenClaims} {L : ℕ}

/-- The driver can send the limit and the offset. -/
def actionsAccepts (encodes : ℤ → Bool) (L offset : ℕ) : Bool := encodes L ∧ encodes offset

theorem actionsAccepts_iff {offset : ℕ} :
    actionsAccepts encodes L offset = true ↔ encodes L = true ∧ encodes offset = true :=
  decide_eq_true_iff

/-- The items of a response. -/
theorem listActionsRoute_page (hrole : claims.role = "admin") (rows : List AdminActionEntry)
    (k : ℕ) :
    (listActionsRoute encodes claims rows L (k * L : ℕ)).toOption.getD [] =
      if actionsAccepts encodes L (k * L) then (pageAt L rows k).map actionResponse else [] := by
  have hroute : listActionsRoute encodes claims rows L (k * L : ℕ) =
      match listRecent encodes rows L (k * L : ℕ) with
      | none => .error ⟨500, "Internal Server Error"⟩
      | some actions => .ok (actions.map actionResponse) :=
    requireRole_bind (List.mem_singleton.mpr hrole) _
  have hnonneg : ¬ ((L : ℤ) < 0 ∨ ((k * L : ℕ) : ℤ) < 0) := by omega
  simp only [hroute, listRecent, limitOffset, if_neg hnonneg, actionsAccepts_iff]
  by_cases hsent : encodes L ∧ encodes (k * L : ℕ)
  · simp only [if_pos hsent]
    rfl
  · simp only [if_neg hsent]
    rfl

theorem uuidStr_inj {u v : Uuid} (hu : u < 16 ^ 32) (hv : v < 16 ^ 32)
    (h : uuidStr u = uuidStr v) : u = v := by
  have hread := congrArg uuidOfString h
  rw [uuidOfString_uuidStr hu, uuidOfString_uuidStr hv] at hread
  exact Option.some.inj hread

theorem actionResponse_id (action : AdminActionEntry) :
    (actionResponse action).id = uuidStr action.id := rfl

/-- The responses tell the rows apart. -/
theorem nodup_actionResponse (log : AuditLog) : (log.rows.map actionResponse).Nodup := by
  have hrows : log.rows.Nodup := log.ids.of_map AdminActionEntry.id
  refine hrows.map_on fun row hrow row' hrow' heq => ?_
  have hid := congrArg AdminActionResponse.id heq
  rw [actionResponse_id, actionResponse_id] at hid
  have hkey : row.id = row'.id := uuidStr_inj (log.uuids row hrow) (log.uuids row' hrow') hid
  exact List.inj_on_of_nodup_map log.ids hrow hrow' hkey

/-- **When paging loses nothing**: when every request that has rows to return is accepted, and no
rows with the same sort key lie on two pages. -/
theorem paging_yields_each_iff (geo : Geo) (window : ℕ) (encodes : ℤ → Bool)
    (hrole : claims.role = "admin") (hL : 0 < L) :
    (∀ (index : IndexedDocuments) (params : SearchParams), params.Accepted →
      (YieldsEach (params.before geo) documentToResult (params.matching geo index.documents) L
          (searchRoute window params) ↔
        (∀ k, k * L < (params.matching geo index.documents).length →
          L ≤ 100 ∧ k * L + L ≤ window) ∧
        ∀ document ∈ params.matching geo index.documents,
          OnOnePage (params.before geo) (params.matching geo index.documents) L document)) ∧
    ∀ log : AuditLog,
      YieldsEach recentBefore actionResponse log.rows L (listActionsRoute encodes claims) ↔
        (∀ k, k * L < log.rows.length → encodes L ∧ encodes (k * L : ℕ)) ∧
        ∀ row ∈ log.rows, OnOnePage recentBefore log.rows L row := by
  constructor
  · intro index params hparams
    rw [yieldsEach_iff (nodup_matching index params geo) hL (searchRoute_page hparams hL)]
    simp only [searchAccepts_iff]
  · intro log
    rw [yieldsEach_iff (nodup_actionResponse log) hL (listActionsRoute_page hrole)]
    simp only [actionsAccepts_iff]

end Pages

/-- A flat earth, with a degree of 111 kilometres. -/
def sampleGeo : Geo where
  within radiusKm lat lon lat' lon' := 111 * (|lat - lat'| + |lon - lon'|) ≤ radiusKm
  distance lat lon lat' lon' := 111 * (|lat - lat'| + |lon - lon'|)

theorem paging_yields_each_iff_sampleAdmin :
    (∀ (index : IndexedDocuments) (params : SearchParams), params.Accepted →
      (YieldsEach (params.before sampleGeo) documentToResult
          (params.matching sampleGeo index.documents) 20 (searchRoute 10000 params) ↔
        (∀ k, k * 20 < (params.matching sampleGeo index.documents).length →
          20 ≤ 100 ∧ k * 20 + 20 ≤ 10000) ∧
        ∀ document ∈ params.matching sampleGeo index.documents,
          OnOnePage (params.before sampleGeo) (params.matching sampleGeo index.documents) 20
            document)) ∧
    ∀ log : AuditLog,
      YieldsEach recentBefore actionResponse log.rows 20
          (listActionsRoute (fun n => FitsInteger n) sampleAdmin) ↔
        (∀ k, k * 20 < log.rows.length →
          decide (FitsInteger (20 : ℕ)) ∧ decide (FitsInteger (k * 20 : ℕ))) ∧
        ∀ row ∈ log.rows, OnOnePage recentBefore log.rows 20 row :=
  paging_yields_each_iff sampleGeo 10000 (fun n => FitsInteger n) rfl (by decide)

/-- A vehicle at 50 a day. -/
def sampleDocument (vehicleId : Uuid) : Document where
  vehicleId := vehicleId
  hostId := 1
  make := "Make"
  model := "Model"
  year := 2020
  dailyPriceCents := 5000
  dailyMileageLimit := 200
  bookingMode := .instant
  lat := 0
  lon := 0

/-- Two vehicles at the same price, in the order of the first request and of the second. -/
def sampleHits (k : ℕ) : List Document :=
  if k = 0 then [sampleDocument 1, sampleDocument 2] else [sampleDocument 2, sampleDocument 1]

/-- Vehicle 1 is returned twice, and vehicle 2 is lost. -/
theorem search_loses_vehicle :
    SearchParams.Accepted {} ∧
      sweepItems (searchRoute 10000 {}) 1 sampleHits 2 =
        [documentToResult (sampleDocument 1), documentToResult (sampleDocument 1)] ∧
      ¬ YieldsEach (SearchParams.before {} sampleGeo) documentToResult
        (SearchParams.matching {} sampleGeo [sampleDocument 1, sampleDocument 2]) 1
        (searchRoute 10000 {}) := by
  have hitems : sweepItems (searchRoute 10000 {}) 1 sampleHits 2 =
      [documentToResult (sampleDocument 1), documentToResult (sampleDocument 1)] := by
    decide +kernel
  have hmatching : SearchParams.matching {} sampleGeo [sampleDocument 1, sampleDocument 2] =
      [sampleDocument 1, sampleDocument 2] := by
    decide +kernel
  refine ⟨⟨by decide, by decide, by decide⟩, hitems, fun h => ?_⟩
  rw [hmatching] at h
  have harranged (k : ℕ) : Arranged (SearchParams.before {} sampleGeo)
      [sampleDocument 1, sampleDocument 2] (sampleHits k) := by
    unfold sampleHits
    split <;> exact ⟨by decide +kernel, by decide +kernel⟩
  have hperm := h sampleHits harranged 2 (le_refl 2)
  rw [hitems] at hperm
  revert hperm
  decide +kernel

end CarFlow
