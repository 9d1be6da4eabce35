import CarFlow.Listing.Announcements
import CarFlow.Platform.Parties
import CarFlow.Search.Backfill
import CarFlow.Search.Provenance

/-!
# What a search shows

The platform with the search service behind it. Debezium ships the outbox of listing, the consumer
of the topic and the backfill job write to the index, Elasticsearch refreshes, and searches are
answered from what they see or from the cache.

## The model

* The backfill may ask for any page at any time, and pass what is on its pages in any order, more
  than once or not at all.
* The shards of the index refresh one by one: a search may see the document of one vehicle as it is
  now and that of another as it was.
* The two services have clocks of their own.

## Implementation notes

The steps of the backfill and of the shards are more liberal than the code's: pages in any order,
documents in any combination. What is shown has the property that every step keeps whatever
document is written, so nothing is lost by that, and the state does not have to say where the job
is; that it misses nothing is in `Search.Backfill`.

Three facts about a vehicle are carried through: its host, that its approval was announced, and
that an administrator has asked for it. The first two are `Offers`, and hold of a document from the
time it is written; the third follows from the second.

## Main results

* `MarketplaceOk.step` — the invariant
* `searches_show_approved_vehicles` — **nothing is shown that no administrator has approved**
-/

namespace CarFlow

/-- The platform, the search consumer with its index, the pages of the backfill, and searches. -/
structure Marketplace where
  platform : Platform
  consumer : SearchState := {}
  listed : List Vehicle := []
  search : SearchServer := {}

inductive MarketplaceAction
  | platform (a : PlatformAction)
  /-- Debezium ships the next row of the outbox. -/
  | ship
  /-- The consumer goes on. -/
  | consumer (a : SearchAction)
  /-- `client.get` in `run_backfill`. -/
  | list (offset : ℤ)
  /-- `handle_vehicle_event` in `run_backfill`. -/
  | pass (i : ℕ)
  /-- Shards refresh; these are the documents that searches see from now on. -/
  | refresh (documents : List Document)
  /-- A search goes on, or time passes. -/
  | search (a : QueryAction)

section Step

variable (hasher : PasswordHasher) (jwt : PyJwt) (settings : AuthSettings) (createdAt : Uuid → ℤ)
  (sha256Hex : String → String) (floats : FloatRepr) (queryCacheTtlSeconds : ℤ) (window : ℕ)
  (geo : Geo)

/-- The consumer takes a step. -/
def Marketplace.stepConsumer (s : Marketplace) (a : SearchAction) : Option Marketplace := do
  let consumer ← searchStep s.consumer a
  some { s with consumer }

/-- The search route or its clock takes a step. -/
def Marketplace.stepSearch (s : Marketplace) (a : QueryAction) : Option Marketplace := do
  let search ← queryStep (cacheKey sha256Hex floats) queryCacheTtlSeconds window geo s.search a
  some { s with search }

/-- One step. -/
def marketplaceStep (s : Marketplace) : MarketplaceAction → Option Marketplace
  | .platform a => do
    let platform ← platformStep hasher jwt settings s.platform a
    some { s with platform }
  | .ship => do
    let row ← s.platform.listing.db.outbox[s.consumer.topic.length]?
    s.stepConsumer (.publish row.payload)
  | .consumer a => match a with
    | .publish _ => none
    | a => s.stepConsumer a
  | .list offset => do
    let body ← listVehicles createdAt s.platform.listing.db pageSize offset
    some { s with listed := s.listed ++ body.items }
  | .pass i => do
    let vehicle ← s.listed[i]?
    let index := s.consumer.index.handleVehicleEvent (eventData vehicle)
    some { s with consumer := { s.consumer with index } }
  | .refresh documents =>
    if ∀ d ∈ documents, d ∈ s.search.documents ∨ s.consumer.index d.vehicleId = some d then
      s.stepSearch sha256Hex floats queryCacheTtlSeconds window geo (.index documents)
    else none
  | .search a => match a with
    | .index _ => none
    | a => s.stepSearch sha256Hex floats queryCacheTtlSeconds window geo a

/-- The platform with the search service. -/
def marketplace (seeded : List UserRow) : TransitionSystem Marketplace MarketplaceAction where
  init := { platform := (platform hasher jwt settings seeded).init }
  step := marketplaceStep hasher jwt settings createdAt sha256Hex floats queryCacheTtlSeconds window
    geo

/-- The ways a step can go. -/
inductive MarketplaceStep (s : Marketplace) : Marketplace → Prop
  | platform (a : PlatformAction) (platform : Platform)
      (hstep : platformStep hasher jwt settings s.platform a = some platform) :
      MarketplaceStep s { s with platform }
  | consumed (a : SearchAction) (consumer : SearchState)
      (hstep : searchStep s.consumer a = some consumer)
      (hpublish : ∀ message, a = .publish message →
        ∃ row ∈ s.platform.listing.db.outbox, row.payload = message) :
      MarketplaceStep s { s with consumer }
  | listed (vehicles : List Vehicle)
      (hvehicles : ∀ v ∈ vehicles, v ∈ s.platform.listing.db.vehicles) :
      MarketplaceStep s { s with listed := s.listed ++ vehicles }
  | passed (vehicle : Vehicle) (hvehicle : vehicle ∈ s.listed) :
      MarketplaceStep s { s with
        consumer := { s.consumer with
          index := s.consumer.index.handleVehicleEvent (eventData vehicle) } }
  | searched (a : QueryAction) (search : SearchServer)
      (hstep : QueryStep (cacheKey sha256Hex floats) queryCacheTtlSeconds window geo s.search a
        search)
      (hindex : ∀ documents, a = .index documents → ∀ d ∈ documents,
        d ∈ s.search.documents ∨ s.consumer.index d.vehicleId = some d) :
      MarketplaceStep s { s with search }

end Step

section Marketplace

variable {hasher : PasswordHasher} {jwt : PyJwt} {settings : AuthSettings} {createdAt : Uuid → ℤ}
  {sha256Hex : String → String} {floats : FloatRepr} {ttl : ℤ} {window : ℕ} {geo : Geo}
  {seeded : List UserRow} {s s' : Marketplace}

theorem marketplaceStep_consumer {a : SearchAction} (h : s.stepConsumer a = some s')
    (hpublish : ∀ message, a = .publish message →
      ∃ row ∈ s.platform.listing.db.outbox, row.payload = message) :
    MarketplaceStep hasher jwt settings sha256Hex floats ttl window geo s s' := by
  simp only [Marketplace.stepConsumer, Option.bind_eq_bind, Option.bind_eq_some_iff] at h
  obtain ⟨consumer, hstep, h⟩ := h
  cases h
  exact .consumed a consumer hstep hpublish

theorem marketplaceStep_search {a : QueryAction}
    (h : s.stepSearch sha256Hex floats ttl window geo a = some s')
    (hindex : ∀ documents, a = .index documents → ∀ d ∈ documents,
      d ∈ s.search.documents ∨ s.consumer.index d.vehicleId = some d) :
    MarketplaceStep hasher jwt settings sha256Hex floats ttl window geo s s' := by
  simp only [Marketplace.stepSearch, Option.bind_eq_bind, Option.bind_eq_some_iff] at h
  obtain ⟨search, hstep, h⟩ := h
  cases h
  exact .searched a search (queryStep_cases hstep) hindex

theorem marketplaceStep_cases {a : MarketplaceAction}
    (h : marketplaceStep hasher jwt settings createdAt sha256Hex floats ttl window geo s a =
      some s') :
    MarketplaceStep hasher jwt settings sha256Hex floats ttl window geo s s' := by
  cases a with
  | platform a =>
    simp only [marketplaceStep, Option.bind_eq_bind, Option.bind_eq_some_iff] at h
    obtain ⟨platform, hstep, h⟩ := h
    cases h
    exact .platform a platform hstep
  | ship =>
    simp only [marketplaceStep, Option.bind_eq_bind, Option.bind_eq_some_iff] at h
    obtain ⟨row, hrow, h⟩ := h
    refine marketplaceStep_consumer h fun message hmessage => ?_
    cases hmessage
    exact ⟨row, List.mem_of_getElem? hrow, rfl⟩
  | consumer a =>
    cases a with
    | publish message => cases h
    | _ => exact marketplaceStep_consumer h (by simp)
  | list offset =>
    simp only [marketplaceStep, Option.bind_eq_bind, Option.bind_eq_some_iff] at h
    obtain ⟨body, hbody, h⟩ := h
    cases h
    exact .listed _ fun v hv => (mem_listApproved.mp (mem_of_mem_page hbody hv)).1
  | pass i =>
    simp only [marketplaceStep, Option.bind_eq_bind, Option.bind_eq_some_iff] at h
    obtain ⟨vehicle, hi, h⟩ := h
    cases h
    exact .passed vehicle (List.mem_of_getElem? hi)
  | refresh documents =>
    simp only [marketplaceStep] at h
    split at h
    · rename_i hdocuments
      refine marketplaceStep_search h fun documents' heq => ?_
      cases heq
      exact hdocuments
    · cases h
  | search a =>
    cases a with
    | index documents => cases h
    | _ => exact marketplaceStep_search h (by simp)

/-! ### The invariant -/

/-- The vehicle is one of the host's, and its approval was announced. -/
def ListingDb.Offers (db : ListingDb) (vehicleId hostId : Uuid) : Prop :=
  (∃ v, db.getById vehicleId = some v ∧ v.hostId = hostId) ∧ db.Announces vehicleId

/-- **The invariant of the marketplace.** -/
structure MarketplaceOk (hasher : PasswordHasher) (jwt : PyJwt) (settings : AuthSettings)
    (seeded : List UserRow) (ttl : ℤ) (s : Marketplace) : Prop where
  platform : PlatformOk hasher jwt settings seeded s.platform
  announcements : AnnouncementsOk s.platform.listing
  decided : ∀ id, s.platform.listing.db.Announces id → s.platform.Decided id
  consumer : s.consumer.Carries s.platform.listing.db.BearsOut
  listed : ∀ v ∈ s.listed, s.platform.listing.db.BearsOut v.snapshot
  search : s.search.Reports (fun d => s.platform.listing.db.Offers d.vehicleId d.hostId) ttl

/-- A document in the index is one of a vehicle that was approved. -/
theorem SearchIndex.MadeOf.offers {index : SearchIndex} {db : ListingDb}
    (h : index.MadeOf db.BearsOut) {id : Uuid} {document : Document}
    (hdocument : index id = some document) : db.Offers document.vehicleId document.hostId := by
  obtain ⟨data, ⟨hrow, hannounced⟩, happroved, rfl⟩ := h id document hdocument
  exact ⟨hrow, hannounced happroved⟩

/-- An approval that listing announces was decided on by an administrator. -/
theorem PlatformOk.decided_step {s s' : Platform} {a : ListingAction}
    (h : PlatformOk hasher jwt settings seeded s) (hext : s.Extends s')
    (hdecided : ∀ id, s.listing.db.Announces id → s.Decided id)
    (hstep : ListingStep s.listing a s'.listing) {id : Uuid}
    (hannounced : s'.listing.db.Announces id) : s'.Decided id := by
  generalize hlisting : s'.listing = listing at hstep hannounced
  cases hstep with
  | committed i t hi hflushed =>
    have hmem : t ∈ s.listing.transactions := List.mem_of_getElem? hi
    rcases (h.listing.each t hmem).announces_commit.mp hannounced with hold | hnew
    · exact (hdecided id hold).mono hext
    · have hentitled := h.transactions t hmem
      obtain ⟨hid, -⟩ := ListingOperation.vehicleId_of_decision hnew
      generalize t.op = op at hentitled hnew hid
      cases op with
      | approveVehicle vehicleId =>
        obtain rfl : vehicleId = id := hid
        exact Platform.Decided.mono hentitled hext
      | rejectVehicle vehicleId => simp [ListingOperation.decision] at hnew
      | createVehicle | updateVehicle => cases hnew
  | _ => exact (hdecided id hannounced).mono hext

/-- What the platform does leaves the search service with what is so. -/
theorem MarketplaceOk.listing (h : MarketplaceOk hasher jwt settings seeded ttl s)
    {platform : Platform} {a : ListingAction}
    (hplatform : PlatformOk hasher jwt settings seeded platform)
    (hext : s.platform.Extends platform)
    (hstep : ListingStep s.platform.listing a platform.listing) :
    MarketplaceOk hasher jwt settings seeded ttl { s with platform } := by
  have hbears : ∀ data, s.platform.listing.db.BearsOut data → platform.listing.db.BearsOut data :=
    fun data => hstep.bearsOut h.platform.listing
  refine ⟨hplatform, h.announcements.step h.platform.listing hstep,
    fun id => h.platform.decided_step hext h.decided hstep, h.consumer.mono hbears,
    fun v hv => hbears _ (h.listed v hv), h.search.mono fun d hd => ?_⟩
  obtain ⟨⟨v, hv, hhost⟩, hannounced⟩ := hd
  obtain ⟨v', hv', hsame⟩ := hstep.host_stable h.platform.listing hv
  exact ⟨⟨v', hv', hsame.trans hhost⟩, hstep.announces hannounced⟩

/-- **Every step keeps the invariant.** -/
theorem MarketplaceOk.step (hjwt : jwt.Correct) (hseeded : Seeded seeded)
    (h : MarketplaceOk hasher jwt settings seeded ttl s)
    (hstep : MarketplaceStep hasher jwt settings sha256Hex floats ttl window geo s s') :
    MarketplaceOk hasher jwt settings seeded ttl s' := by
  cases hstep with
  | platform a platform hstep =>
    have hcases := platformStep_cases hjwt hseeded h.platform.auth hstep
    have hext := hcases.extends h.platform.listing
    have hplatform := h.platform.step hcases
    cases hcases with
    | listing a listing decisions hlisting =>
      exact h.listing hplatform hext (listingStep_cases hlisting)
    | _ =>
      exact ⟨hplatform, h.announcements, fun id hid => (h.decided id hid).mono hext, h.consumer,
        h.listed, h.search⟩
  | consumed a consumer hstep hpublish =>
    refine { h with consumer := h.consumer.step (fun message hmessage => ?_) hstep }
    obtain ⟨row, hrow, rfl⟩ := hpublish message hmessage
    exact h.announcements.events row hrow
  | listed vehicles hvehicles =>
    refine { h with listed := fun v hv => ?_ }
    rcases List.mem_append.mp hv with hv | hv
    · exact h.listed v hv
    · exact h.announcements.bearsOut_row (hvehicles v hv)
  | passed vehicle hvehicle =>
    have hindex := h.consumer.index.handleVehicleEvent (h.listed vehicle hvehicle)
    exact { h with consumer := ⟨h.consumer.topic, h.consumer.inHand, hindex⟩ }
  | searched a search hstep hindex =>
    refine { h with search := h.search.step (fun documents heq d hd => ?_) hstep }
    rcases hindex documents heq d hd with hseen | hindexed
    · exact h.search.documents d hseen
    · exact h.consumer.index.offers hindexed

theorem marketplaceOk_of_reachable (hjwt : jwt.Correct) (hseeded : Seeded seeded)
    (h : (marketplace hasher jwt settings createdAt sha256Hex floats ttl window geo
      seeded).Reachable s) :
    MarketplaceOk hasher jwt settings seeded ttl s := by
  refine h.invariant _ ?_ fun _ _ _ _ hs hstep =>
    hs.step hjwt hseeded (marketplaceStep_cases hstep)
  have hnone : ∀ id, ¬ ListingDb.Announces {} id := fun id ⟨message, hmem, _⟩ => by cases hmem
  exact ⟨platformOk_of_reachable hjwt hseeded .init,
    ⟨List.nodup_nil, fun id hid => (by cases hid), fun t ht => (by cases ht),
      fun row hrow => (by cases hrow)⟩,
    fun id hid => absurd hid (hnone id),
    ⟨fun row hrow => (by cases hrow), fun row stage hhand => (by cases hhand),
      fun id d hd => (by cases hd)⟩,
    fun v hv => (by cases hv),
    ⟨fun d hd => (by cases hd), fun r hr => (by cases hr), ExpiringStore.written_empty,
      fun a ha => (by cases ha)⟩⟩

/-- **Nothing is shown that no administrator has approved.** Whatever listing, the consumer, the
backfill, Elasticsearch and the cache have done, each item that a search has returned is a vehicle
of the host it names, who is registered as a host; listing has announced its approval, and a seeded
administrator has asked for a decision about it. -/
theorem searches_show_approved_vehicles (hjwt : jwt.Correct) (hseeded : Seeded seeded)
    (h : (marketplace hasher jwt settings createdAt sha256Hex floats ttl window geo
      seeded).Reachable s) :
    ∀ answer ∈ s.search.answers, ∀ items, answer.response = .ok items → ∀ item ∈ items,
      (∃ v, s.platform.listing.db.getById item.vehicleId = some v ∧ v.hostId = item.hostId) ∧
      s.platform.HasRole "host" item.hostId ∧
      s.platform.listing.db.Announces item.vehicleId ∧
      ∃ admin ∈ seeded, (item.vehicleId, admin.id) ∈ s.platform.decisions := by
  have hok := marketplaceOk_of_reachable hjwt hseeded h
  have husers :=
    registrationsOk_of_reachable hseeded (authServer_registrations hok.platform.auth)
  intro answer ha items hitems item hitem
  obtain ⟨document, ⟨⟨v, hv, hhost⟩, hannounced⟩, rfl⟩ :=
    hok.search.answers answer ha items hitems item hitem
  obtain ⟨adminId, hmem, user, huser, rfl, hrole⟩ := hok.decided _ hannounced
  refine ⟨⟨v, hv, hhost⟩, ?_, hannounced, user,
    (husers.role_admin_iff hseeded huser).mp hrole, hmem⟩
  have hhosts := (hok.platform.vehicles _ v hv).1
  rwa [hhost] at hhosts

/-- The search service has done nothing yet. -/
theorem marketplace_reachable {platform : Platform}
    (h : (CarFlow.platform hasher jwt settings seeded).Reachable platform) :
    (marketplace hasher jwt settings createdAt sha256Hex floats ttl window geo seeded).Reachable
      { platform } := by
  induction h with
  | init => exact .init
  | @step s s' a _ hstep ih =>
    refine .step (a := .platform a) ih ?_
    exact Option.bind_eq_some_iff.mpr ⟨s', hstep, rfl⟩

end Marketplace

/-! ### A sample search -/

/-- The sample platform, with a search service. -/
abbrev sampleMarketplace : TransitionSystem Marketplace MarketplaceAction :=
  marketplace sampleHasher sampleJwt sampleAuthSettings (fun _ => 0) sampleSha256 sampleFloats 30
    10000 sampleFlatland sampleSeeded

/-- The car that was approved is indexed and found. -/
def sampleShopping : List MarketplaceAction :=
  let document := vehicleToDocument samplePandaEvent.payload.data
  [.ship, .consumer (.fetch 0), .consumer .claim, .consumer (.write true), .refresh [document],
    .search (.ask {}), .search (.lookUp 0), .search (.search 0 [document]), .search (.store 0)]

theorem sampleShopping_run {platform : Platform}
    (hlisting : platform.listing.db.outbox = [samplePandaEvent]) :
    ∃ s, sampleMarketplace.run { platform } sampleShopping = some s ∧
      ∃ answer ∈ s.search.answers, ∃ item, answer.response = .ok [item] ∧ item.vehicleId = 7 := by
  obtain ⟨auth, ⟨⟨vehicles, outbox⟩, transactions⟩, booking, requests, shown, decisions⟩ := platform
  obtain rfl : outbox = [samplePandaEvent] := hlisting
  exact ⟨_, rfl, _, List.mem_singleton_self _, _, rfl, rfl⟩

theorem searches_show_approved_vehicles_sampleShopping :
    ∃ s, sampleMarketplace.Reachable s ∧
      ∃ answer ∈ s.search.answers, ∃ item, answer.response = .ok [item] ∧
        item.vehicleId = 7 ∧ ∃ admin ∈ sampleSeeded, (7, admin.id) ∈ s.platform.decisions := by
  obtain ⟨platform, hplatform, -, -, -, -, houtbox⟩ := sampleMarket_reachable
  obtain ⟨s, hrun, answer, ha, item, hitem, hid⟩ := sampleShopping_run houtbox
  have hs : sampleMarketplace.Reachable s :=
    TransitionSystem.reachable_of_run (marketplace_reachable hplatform) hrun
  obtain ⟨-, -, -, hdecided⟩ := searches_show_approved_vehicles sampleJwt_correct
    sampleSeeded_seeded hs answer ha [item] hitem item (List.mem_singleton_self item)
  exact ⟨s, hs, answer, ha, item, hitem, hid, hid ▸ hdecided⟩

end CarFlow
