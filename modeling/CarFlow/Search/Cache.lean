import CarFlow.Lib.ExpiringStore
import CarFlow.Lib.Json.Decoder
import CarFlow.Lib.ProcessFamily
import CarFlow.Lib.TransitionSystem
import CarFlow.Search.Query

/-!
# The cache of search responses

`GET /search/vehicles` looks a request up in Redis before it searches, and keeps the response for
`query_cache_ttl_seconds`. Any number of requests are under way at once, the index changes at any
time, and between the search and the end of the request time passes.

## The model

* Requests with parameters out of bounds do not reach the route.
* A response is read back from the cache as it was written.
* Redis refuses a time to live that is not positive.
* `hashlib.sha256(_).hexdigest()` is a parameter, and so is `repr` of a `float`, of which it is
  known that `float` reads it back.

## Implementation notes

The key of a request is a digest of the JSON text of all its parameters. Two requests with one text
are the same request, by `normalized_injective`; two texts with one digest would get each other's
responses. So the result has a condition on the run: no two of the texts that are asked for in it
collide.

## Main results

* `normalized_injective` — the text of a request has all its parameters
* `SearchCacheOk.step` — the invariant
* `responses_are_recent` — **a response is what a search had returned less than the time to live
  before**, but for the time that a request takes, of the same request
-/

namespace CarFlow

open TiedPages

/-! ### The route with its cache -/

/-- The parameters of a request. -/
structure SearchQuery extends SearchParams where
  limit : ℤ := 20
  offset : ℤ := 0
  deriving DecidableEq

/-- The bounds that the route declares. -/
def SearchQuery.InBounds (query : SearchQuery) : Prop :=
  query.toSearchParams.InBounds ∧ (0 < query.limit ∧ query.limit ≤ 100) ∧ 0 ≤ query.offset

instance SearchQuery.decidableInBounds (query : SearchQuery) : Decidable query.InBounds :=
  inferInstanceAs (Decidable (_ ∧ _))

/-- `repr` of a `float`. `float` reads it back, so no two have one. -/
structure FloatRepr where
  repr : ℚ → Json.Real
  injective : Function.Injective repr

/-- A parameter that may be `None`. -/
def jsonOption {α : Type} (toJson : α → Json) : Option α → Json
  | none => .null
  | some a => toJson a

/-- The `params` of the route, with their keys sorted. -/
def SearchQuery.params (floats : FloatRepr) (query : SearchQuery) : Json :=
  .obj [("booking_mode", jsonOption .str query.bookingMode),
    ("lat", jsonOption (.real ∘ floats.repr) query.lat),
    ("limit", .int query.limit),
    ("lon", jsonOption (.real ∘ floats.repr) query.lon),
    ("make", jsonOption .str query.make),
    ("max_price_cents", jsonOption .int query.maxPriceCents),
    ("min_price_cents", jsonOption .int query.minPriceCents),
    ("offset", .int query.offset),
    ("radius_km", jsonOption (.real ∘ floats.repr) query.radiusKm),
    ("sort", .str query.sort)]

/-- `json.dumps(params, sort_keys=True)`. -/
def SearchQuery.normalized (floats : FloatRepr) (query : SearchQuery) : String :=
  String.ofList (Json.dumps (query.params floats))

/-- `_cache_key`. -/
def cacheKey (sha256Hex : String → String) (floats : FloatRepr) (query : SearchQuery) : String :=
  "search-query:" ++ sha256Hex (query.normalized floats)

section CacheKey

variable {floats : FloatRepr}

theorem jsonOption_injective {α : Type} {toJson : α → Json} (h : Function.Injective toJson)
    (hnull : ∀ a, toJson a ≠ .null) : Function.Injective (jsonOption toJson) := by
  intro a b hab
  cases a with
  | none =>
    cases b with
    | none => rfl
    | some b => exact absurd hab.symm (hnull b)
  | some a =>
    cases b with
    | none => exact absurd hab (hnull a)
    | some b => rw [h hab]

/-- **The text of a request has all its parameters.** -/
theorem normalized_injective : Function.Injective (SearchQuery.normalized floats) := by
  intro q q' h
  have hparams : q.params floats = q'.params floats := by
    have hloads := congrArg Json.loads (String.ofList_injective h)
    rw [Json.loads_dumps, Json.loads_dumps] at hloads
    exact Option.some.inj hloads
  have htext : Function.Injective (jsonOption Json.str) :=
    jsonOption_injective (fun _ _ => Json.str.inj) nofun
  have hint : Function.Injective (jsonOption Json.int) :=
    jsonOption_injective (fun _ _ => Json.int.inj) nofun
  have hfloat : Function.Injective (jsonOption (Json.real ∘ floats.repr)) :=
    jsonOption_injective (fun _ _ h => floats.injective (Json.real.inj h)) nofun
  obtain ⟨⟨make, bookingMode, minPrice, maxPrice, lat, lon, radius, sort⟩, limit, offset⟩ := q
  obtain ⟨⟨make', bookingMode', minPrice', maxPrice', lat', lon', radius', sort'⟩, limit',
    offset'⟩ := q'
  simp only [SearchQuery.params, Json.obj.injEq, List.cons.injEq, Prod.mk.injEq, true_and, and_true,
    Json.int.injEq, Json.str.injEq] at hparams
  obtain ⟨hbookingMode, hlat, rfl, hlon, hmake, hmaxPrice, hminPrice, rfl, hradius, rfl⟩ := hparams
  obtain rfl := htext hbookingMode
  obtain rfl := htext hmake
  obtain rfl := hint hmaxPrice
  obtain rfl := hint hminPrice
  obtain rfl := hfloat hlat
  obtain rfl := hfloat hlon
  obtain rfl := hfloat hradius
  rfl

end CacheKey

/-- How far a request is. -/
inductive QueryStage
  | asked
  /-- The cache has no response. -/
  | missed
  /-- A search has returned one, at that time. -/
  | searched (response : List VehicleSearchResult) (time : ℤ)

/-- A request under way. -/
structure PendingSearch where
  query : SearchQuery
  stage : QueryStage := .asked

/-- A request that was answered, and when. -/
structure SearchAnswer where
  query : SearchQuery
  response : Except HttpException (List VehicleSearchResult)
  time : ℤ

/-- The clock, the index as searches see it, the cache and the requests. Nothing reads the answers,
nor what the index has been at which time. -/
structure SearchServer where
  now : ℤ := 0
  documents : List Document := []
  cache : ExpiringStore String (List VehicleSearchResult) := {}
  pending : List PendingSearch := []
  answers : List SearchAnswer := []
  history : List (ℤ × List Document) := [(0, [])]

inductive QueryAction
  | tick (seconds : ℕ)
  /-- The index changes. -/
  | index (documents : List Document)
  | ask (query : SearchQuery)
  | lookUp (i : ℕ)
  /-- A search, with the matching documents as Elasticsearch has sorted them. -/
  | search (i : ℕ) (hits : List Document)
  | store (i : ℕ)
  /-- A request is given up. -/
  | drop (i : ℕ)

section Step

variable (keyOf : SearchQuery → String) (queryCacheTtlSeconds : ℤ) (window : ℕ) (geo : Geo)

/-- A request is answered. -/
def SearchServer.answer (s : SearchServer) (i : ℕ) (query : SearchQuery)
    (response : Except HttpException (List VehicleSearchResult)) : SearchServer :=
  { s with
    pending := s.pending.eraseIdx i
    answers := s.answers ++ [{ query, response, time := s.now }] }

/-- One step. -/
def queryStep (s : SearchServer) : QueryAction → Option SearchServer
  | .tick seconds => some { s with
      now := s.now + seconds
      history := s.history ++ [(s.now + seconds, s.documents)] }
  | .index documents => some { s with documents, history := s.history ++ [(s.now, documents)] }
  | .ask query =>
    if query.InBounds then some { s with pending := s.pending ++ [{ query }] } else none
  | .lookUp i => do
    let request ← s.pending[i]?
    match request.stage with
    | .asked =>
      match s.cache.get s.now (keyOf request.query) with
      | some cached => some (s.answer i request.query (.ok cached))
      | none => some { s with pending := s.pending.set i { request with stage := .missed } }
    | _ => none
  | .search i hits => do
    let request ← s.pending[i]?
    match request.stage with
    | .missed =>
      if Arranged (request.query.before geo) (request.query.matching geo s.documents) hits then
        match searchRoute window request.query.toSearchParams hits request.query.limit
            request.query.offset with
        | .error e => some (s.answer i request.query (.error e))
        | .ok response => some { s with
            pending := s.pending.set i { request with stage := .searched response s.now } }
      else none
    | _ => none
  | .store i => do
    let request ← s.pending[i]?
    match request.stage with
    | .searched response _ =>
      if 0 < queryCacheTtlSeconds then
        some { s.answer i request.query (.ok response) with
          cache := s.cache.set s.now queryCacheTtlSeconds (keyOf request.query) response }
      else some (s.answer i request.query (.error ⟨500, "Internal Server Error"⟩))
    | _ => none
  | .drop i => do
    let _ ← s.pending[i]?
    some { s with pending := s.pending.eraseIdx i }

/-- The search service. -/
def searchServer (sha256Hex : String → String) (floats : FloatRepr) :
    TransitionSystem SearchServer QueryAction where
  init := {}
  step := queryStep (cacheKey sha256Hex floats) queryCacheTtlSeconds window geo

/-- The requests that are asked for in a run. -/
def askedQueries (run : List (SearchServer × QueryAction)) : List SearchQuery :=
  run.filterMap fun x => match x.2 with
    | .ask query => some query
    | _ => none

/-- When the search of a request has returned. -/
def QueryStage.time? : QueryStage → Option ℤ
  | .searched _ time => some time
  | .asked | .missed => none

/-- The clock does not pass the time by which a request has to be through. -/
def SearchServer.Prompt (delay : ℕ) (s : SearchServer) : QueryAction → Prop
  | .tick seconds => ∀ request ∈ s.pending, ∀ time ∈ request.stage.time?,
      s.now + seconds ≤ time + delay
  | _ => True

instance (delay : ℕ) (s : SearchServer) : DecidablePred (s.Prompt delay) := fun a => by
  cases a <;> (unfold SearchServer.Prompt; infer_instance)

end Step

/-- The ways a step can go. -/
inductive QueryStep (keyOf : SearchQuery → String) (ttl : ℤ) (window : ℕ) (geo : Geo)
    (s : SearchServer) : QueryAction → SearchServer → Prop
  | ticked (seconds : ℕ) :
      QueryStep keyOf ttl window geo s (.tick seconds) { s with
        now := s.now + seconds
        history := s.history ++ [(s.now + seconds, s.documents)] }
  | indexed (documents : List Document) :
      QueryStep keyOf ttl window geo s (.index documents)
        { s with documents, history := s.history ++ [(s.now, documents)] }
  | asked (query : SearchQuery) :
      QueryStep keyOf ttl window geo s (.ask query)
        { s with pending := s.pending ++ [{ query }] }
  | hit (i : ℕ) (request : PendingSearch) (cached : List VehicleSearchResult)
      (hi : s.pending[i]? = some request)
      (hget : s.cache.get s.now (keyOf request.query) = some cached) :
      QueryStep keyOf ttl window geo s (.lookUp i) (s.answer i request.query (.ok cached))
  | missed (i : ℕ) (request : PendingSearch) (hi : s.pending[i]? = some request) :
      QueryStep keyOf ttl window geo s (.lookUp i)
        { s with pending := s.pending.set i { request with stage := .missed } }
  | searched (i : ℕ) (request : PendingSearch) (hits : List Document)
      (response : List VehicleSearchResult) (hi : s.pending[i]? = some request)
      (hhits : Arranged (request.query.before geo) (request.query.matching geo s.documents) hits)
      (hroute : searchRoute window request.query.toSearchParams hits request.query.limit
        request.query.offset = .ok response) :
      QueryStep keyOf ttl window geo s (.search i hits) { s with
        pending := s.pending.set i { request with stage := .searched response s.now } }
  | stored (i : ℕ) (request : PendingSearch) (response : List VehicleSearchResult) (time : ℤ)
      (hi : s.pending[i]? = some request) (hstage : request.stage = .searched response time)
      (httl : 0 < ttl) :
      QueryStep keyOf ttl window geo s (.store i)
        { s.answer i request.query (.ok response) with
          cache := s.cache.set s.now ttl (keyOf request.query) response }
  | failed (a : QueryAction) (i : ℕ) (query : SearchQuery) (e : HttpException) :
      QueryStep keyOf ttl window geo s a (s.answer i query (.error e))
  | dropped (i : ℕ) :
      QueryStep keyOf ttl window geo s (.drop i) { s with pending := s.pending.eraseIdx i }

section Invariant

variable {keyOf : SearchQuery → String} {ttl : ℤ} {window delay : ℕ} {geo : Geo}
  {asked : Set SearchQuery} {s s' : SearchServer} {a : QueryAction}

theorem queryStep_cases (h : queryStep keyOf ttl window geo s a = some s') :
    QueryStep keyOf ttl window geo s a s' := by
  cases a with
  | tick seconds =>
    cases h
    exact .ticked seconds
  | index documents =>
    cases h
    exact .indexed documents
  | ask query =>
    simp only [queryStep] at h
    split at h
    · cases h
      exact .asked query
    · cases h
  | lookUp i =>
    simp only [queryStep, Option.bind_eq_bind, Option.bind_eq_some_iff] at h
    obtain ⟨request, hi, h⟩ := h
    split at h
    swap
    · cases h
    split at h
    · rename_i cached hget
      cases h
      exact .hit i request cached hi hget
    · cases h
      exact .missed i request hi
  | search i hits =>
    simp only [queryStep, Option.bind_eq_bind, Option.bind_eq_some_iff] at h
    obtain ⟨request, hi, h⟩ := h
    split at h
    swap
    · cases h
    split at h
    swap
    · cases h
    rename_i hhits
    split at h
    · cases h
      exact .failed _ i _ _
    · rename_i response hroute
      cases h
      exact .searched i request hits response hi hhits hroute
  | store i =>
    simp only [queryStep, Option.bind_eq_bind, Option.bind_eq_some_iff] at h
    obtain ⟨request, hi, h⟩ := h
    split at h
    swap
    · cases h
    rename_i response time hstage
    split at h
    · rename_i httl
      cases h
      exact .stored i request response time hi hstage httl
    · cases h
      exact .failed _ i _ _
  | drop i =>
    simp only [queryStep, Option.bind_eq_bind, Option.bind_eq_some_iff] at h
    obtain ⟨request, -, h⟩ := h
    cases h
    exact .dropped i

/-- A search at that time could return the response. -/
def SearchServer.Returns (s : SearchServer) (window : ℕ) (geo : Geo) (query : SearchQuery)
    (response : List VehicleSearchResult) (time : ℤ) : Prop :=
  ∃ documents, (time, documents) ∈ s.history ∧
    ∃ hits, Arranged (query.before geo) (query.matching geo documents) hits ∧
      searchRoute window query.toSearchParams hits query.limit query.offset = .ok response

/-- The response was written by a request of these, whose search was at most `delay` before. -/
def SearchServer.Kept (s : SearchServer) (keyOf : SearchQuery → String) (window : ℕ) (geo : Geo)
    (delay : ℕ) (asked : Set SearchQuery) (key : String) (response : List VehicleSearchResult)
    (written : ℤ) : Prop :=
  ∃ query ∈ asked, ∃ time, keyOf query = key ∧ time ≤ written ∧ written ≤ time + delay ∧
    written ≤ s.now ∧ s.Returns window geo query response time

/-- **The invariant of the cache**, when these requests are asked for. -/
structure SearchCacheOk (keyOf : SearchQuery → String) (ttl : ℤ) (window : ℕ) (geo : Geo)
    (delay : ℕ) (asked : Set SearchQuery) (s : SearchServer) : Prop where
  now : (s.now, s.documents) ∈ s.history
  queries : ∀ request ∈ s.pending, request.query ∈ asked
  searched : ∀ request ∈ s.pending, ∀ response time, request.stage = .searched response time →
    time ≤ s.now ∧ s.now ≤ time + delay ∧ s.Returns window geo request.query response time
  cache : s.cache.Written (s.Kept keyOf window geo delay asked) ttl
  answers : ∀ answer ∈ s.answers, ∀ response, answer.response = .ok response →
    ∃ time, time ≤ answer.time ∧ answer.time < time + ttl + delay ∧
      s.Returns window geo answer.query response time

theorem SearchServer.Returns.mono {query : SearchQuery} {response : List VehicleSearchResult}
    {time : ℤ} (h : s.Returns window geo query response time) (hsub : s.history ⊆ s'.history) :
    s'.Returns window geo query response time := by
  obtain ⟨documents, hmem, hits⟩ := h
  exact ⟨documents, hsub hmem, hits⟩

theorem SearchServer.Kept.mono {key : String} {response : List VehicleSearchResult} {written : ℤ}
    (h : s.Kept keyOf window geo delay asked key response written) (hnow : s.now ≤ s'.now)
    (hsub : s.history ⊆ s'.history) :
    s'.Kept keyOf window geo delay asked key response written := by
  obtain ⟨query, hasked, time, hkey, hle, hdelay, hwritten, hreturns⟩ := h
  exact ⟨query, hasked, time, hkey, hle, hdelay, hwritten.trans hnow, hreturns.mono hsub⟩

/-- Time passes or the index changes, and the requests under way are not late. -/
theorem SearchCacheOk.later (h : SearchCacheOk keyOf ttl window geo delay asked s) {now : ℤ}
    {documents : List Document} (hnow : s.now ≤ now)
    (hlate : ∀ request ∈ s.pending, ∀ response time, request.stage = .searched response time →
      now ≤ time + delay) :
    SearchCacheOk keyOf ttl window geo delay asked
      { s with now, documents, history := s.history ++ [(now, documents)] } := by
  have hsub : s.history ⊆ s.history ++ [(now, documents)] := List.subset_append_left _ _
  refine ⟨List.mem_append_right _ (List.mem_singleton_self _), h.queries,
    fun request hr response time hstage => ?_, h.cache.mono fun _ _ _ hk => hk.mono hnow hsub,
    fun answer ha response hresponse => ?_⟩
  · obtain ⟨hle, -, hreturns⟩ := h.searched request hr response time hstage
    exact ⟨hle.trans hnow, hlate request hr response time hstage, hreturns.mono hsub⟩
  · obtain ⟨time, hle, hlt, hreturns⟩ := h.answers answer ha response hresponse
    exact ⟨time, hle, hlt, hreturns.mono hsub⟩

/-- A request is answered, and leaves. -/
theorem SearchCacheOk.answer (h : SearchCacheOk keyOf ttl window geo delay asked s) {i : ℕ}
    {query : SearchQuery} {response : Except HttpException (List VehicleSearchResult)}
    (hresponse : ∀ items, response = .ok items → ∃ time, time ≤ s.now ∧
      s.now < time + ttl + delay ∧ s.Returns window geo query items time) :
    SearchCacheOk keyOf ttl window geo delay asked (s.answer i query response) := by
  refine ⟨h.now, fun request hr => h.queries request (ProcessFamily.mem_of_mem_eraseIdx hr),
    fun request hr => h.searched request (ProcessFamily.mem_of_mem_eraseIdx hr),
    h.cache.mono fun _ _ _ hk => hk, fun answer ha items hitems => ?_⟩
  rcases List.mem_append.mp ha with ha | ha
  · exact h.answers answer ha items hitems
  · rw [List.mem_singleton.mp ha] at hitems ⊢
    exact hresponse items hitems

/-- A request gets on. -/
theorem SearchCacheOk.set (h : SearchCacheOk keyOf ttl window geo delay asked s) {i : ℕ}
    {request : PendingSearch} (hi : s.pending[i]? = some request) {stage : QueryStage}
    (hsearched : ∀ response time, stage = .searched response time → time ≤ s.now ∧
      s.now ≤ time + delay ∧ s.Returns window geo request.query response time) :
    SearchCacheOk keyOf ttl window geo delay asked
      { s with pending := s.pending.set i { request with stage } } := by
  refine { h with queries := fun request' hr => ?_, searched := fun request' hr => ?_ }
  · rcases List.mem_or_eq_of_mem_set hr with hr | rfl
    · exact h.queries request' hr
    · exact h.queries request (List.mem_of_getElem? hi)
  · rcases List.mem_or_eq_of_mem_set hr with hr | rfl
    · exact h.searched request' hr
    · exact hsearched

/-- **Every step keeps the invariant**, if no request is late and the keys of those that are asked
for tell them apart. -/
theorem SearchCacheOk.step (hkey : Set.InjOn keyOf asked)
    (h : SearchCacheOk keyOf ttl window geo delay asked s) (hprompt : s.Prompt delay a)
    (hasked : ∀ query, a = .ask query → query ∈ asked)
    (hstep : QueryStep keyOf ttl window geo s a s') :
    SearchCacheOk keyOf ttl window geo delay asked s' := by
  cases hstep with
  | ticked seconds =>
    exact h.later (by omega) fun request hr response time hstage =>
      hprompt request hr time (by rw [hstage]; rfl)
  | indexed documents =>
    exact h.later (le_refl _) fun request hr response time hstage =>
      (h.searched request hr response time hstage).2.1
  | asked query =>
    refine { h with
      queries := List.forall_mem_append.mpr
        ⟨h.queries, List.forall_mem_singleton.mpr (hasked query rfl)⟩
      searched := List.forall_mem_append.mpr ⟨h.searched, List.forall_mem_singleton.mpr nofun⟩ }
  | hit i request cached hi hget =>
    refine h.answer fun items hitems => ?_
    cases hitems
    obtain ⟨written, hlt, query, hquery, time, heq, hle, hdelay, hwritten, hreturns⟩ :=
      h.cache.get hget
    obtain rfl := hkey hquery (h.queries request (List.mem_of_getElem? hi)) heq
    exact ⟨time, by omega, by omega, hreturns⟩
  | missed i request hi => exact h.set hi nofun
  | searched i request hits response hi hhits hroute =>
    refine h.set hi fun response' time hstage => ?_
    cases hstage
    exact ⟨le_refl s.now, Int.le_add_of_nonneg_right (Int.natCast_nonneg delay), s.documents,
      h.now, hits, hhits, hroute⟩
  | stored i request response time hi hstage httl =>
    have hr := List.mem_of_getElem? hi
    obtain ⟨hle, hdelay, hreturns⟩ := h.searched request hr response time hstage
    have hanswer : SearchCacheOk keyOf ttl window geo delay asked
        (s.answer i request.query (.ok response)) :=
      h.answer fun items hitems => by
        cases hitems
        exact ⟨time, hle, by omega, hreturns⟩
    have hkept : s.Kept keyOf window geo delay asked (keyOf request.query) response s.now :=
      ⟨request.query, h.queries request hr, time, rfl, hle, hdelay, le_refl _, hreturns⟩
    exact { hanswer with cache := hanswer.cache.set hkept }
  | failed a i query e =>
    exact h.answer fun items hitems => by cases hitems
  | dropped i =>
    exact { h with
      queries := fun request hr => h.queries request (ProcessFamily.mem_of_mem_eraseIdx hr)
      searched := fun request hr => h.searched request (ProcessFamily.mem_of_mem_eraseIdx hr) }

theorem mem_askedQueries {run : List (SearchServer × QueryAction)} {query : SearchQuery} :
    query ∈ askedQueries run ↔ ∃ s, (s, .ask query) ∈ run := by
  simp only [askedQueries, List.mem_filterMap]
  constructor
  · rintro ⟨⟨s, a⟩, hx, h⟩
    cases a <;> cases h
    exact ⟨s, hx⟩
  · rintro ⟨s, hx⟩
    exact ⟨_, hx, rfl⟩

/-- **A response is recent.** Whether it comes from the cache or not, it is what a search for the
same request could return less than the time to live before, and the time a request takes, in a run
in which no two different texts of requests have the same digest. -/
theorem responses_are_recent {sha256Hex : String → String} {floats : FloatRepr}
    {run : List (SearchServer × QueryAction)}
    (h : (searchServer ttl window geo sha256Hex floats).Exec
      (searchServer ttl window geo sha256Hex floats).init run s)
    (hprompt : ∀ x ∈ run, x.1.Prompt delay x.2)
    (hcollide : ∀ q ∈ askedQueries run, ∀ q' ∈ askedQueries run,
      sha256Hex (q.normalized floats) = sha256Hex (q'.normalized floats) →
        q.normalized floats = q'.normalized floats) :
    ∀ answer ∈ s.answers, ∀ items, answer.response = .ok items →
      ∃ time documents hits, (time, documents) ∈ s.history ∧ time ≤ answer.time ∧
        answer.time < time + ttl + delay ∧
        Arranged (answer.query.before geo) (answer.query.matching geo documents) hits ∧
        searchRoute window answer.query.toSearchParams hits answer.query.limit
          answer.query.offset = .ok items := by
  have hkey : Set.InjOn (cacheKey sha256Hex floats) {q | q ∈ askedQueries run} := by
    intro q hq q' hq' heq
    exact normalized_injective (hcollide q hq q' hq' (String.append_right_inj _ |>.mp heq))
  have hok : SearchCacheOk (cacheKey sha256Hex floats) ttl window geo delay
      {q | q ∈ askedQueries run} s := by
    have hwhere : (searchServer ttl window geo sha256Hex floats).ReachableWhere (fun s a =>
        s.Prompt delay a ∧ ∀ query, a = .ask query → query ∈ askedQueries run) s :=
      h.reachableWhere fun x hx =>
        ⟨hprompt x hx, fun query hquery => mem_askedQueries.mpr ⟨x.1, hquery ▸ hx⟩⟩
    refine hwhere.invariant _ ?_ fun s a s' _ hs hok hstep =>
      hs.step hkey hok.1 hok.2 (queryStep_cases hstep)
    exact ⟨List.mem_singleton_self _, fun _ hr => (by cases hr), fun _ hr => (by cases hr),
      ExpiringStore.written_empty, fun _ ha => (by cases ha)⟩
  intro answer ha items hitems
  obtain ⟨time, hle, hlt, documents, hmem, hits, hhits, hroute⟩ :=
    hok.answers answer ha items hitems
  exact ⟨time, documents, hits, hmem, hle, hlt, hhits, hroute⟩

end Invariant

/-! ### A sample run -/

/-- A numeral with a point, which tells two numbers apart. That of an integer ends in ".0". -/
def sampleLiteral (x : ℚ) : List Char :=
  Json.dumpsInt x.num ++ '.' :: Nat.toDigits 10 (x.den - 1)

theorem dumpsInt_no_point (n : ℤ) : '.' ∉ Json.dumpsInt n := by
  cases n with
  | ofNat n => exact fun h => absurd (Json.isDigit_toDigits n _ h) (by decide)
  | negSucc n =>
    intro h
    rcases List.mem_cons.mp h with h | h
    · exact absurd h (by decide)
    · exact absurd (Json.isDigit_toDigits (n + 1) _ h) (by decide)

theorem takeWhile_digits (n : ℕ) (t : List Char) :
    (Nat.toDigits 10 n ++ '.' :: t).takeWhile Char.isDigit = Nat.toDigits 10 n ∧
      (Nat.toDigits 10 n ++ '.' :: t).dropWhile Char.isDigit = '.' :: t := by
  rw [List.takeWhile_append_of_pos (Json.isDigit_toDigits n),
    List.dropWhile_append_of_pos (Json.isDigit_toDigits n)]
  exact ⟨List.append_nil _, rfl⟩

theorem unsigned_sampleLiteral (x : ℚ) : ∃ n, Json.unsigned (sampleLiteral x) =
    Nat.toDigits 10 n ++ '.' :: Nat.toDigits 10 (x.den - 1) := by
  unfold sampleLiteral
  cases x.num with
  | ofNat n =>
    refine ⟨n, ?_⟩
    obtain ⟨c, cs, hcs⟩ := List.exists_cons_of_ne_nil (Nat.toDigits_ne_nil (n := n) (b := 10))
    have hc := (Json.unsigned_of_isDigit (Json.isDigit_toDigits n)).2
    rw [Json.dumpsInt, hcs] at *
    unfold Json.unsigned
    split
    · rename_i heq
      cases heq
      simp at hc
    · rfl
  | negSucc n => exact ⟨n + 1, rfl⟩

theorem isReal_sampleLiteral (x : ℚ) : Json.isReal (sampleLiteral x) = true := by
  obtain ⟨n, hn⟩ := unsigned_sampleLiteral x
  obtain ⟨htake, hdrop⟩ := takeWhile_digits n (Nat.toDigits 10 (x.den - 1))
  have hdigits : (Nat.toDigits 10 (x.den - 1)).takeWhile Char.isDigit =
      Nat.toDigits 10 (x.den - 1) := List.takeWhile_eq_self_iff.mpr (Json.isDigit_toDigits _)
  have hrest : (Nat.toDigits 10 (x.den - 1)).dropWhile Char.isDigit = [] :=
    List.dropWhile_eq_nil_iff.mpr (Json.isDigit_toDigits _)
  simp [Json.isReal, hn, htake, hdrop, Json.isNatural_toDigits, Json.isFraction, hdigits, hrest,
    Nat.toDigits_ne_nil]

theorem isWord_sampleLiteral (x : ℚ) : ∀ c ∈ sampleLiteral x, Json.isWord c = true := by
  intro c hc
  rcases List.mem_append.mp hc with hc | hc
  · cases hx : x.num with
    | ofNat n =>
      rw [hx] at hc
      exact Json.isWord_of_isDigit (Json.isDigit_toDigits n c hc)
    | negSucc n =>
      rw [hx] at hc
      rcases List.mem_cons.mp hc with rfl | hc
      · decide
      · exact Json.isWord_of_isDigit (Json.isDigit_toDigits _ c hc)
  · rcases List.mem_cons.mp hc with rfl | hc
    · decide
    · exact Json.isWord_of_isDigit (Json.isDigit_toDigits _ c hc)

theorem sampleLiteral_injective : Function.Injective sampleLiteral := by
  intro x y h
  obtain ⟨hnum, hden⟩ : Json.dumpsInt x.num = Json.dumpsInt y.num ∧
      Nat.toDigits 10 (x.den - 1) = Nat.toDigits 10 (y.den - 1) := by
    have hpoint : '.' ∉ Nat.toDigits 10 (x.den - 1) := fun hmem =>
      absurd (Json.isDigit_toDigits _ _ hmem) (by decide)
    obtain ⟨hnum, -, hden⟩ := (List.append_cons_inj_of_notMem (dumpsInt_no_point _) hpoint).mp h
    exact ⟨hnum, hden⟩
  have hnum := congrArg Json.integer hnum
  rw [(Json.integer_dumpsInt _).2, (Json.integer_dumpsInt _).2] at hnum
  have hden := congrArg (Nat.ofDigitChars 10 · 0) hden
  simp only [Nat.ofDigitChars_ten_toDigits] at hden
  have hx := x.den_pos
  have hy := y.den_pos
  exact Rat.ext hnum (by omega)

/-- `repr`, as it is of an integer. -/
def sampleFloats : FloatRepr where
  repr x := ⟨sampleLiteral x, isReal_sampleLiteral x, isWord_sampleLiteral x⟩
  injective _ _ h := sampleLiteral_injective (congrArg Json.Real.literal h)

/-- A car at a price. -/
def samplePriced (dailyPriceCents : ℤ) : Document where
  vehicleId := 7
  hostId := 1
  make := "Fiat"
  model := "Panda"
  year := 2020
  dailyPriceCents := dailyPriceCents
  dailyMileageLimit := 200
  bookingMode := .instant
  lat := 48
  lon := 11

/-- The request for what is within five kilometres. -/
def sampleNearby : SearchQuery where
  lat := some 48
  lon := some 11
  radiusKm := some 5

/-- The digests of the two requests of the sample run. -/
def sampleSha256 (text : String) : String :=
  if text = "\x7b\"booking_mode\": null, \"lat\": null, \"limit\": 20, \"lon\": null, " ++
      "\"make\": null, \"max_price_cents\": null, \"min_price_cents\": null, \"offset\": 0, " ++
      "\"radius_km\": null, \"sort\": \"price_asc\"\x7d" then
    "0c790c937c51619553b1d934d5b7edc8c779ef79221c859f52481fd437a53ae5"
  else if text = "\x7b\"booking_mode\": null, \"lat\": 48.0, \"limit\": 20, \"lon\": 11.0, " ++
      "\"make\": null, \"max_price_cents\": null, \"min_price_cents\": null, \"offset\": 0, " ++
      "\"radius_km\": 5.0, \"sort\": \"price_asc\"\x7d" then
    "a96cec993d657ba14c13d22d184aeda78cf6a8e6c31083ef6f205e7acbcfbc9a"
  else ""

/-- A request is answered by a search; then the price is raised, and ten seconds later the same
request is answered from the cache, another one by a search. -/
def sampleSearches : List QueryAction :=
  [.index [samplePriced 5000], .ask {}, .lookUp 0, .search 0 [samplePriced 5000], .tick 1, .store 0,
    .index [samplePriced 6000], .tick 10, .ask {}, .lookUp 0, .ask sampleNearby, .lookUp 0,
    .search 0 [samplePriced 6000], .store 0]

/-- Nothing is measured. -/
def sampleFlatland : Geo where
  within _ _ _ _ _ := true
  distance _ _ _ _ := 0

/-- The search service of the sample run. -/
abbrev sampleSearchServer : TransitionSystem SearchServer QueryAction :=
  searchServer 30 10000 sampleFlatland sampleSha256 sampleFloats

/-- The prices that were shown, and when. -/
def SearchServer.shown (s : SearchServer) : List (ℤ × Option (List ℤ)) :=
  s.answers.map fun answer =>
    (answer.time, answer.response.toOption.map fun items => items.map (·.dailyPriceCents))

theorem sampleSearches_run : ∃ s, sampleSearchServer.run {} sampleSearches = some s ∧
    s.shown = [(1, some [5000]), (11, some [5000]), (11, some [6000])] := by
  have hend : (sampleSearchServer.run {} sampleSearches).map (·.shown) =
      some [(1, some [5000]), (11, some [5000]), (11, some [6000])] := by
    decide +kernel
  exact Option.map_eq_some_iff.mp hend

/-- The price of the second answer is that of the cache: at that time it has been raised. -/
theorem responses_are_recent_sampleSearches :
    ∃ run s, sampleSearchServer.Exec {} run s ∧
      s.shown = [(1, some [5000]), (11, some [5000]), (11, some [6000])] ∧
      ∀ answer ∈ s.answers, ∀ items, answer.response = .ok items →
        ∃ time documents hits, (time, documents) ∈ s.history ∧ time ≤ answer.time ∧
          answer.time < time + 30 + 5 ∧
          Arranged (answer.query.before sampleFlatland)
            (answer.query.matching sampleFlatland documents) hits ∧
          searchRoute 10000 answer.query.toSearchParams hits answer.query.limit
            answer.query.offset = .ok items := by
  obtain ⟨s, hrun, hshown⟩ := sampleSearches_run
  have hprompt : ∀ x ∈ sampleSearchServer.steps {} sampleSearches, x.1.Prompt 5 x.2 := by
    decide +kernel
  have hasked : askedQueries (sampleSearchServer.steps {} sampleSearches) =
      [{}, {}, sampleNearby] := by
    decide +kernel
  have hcollide : ∀ q ∈ askedQueries (sampleSearchServer.steps {} sampleSearches),
      ∀ q' ∈ askedQueries (sampleSearchServer.steps {} sampleSearches),
        sampleSha256 (q.normalized sampleFloats) = sampleSha256 (q'.normalized sampleFloats) →
          q.normalized sampleFloats = q'.normalized sampleFloats := by
    rw [hasked]
    decide +kernel
  exact ⟨_, s, TransitionSystem.exec_steps hrun, hshown,
    responses_are_recent (TransitionSystem.exec_steps hrun) hprompt hcollide⟩

end CarFlow
