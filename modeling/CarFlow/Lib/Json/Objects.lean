import CarFlow.Lib.Json.Grammar
import CarFlow.Lib.RowTable
import Mathlib.Data.List.Nodup

/-!
# Objects

The members of an object have no order. A store may give them back in another one, at every depth.

## Main results

* `Reordered.lookup` — what a key leads to in an object that was reordered
* `MembersReordered.eq_of_leaves` — members with nothing in them to reorder
-/

namespace Json

/-- The member of a key. Of several, the last counts. -/
def lookup (members : List (String × Json)) (key : String) : Option Json :=
  (RowTable.lookup Prod.fst members.reverse key).map Prod.snd

mutual

/-- The same value, up to the order of members. -/
inductive Reordered : Json → Json → Prop
  | refl (v : Json) : Reordered v v
  | arr {items items' : List Json} (h : ItemsReordered items items') :
      Reordered (.arr items) (.arr items')
  | obj {ms ms' ms'' : List (String × Json)} (h : MembersReordered ms ms') (hperm : ms'.Perm ms'') :
      Reordered (.obj ms) (.obj ms'')

/-- Item by item. -/
inductive ItemsReordered : List Json → List Json → Prop
  | nil : ItemsReordered [] []
  | cons {v w : Json} {vs ws : List Json} (h : Reordered v w) (hs : ItemsReordered vs ws) :
      ItemsReordered (v :: vs) (w :: ws)

/-- Member by member. -/
inductive MembersReordered : List (String × Json) → List (String × Json) → Prop
  | nil : MembersReordered [] []
  | cons {key : String} {v w : Json} {ms ms' : List (String × Json)} (h : Reordered v w)
      (hs : MembersReordered ms ms') : MembersReordered ((key, v) :: ms) ((key, w) :: ms')

end

section Objects

variable {ms ms' : List (String × Json)} {key : String} {v w : Json}

theorem MembersReordered.refl : ∀ ms : List (String × Json), MembersReordered ms ms
  | [] => .nil
  | (_, v) :: ms => .cons (.refl v) (.refl ms)

theorem MembersReordered.keys (h : MembersReordered ms ms') :
    ms'.map Prod.fst = ms.map Prod.fst := by
  induction ms generalizing ms' with
  | nil =>
    cases h
    rfl
  | cons m ms ih =>
    cases h with
    | cons _ hs => rw [List.map_cons, List.map_cons, ih hs]

theorem MembersReordered.mem (h : MembersReordered ms ms') (hmem : (key, v) ∈ ms) :
    ∃ w, Reordered v w ∧ (key, w) ∈ ms' := by
  induction ms generalizing ms' with
  | nil => cases hmem
  | cons m ms ih =>
    cases h with
    | cons h hs =>
      rcases List.mem_cons.mp hmem with heq | hmem
      · cases heq
        exact ⟨_, h, List.mem_cons_self⟩
      · obtain ⟨w, hw, hmem⟩ := ih hs hmem
        exact ⟨w, hw, List.mem_cons_of_mem _ hmem⟩

/-- Values with nothing in them to reorder. -/
theorem MembersReordered.eq_of_leaves (h : MembersReordered ms ms')
    (hleaf : ∀ m ∈ ms, ∀ w, Reordered m.2 w → w = m.2) : ms' = ms := by
  induction ms generalizing ms' with
  | nil =>
    cases h
    rfl
  | cons m ms ih =>
    cases h with
    | cons h hs =>
      obtain rfl := hleaf _ List.mem_cons_self _ h
      rw [ih hs fun m hm => hleaf m (List.mem_cons_of_mem _ hm)]

/-- With keys of their own, members are found by their keys. -/
theorem lookup_eq_some_iff (hnodup : (ms.map Prod.fst).Nodup) :
    lookup ms key = some v ↔ (key, v) ∈ ms := by
  have hreverse : (ms.reverse.map Prod.fst).Nodup := by
    rw [List.map_reverse]
    exact List.nodup_reverse.mpr hnodup
  simp only [lookup, Option.map_eq_some_iff, RowTable.lookup_eq_some_iff hreverse,
    List.mem_reverse]
  constructor
  · rintro ⟨⟨key', v'⟩, ⟨hmem, rfl⟩, rfl⟩
    exact hmem
  · intro hmem
    exact ⟨(key, v), ⟨hmem, rfl⟩, rfl⟩

theorem Reordered.members (h : Reordered (.obj ms) w) :
    ∃ ms' ms'', w = .obj ms'' ∧ MembersReordered ms ms' ∧ ms'.Perm ms'' := by
  cases h with
  | refl => exact ⟨ms, ms, rfl, .refl ms, .refl ms⟩
  | obj h hperm => exact ⟨_, _, rfl, h, hperm⟩

/-- What a key leads to is still there. -/
theorem Reordered.lookup (h : Reordered (.obj ms) w) (hnodup : (ms.map Prod.fst).Nodup) :
    ∃ ms', w = .obj ms' ∧ ∀ key v, Json.lookup ms key = some v →
      ∃ v', Reordered v v' ∧ Json.lookup ms' key = some v' := by
  obtain ⟨ms', ms'', rfl, hms, hperm⟩ := h.members
  refine ⟨ms'', rfl, fun key v hv => ?_⟩
  obtain ⟨v', hv', hmem⟩ := hms.mem ((lookup_eq_some_iff hnodup).mp hv)
  have hnodup'' : (ms''.map Prod.fst).Nodup :=
    (hperm.map Prod.fst).nodup_iff.mp (hms.keys ▸ hnodup)
  exact ⟨v', hv', (lookup_eq_some_iff hnodup'').mpr (hperm.mem_iff.mp hmem)⟩

theorem Reordered.str {s : String} (h : Reordered (.str s) w) : w = .str s := by
  cases h
  rfl

theorem Reordered.int {n : ℤ} (h : Reordered (.int n) w) : w = .int n := by
  cases h
  rfl

end Objects

end Json
