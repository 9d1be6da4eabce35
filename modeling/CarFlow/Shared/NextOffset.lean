import CarFlow.Lib.Cursor
import CarFlow.Shared.JwtAuth
import CarFlow.Shared.Paging

/-!
# Following the next offset of a list route

A client starts at offset 0 and goes on with the `next_offset` of each response, until there is
none. The limit is any integer. With a limit of 0 a response is empty and its next offset is the
offset it was asked for, as long as the table is not empty; with a limit of -1 the next offset is
negative, which Postgres refuses.

The driver sends the two numbers as values of a column type, and refuses those it cannot encode.
Which it can encode is a parameter.

## Main results

* `Pageable` — when the client reads the whole table
* `enumerates_listRoute_iff` — it does exactly then, and otherwise it does not end
-/

namespace CarFlow

section Routes

variable {α β : Type}

/-- A query of a list route, by a driver that can encode some numbers. -/
def encoded (encodes : ℤ → Bool) (query : ℤ → ℤ → Option (Page α)) (limit offset : ℤ) :
    Option (Page α) :=
  if encodes (limit + 1) ∧ encodes offset then query limit offset else none

/-- A list route: the rows of the page, each as the service responds with it. -/
def listRoute (encodes : ℤ → Bool) (query : ℤ → ℤ → Option (Page α)) (respond : α → β)
    (limit offset : ℤ) : Except HttpException (Page β) :=
  match encoded encodes query limit offset with
  | none => .error ⟨500, "Internal Server Error"⟩
  | some body => .ok { items := body.items.map respond, nextOffset := body.nextOffset }

/-- The client: the items it has when there is no next offset, within a number of requests. -/
def followNextOffset (fetch : ℤ → Except HttpException (Page β)) (requests : ℕ) (offset : ℤ) :
    Option (List β) :=
  Cursor.follow
    (fun offset => (fetch offset).toOption.map fun body => (body.items, body.nextOffset))
    requests offset

/-- The client ends, with all rows of a table in order, each exactly once. -/
def Enumerates (before : α → α → Prop) (respond : α → β) (table : List α)
    (fetch : ℤ → Except HttpException (Page β)) : Prop :=
  ∃ (requests : ℕ) (rows : List α), followNextOffset fetch requests 0 = some (rows.map respond) ∧
    rows.Perm table ∧ rows.Pairwise before

/-- The limit is positive, or it is 0 and there are no rows; and the driver can encode what is
sent to it. -/
def Pageable (encodes : ℤ → Bool) (limit : ℤ) (count : ℕ) : Prop :=
  encodes (limit + 1) ∧ encodes 0 ∧
    (0 < limit ∧ (∀ k : ℕ, k * limit < count → encodes (k * limit)) ∨ limit = 0 ∧ count = 0)

variable {encodes : ℤ → Bool} {rows : List α} {limit : ℤ}

/-- The pages of a list route, as the client sees them. -/
def pagesOf (encodes : ℤ → Bool) (rows : List α) (limit offset : ℤ) :
    Option (List α × Option ℤ) :=
  (encoded encodes (page rows) limit offset).map fun body => (body.items, body.nextOffset)

theorem pagesOf_eq {L offset : ℕ} (hlimit : encodes ((L : ℤ) + 1)) (hoffset : encodes offset) :
    pagesOf encodes rows L offset = some ((rows.drop offset).take L,
      if offset + L < rows.length then some ((offset + L : ℕ) : ℤ) else none) := by
  rw [pagesOf, encoded, if_pos ⟨hlimit, hoffset⟩, page_eq]
  rfl

theorem followNextOffset_listRoute (respond : α → β) (requests : ℕ) (offset : ℤ) :
    followNextOffset (listRoute encodes (page rows) respond limit) requests offset =
      (Cursor.follow (pagesOf encodes rows limit) requests offset).map (List.map respond) := by
  rw [← Cursor.follow_map, followNextOffset]
  congr 1
  funext offset
  unfold listRoute pagesOf
  cases encoded encodes (page rows) limit offset with
  | none => rfl
  | some body => rfl

/-- A page at an encoded number is followed by another one if the limit is negative. -/
theorem exists_next_of_neg (hlimit : limit < 0) {offset : ℤ} {body : List α × Option ℤ}
    (h : pagesOf encodes rows limit offset = some body) : body.2 = some (offset + limit) := by
  simp only [pagesOf, encoded, Option.map_eq_some_iff, Option.ite_none_right_eq_some, page,
    Option.bind_eq_bind, Option.bind_eq_some_iff, Option.some.injEq] at h
  obtain ⟨-, ⟨-, found, -, rfl⟩, rfl⟩ := h
  exact if_pos (by omega)

/-- With a positive limit the client reads the whole table: from each offset on, the pages are the
rest of it. -/
theorem exists_follow_of_pos {L : ℕ} (hpos : 0 < L) (hlimit : encodes ((L : ℤ) + 1))
    (hzero : encodes 0) (hoffsets : ∀ k : ℕ, k * L < rows.length → encodes ((k * L : ℕ) : ℤ)) :
    ∃ requests, Cursor.follow (pagesOf encodes rows L) requests 0 = some rows := by
  refine Cursor.exists_follow (pagesOf encodes rows L)
    (fun offset => ∃ k : ℕ, offset = (k * L : ℕ) ∧ encodes offset)
    (fun offset => rows.drop offset.toNat) (fun offset => rows.length - offset.toNat)
    (fun c hc => ?_) ⟨0, by simp, hzero⟩
  obtain ⟨k, rfl, hk⟩ := hc
  rw [pagesOf_eq hlimit hk, Int.toNat_natCast]
  by_cases hmore : k * L + L < rows.length
  · rw [if_pos hmore, ← Nat.add_one_mul]
    rw [← Nat.add_one_mul] at hmore
    refine .inr ⟨_, _, rfl, ⟨k + 1, rfl, hoffsets (k + 1) hmore⟩, ?_, ?_⟩
    · rw [Int.toNat_natCast]
      have hless : k * L < (k + 1) * L := Nat.mul_lt_mul_of_pos_right k.lt_succ_self hpos
      omega
    · rw [Int.toNat_natCast, Nat.add_one_mul, ← List.drop_drop, List.take_append_drop]
  · rw [if_neg hmore, List.take_of_length_le]
    · exact .inl rfl
    · rw [List.length_drop]
      omega

/-- The client does not get past an offset that the driver refuses. -/
theorem follow_eq_none_of_offset {L k : ℕ} (hk : k * L < rows.length)
    (hrefused : encodes ((k * L : ℕ) : ℤ) ≠ true) (requests : ℕ) :
    Cursor.follow (pagesOf encodes rows L) requests 0 = none := by
  refine Cursor.follow_eq_none (pagesOf encodes rows L)
    (fun offset => ∃ j ≤ k, offset = (j * L : ℕ)) ?_ requests ⟨0, Nat.zero_le k, by simp⟩
  rintro _ ⟨j, hj, rfl⟩ body hbody
  have hencoded := hbody
  simp only [pagesOf, encoded, Option.map_eq_some_iff, Option.ite_none_right_eq_some] at hencoded
  obtain ⟨-, ⟨⟨hlimit, hoffset⟩, -⟩, -⟩ := hencoded
  have hlt : j < k := lt_of_le_of_ne hj fun h => hrefused (h ▸ hoffset)
  have hmore : j * L + L < rows.length := by
    rw [← Nat.add_one_mul]
    exact (Nat.mul_le_mul_right L hlt).trans_lt hk
  rw [pagesOf_eq hlimit hoffset, if_pos hmore] at hbody
  obtain rfl := Option.some.inj hbody
  exact ⟨_, rfl, j + 1, hlt, by rw [Nat.add_one_mul]⟩

/-- With a limit of 0 the client stays at offset 0. -/
theorem follow_eq_none_of_zero (hlimit : encodes 1) (hzero : encodes 0) (hrows : 0 < rows.length)
    (requests : ℕ) : Cursor.follow (pagesOf encodes rows 0) requests 0 = none := by
  refine Cursor.follow_eq_none (pagesOf encodes rows 0) (· = 0) ?_ requests rfl
  rintro _ rfl body hbody
  have hpage : pagesOf encodes rows 0 0 = some ([], some 0) := by
    have h : pagesOf encodes rows (0 : ℕ) (0 : ℕ) = _ := pagesOf_eq hlimit hzero
    rwa [List.take_zero, Nat.add_zero, if_pos hrows] at h
  obtain rfl := Option.some.inj (hpage.symm.trans hbody)
  exact ⟨0, rfl, rfl⟩

/-- The client does not end if the limit is not right for the table. -/
theorem follow_eq_none_of_not_pageable (h : ¬ Pageable encodes limit rows.length) (requests : ℕ) :
    Cursor.follow (pagesOf encodes rows limit) requests 0 = none := by
  by_cases hsent : encodes (limit + 1) ∧ encodes 0
  · obtain ⟨hlimit, hzero⟩ := hsent
    rcases lt_trichotomy limit 0 with hneg | rfl | hpos
    · exact Cursor.follow_eq_none _ (fun _ => True)
        (fun c _ body hbody => ⟨_, exists_next_of_neg hneg hbody, True.intro⟩) requests True.intro
    · refine follow_eq_none_of_zero hlimit hzero (Nat.pos_of_ne_zero fun hrows => ?_) requests
      exact h ⟨hlimit, hzero, .inr ⟨rfl, hrows⟩⟩
    · obtain ⟨L, rfl⟩ := Int.eq_ofNat_of_zero_le hpos.le
      have hoffset : ¬ ∀ k : ℕ, k * (L : ℤ) < rows.length → encodes (k * L) :=
        fun hoffsets => h ⟨hlimit, hzero, .inl ⟨hpos, hoffsets⟩⟩
      push Not at hoffset
      obtain ⟨k, hk, hrefused⟩ := hoffset
      exact follow_eq_none_of_offset (by exact_mod_cast hk) (by exact_mod_cast hrefused) requests
  · -- The first request is refused.
    refine Cursor.follow_eq_none _ (· = 0) ?_ requests rfl
    rintro _ rfl body hbody
    rw [pagesOf, encoded, if_neg hsent] at hbody
    cases hbody

/-- **The client reads the whole table** if the limit is right for it. -/
theorem Pageable.exists_follow (h : Pageable encodes limit rows.length) :
    ∃ requests, Cursor.follow (pagesOf encodes rows limit) requests 0 = some rows := by
  obtain ⟨hlimit, hzero, ⟨hpos, hoffsets⟩ | ⟨rfl, hcount⟩⟩ := h
  · obtain ⟨L, rfl⟩ := Int.eq_ofNat_of_zero_le hpos.le
    exact exists_follow_of_pos (by omega) hlimit hzero
      fun k hk => by exact_mod_cast hoffsets k (by exact_mod_cast hk)
  · obtain rfl := List.length_eq_zero_iff.mp hcount
    have hpage : pagesOf encodes ([] : List α) (0 : ℕ) (0 : ℕ) = _ := pagesOf_eq hlimit hzero
    exact ⟨1, Cursor.follow_last hpage 0⟩

/-- **When a list route enumerates its table**, over the rows in the order of its query. -/
theorem enumerates_listRoute_iff {before : α → α → Prop} {table : List α} (hperm : rows.Perm table)
    (hsorted : rows.Pairwise before) (respond : α → β) :
    Enumerates before respond table (listRoute encodes (page rows) respond limit) ↔
      Pageable encodes limit table.length := by
  rw [← hperm.length_eq]
  constructor
  · rintro ⟨requests, items, hfollow, -⟩
    by_contra h
    rw [followNextOffset_listRoute, follow_eq_none_of_not_pageable h requests] at hfollow
    cases hfollow
  · intro h
    obtain ⟨requests, hfollow⟩ := h.exists_follow
    refine ⟨requests, rows, ?_, hperm, hsorted⟩
    rw [followNextOffset_listRoute, hfollow, Option.map_some]

end Routes

end CarFlow
