import Mathlib.Data.List.Sort

/-!
# Offset pages of rows whose order has ties

A store sorts rows by a key and returns the page of size `L` at an offset. The order of rows with
equal keys is up to the store, and it may be another one for each page. So a row has a range of
positions: from the number of rows with smaller keys on, up to the number of rows with keys that
are not greater. If the range lies on one page then the row is on that page in any order; if it
does not, two rows can change places across the boundary between two requests, and one of them is
returned twice.

## Main results

* `Arranged.first_le`, `Arranged.lt_past` — the range of positions of a row
* `sweep_perm_iff` — **when the pages are a permutation of the rows in every order**
-/

namespace TiedPages

variable {α : Type*} (le : α → α → Prop) [DecidableRel le]

/-- The rows, sorted by their keys. -/
def Arranged (rows xs : List α) : Prop := xs.Perm rows ∧ xs.Pairwise le

instance [DecidableEq α] (rows xs : List α) : Decidable (Arranged le rows xs) :=
  inferInstanceAs (Decidable (_ ∧ _))

/-- The number of rows with smaller keys. -/
def first (rows : List α) (a : α) : ℕ := rows.countP fun b => ¬ le a b

/-- The number of rows with keys that are not greater. -/
def past (rows : List α) (a : α) : ℕ := rows.countP fun b => le b a

/-- The rows with the key of `a` are on one page in every order. -/
def OnOnePage (rows : List α) (L : ℕ) (a : α) : Prop :=
  first le rows a / L = (past le rows a - 1) / L

/-- The page of a number. -/
def pageAt (L : ℕ) (xs : List α) (k : ℕ) : List α := (xs.drop (k * L)).take L

/-- The first `m` pages, each of the rows as they are arranged for its request. A request that is
refused returns nothing. -/
def sweep (accepted : ℕ → Bool) (L : ℕ) (arrange : ℕ → List α) (m : ℕ) : List α :=
  (List.range m).flatMap fun k => if accepted (k * L) then pageAt L (arrange k) k else []

/-- Enough pages return each row exactly once, however the rows are arranged for each request. -/
def ReadsEach (accepted : ℕ → Bool) (rows : List α) (L : ℕ) : Prop :=
  ∀ arrange : ℕ → List α, (∀ k, Arranged le rows (arrange k)) → ∀ m, rows.length ≤ m * L →
    (sweep accepted L arrange m).Perm rows

variable {le} {rows xs : List α} {a b : α} {L i k : ℕ}

/-! ### Positions

Where a row can be in a sorted arrangement: its key leaves it a range of positions, and every
position of the range is taken in some arrangement. -/

theorem mem_pageAt_iff : a ∈ pageAt L xs k ↔ ∃ i, xs[i]? = some a ∧ k * L ≤ i ∧ i < k * L + L := by
  rw [pageAt, List.mem_iff_getElem?]
  constructor
  · rintro ⟨j, hj⟩
    rw [List.getElem?_take] at hj
    split at hj
    · rw [List.getElem?_drop] at hj
      exact ⟨k * L + j, hj, by omega, by omega⟩
    · cases hj
  · rintro ⟨i, hi, hle, hlt⟩
    refine ⟨i - k * L, ?_⟩
    rw [List.getElem?_take, if_pos (by omega), List.getElem?_drop, Nat.add_sub_cancel' hle]
    exact hi

section Positions

variable [Std.Total le]

omit [DecidableRel le] in
theorem Arranged.le_of_le (h : Arranged le rows xs) {j : ℕ} (hi : xs[i]? = some a)
    (hj : xs[j]? = some b) (hij : i ≤ j) : le a b := by
  obtain ⟨hlt, rfl⟩ := List.getElem?_eq_some_iff.mp hi
  obtain ⟨hlt', rfl⟩ := List.getElem?_eq_some_iff.mp hj
  rcases Nat.lt_or_eq_of_le hij with hij | rfl
  · exact List.pairwise_iff_getElem.mp h.2 i j hlt hlt' hij
  · exact refl_of le _

/-- What holds of the rows before a position only, holds of at most that many. -/
theorem countP_le_of_forall (p : α → Bool)
    (hp : ∀ j b, xs[j]? = some b → p b = true → j < i) : xs.countP p ≤ i := by
  have hdrop : (xs.drop i).countP p = 0 := by
    refine List.countP_eq_zero.mpr fun b hb hpb => ?_
    obtain ⟨j, hj⟩ := List.mem_iff_getElem?.mp hb
    rw [List.getElem?_drop] at hj
    have hlt := hp (i + j) b hj hpb
    omega
  calc xs.countP p = (xs.take i).countP p + (xs.drop i).countP p := by
        rw [← List.countP_append, List.take_append_drop]
    _ = (xs.take i).countP p := by rw [hdrop, Nat.add_zero]
    _ ≤ (xs.take i).length := List.countP_le_length
    _ ≤ i := List.length_take_le i xs

/-- What holds of the rows before a position, holds of at least that many. -/
theorem le_countP_of_forall (p : α → Bool) (hi : i ≤ xs.length)
    (hp : ∀ j b, xs[j]? = some b → j < i → p b = true) : i ≤ xs.countP p := by
  have htake : (xs.take i).countP p = i := by
    rw [List.countP_eq_length.mpr, List.length_take, Nat.min_eq_left hi]
    intro b hb
    obtain ⟨j, hj⟩ := List.mem_iff_getElem?.mp hb
    rw [List.getElem?_take] at hj
    split at hj
    · exact hp j b hj ‹_›
    · cases hj
  calc i = (xs.take i).countP p := htake.symm
    _ ≤ (xs.take i).countP p + (xs.drop i).countP p := Nat.le_add_right ..
    _ = xs.countP p := by rw [← List.countP_append, List.take_append_drop]

/-- **The positions of a row** start behind the rows with smaller keys. -/
theorem Arranged.first_le (h : Arranged le rows xs) (hi : xs[i]? = some a) :
    first le rows a ≤ i := by
  rw [first, ← h.1.countP_eq]
  refine countP_le_of_forall _ fun j b hj hb => ?_
  by_contra hij
  exact of_decide_eq_true hb (h.le_of_le hi hj (Nat.le_of_not_lt hij))

/-- They end with the rows whose keys are not greater. -/
theorem Arranged.lt_past (h : Arranged le rows xs) (hi : xs[i]? = some a) :
    i < past le rows a := by
  rw [past, ← h.1.countP_eq]
  obtain ⟨hlt, -⟩ := List.getElem?_eq_some_iff.mp hi
  refine le_countP_of_forall _ hlt fun j b hj hij => decide_eq_true ?_
  exact h.le_of_le hj hi (Nat.le_of_lt_succ hij)

/-! ### Rows that stay on their pages

A range that lies on one page, for all pages and orders. -/

theorem div_eq_iff_of_page (hL : 0 < L) : i / L = k ↔ k * L ≤ i ∧ i < k * L + L := by
  rw [Nat.div_eq_iff hL]
  omega

/-- A row whose positions lie on one page is on that page. -/
theorem Arranged.mem_pageAt_iff (h : Arranged le rows xs) (hL : 0 < L)
    (hpage : ∀ a ∈ rows, OnOnePage le rows L a) :
    a ∈ pageAt L xs k ↔ a ∈ rows ∧ first le rows a / L = k := by
  have hposition {i : ℕ} (hi : xs[i]? = some a) : i / L = first le rows a / L := by
    have ha : a ∈ rows := h.1.mem_iff.mp (List.mem_of_getElem? hi)
    have hle := Nat.div_le_div_right (c := L) (Nat.le_sub_one_of_lt (h.lt_past hi))
    rw [← hpage a ha] at hle
    exact Nat.le_antisymm hle (Nat.div_le_div_right (h.first_le hi))
  rw [TiedPages.mem_pageAt_iff]
  constructor
  · rintro ⟨i, hi, hk⟩
    exact ⟨h.1.mem_iff.mp (List.mem_of_getElem? hi),
      (hposition hi).symm.trans ((div_eq_iff_of_page hL).mpr hk)⟩
  · rintro ⟨ha, hk⟩
    obtain ⟨i, hi⟩ := List.mem_iff_getElem?.mp (h.1.mem_iff.mpr ha)
    exact ⟨i, hi, (div_eq_iff_of_page hL).mp ((hposition hi).trans hk)⟩

/-- **The pages are a permutation of the rows** if each row stays on its page, and no request that
has rows to return is refused. -/
theorem sweep_perm {accepted : ℕ → Bool} {arrange : ℕ → List α} {m : ℕ} (hnodup : rows.Nodup)
    (hL : 0 < L) (haccepted : ∀ k, k * L < rows.length → accepted (k * L))
    (hpage : ∀ a ∈ rows, OnOnePage le rows L a) (h : ∀ k, Arranged le rows (arrange k))
    (hm : rows.length ≤ m * L) : (sweep accepted L arrange m).Perm rows := by
  have hmem {a : α} {k : ℕ} : a ∈ (if accepted (k * L) then pageAt L (arrange k) k else []) ↔
      a ∈ rows ∧ first le rows a / L = k := by
    rw [← (h k).mem_pageAt_iff hL hpage]
    split
    · rfl
    · rename_i hrefused
      refine iff_of_false List.not_mem_nil fun ha => hrefused (haccepted k ?_)
      obtain ⟨i, hi, hle, -⟩ := mem_pageAt_iff.mp ha
      have hlt := (List.getElem?_eq_some_iff.mp hi).1
      rw [(h k).1.length_eq] at hlt
      omega
  refine (List.perm_ext_iff_of_nodup ?_ hnodup).mpr fun a => ?_
  · rw [sweep, List.nodup_flatMap]
    constructor
    · intro k _
      split
      · exact ((h k).1.nodup_iff.mpr hnodup).sublist
          ((List.take_sublist ..).trans (List.drop_sublist ..))
      · exact List.nodup_nil
    · refine List.Nodup.pairwise_of_forall_ne List.nodup_range fun j _ k _ hjk a hj hk => ?_
      exact hjk ((hmem.mp hj).2.symm.trans (hmem.mp hk).2)
  · rw [sweep, List.mem_flatMap]
    constructor
    · rintro ⟨k, -, ha⟩
      exact (hmem.mp ha).1
    · intro ha
      refine ⟨_, List.mem_range.mpr ?_, hmem.mpr ⟨ha, rfl⟩⟩
      obtain ⟨i, hi⟩ := List.mem_iff_getElem?.mp ((h 0).1.mem_iff.mpr ha)
      have hlt := (List.getElem?_eq_some_iff.mp hi).1
      rw [(h 0).1.length_eq] at hlt
      have hfirst := (h 0).first_le hi
      exact (Nat.div_lt_iff_lt_mul hL).mpr (by omega)

end Positions

/-! ### Rows that change places

A range that goes across a boundary: one order has the row before it and another one behind it. -/

omit [DecidableRel le] in
/-- Two neighbours with equal keys may be the other way round. -/
theorem Arranged.swap {P Q : List α} (h : Arranged le rows (P ++ a :: b :: Q)) (hba : le b a) :
    Arranged le rows (P ++ b :: a :: Q) := by
  obtain ⟨hperm, hsorted⟩ := h
  refine ⟨((List.Perm.swap a b Q).append_left P).trans hperm, ?_⟩
  rw [List.pairwise_append] at hsorted ⊢
  obtain ⟨hP, hrest, hacross⟩ := hsorted
  simp only [List.pairwise_cons, List.mem_cons, forall_eq_or_imp] at hrest hacross ⊢
  obtain ⟨⟨-, haQ⟩, hbQ, hQ⟩ := hrest
  exact ⟨hP, ⟨⟨hba, hbQ⟩, haQ, hQ⟩, fun c hc =>
    ⟨(hacross c hc).2.1, (hacross c hc).1, (hacross c hc).2.2⟩⟩

/-- A list around two neighbours. -/
theorem exists_eq_append {x y : α} (hx : xs[i]? = some x) (hy : xs[i + 1]? = some y) :
    ∃ P Q, P.length = i ∧ xs = P ++ x :: y :: Q := by
  obtain ⟨hi, rfl⟩ := List.getElem?_eq_some_iff.mp hx
  obtain ⟨hi', rfl⟩ := List.getElem?_eq_some_iff.mp hy
  refine ⟨xs.take i, xs.drop (i + 2), List.length_take_of_le hi.le, ?_⟩
  rw [← List.drop_eq_getElem_cons hi', ← List.drop_eq_getElem_cons hi, List.take_append_drop]

section Ties

variable [Std.Total le] [IsTrans α le] {accepted : ℕ → Bool}

/-- At each of these positions there is a row with that key. -/
theorem Arranged.tied (h : Arranged le rows xs) (hfirst : first le rows a ≤ i)
    (hpast : i < past le rows a) (hi : xs[i]? = some b) : le a b ∧ le b a := by
  rw [first, ← h.1.countP_eq] at hfirst
  rw [past, ← h.1.countP_eq] at hpast
  obtain ⟨hlt, -⟩ := List.getElem?_eq_some_iff.mp hi
  constructor
  · by_contra hab
    have hle : i + 1 ≤ xs.countP fun c => ¬ le a c :=
      le_countP_of_forall _ hlt fun j c hj hij => decide_eq_true fun hac =>
        hab (trans_of le hac (h.le_of_le hj hi (Nat.le_of_lt_succ hij)))
    omega
  · by_contra hba
    have hle : (xs.countP fun c => le c a) ≤ i := by
      refine countP_le_of_forall _ fun j c hj hca => ?_
      by_contra hij
      exact hba (trans_of le (h.le_of_le hi hj (Nat.le_of_not_lt hij)) (of_decide_eq_true hca))
    omega

variable (le) in
theorem arranged_insertionSort (rows : List α) : Arranged le rows (rows.insertionSort le) :=
  ⟨List.perm_insertionSort le rows, List.pairwise_insertionSort le rows⟩

/-- No request that has rows to return is refused, if the pages are a permutation of the rows. -/
theorem accepted_of_sweep_perm (hnodup : rows.Nodup) (hL : 0 < L)
    (h : ReadsEach le accepted rows L)
    (hk : k * L < rows.length) : accepted (k * L) = true := by
  have hxs := arranged_insertionSort le rows
  generalize rows.insertionSort le = xs at hxs
  rw [← hxs.1.length_eq] at hk
  have ha : xs[k * L] ∈ sweep accepted L (fun _ => xs) rows.length :=
    (h _ (fun _ => hxs) _ (Nat.le_mul_of_pos_right _ hL)).mem_iff.mpr
      (hxs.1.mem_iff.mp (List.getElem_mem hk))
  obtain ⟨j, -, ha⟩ := List.mem_flatMap.mp ha
  split at ha
  · rename_i haccepted
    obtain ⟨i, hi, hpage⟩ := mem_pageAt_iff.mp ha
    obtain ⟨hlt, hi⟩ := List.getElem?_eq_some_iff.mp hi
    obtain rfl := ((hxs.1.nodup_iff.mpr hnodup).getElem_inj_iff).mp hi
    have hjk := (div_eq_iff_of_page hL).mpr hpage
    rw [Nat.mul_div_cancel k hL] at hjk
    rwa [hjk]
  · exact absurd ha List.not_mem_nil

/-- No row is on two pages, if the pages have no duplicates. -/
theorem not_mem_of_nodup_sweep {arrange : ℕ → List α} {m j : ℕ}
    (h : (sweep accepted L arrange m).Nodup) (hjk : j < k) (hk : k < m)
    (hj : accepted (j * L)) (haccepted : accepted (k * L)) (ha : a ∈ pageAt L (arrange j) j) :
    a ∉ pageAt L (arrange k) k := by
  intro ha'
  have hdisjoint := List.pairwise_iff_getElem.mp (List.nodup_flatMap.mp h).2 j k
    (by rw [List.length_range]; omega) (by rw [List.length_range]; omega) hjk
  simp only [List.getElem_range, Function.onFun, if_pos hj, if_pos haccepted] at hdisjoint
  exact hdisjoint ha ha'

/-- A key whose rows are not all on one page has two neighbours on either side of a boundary. -/
theorem Arranged.exists_boundary (h : Arranged le rows xs) (hL : 0 < L) (ha : a ∈ rows)
    (hpage : ¬ OnOnePage le rows L a) :
    ∃ k j x y, j + 1 = (k + 1) * L ∧ xs[j]? = some x ∧ xs[j + 1]? = some y ∧ le y x := by
  obtain ⟨k, hk⟩ : ∃ k, k = (past le rows a - 1) / L := ⟨_, rfl⟩
  obtain ⟨i, hi⟩ := List.mem_iff_getElem?.mp (h.1.mem_iff.mpr ha)
  have hposition := h.first_le hi
  have hposition' := h.lt_past hi
  have hfirst : first le rows a < k * L := by
    refine (Nat.div_lt_iff_lt_mul hL).mp (lt_of_le_of_ne ?_ fun heq => hpage (heq.trans hk))
    exact hk ▸ Nat.div_le_div_right (by omega)
  have hpast : k * L ≤ past le rows a - 1 := hk ▸ Nat.div_mul_le_self ..
  have hlength : past le rows a ≤ xs.length := h.1.length_eq ▸ List.countP_le_length
  obtain ⟨k, rfl⟩ : ∃ n, k = n + 1 := ⟨k - 1, by cases k <;> omega⟩
  obtain ⟨j, hj⟩ : ∃ j, j + 1 = (k + 1) * L := ⟨(k + 1) * L - 1, by omega⟩
  have htied {i : ℕ} {b : α} (hi : xs[i]? = some b) (hle : j ≤ i) (hlt : i ≤ j + 1) :
      le a b ∧ le b a := h.tied (by omega) (by omega) hi
  have hx := List.getElem?_eq_getElem (show j < xs.length by omega)
  have hy := List.getElem?_eq_getElem (show j + 1 < xs.length by omega)
  exact ⟨k, j, _, _, hj, hx, hy,
    trans_of le (htied hy (by omega) le_rfl).2 (htied hx le_rfl (by omega)).1⟩

/-- Each row stays on its page, if the pages are a permutation of the rows: two neighbours with
equal keys on two pages could change places between the two requests, and one of them would be on
both pages. -/
theorem onOnePage_of_sweep_perm (hnodup : rows.Nodup) (hL : 0 < L)
    (h : ReadsEach le accepted rows L) (ha : a ∈ rows) : OnOnePage le rows L a := by
  have hxs := arranged_insertionSort le rows
  generalize rows.insertionSort le = xs at hxs
  by_contra hpage
  obtain ⟨k, j, x, y, hj, hx, hy, hyx⟩ := hxs.exists_boundary hL ha hpage
  have hlength := (List.getElem?_eq_some_iff.mp hy).1
  rw [hxs.1.length_eq] at hlength
  obtain ⟨P, Q, rfl, rfl⟩ := exists_eq_append hx hy
  have harrange (n : ℕ) :
      Arranged le rows (if n < k + 1 then P ++ x :: y :: Q else P ++ y :: x :: Q) := by
    split
    · exact hxs
    · exact hxs.swap hyx
  have hsweep := h _ harrange rows.length (Nat.le_mul_of_pos_right _ hL)
  have hk : k + 1 < rows.length :=
    (Nat.le_mul_of_pos_right (k + 1) hL).trans_lt (hj ▸ hlength)
  have haccepted : accepted ((k + 1) * L) := accepted_of_sweep_perm hnodup hL h (hj ▸ hlength)
  rw [Nat.add_one_mul] at hj
  refine not_mem_of_nodup_sweep (hsweep.nodup_iff.mpr hnodup) (Nat.lt_succ_self k) hk
    (accepted_of_sweep_perm hnodup hL h (by omega)) haccepted (a := x) ?_ ?_
  · rw [if_pos (Nat.lt_succ_self k), mem_pageAt_iff]
    exact ⟨P.length, by simp, by omega, by omega⟩
  · rw [if_neg (lt_irrefl _), mem_pageAt_iff, Nat.add_one_mul]
    exact ⟨P.length + 1, by simp, by omega, by omega⟩

/-- **When the pages are a permutation of the rows in every order**: when no request that has rows
to return is refused, and no two rows with equal keys lie on two pages. -/
theorem sweep_perm_iff (hnodup : rows.Nodup) (hL : 0 < L) :
    ReadsEach le accepted rows L ↔
      (∀ k, k * L < rows.length → accepted (k * L)) ∧ ∀ a ∈ rows, OnOnePage le rows L a := by
  constructor
  · intro h
    exact ⟨fun k hk => accepted_of_sweep_perm hnodup hL h hk,
      fun a ha => onOnePage_of_sweep_perm hnodup hL h ha⟩
  · rintro ⟨haccepted, hpage⟩ arrange harrange m hm
    exact sweep_perm hnodup hL haccepted hpage harrange hm

end Ties

end TiedPages
