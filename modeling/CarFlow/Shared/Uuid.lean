import CarFlow.Lib.Hex
import CarFlow.Shared.Basic
import Mathlib.Data.List.DropRight

/-!
# UUIDs as text

`str` of a `uuid.UUID` is one spelling of it: 32 digits in lower case, in five groups. The
constructor reads many more: digits in either case, hyphens anywhere or nowhere, braces around
them, and `urn:` and `uuid:` in front.

## Scope

The constructor turns what is left into a number by `int(hex, 16)`, once it has 32 characters, and
that takes a few texts which are not 32 digits: `0x` or a sign in front, blanks around the digits,
single underscores between them. They are refused here. No text that `str` makes is one of them, and
no service writes one.

## Main results

* `uuidOfString_uuidStr` — what `str` spells is read back
-/

namespace CarFlow

/-- Put a hyphen after each group of digits; the rest is the last group. -/
def hyphenate : List ℕ → List Char → List Char
  | [], cs => cs
  | n :: ns, cs => cs.take n ++ '-' :: hyphenate ns (cs.drop n)

/-- `str(u)`. -/
def uuidStr (u : Uuid) : String := String.ofList (hyphenate [8, 4, 4, 4] (Hex.digits 32 u))

/-- `s.replace(pat, "")`, where the first `k` characters are those of a match. -/
def removeFrom (pat : List Char) : ℕ → List Char → List Char
  | _, [] => []
  | 0, c :: cs =>
    if pat.isPrefixOf (c :: cs) then removeFrom pat (pat.length - 1) cs
    else c :: removeFrom pat 0 cs
  | k + 1, _ :: cs => removeFrom pat k cs

/-- `hex.replace("urn:", "").replace("uuid:", "").strip("{}").replace("-", "")`. -/
def uuidDigits (hex : String) : List Char :=
  let hex := removeFrom "uuid:".toList 0 (removeFrom "urn:".toList 0 hex.toList)
  let brace : Char → Bool := fun c => c = '{' ∨ c = '}'
  ((hex.dropWhile brace).rdropWhile brace).filter (· ≠ '-')

/-- `uuid.UUID(hex)`: the digits are 32 in number. -/
def uuidOfString (hex : String) : Option Uuid :=
  if (uuidDigits hex).length = 32 then Hex.parse (uuidDigits hex) else none

/-! ### The spelling of `str` -/

theorem filter_hyphenate {cs : List Char} (h : '-' ∉ cs) (ns : List ℕ) :
    (hyphenate ns cs).filter (· ≠ '-') = cs := by
  have hfilter : ∀ ds ⊆ cs, ds.filter (· ≠ '-') = ds := fun ds hds =>
    List.filter_eq_self.mpr fun c hc => decide_eq_true fun (hc' : c = '-') => h (hds (hc' ▸ hc))
  induction ns generalizing cs with
  | nil => exact hfilter cs fun _ => id
  | cons n ns ih =>
    have hdrop : '-' ∉ cs.drop n := fun hc => h (List.mem_of_mem_drop hc)
    have hrest := ih hdrop fun ds hds => hfilter ds fun _ hc => List.mem_of_mem_drop (hds hc)
    rw [hyphenate, List.filter_append, hfilter _ (List.take_subset n cs), List.filter_cons_of_neg,
      hrest, List.take_append_drop]
    simp

theorem mem_hyphenate {c : Char} {ns : List ℕ} {cs : List Char} (h : c ∈ hyphenate ns cs) :
    c = '-' ∨ c ∈ cs := by
  induction ns generalizing cs with
  | nil => exact .inr h
  | cons n ns ih =>
    rcases List.mem_append.mp h with h | h
    · exact .inr (List.mem_of_mem_take h)
    · rcases List.mem_cons.mp h with rfl | h
      · exact .inl rfl
      · exact (ih h).imp_right List.mem_of_mem_drop

/-- Nothing is removed where the first character of the pattern does not occur. -/
theorem removeFrom_eq_self {p : Char} {pat cs : List Char} (h : p ∉ cs) :
    removeFrom (p :: pat) 0 cs = cs := by
  induction cs with
  | nil => rfl
  | cons c cs ih =>
    have hc : p ≠ c := fun hc => h (hc ▸ List.mem_cons_self)
    have hcs : p ∉ cs := fun hcs => h (List.mem_cons_of_mem _ hcs)
    rw [removeFrom, if_neg, ih hcs]
    simp [hc]

theorem hexDigit_props : ∀ d < 16, Nat.digitChar d ≠ '-' ∧ Nat.digitChar d ≠ 'u' ∧
    Nat.digitChar d ≠ '{' ∧ Nat.digitChar d ≠ '}' := by decide

/-- The digits of `str`, as the constructor finds them. -/
theorem uuidDigits_uuidStr (u : Uuid) : uuidDigits (uuidStr u) = Hex.digits 32 u := by
  have hdigits : ∀ c ∈ Hex.digits 32 u, c ≠ '-' ∧ c ≠ 'u' ∧ c ≠ '{' ∧ c ≠ '}' := by
    intro c hc
    obtain ⟨d, hd, rfl⟩ := Hex.exists_of_mem_digits hc
    exact hexDigit_props d hd
  have hchars : ∀ c ∈ (uuidStr u).toList, c ≠ 'u' ∧ c ≠ '{' ∧ c ≠ '}' := by
    intro c hc
    rw [uuidStr, String.toList_ofList] at hc
    rcases mem_hyphenate hc with rfl | hc
    · decide
    · exact (hdigits c hc).2
  have hu : 'u' ∉ (uuidStr u).toList := fun h => (hchars _ h).1 rfl
  have hbrace : ∀ c ∈ (uuidStr u).toList, ¬(decide (c = '{' ∨ c = '}')) = true := by
    intro c hc
    simp [(hchars c hc).2]
  have hstrip : ((uuidStr u).toList.dropWhile fun c => decide (c = '{' ∨ c = '}')).rdropWhile
      (fun c => decide (c = '{' ∨ c = '}')) = (uuidStr u).toList := by
    rw [List.dropWhile_eq_self_iff.mpr, List.rdropWhile_eq_self_iff.mpr]
    · exact fun hne => hbrace _ (List.getLast_mem hne)
    · exact fun hne => hbrace _ (List.getElem_mem hne)
  have hremove : removeFrom "uuid:".toList 0 (removeFrom "urn:".toList 0 (uuidStr u).toList)
      = (uuidStr u).toList := by
    rw [show "urn:".toList = 'u' :: ['r', 'n', ':'] from rfl, removeFrom_eq_self hu,
      show "uuid:".toList = 'u' :: ['u', 'i', 'd', ':'] from rfl, removeFrom_eq_self hu]
  simp only [uuidDigits, hremove, hstrip]
  rw [uuidStr, String.toList_ofList]
  exact filter_hyphenate (fun h => (hdigits _ h).1 rfl) _

/-- A `uuid.UUID` has 128 bits. -/
theorem uuidOfString_lt {hex : String} {u : Uuid} (h : uuidOfString hex = some u) :
    u < 16 ^ 32 := by
  unfold uuidOfString at h
  split at h
  · rename_i hlen
    exact hlen ▸ Hex.parse_lt h
  · cases h

/-- **What `str` spells is read back.** -/
theorem uuidOfString_uuidStr {u : Uuid} (h : u < 16 ^ 32) :
    uuidOfString (uuidStr u) = some u := by
  rw [uuidOfString, uuidDigits_uuidStr, if_pos (Hex.length_digits 32 u), Hex.parse_digits,
    Nat.mod_eq_of_lt h]

end CarFlow
