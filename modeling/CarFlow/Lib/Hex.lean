import Mathlib.Tactic.Cases
import Mathlib.Tactic.NormNum

/-!
# Hexadecimal numerals

Numerals of a fixed length, written in lower case and read in either case.

## Main results

* `parse_digits` — what is written is read back
* `parse_lt` — a numeral of `n` digits is below `16 ^ n`
-/

namespace Hex

/-- The last `n` digits of a number, the highest first. -/
def digits : ℕ → ℕ → List Char
  | 0, _ => []
  | n + 1, u => digits n (u / 16) ++ [Nat.digitChar (u % 16)]

/-- The value of a digit. -/
def value (c : Char) : Option ℕ :=
  if '0' ≤ c ∧ c ≤ '9' then some (c.toNat - '0'.toNat)
  else if 'a' ≤ c ∧ c ≤ 'f' then some (c.toNat - 'a'.toNat + 10)
  else if 'A' ≤ c ∧ c ≤ 'F' then some (c.toNat - 'A'.toNat + 10)
  else none

/-- Read the digits that follow those of `acc`. -/
def parseFrom (acc : ℕ) : List Char → Option ℕ
  | [] => some acc
  | c :: cs => (value c).bind fun d => parseFrom (16 * acc + d) cs

/-- Read a numeral. -/
def parse (cs : List Char) : Option ℕ := parseFrom 0 cs

@[simp] theorem length_digits (n u : ℕ) : (digits n u).length = n := by
  induction n generalizing u with
  | zero => rfl
  | succ n ih => rw [digits, List.length_append, ih, List.length_singleton]

theorem parseFrom_append (acc : ℕ) (cs cs' : List Char) :
    parseFrom acc (cs ++ cs') = (parseFrom acc cs).bind fun n => parseFrom n cs' := by
  induction cs generalizing acc with
  | nil => rfl
  | cons c cs ih =>
    rw [List.cons_append, parseFrom, parseFrom, Option.bind_assoc]
    simp only [ih]

theorem value_digitChar : ∀ d < 16, value (Nat.digitChar d) = some d := by decide

/-- The digits are those a numeral is made of. -/
theorem exists_of_mem_digits {n u : ℕ} {c : Char} (h : c ∈ digits n u) :
    ∃ d < 16, c = Nat.digitChar d := by
  induction n generalizing u with
  | zero => exact absurd h List.not_mem_nil
  | succ n ih =>
    rcases List.mem_append.mp h with h | h
    · exact ih h
    · exact ⟨u % 16, Nat.mod_lt _ (by norm_num), List.mem_singleton.mp h⟩

/-- **What is written is read back**, up to the digits that were cut off. -/
theorem parse_digits (n u : ℕ) : parse (digits n u) = some (u % 16 ^ n) := by
  induction n generalizing u with
  | zero => rw [pow_zero, Nat.mod_one]; rfl
  | succ n ih =>
    have hlast : value (Nat.digitChar (u % 16)) = some (u % 16) :=
      value_digitChar _ (Nat.mod_lt _ (by norm_num))
    have hsplit : 16 * (u / 16 % 16 ^ n) + u % 16 = u % 16 ^ (n + 1) := by
      rw [pow_succ', Nat.mod_mul, Nat.add_comm]
    rw [digits, parse, parseFrom_append, ← parse, ih]
    simp only [Option.bind_some, parseFrom, hlast, hsplit]

theorem value_lt {c : Char} {d : ℕ} (h : value c = some d) : d < 16 := by
  have bound : ∀ {lo hi : Char}, lo ≤ c → c ≤ hi → c.toNat - lo.toNat ≤ hi.toNat - lo.toNat :=
    fun _ hhi => Nat.sub_le_sub_right hhi _
  unfold value at h
  split at h
  · rename_i hc
    have hle : c.toNat - '0'.toNat ≤ 9 := bound hc.1 hc.2
    obtain rfl := Option.some.inj h
    omega
  · split at h
    · rename_i hc
      have hle : c.toNat - 'a'.toNat ≤ 5 := bound hc.1 hc.2
      obtain rfl := Option.some.inj h
      omega
    · split at h
      · rename_i hc
        have hle : c.toNat - 'A'.toNat ≤ 5 := bound hc.1 hc.2
        obtain rfl := Option.some.inj h
        omega
      · cases h

/-- A numeral of `n` digits is below `16 ^ n`. -/
theorem parse_lt {cs : List Char} {u : ℕ} (h : parse cs = some u) : u < 16 ^ cs.length := by
  -- on digits that follow others
  have general : ∀ (cs : List Char) (acc u : ℕ),
      parseFrom acc cs = some u → u < (acc + 1) * 16 ^ cs.length := by
    intro cs
    induction cs with
    | nil =>
      intro acc u h
      obtain rfl := Option.some.inj h
      simp
    | cons c cs ih =>
      intro acc u h
      obtain ⟨d, hd, h⟩ := Option.bind_eq_some_iff.mp h
      have hd := value_lt hd
      calc u < (16 * acc + d + 1) * 16 ^ cs.length := ih _ _ h
        _ ≤ ((acc + 1) * 16) * 16 ^ cs.length := Nat.mul_le_mul_right _ (by omega)
        _ = (acc + 1) * 16 ^ (c :: cs).length := by
          rw [List.length_cons, pow_succ', Nat.mul_assoc]
  simpa using general cs 0 u h

end Hex
