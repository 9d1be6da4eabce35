import CarFlow.Lib.Hex
import Mathlib.Data.List.Basic
import Mathlib.Data.List.TakeWhile

/-!
# JSON texts

The texts of a JSON value: which white space, which escapes and which spelling of a number are free
to whoever writes it. The words `NaN`, `Infinity` and `-Infinity` are taken for numbers. A number
with a fraction or an exponent is kept as it is written. A string is made of characters: an escape
that names half of a surrogate pair without the other half names none.

`dumps` is one way to write a value: with ", " and ": ", and escapes for what is not printable
ASCII.

## Scope

The relation `TextOf` between values and texts has no limits: any depth, any number of digits. A
reader that has them refuses some of the texts, and one that works with UTF-16 code units takes
some more, where half of a surrogate pair is spelled as an escape.

## Main results

* `text_dumps` — what `dumps` writes is a text of the value
-/

/-! ### Numbers and words -/

namespace Json

/-- The characters that words and numbers are made of. -/
def isWord (c : Char) : Bool := c.isAlphanum || c == '+' || c == '-' || c == '.'

/-- The four characters of white space. -/
def isSpace (c : Char) : Bool := c == ' ' || c == '\t' || c == '\n' || c == '\r'

/-- A run of digits. -/
def isDigits (s : List Char) : Bool := s ≠ [] && s.all Char.isDigit

/-- A number without its sign. -/
def unsigned : List Char → List Char
  | '-' :: s => s
  | s => s

/-- `(0|[1-9][0-9]*)`. -/
def isNatural (s : List Char) : Bool := isDigits s && (s == ['0'] || s.head? != some '0')

/-- `[eE][-+]?[0-9]+`. -/
def isExponent : List Char → Bool
  | [] => false
  | c :: s => (c == 'e' || c == 'E') && match s with
    | '+' :: s => isDigits s
    | s => isDigits (unsigned s)

/-- `(\.[0-9]+)?([eE][-+]?[0-9]+)?`, and not nothing. -/
def isFraction : List Char → Bool
  | '.' :: s => s.takeWhile Char.isDigit ≠ [] &&
    (s.dropWhile Char.isDigit == [] || isExponent (s.dropWhile Char.isDigit))
  | s => isExponent s

/-- `-?(0|[1-9][0-9]*)`. -/
def isInteger (s : List Char) : Bool := isNatural (unsigned s)

/-- A number that is not an integer. -/
def isReal (s : List Char) : Bool :=
  s == "NaN".toList || s == "Infinity".toList || s == "-Infinity".toList ||
    isNatural ((unsigned s).takeWhile Char.isDigit) &&
      isFraction ((unsigned s).dropWhile Char.isDigit)

/-- The value of a numeral. -/
def integer (s : List Char) : ℤ :=
  if s.head? = some '-' then - Nat.ofDigitChars 10 (unsigned s) 0 else Nat.ofDigitChars 10 s 0

/-- A number that is not an integer, as it is written. -/
structure Real where
  literal : List Char
  isReal : isReal literal = true
  isWord : ∀ c ∈ literal, isWord c = true
  deriving DecidableEq

end Json

/-! ### Values -/

/-- A JSON value. -/
inductive Json
  | null
  | bool (b : Bool)
  | int (n : ℤ)
  | real (x : Json.Real)
  | str (s : String)
  | arr (items : List Json)
  | obj (members : List (String × Json))

namespace Json

/-- The value of a word. -/
def word (s : List Char) : Option Json :=
  if s = "null".toList then some .null
  else if s = "true".toList then some (.bool true)
  else if s = "false".toList then some (.bool false)
  else if isInteger s then some (.int (integer s))
  else if h : isReal s = true ∧ s.all isWord = true then
    some (.real ⟨s, h.1, List.all_eq_true.mp h.2⟩)
  else none

/-! ### The grammar

The texts of a value by recursion on the value. White space stands around values, keys, and in empty
arrays and objects; the relation leaves out what is around the whole text, which `TextOf` adds. -/

/-- White space. -/
def Spaces (s : List Char) : Prop := ∀ c ∈ s, isSpace c = true

/-- The character that a backslash and a letter stand for. -/
def unescape : Char → Option Char
  | '"' => some '"'
  | '\\' => some '\\'
  | '/' => some '/'
  | 'b' => some '\x08'
  | 'f' => some '\x0c'
  | 'n' => some '\n'
  | 'r' => some '\r'
  | 't' => some '\t'
  | _ => none

/-- The first half of a surrogate pair. -/
def IsHigh (n : ℕ) : Prop := 0xD800 ≤ n ∧ n ≤ 0xDBFF

/-- The second half of a surrogate pair. -/
def IsLow (n : ℕ) : Prop := 0xDC00 ≤ n ∧ n ≤ 0xDFFF

instance (n : ℕ) : Decidable (IsHigh n) := inferInstanceAs (Decidable (_ ∧ _))

instance (n : ℕ) : Decidable (IsLow n) := inferInstanceAs (Decidable (_ ∧ _))

/-- The character of a surrogate pair. -/
def paired (high low : ℕ) : Char :=
  Char.ofNat (0x10000 + (high - 0xD800) * 0x400 + (low - 0xDC00))

/-- A numeral of four hexadecimal digits. -/
def UnitText (n : ℕ) (t : List Char) : Prop := t.length = 4 ∧ Hex.parse t = some n

/-- The ways to write a character of a string. -/
inductive CharText : Char → List Char → Prop
  | plain (c : Char) (hlow : ' ' ≤ c) (hquote : c ≠ '"') (hescape : c ≠ '\\') : CharText c [c]
  | escape (e c : Char) (h : unescape e = some c) : CharText c ['\\', e]
  | unit (n : ℕ) (t : List Char) (ht : UnitText n t) (hhigh : ¬ IsHigh n) (hlow : ¬ IsLow n) :
      CharText (Char.ofNat n) ('\\' :: 'u' :: t)
  | pair (high low : ℕ) (t t' : List Char) (ht : UnitText high t) (ht' : UnitText low t')
      (hhigh : IsHigh high) (hlow : IsLow low) :
      CharText (paired high low) ('\\' :: 'u' :: t ++ '\\' :: 'u' :: t')

/-- The ways to write the characters of a string. -/
inductive CharsText : List Char → List Char → Prop
  | nil : CharsText [] []
  | cons {c : Char} {cs t ts : List Char} (h : CharText c t) (hs : CharsText cs ts) :
      CharsText (c :: cs) (t ++ ts)

/-- A string in its quotes. -/
def quoted (t : List Char) : List Char := '"' :: t ++ ['"']

mutual

/-- The texts of a value. -/
inductive Text : Json → List Char → Prop
  | word {v : Json} {t : List Char} (hchars : ∀ c ∈ t, isWord c = true) (h : word t = some v) :
      Text v t
  | str {s : String} {t : List Char} (h : CharsText s.toList t) : Text (.str s) (quoted t)
  | empty {ws : List Char} (hws : Spaces ws) : Text (.arr []) ('[' :: ws ++ [']'])
  | arr {ws t : List Char} {items : List Json} (hws : Spaces ws) (h : ItemsText items t) :
      Text (.arr items) ('[' :: ws ++ t ++ [']'])
  | bare {ws : List Char} (hws : Spaces ws) : Text (.obj []) ('{' :: ws ++ ['}'])
  | obj {ws t : List Char} {members : List (String × Json)} (hws : Spaces ws)
      (h : MembersText members t) : Text (.obj members) ('{' :: ws ++ t ++ ['}'])

/-- The texts of the items of an array. -/
inductive ItemsText : List Json → List Char → Prop
  | last {v : Json} {t ws : List Char} (h : Text v t) (hws : Spaces ws) : ItemsText [v] (t ++ ws)
  | cons {v : Json} {vs : List Json} {t ws ws' ts : List Char} (h : Text v t) (hws : Spaces ws)
      (hws' : Spaces ws') (hs : ItemsText vs ts) :
      ItemsText (v :: vs) (t ++ ws ++ ',' :: ws' ++ ts)

/-- The text of a member of an object. -/
inductive MemberText : String × Json → List Char → Prop
  | mk {key : String} {v : Json} {k ws ws' t ws'' : List Char} (hk : CharsText key.toList k)
      (hws : Spaces ws) (hws' : Spaces ws') (h : Text v t) (hws'' : Spaces ws'') :
      MemberText (key, v) (quoted k ++ ws ++ ':' :: ws' ++ t ++ ws'')

/-- The texts of the members of an object. -/
inductive MembersText : List (String × Json) → List Char → Prop
  | last {m : String × Json} {t : List Char} (h : MemberText m t) : MembersText [m] t
  | cons {m : String × Json} {ms : List (String × Json)} {t ws ts : List Char}
      (h : MemberText m t) (hws : Spaces ws) (hs : MembersText ms ts) :
      MembersText (m :: ms) (t ++ ',' :: ws ++ ts)

end

/-- The texts of a value, with white space around them. -/
def TextOf (v : Json) (s : List Char) : Prop :=
  ∃ ws t ws', Spaces ws ∧ Text v t ∧ Spaces ws' ∧ s = ws ++ (t ++ ws')

/-! ### Writing

One of the texts, the one that a writer with its defaults chooses. -/

/-- How a character is written. -/
def dumpsChar (c : Char) : List Char :=
  if c = '"' then ['\\', '"']
  else if c = '\\' then ['\\', '\\']
  else if c = '\n' then ['\\', 'n']
  else if c = '\r' then ['\\', 'r']
  else if c = '\t' then ['\\', 't']
  else if c = '\x0c' then ['\\', 'f']
  else if c = '\x08' then ['\\', 'b']
  else if ' ' ≤ c ∧ c ≤ '~' then [c]
  else if c.toNat < 0x10000 then '\\' :: 'u' :: Hex.digits 4 c.toNat
  else
    '\\' :: 'u' :: Hex.digits 4 (0xD800 + (c.toNat - 0x10000) / 0x400) ++
      '\\' :: 'u' :: Hex.digits 4 (0xDC00 + (c.toNat - 0x10000) % 0x400)

/-- How a string is written. -/
def dumpsString (s : String) : List Char := quoted (s.toList.flatMap dumpsChar)

/-- How an integer is written. -/
def dumpsInt : ℤ → List Char
  | .ofNat n => Nat.toDigits 10 n
  | .negSucc n => '-' :: Nat.toDigits 10 (n + 1)

mutual

/-- A text of a value. -/
def dumps : Json → List Char
  | .null => "null".toList
  | .bool true => "true".toList
  | .bool false => "false".toList
  | .int n => dumpsInt n
  | .real x => x.literal
  | .str s => dumpsString s
  | .arr items => '[' :: dumpsItems items ++ [']']
  | .obj members => '{' :: dumpsMembers members ++ ['}']

def dumpsItems : List Json → List Char
  | [] => []
  | [v] => dumps v
  | v :: w :: vs => dumps v ++ ',' :: ' ' :: dumpsItems (w :: vs)

def dumpsMember : String × Json → List Char
  | (key, v) => dumpsString key ++ ':' :: ' ' :: dumps v

def dumpsMembers : List (String × Json) → List Char
  | [] => []
  | [m] => dumpsMember m
  | m :: m' :: ms => dumpsMember m ++ ',' :: ' ' :: dumpsMembers (m' :: ms)

end

section Dumps

theorem unitText_digits {n : ℕ} (h : n < 0x10000) : UnitText n (Hex.digits 4 n) := by
  refine ⟨Hex.length_digits 4 n, ?_⟩
  rw [Hex.parse_digits, Nat.mod_eq_of_lt (show n < 16 ^ 4 from h)]

/-- A character is not half of a surrogate pair. -/
theorem not_surrogate (c : Char) : ¬ IsHigh c.toNat ∧ ¬ IsLow c.toNat ∧ c.toNat < 0x110000 := by
  have hvalid : c.toNat < 0xD800 ∨ 0xDFFF < c.toNat ∧ c.toNat < 0x110000 := c.valid
  unfold IsHigh IsLow
  omega

theorem charText_dumpsChar (c : Char) : CharText c (dumpsChar c) := by
  unfold dumpsChar
  split_ifs with hquote hback hn hr ht hf hb hplain hshort
  · exact hquote ▸ .escape '"' '"' rfl
  · exact hback ▸ .escape '\\' '\\' rfl
  · exact hn ▸ .escape 'n' '\n' rfl
  · exact hr ▸ .escape 'r' '\r' rfl
  · exact ht ▸ .escape 't' '\t' rfl
  · exact hf ▸ .escape 'f' '\x0c' rfl
  · exact hb ▸ .escape 'b' '\x08' rfl
  · exact .plain c hplain.1 hquote hback
  · obtain ⟨hhigh, hlow, -⟩ := not_surrogate c
    have hunit := CharText.unit c.toNat _ (unitText_digits hshort) hhigh hlow
    rwa [Char.ofNat_toNat] at hunit
  · obtain ⟨-, -, hlt⟩ := not_surrogate c
    have hpair := CharText.pair (0xD800 + (c.toNat - 0x10000) / 0x400)
      (0xDC00 + (c.toNat - 0x10000) % 0x400) _ _ (unitText_digits (by omega))
      (unitText_digits (by omega)) ⟨by omega, by omega⟩ ⟨by omega, by omega⟩
    have hc : paired (0xD800 + (c.toNat - 0x10000) / 0x400)
        (0xDC00 + (c.toNat - 0x10000) % 0x400) = c := by
      rw [paired, show 0x10000 + (0xD800 + (c.toNat - 0x10000) / 0x400 - 0xD800) * 0x400 +
        (0xDC00 + (c.toNat - 0x10000) % 0x400 - 0xDC00) = c.toNat by omega, Char.ofNat_toNat]
    rwa [hc] at hpair

theorem charsText_flatMap (cs : List Char) : CharsText cs (cs.flatMap dumpsChar) := by
  induction cs with
  | nil => exact .nil
  | cons c cs ih => exact .cons (charText_dumpsChar c) ih

theorem isDigit_toDigits (n : ℕ) : ∀ c ∈ Nat.toDigits 10 n, c.isDigit = true := fun _ hc =>
  Nat.isDigit_of_mem_toDigits (by decide) (by decide) hc

theorem isDigits_toDigits (n : ℕ) : isDigits (Nat.toDigits 10 n) = true := by
  simp only [isDigits, Nat.toDigits_ne_nil, ne_eq, not_false_eq_true, decide_true, Bool.true_and,
    List.all_eq_true]
  exact isDigit_toDigits n

/-- A numeral other than "0" does not begin with a zero. -/
theorem head_toDigits {n : ℕ} (hpos : 0 < n) : (Nat.toDigits 10 n).head? ≠ some '0' := by
  induction n using Nat.strong_induction_on with
  | _ n ih =>
    by_cases hn : n < 10
    · have hdigits : ∀ d < 10, 0 < d → Nat.digitChar d ≠ '0' := by decide
      rw [Nat.toDigits_of_lt_base hn]
      intro h
      exact hdigits n hn hpos (Option.some.inj h)
    · have hquot : 0 < n / 10 := Nat.div_pos (Nat.not_lt.mp hn) (by decide)
      rw [Nat.toDigits_of_base_le (by decide) (Nat.not_lt.mp hn),
        List.head?_append_of_ne_nil _ Nat.toDigits_ne_nil]
      exact ih (n / 10) (by omega) hquot

theorem isNatural_toDigits (n : ℕ) : isNatural (Nat.toDigits 10 n) = true := by
  rw [isNatural, isDigits_toDigits, Bool.true_and]
  rcases Nat.eq_zero_or_pos n with rfl | hpos
  · rw [Nat.toDigits_zero]
    rfl
  · simp [head_toDigits hpos]

theorem unsigned_of_isDigit {s : List Char} (h : ∀ c ∈ s, c.isDigit = true) :
    unsigned s = s ∧ s.head? ≠ some '-' := by
  cases s with
  | nil => exact ⟨rfl, by simp⟩
  | cons c s =>
    have hc : c ≠ '-' := by
      rintro rfl
      exact absurd (h '-' List.mem_cons_self) (by decide)
    refine ⟨?_, by simpa using hc⟩
    unfold unsigned
    split
    · rename_i heq
      exact absurd (List.cons.inj heq).1 hc
    · rfl

/-- What is written for an integer is read as it. -/
theorem integer_dumpsInt (n : ℤ) : isInteger (dumpsInt n) = true ∧ integer (dumpsInt n) = n := by
  cases n with
  | ofNat n =>
    obtain ⟨hunsigned, hhead⟩ := unsigned_of_isDigit (isDigit_toDigits n)
    rw [dumpsInt, isInteger, hunsigned, integer, if_neg hhead, Nat.ofDigitChars_ten_toDigits]
    exact ⟨isNatural_toDigits n, rfl⟩
  | negSucc n =>
    refine ⟨isNatural_toDigits (n + 1), ?_⟩
    rw [dumpsInt, integer, List.head?_cons, if_pos rfl, unsigned, Nat.ofDigitChars_ten_toDigits]
    exact (Int.negSucc_eq n).symm

theorem isWord_of_isDigit {c : Char} (h : c.isDigit = true) : isWord c = true := by
  simp [isWord, Char.isAlphanum, h]

theorem text_dumpsInt (n : ℤ) : Text (.int n) (dumpsInt n) := by
  obtain ⟨hinteger, hn⟩ := integer_dumpsInt n
  have hchars : ∀ c ∈ dumpsInt n, isWord c = true := by
    intro c hc
    cases n with
    | ofNat n => exact isWord_of_isDigit (isDigit_toDigits n c hc)
    | negSucc n =>
      rcases List.mem_cons.mp hc with rfl | hc
      · decide
      · exact isWord_of_isDigit (isDigit_toDigits (n + 1) c hc)
  refine .word hchars ?_
  have hne : ∀ w : List Char, isInteger w = false → dumpsInt n ≠ w := by
    rintro w hw rfl
    cases hw.symm.trans hinteger
  rw [word, if_neg (hne _ (by decide)), if_neg (hne _ (by decide)), if_neg (hne _ (by decide)),
    if_pos hinteger, hn]

theorem not_isInteger_of_isReal {s : List Char} (h : isReal s = true) : isInteger s = false := by
  refine Bool.eq_false_iff.mpr fun hinteger => ?_
  simp only [isReal, Bool.or_eq_true, Bool.and_eq_true, beq_iff_eq, or_assoc] at h
  rcases h with rfl | rfl | rfl | ⟨-, hfraction⟩
  · cases hinteger.symm.trans (show isInteger "NaN".toList = false by decide)
  · cases hinteger.symm.trans (show isInteger "Infinity".toList = false by decide)
  · cases hinteger.symm.trans (show isInteger "-Infinity".toList = false by decide)
  · -- of an integer nothing is left when its digits are taken off
    simp only [isInteger, isNatural, isDigits, Bool.and_eq_true, List.all_eq_true] at hinteger
    rw [List.dropWhile_eq_nil_iff.mpr hinteger.1.2] at hfraction
    cases hfraction

theorem text_real (x : Real) : Text (.real x) x.literal := by
  have hne : ∀ w : List Char, isReal w = false → x.literal ≠ w := by
    rintro w hw hx
    cases hw.symm.trans (hx ▸ x.isReal)
  refine .word x.isWord ?_
  rw [word, if_neg (hne _ (by decide)), if_neg (hne _ (by decide)), if_neg (hne _ (by decide)),
    if_neg (Bool.eq_false_iff.mp (not_isInteger_of_isReal x.isReal)),
    dif_pos ⟨x.isReal, List.all_eq_true.mpr x.isWord⟩]

theorem spaces_nil : Spaces [] := List.forall_mem_nil _

theorem spaces_space : Spaces [' '] := by
  simp [Spaces, isSpace]

mutual

/-- **What `dumps` writes is a text of the value.** -/
theorem text_dumps : ∀ v : Json, Text v (dumps v)
  | .null => .word (List.all_eq_true.mp rfl) rfl
  | .bool true => .word (List.all_eq_true.mp rfl) rfl
  | .bool false => .word (List.all_eq_true.mp rfl) rfl
  | .int n => text_dumpsInt n
  | .real x => text_real x
  | .str s => .str (charsText_flatMap s.toList)
  | .arr items => by
    cases items with
    | nil => exact .empty spaces_nil
    | cons v vs => exact .arr spaces_nil (itemsText_dumpsItems (v :: vs) (List.cons_ne_nil v vs))
  | .obj members => by
    cases members with
    | nil => exact .bare spaces_nil
    | cons m ms =>
      exact .obj spaces_nil (membersText_dumpsMembers (m :: ms) (List.cons_ne_nil m ms))

theorem itemsText_dumpsItems : ∀ vs : List Json, vs ≠ [] → ItemsText vs (dumpsItems vs)
  | [], h => absurd rfl h
  | [v], _ => by
    have hlast := ItemsText.last (text_dumps v) spaces_nil
    rwa [List.append_nil] at hlast
  | v :: w :: vs, _ => by
    have hcons := ItemsText.cons (text_dumps v) spaces_nil spaces_space
      (itemsText_dumpsItems (w :: vs) (List.cons_ne_nil w vs))
    simpa [dumpsItems] using hcons

theorem memberText_dumpsMember : ∀ m : String × Json, MemberText m (dumpsMember m)
  | (key, v) => by
    have hmember := MemberText.mk (charsText_flatMap key.toList) spaces_nil spaces_space
      (text_dumps v) spaces_nil
    simpa [dumpsMember, dumpsString] using hmember

theorem membersText_dumpsMembers : ∀ ms : List (String × Json), ms ≠ [] →
    MembersText ms (dumpsMembers ms)
  | [], h => absurd rfl h
  | [m], _ => .last (memberText_dumpsMember m)
  | m :: m' :: ms, _ => by
    have hcons := MembersText.cons (memberText_dumpsMember m) spaces_space
      (membersText_dumpsMembers (m' :: ms) (List.cons_ne_nil m' ms))
    simpa [dumpsMembers] using hcons

end

theorem Text.textOf {v : Json} {t : List Char} (h : Text v t) : TextOf v t :=
  ⟨[], t, [], spaces_nil, h, spaces_nil, by simp⟩

end Dumps

end Json
