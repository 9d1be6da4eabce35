import CarFlow.Lib.Json.Grammar
import CarFlow.Lib.ExceptLemmas

/-!
# Reading JSON

A recursive descent over the characters. `readValue n` reads a value and returns what follows it;
`n` bounds the depth of the calls, and twice the length of the text is enough.

## Implementation notes

`readValue`, `readItems` and `readMembers` call each other on what the others have left, which is
no part of what they were given. The recursion is over the depth `n` of the calls instead, so it is
structural, and a reader that has come to the end of it refuses the text. What is read is there for
every `n` (`readsSound`); that everything is read takes an `n` that is large enough for the text
(`readsComplete`). Both are structures of one statement for each of the three readers, because the
induction on `n` needs the three together.

Words and numbers are read alike: `readWord` takes the longest run of their characters and looks at
the run as a whole. A scanner that looks for a prefix of it stops earlier on some texts, such as
`1.5.2`, and then finds that the text goes on; both refuse these. `Ends` says where the run ends.

## Main results

* `loads_eq_some_iff` — **`loads` reads exactly the texts of a value**, with white space around
  them, and reads the value
* `loads_dumps` — what is written is read back
-/

namespace Json

/-- Skip white space. -/
def skip (s : List Char) : List Char := s.dropWhile isSpace

/-- Read four hexadecimal digits. -/
def readUnit (s : List Char) : Option (ℕ × List Char) :=
  if (s.take 4).length = 4 then (Hex.parse (s.take 4)).map fun n => (n, s.drop 4) else none

/-- Read what follows a backslash. -/
def readEscape : List Char → Option (Char × List Char)
  | [] => none
  | 'u' :: s => do
    let (n, s) ← readUnit s
    if IsHigh n then
      match s with
      | '\\' :: 'u' :: s => do
        let (n', s) ← readUnit s
        if IsLow n' then some (paired n n', s) else none
      | _ => none
    else if IsLow n then none
    else some (Char.ofNat n, s)
  | e :: s => (unescape e).map fun c => (c, s)

/-- Read a character of a string. -/
def readChar : List Char → Option (Char × List Char)
  | [] => none
  | '\\' :: s => readEscape s
  | c :: s => if ' ' ≤ c ∧ c ≠ '"' then some (c, s) else none

/-- Read the characters of a string, and the quote after them. -/
def readChars : ℕ → List Char → Option (List Char × List Char)
  | _, '"' :: s => some ([], s)
  | 0, _ => none
  | n + 1, s => do
    let (c, s) ← readChar s
    let (cs, s) ← readChars n s
    some (c :: cs, s)

/-- Read a string after its first quote. -/
def readString (s : List Char) : Option (String × List Char) :=
  (readChars s.length s).map fun (cs, s) => (String.ofList cs, s)

/-- Read a word or a number. -/
def readWord (s : List Char) : Option (Json × List Char) :=
  (word (s.takeWhile isWord)).map fun v => (v, s.dropWhile isWord)

/-- Skip white space and read a character. -/
def expect (c : Char) (s : List Char) : Option (List Char) :=
  match skip s with
  | [] => none
  | c' :: s => if c' = c then some s else none

mutual

/-- Read a value. -/
def readValue : ℕ → List Char → Option (Json × List Char)
  | 0, _ => none
  | _ + 1, '"' :: s => (readString s).map fun (x, s) => (.str x, s)
  | n + 1, '[' :: s => match expect ']' s with
    | some s => some (.arr [], s)
    | none => (readItems n s).map fun (vs, s) => (.arr vs, s)
  | n + 1, '{' :: s => match expect '}' s with
    | some s => some (.obj [], s)
    | none => (readMembers n s).map fun (ms, s) => (.obj ms, s)
  | _ + 1, s => readWord s

/-- Read the items of an array, and the bracket after them. -/
def readItems : ℕ → List Char → Option (List Json × List Char)
  | 0, _ => none
  | n + 1, s => do
    let (v, s) ← readValue n (skip s)
    match expect ']' s with
    | some s => some ([v], s)
    | none => do
      let s ← expect ',' s
      let (vs, s) ← readItems n s
      some (v :: vs, s)

/-- Read the members of an object, and the brace after them. -/
def readMembers : ℕ → List Char → Option (List (String × Json) × List Char)
  | 0, _ => none
  | n + 1, s => do
    let s ← expect '"' s
    let (key, s) ← readString s
    let s ← expect ':' s
    let (v, s) ← readValue n (skip s)
    match expect '}' s with
    | some s => some ([(key, v)], s)
    | none => do
      let s ← expect ',' s
      let (ms, s) ← readMembers n s
      some ((key, v) :: ms, s)

end

/-- `json.loads`. -/
def loads (s : List Char) : Option Json := do
  let (v, rest) ← readValue (2 * s.length + 1) (skip s)
  if skip rest = [] then some v else none

/-! ### White space

White space is skipped before a value, and before whatever ends or separates values. -/

section Skip

variable {s t ws rest : List Char}

/-- What is skipped is white space. -/
theorem exists_skip (s : List Char) : ∃ ws, Spaces ws ∧ s = ws ++ skip s :=
  ⟨s.takeWhile isSpace, fun _ hc => List.mem_takeWhile_imp hc, List.takeWhile_append_dropWhile.symm⟩

theorem skip_append (h : Spaces ws) : skip (ws ++ s) = skip s := List.dropWhile_append_of_pos h

theorem skip_cons {c : Char} (h : isSpace c = false) : skip (c :: s) = c :: s :=
  List.dropWhile_cons_of_neg (Bool.eq_false_iff.mp h)

theorem skip_eq_nil_iff : skip s = [] ↔ Spaces s := List.dropWhile_eq_nil_iff

theorem expect_of_spaces {c c' : Char} (hws : Spaces ws) (hc : isSpace c' = false) :
    expect c (ws ++ c' :: s) = if c' = c then some s else none := by
  rw [expect, skip_append hws, skip_cons hc]

theorem expect_iff {c : Char} (hc : isSpace c = false) :
    expect c s = some rest ↔ ∃ ws, Spaces ws ∧ s = ws ++ c :: rest := by
  constructor
  · intro h
    obtain ⟨ws, hws, hs⟩ := exists_skip s
    unfold expect at h
    cases hskip : skip s with
    | nil =>
      rw [hskip] at h
      cases h
    | cons c' s' =>
      simp only [hskip] at h
      split_ifs at h with heq
      cases h
      exact ⟨ws, hws, by rw [← heq, ← hskip]; exact hs⟩
  · rintro ⟨ws, hws, rfl⟩
    rw [expect_of_spaces hws hc, if_pos rfl]

end Skip

/-! ### Strings

A string is read character by character, up to the quote that is not escaped. What was read is the
text of its characters, in any spelling. -/

section Strings

variable {s t rest : List Char} {n : ℕ} {c : Char} {cs : List Char}

theorem readUnit_iff : readUnit s = some (n, rest) ↔ ∃ t, UnitText n t ∧ s = t ++ rest := by
  unfold readUnit UnitText
  constructor
  · intro h
    split at h
    · rename_i hlen
      obtain ⟨n', hn, h⟩ := Option.map_eq_some_iff.mp h
      obtain ⟨rfl, rfl⟩ := Prod.mk.inj h
      exact ⟨s.take 4, ⟨hlen, hn⟩, (List.take_append_drop 4 s).symm⟩
    · cases h
  · rintro ⟨t, ⟨hlen, hn⟩, rfl⟩
    rw [List.take_left' hlen, List.drop_left' hlen, if_pos hlen, hn]
    rfl

/-- What follows a backslash. -/
theorem readEscape_iff :
    readEscape s = some (c, rest) ↔ ∃ t, CharText c ('\\' :: t) ∧ s = t ++ rest := by
  constructor
  · intro h
    cases s with
    | nil => cases h
    | cons e s =>
      by_cases hu : e = 'u'
      · -- four digits, or two times four
        subst hu
        obtain ⟨⟨n, s'⟩, hunit, hrest⟩ := Option.bind_eq_some_iff.mp h
        obtain ⟨t, ht, hs⟩ := readUnit_iff.mp hunit
        subst hs
        dsimp only at hrest
        split_ifs at hrest with hhigh hlow
        · split at hrest
          swap
          · cases hrest
          obtain ⟨⟨n', s'⟩, hunit', hrest'⟩ := Option.bind_eq_some_iff.mp hrest
          obtain ⟨t', ht', hs⟩ := readUnit_iff.mp hunit'
          subst hs
          dsimp only at hrest'
          split_ifs at hrest' with hlow
          obtain ⟨rfl, rfl⟩ := Prod.mk.inj (Option.some.inj hrest')
          exact ⟨_, .pair n n' t t' ht ht' hhigh hlow, by simp⟩
        · cases hrest
          exact ⟨_, .unit n t ht hhigh hlow, rfl⟩
      · rw [readEscape.eq_3 _ _ hu] at h
        obtain ⟨c', hc, hrest⟩ := Option.map_eq_some_iff.mp h
        cases hrest
        exact ⟨[e], .escape e c hc, rfl⟩
  · rintro ⟨t, h, rfl⟩
    cases h with
    | plain _ _ _ hescape => exact absurd rfl hescape
    | escape e _ h =>
      have hu : e ≠ 'u' := by
        rintro rfl
        cases h
      rw [List.cons_append, readEscape.eq_3 _ _ hu, h]
      rfl
    | unit n t ht hhigh hlow =>
      have hunit : readUnit (t ++ rest) = some (n, rest) := readUnit_iff.mpr ⟨t, ht, rfl⟩
      simp only [List.cons_append, readEscape, Option.bind_eq_bind, hunit, Option.bind_some,
        if_neg hhigh, if_neg hlow]
    | pair high low t t' ht ht' hhigh hlow =>
      have hunit : readUnit (t ++ '\\' :: 'u' :: (t' ++ rest)) =
          some (high, '\\' :: 'u' :: (t' ++ rest)) := readUnit_iff.mpr ⟨t, ht, rfl⟩
      have hunit' : readUnit (t' ++ rest) = some (low, rest) := readUnit_iff.mpr ⟨t', ht', rfl⟩
      have htext : ('u' :: t).append ('\\' :: 'u' :: t') ++ rest =
          'u' :: (t ++ '\\' :: 'u' :: (t' ++ rest)) := by simp
      rw [htext]
      simp only [readEscape, Option.bind_eq_bind, hunit, Option.bind_some, if_pos hhigh, hunit',
        if_pos hlow]

theorem readChar_iff : readChar s = some (c, rest) ↔ ∃ t, CharText c t ∧ s = t ++ rest := by
  constructor
  · intro h
    unfold readChar at h
    split at h
    · cases h
    · obtain ⟨t, ht, rfl⟩ := readEscape_iff.mp h
      exact ⟨_, ht, rfl⟩
    · rename_i c' s hescape
      split at h
      · rename_i hplain
        cases h
        exact ⟨[c], .plain c hplain.1 hplain.2 hescape, rfl⟩
      · cases h
  · rintro ⟨t, h, rfl⟩
    cases h with
    | plain _ hlow hquote hescape =>
      rw [List.singleton_append, readChar.eq_3 _ _ hescape, if_pos ⟨hlow, hquote⟩]
    | escape e _ h => exact readEscape_iff.mpr ⟨_, .escape e c h, rfl⟩
    | unit n t ht hhigh hlow => exact readEscape_iff.mpr ⟨_, .unit n t ht hhigh hlow, rfl⟩
    | pair high low t t' ht ht' hhigh hlow =>
      exact readEscape_iff.mpr ⟨_, .pair high low t t' ht ht' hhigh hlow, rfl⟩

/-- A character takes up some text, which does not begin like the end of the string. -/
theorem CharText.head (h : CharText c t) : ∃ c' t', t = c' :: t' ∧ c' ≠ '"' := by
  cases h with
  | plain _ _ hquote => exact ⟨c, [], rfl, hquote⟩
  | escape | unit | pair => exact ⟨'\\', _, rfl, by decide⟩

theorem readChars_quote (n : ℕ) (s : List Char) : readChars n ('"' :: s) = some ([], s) := by
  cases n <;> rfl

theorem readChars_sound (h : readChars n s = some (cs, rest)) :
    ∃ t, CharsText cs t ∧ s = t ++ '"' :: rest := by
  have hend : ∀ {n s' cs}, readChars n ('"' :: s') = some (cs, rest) →
      ∃ t, CharsText cs t ∧ '"' :: s' = t ++ '"' :: rest := by
    intro n s' cs h
    rw [readChars_quote] at h
    cases h
    exact ⟨[], .nil, rfl⟩
  induction n generalizing s cs with
  | zero =>
    by_cases hquote : ∃ s', s = '"' :: s'
    · obtain ⟨s', rfl⟩ := hquote
      exact hend h
    · rw [readChars.eq_2 _ (fun s' hs => hquote ⟨s', hs⟩)] at h
      cases h
  | succ n ih =>
    by_cases hquote : ∃ s', s = '"' :: s'
    · obtain ⟨s', rfl⟩ := hquote
      exact hend h
    · rw [readChars.eq_3 _ _ (fun s' hs => hquote ⟨s', hs⟩)] at h
      obtain ⟨⟨c, s'⟩, hchar, hrest⟩ := Option.bind_eq_some_iff.mp h
      obtain ⟨⟨cs', s''⟩, hchars, hrest'⟩ := Option.bind_eq_some_iff.mp hrest
      cases hrest'
      obtain ⟨t, ht, rfl⟩ := readChar_iff.mp hchar
      obtain ⟨ts, hts, rfl⟩ := ih hchars
      exact ⟨t ++ ts, .cons ht hts, (List.append_assoc t ts _).symm⟩

theorem readChars_complete (h : CharsText cs t) (hn : t.length ≤ n) :
    readChars n (t ++ '"' :: rest) = some (cs, rest) := by
  induction h generalizing n with
  | nil => exact readChars_quote n rest
  | cons h hs ih =>
    rename_i c cs t ts
    obtain ⟨c', t', rfl, hquote⟩ := h.head
    rw [List.length_append, List.length_cons] at hn
    obtain ⟨n, rfl⟩ := Nat.exists_eq_succ_of_ne_zero (show n ≠ 0 by omega)
    have hchar : readChar (c' :: (t' ++ (ts ++ '"' :: rest))) = some (c, ts ++ '"' :: rest) :=
      readChar_iff.mpr ⟨_, h, rfl⟩
    rw [List.append_assoc, List.cons_append, readChars.eq_3 _ _ (by simp [hquote]), hchar]
    simp only [Option.bind_eq_bind, Option.bind_some, ih (show ts.length ≤ n by omega)]

theorem readString_iff {x : String} :
    readString s = some (x, rest) ↔ ∃ t, CharsText x.toList t ∧ s = t ++ '"' :: rest := by
  constructor
  · intro h
    obtain ⟨⟨cs, s'⟩, hchars, h⟩ := Option.map_eq_some_iff.mp h
    cases h
    obtain ⟨t, ht, rfl⟩ := readChars_sound hchars
    exact ⟨t, by rwa [String.toList_ofList], rfl⟩
  · rintro ⟨t, ht, rfl⟩
    have hlen : t.length ≤ (t ++ '"' :: rest).length := by
      rw [List.length_append]
      omega
    simp only [readString, readChars_complete ht hlen, Option.map_some, String.ofList_toList]

end Strings

/-! ### Values

Soundness and completeness of the three readers, each by induction on the depth. The cases follow
the first character, as those of the readers do. -/

section Values

variable {s t rest : List Char} {n : ℕ} {v : Json}

theorem readWord_sound (h : readWord s = some (v, rest)) : ∃ t, Text v t ∧ s = t ++ rest := by
  obtain ⟨v', hword, h⟩ := Option.map_eq_some_iff.mp h
  cases h
  exact ⟨_, .word (fun _ hc => List.mem_takeWhile_imp hc) hword,
    List.takeWhile_append_dropWhile.symm⟩

/-- What follows a word does not go on with it. -/
def Ends (s : List Char) : Prop := s.takeWhile isWord = []

theorem ends_cons {c : Char} (hc : isWord c = false) : Ends (c :: s) :=
  List.takeWhile_cons_of_neg (Bool.eq_false_iff.mp hc)

theorem ends_spaces {ws : List Char} (hws : Spaces ws) (hs : Ends s) : Ends (ws ++ s) := by
  cases ws with
  | nil => exact hs
  | cons c ws =>
    have hc : isSpace c = true := hws c List.mem_cons_self
    refine ends_cons (s := ws ++ s) ?_
    simp only [isSpace, Bool.or_eq_true, beq_iff_eq, or_assoc] at hc
    rcases hc with rfl | rfl | rfl | rfl <;> rfl

theorem readWord_complete (hchars : ∀ c ∈ t, isWord c = true) (h : word t = some v)
    (hends : Ends rest) : readWord (t ++ rest) = some (v, rest) := by
  have hrest : rest.dropWhile isWord = rest := by
    have happend := List.takeWhile_append_dropWhile (p := isWord) (l := rest)
    rwa [show rest.takeWhile isWord = [] from hends] at happend
  rw [readWord, List.takeWhile_append_of_pos hchars, List.dropWhile_append_of_pos hchars, hends,
    hrest, List.append_nil, h]
  rfl

/-- What `readValue`, `readItems` and `readMembers` read is there. -/
structure ReadsSound (n : ℕ) : Prop where
  value : ∀ {s v rest}, readValue n s = some (v, rest) → ∃ t, Text v t ∧ s = t ++ rest
  items : ∀ {s vs rest}, readItems n s = some (vs, rest) →
    ∃ ws t, Spaces ws ∧ ItemsText vs t ∧ s = ws ++ t ++ ']' :: rest
  members : ∀ {s ms rest}, readMembers n s = some (ms, rest) →
    ∃ ws t, Spaces ws ∧ MembersText ms t ∧ s = ws ++ t ++ '}' :: rest

theorem readValue_sound (h : ReadsSound n) (hread : readValue (n + 1) s = some (v, rest)) :
    ∃ t, Text v t ∧ s = t ++ rest := by
  by_cases hstr : ∃ s', s = '"' :: s'
  · obtain ⟨s', rfl⟩ := hstr
    obtain ⟨⟨x, s''⟩, hx, hread⟩ := Option.map_eq_some_iff.mp hread
    cases hread
    obtain ⟨t, ht, rfl⟩ := readString_iff.mp hx
    exact ⟨_, .str ht, by simp [quoted]⟩
  by_cases harr : ∃ s', s = '[' :: s'
  · obtain ⟨s', rfl⟩ := harr
    rw [readValue.eq_3] at hread
    cases hclose : expect ']' s' with
    | some s'' =>
      simp only [hclose] at hread
      cases hread
      obtain ⟨ws, hws, rfl⟩ := (expect_iff rfl).mp hclose
      exact ⟨_, .empty hws, by simp⟩
    | none =>
      simp only [hclose] at hread
      obtain ⟨⟨vs, s''⟩, hitems, hread⟩ := Option.map_eq_some_iff.mp hread
      cases hread
      obtain ⟨ws, t, hws, ht, rfl⟩ := h.items hitems
      exact ⟨_, .arr hws ht, by simp⟩
  by_cases hobj : ∃ s', s = '{' :: s'
  · obtain ⟨s', rfl⟩ := hobj
    rw [readValue.eq_4] at hread
    cases hclose : expect '}' s' with
    | some s'' =>
      simp only [hclose] at hread
      cases hread
      obtain ⟨ws, hws, rfl⟩ := (expect_iff rfl).mp hclose
      exact ⟨_, .bare hws, by simp⟩
    | none =>
      simp only [hclose] at hread
      obtain ⟨⟨ms, s''⟩, hmembers, hread⟩ := Option.map_eq_some_iff.mp hread
      cases hread
      obtain ⟨ws, t, hws, ht, rfl⟩ := h.members hmembers
      exact ⟨_, .obj hws ht, by simp⟩
  rw [readValue.eq_5 _ _ (fun s' hs => hstr ⟨s', hs⟩) (fun s' hs => harr ⟨s', hs⟩)
    (fun s' hs => hobj ⟨s', hs⟩)] at hread
  exact readWord_sound hread

theorem readItems_sound (h : ReadsSound n) {vs : List Json}
    (hread : readItems (n + 1) s = some (vs, rest)) :
    ∃ ws t, Spaces ws ∧ ItemsText vs t ∧ s = ws ++ t ++ ']' :: rest := by
  obtain ⟨⟨v, s₁⟩, hv, hread⟩ := Option.bind_eq_some_iff.mp hread
  obtain ⟨ws, hws, hs⟩ := exists_skip s
  obtain ⟨t, ht, hskip⟩ := h.value hv
  rw [hs, hskip]
  dsimp only at hread
  cases hclose : expect ']' s₁ with
  | some s₂ =>
    simp only [hclose] at hread
    cases hread
    obtain ⟨ws', hws', rfl⟩ := (expect_iff rfl).mp hclose
    exact ⟨ws, _, hws, .last ht hws', by simp⟩
  | none =>
    simp only [hclose] at hread
    obtain ⟨s₂, hcomma, hread⟩ := Option.bind_eq_some_iff.mp hread
    obtain ⟨⟨vs', s₃⟩, hitems, hread⟩ := Option.bind_eq_some_iff.mp hread
    cases hread
    obtain ⟨ws', hws', rfl⟩ := (expect_iff rfl).mp hcomma
    obtain ⟨ws'', ts, hws'', hts, rfl⟩ := h.items hitems
    exact ⟨ws, _, hws, .cons ht hws' hws'' hts, by simp⟩

theorem readMembers_sound (h : ReadsSound n) {ms : List (String × Json)}
    (hread : readMembers (n + 1) s = some (ms, rest)) :
    ∃ ws t, Spaces ws ∧ MembersText ms t ∧ s = ws ++ t ++ '}' :: rest := by
  obtain ⟨s₁, hquote, hread₁⟩ := Option.bind_eq_some_iff.mp hread
  obtain ⟨⟨key, s₂⟩, hkey, hread₂⟩ := Option.bind_eq_some_iff.mp hread₁
  obtain ⟨s₃, hcolon, hread₃⟩ := Option.bind_eq_some_iff.mp hread₂
  obtain ⟨⟨v, s₄⟩, hv, hread₄⟩ := Option.bind_eq_some_iff.mp hread₃
  obtain ⟨ws, hws, rfl⟩ := (expect_iff rfl).mp hquote
  obtain ⟨k, hk, rfl⟩ := readString_iff.mp hkey
  obtain ⟨ws', hws', rfl⟩ := (expect_iff rfl).mp hcolon
  obtain ⟨ws'', hws'', hs⟩ := exists_skip s₃
  obtain ⟨t, ht, hskip⟩ := h.value hv
  rw [hs, hskip]
  cases hclose : expect '}' s₄ with
  | some s₅ =>
    simp only [hclose] at hread₄
    cases hread₄
    obtain ⟨ws₃, hws₃, rfl⟩ := (expect_iff rfl).mp hclose
    exact ⟨ws, _, hws, .last (.mk hk hws' hws'' ht hws₃), by simp [quoted]⟩
  | none =>
    simp only [hclose] at hread₄
    obtain ⟨s₅, hcomma, hread₅⟩ := Option.bind_eq_some_iff.mp hread₄
    obtain ⟨⟨ms', s₆⟩, hmembers, hread₆⟩ := Option.bind_eq_some_iff.mp hread₅
    cases hread₆
    obtain ⟨ws₃, hws₃, rfl⟩ := (expect_iff rfl).mp hcomma
    obtain ⟨ws₄, ts, hws₄, hts, rfl⟩ := h.members hmembers
    exact ⟨ws, _, hws, .cons (.mk hk hws' hws'' ht hws₃) hws₄ hts, by simp [quoted]⟩

theorem readsSound : ∀ n, ReadsSound n
  | 0 => ⟨fun h => (by cases h), fun h => (by cases h), fun h => (by cases h)⟩
  | n + 1 =>
    have h := readsSound n
    ⟨readValue_sound h, readItems_sound h, readMembers_sound h⟩

/-- A word takes up some text. -/
theorem word_ne_nil (h : word t = some v) : t ≠ [] := by
  rintro rfl
  cases h

theorem not_isSpace_of_isWord {c : Char} (h : isWord c = true) : isSpace c = false := by
  refine Bool.eq_false_iff.mpr fun hc => ?_
  simp only [isSpace, Bool.or_eq_true, beq_iff_eq, or_assoc] at hc
  rcases hc with rfl | rfl | rfl | rfl <;> exact absurd h (by decide)

/-- A text of a value begins with a character that is not white space and closes nothing. -/
theorem Text.head (h : Text v t) : ∃ c t', t = c :: t' ∧ isSpace c = false ∧ c ≠ ']' := by
  cases h with
  | word hchars hword =>
    cases t with
    | nil => exact absurd rfl (word_ne_nil hword)
    | cons c t' =>
      have hc := hchars c List.mem_cons_self
      refine ⟨c, t', rfl, not_isSpace_of_isWord hc, ?_⟩
      rintro rfl
      cases hc
  | str | empty | arr | bare | obj => exact ⟨_, _, rfl, rfl, by decide⟩

theorem ItemsText.head {vs : List Json} (h : ItemsText vs t) :
    ∃ c t', t = c :: t' ∧ isSpace c = false ∧ c ≠ ']' := by
  cases h with
  | last h _ | cons h _ _ _ =>
    obtain ⟨c, t', rfl, hc⟩ := h.head
    exact ⟨c, _, rfl, hc⟩

theorem MembersText.head {ms : List (String × Json)} (h : MembersText ms t) :
    ∃ t', t = '"' :: t' := by
  cases h with
  | last h | cons h _ _ =>
    cases h
    exact ⟨_, rfl⟩

theorem skip_text (h : Text v t) {ws : List Char} (hws : Spaces ws) (s : List Char) :
    skip (ws ++ (t ++ s)) = t ++ s := by
  obtain ⟨c, t', rfl, hc, -⟩ := h.head
  rw [skip_append hws]
  exact skip_cons hc

/-- Texts that are short enough for `n` are read. -/
structure ReadsComplete (n : ℕ) : Prop where
  value : ∀ {v t rest}, Text v t → 2 * t.length ≤ n → Ends rest →
    readValue n (t ++ rest) = some (v, rest)
  items : ∀ {vs ws t rest}, ItemsText vs t → 2 * t.length + 1 ≤ n → Spaces ws →
    readItems n (ws ++ t ++ ']' :: rest) = some (vs, rest)
  members : ∀ {ms ws t rest}, MembersText ms t → 2 * t.length + 1 ≤ n → Spaces ws →
    readMembers n (ws ++ t ++ '}' :: rest) = some (ms, rest)

theorem readValue_complete (hn : ReadsComplete n) (h : Text v t) (hlen : 2 * t.length ≤ n + 1)
    (hends : Ends rest) : readValue (n + 1) (t ++ rest) = some (v, rest) := by
  cases h with
  | word hchars hword =>
    have hread := readWord_complete hchars hword hends
    cases t with
    | nil => exact absurd rfl (word_ne_nil hword)
    | cons c t =>
      have hc := hchars c List.mem_cons_self
      have hne : ∀ c', isWord c' = false → ∀ s', c :: (t ++ rest) = c' :: s' → False := by
        intro c' hc' s' hs
        rw [(List.cons.inj hs).1, hc'] at hc
        cases hc
      rw [List.cons_append, readValue.eq_5 _ _ (hne '"' rfl) (hne '[' rfl) (hne '{' rfl)]
      exact hread
  | str h =>
    rename_i x t
    have hread : readString (t ++ '"' :: rest) = some (x, rest) := readString_iff.mpr ⟨t, h, rfl⟩
    rw [show quoted t ++ rest = '"' :: (t ++ '"' :: rest) by simp [quoted], readValue.eq_2, hread]
    rfl
  | empty hws =>
    rename_i ws
    have hclose : expect ']' (ws ++ ']' :: rest) = some rest := expect_of_spaces hws rfl
    rw [show '[' :: ws ++ [']'] ++ rest = '[' :: (ws ++ ']' :: rest) by simp, readValue.eq_3]
    simp only [hclose]
  | arr hws h =>
    rename_i ws t items
    obtain ⟨c, t', ht, hc, hne⟩ := h.head
    have hclose : expect ']' (ws ++ t ++ ']' :: rest) = none := by
      rw [ht, List.append_assoc, List.cons_append, expect_of_spaces hws hc, if_neg hne]
    have hitems : readItems n (ws ++ t ++ ']' :: rest) = some (items, rest) := by
      refine hn.items h ?_ hws
      simp only [List.length_append, List.length_cons] at hlen
      omega
    rw [show '[' :: ws ++ t ++ [']'] ++ rest = '[' :: (ws ++ t ++ ']' :: rest) by simp,
      readValue.eq_3]
    simp only [hclose, hitems, Option.map_some]
  | bare hws =>
    rename_i ws
    have hclose : expect '}' (ws ++ '}' :: rest) = some rest := expect_of_spaces hws rfl
    rw [show '{' :: ws ++ ['}'] ++ rest = '{' :: (ws ++ '}' :: rest) by simp, readValue.eq_4]
    simp only [hclose]
  | obj hws h =>
    rename_i ws t members
    obtain ⟨t', ht⟩ := h.head
    have hclose : expect '}' (ws ++ t ++ '}' :: rest) = none := by
      rw [ht, List.append_assoc, List.cons_append, expect_of_spaces hws rfl]
      rfl
    have hmembers : readMembers n (ws ++ t ++ '}' :: rest) = some (members, rest) := by
      refine hn.members h ?_ hws
      simp only [List.length_append, List.length_cons] at hlen
      omega
    rw [show '{' :: ws ++ t ++ ['}'] ++ rest = '{' :: (ws ++ t ++ '}' :: rest) by simp,
      readValue.eq_4]
    simp only [hclose, hmembers, Option.map_some]

theorem readItems_complete (hn : ReadsComplete n) {vs : List Json} {ws : List Char}
    (h : ItemsText vs t) (hlen : 2 * t.length + 1 ≤ n + 1) (hws : Spaces ws) :
    readItems (n + 1) (ws ++ t ++ ']' :: rest) = some (vs, rest) := by
  cases h with
  | last h hws' =>
    rename_i v t ws'
    simp only [List.length_append] at hlen
    have hvalue : readValue n (t ++ (ws' ++ ']' :: rest)) = some (v, ws' ++ ']' :: rest) :=
      hn.value h (by omega) (ends_spaces hws' (ends_cons rfl))
    have hclose : expect ']' (ws' ++ ']' :: rest) = some rest := expect_of_spaces hws' rfl
    simp only [readItems, List.append_assoc, skip_text h hws, hvalue, Option.bind_eq_bind,
      Option.bind_some, hclose]
  | cons h hws₁ hws₂ hs =>
    rename_i v vs t ws₁ ws₂ ts
    simp only [List.length_append, List.length_cons] at hlen
    have hvalue : readValue n (t ++ (ws₁ ++ ',' :: (ws₂ ++ (ts ++ ']' :: rest)))) =
        some (v, ws₁ ++ ',' :: (ws₂ ++ (ts ++ ']' :: rest))) :=
      hn.value h (by omega) (ends_spaces hws₁ (ends_cons rfl))
    have hclose : expect ']' (ws₁ ++ ',' :: (ws₂ ++ (ts ++ ']' :: rest))) = none :=
      expect_of_spaces hws₁ rfl
    have hcomma : expect ',' (ws₁ ++ ',' :: (ws₂ ++ (ts ++ ']' :: rest))) =
        some (ws₂ ++ (ts ++ ']' :: rest)) := expect_of_spaces hws₁ rfl
    have hitems : readItems n (ws₂ ++ (ts ++ ']' :: rest)) = some (vs, rest) := by
      rw [← List.append_assoc]
      exact hn.items hs (by omega) hws₂
    simp only [readItems, List.append_assoc, List.cons_append, skip_text h hws, hvalue,
      Option.bind_eq_bind, Option.bind_some, hclose, hcomma, hitems]

/-- A member is read, up to what follows its value. -/
theorem readMember_complete (hn : ReadsComplete n) {key : String} (rest : List Char)
    (h : MemberText (key, v) t) (hlen : 2 * t.length ≤ n) {ws : List Char} (hws : Spaces ws)
    (hends : Ends rest) :
    ∃ s₁ s₂ s₃ ws', expect '"' (ws ++ (t ++ rest)) = some s₁ ∧ readString s₁ = some (key, s₂) ∧
      expect ':' s₂ = some s₃ ∧ Spaces ws' ∧ readValue n (skip s₃) = some (v, ws' ++ rest) := by
  cases h with
  | mk hk hws₁ hws₂ h hws₃ =>
    rename_i k ws₁ ws₂ t ws₃
    simp only [quoted, List.length_append, List.length_cons] at hlen
    have hkey : readString (k ++ '"' :: (ws₁ ++ ':' :: (ws₂ ++ (t ++ (ws₃ ++ rest))))) =
        some (key, ws₁ ++ ':' :: (ws₂ ++ (t ++ (ws₃ ++ rest)))) := readString_iff.mpr ⟨k, hk, rfl⟩
    have hvalue : readValue n (skip (ws₂ ++ (t ++ (ws₃ ++ rest)))) = some (v, ws₃ ++ rest) := by
      rw [skip_text h hws₂]
      exact hn.value h (by omega) (ends_spaces hws₃ hends)
    refine ⟨_, _, _, ws₃, ?_, hkey, expect_of_spaces hws₁ rfl, hws₃, hvalue⟩
    rw [show quoted k ++ ws₁ ++ ':' :: ws₂ ++ t ++ ws₃ ++ rest =
      '"' :: (k ++ '"' :: (ws₁ ++ ':' :: (ws₂ ++ (t ++ (ws₃ ++ rest))))) by simp [quoted]]
    exact expect_of_spaces hws rfl

theorem readMembers_complete (hn : ReadsComplete n) {ms : List (String × Json)} {ws : List Char}
    (h : MembersText ms t) (hlen : 2 * t.length + 1 ≤ n + 1) (hws : Spaces ws) :
    readMembers (n + 1) (ws ++ t ++ '}' :: rest) = some (ms, rest) := by
  cases h with
  | last h =>
    rename_i m
    obtain ⟨s₁, s₂, s₃, ws', hquote, hkey, hcolon, hws', hvalue⟩ :=
      readMember_complete hn ('}' :: rest) h (by omega) hws (ends_cons rfl)
    have hclose : expect '}' (ws' ++ '}' :: rest) = some rest := expect_of_spaces hws' rfl
    simp only [readMembers, List.append_assoc, hquote, hkey, hcolon, hvalue, Option.bind_eq_bind,
      Option.bind_some, hclose]
  | cons h hws₁ hs =>
    rename_i m ms t ws₁ ts
    simp only [List.length_append, List.length_cons] at hlen
    obtain ⟨s₁, s₂, s₃, ws', hquote, hkey, hcolon, hws', hvalue⟩ :=
      readMember_complete hn (',' :: (ws₁ ++ (ts ++ '}' :: rest))) h (by omega) hws
        (ends_cons rfl)
    have hclose : expect '}' (ws' ++ ',' :: (ws₁ ++ (ts ++ '}' :: rest))) = none :=
      expect_of_spaces hws' rfl
    have hcomma : expect ',' (ws' ++ ',' :: (ws₁ ++ (ts ++ '}' :: rest))) =
        some (ws₁ ++ (ts ++ '}' :: rest)) := expect_of_spaces hws' rfl
    have hmembers : readMembers n (ws₁ ++ (ts ++ '}' :: rest)) = some (ms, rest) := by
      rw [← List.append_assoc]
      exact hn.members hs (by omega) hws₁
    simp only [readMembers, List.append_assoc, List.cons_append, hquote, hkey, hcolon, hvalue,
      Option.bind_eq_bind, Option.bind_some, hclose, hcomma, hmembers]

theorem readsComplete : ∀ n, ReadsComplete n
  | 0 => by
    refine ⟨fun h hlen _ => ?_, fun _ hlen => by omega, fun _ hlen => by omega⟩
    obtain ⟨c, t', rfl, -⟩ := h.head
    rw [List.length_cons] at hlen
    omega
  | n + 1 =>
    have hn := readsComplete n
    ⟨readValue_complete hn, readItems_complete hn, readMembers_complete hn⟩

/-- **`loads` reads exactly the texts of a value**, with white space around them. -/
theorem loads_eq_some_iff : loads s = some v ↔ TextOf v s := by
  unfold loads TextOf
  constructor
  · intro h
    obtain ⟨⟨v', rest⟩, hvalue, h⟩ := Option.bind_eq_some_iff.mp h
    dsimp only at h
    split_ifs at h with hrest
    cases h
    obtain ⟨ws, hws, hs⟩ := exists_skip s
    obtain ⟨t, ht, hskip⟩ := (readsSound _).value hvalue
    exact ⟨ws, t, rest, hws, ht, skip_eq_nil_iff.mp hrest, hskip ▸ hs⟩
  · rintro ⟨ws, t, ws', hws, ht, hws', rfl⟩
    have hends : Ends ws' := by
      have h := ends_spaces hws' (s := []) rfl
      rwa [List.append_nil] at h
    have hlen : 2 * t.length ≤ 2 * (ws ++ (t ++ ws')).length + 1 := by
      simp only [List.length_append]
      omega
    have hvalue := (readsComplete _).value ht hlen hends
    rw [skip_text ht hws, hvalue]
    exact if_pos (skip_eq_nil_iff.mpr hws')

/-- A text is the text of one value. -/
theorem TextOf.unique {v' : Json} (h : TextOf v s) (h' : TextOf v' s) : v = v' :=
  Option.some.inj ((loads_eq_some_iff.mpr h).symm.trans (loads_eq_some_iff.mpr h'))

/-- **What is written is read back.** -/
theorem loads_dumps (v : Json) : loads (dumps v) = some v :=
  loads_eq_some_iff.mpr (text_dumps v).textOf

end Values

end Json
