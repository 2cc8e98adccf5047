import Mathlib.Data.Nat.Digits.Lemmas
import Mathlib.Data.List.DropRight
import Mathlib.Data.List.GetD
import Mathlib.Data.List.TakeWhile

/-! Text and numbers as the interpreter converts them.

A `str` is a list of characters. What is here is the part of the built-in types
the programs use: slices, `split`, `int(s, 16)`, `hex`, `"{0:b}".format` and
`zfill`. `paddedDigits_eq` and `intBase16_hexDigits` say what the conversions do
on the inputs the programs give them: a padded number is its digits, high first,
and a run of hexadecimal digits reads as the number it writes. -/
namespace Idic.Python

/-- The exceptions that leave a function. -/
inductive PyError where
  | typeError
  | valueError
  | attributeError
  | keyError
  | indexError
  | zeroDivisionError
  | overflowError
  | unboundLocalError
  | systemExit (code : Int)
  deriving DecidableEq, Repr

theorem ok_bind {α β : Type} (a : α) (f : α → Except PyError β) :
    (Except.ok a >>= f) = f a := rfl

/-- A sequence that returns has run its first part. -/
theorem bind_eq_ok {ε α β : Type} {x : Except ε α} {f : α → Except ε β} {b : β} :
    (x >>= f) = .ok b ↔ ∃ a, x = .ok a ∧ f a = .ok b := by
  cases x with
  | error e => exact ⟨fun h => (by cases h), fun ⟨_, ha, _⟩ => by cases ha⟩
  | ok a => exact ⟨fun h => ⟨a, rfl, h⟩, fun ⟨_, ha, h⟩ => by cases ha; exact h⟩

theorem map_eq_ok {ε α β : Type} {x : Except ε α} {f : α → β} {b : β} :
    x.map f = .ok b ↔ ∃ a, x = .ok a ∧ f a = b := by
  cases x with
  | error e => exact ⟨fun h => (by cases h), fun ⟨_, ha, _⟩ => by cases ha⟩
  | ok a => exact ⟨fun h => ⟨a, rfl, Except.ok.inj h⟩, fun ⟨_, ha, h⟩ => by cases ha; exact congrArg _ h⟩

theorem toOption_eq_some {α : Type} {x : Except PyError α} {a : α} : x.toOption = some a ↔ x = .ok a := by
  cases x with
  | error e => exact ⟨fun h => (by cases h), fun h => (by cases h)⟩
  | ok b => exact ⟨fun h => congrArg Except.ok (Option.some.inj h), fun h => congrArg some (Except.ok.inj h)⟩

theorem mapM_cons_eq_ok {ε α β : Type} {f : α → Except ε β} {a : α} {as : List α} {bs : List β} :
    (a :: as).mapM f = .ok bs ↔ ∃ b rest, f a = .ok b ∧ as.mapM f = .ok rest ∧ bs = b :: rest := by
  rw [List.mapM_cons]
  simp only [bind_eq_ok]
  constructor
  · intro hsome
    obtain ⟨b, hb, rest, hrest, heq⟩ := hsome
    exact ⟨b, rest, hb, hrest, (Except.ok.inj heq).symm⟩
  · intro hsome
    obtain ⟨b, rest, hb, hrest, heq⟩ := hsome
    exact ⟨b, hb, rest, hrest, congrArg Except.ok heq.symm⟩

theorem mapM_ok_length {ε α β : Type} {f : α → Except ε β} {as : List α} {bs : List β}
    (h : as.mapM f = .ok bs) : bs.length = as.length := by
  induction as generalizing bs with
  | nil =>
    cases h
    rfl
  | cons a rest ih =>
    obtain ⟨b, bs', -, hrest, heq⟩ := mapM_cons_eq_ok.mp h
    rw [heq, List.length_cons, List.length_cons, ih hrest]

/-- Every result a computation can return has `P`; what it raises is left open. -/
def Ensures {α : Type} (x : Except PyError α) (P : α → Prop) : Prop := ∀ r, x = .ok r → P r

theorem Ensures.pure {α : Type} {P : α → Prop} {r : α} (h : P r) :
    Ensures (Pure.pure r : Except PyError α) P := by
  intro r' hr
  cases hr
  exact h

/-- A property of the last step of a sequence is a property of the sequence. -/
theorem Ensures.bind {α β : Type} {P : β → Prop} (x : Except PyError α) {f : α → Except PyError β}
    (h : ∀ a, Ensures (f a) P) : Ensures (x >>= f) P := by
  cases x with
  | error e => intro r hr; cases hr
  | ok a => exact h a

theorem Ensures.bindWith {α β : Type} {P : β → Prop} {Q : α → Prop} {x : Except PyError α}
    {f : α → Except PyError β} (hx : Ensures x Q) (h : ∀ a, Q a → Ensures (f a) P) :
    Ensures (x >>= f) P := by
  cases x with
  | error e => intro r hr; cases hr
  | ok a => exact h a (hx a rfl)

abbrev Str := List Char

/-- `s[i:j]`. -/
def slice (s : Str) (i j : Nat) : Str := (s.take j).drop i

/-- `s[i]`. -/
def index {α : Type} (s : List α) (i : Nat) : Except PyError α :=
  match s[i]? with
  | some c => .ok c
  | none => .error .indexError

/-- `d[k]`. -/
def item {κ ν : Type} [BEq κ] (d : List (κ × ν)) (k : κ) : Except PyError ν :=
  match d.lookup k with
  | some v => .ok v
  | none => .error .keyError

/-- The blanks of the C locale. -/
def isSpace (c : Char) : Bool :=
  c = ' ' || c = '\t' || c = '\n' || c = '\x0b' || c = '\x0c' || c = '\r'

/-- `s.split()`: the maximal runs of characters that are not blank. -/
def split (s : Str) : List Str := (s.splitOnP isSpace).filter (fun t => t ≠ [])

/-- `re.split` at the runs of separators: a run at an end leaves an empty text there. -/
def reSplit (isSeparator : Char → Bool) (s : Str) : List Str :=
  match s.splitOnP isSeparator with
  | [] => []
  | first :: rest =>
    match rest.getLast? with
    | none => [first]
    | some last => first :: (rest.dropLast.filter (fun t => t ≠ []) ++ [last])

def strip (s : Str) : Str := (s.dropWhile isSpace).rdropWhile isSpace

/-! ### Reading a number -/

def hexDigit? (c : Char) : Option Nat :=
  if '0' ≤ c ∧ c ≤ '9' then some (c.toNat - '0'.toNat)
  else if 'a' ≤ c ∧ c ≤ 'f' then some (c.toNat - 'a'.toNat + 10)
  else if 'A' ≤ c ∧ c ≤ 'F' then some (c.toNat - 'A'.toNat + 10)
  else none

def IsHexDigit (c : Char) : Prop := (hexDigit? c).isSome

instance (c : Char) : Decidable (IsHexDigit c) := inferInstanceAs (Decidable ((hexDigit? c).isSome))

def AllHexDigits (s : Str) : Prop := ∀ c ∈ s, IsHexDigit c

instance (s : Str) : Decidable (AllHexDigits s) := List.decidableBAll IsHexDigit s

def hexValue (c : Char) : Nat := (hexDigit? c).getD 0

/-- The number a run of hexadecimal digits writes, high digit first. -/
def hexNumber (s : Str) : Nat := Nat.ofDigits 16 (s.reverse.map hexValue)

def natOfHex (s : Str) : Option Nat :=
  if s ≠ [] ∧ AllHexDigits s then some (hexNumber s) else none

/-- The optional `0x` in front of the digits. -/
def dropHexPrefix : Str → Str
  | '0' :: 'x' :: t => t
  | '0' :: 'X' :: t => t
  | t => t

/-- `int(s, 16)`: blanks around, a sign, blanks again, a prefix, and the digits. -/
def intBase16 (s : Str) : Except PyError Int :=
  let read (negative : Bool) (t : Str) : Except PyError Int :=
    match natOfHex (dropHexPrefix (t.dropWhile isSpace)) with
    | some n => .ok (if negative then -n else n)
    | none => .error .valueError
  match strip s with
  | '-' :: t => read true t
  | '+' :: t => read false t
  | t => read false t

/-- `int(s)`: blanks around, a sign, blanks again, and decimal digits. -/
def intBase10 (s : Str) : Except PyError Int :=
  let read (negative : Bool) (t : Str) : Except PyError Int :=
    let t := t.dropWhile isSpace
    if t ≠ [] ∧ t.all (fun c => '0' ≤ c && c ≤ '9') then
      let n := Nat.ofDigits 10 (t.reverse.map hexValue)
      .ok (if negative then -n else n)
    else .error .valueError
  match strip s with
  | '-' :: t => read true t
  | '+' :: t => read false t
  | t => read false t

/-- `int(c)` of one character. -/
def intOfDigit (c : Char) : Except PyError Int :=
  if '0' ≤ c ∧ c ≤ '9' then .ok (c.toNat - '0'.toNat : Nat) else .error .valueError

/-! ### Writing a number -/

/-- The digits of a number in base `b`, high first, with no padding. -/
def digits (b n : Nat) : Str :=
  if n = 0 then ['0'] else (Nat.digits b n).reverse.map Nat.digitChar

/-- `hex(n)`. -/
def hex (n : Int) : Str :=
  (if n < 0 then ['-'] else []) ++ '0' :: 'x' :: digits 16 n.natAbs

/-- `str(n)`. -/
def decimal (n : Int) : Str := (if n < 0 then ['-'] else []) ++ digits 10 n.natAbs

/-- `hex(n)`, where the number may be beyond the machine's and is marked as long. -/
def hexLong (n : Int) : Str := hex n ++ if -2 ^ 63 ≤ n ∧ n < 2 ^ 63 then [] else ['L']

/-- `' '.join(words)`. -/
def unwords (words : List Str) : Str := (words.intersperse [' ']).flatten

/-- `"{0:b}".format(n)`. -/
def formatBinary (n : Int) : Str := (if n < 0 then ['-'] else []) ++ digits 2 n.natAbs

/-- `s.zfill(w)`. -/
def zfill (w : Nat) (s : Str) : Str :=
  let fill := List.replicate (w - s.length) '0'
  match s with
  | '-' :: t => '-' :: (fill ++ t)
  | '+' :: t => '+' :: (fill ++ t)
  | t => fill ++ t

/-! ### What the conversions do -/

theorem digits_head (b n : Nat) (hb : 1 < b) (hb' : b ≤ 16) :
    ∀ c ∈ digits b n, c ≠ '-' ∧ c ≠ '+' := by
  have hchar : ∀ d < 16, Nat.digitChar d ≠ '-' ∧ Nat.digitChar d ≠ '+' := by decide
  intro c hc
  unfold digits at hc
  split at hc
  · rw [List.mem_singleton.mp hc]
    decide
  · obtain ⟨d, hd, rfl⟩ := List.mem_map.mp hc
    have := Nat.digits_lt_base hb (List.mem_reverse.mp hd)
    exact hchar d (by omega)

theorem zfill_of_no_sign (w : Nat) (s : Str) (h : ∀ c ∈ s, c ≠ '-' ∧ c ≠ '+') :
    zfill w s = List.replicate (w - s.length) '0' ++ s := by
  unfold zfill
  split
  · exact absurd rfl (h '-' (List.mem_cons_self ..)).1
  · exact absurd rfl (h '+' (List.mem_cons_self ..)).2
  · rfl

/-- The `i`-th digit of a number, counted from the low end. -/
def digitAt (b n i : Nat) : Char := Nat.digitChar (n / b ^ i % b)

theorem digits_length_le (b n w : Nat) (hb : 1 < b) (hw : 0 < w) (hn : n < b ^ w) :
    (digits b n).length ≤ w := by
  unfold digits
  split
  · exact hw
  · simpa using (Nat.digits_length_le_iff hb n).mpr hn

theorem digits_reverse_getD (b n i : Nat) (hb : 1 < b) :
    (digits b n).reverse.getD i '0' = digitAt b n i := by
  unfold digits digitAt
  split
  · next h =>
    subst h
    cases i <;> simp [Nat.digitChar]
  · have h0 : ('0' : Char) = Nat.digitChar 0 := rfl
    rw [← List.map_reverse, List.reverse_reverse, h0, List.getD_map, Nat.getD_digits n i hb]

/-- A number padded to `w` places is its `w` low digits, high first. -/
theorem paddedDigits_eq (b n w : Nat) (hb : 1 < b) (hb' : b ≤ 16) (hw : 0 < w) (hn : n < b ^ w) :
    zfill w (digits b n) = ((List.range w).map (digitAt b n)).reverse := by
  have hlen := digits_length_le b n w hb hw hn
  rw [zfill_of_no_sign w _ (digits_head b n hb hb'), ← List.reverse_inj, List.reverse_reverse,
    List.reverse_append, List.reverse_replicate]
  apply List.ext_getElem
  · simp
    omega
  · intro i hi hi'
    have hget := digits_reverse_getD b n i hb
    simp only [List.getElem_map, List.getElem_range]
    rw [← hget]
    by_cases h : i < (digits b n).reverse.length
    · rw [List.getElem_append_left h, List.getD_eq_getElem _ _ h]
    · rw [List.getElem_append_right (by omega), List.getElem_replicate,
        List.getD_eq_default _ _ (by omega)]

/-! ### Runs of hexadecimal digits -/

theorem hexDigit?_digitChar : ∀ d < 16, hexDigit? (Nat.digitChar d) = some d := by decide

theorem isHexDigit_digitChar (d : Nat) (h : d < 16) : IsHexDigit (Nat.digitChar d) := by
  simp [IsHexDigit, hexDigit?_digitChar d h]

theorem hexValue_digitChar (d : Nat) (h : d < 16) : hexValue (Nat.digitChar d) = d := by
  simp [hexValue, hexDigit?_digitChar d h]

theorem hexValue_lt (c : Char) : hexValue c < 16 := by
  have hle (a b : Char) : a ≤ b ↔ a.toNat ≤ b.toNat := Iff.rfl
  simp only [hexValue, hexDigit?, hle]
  split
  · next h =>
    have h9 : c.toNat ≤ 57 := h.2
    show c.toNat - 48 < 16
    omega
  split
  · next h =>
    have hf : c.toNat ≤ 102 := h.2
    show c.toNat - 97 + 10 < 16
    omega
  split
  · next h =>
    have hF : c.toNat ≤ 70 := h.2
    show c.toNat - 65 + 10 < 16
    omega
  · exact Nat.zero_lt_succ 15

theorem IsHexDigit.not_space {c : Char} (h : IsHexDigit c) : isSpace c = false := by
  by_contra hs
  simp only [Bool.not_eq_false, isSpace, Bool.or_eq_true, decide_eq_true_eq] at hs
  rcases hs with ((((rfl | rfl) | rfl) | rfl) | rfl) | rfl <;> exact absurd h (by decide)

theorem dropWhile_of_not_space (s : Str) (h : ∀ c ∈ s, isSpace c = false) :
    s.dropWhile isSpace = s := by
  rw [List.dropWhile_eq_self_iff]
  intro hl
  simp [h _ (List.getElem_mem hl)]

theorem strip_of_not_space (s : Str) (h : ∀ c ∈ s, isSpace c = false) : strip s = s := by
  rw [strip, dropWhile_of_not_space s h, List.rdropWhile_eq_self_iff]
  intro hl
  simp [h _ (List.getLast_mem hl)]

theorem dropHexPrefix_of_hexDigits (s : Str) (h : AllHexDigits s) :
    dropHexPrefix s = s := by
  unfold dropHexPrefix
  split
  · exact absurd (h 'x' (by simp)) (by decide)
  · exact absurd (h 'X' (by simp)) (by decide)
  · rfl

/-- A nonempty run of hexadecimal digits reads as the number it writes. -/
theorem intBase16_hexDigits (s : Str) (hne : s ≠ []) (h : AllHexDigits s) :
    intBase16 s = .ok (hexNumber s : Int) := by
  have hblank : ∀ c ∈ s, isSpace c = false := fun c hc => (h c hc).not_space
  have hnat : natOfHex (dropHexPrefix (s.dropWhile isSpace)) = some (hexNumber s) := by
    rw [dropWhile_of_not_space s hblank, dropHexPrefix_of_hexDigits s h, natOfHex, if_pos ⟨hne, h⟩]
  unfold intBase16
  rw [strip_of_not_space s hblank]
  split
  · exact absurd (h '-' (List.mem_cons_self ..)) (by decide)
  · exact absurd (h '+' (List.mem_cons_self ..)) (by decide)
  · simp [hnat]

theorem digits_hexDigits (n : Nat) : AllHexDigits (digits 16 n) := by
  intro c hc
  unfold digits at hc
  split at hc
  · rw [List.mem_singleton.mp hc]
    decide
  · obtain ⟨d, hd, rfl⟩ := List.mem_map.mp hc
    exact isHexDigit_digitChar d (Nat.digits_lt_base (by decide) (List.mem_reverse.mp hd))

/-- The digits of a number write the number. -/
theorem ofDigits_digits_text (b n : Nat) (hb : 1 < b) (hb' : b ≤ 16) :
    Nat.ofDigits b ((digits b n).reverse.map hexValue) = n := by
  unfold digits
  split
  · next h =>
    rw [h]
    rfl
  · have hvalues : (Nat.digits b n).map (hexValue ∘ Nat.digitChar) = Nat.digits b n := by
      conv_rhs => rw [← List.map_id (Nat.digits b n)]
      apply List.map_congr_left
      intro d hd
      exact hexValue_digitChar d ((Nat.digits_lt_base hb hd).trans_le hb')
    rw [← List.map_reverse, List.reverse_reverse, List.map_map, hvalues, Nat.ofDigits_digits]

theorem hexNumber_digits (n : Nat) : hexNumber (digits 16 n) = n :=
  ofDigits_digits_text 16 n (by decide) (by decide)

/-- `int(hex(n), 16)` is `n`. -/
theorem intBase16_hex (n : Nat) : intBase16 (hex n) = .ok (n : Int) := by
  have hhex : hex n = '0' :: 'x' :: digits 16 n := by
    rw [hex, if_neg (by omega)]
    rfl
  have hdigits := digits_hexDigits n
  have hne : digits 16 n ≠ [] := by
    unfold digits
    split
    · exact List.cons_ne_nil _ _
    · next h => simpa [Nat.digits_ne_nil_iff_ne_zero] using h
  have hblank : ∀ c ∈ '0' :: 'x' :: digits 16 n, isSpace c = false := by
    intro c hc
    rcases List.mem_cons.mp hc with rfl | hc
    · rfl
    rcases List.mem_cons.mp hc with rfl | hc
    · rfl
    · exact (hdigits c hc).not_space
  have hread : natOfHex (digits 16 n) = some n := by
    rw [natOfHex, if_pos ⟨hne, hdigits⟩, hexNumber_digits]
  have hmarked : natOfHex (dropHexPrefix (('0' :: 'x' :: digits 16 n).dropWhile isSpace)) = some n := by
    rw [dropWhile_of_not_space _ hblank]
    exact hread
  rw [hhex, intBase16, strip_of_not_space _ hblank]
  show (match natOfHex (dropHexPrefix (('0' :: 'x' :: digits 16 n).dropWhile isSpace)) with
    | some n => Except.ok (if false = true then -(n : Int) else n)
    | none => .error PyError.valueError) = _
  rw [hmarked]
  rfl

/-! ### What is read as a number -/

theorem natOfHex_eq_some {s : Str} {n : Nat} (h : natOfHex s = some n) :
    s ≠ [] ∧ AllHexDigits s := by
  unfold natOfHex at h
  split at h
  · assumption
  · cases h

theorem dropHexPrefix_eq (s : Str) :
    ∃ marker ∈ [[], ['0', 'x'], ['0', 'X']], s = marker ++ dropHexPrefix s := by
  unfold dropHexPrefix
  split
  · exact ⟨['0', 'x'], by simp, rfl⟩
  · exact ⟨['0', 'X'], by simp, rfl⟩
  · exact ⟨[], by simp, rfl⟩

/-- A text without blanks that `int(s, 16)` accepts. -/
theorem intBase16_isOk {s : Str} (hblank : ∀ c ∈ s, isSpace c = false)
    (h : (intBase16 s).isOk = true) :
    ∃ sign ∈ [[], ['-'], ['+']], ∃ marker ∈ [[], ['0', 'x'], ['0', 'X']], ∃ t,
      s = sign ++ (marker ++ t) ∧ t ≠ [] ∧ AllHexDigits t := by
  have hread (negative : Bool) (sign t : Str) (hs : s = sign ++ t) (hsign : sign ∈ [[], ['-'], ['+']])
      (hok : (match natOfHex (dropHexPrefix (t.dropWhile isSpace)) with
        | some n => Except.ok (if negative then -n else n : Int)
        | none => .error PyError.valueError).isOk = true) :
      ∃ sign ∈ [[], ['-'], ['+']], ∃ marker ∈ [[], ['0', 'x'], ['0', 'X']], ∃ t,
        s = sign ++ (marker ++ t) ∧ t ≠ [] ∧ AllHexDigits t := by
    rw [dropWhile_of_not_space t fun c hc => hblank c (by simp [hs, hc])] at hok
    obtain ⟨marker, hmarker, heq⟩ := dropHexPrefix_eq t
    cases hn : natOfHex (dropHexPrefix t) with
    | none =>
      rw [hn] at hok
      cases hok
    | some n =>
      obtain ⟨hne, hdigits⟩ := natOfHex_eq_some hn
      exact ⟨sign, hsign, marker, hmarker, _, by rw [hs, ← heq], hne, hdigits⟩
  unfold intBase16 at h
  rw [strip_of_not_space s hblank] at h
  split at h
  · exact hread true ['-'] _ rfl (by simp) h
  · exact hread false ['+'] _ rfl (by simp) h
  · exact hread false [] s rfl (by simp) h

/-- Four characters that are read as a number, seen from both ends. -/
theorem intBase16_four {a b c d : Char} (hblank : ∀ x ∈ [a, b, c, d], isSpace x = false)
    (h : (intBase16 [a, b, c, d]).isOk = true) :
    (a ≠ 'x' ∧ a ≠ 'X') ∧ (IsHexDigit c ∨ c = 'x' ∨ c = 'X') ∧ IsHexDigit d := by
  obtain ⟨sign, hsign, marker, hmarker, t, heq, -, hdigits⟩ := intBase16_isOk hblank h
  unfold AllHexDigits at hdigits
  have hx : ¬ IsHexDigit 'x' := by decide
  have hX : ¬ IsHexDigit 'X' := by decide
  simp only [List.mem_cons, List.not_mem_nil, or_false] at hsign hmarker
  rcases hsign with rfl | rfl | rfl <;> rcases hmarker with rfl | rfl | rfl <;>
    simp only [List.cons_append, List.nil_append, List.cons.injEq] at heq <;> grind

theorem intBase16_marked {t : Str} (hblank : ∀ x ∈ '0' :: 'x' :: t, isSpace x = false)
    (h : (intBase16 ('0' :: 'x' :: t)).isOk = true) : AllHexDigits t := by
  obtain ⟨sign, hsign, marker, hmarker, t, heq, -, hdigits⟩ := intBase16_isOk hblank h
  unfold AllHexDigits at hdigits ⊢
  have hx : ¬ IsHexDigit 'x' := by decide
  simp only [List.mem_cons, List.not_mem_nil, or_false] at hsign hmarker
  rcases hsign with rfl | rfl | rfl <;> rcases hmarker with rfl | rfl | rfl <;>
    simp only [List.cons_append, List.nil_append, List.cons.injEq] at heq <;> grind

end Idic.Python
