import Idic.Kconfig.Reading

/-! A configuration that is read back.

Under a solution the file is a list of lines, and what each of them does when it is read
is known. So what has been written is read back as values of the user that have the same
solution (`confRead_confWrite`), and is written again as it was. -/
namespace Idic.Kconfig
open Python (Str)
open Memo (Prog)

variable {σ : Type}

theorem unescape_escape (str rest : Str) : unescape (escape str ++ '"' :: rest) = some str := by
  induction str with
  | nil => rfl
  | cons ch str ih =>
    rw [escape]
    split
    · rw [List.cons_append, List.cons_append, unescape, ih]
      rfl
    · next h =>
      obtain ⟨hquote, hslash⟩ := not_or.mp h
      rw [List.cons_append, unescape, ih]
      · rfl
      · exact hquote
      · exact fun h _ => hslash h
      · exact fun _ _ h _ => hslash h

theorem newline_not_mem_escape {str : Str} (h : '\n' ∉ str) : '\n' ∉ escape str := by
  induction str with
  | nil => exact h
  | cons ch str ih =>
    obtain ⟨hch, hstr⟩ := not_or.mp (mt List.mem_cons.mpr h)
    rw [escape]
    split <;> simp [hch, ih hstr]

/-- A name that is taken for one in the file. -/
structure IsName (name : Str) : Prop where
  head : ∃ ch rest, name = ch :: rest ∧ 'A' ≤ ch ∧ ch ≤ 'Z'
  clean : ∀ ch ∈ name, ch ≠ '=' ∧ ch ≠ ' ' ∧ ch ≠ '\n'

/-- What is before the first of a character that is not in it. -/
theorem takeWhile_before {name : Str} {ch : Char} (h : ∀ c ∈ name, c ≠ ch) (rest : Str) :
    (name ++ ch :: rest).takeWhile (· ≠ ch) = name := by
  rw [List.takeWhile_append_of_pos (by simpa using h), List.takeWhile_cons_of_neg (by simp), List.append_nil]

theorem dropWhile_before {name : Str} {ch : Char} (h : ∀ c ∈ name, c ≠ ch) (rest : Str) :
    (name ++ ch :: rest).dropWhile (· ≠ ch) = ch :: rest := by
  rw [List.dropWhile_append_of_pos (by simpa using h), List.dropWhile_cons_of_neg (by simp)]

section Read
variable [DecidableEq σ] {T : Table σ} {user : σ → User} {s : σ}

omit [DecidableEq σ] in
theorem symFind_name (hunique : Function.Injective T.name) (hname : IsName (T.name s)) :
    symFind T (T.name s) = some s := by
  have hbuiltIn : builtIn (T.name s) = false := by
    obtain ⟨ch, rest, hhead, -, hle⟩ := hname.head
    have hne : ∀ c : Char, 'Z' < c → T.name s ≠ [c] := by
      rintro c hc heq
      rw [hhead] at heq
      cases heq
      exact absurd hle (Char.not_le.mpr hc)
    simp [builtIn, hne 'y' (by decide), hne 'm' (by decide), hne 'n' (by decide)]
  obtain ⟨s', hs'⟩ : ∃ s', T.symbols.find? (fun s' => T.name s' = T.name s) = some s' :=
    Option.isSome_iff_exists.mp (List.find?_isSome.mpr ⟨s, T.mem_symbols s, by simp⟩)
  have heq : T.name s' = T.name s := by simpa using List.find?_some hs'
  rw [symFind, hbuiltIn, if_neg Bool.false_ne_true, hs', hunique heq]

theorem readLine_unset (hunique : Function.Injective T.name) (hname : IsName (T.name s))
    (htype : T.type s = .boolean ∨ T.type s = .tristate) :
    readLine T user ("# ".toList ++ T.name s ++ " is not set\n".toList) =
      some (Function.update user s {user s with isNew := false, tri := .no}) := by
  have hspace : ∀ c ∈ T.name s, c ≠ ' ' := fun c hc => (hname.clean c hc).2.1
  have hunset : unsetName (T.name s ++ " is not set\n".toList) = some (T.name s) := by
    have hdrop := dropWhile_before hspace "is not set\n".toList
    have htake := takeWhile_before hspace "is not set\n".toList
    show unsetName (T.name s ++ ' ' :: "is not set\n".toList) = _
    rw [unsetName, hdrop, htake]
    rfl
  show readLine T user ('#' :: ' ' :: (T.name s ++ " is not set\n".toList)) = _
  rw [readLine, hunset, Option.bind_some, symFind_name hunique hname]
  exact if_pos htype

theorem readLine_assign (hunique : Function.Injective T.name) (hname : IsName (T.name s)) {p : Str}
    (hp : '\n' ∉ p) :
    readLine T user (T.name s ++ '=' :: (p ++ ['\n'])) =
      (assign (T.type s) (user s) p).map (Function.update user s) := by
  have hequal : ∀ c ∈ T.name s, c ≠ '=' := fun c hc => (hname.clean c hc).1
  have hdrop := dropWhile_before hequal (p ++ ['\n'])
  have htake := takeWhile_before hequal (p ++ ['\n'])
  have hline : ∀ c ∈ p, c ≠ '\n' := fun c hc heq => hp (heq ▸ hc)
  have hvalue : (p ++ ['\n']).takeWhile (· ≠ '\n') = p := takeWhile_before hline []
  obtain ⟨ch, rest, hhead, hge, hle⟩ := hname.head
  have hmark : ch ≠ '#' := by rintro rfl; exact absurd hge (by decide)
  rw [hhead, List.cons_append] at hdrop htake ⊢
  unfold readLine
  split
  · next heq => exact absurd (List.cons.inj heq).1 hmark
  · next heq =>
    cases heq
    rw [if_pos ⟨hge, hle⟩, hdrop, htake, ← hhead, symFind_name hunique hname]
    simp only [hvalue]
  · next heq => cases heq

end Read

section Symbol
variable (T : Table σ)

/-- The line of a symbol, if it has one. -/
def symbolLines (s : σ) (c : Cell) : List Str := if symbolText T s c = [] then [] else [symbolText T s c]

/-- What is read back of a symbol. -/
def readBack (s : σ) (c : Cell) (user : User) : User :=
  match T.getType s with
  | .boolean | .tristate => {user with isNew := false, tri := c.tri}
  | .int | .hex | .string => {user with isNew := false, val := some c.val}
  | .unknown | .other => user

/-- A symbol that can be read back: its value is a valid one on one line. -/
structure Readable (s : σ) (c : Cell) : Prop where
  name : IsName (T.name s)
  tri : T.getType s = .boolean ∨ T.getType s = .tristate → c.tri ≠ .mod
  line : (T.type s).isText = true → '\n' ∉ c.val
  valid : (T.type s).isText = true → stringValid (T.type s) c.val = true

variable {T} {s : σ} {c : Cell}

theorem readBack_taken {u : User} (h : (T.type s).isKnown = true) :
    (readBack T s c u).isNew = false ∧ ((T.type s).isText = false → (readBack T s c u).tri = c.tri) ∧
      ((T.type s).isText = true → (readBack T s c u).val = some c.val) := by
  unfold readBack
  rw [← isText_getType]
  have hknown : (T.getType s).isKnown = true := by
    unfold Table.getType
    split
    · split <;> rfl
    · exact h
  cases htype : T.getType s <;> simp_all [SymbolType.isText, SymbolType.isKnown]

theorem type_of_getType (h : T.getType s = .boolean ∨ T.getType s = .tristate) :
    T.type s = .boolean ∨ T.type s = .tristate := by
  unfold Table.getType at h
  split at h
  · next htype => exact .inr htype
  · exact h

theorem type_eq_getType (h : (T.getType s).isText = true) : T.type s = T.getType s := by
  unfold Table.getType at h ⊢
  split at h
  · split at h <;> cases h
  · rfl

variable [DecidableEq σ] {user : σ → User}

theorem foldlM_symbolLines (hunique : Function.Injective T.name) (h : Readable T s c) :
    (symbolLines T s c).foldlM (readLine T) user =
      some (Function.update user s (readBack T s c (user s))) := by
  have hone : ∀ {line : Str}, symbolText T s c = line → line ≠ [] →
      (symbolLines T s c).foldlM (readLine T) user = readLine T user line := by
    rintro line rfl hne
    simp [symbolLines, hne]
  cases htype : T.getType s with
  | unknown | other =>
    have hnil : symbolText T s c = [] := by simp only [symbolText, htype]
    have hback : readBack T s c (user s) = user s := by simp only [readBack, htype]
    rw [symbolLines, if_pos hnil, hback, Function.update_eq_self]
    rfl
  | boolean | tristate =>
    have hback : readBack T s c (user s) = {user s with isNew := false, tri := c.tri} := by
      simp only [readBack, htype]
    have hor : T.getType s = .boolean ∨ T.getType s = .tristate := by rw [htype]; decide
    have hplain := type_of_getType hor
    cases htri : c.tri with
    | no =>
      have htext : symbolText T s c = "# ".toList ++ T.name s ++ " is not set\n".toList := by
        simp only [symbolText, htype, htri]
      rw [hone htext (by simp), readLine_unset hunique h.name hplain, hback, htri]
    | mod => exact absurd htri (h.tri hor)
    | yes =>
      have htext : symbolText T s c = T.name s ++ '=' :: (['y'] ++ ['\n']) := by
        simp only [symbolText, htype, htri]
        rfl
      have hassign : assign (T.type s) (user s) ['y'] = some {user s with isNew := false, tri := .yes} := by
        rcases hplain with hplain | hplain <;> rw [hplain] <;> rfl
      rw [hone htext (by simp), readLine_assign hunique h.name (by decide), hassign, hback, htri]
      rfl
  | int | hex =>
    have hback : readBack T s c (user s) = {user s with isNew := false, val := some c.val} := by
      simp only [readBack, htype]
    have hplain : T.type s = T.getType s := (type_eq_getType (by rw [htype]; rfl)).trans rfl
    have hvalid : stringValid (T.type s) c.val = true := h.valid (by rw [hplain, htype]; rfl)
    have hne : c.val ≠ [] := by
      intro hnil
      rw [hplain, htype, hnil] at hvalid
      cases hvalid
    have htext : symbolText T s c = T.name s ++ '=' :: (c.val ++ ['\n']) := by
      simp only [symbolText, htype, if_neg hne, List.append_assoc, List.cons_append,
        List.nil_append]
    have hassign : assign (T.type s) (user s) c.val = some {user s with isNew := false, val := some c.val} := by
      rw [hplain, htype] at hvalid ⊢
      exact if_pos hvalid
    rw [hone htext (by simp), readLine_assign hunique h.name (h.line (by rw [hplain, htype]; rfl)), hassign, hback]
    rfl
  | string =>
    have hback : readBack T s c (user s) = {user s with isNew := false, val := some c.val} := by
      simp only [readBack, htype]
    have hplain : T.type s = T.getType s := (type_eq_getType (by rw [htype]; rfl)).trans rfl
    have htext : symbolText T s c = T.name s ++ '=' :: (('"' :: (escape c.val ++ ['"'])) ++ ['\n']) := by
      simp only [symbolText, htype, List.append_assoc, List.cons_append]
      rfl
    have hassign : assign (T.type s) (user s) ('"' :: (escape c.val ++ ['"'])) =
        some {user s with isNew := false, val := some c.val} := by
      rw [hplain, htype]
      show (unescape (escape c.val ++ ['"'])).map _ = _
      rw [unescape_escape]
      rfl
    have hline : '\n' ∉ '"' :: (escape c.val ++ ['"']) := by
      have hescape := newline_not_mem_escape (h.line (by rw [hplain, htype]; rfl))
      simp [hescape]
    rw [hone htext (by simp), readLine_assign hunique h.name hline, hassign, hback]
    rfl

end Symbol

section Entries
variable (T : Table σ)

def titleLines (text : Str) : List Str := [['\n'], "#\n".toList, "# ".toList ++ text ++ ['\n'], "#\n".toList]

def headerLines : List Str :=
  ["#\n".toList, "# Automatically generated make config: don't edit\n".toList, "#\n".toList]

/-- A line, with its newline. -/
def OneLine (line : Str) : Prop := ∃ text, line = text ++ ['\n'] ∧ '\n' ∉ text

/-- A title that is not taken for a symbol that is not set. -/
structure IsTitle (text : Str) : Prop where
  line : '\n' ∉ text
  plain : unsetName (text ++ ['\n']) = none

/-- The entries have one for the symbol itself. -/
def Named (ms : List (Entry σ)) (s : σ) : Prop := ∃ m ∈ ms, m.sym = some s ∧ m.choice = false

theorem named_cons {m : Entry σ} {ms : List (Entry σ)} {s : σ} :
    Named (m :: ms) s ↔ (m.sym = some s ∧ m.choice = false) ∨ Named ms s := by
  simp [Named]

variable [DecidableEq σ] (sol : σ → Cell)

/-- The lines that are written for the entries, under the values of the symbols. -/
def entryLines : List (Entry σ) → List σ → List Str
  | [], _ => []
  | m :: ms, written =>
    match m.sym with
    | none =>
      (if (calcShown T m).value sol ≠ .no then titleLines m.text else []) ++ entryLines ms written
    | some s =>
      if m.choice then entryLines ms written
      else (if s ∈ written then [] else symbolLines T s (sol s)) ++ entryLines ms (s :: written)

theorem value_writeEntries (ms : List (Entry σ)) (written : List σ) :
    (writeEntries T ms written).value sol = (entryLines T sol ms written).flatten := by
  have htitle : ∀ text, titleText text = (titleLines text).flatten := by
    intro text
    simp only [titleText, titleLines, List.flatten_cons, List.flatten_nil, List.append_assoc, List.append_nil]
    rfl
  have hsymbol : ∀ s c, symbolText T s c = (symbolLines T s c).flatten := by
    intro s c
    unfold symbolLines
    split
    · next h => rw [h]; rfl
    · exact (List.append_nil _).symm
  induction ms generalizing written with
  | nil => rfl
  | cons m ms ih =>
    rw [writeEntries, entryLines]
    cases m.sym with
    | none =>
      simp only [Prog.value_bind, Prog.value_pure, ih, List.flatten_append]
      split
      · rw [htitle]
      · rfl
    | some s =>
      dsimp only
      split
      · exact ih written
      · simp only [Prog.value_bind, Prog.value_get, Prog.value_pure, ih, List.flatten_append]
        split
        · rfl
        · rw [hsymbol]

end Entries

section Fold
variable {T : Table σ} [DecidableEq σ] {sol : σ → Cell}

theorem foldlM_plain {ls : List Str} {user : σ → User} (h : ∀ line ∈ ls, readLine T user line = some user) :
    ls.foldlM (readLine T) user = some user := by
  induction ls with
  | nil => rfl
  | cons line ls ih =>
    obtain ⟨hline, hls⟩ := List.forall_mem_cons.mp h
    rw [List.foldlM_cons, hline]
    exact ih hls

theorem foldlM_headerLines (user : σ → User) : headerLines.foldlM (readLine T) user = some user := by
  refine foldlM_plain fun line hline => ?_
  simp only [headerLines, List.mem_cons, List.not_mem_nil, or_false] at hline
  rcases hline with rfl | rfl | rfl <;> rfl

theorem foldlM_titleLines {text : Str} (htext : IsTitle text) (user : σ → User) :
    (titleLines text).foldlM (readLine T) user = some user := by
  refine foldlM_plain fun line hline => ?_
  simp only [titleLines, List.mem_cons, List.not_mem_nil, or_false] at hline
  rcases hline with rfl | rfl | rfl | rfl
  · rfl
  · rfl
  · show readLine T user ('#' :: ' ' :: (text ++ ['\n'])) = _
    rw [readLine, htext.plain]
    rfl
  · rfl

/-- A symbol is read back when it is among what is written, and others stay. -/
theorem foldlM_entryLines (hunique : Function.Injective T.name) (ms : List (Entry σ))
    (hread : ∀ s, Named ms s → Readable T s (sol s)) (htitle : ∀ m ∈ ms, m.sym = none → IsTitle m.text)
    (written : List σ) (user : σ → User) :
    ∃ user', (entryLines T sol ms written).foldlM (readLine T) user = some user' ∧
      (∀ s, Named ms s → s ∉ written → user' s = readBack T s (sol s) (user s)) ∧
      ∀ s, ¬ Named ms s ∨ s ∈ written → user' s = user s := by
  induction ms generalizing written user with
  | nil => exact ⟨user, rfl, fun s ⟨m, hm, _⟩ => absurd hm List.not_mem_nil, fun _ _ => rfl⟩
  | cons m ms ih =>
    have ih := ih (fun s hs => hread s (named_cons.mpr (.inr hs)))
      (fun m' hm' => htitle m' (List.mem_cons_of_mem m hm'))
    -- an entry that writes nothing of a symbol
    have hpass : ∀ ls : List Str, ls.foldlM (readLine T) user = some user →
        (∀ s, Named (m :: ms) s ↔ Named ms s) →
        ∃ user', (ls ++ entryLines T sol ms written).foldlM (readLine T) user = some user' ∧
          (∀ s, Named (m :: ms) s → s ∉ written → user' s = readBack T s (sol s) (user s)) ∧
          ∀ s, ¬ Named (m :: ms) s ∨ s ∈ written → user' s = user s := by
      intro ls hls hnamed
      obtain ⟨user', hfold, hback, hsame⟩ := ih written user
      refine ⟨user', ?_, fun s hs => hback s ((hnamed s).mp hs), fun s hs => hsame s ?_⟩
      · rw [List.foldlM_append, hls]
        exact hfold
      · rwa [hnamed] at hs
    rw [entryLines]
    cases hsym : m.sym with
    | none =>
      refine hpass _ ?_ fun s => ?_
      · split
        · exact foldlM_titleLines (htitle m List.mem_cons_self hsym) user
        · rfl
      · rw [named_cons, hsym]; simp
    | some s =>
      dsimp only
      split
      · next hchoice => exact hpass [] rfl fun s' => by rw [named_cons, hchoice]; simp
      · next hchoice =>
        have hnamed : ∀ s', Named (m :: ms) s' ↔ s' = s ∨ Named ms s' := by
          intro s'
          rw [named_cons, hsym, eq_false_of_ne_true hchoice]
          simp [eq_comm]
        split
        · next hmem =>
          obtain ⟨user', hfold, hback, hsame⟩ := ih (s :: written) user
          refine ⟨user', hfold, fun s' hs' hnot => ?_, fun s' hs' => ?_⟩
          · have hne : s' ≠ s := fun heq => hnot (heq ▸ hmem)
            exact hback s' (((hnamed s').mp hs').resolve_left hne) (by simp [hne, hnot])
          · refine hsame s' ?_
            rcases hs' with hs' | hs'
            · exact .inl fun h => hs' ((hnamed s').mpr (.inr h))
            · exact .inr (List.mem_cons_of_mem s hs')
        · next hmem =>
          have hline : (symbolLines T s (sol s)).foldlM (readLine T) user =
              some (Function.update user s (readBack T s (sol s) (user s))) :=
            foldlM_symbolLines hunique (hread s ((hnamed s).mpr (.inl rfl)))
          obtain ⟨user', hfold, hback, hsame⟩ :=
            ih (s :: written) (Function.update user s (readBack T s (sol s) (user s)))
          refine ⟨user', ?_, fun s' hs' hnot => ?_, fun s' hs' => ?_⟩
          · rw [List.foldlM_append, hline]
            exact hfold
          · by_cases heq : s' = s
            · subst heq
              rw [hsame s' (.inr List.mem_cons_self), Function.update_self]
            · rw [hback s' (((hnamed s').mp hs').resolve_left heq) (by simp [heq, hnot]), Function.update_of_ne heq]
          · have hne : s' ≠ s := by
              rintro rfl
              exact hs'.elim (fun h => h ((hnamed s').mpr (.inl rfl))) hmem
            rw [hsame s' ?_, Function.update_of_ne hne]
            rcases hs' with hs' | hs'
            · exact .inl fun h => hs' ((hnamed s').mpr (.inr h))
            · exact .inr (List.mem_cons_of_mem s hs')

end Fold

section OneLine
variable {T : Table σ}

theorem oneLine_headerLines : ∀ line ∈ headerLines, OneLine line := by
  intro line hline
  simp only [headerLines, List.mem_cons, List.not_mem_nil, or_false] at hline
  rcases hline with rfl | rfl | rfl
  · exact ⟨['#'], rfl, by decide⟩
  · exact ⟨"# Automatically generated make config: don't edit".toList, rfl, by decide⟩
  · exact ⟨['#'], rfl, by decide⟩

theorem oneLine_titleLines {text : Str} (h : '\n' ∉ text) : ∀ line ∈ titleLines text, OneLine line := by
  intro line hline
  simp only [titleLines, List.mem_cons, List.not_mem_nil, or_false] at hline
  rcases hline with rfl | rfl | rfl | rfl
  · exact ⟨[], rfl, by decide⟩
  · exact ⟨['#'], rfl, by decide⟩
  · exact ⟨"# ".toList ++ text, rfl, by simp [h]⟩
  · exact ⟨['#'], rfl, by decide⟩

theorem oneLine_symbolLines {s : σ} {c : Cell} (h : Readable T s c) : ∀ line ∈ symbolLines T s c, OneLine line := by
  have hname : '\n' ∉ T.name s := fun hmem => (h.name.clean _ hmem).2.2 rfl
  intro line hline
  unfold symbolLines at hline
  split at hline
  · cases hline
  · next hne =>
    cases List.mem_singleton.mp hline
    cases htype : T.getType s with
    | unknown | other => exact absurd (by simp only [symbolText, htype]) hne
    | boolean | tristate =>
      cases htri : c.tri with
      | no =>
        refine ⟨"# ".toList ++ T.name s ++ " is not set".toList, ?_, by simp [hname]⟩
        simp only [symbolText, htype, htri, List.append_assoc]
        rfl
      | mod => exact absurd (by simp only [symbolText, htype, htri]) hne
      | yes =>
        refine ⟨T.name s ++ "=y".toList, ?_, by simp [hname]⟩
        simp only [symbolText, htype, htri, List.append_assoc]
        rfl
    | int | hex =>
      have hval := h.line (by rw [← isText_getType, htype]; rfl)
      refine ⟨T.name s ++ ['='] ++ (if c.val = [] then ['0'] else c.val), by simp only [symbolText, htype], ?_⟩
      split <;> simp [hname, hval]
    | string =>
      have hval := newline_not_mem_escape (h.line (by rw [← isText_getType, htype]; rfl))
      refine ⟨T.name s ++ "=\"".toList ++ escape c.val ++ ['"'], ?_, by simp [hname, hval]⟩
      simp only [symbolText, htype, List.append_assoc]
      rfl

variable [DecidableEq σ] {sol : σ → Cell}

theorem oneLine_entryLines (ms : List (Entry σ)) (hread : ∀ s, Named ms s → Readable T s (sol s))
    (htitle : ∀ m ∈ ms, m.sym = none → IsTitle m.text) (written : List σ) :
    ∀ line ∈ entryLines T sol ms written, OneLine line := by
  induction ms generalizing written with
  | nil => exact nofun
  | cons m ms ih =>
    have ih := ih (fun s hs => hread s (named_cons.mpr (.inr hs)))
      (fun m' hm' => htitle m' (List.mem_cons_of_mem m hm'))
    intro line hline
    rw [entryLines] at hline
    cases hsym : m.sym with
    | none =>
      rw [hsym] at hline
      rcases List.mem_append.mp hline with hline | hline
      · split at hline
        · exact oneLine_titleLines (htitle m List.mem_cons_self hsym).line line hline
        · cases hline
      · exact ih written line hline
    | some s =>
      rw [hsym] at hline
      dsimp only at hline
      split at hline
      · exact ih written line hline
      · next hchoice =>
        rcases List.mem_append.mp hline with hline | hline
        · split at hline
          · cases hline
          · exact oneLine_symbolLines (hread s (named_cons.mpr (.inl ⟨hsym, eq_false_of_ne_true hchoice⟩))) line hline
        · exact ih (s :: written) line hline

end OneLine

section Solution
variable {T : Table σ} [DecidableEq σ] {user user' : σ → User} (S : Solution T user)

namespace Solution

theorem isKnown_of_visible {s : σ} (h : (S.cells s).visible ≠ .no) : (T.type s).isKnown = true := by
  by_contra hunknown
  rw [← S.first_visible, Table.first, if_neg hunknown] at h
  exact h rfl

/-- The user has set what can be seen to what it is. -/
def TakenBack (user' : σ → User) : Prop :=
  ∀ s, (S.cells s).visible ≠ .no → (user' s).isNew = false ∧
    ((T.type s).isText = false → (user' s).tri = (S.cells s).tri) ∧
    ((T.type s).isText = true → (user' s).val = some (S.cells s).val)

/-- Then the solution is the same. -/
def takeBack (h : S.TakenBack user') : Solution T user' where
  cells := S.cells
  solves s := by
    refine (S.cells_eq s).trans ?_
    symm
    show (T.second user' s ((T.first s).value S.cells)).value S.cells =
      (T.second user s ((T.first s).value S.cells)).value S.cells
    by_cases hvisible : (S.cells s).visible = .no
    · exact value_second_hidden S.cells (S.first_visible.trans hvisible)
    · obtain ⟨hnew, htri, hval⟩ := h s hvisible
      cases htext : (T.type s).isText with
      | false =>
        refine value_second_self S.cells (fun h => ?_) (fun h => ?_) ?_ hnew ?_
        · rw [S.first_visible]; exact S.visible_ne_mod h
        · rw [S.first_revDep]; exact S.revDep_ne_mod h
        · rw [isText_getType, htext]
        · rw [htri htext]; exact congrArg Cell.tri (S.cells_eq s)
      | true =>
        have htype := getType_text htext
        have hcell := S.cells_eq s
        rw [value_second_text S.cells htype] at hcell
        rw [value_second_text S.cells htype, if_pos ⟨S.first_visible.trans_ne hvisible, by rw [hnew]; rfl⟩,
          hval htext, value_second_text S.cells htype]
        exact congrArg (fun v => {(T.first s).value S.cells with val := v}) (congrArg Cell.val hcell)

/-- The lines of the file. -/
def fileLines (ms : Menus σ) : List Str := headerLines ++ entryLines T S.cells ms.order []

/-- What has to be so for a configuration to be read back. -/
structure Writable (ms : Menus σ) : Prop where
  unique : Function.Injective T.name
  seen : ∀ s, (S.cells s).visible ≠ .no → Named ms.order s
  read : ∀ s, Named ms.order s → Readable T s (S.cells s)
  title : ∀ m ∈ ms.order, m.sym = none → IsTitle m.text
  fits : ∀ line ∈ S.fileLines ms, line.length ≤ lineRoom + 1

end Solution

end Solution

section File
variable [DecidableEq σ] [Fintype σ] {T : Table σ} {x : Session σ} {ms : Menus σ}

/-- What is written is what the solution says. -/
theorem confWrite_eq (hwf : WellFounded T.Before) (S : Solution T x.user) (hst : Memo.Agrees S.cells ∅ x.memo)
    (ms : Menus σ) : (confWrite T ms x).1 = (S.fileLines ms).flatten := by
  have hkeys : (writeEntries T (Menus.visited (Menus.rise [ms])) []).Asks T.symbols := Prog.Asks.all T.mem_symbols _
  have hrun := (Memo.run_solves S.solves hwf hkeys hst).1
  have horder : Menus.visited (Menus.rise [ms]) = ms.order := by simp [Menus.visited_rise]
  show fileHeader ++ (Memo.run (Memo.demand (T.rules x.user)) _ _).1 = _
  rw [hrun, value_writeEntries, horder, Solution.fileLines, List.flatten_append]
  rfl

omit [Fintype σ] in
theorem isLine_of_writable {user : σ → User} {S : Solution T user} (h : S.Writable ms) :
    ∀ line ∈ S.fileLines ms, Lines.IsLine lineRoom line := by
  intro line hline
  refine ⟨?_, h.fits line hline⟩
  rcases List.mem_append.mp hline with hline | hline
  · exact oneLine_headerLines line hline
  · exact oneLine_entryLines ms.order h.read h.title [] line hline

/-- The file is read back as what the user has set, with the same solution. -/
theorem confRead_fileLines (hwf : WellFounded T.Before) {user : σ → User} (S : Solution T user)
    (h : S.Writable ms) (stale : σ → Cell) :
    ∃ x', confRead T stale (S.fileLines ms).flatten = some x' ∧ S.TakenBack x'.user ∧
      ∃ S' : Solution T x'.user, S'.cells = S.cells ∧ Memo.Agrees S'.cells ∅ x'.memo := by
  have hlines : Lines.lines lineRoom (S.fileLines ms).flatten = S.fileLines ms :=
    Lines.lines_flatten (isLine_of_writable h)
  obtain ⟨user', hfold, hback, -⟩ :=
    foldlM_entryLines h.unique ms.order h.read h.title [] fun _ => ⟨true, .no, none⟩
  have hread : (S.fileLines ms).foldlM (readLine T) (fun _ => ⟨true, .no, none⟩) = some user' := by
    rw [Solution.fileLines, List.foldlM_append, foldlM_headerLines]
    exact hfold
  have htaken : S.TakenBack user' := fun s hs => by
    rw [hback s (h.seen s hs) List.not_mem_nil]
    exact readBack_taken (S.isKnown_of_visible hs)
  have hvalid := readLines_valid unset_textsValid hread
  have hfresh : Memo.Agrees S.cells ∅ ⟨∅, stale⟩ := fun i hi => absurd hi (Finset.notMem_empty i)
  obtain ⟨hseen, hst⟩ := settles_seen hwf (S.takeBack htaken) (fun s _ => hvalid s) T.symbols
    (x := ⟨user', ∅, stale⟩) (fun _ _ => rfl) hfresh
  have hsettled : S.TakenBack (T.symbols.foldl (settle T) ⟨user', ∅, stale⟩).user := fun s hs => by
    rw [hseen s hs]
    exact htaken s hs
  refine ⟨T.symbols.foldl (settle T) ⟨user', ∅, stale⟩, ?_, hsettled, S.takeBack hsettled, rfl, hst⟩
  rw [confRead, hlines, hread]
  rfl

omit [Fintype σ] in
theorem fileLines_congr {user user' : σ → User} {S : Solution T user} {S' : Solution T user'}
    (h : S'.cells = S.cells) (ms : Menus σ) : S'.fileLines ms = S.fileLines ms := by
  rw [Solution.fileLines, Solution.fileLines, h]

/-- Reading takes nothing from what writing has put into the file: the symbols have the
same values again, and the same file is written again. -/
theorem confRead_confWrite (hwf : WellFounded T.Before) (S : Solution T x.user)
    (hst : Memo.Agrees S.cells ∅ x.memo) (h : S.Writable ms) (stale : σ → Cell) :
    ∃ x', confRead T stale (confWrite T ms x).1 = some x' ∧ S.TakenBack x'.user ∧
      (∃ S' : Solution T x'.user, S'.cells = S.cells ∧ Memo.Agrees S'.cells ∅ x'.memo) ∧
        (confWrite T ms x').1 = (confWrite T ms x).1 := by
  obtain ⟨x', hread, htaken, S', hcells, hst'⟩ := confRead_fileLines hwf S h stale
  rw [confWrite_eq hwf S hst]
  refine ⟨x', hread, htaken, ⟨S', hcells, hst'⟩, ?_⟩
  rw [confWrite_eq hwf S' hst', fileLines_congr hcells]

end File

section Example

def pduMenus : Menus Pdu :=
  .cons ⟨none, "PDU Simulation".toList, false, true, none, some none, []⟩
    (.cons ⟨some .simulation, "PDU simulation".toList, false, false, none, some none, []⟩
      (.cons ⟨some .vpduserv, "vPDU Service".toList, false, false, none, some (some (.symbol (.var .simulation))), []⟩
        (.cons ⟨some .url, "Git URL".toList, false, false, none, some (some (.symbol (.var .vpduserv))), []⟩ .nil .nil)
        .nil)
      .nil)
    (.cons ⟨some .python, "python".toList, false, false, none, some none, []⟩ .nil .nil)

theorem pdu_isName (s : Pdu) : IsName (pdu.name s) := by
  have hclean : (pdu.name s).all fun ch => ch ≠ '=' ∧ ch ≠ ' ' ∧ ch ≠ '\n' := by cases s <;> decide
  have hhead : ∃ ch rest, pdu.name s = ch :: rest ∧ 'A' ≤ ch ∧ ch ≤ 'Z' := by cases s <;> exact ⟨'C', _, rfl, by decide⟩
  exact ⟨hhead, fun ch hch => of_decide_eq_true (List.all_eq_true.mp hclean ch hch)⟩

theorem pdu_named (s : Pdu) : Named pduMenus.order s := by
  have hfound : pduMenus.order.any fun m => m.sym = some s ∧ m.choice = false := by cases s <;> decide
  obtain ⟨m, hm, hsym⟩ := List.any_eq_true.mp hfound
  exact ⟨m, hm, of_decide_eq_true hsym⟩

theorem pdu_writable : pduSolution.Writable pduMenus where
  unique := by
    intro s s' h
    cases s <;> cases s' <;> first | rfl | exact absurd h (by decide)
  seen := fun s _ => pdu_named s
  read := by
    intro s _
    cases s <;> exact ⟨pdu_isName _, by decide, by decide, by decide⟩
  title := by
    intro m hm hsym
    simp only [pduMenus, Menus.order, List.append_nil, List.cons_append, List.nil_append, List.mem_cons,
      List.not_mem_nil, or_false] at hm
    rcases hm with rfl | rfl | rfl | rfl | rfl
    · exact ⟨by decide, by decide⟩
    · cases hsym
    · cases hsym
    · cases hsym
    · cases hsym
  fits := by decide

/-- The file of what was chosen. -/
def pduFile : Str :=
  ("#\n# Automatically generated make config: don't edit\n#\n\n#\n# PDU Simulation\n#\nCONFIG_PDU_SIMULATION=y\n" ++
    "CONFIG_PKG_vpduserv=y\nCONFIG_GIT_VPDU_URL=\"ssh://git\"\nCONFIG_PKG_python=y\n").toList

theorem pdu_confRead_confWrite : (confWrite pdu pduMenus pduSession).1 = pduFile ∧
    ∃ x', confRead pdu pduSolution.cells (confWrite pdu pduMenus pduSession).1 = some x' ∧
      pduSolution.TakenBack x'.user ∧
        (∃ S' : Solution pdu x'.user, S'.cells = pduSolution.cells ∧ Memo.Agrees S'.cells ∅ x'.memo) ∧
        (confWrite pdu pduMenus x').1 = (confWrite pdu pduMenus pduSession).1 :=
  ⟨by decide +kernel, confRead_confWrite (x := pduSession) pdu_wellFounded pduSolution pduSession_agrees pdu_writable
    pduSolution.cells⟩

end Example

end Idic.Kconfig
