import Idic.Ipmi.Network
import Idic.Shell.Entries

/-! The bridges in `/etc/qemu/bridge.conf` and `/etc/network/interfaces`.

Both files get an entry for each bridge that a `grep` does not find. The names of the
bridges go on from one another, `br1` and `br10`, and the greps look for a name anywhere
in a line or at its start. `configured_iff` says for which files that is enough. -/
namespace Idic.Ipmi.Startcmd
open Python Shell
open Lancontrol (isBlank)

/-! ### `bridge.conf` -/

def allowLine (i : Nat) : Str := "allow ".toList ++ bridgeName i

theorem allowLine_eq (i : Nat) : allowLine i = "allow ".toList ++ bridgeName i := rfl

/-- The name of the bridge is in the text. -/
def Named (i : Nat) (text : Str) : Prop := bridgeName i <:+: text

instance (i : Nat) (text : Str) : Decidable (Named i text) := inferInstanceAs (Decidable (_ <:+: _))

/-! ### The names -/

theorem not_mem_bridgeName {c : Char} (h : c ≠ 'b' ∧ c ≠ 'r' ∧ isDigit c = false) (i : Nat) :
    c ∉ bridgeName i := by
  intro hmem
  rcases List.mem_append.mp hmem with hmem | hmem
  · simp [h.1, h.2.1] at hmem
  · exact absurd (digits_isDigit i c hmem) (by simp [h.2.2])

/-- A name is not the start of one with a smaller number. -/
theorem le_of_starts {i j : Nat} (h : bridgeName j <+: bridgeName i) : j ≤ i := by
  obtain ⟨t, ht⟩ := h
  rw [bridgeName, bridgeName, List.append_assoc] at ht
  have hnumber := decimalNumber_append (digits 10 j) t
  rw [List.append_cancel_left ht, decimalNumber_digits, decimalNumber_digits] at hnumber
  have hle : j ≤ 10 ^ t.length * j := Nat.le_mul_of_pos_left j (Nat.pow_pos (by decide))
  omega

theorem named_iff_grep (i : Nat) (text : Str) :
    (lines '\n' text).any (Pattern.lit (bridgeName i)).found = true ↔ Named i text := by
  rw [Named, infix_iff_lines (bridgeName_ne_nil i) (not_mem_bridgeName (c := '\n') (by decide) i),
    List.any_eq_true]
  exact exists_congr fun l => and_congr_right fun _ => Pattern.found_lit

/-- The names in the line for a bridge start as its own name does. -/
theorem named_line {i j : Nat} (h : Named j (allowLine i ++ ['\n'])) : j ≤ i := by
  have hb : 'b' ∈ bridgeName j := List.mem_cons_self ..
  have hletters : "allow ".toList.all (fun c => c ≠ 'b' && c ≠ 'r' && !isDigit c) = true := by decide
  have hallow : ∀ c ∈ "allow ".toList, c ∉ bridgeName j := by
    intro c hc
    have hletter := List.all_eq_true.mp hletters c hc
    simp only [Bool.and_eq_true, decide_eq_true_eq, Bool.not_eq_true'] at hletter
    exact not_mem_bridgeName ⟨hletter.1.1, hletter.1.2, hletter.2⟩ j
  rw [Named, allowLine_eq, List.append_assoc, infix_append_of_not_mem (bridgeName_ne_nil j) hallow,
    infix_append_cons (not_mem_bridgeName (by decide) j)] at h
  rcases h with h | h
  · -- There is no other `b` in the name.
    rcases List.infix_cons_iff.mp h with hprefix | hinfix
    · exact le_of_starts hprefix
    · have hmem : 'b' ∈ 'r' :: digits 10 i := hinfix.subset hb
      rcases List.mem_cons.mp hmem with heq | hmem
      · cases heq
      · exact absurd (digits_isDigit i 'b' hmem) (by decide)
  · have hmem : 'b' ∈ ['\n'] := h.subset hb
    exact absurd hmem (by decide)

theorem named_apart : Apart Named (fun i => allowLine i ++ ['\n']) (· < ·) where
  stays _ _ _ h := h.trans (List.infix_append_left ..)
  own i s := by
    refine List.infix_append_of_infix_right ?_
    rw [allowLine_eq, List.append_assoc]
    exact List.infix_append' ..
  other i j s hlt h := by
    have ha : 'a' ∉ bridgeName j := not_mem_bridgeName (by decide) j
    rcases (infix_append_cons ha).mp h with hs | hline
    · exact hs
    · exact absurd (named_line hline) (Nat.not_le.mpr hlt)

/-! ### The loop on `bridge.conf` -/

section Conf
variable {n : Nat} {conf : Str}

/-- The file behind the loop over `n` interfaces. -/
def allowAll (n : Nat) (conf : Str) : Str := addEntries Named (fun i => allowLine i ++ ['\n']) conf (List.range n)

/-- The bridge has a line, white space in it aside. -/
def Allowed (i : Nat) (text : Str) : Prop :=
  ∃ l ∈ lines '\n' text, words isBlank l = ["allow".toList, bridgeName i]

instance (i : Nat) (text : Str) : Decidable (Allowed i text) := inferInstanceAs (Decidable (∃ l ∈ lines '\n' text, _))

theorem allowText_eq (i : Nat) (text : Str) :
    allowText (bridgeName i) text = addEntry Named (fun i => allowLine i ++ ['\n']) text i := by
  simp only [allowText, named_iff_grep, addEntry, appendLine, allowLine_eq, List.append_assoc]

/-- The numbers of the bridges that get a line. -/
def unnamed (n : Nat) (conf : Str) : List Nat := missing Named conf (List.range n)

theorem mem_unnamed {i : Nat} : i ∈ unnamed n conf ↔ i < n ∧ ¬Named i conf := by
  rw [unnamed, missing, List.mem_filter, List.mem_range, decide_eq_true_eq]

theorem allowAll_eq : allowAll n conf = conf ++ ((unnamed n conf).map allowLine).flatMap (· ++ ['\n']) := by
  rw [allowAll, named_apart.addEntries_eq List.pairwise_lt_range, List.flatMap_map]
  rfl

theorem newline_allowLine (i : Nat) : '\n' ∉ allowLine i := by
  rw [allowLine_eq, List.mem_append]
  rintro (hmem | hmem)
  · exact absurd hmem (by decide)
  · exact not_mem_bridgeName (by decide) i hmem

theorem newline_allowLines (is : List Nat) : ∀ l ∈ is.map allowLine, '\n' ∉ l := by
  intro l hl
  obtain ⟨i, -, rfl⟩ := List.mem_map.mp hl
  exact newline_allowLine i

theorem bridgeName_isWord (i : Nat) : IsWord isBlank (bridgeName i) := by
  refine ⟨bridgeName_ne_nil i, fun c hc => ?_⟩
  rw [isBlank, Bool.or_eq_false_iff, decide_eq_false_iff_not, decide_eq_false_iff_not]
  constructor <;> rintro rfl <;> exact not_mem_bridgeName (by decide) i hc

theorem words_allowLine (i : Nat) : words isBlank (allowLine i) = ["allow".toList, bridgeName i] := by
  show words isBlank ("allow".toList ++ ' ' :: bridgeName i) = _
  rw [words_word_cons (by decide) (by decide), words_word (bridgeName_isWord i)]

theorem lines_allowAll (h : Ended '\n' conf ∨ unnamed n conf = []) :
    lines '\n' (allowAll n conf) = lines '\n' conf ++ (unnamed n conf).map allowLine := by
  rw [allowAll_eq]
  rcases h with hended | hnone
  · rw [hended.lines_append, lines_flatMap (newline_allowLines _)]
  · rw [hnone]
    simp

/-- The first name that is added goes on with a last line that is not ended. -/
theorem lines_allowAll_open {u last : Str} (hconf : conf = u ++ last) (hu : Ended '\n' u) (hlast : '\n' ∉ last)
    {i : Nat} {is : List Nat} (hsome : unnamed n conf = i :: is) :
    lines '\n' (allowAll n conf) = lines '\n' u ++ (last ++ allowLine i) :: is.map allowLine := by
  have hfirst : allowAll n conf =
      appendLine '\n' (allowLine i) (u ++ last) ++ (is.map allowLine).flatMap (· ++ ['\n']) := by
    rw [allowAll_eq, hsome, hconf, List.map_cons, List.flatMap_cons, appendLine]
    simp only [List.append_assoc]
  rw [hfirst, (ended_appendLine _ _).lines_append, lines_appendLine_open hu hlast (newline_allowLine i),
    lines_flatMap (newline_allowLines is), List.append_assoc, List.singleton_append]

/-- And is lost so. -/
theorem ended_of_kept (h : (lines '\n' conf).Sublist (lines '\n' (allowAll n conf))) :
    Ended '\n' conf ∨ unnamed n conf = [] := by
  by_contra hopen
  obtain ⟨hended, hsome⟩ := not_or.mp hopen
  obtain ⟨u, last, hconf, hu, hne, hlast⟩ := exists_last hended
  obtain ⟨i, is, his⟩ := List.exists_cons_of_ne_nil hsome
  have hbefore : lines '\n' conf = lines '\n' u ++ [last] := by
    rw [hconf, hu.lines_append, lines_of_not_mem hne hlast]
  rw [lines_allowAll_open hconf hu hlast his, hbefore, List.append_sublist_append_left, List.singleton_sublist] at h
  rcases List.mem_cons.mp h with hsame | hmem
  · have hnil := List.self_eq_append_right.mp hsame
    exact absurd hnil (List.cons_ne_nil _ _)
  · -- A name that is in the last line is not added.
    obtain ⟨j, hj, rfl⟩ := List.mem_map.mp hmem
    refine (mem_unnamed.mp (his ▸ List.mem_cons_of_mem i hj)).2 ?_
    rw [Named, hconf, allowLine_eq]
    exact List.infix_append_of_infix_right (List.infix_append_of_infix_right (List.infix_rfl))

/-- Which files get all the lines and keep their own. -/
theorem allowAll_iff :
    (∀ i < n, Allowed i (allowAll n conf)) ∧ (lines '\n' conf).Sublist (lines '\n' (allowAll n conf)) ↔
      (∀ i < n, Allowed i conf ∨ ¬Named i conf) ∧ (Ended '\n' conf ∨ ∀ i < n, Named i conf) := by
  have hnone : unnamed n conf = [] ↔ ∀ i < n, Named i conf := by
    simp [List.eq_nil_iff_forall_not_mem, mem_unnamed]
  rw [← hnone]
  constructor
  · rintro ⟨hall, hkept⟩
    have hopen := ended_of_kept hkept
    refine ⟨fun i hi => ?_, hopen⟩
    obtain ⟨l, hl, hwords⟩ := hall i hi
    rw [lines_allowAll hopen, List.mem_append] at hl
    rcases hl with hl | hl
    · exact .inl ⟨l, hl, hwords⟩
    · obtain ⟨j, hj, rfl⟩ := List.mem_map.mp hl
      rw [words_allowLine, List.cons.injEq, List.cons.injEq] at hwords
      obtain rfl := bridgeName_injective hwords.2.1
      exact .inr (mem_unnamed.mp hj).2
  · rintro ⟨hall, hopen⟩
    rw [lines_allowAll hopen]
    refine ⟨fun i hi => ?_, List.sublist_append_left ..⟩
    rw [Allowed, lines_allowAll hopen]
    rcases hall i hi with ⟨l, hl, hwords⟩ | hmissing
    · exact ⟨l, List.mem_append_left _ hl, hwords⟩
    · exact ⟨allowLine i, List.mem_append_right _ (List.mem_map_of_mem (mem_unnamed.mpr ⟨hi, hmissing⟩)),
        words_allowLine i⟩

end Conf

/-! ### The loop on `interfaces` -/

section Interfaces
variable {n : Nat} {text : Str}

def autoLine (i : Nat) : Str := "auto ".toList ++ bridgeName i

def ifaceLine (i : Nat) : Str := "iface ".toList ++ bridgeName i ++ " inet dhcp".toList

theorem autoLine_eq (i : Nat) : autoLine i = "auto ".toList ++ bridgeName i := rfl

theorem ifaceLine_eq (i : Nat) : ifaceLine i = "iface ".toList ++ bridgeName i ++ " inet dhcp".toList := rfl

/-- The lines that a bridge gets. -/
def stanza (i : Nat) : List Str := [autoLine i, ifaceLine i]

/-- A line starts with `auto` and the name. -/
def Started (i : Nat) (ls : List Str) : Prop := ∃ l ∈ ls, autoLine i <+: l

instance (i : Nat) (ls : List Str) : Decidable (Started i ls) := inferInstanceAs (Decidable (∃ l ∈ ls, _))

theorem hasAuto_iff (i : Nat) (text : Str) : hasAuto (bridgeName i) text = true ↔ Started i (lines '\n' text) := by
  rw [hasAuto, List.any_eq_true, Started]
  exact exists_congr fun l => and_congr_right fun _ => Pattern.starts_lit

theorem started_apart : Apart Started stanza (· < ·) where
  stays _ _ _ h := by
    obtain ⟨l, hl, hprefix⟩ := h
    exact ⟨l, List.mem_append_left _ hl, hprefix⟩
  own i s := ⟨autoLine i, List.mem_append_right _ (List.mem_cons_self ..), List.prefix_rfl⟩
  other i j s hlt h := by
    obtain ⟨l, hl, hprefix⟩ := h
    rcases List.mem_append.mp hl with hl | hl
    · exact ⟨l, hl, hprefix⟩
    · simp only [stanza, List.mem_cons, List.not_mem_nil, or_false] at hl
      rcases hl with rfl | rfl
      · rw [autoLine_eq, autoLine_eq, List.prefix_append_right_inj] at hprefix
        exact absurd (le_of_starts hprefix) (Nat.not_le.mpr hlt)
      · obtain ⟨t, ht⟩ := hprefix
        cases ht

/-- What a run makes of the file for one bridge. -/
def configureText (text : Str) (i : Nat) : Str :=
  if hasAuto (bridgeName i) text then text else addStanza (bridgeName i) text

theorem newline_autoLine (i : Nat) : '\n' ∉ autoLine i := by
  rw [autoLine_eq, List.mem_append]
  rintro (hmem | hmem)
  · exact absurd hmem (by decide)
  · exact not_mem_bridgeName (by decide) i hmem

theorem newline_ifaceLine (i : Nat) : '\n' ∉ ifaceLine i := by
  rw [ifaceLine_eq, List.mem_append, List.mem_append]
  rintro ((hmem | hmem) | hmem)
  · exact absurd hmem (by decide)
  · exact not_mem_bridgeName (by decide) i hmem
  · exact absurd hmem (by decide)

theorem words_autoLine (i : Nat) : words isBlank (autoLine i) = ["auto".toList, bridgeName i] := by
  show words isBlank ("auto".toList ++ ' ' :: bridgeName i) = _
  rw [words_word_cons (by decide) (by decide), words_word (bridgeName_isWord i)]

theorem words_ifaceLine (i : Nat) :
    words isBlank (ifaceLine i) = ["iface".toList, bridgeName i, "inet".toList, "dhcp".toList] := by
  have hline : ifaceLine i = "iface".toList ++ ' ' :: (bridgeName i ++ ' ' :: "inet dhcp".toList) := by
    rw [ifaceLine_eq, List.append_assoc]
    rfl
  rw [hline, words_word_cons (by decide) (by decide), words_word_cons (bridgeName_isWord i) (by decide)]
  rfl

/-- On a file with a line, the two lines come behind the last one. -/
theorem lines_configureText (hne : text ≠ []) (i : Nat) : configureText text i ≠ [] ∧
    lines '\n' (configureText text i) =
      addEntry Started stanza (lines '\n' text) i := by
  rw [configureText, addEntry]
  by_cases hauto : hasAuto (bridgeName i) text = true
  · rw [if_pos hauto, if_pos ((hasAuto_iff i text).mp hauto)]
    exact ⟨hne, rfl⟩
  · rw [if_neg hauto, if_neg fun hstarted => hauto ((hasAuto_iff i text).mpr hstarted)]
    have hfirst : appendLast '\n' (autoLine i) text ≠ [] := appendLast_ne_nil hne
    refine ⟨appendLast_ne_nil hfirst, ?_⟩
    calc lines '\n' (addStanza (bridgeName i) text)
        = lines '\n' (appendLast '\n' (ifaceLine i) (appendLast '\n' (autoLine i) text)) := rfl
      _ = lines '\n' text ++ [autoLine i] ++ [ifaceLine i] := by
        rw [lines_appendLast hfirst (newline_ifaceLine i), lines_appendLast hne (newline_autoLine i)]
      _ = lines '\n' text ++ [autoLine i, ifaceLine i] := List.append_assoc ..

theorem lines_foldl_configureText (hne : text ≠ []) (is : List Nat) : lines '\n' (is.foldl configureText text) =
    addEntries Started stanza (lines '\n' text) is := by
  induction is generalizing text with
  | nil => rfl
  | cons i is ih =>
    obtain ⟨hnext, hlines⟩ := lines_configureText hne i
    rw [List.foldl_cons, ih hnext, hlines]
    rfl

/-- The loop over `n` interfaces. -/
def configureAll (n : Nat) (text : Str) : Str := (List.range n).foldl configureText text

/-- The numbers of the bridges that get a stanza. -/
def unstarted (n : Nat) (text : Str) : List Nat := missing Started (lines '\n' text) (List.range n)

theorem mem_unstarted {i : Nat} : i ∈ unstarted n text ↔ i < n ∧ ¬Started i (lines '\n' text) := by
  rw [unstarted, missing, List.mem_filter, List.mem_range, decide_eq_true_eq]

theorem lines_configureAll (hne : text ≠ []) : lines '\n' (configureAll n text) =
    lines '\n' text ++ (unstarted n text).flatMap stanza := by
  rw [configureAll, lines_foldl_configureText hne, started_apart.addEntries_eq List.pairwise_lt_range]
  rfl

/-- An empty file has no last line to add one behind. -/
theorem configureAll_nil : configureAll n [] = [] := by
  unfold configureAll
  induction List.range n with
  | nil => rfl
  | cons i is ih =>
    have hnil : configureText [] i = [] := rfl
    rw [List.foldl_cons, hnil, ih]

theorem foldl_configureText_of_started {is : List Nat} (h : ∀ i ∈ is, Started i (lines '\n' text)) :
    is.foldl configureText text = text := by
  induction is with
  | nil => rfl
  | cons i is ih =>
    obtain ⟨hi, his⟩ := List.forall_mem_cons.mp h
    rw [List.foldl_cons, configureText, if_pos ((hasAuto_iff i text).mpr hi), ih his]

theorem configureAll_twice : configureAll n (configureAll n text) = configureAll n text := by
  by_cases hne : text = []
  · rw [hne, configureAll_nil, configureAll_nil]
  · refine foldl_configureText_of_started ?_
    rw [configureAll, lines_foldl_configureText hne]
    exact started_apart.addEntries_has _

/-- Among the lines there is one by which the bridge is brought up, and a stanza of it. -/
def Configured (i : Nat) (ls : List Str) : Prop :=
  (∃ l ∈ ls, ∃ names, words isBlank l = "auto".toList :: names ∧ bridgeName i ∈ names) ∧
  ∃ l ∈ ls, ∃ rest, words isBlank l = "iface".toList :: bridgeName i :: rest

theorem mem_flatMap_stanza {l : Str} {is : List Nat} :
    l ∈ is.flatMap stanza ↔ ∃ i ∈ is, l = autoLine i ∨ l = ifaceLine i := by
  simp only [List.mem_flatMap, stanza, List.mem_cons, List.not_mem_nil, or_false]

theorem configured_append {i : Nat} {ls : List Str} {is : List Nat} :
    Configured i (ls ++ is.flatMap stanza) ↔ Configured i ls ∨ i ∈ is := by
  have hnames : "iface".toList ≠ "auto".toList := by decide
  constructor
  · rintro ⟨⟨l, hl, names, hauto, hname⟩, l', hl', rest, hiface⟩
    by_cases hi : i ∈ is
    · exact .inr hi
    · -- A line that is added is for another bridge.
      have hold : l ∈ ls := by
        rcases List.mem_append.mp hl with hl | hl
        · exact hl
        · obtain ⟨j, hj, rfl | rfl⟩ := mem_flatMap_stanza.mp hl
          · rw [words_autoLine, List.cons.injEq] at hauto
            rw [← hauto.2, List.mem_singleton] at hname
            exact absurd (bridgeName_injective hname ▸ hj) hi
          · rw [words_ifaceLine, List.cons.injEq] at hauto
            exact absurd hauto.1 hnames
      have hold' : l' ∈ ls := by
        rcases List.mem_append.mp hl' with hl' | hl'
        · exact hl'
        · obtain ⟨j, hj, rfl | rfl⟩ := mem_flatMap_stanza.mp hl'
          · rw [words_autoLine, List.cons.injEq] at hiface
            exact absurd hiface.1.symm hnames
          · rw [words_ifaceLine, List.cons.injEq, List.cons.injEq] at hiface
            exact absurd (bridgeName_injective hiface.2.1 ▸ hj) hi
      exact .inl ⟨⟨l, hold, names, hauto, hname⟩, l', hold', rest, hiface⟩
  · rintro (⟨⟨l, hl, hauto⟩, l', hl', hiface⟩ | hi)
    · exact ⟨⟨l, List.mem_append_left _ hl, hauto⟩, l', List.mem_append_left _ hl', hiface⟩
    · have hadded : ∀ l, l = autoLine i ∨ l = ifaceLine i → l ∈ ls ++ is.flatMap stanza :=
        fun l hl => List.mem_append_right _ (mem_flatMap_stanza.mpr ⟨i, hi, hl⟩)
      exact ⟨⟨_, hadded _ (.inl rfl), _, words_autoLine i, List.mem_singleton_self _⟩,
        _, hadded _ (.inr rfl), _, words_ifaceLine i⟩

/-- Which files get all the stanzas. -/
theorem configureAll_iff : (∀ i < n, Configured i (lines '\n' (configureAll n text))) ↔
    (∀ i < n, Configured i (lines '\n' text) ∨ ¬Started i (lines '\n' text)) ∧ (n = 0 ∨ text ≠ []) := by
  by_cases hne : text = []
  · rw [hne, configureAll_nil]
    have hnone : ∀ i, ¬Configured i (lines '\n' []) := fun i h => absurd h.1 (by simp [lines])
    constructor
    · intro hall
      have hzero : n = 0 := Nat.eq_zero_of_not_pos fun hpos => hnone 0 (hall 0 hpos)
      exact ⟨fun i hi => .inl (hall i hi), .inl hzero⟩
    · rintro ⟨-, rfl | hsome⟩
      · exact fun i hi => absurd hi (Nat.not_lt_zero i)
      · exact absurd rfl hsome
  · rw [lines_configureAll hne]
    simp only [configured_append, mem_unstarted, hne, ne_eq, not_false_eq_true, or_true, and_true]
    exact forall_congr' fun i => forall_congr' fun hi => by rw [and_iff_right hi]

theorem configureAll_keeps : (lines '\n' text).Sublist (lines '\n' (configureAll n text)) := by
  by_cases hne : text = []
  · rw [hne, configureAll_nil]
  · rw [lines_configureAll hne]
    exact List.sublist_append_left ..

end Interfaces

/-! ### The runs -/

section Runs
variable (suffix : Str → Str) {host : Host} {order : List Str} {n : Nat} {text : Str}

theorem foldl_addNic_bridgeConf (order : List Str) (s : Nics) :
    (order.foldl (addNic suffix) s).host.bridgeConf =
      if order = [] then s.host.bridgeConf
      else some (addEntries Named (fun i => allowLine i ++ ['\n']) (s.host.bridgeConf.getD [])
        (List.range' s.nicIndex order.length)) := by
  induction order generalizing s with
  | nil => rfl
  | cons n rest ih =>
    have hfirst : (addNic suffix s n).host.bridgeConf =
        some (addEntry Named (fun i => allowLine i ++ ['\n']) (s.host.bridgeConf.getD []) s.nicIndex) := by
      rw [← allowText_eq]
      exact (ifupInterface_frame _ _).2
    rw [List.foldl_cons, ih, if_neg (List.cons_ne_nil _ _), hfirst]
    split
    · next hnone =>
      subst hnone
      rfl
    · rfl

theorem foldl_addNic_interfaces (order : List Str) {s : Nics} (h : s.host.interfaces = some text) :
    (order.foldl (addNic suffix) s).host.interfaces =
      some ((List.range' s.nicIndex order.length).foldl configureText text) := by
  induction order generalizing s text with
  | nil => exact h
  | cons n rest ih =>
    have hfirst : (addNic suffix s n).host.interfaces = some (configureText text s.nicIndex) :=
      ifupInterface_interfaces s.nicIndex h
    rw [List.foldl_cons, ih hfirst]
    rfl

/-- What a run over `n` interfaces makes of the files. -/
theorem run_files (hlength : order.length = n) (h : host.interfaces = some text) :
    (run suffix host order).bridgeConf =
      (if n = 0 then host.bridgeConf else some (allowAll n (host.bridgeConf.getD []))) ∧
    (run suffix host order).interfaces = some (configureAll n text) := by
  subst hlength
  constructor
  · rw [run, addNics, foldl_addNic_bridgeConf, allowAll, List.range_eq_range']
    simp only [List.length_eq_zero_iff]
  · rw [run, addNics, foldl_addNic_interfaces suffix order h, configureAll, List.range_eq_range']

theorem allowAll_zero (conf : Str) : allowAll 0 conf = conf := rfl

theorem allowAll_twice (conf : Str) : allowAll n (allowAll n conf) = allowAll n conf :=
  named_apart.addEntries_twice conf

/-- Any number of runs leave what the first one does. -/
theorem runs_files {orders : List (List Str)} (hne : orders ≠ []) (hlength : ∀ order ∈ orders, order.length = n)
    (h : host.interfaces = some text) :
    (orders.foldl (run suffix) host).bridgeConf =
      (if n = 0 then host.bridgeConf else some (allowAll n (host.bridgeConf.getD []))) ∧
    (orders.foldl (run suffix) host).interfaces = some (configureAll n text) := by
  induction orders generalizing host text with
  | nil => exact absurd rfl hne
  | cons first later ih =>
    obtain ⟨hfirst, hlater⟩ := List.forall_mem_cons.mp hlength
    obtain ⟨hconf, hinterfaces⟩ := run_files suffix hfirst h
    by_cases hnone : later = []
    · subst hnone
      exact ⟨hconf, hinterfaces⟩
    · obtain ⟨hconf', hinterfaces'⟩ := ih hnone hlater hinterfaces
      rw [List.foldl_cons, hconf', hinterfaces', hconf, configureAll_twice]
      refine ⟨?_, rfl⟩
      split
      · rfl
      · rw [Option.getD_some, allowAll_twice]

/-- What the runs are to leave of the two files: a line of each bridge in both and the
lines of before. -/
structure Complete (n : Nat) (conf text : Str) (after : Host) : Prop where
  allowed : ∀ i < n, Allowed i (after.bridgeConf.getD [])
  configured : ∀ i < n, Configured i (lines '\n' (after.interfaces.getD []))
  keepsConf : (lines '\n' conf).Sublist (lines '\n' (after.bridgeConf.getD []))
  keepsInterfaces : (lines '\n' text).Sublist (lines '\n' (after.interfaces.getD []))

/-- The files in which a `grep` finds a bridge only by a line of its own, and a line can
be put at the end. -/
structure Extensible (n : Nat) (conf text : Str) : Prop where
  allowed : ∀ i < n, Allowed i conf ∨ ¬Named i conf
  ended : Ended '\n' conf ∨ ∀ i < n, Named i conf
  configured : ∀ i < n, Configured i (lines '\n' text) ∨ ¬Started i (lines '\n' text)
  nonempty : n = 0 ∨ text ≠ []

/-- **Complete and not repeated**: behind any number of runs over `n` interfaces the files
are complete and one more run changes neither, if and only if they were extensible. -/
theorem complete_iff (h : host.interfaces = some text) {orders : List (List Str)} (hne : orders ≠ [])
    (hlength : ∀ order ∈ orders, order.length = n) (again : List Str) (hagain : again.length = n) :
    (Complete n (host.bridgeConf.getD []) text (orders.foldl (run suffix) host) ∧
      (run suffix (orders.foldl (run suffix) host) again).bridgeConf = (orders.foldl (run suffix) host).bridgeConf ∧
      (run suffix (orders.foldl (run suffix) host) again).interfaces = (orders.foldl (run suffix) host).interfaces) ↔
    Extensible n (host.bridgeConf.getD []) text := by
  obtain ⟨hconf, hinterfaces⟩ := runs_files suffix hne hlength h
  obtain ⟨hagainConf, hagainInterfaces⟩ := run_files suffix hagain hinterfaces
  have hcontent : (orders.foldl (run suffix) host).bridgeConf.getD [] = allowAll n (host.bridgeConf.getD []) := by
    rw [hconf]
    split
    · next hzero => rw [hzero, allowAll_zero]
    · rfl
  have hsame : (run suffix (orders.foldl (run suffix) host) again).bridgeConf =
        (orders.foldl (run suffix) host).bridgeConf ∧
      (run suffix (orders.foldl (run suffix) host) again).interfaces = (orders.foldl (run suffix) host).interfaces := by
    rw [hagainConf, hcontent, allowAll_twice, hagainInterfaces, configureAll_twice, hinterfaces, hconf]
    refine ⟨?_, rfl⟩
    split <;> rfl
  rw [and_iff_left hsame]
  constructor
  · rintro ⟨hallowed, hconfigured, hkept, -⟩
    rw [hcontent] at hallowed hkept
    rw [hinterfaces] at hconfigured
    obtain ⟨hallowed, hended⟩ := allowAll_iff.mp ⟨hallowed, hkept⟩
    obtain ⟨hconfigured, hnonempty⟩ := configureAll_iff.mp hconfigured
    exact ⟨hallowed, hended, hconfigured, hnonempty⟩
  · rintro ⟨hallowed, hended, hconfigured, hnonempty⟩
    obtain ⟨hallowed, hkept⟩ := allowAll_iff.mpr ⟨hallowed, hended⟩
    refine ⟨?_, ?_, ?_, ?_⟩
    · rwa [hcontent]
    · rw [hinterfaces]
      exact configureAll_iff.mpr ⟨hconfigured, hnonempty⟩
    · rwa [hcontent]
    · rw [hinterfaces]
      exact configureAll_keeps

end Runs

/-- A host with two interfaces, where the bridges are in none of the files, but the second
one is allowed. -/
def secondAllowed : Host :=
  ⟨⟨["eth0".toList, "eth1".toList], [], []⟩, some "allow br1\n".toList,
    some "auto lo\niface lo inet loopback\n".toList, []⟩

theorem secondAllowed_extensible : Extensible 2 "allow br1\n".toList "auto lo\niface lo inet loopback\n".toList where
  allowed := by decide +kernel
  ended := by decide +kernel
  configured := fun i hi => .inr (by
    revert i
    decide +kernel)
  nonempty := by decide

theorem secondAllowed_complete :
    let order := ["eth1".toList, "eth0".toList]
    let after := [order, order].foldl (run fun _ => "00:01".toList) secondAllowed
    Complete 2 "allow br1\n".toList "auto lo\niface lo inet loopback\n".toList after ∧
    (run (fun _ => "00:01".toList) after order).bridgeConf = after.bridgeConf ∧
    (run (fun _ => "00:01".toList) after order).interfaces = after.interfaces := by
  intro order after
  have hfile : secondAllowed.interfaces = some "auto lo\niface lo inet loopback\n".toList := rfl
  have hlength : ∀ o ∈ [order, order], o.length = 2 := by decide
  exact (complete_iff _ hfile (List.cons_ne_nil _ _) hlength order rfl).mpr secondAllowed_extensible

/-- A file that allows `br10` gets no line for `br1`. -/
theorem br10_hides_br1 :
    let host : Host :=
      ⟨⟨["eth0".toList, "eth1".toList], [], []⟩, some "allow br10\n".toList, some "auto lo\n".toList, []⟩
    let after := run (fun _ => "00:01".toList) host ["eth0".toList, "eth1".toList]
    after.bridgeConf = some "allow br10\nallow br0\n".toList ∧
      ¬Complete 2 "allow br10\n".toList "auto lo\n".toList after := by
  refine ⟨by decide +kernel, fun hcomplete => ?_⟩
  have hallowed := hcomplete.allowed 1 (by decide)
  revert hallowed
  decide +kernel

end Idic.Ipmi.Startcmd
