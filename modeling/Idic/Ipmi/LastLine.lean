import Idic.Ipmi.InterfaceUpdate

/-! A set of an interface, to the end of the file.

Where the last line of the file has no newline and is not cut out, the first line of the
new stanza is glued to it. A header is lost by that (`headers_cat_le`), so that no such
file is updated, and `set_updates_iff` is about every file. -/
namespace Idic.Ipmi.Lancontrol
open Python Shell

section Glued
variable {device : Device} {v : Vars} {g : Parm → Option Word} {unchanged stanza : Content Char} {file : List Line}

/-! ### A header behind a line -/

theorem startsStanza_of_glued {w : Str} (hw : w ≠ []) (h : startsStanza (w ++ "iface".toList) = true) :
    startsStanza w = true := by
  rw [startsStanza, Bool.or_eq_true, decide_eq_true_eq, List.isPrefixOf_iff_prefix] at h
  rcases h with hmem | hprefix
  · -- Of these words only `iface` itself ends so.
    have hsuffix : ∀ w' ∈ ["iface".toList, "auto".toList, "mapping".toList, "source".toList],
        "iface".toList <:+ w' → w' = "iface".toList := by decide
    have hnil := hsuffix _ hmem (List.suffix_append w _)
    exact absurd (List.append_left_eq_self.mp hnil) hw
  · rcases List.prefix_or_prefix_of_prefix hprefix (List.prefix_append w _) with hshort | ⟨more, hmore⟩
    · rw [startsStanza, List.isPrefixOf_iff_prefix.mpr hshort, Bool.or_true]
    · -- Then `allow-` goes on behind the word as `iface` does.
      rw [← hmore, List.prefix_append_right_inj] at hprefix
      cases more with
      | nil =>
        rw [List.append_nil] at hmore
        rw [hmore]
        decide
      | cons c more =>
        have hc : 'i' ∈ "allow-".toList := by
          rw [← hmore, show c = 'i' from (List.cons_prefix_cons.mp hprefix).1]
          exact List.mem_append_right _ (List.mem_cons_self ..)
        exact absurd hc (by decide)

theorem isHeader_of_glued {r l : Line} (hr : words isBlank r ≠ []) (hl : isIface (words isBlank l) = true)
    (h : isHeader (words isBlank (r ++ l)) = true) : isHeader (words isBlank r) = true := by
  obtain ⟨w, ws, hwords⟩ := List.exists_cons_of_ne_nil hr
  obtain ⟨more, ws', hglued, hmore⟩ := words_glue hwords l
  rw [hglued] at h
  rw [hwords]
  rcases hmore with rfl | hfirst
  · rwa [List.append_nil] at h
  · cases hwordsl : words isBlank l with
    | nil =>
      rw [hwordsl] at hl
      cases hl
    | cons w' ws'' =>
      rw [hwordsl] at hl hfirst
      rw [← Option.some.inj hfirst, of_decide_eq_true hl] at h
      exact startsStanza_of_glued (ne_nil_of_mem_words (hwords ▸ List.mem_cons_self ..)) h

variable (unchanged) in
/-- The entries of a file with a line glued to its rest. -/
theorem entries_glued {l : Line} {ls : List Line} (hlines : stanza.lines = l :: ls)
    (hl : isIface (words isBlank l) = true) : ∃ tail, entries stanza.all = words isBlank l :: tail ∧
      (unchanged.cat stanza).all = unchanged.lines ++ (unchanged.rest ++ l) :: ls ++
        (if stanza.rest.isEmpty then [] else [stanza.rest]) ∧
      entries (unchanged.cat stanza).all =
        entries unchanged.lines ++ entries [unchanged.rest ++ l] ++ tail := by
  refine ⟨entries ls ++ entries [stanza.rest], ?_, ?_, ?_⟩
  · rw [entries_all, hlines, entries_cons_of_isIface hl, List.cons_append]
  · rw [Content.cat_of_lines hlines, Content.all]
  · rw [Content.cat_of_lines hlines, entries_all, entries_append, ← List.singleton_append, entries_append]
    simp only [List.append_assoc]

theorem headers_glued_le {l : Line} (hrest : words isBlank unchanged.rest ≠ [])
    (hl : isIface (words isBlank l) = true) :
    (entries [unchanged.rest ++ l]).countP isHeader ≤ (entries [unchanged.rest]).countP isHeader := by
  have hglued : words isBlank (unchanged.rest ++ l) ≠ [] := by
    obtain ⟨w, ws, hwords⟩ := List.exists_cons_of_ne_nil hrest
    obtain ⟨more, ws', hglued, -⟩ := words_glue hwords l
    rw [hglued]
    exact List.cons_ne_nil _ _
  rw [entries_singleton hrest, entries_singleton hglued, List.countP_singleton, List.countP_singleton]
  cases hheader : isHeader (words isBlank (unchanged.rest ++ l)) with
  | false => exact Nat.zero_le _
  | true => rw [isHeader_of_glued hrest hl hheader]

/-- An update keeps every header but the device's, and has one for it. -/
theorem headers_of_updated {new : List Line} (h : Updated g device file new) :
    (entries file).countP isHeader + 1 ≤ (entries new).countP isHeader + (ifaceStanzas device file).length := by
  have hcount : ∀ file, (entries file).countP isHeader =
      (ifaceStanzas device file).length + (otherStanzas device file).length := by
    intro file
    have hother : (fun s : Stanza => decide ¬isIfaceOf device s.head = true) = fun s => !isIfaceOf device s.head := by
      funext s
      cases isIfaceOf device s.head <;> rfl
    rw [List.countP_eq_length_filter, ← length_sections, ifaceStanzas, otherStanzas, ← List.countP_eq_length_filter,
      ← List.countP_eq_length_filter, ← hother]
    exact List.length_eq_countP_add_countP _
  obtain ⟨s, hs, -⟩ := h.stanza
  have hnew := hcount new
  have hold := hcount file
  have hle := h.others.length_le
  rw [hs, List.length_singleton] at hnew
  omega

/-! ### A line that is left open -/

variable {text stale : Content Char}

theorem left_open (hinside : text.endsInside (ifaceLine device).starts isTab = false) :
    (doSplitInterfaces device text).1.rest = text.rest ∧ (doSplitInterfaces device text).2.rest = [] := by
  rw [doSplitInterfaces, Content.deleteRanges, Content.printRanges, hinside]
  exact ⟨rfl, rfl⟩

/-- The modified stanza has lost the header of the one that was cut out, and gets behind
a line that does not start with it. -/
theorem not_updated_modified {l : Line} {rest : List Line} (hopen : words isBlank text.rest ≠ [])
    (hinside : text.endsInside (ifaceLine device).starts isTab = false)
    (honce : (ifaceStanzas device text.all).length ≤ 1) (hall : (doSplitInterfaces device text).2.all = l :: rest)
    (h : doModifyStanza device v (doSplitInterfaces device text).2 stale = .ok stanza) :
    ¬ Updated v.given device text.all ((doSplitInterfaces device text).1.cat stanza).all := by
  intro hupdated
  obtain ⟨hleft, hcut⟩ := left_open hinside
  have hopen' : words isBlank (doSplitInterfaces device text).1.rest ≠ [] := by rwa [hleft]
  have hsplit : (splitLines device text.all).2 = l :: rest := (all_doSplitInterfaces device text).2.symm.trans hall
  have hiface : isIface (words isBlank l) = true := isIface_of_start (start_of_split hsplit)
  have hlines : (doSplitInterfaces device text).2.lines ≠ [] := by
    intro hnil
    rw [Content.all_of_no_rest hcut, hnil] at hall
    cases hall
  have hheader : isIface (words isBlank (newLine device v l)) = true := by
    rw [words_newLine]
    exact isIface_newHeader hiface
  have hstanza := modify_entries hall hiface (.inr hlines) h
  have hfirst : stanza.lines = newLine device v l ::
      (optionLines v options ++ (keptLines v (doSplitInterfaces device text).2).lines) := by
    rw [modify_eq hall (.inr hlines) h, Content.cat_of_no_rest rfl]
    rfl
  obtain ⟨tail, htail, -, hnew⟩ := entries_glued (doSplitInterfaces device text).1 hfirst hheader
  have hle := headers_glued_le hopen' hheader
  have hheaders := headers_of_updated hupdated
  -- The headers of the file are those that are left, and those that are cut out.
  have hfile := countP_split (p := isHeader) rfl device text.all
  rw [← (all_doSplitInterfaces device text).1, ← (all_doSplitInterfaces device text).2, hall,
    entries_cons_of_isIface hiface, List.countP_cons_of_pos (isHeader_of_isIface hiface), entries_all,
    List.countP_append] at hfile
  have hopts : (entries (optionLines v options)).countP isHeader = 0 :=
    List.countP_eq_zero.mpr fun e he => by simp [(entries_optionLines options fun _ h => h).1 e he]
  have hkept : tail.countP isHeader ≤ (entries rest).countP isHeader := by
    rw [(List.cons.inj (htail.symm.trans hstanza)).2, List.countP_append, hopts, Nat.zero_add]
    exact List.filter_sublist.countP_le
  rw [hnew, List.countP_append, List.countP_append] at hheaders
  omega

/-- The device's stanza in a new file, whose other lines do not start a range. -/
theorem head_of_updated {l : Line} {front tail new : List Line}
    (hnew : new = front ++ l :: tail) (hfront : ∀ l ∈ front, (ifaceLine device).starts l = false)
    (htail : ∀ e ∈ entries tail, isHeader e = false) (h : Updated g device file new) :
    isIfaceOf device (words isBlank l) = true := by
  obtain ⟨s, hs, hover⟩ := h.stanza
  have hmem : s ∈ ifaceStanzas device new := by
    rw [hs]
    exact List.mem_singleton_self s
  obtain ⟨l', hl', hwords⟩ := start_of_stanza hmem hover.method_some
  obtain ⟨hl', hstart⟩ := List.mem_filter.mp hl'
  rw [hnew, List.mem_append, List.mem_cons] at hl'
  rcases hl' with hin | rfl | hin
  · cases (hfront l' hin).symm.trans hstart
  · rw [hwords]
    exact (List.mem_filter.mp hmem).2
  · have hiface := isIface_of_start hstart
    have hentry : words isBlank l' ∈ entries tail :=
      List.mem_filter.mpr ⟨List.mem_map_of_mem hin, by
        cases hl : words isBlank l' with
        | nil => rw [hl] at hiface; cases hiface
        | cons w ws => rfl⟩
    cases (htail _ hentry).symm.trans (isHeader_of_isIface hiface)

theorem ifaceText_eq_cons (device : Device) (src : Str) : ∃ t, ifaceText device src = "iface".toList ++ ' ' :: t := by
  have hassoc : ∀ a b c d : List Char, a ++ b ++ c ++ d = a ++ (b ++ (c ++ d)) := by
    intro a b c d
    simp only [List.append_assoc]
  have hsplit : "iface ".toList = "iface".toList ++ [' '] := by decide
  refine ⟨device.text ++ (" inet ".toList ++ src), (hassoc ..).trans ?_⟩
  exact (congrArg (· ++ _) hsplit).trans (List.append_assoc "iface".toList [' '] _)

theorem not_isIfaceOf_behind_name {r : Line} {ws : List Str}
    (h : words isBlank r = "iface".toList :: device.text :: ws) (hr : (ifaceLine device).starts r = false) (src : Str) :
    isIfaceOf device (words isBlank (r ++ ifaceText device src)) = false := by
  rcases ifaceLine_cases h with hcase | ⟨u, c, u', rfl, hu, hc, hu'⟩
  · cases hcase.symm.trans hr
  obtain ⟨t, htext⟩ := ifaceText_eq_cons device src
  have hiface : IsWord isBlank "iface".toList := by decide
  have hword : IsWord isBlank (device.text ++ "iface".toList) := by
    refine ⟨List.append_ne_nil_of_right_ne_nil _ hiface.1, fun c hc => ?_⟩
    exact (List.mem_append.mp hc).elim (device.isWord.2 c) (hiface.2 c)
  have hlonger : ¬ device.text ++ "iface".toList = device.text := fun heq =>
    hiface.1 (List.append_right_eq_self.mp heq)
  rw [htext, words_behind_name hu hc hu' hword isBlank_space, isIfaceOf, decide_eq_false hlonger, Bool.and_false]

/-- The glued line is the device's, so that no other line is, except for the one it is glued to. -/
theorem device_of_glued {l : Line} {body : List Line}
    (hopen : words isBlank text.rest ≠ []) (hl : isIface (words isBlank l) = true)
    (hbody : ∀ e ∈ entries body, isHeader e = false) (hhead : isIfaceOf device (words isBlank (text.rest ++ l)) = true)
    (hupdated : Updated v.given device text.all (text.cat (.ofLines (l :: body))).all) :
    isIfaceOf device (words isBlank text.rest) = true := by
  by_contra hnot
  have hfirst : (Content.ofLines (l :: body)).lines = l :: body := rfl
  obtain ⟨tail, htail, -, hnew⟩ := entries_glued text hfirst hl
  have hentries : entries body = tail := by
    rw [Content.all_ofLines, entries_cons_of_isIface hl] at htail
    exact (List.cons.inj htail).2
  have hheaders := headers_of_updated hupdated
  have hcount := countP_of_updated hupdated
  have hle := headers_glued_le hopen hl
  have hglued : entries [text.rest ++ l] = [words isBlank (text.rest ++ l)] := by
    refine entries_singleton fun hnil => ?_
    rw [hnil] at hhead
    cases hhead
  have htail : tail.countP isHeader = 0 := by
    rw [← hentries]
    exact List.countP_eq_zero.mpr fun e he => by simp [hbody e he]
  have hfile : entries text.all = entries text.lines ++ [words isBlank text.rest] := by
    rw [entries_all, entries_singleton hopen]
  rw [hnew, hglued, List.countP_append, List.countP_append, List.countP_singleton, if_pos hhead] at hcount
  rw [length_ifaceStanzas, hfile, hnew, List.countP_append, List.countP_append, List.countP_append,
    List.countP_append, htail, List.countP_singleton (p := isIfaceOf device), if_neg hnot] at hheaders
  rw [entries_singleton hopen] at hle
  omega

/-- The new stanza gets behind a line that does not start with its header. Where that line
is the device's own, the glued one is not. -/
theorem not_updated_created (hchecked : Checked v) (hopen : words isBlank text.rest ≠ [])
    (hstart : starts device text.all = [])
    (h : doCreateStanza device v stale = .ok stanza) : ¬ Updated v.given device text.all (text.cat stanza).all := by
  intro hupdated
  obtain ⟨body, rfl, hneed, hbody, -⟩ := create_entries hchecked h
  have hwords := words_ifaceText device (v .ip_addr_src).value.isWord
  have hiface : isIface (words isBlank (ifaceText device (v .ip_addr_src).value.text)) = true := by
    rw [hwords, isIface]
    exact decide_eq_true rfl
  have hsome : text.rest ≠ [] := by
    intro hnil
    rw [hnil] at hopen
    exact hopen rfl
  have hnone : ∀ l ∈ text.all, (ifaceLine device).starts l = false := fun l hl => by
    simpa using List.filter_eq_nil_iff.mp hstart l hl
  rw [Content.all_of_rest hsome] at hnone
  have hlines : (text.cat (.ofLines (ifaceText device (v .ip_addr_src).value.text :: body))).all =
      text.lines ++ (text.rest ++ ifaceText device (v .ip_addr_src).value.text) :: body := by
    have hfirst : (Content.ofLines (ifaceText device (v .ip_addr_src).value.text :: body)).lines =
        ifaceText device (v .ip_addr_src).value.text :: body := rfl
    obtain ⟨-, -, hall, -⟩ := entries_glued text hfirst hiface
    rw [hall]
    exact List.append_nil _
  have hhead := head_of_updated hlines (fun l hl => hnone l (List.mem_append_left _ hl)) hbody hupdated
  obtain ⟨ws, hr⟩ := isIfaceOf_iff.mp (device_of_glued hopen hiface hbody hhead hupdated)
  have hnot := not_isIfaceOf_behind_name hr (hnone _ (List.mem_append_right _ (List.mem_singleton_self _)))
    (v .ip_addr_src).value.text
  cases hhead.symm.trans hnot

/-- The first of the options is glued to the header. -/
theorem not_updated_header {l l₁ : Line} {opts : List Line}
    (hopts : optionLines v options = l₁ :: opts)
    (hunchanged : unchanged.rest = [] ∧ ∀ l ∈ unchanged.lines, (ifaceLine device).starts l = false)
    (hstanza : stanza = .ofLines ((l ++ l₁) :: opts)) : ¬ Updated v.given device file (unchanged.cat stanza).all := by
  intro hupdated
  obtain ⟨hheaders, hsettings⟩ := entries_optionLines (v := v) options fun _ h => h
  obtain ⟨o, ho, hline⟩ : ∃ o ∈ options, o.line (v o.parm).value = l₁ := by
    have hmem : l₁ ∈ optionLines v options := by
      rw [hopts]
      exact List.mem_cons_self ..
    obtain ⟨o, ho, hline⟩ := List.mem_map.mp hmem
    exact ⟨o, List.mem_of_mem_filter ho, hline⟩
  obtain ⟨rest, hwords, -⟩ := words_line ho (v o.parm).value
  rw [hline] at hwords
  rw [hopts, entries_cons, hwords] at hheaders hsettings
  have hbody : ∀ e ∈ entries opts, isHeader e = false := fun e he => hheaders e (List.mem_cons_of_mem _ he)
  have hlines : (unchanged.cat stanza).all = unchanged.lines ++ (l ++ l₁) :: opts := by
    rw [hstanza, Content.cat_of_no_rest hunchanged.1]
    exact List.append_nil _
  have hhead := head_of_updated hlines hunchanged.2 hbody hupdated
  have hentries : entries (unchanged.cat stanza).all =
      entries unchanged.lines ++ words isBlank (l ++ l₁) :: entries opts := by
    rw [hlines, entries_append, entries_cons_of_isIface (isIface_of_isIfaceOf hhead)]
  have hheader := isHeader_of_isIfaceOf hhead
  obtain ⟨s, hs, hover⟩ := hupdated.stanza
  rw [ifaceStanzas, hentries, sections_append_of_lead (lead_cons_head hheader _), sections_cons_head hheader,
    lead_of_no_head hbody, sections_eq_nil_iff.mpr hbody, List.filter_append, List.filter_cons, if_pos hhead] at hs
  obtain ⟨-, hs⟩ | ⟨-, hs⟩ := List.append_eq_singleton_iff.mp hs
  · -- It has one setting less than are given.
    have hlength := hover.given.length_eq
    have hle := List.length_filter_le (isGiven v.given) (settings s)
    have hall := congrArg List.length hsettings
    have hbody : (settings s).length = (entries opts).length := by
      rw [← (List.cons.inj hs).1, settings, List.length_map]
    rw [givenSettings, ← hall, List.length_map, List.length_append] at hlength
    exact absurd (hlength.symm.trans_le (hle.trans_eq hbody)) (by simp)
  · cases hs

/-! ### Every file -/

theorem mem_options {p : Parm} (h : p ≠ .ip_addr_src) : ∃ o ∈ options, o.parm = p := by
  cases p with
  | ip_addr_src => exact absurd rfl h
  | ip_addr | subnet_mask | default_gw_ip_addr | mac_addr => simp [options]

theorem optionLines_ne_nil (hsome : ∃ p, (v p).need = true) (hsource : (v .ip_addr_src).need = false) :
    optionLines v options ≠ [] := by
  obtain ⟨p, hp⟩ := hsome
  have hne : p ≠ .ip_addr_src := by
    rintro rfl
    cases hp.symm.trans hsource
  obtain ⟨o, ho, rfl⟩ := mem_options hne
  exact List.ne_nil_of_mem (List.mem_map_of_mem (List.mem_filter.mpr ⟨ho, hp⟩))

/-- A file in which nothing starts a range. -/
theorem updated_created_iff (hchecked : Checked v) (hstart : starts device text.all = [])
    (h : doCreateStanza device v stale = .ok stanza) :
    Updated v.given device text.all (text.cat stanza).all ↔
      Addable device v.given text.all ∧ words isBlank text.rest = [] := by
  by_cases hrest : words isBlank text.rest = []
  · obtain ⟨body, hstanza, hneed, hbody, hsettings⟩ := create_entries hchecked h
    have hwords := words_ifaceText device (v .ip_addr_src).value.isWord
    have hentries : entries stanza.all = newHeader device v [] :: entries body := by
      rw [hstanza, Content.all_ofLines, entries_cons, hwords, newHeader, if_pos hneed]
      rfl
    have hcat : entries (text.cat stanza).all = entries (text.all ++ stanza.all) :=
      (entries_cat hrest).trans (entries_append ..).symm
    have hiff : Updated v.given device text.all (text.all ++ stanza.all) ↔ _ :=
      updated_added_iff hentries hneed hbody hsettings
    constructor
    · intro hupdated
      obtain ⟨hnone, hroom⟩ := hiff.mp (hupdated.of_entries hcat)
      exact ⟨⟨hstart, hnone, hroom⟩, hrest⟩
    · intro hboth
      exact (hiff.mpr ⟨hboth.1.no_stanza, hboth.1.room⟩).of_entries hcat.symm
  · have hlost := not_updated_created hchecked hrest hstart h
    exact ⟨fun hupdated => absurd hupdated hlost, fun hboth => absurd hboth.2 hrest⟩

/-- What is cut out is the last line of the file. -/
theorem only_line {l : Line} {rest : List Line} (hlines : (doSplitInterfaces device text).2.lines = [])
    (hall : (doSplitInterfaces device text).2.all = l :: rest) :
    text.rest = l ∧ text.endsInside (ifaceLine device).starts isTab = true := by
  have hl : (doSplitInterfaces device text).2.rest = l ∧ l ≠ [] := by
    rw [Content.all, hlines] at hall
    split at hall
    · cases hall
    · next hsome =>
      have hl := (List.cons.inj hall).1
      rw [hl] at hsome
      exact ⟨hl, by simpa using hsome⟩
  cases hinside : text.endsInside (ifaceLine device).starts isTab with
  | false =>
    rw [(left_open hinside).2] at hl
    exact absurd hl.1.symm hl.2
  | true =>
    rw [doSplitInterfaces, Content.printRanges, hinside] at hl
    exact ⟨hl.1, rfl⟩

theorem not_updated_open_header {l : Line} {rest : List Line} (hneed : (v .ip_addr_src).need = false)
    (hsome : ∃ p, (v p).need = true) (hlines : (doSplitInterfaces device text).2.lines = [])
    (hall : (doSplitInterfaces device text).2.all = l :: rest) (hiface : isIface (words isBlank l) = true)
    (h : doModifyStanza device v (doSplitInterfaces device text).2 stale = .ok stanza) :
    ¬ Updated v.given device text.all ((doSplitInterfaces device text).1.cat stanza).all := by
  obtain ⟨hl, hinside⟩ := only_line hlines hall
  have hcut : (doSplitInterfaces device text).2 = ⟨[], l⟩ := by
    rw [← hlines, ← hl, doSplitInterfaces, Content.printRanges, hinside]
    rfl
  have hkept : keptLines v ⟨[], l⟩ = .ofLines [] := by
    rw [keptLines, Content.filter, not_keeps_of_isIface hiface]
    rfl
  obtain ⟨l₁, opts, hopts⟩ := List.exists_cons_of_ne_nil (optionLines_ne_nil hsome hneed)
  have hstanza : stanza = .ofLines ((l ++ l₁) :: opts) := by
    rw [doModifyStanza_eq_ok hall h, hneed, hcut, hkept, Content.cat_ofLines_nil, hopts]
    rfl
  refine not_updated_header hopts ⟨?_, ?_⟩ hstanza
  · rw [doSplitInterfaces, Content.deleteRanges, hinside]
    rfl
  · exact start_of_mem_deleteRanges false text.lines

/-- Where nothing is cut out, a stanza is created behind the whole file. -/
theorem updated_iff_of_nothing_cut (hchecked : Checked v) (hall : (doSplitInterfaces device text).2.all = [])
    (h : doModifyStanza device v (doSplitInterfaces device text).2 stale = .ok stanza) :
    Updated v.given device text.all ((doSplitInterfaces device text).1.cat stanza).all ↔
      (Addable device v.given text.all ∨ Separable device v.given text.all) ∧ Closed device v.given text := by
  have hstart := starts_of_split_nil ((all_doSplitInterfaces device text).2.symm.trans hall)
  have hempty := Content.isEmpty_iff.mpr hall
  have hinside : text.endsInside (ifaceLine device).starts isTab = true → text.rest = [] := by
    intro hinside
    rw [doSplitInterfaces, Content.printRanges, hinside, Content.isEmpty, Bool.and_eq_true,
      List.isEmpty_iff] at hempty
    simpa using hempty.2
  have hlines : ∀ l ∈ text.lines, (ifaceLine device).starts l = false := fun l hl => by
    simpa using List.filter_eq_nil_iff.mp hstart l (List.mem_append_left _ hl)
  have hleft : (doSplitInterfaces device text).1 = text := by
    rw [doSplitInterfaces, Content.deleteRanges, (ranges_of_no_start isTab hlines).1]
    cases hcase : text.endsInside (ifaceLine device).starts isTab with
    | false => rfl
    | true => exact congrArg (Content.mk text.lines) (hinside hcase).symm
  rw [doModifyStanza, if_pos hempty] at h
  rw [hleft, updated_created_iff hchecked hstart h]
  constructor
  · rintro ⟨hadd, hrest⟩
    exact ⟨.inl hadd, .inl hrest⟩
  · rintro ⟨hadd | hsep, hclosed⟩
    · refine ⟨hadd, hclosed.elim id fun hin => ?_⟩
      rw [hinside hin.1]
      rfl
    · obtain ⟨l, hl, -⟩ := hsep.start
      cases hstart.symm.trans hl

theorem closed_of_separable (hsep : Separable device v.given text.all)
    (hopen : ¬(words isBlank text.rest ≠ [] ∧ text.endsInside (ifaceLine device).starts isTab = false))
    (hends : (v .ip_addr_src).need = true ∨ (doSplitInterfaces device text).2.lines ≠ []) :
    Closed device v.given text := by
  by_cases hrest : words isBlank text.rest = []
  · exact .inl hrest
  have hinside : text.endsInside (ifaceLine device).starts isTab = true := by
    by_contra hnot
    exact hopen ⟨hrest, Bool.eq_false_iff.mpr hnot⟩
  refine .inr ⟨hinside, fun hlast => ?_⟩
  have hsome : text.rest ≠ [] := by
    intro hnil
    rw [hnil] at hrest
    exact hrest rfl
  -- It is the only line that starts a range, so that no other is cut out.
  obtain ⟨l, hl, -⟩ := hsep.start
  rw [starts, Content.all_of_rest hsome, List.filter_append, List.filter_cons, if_pos hlast] at hl
  have hnone : text.lines.filter (ifaceLine device).starts = [] := by
    rcases List.append_eq_singleton_iff.mp hl with ⟨hnone, -⟩ | ⟨-, hnil⟩
    · exact hnone
    · cases hnil
  have hlines : ∀ l ∈ text.lines, (ifaceLine device).starts l = false := fun l hl => by
    simpa using List.filter_eq_nil_iff.mp hnone l hl
  rw [isSome_given]
  exact hends.resolve_right fun hne => hne (ranges_of_no_start isTab hlines).2

/-- Where lines are cut out, a stanza is modified. -/
theorem updated_iff_of_cut {l : Line} {rest : List Line} (hsome : ∃ p, (v p).need = true)
    (honce : (ifaceStanzas device text.all).length ≤ 1) (hall : (doSplitInterfaces device text).2.all = l :: rest)
    (h : doModifyStanza device v (doSplitInterfaces device text).2 stale = .ok stanza) :
    Updated v.given device text.all ((doSplitInterfaces device text).1.cat stanza).all ↔
      (Addable device v.given text.all ∨ Separable device v.given text.all) ∧ Closed device v.given text := by
  have hsplit : (splitLines device text.all).2 = l :: rest := (all_doSplitInterfaces device text).2.symm.trans hall
  have hstart := start_of_split hsplit
  have hiface : isIface (words isBlank l) = true := isIface_of_start hstart
  by_cases hopen : words isBlank text.rest ≠ [] ∧ text.endsInside (ifaceLine device).starts isTab = false
  · refine ⟨fun hupdated => absurd hupdated (not_updated_modified hopen.1 hopen.2 honce hall h), fun hboth => ?_⟩
    rcases hboth.2 with hrest | ⟨hinside, -⟩
    · exact absurd hrest hopen.1
    · cases hinside.symm.trans hopen.2
  by_cases hends : (v .ip_addr_src).need = true ∨ (doSplitInterfaces device text).2.lines ≠ []
  · have hrest : words isBlank (doSplitInterfaces device text).1.rest = [] := by
      rw [doSplitInterfaces, Content.deleteRanges]
      cases hinside : text.endsInside (ifaceLine device).starts isTab with
      | false =>
        by_contra hne
        exact hopen ⟨hne, hinside⟩
      | true => rfl
    have hcat : entries ((doSplitInterfaces device text).1.cat stanza).all =
        entries ((splitLines device text.all).1 ++ stanza.all) := by
      rw [entries_cat hrest, (all_doSplitInterfaces device text).1, entries_append]
    have hiff := updated_modified_iff honce hsplit (modify_entries hall hiface hends h)
    constructor
    · intro hupdated
      have hsep := hiff.mp (hupdated.of_entries hcat)
      exact ⟨.inr hsep, closed_of_separable hsep hopen hends⟩
    · rintro ⟨hadd | hsep, -⟩
      · have hmem := mem_starts_of_split hsplit
        rw [hadd.no_start] at hmem
        exact absurd hmem List.not_mem_nil
      · exact (hiff.mpr hsep).of_entries hcat.symm
  · rw [not_or, not_not, Bool.not_eq_true] at hends
    obtain ⟨hneed, hlines⟩ := hends
    refine ⟨fun hupdated => absurd hupdated (not_updated_open_header hneed hsome hlines hall hiface h), fun hboth => ?_⟩
    obtain ⟨hl, -⟩ := only_line hlines hall
    rw [Closed, hl] at hboth
    rcases hboth.2 with hnil | ⟨-, hsource⟩
    · rw [hnil] at hiface
      cases hiface
    · have hgiven := hsource hstart
      rw [isSome_given, hneed] at hgiven
      cases hgiven

theorem updated_iff (hchecked : Checked v) (hsome : ∃ p, (v p).need = true)
    (honce : (ifaceStanzas device text.all).length ≤ 1)
    (h : doModifyStanza device v (doSplitInterfaces device text).2 stale = .ok stanza) :
    Updated v.given device text.all ((doSplitInterfaces device text).1.cat stanza).all ↔
      (Addable device v.given text.all ∨ Separable device v.given text.all) ∧ Closed device v.given text := by
  cases hall : (doSplitInterfaces device text).2.all with
  | nil => exact updated_iff_of_nothing_cut hchecked hall h
  | cons l rest => exact updated_iff_of_cut hsome honce hall h

end Glued

/-! ### A whole set -/

theorem setLoop_need {v v' : Vars} {args : List Word} (hsome : args.isEmpty = false) (h : setLoop args v = .ok v') :
    ∃ p, (v' p).need = true := by
  match args, h with
  | parm :: val :: rest, h =>
    obtain ⟨p, hname, -, -⟩ := setLoop_cons h
    refine ⟨p, ?_⟩
    rw [← isSome_given, setLoop_given h p, given, if_pos hname]
    cases given rest p <;> rfl

theorem doSet_eq_ok {device : Device} {args : List Word} {host host' : Host} {file : File}
    (hfile : host.interfaces = some file) (h : doSet device args host = .ok host') :
    ∃ v stanza, Checked v ∧ (∃ p, (v p).need = true) ∧ v.given = given args ∧
      doModifyStanza device v (doSplitInterfaces device file.content).2 host.stale = .ok stanza ∧
      host'.interfaces = some ⟨(doSplitInterfaces device file.content).1.cat stanza, true⟩ := by
  rw [doSet] at h
  split at h
  · cases h
  next hargs =>
  obtain ⟨v, hloop, h⟩ := bind_eq_ok.mp h
  rw [doInterfaces, hfile] at h
  split at h
  · simp only at h
    split at h
    · obtain ⟨stanza, hstanza, h⟩ := bind_eq_ok.mp h
      cases h
      refine ⟨v, stanza, setLoop_checked checked_initial hloop, setLoop_need (by simpa using hargs) hloop, ?_,
        hstanza, rfl⟩
      funext p
      rw [setLoop_given hloop p, given_initial, Option.or_none]
    · cases h
  · cases h

/-- A set that is accepted updates the interface exactly where the file has no line of
the device, or its stanza can be cut out, and the new stanza starts a line. -/
theorem set_updates_iff {device : Device} {args : List Word} {host host' : Host} {file : File}
    (hfile : host.interfaces = some file) (honce : (ifaceStanzas device file.content.all).length ≤ 1)
    (hset : doSet device args host = .ok host') : ∃ file', host'.interfaces = some file' ∧
      (Updated (given args) device file.content.all file'.content.all ↔
        (Addable device (given args) file.content.all ∨ Separable device (given args) file.content.all) ∧
          Closed device (given args) file.content) := by
  obtain ⟨v, stanza, hchecked, hsome, hgiven, hstanza, hfile'⟩ := doSet_eq_ok hfile hset
  refine ⟨_, hfile', ?_⟩
  rw [← hgiven]
  exact updated_iff hchecked hsome honce hstanza

/-! ### The interfaces of the embedded root file system -/

/-- `/etc/network/interfaces` as it is shipped. -/
def rootfsInterfaces : List Line :=
  ["auto lo".toList, "iface lo inet loopback".toList, [],
    "auto eth0".toList, "iface eth0 inet static".toList, "        address 0.0.0.0".toList,
    "        gateway 0.0.0.0".toList, "        netmask 255.255.255.0".toList, [],
    "auto br0".toList, "iface br0 inet dhcp".toList, "        address 0.0.0.0".toList,
    "        gateway 0.0.0.0".toList, "        netmask 255.255.255.0".toList]

def rootfs : Host := ⟨true, some ⟨.ofLines rootfsInterfaces, true⟩, none, .ofLines []⟩

def eth0 : Device := ⟨⟨"eth0".toList, by decide, by decide⟩, by decide⟩

def br0 : Device := ⟨⟨"br0".toList, by decide, by decide⟩, by decide⟩

/-- `ip_addr 10.0.0.5` -/
def newAddress : List Word :=
  [⟨"ip_addr".toList, by decide, by decide⟩, ⟨"10.0.0.5".toList, by decide, by decide⟩]

theorem set_updates_iff_br0 : ∃ host' file', doSet br0 newAddress rootfs = .ok host' ∧
    host'.interfaces = some file' ∧ Updated (given newAddress) br0 rootfsInterfaces file'.content.all := by
  have hrecut : Separable br0 (given newAddress) rootfsInterfaces :=
    ⟨⟨⟨["iface".toList, "br0".toList, "inet".toList, "dhcp".toList],
        [["address".toList, "0.0.0.0".toList], ["gateway".toList, "0.0.0.0".toList],
          ["netmask".toList, "255.255.255.0".toList]]⟩, by decide +kernel, by decide +kernel, by decide +kernel⟩,
      by decide +kernel, by decide +kernel, by decide +kernel⟩
  cases hset : doSet br0 newAddress rootfs with
  | error text =>
    have hok : (doSet br0 newAddress rootfs).isOk = true := by decide +kernel
    rw [hset] at hok
    cases hok
  | ok host' =>
    have hfile : rootfs.interfaces = some ⟨.ofLines rootfsInterfaces, true⟩ := rfl
    obtain ⟨file', hfile', hiff⟩ := set_updates_iff hfile (by decide +kernel) hset
    exact ⟨host', file', rfl, hfile', hiff.mpr ⟨.inr hrecut, .inl rfl⟩⟩

/-- Behind a last line without a newline a new stanza has no header. -/
example :
    let interfaces : Content Char := ⟨["auto lo".toList], "iface lo inet loopback".toList⟩
    let useDhcp : List Word := [⟨"ip_addr_src".toList, by decide, by decide⟩, ⟨"dhcp".toList, by decide, by decide⟩]
    ((doSet eth0 useDhcp ⟨true, some ⟨interfaces, true⟩, none, .ofLines []⟩).toOption.bind Host.interfaces).map
      File.content =
        some (.ofLines ["auto lo".toList, "iface lo inet loopbackiface eth0 inet dhcp".toList, "\t".toList]) := by
  decide +kernel

/-- What the same set for `eth0` leaves. -/
def withoutBr0 : List Line :=
  ["auto lo".toList, "iface lo inet loopback".toList, [], "auto eth0".toList, "iface eth0 inet static".toList,
    "\taddress 10.0.0.5".toList, "        gateway 0.0.0.0".toList, "        netmask 255.255.255.0".toList, [],
    "auto br0".toList, "        gateway 0.0.0.0".toList, "        netmask 255.255.255.0".toList]

theorem eth0_loses_br0 : (ifaceStanzas eth0 rootfsInterfaces).length ≤ 1 ∧
    ((doSet eth0 newAddress rootfs).toOption.bind Host.interfaces).map File.content = some (.ofLines withoutBr0) ∧
    ¬ Updated (given newAddress) eth0 rootfsInterfaces withoutBr0 := by
  refine ⟨by decide +kernel, by decide +kernel, fun hupdated => ?_⟩
  have hlost : ¬ (otherStanzas eth0 rootfsInterfaces).Subperm (otherStanzas eth0 withoutBr0) := by decide +kernel
  exact hlost hupdated.others

end Idic.Ipmi.Lancontrol
