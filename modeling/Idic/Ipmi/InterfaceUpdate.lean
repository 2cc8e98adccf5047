import Idic.Ipmi.NewStanza

/-! When a set updates its interface.

The script takes for the stanza of its device what stands between a line that its
pattern matches and the next line of a single tab. `set_updates_iff` says for which
files that is an update: those without such a line, and those with one where the
part that is cut out holds whole stanzas besides the device's own. In both the new
stanza must not get behind a line that has no newline. -/
namespace Idic.Ipmi.Lancontrol
open Python Shell

section Condition
variable (device : Device) (g : Parm → Option Word) (file : List Line)

/-- The lines that start a range. -/
def starts : List Line := file.filter (ifaceLine device).starts

/-- The device has no stanza, and the new one has room for what is given. -/
structure Addable : Prop where
  no_start : starts device file = []
  no_stanza : ifaceStanzas device file = []
  room : (g .ip_addr_src).map Word.text = some "dhcp".toList →
    g .ip_addr = none ∧ g .subnet_mask = none ∧ g .default_gw_ip_addr = none

/-- Only the device's stanza starts a range. Up to a line of a single tab, or to the
end of the file, the filters delete nothing else than options of this stanza that are
given, and what is behind does not go on with a stanza. -/
structure Separable : Prop where
  one_start : ∃ s, ifaceStanzas device file = [s] ∧ (starts device file).map (words isBlank) = [s.head] ∧
    ((g .ip_addr_src).isSome ∨ (method s).isSome)
  recut : Recut isHeader (keeps g) (isGiven g) (entries (beforeRange (ifaceLine device).starts file))
    (entries (insideRange (ifaceLine device).starts isTab file))
    (entries (behindRange (ifaceLine device).starts isTab file))

/-- The last line ends in a newline, or it is blank, or it is cut out. The line that
starts the range may only be cut out if the new stanza has another one for it. -/
def Closed (text : Content Char) : Prop :=
  words isBlank text.rest = [] ∨ text.endsInside (ifaceLine device).starts isTab = true ∧
    ((ifaceLine device).starts text.rest = true → (g .ip_addr_src).isSome = true)

end Condition

section Update
variable {device : Device} {v : Vars} {file stanza : List Line}

/-- What is left of the lines, and what is cut out. -/
def splitLines (device : Device) (file : List Line) : List Line × List Line :=
  (deleteRanges (ifaceLine device).starts isTab false file, printRanges (ifaceLine device).starts isTab false file)

theorem all_doSplitInterfaces (device : Device) (text : Content Char) :
    (doSplitInterfaces device text).1.all = (splitLines device text.all).1 ∧
      (doSplitInterfaces device text).2.all = (splitLines device text.all).2 :=
  ⟨Content.all_deleteRanges .., Content.all_printRanges ..⟩

/-- The entries of the stanza that is made of the lines `l :: old`. -/
def Modified (device : Device) (v : Vars) (l : Line) (old stanza : List Line) : Prop :=
  entries stanza = newHeader device v (words isBlank l) ::
    (entries (optionLines v options) ++ (entries old).filter (keeps v.given))

theorem Updated.of_entries {g : Parm → Option Word} {old new new' : List Line} (h : Updated g device old new)
    (heq : entries new = entries new') : Updated g device old new' := by
  obtain ⟨hlead, hothers, hstanza⟩ := h
  rw [heq] at hlead
  rw [otherStanzas, otherStanzas, heq] at hothers
  rw [ifaceStanzas, heq] at hstanza
  exact ⟨hlead, hothers, hstanza⟩

theorem isIfaceOf_newHeader {old : Entry} (h : (v .ip_addr_src).need = true ∨ isIfaceOf device old = true) :
    isIfaceOf device (newHeader device v old) = true := by
  rw [newHeader]
  split
  · simp [isIfaceOf]
  · next hneed => exact h.resolve_left hneed

/-! ### Without a range -/

theorem not_isIfaceOf_of_not_isHeader {e : Entry} (h : isHeader e = false) : isIfaceOf device e = false := by
  cases he : isIfaceOf device e with
  | false => rfl
  | true => cases h.symm.trans (isHeader_of_isIfaceOf he)

theorem updated_added_iff {body : List Line}
    (hentries : entries stanza = newHeader device v [] :: entries body) (hneed : (v .ip_addr_src).need = true)
    (hbody : ∀ e ∈ entries body, isHeader e = false)
    (hsettings : (entries body).map setting = createdSettings v.given) :
    Updated v.given device file (file ++ stanza) ↔
      ifaceStanzas device file = [] ∧ ((v.given .ip_addr_src).map Word.text = some "dhcp".toList →
        v.given .ip_addr = none ∧ v.given .subnet_mask = none ∧ v.given .default_gw_ip_addr = none) := by
  have hheader : isIfaceOf device (newHeader device v []) = true := isIfaceOf_newHeader (.inl hneed)
  have hlead : lead isHeader (entries stanza) = [] := by
    rw [hentries, lead_cons_head (isHeader_of_isIfaceOf hheader)]
  have hsections : sections isHeader (entries (file ++ stanza)) =
      sections isHeader (entries file) ++ [⟨newHeader device v [], entries body⟩] := by
    rw [entries_append, sections_append_of_lead hlead, hentries,
      sections_cons_head (isHeader_of_isIfaceOf hheader), lead_of_no_head hbody, sections_eq_nil_iff.mpr hbody]
  have hiface : ifaceStanzas device (file ++ stanza) =
      ifaceStanzas device file ++ [⟨newHeader device v [], entries body⟩] := by
    rw [ifaceStanzas, hsections, List.filter_append, List.filter_cons, if_pos hheader]
    rfl
  have hother : otherStanzas device (file ++ stanza) = otherStanzas device file := by
    rw [otherStanzas, hsections, List.filter_append, List.filter_cons, if_neg (by simp [hheader])]
    exact List.append_nil _
  have hoverridden : Overridden v.given none ⟨newHeader device v [], entries body⟩ ↔ _ :=
    overridden_iff (hsettings.trans (List.append_nil _).symm) isGiven_createdSettings
      (fun _ h => absurd h List.not_mem_nil) (method_newHeader [])
  have hmethod : ((newHeader device v [])[3]?).isSome = true := by
    rw [newHeader, if_pos hneed]
    rfl
  rw [createdSettings_perm_iff] at hoverridden
  constructor
  · intro hupdated
    obtain ⟨s, hs, hover⟩ := hupdated.stanza
    rw [hiface, List.append_eq_singleton_iff] at hs
    obtain ⟨hnone, hs⟩ | ⟨-, hs⟩ := hs
    · rw [hnone, ← List.singleton_inj.mp hs] at hover
      exact ⟨hnone, (hoverridden.mp hover).2.2⟩
    · cases hs
  · intro hboth
    obtain ⟨hnone, hroom⟩ := hboth
    refine ⟨?_, ?_, ⟨newHeader device v [], entries body⟩, ?_, ?_⟩
    · rw [entries_append, lead_append_of_lead hlead]
    · rw [hother]
    · rw [hiface, hnone, List.nil_append]
    · rw [hnone]
      exact hoverridden.mpr ⟨hmethod, rfl, hroom⟩

/-! ### With one range -/

section Cut
variable {old new : List Line} {front part rear rest opts : List Entry} {head : Entry}

theorem stanzas_around (hfile : entries file = front ++ head :: rest) (hhead : isIfaceOf device head = true)
    (hfront : ∀ e ∈ front, isIfaceOf device e = false) (hrest : ∀ e ∈ rest, isIfaceOf device e = false) :
    ifaceStanzas device file = [⟨head, lead isHeader rest⟩] ∧
      otherStanzas device file = sections isHeader front ++ sections isHeader rest ∧
      lead isHeader (entries file) = lead isHeader front := by
  have hheader : isHeader head = true := isHeader_of_isIfaceOf hhead
  obtain ⟨hiface, hother⟩ := sections_around hheader hhead hfront hrest
  rw [ifaceStanzas, otherStanzas, hfile]
  exact ⟨hiface, hother, lead_append_of_lead (lead_cons_head hheader rest)⟩

/-- The stanzas of a file in which the device has one, and that is cut out with the
rest of `part`. -/
theorem updated_cut_iff (hold : entries old = front ++ head :: (part ++ rear))
    (hnew : entries new = front ++ rear ++ newHeader device v head :: (opts ++ part.filter (keeps v.given)))
    (hhead : isIfaceOf device head = true) (hothers : ∀ e ∈ front ++ (part ++ rear), isIfaceOf device e = false)
    (hopts : ∀ e ∈ opts, isHeader e = false) (hgiven : opts.map setting = givenSettings v.given) :
    Updated v.given device old new ↔ ((v.given .ip_addr_src).isSome ∨ (head[3]?).isSome) ∧
      Recut isHeader (keeps v.given) (isGiven v.given) front part rear := by
  obtain ⟨hfront, hpart, hrear⟩ : (∀ e ∈ front, isIfaceOf device e = false) ∧
      (∀ e ∈ part, isIfaceOf device e = false) ∧ ∀ e ∈ rear, isIfaceOf device e = false := by
    simpa only [List.forall_mem_append] using hothers
  have hkept : ∀ e ∈ opts ++ part.filter (keeps v.given), isIfaceOf device e = false := by
    refine List.forall_mem_append.mpr ⟨fun e he => not_isIfaceOf_of_not_isHeader (hopts e he), fun e he => ?_⟩
    exact hpart e (List.mem_of_mem_filter he)
  have hnone : sections isHeader opts = [] := sections_eq_nil_iff.mpr hopts
  obtain ⟨hiface, hother, hlead⟩ := stanzas_around hold hhead hfront (List.forall_mem_append.mpr ⟨hpart, hrear⟩)
  obtain ⟨hiface', hother', hlead'⟩ := stanzas_around hnew (isIfaceOf_newHeader (.inr hhead))
    (List.forall_mem_append.mpr ⟨hfront, hrear⟩) hkept
  rw [lead_append_of_no_head hnone] at hiface'
  rw [sections_append isHeader opts, hnone, extendLast, List.nil_append] at hother'
  have hgone : ∀ e, isGiven v.given e = true → keeps v.given e = false := fun _ => not_keeps_of_isGiven
  have hrest : ∀ e ∈ (lead isHeader (part.filter (keeps v.given))).map setting, isGiven v.given e = false := by
    exact List.forall_mem_map.mpr fun e he => not_isGiven_of_keeps (List.mem_filter.mp (mem_of_mem_lead he)).2
  have hoverridden : Overridden v.given (some ⟨head, lead isHeader (part ++ rear)⟩)
      ⟨newHeader device v head, opts ++ lead isHeader (part.filter (keeps v.given))⟩ ↔ _ :=
    overridden_iff (by rw [List.map_append, hgiven]) isGiven_givenSettings hrest (method_newHeader head)
  rw [method_newHeader, Option.isSome_or, Option.isSome_map, Bool.or_eq_true] at hoverridden
  constructor
  · intro hupdated
    obtain ⟨s, hs, hover⟩ := hupdated.stanza
    rw [hiface', List.singleton_inj] at hs
    rw [← hs, hiface] at hover
    obtain ⟨hmethod, hkept, -⟩ := hoverridden.mp hover
    refine ⟨hmethod, recut_of_subperm hgone ?_ ?_ ?_⟩
    · rw [← hlead', ← hlead, hupdated.lead]
    · have hlength := congrArg List.length (hkept.trans (filter_setting _))
      rwa [List.length_map, List.length_map] at hlength
    · have hsubperm := hupdated.others
      rwa [hother, hother'] at hsubperm
  · intro hboth
    obtain ⟨hmethod, hrecut⟩ := hboth
    refine ⟨?_, ?_, ⟨_, hiface', ?_⟩⟩
    · rw [hlead, hlead', hrecut.lead_front]
    · rw [hother, hother']
      exact hrecut.perm.subperm
    · rw [hiface]
      refine hoverridden.mpr ⟨hmethod, ?_, .refl _⟩
      rw [hrecut.lead_part hgone, ← hrecut.lead_cut]
      exact (filter_setting _).symm

end Cut

/-! ### Any number of ranges -/

theorem length_ifaceStanzas (device : Device) (file : List Line) :
    (ifaceStanzas device file).length = (entries file).countP (isIfaceOf device) := by
  rw [List.countP_eq_length_filter, ← heads_of_kind (fun _ => isHeader_of_isIfaceOf), List.length_map]
  rfl

theorem countP_entries {p : Entry → Bool} (hp : p [] = false) (file : List Line) :
    (entries file).countP p = file.countP fun l => p (words isBlank l) := by
  rw [entries, List.countP_filter, List.countP_map]
  refine List.countP_congr fun l _ => ?_
  rw [Function.comp_apply]
  cases hl : words isBlank l with
  | nil => simp [hp]
  | cons w ws => simp

theorem split_perm (device : Device) (file : List Line) :
    ((splitLines device file).1 ++ (splitLines device file).2).Perm file := ranges_perm false file

theorem start_of_split {l : Line} {old : List Line} (h : (splitLines device file).2 = l :: old) :
    (ifaceLine device).starts l = true := by
  have hhead : ∀ l ∈ (splitLines device file).2.head?, (ifaceLine device).starts l = true :=
    head_printRanges file
  rw [h] at hhead
  exact hhead l rfl

theorem mem_starts_of_split {l : Line} {old : List Line} (h : (splitLines device file).2 = l :: old) :
    l ∈ starts device file := by
  refine List.mem_filter.mpr ⟨?_, start_of_split h⟩
  rw [← (split_perm device file).mem_iff, h]
  exact List.mem_append_right _ (List.mem_cons_self ..)

/-- Each line that starts a range is an `iface` line of the part that is cut out. -/
theorem length_starts_le (device : Device) (file : List Line) :
    (starts device file).length ≤ (entries (splitLines device file).2).countP isIface := by
  have hperm := (split_perm device file).countP_eq (ifaceLine device).starts
  rw [List.countP_append, List.countP_eq_zero.mpr fun l hl => by
    simp [start_of_mem_deleteRanges false file l hl], Nat.zero_add] at hperm
  rw [starts, ← List.countP_eq_length_filter, ← hperm, countP_entries rfl]
  exact List.countP_mono_left fun l _ hl => isIface_of_start hl

/-- The new file has the `iface` lines of the part that is left, and one more. -/
theorem countP_new (unchanged : List Line) {head : Entry} {opts kept : List Entry}
    (hstanza : entries stanza = head :: (opts ++ kept.filter (keeps v.given))) (hhead : isIface head = true)
    (hopts : ∀ e ∈ opts, isHeader e = false) :
    (entries (unchanged ++ stanza)).countP isIface = (entries unchanged).countP isIface + 1 := by
  have hnone : ∀ e ∈ opts ++ kept.filter (keeps v.given), ¬ isIface e = true := by
    refine List.forall_mem_append.mpr ⟨fun e he hiface => ?_, fun e he hiface => ?_⟩
    · cases (hopts e he).symm.trans (isHeader_of_isIface hiface)
    · cases (not_keeps_of_isIface hiface).symm.trans (List.mem_filter.mp he).2
  rw [entries_append, List.countP_append, hstanza, List.countP_cons_of_pos hhead, List.countP_eq_zero.mpr hnone]

theorem countP_split {p : Entry → Bool} (hp : p [] = false) (device : Device) (file : List Line) :
    (entries (splitLines device file).1).countP p + (entries (splitLines device file).2).countP p =
      (entries file).countP p := by
  rw [countP_entries hp, countP_entries hp, countP_entries hp, ← List.countP_append]
  exact (split_perm device file).countP_eq _

/-- A stanza of the device with a method starts a range. -/
theorem start_of_stanza {s : Stanza} (h : s ∈ ifaceStanzas device file) (hmethod : (method s).isSome = true) :
    ∃ l ∈ starts device file, words isBlank l = s.head := by
  have hhead : s.head ∈ (entries file).filter (isIfaceOf device) := by
    rw [← heads_of_kind (fun _ => isHeader_of_isIfaceOf)]
    exact List.mem_map_of_mem h
  obtain ⟨hmem, hiface⟩ := List.mem_filter.mp hhead
  obtain ⟨l, hl, hwords⟩ := List.mem_map.mp (List.mem_of_mem_filter hmem)
  refine ⟨l, List.mem_filter.mpr ⟨hl, ?_⟩, hwords⟩
  obtain ⟨ws, hs⟩ := isIfaceOf_iff.mp hiface
  rw [method, hs] at hmethod
  cases ws with
  | nil => cases hmethod
  | cons w ws => exact ifaceLine_of_words (hwords.trans hs)

/-- The layout of a file in which one line starts a range. -/
theorem entries_of_one_start {l : Line} (hstart : starts device file = [l]) :
    (∃ old, (splitLines device file).2 = l :: old ∧
      entries old = entries (insideRange (ifaceLine device).starts isTab file)) ∧
    entries file = entries (beforeRange (ifaceLine device).starts file) ++ words isBlank l ::
      (entries (insideRange (ifaceLine device).starts isTab file) ++
        entries (behindRange (ifaceLine device).starts isTab file)) ∧
    entries (splitLines device file).1 = entries (beforeRange (ifaceLine device).starts file) ++
      entries (behindRange (ifaceLine device).starts isTab file) := by
  obtain ⟨stops, hstops, hfile, hdelete, hprint⟩ := ranges_of_one_start isTab hstart
  have htab : words isBlank "\t".toList = [] := by decide
  have htabs : entries stops = [] := by
    refine List.filter_eq_nil_iff.mpr (List.forall_mem_map.mpr fun l hl => ?_)
    rw [of_decide_eq_true (hstops l hl), htab]
    exact nofun
  have hl : isIface (words isBlank l) = true := by
    have hmem : l ∈ starts device file := by rw [hstart]; exact List.mem_singleton_self l
    exact isIface_of_start (List.mem_filter.mp hmem).2
  refine ⟨⟨_, hprint, ?_⟩, ?_, ?_⟩
  · rw [entries_append, htabs, List.append_nil]
  · refine (congrArg entries hfile).trans ?_
    rw [entries_append, entries_cons_of_isIface hl, entries_append, entries_append, htabs, List.append_nil]
  · rw [splitLines, hdelete, entries_append]

section Found
variable {l : Line} {old : List Line}

theorem countP_of_updated {new : List Line} (h : Updated v.given device file new) :
    (entries new).countP (isIfaceOf device) = 1 := by
  obtain ⟨s, hs, -⟩ := h.stanza
  rw [← length_ifaceStanzas, hs, List.length_singleton]

/-- The other stanzas have no room for a second `iface` line among what is cut out. -/
theorem countP_cut_le (hold : (splitLines device file).2 = l :: old)
    (h : Modified device v l old stanza)
    (hupdated : Updated v.given device file ((splitLines device file).1 ++ stanza)) :
    (entries (l :: old)).countP isIface ≤ (entries file).countP (isIfaceOf device) := by
  have hiface : isIface (words isBlank l) = true := isIface_of_start (start_of_split hold)
  have hcount : (entries file).countP isIface +
      (entries ((splitLines device file).1 ++ stanza)).countP (isIfaceOf device) ≤
      (entries ((splitLines device file).1 ++ stanza)).countP isIface +
        (entries file).countP (isIfaceOf device) :=
    count_le_of_subperm (fun _ => isIface_of_isIfaceOf) (fun _ => isHeader_of_isIface) hupdated.others
  have hnew := countP_new (splitLines device file).1 h (isIface_newHeader hiface)
    (entries_optionLines options fun _ h => h).1
  have hfile := countP_split (p := isIface) rfl device file
  rw [countP_of_updated hupdated, hnew] at hcount
  rw [hold] at hfile
  omega

theorem one_start_of_updated (honce : (ifaceStanzas device file).length ≤ 1)
    (hold : (splitLines device file).2 = l :: old)
    (h : Modified device v l old stanza)
    (hupdated : Updated v.given device file ((splitLines device file).1 ++ stanza)) :
    starts device file = [l] := by
  have hlen := length_starts_le device file
  have hcut := countP_cut_le hold h hupdated
  rw [length_ifaceStanzas] at honce
  rw [hold] at hlen
  have hmem := mem_starts_of_split hold
  cases hfound : starts device file with
  | nil =>
    rw [hfound] at hmem
    exact absurd hmem List.not_mem_nil
  | cons l' rest =>
    rw [hfound, List.length_cons] at hlen
    have hrest : rest = [] := List.eq_nil_of_length_eq_zero (by omega)
    rw [hfound, hrest, List.mem_singleton] at hmem
    rw [hrest, hmem]

/-- A range that another line starts leaves the device's stanza where it is, and its
line, rewritten, is not the device's either. -/
theorem not_need_of_other_start (hother : isIfaceOf device (words isBlank l) = false)
    (hold : (splitLines device file).2 = l :: old)
    (h : Modified device v l old stanza)
    (hupdated : Updated v.given device file ((splitLines device file).1 ++ stanza)) :
    (v .ip_addr_src).need = false := by
  have hiface : isIface (words isBlank l) = true := isIface_of_start (start_of_split hold)
  have hcut := countP_cut_le hold h hupdated
  have hfile := countP_split (p := isIfaceOf device) rfl device file
  have hnew := countP_of_updated hupdated
  have hle : (entries old).countP (isIfaceOf device) ≤ (entries old).countP isIface :=
    List.countP_mono_left fun _ _ => isIface_of_isIfaceOf
  rw [entries_cons_of_isIface hiface, List.countP_cons_of_pos hiface] at hcut
  rw [hold, entries_cons_of_isIface hiface, List.countP_cons_of_neg (by simp [hother])] at hfile
  rw [entries_append, List.countP_append, show entries stanza = _ from h] at hnew
  cases hneed : (v .ip_addr_src).need with
  | false => rfl
  | true =>
    rw [List.countP_cons_of_pos (isIfaceOf_newHeader (.inl hneed))] at hnew
    omega

/-- The line that starts the only range is the device's own. -/
theorem own_start_of_updated (hstart : starts device file = [l])
    (honce : (ifaceStanzas device file).length ≤ 1)
    (hold : (splitLines device file).2 = l :: old)
    (h : Modified device v l old stanza)
    (hupdated : Updated v.given device file ((splitLines device file).1 ++ stanza)) :
    isIfaceOf device (words isBlank l) = true := by
  by_contra hnot
  have hneed := not_need_of_other_start (Bool.eq_false_iff.mpr hnot) hold h hupdated
  have hiface : isIface (words isBlank l) = true := isIface_of_start (start_of_split hold)
  have hcut := countP_cut_le hold h hupdated
  rw [entries_cons_of_isIface hiface, List.countP_cons_of_pos hiface, ← length_ifaceStanzas] at hcut
  obtain ⟨t, ht⟩ := List.length_eq_one_iff.mp (show (ifaceStanzas device file).length = 1 by omega)
  obtain ⟨s, -, hover⟩ := hupdated.stanza
  have hmethod : (method t).isSome = true := by
    have hsome := hover.method_some
    rw [hover.method_eq, given_of_not_need hneed, ht] at hsome
    exact hsome
  have hmem : t ∈ ifaceStanzas device file := by
    rw [ht]
    exact List.mem_singleton_self t
  obtain ⟨l', hl', hwords⟩ := start_of_stanza hmem hmethod
  rw [hstart, List.mem_singleton] at hl'
  rw [← hl', hwords] at hnot
  exact hnot (List.mem_filter.mp hmem).2

end Found

/-- The only stanza of the device, where its line starts the only range. -/
theorem others_of_one_start {l : Line} (hstart : starts device file = [l])
    (hiface : isIfaceOf device (words isBlank l) = true) (honce : (ifaceStanzas device file).length ≤ 1) :
    ∀ e ∈ entries (beforeRange (ifaceLine device).starts file) ++
      (entries (insideRange (ifaceLine device).starts isTab file) ++
        entries (behindRange (ifaceLine device).starts isTab file)), isIfaceOf device e = false := by
  obtain ⟨-, hfile, -⟩ := entries_of_one_start hstart
  rw [length_ifaceStanzas, hfile, List.countP_append, List.countP_cons_of_pos hiface] at honce
  have hnone : (entries (beforeRange (ifaceLine device).starts file) ++
      (entries (insideRange (ifaceLine device).starts isTab file) ++
        entries (behindRange (ifaceLine device).starts isTab file))).countP (isIfaceOf device) = 0 := by
    rw [List.countP_append]
    omega
  exact fun e he => Bool.eq_false_iff.mpr (List.countP_eq_zero.mp hnone e he)

theorem separable_iff {l : Line} (hstart : starts device file = [l])
    (hiface : isIfaceOf device (words isBlank l) = true) (honce : (ifaceStanzas device file).length ≤ 1) :
    Separable device v.given file ↔ ((v.given .ip_addr_src).isSome ∨ ((words isBlank l)[3]?).isSome) ∧
      Recut isHeader (keeps v.given) (isGiven v.given) (entries (beforeRange (ifaceLine device).starts file))
        (entries (insideRange (ifaceLine device).starts isTab file))
        (entries (behindRange (ifaceLine device).starts isTab file)) := by
  obtain ⟨-, hfile, -⟩ := entries_of_one_start hstart
  obtain ⟨hfront, hrest⟩ := List.forall_mem_append.mp (others_of_one_start hstart hiface honce)
  obtain ⟨hstanza, -, -⟩ := stanzas_around hfile hiface hfront hrest
  constructor
  · intro hsome
    obtain ⟨⟨s, hs, -, hmethod⟩, hrecut⟩ := hsome
    rw [hstanza, List.singleton_inj] at hs
    rw [← hs] at hmethod
    exact ⟨hmethod, hrecut⟩
  · intro hboth
    obtain ⟨hmethod, hrecut⟩ := hboth
    exact ⟨⟨_, hstanza, by rw [hstart]; rfl, hmethod⟩, hrecut⟩

theorem updated_one_start_iff {l : Line} {old : List Line} (hstart : starts device file = [l])
    (hiface : isIfaceOf device (words isBlank l) = true) (honce : (ifaceStanzas device file).length ≤ 1)
    (hold : (splitLines device file).2 = l :: old) (h : Modified device v l old stanza) :
    Updated v.given device file ((splitLines device file).1 ++ stanza) ↔
      Separable device v.given file := by
  obtain ⟨⟨old', hold', hpart⟩, hfile, hunchanged⟩ := entries_of_one_start hstart
  have htail : old = old' := (List.cons.inj (hold.symm.trans hold')).2
  have hnew := entries_append (splitLines device file).1 stanza
  rw [hunchanged, h, htail, hpart] at hnew
  obtain ⟨hheaders, hsettings⟩ := entries_optionLines (v := v) options fun _ h => h
  rw [separable_iff hstart hiface honce]
  exact updated_cut_iff hfile hnew hiface (others_of_one_start hstart hiface honce) hheaders hsettings

theorem starts_of_split_nil (h : (splitLines device file).2 = []) : starts device file = [] := by
  have hlen := length_starts_le device file
  rw [h] at hlen
  exact List.length_eq_zero_iff.mp (Nat.le_zero.mp hlen)

theorem Separable.start {g : Parm → Option Word} (h : Separable device g file) :
    ∃ l, starts device file = [l] ∧ isIfaceOf device (words isBlank l) = true := by
  obtain ⟨s, hs, hwords, -⟩ := h.one_start
  obtain ⟨l, hstart, hhead⟩ := List.map_eq_singleton_iff.mp hwords
  have hkind := List.mem_filter.mp (show s ∈ ifaceStanzas device file by
    rw [hs]
    exact List.mem_singleton_self s)
  exact ⟨l, hstart, by rw [hhead]; exact hkind.2⟩

/-- With a range the stanza is modified. -/
theorem updated_modified_iff {l : Line} {old : List Line} (honce : (ifaceStanzas device file).length ≤ 1)
    (hold : (splitLines device file).2 = l :: old) (h : Modified device v l old stanza) :
    Updated v.given device file ((splitLines device file).1 ++ stanza) ↔ Separable device v.given file := by
  constructor
  · intro hupdated
    have hstart := one_start_of_updated honce hold h hupdated
    have hiface := own_start_of_updated hstart honce hold h hupdated
    exact (updated_one_start_iff hstart hiface honce hold h).mp hupdated
  · intro hsep
    obtain ⟨l', hstart, hiface⟩ := hsep.start
    have hmem := mem_starts_of_split hold
    rw [hstart, List.mem_singleton] at hmem
    rw [← hmem] at hstart hiface
    exact (updated_one_start_iff hstart hiface honce hold h).mpr hsep

end Update

end Idic.Ipmi.Lancontrol
