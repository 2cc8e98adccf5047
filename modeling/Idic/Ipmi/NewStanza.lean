import Idic.Ipmi.Interfaces

/-! The stanza that a set writes.

`modify_entries` and `create_entries` give its entries, and `overridden_iff` says
when its method and options are the old ones overridden by the given ones. -/
namespace Idic.Ipmi.Lancontrol
open Python Shell

/-! ### Kinds of entries -/

/-- An `iface` line. -/
def isIface : Entry → Bool
  | [] => false
  | w :: _ => w = "iface".toList

theorem isIface_of_isIfaceOf {device : Device} {e : Entry} (h : isIfaceOf device e = true) : isIface e = true := by
  match e, h with
  | _ :: _ :: _, h =>
    rw [isIfaceOf, Bool.and_eq_true] at h
    exact h.1

theorem isHeader_of_isIface {e : Entry} (h : isIface e = true) : isHeader e = true := by
  match e, h with
  | w :: _, h =>
    rw [isHeader, of_decide_eq_true h]
    decide

theorem isHeader_of_isIfaceOf {device : Device} {e : Entry} (h : isIfaceOf device e = true) :
    isHeader e = true := isHeader_of_isIface (isIface_of_isIfaceOf h)

section Given
variable {g : Parm → Option Word}

theorem not_keeps_of_isIface {e : Entry} (h : isIface e = true) : keeps g e = false := by
  match e, h with
  | w :: _, h =>
    have hw : startsWith "iface".toList (w :: ‹_›) = true := by
      rw [startsWith, of_decide_eq_true h, List.isPrefixOf_iff_prefix]
    rw [keeps, hw]
    rfl

theorem not_keeps_of_isGiven {e : Entry} (h : isGiven g e = true) : keeps g e = false := by
  match e, h with
  | w :: _, h =>
    obtain ⟨o, ho, hgiven⟩ := List.any_eq_true.mp h
    rw [Bool.and_eq_true, decide_eq_true_eq] at hgiven
    have hw : startsWith o.name (w :: ‹_›) = true := by
      rw [startsWith, hgiven.2, List.isPrefixOf_iff_prefix]
    have hall : (options.all fun o => !((g o.parm).isSome && startsWith o.name (w :: ‹_›))) = false := by
      rw [List.all_eq_false]
      exact ⟨o, ho, by simp [hgiven.1, hw]⟩
    rw [keeps, hall, Bool.and_false]

theorem isGiven_setting (e : Entry) : isGiven g (setting e) = isGiven g e := by
  match e with
  | [] => rfl
  | [_] => rfl
  | [_, _] => rfl
  | _ :: _ :: _ :: _ =>
    rw [setting]
    split <;> rfl

theorem filter_setting (entries : List Entry) : (entries.map setting).filter (fun e => !isGiven g e) =
    (entries.filter fun e => !isGiven g e).map setting := by
  rw [List.filter_map]
  congr 2
  funext e
  rw [Function.comp_apply, isGiven_setting]

/-- Options that no filter deletes are not given. -/
theorem not_isGiven_of_keeps {e : Entry} (h : keeps g e = true) : isGiven g (setting e) = false := by
  rw [isGiven_setting]
  cases hg : isGiven g e with
  | false => rfl
  | true => cases (not_keeps_of_isGiven hg).symm.trans h

theorem isGiven_name {o : OptionOf} (ho : o ∈ options) (hgiven : (g o.parm).isSome = true) (rest : List Str) :
    isGiven g (o.name :: rest) = true :=
  List.any_eq_true.mpr ⟨o, ho, by simp [hgiven]⟩

theorem isGiven_givenSettings : ∀ e ∈ givenSettings g, isGiven g e = true := by
  intro e he
  obtain ⟨o, ho, hval⟩ := List.mem_filterMap.mp he
  obtain ⟨val, hg, rfl⟩ := Option.map_eq_some_iff.mp hval
  exact isGiven_name ho (by rw [hg]; rfl) _

theorem not_isHeader_name {o : OptionOf} (ho : o ∈ options) (rest : List Str) :
    isHeader (o.name :: rest) = false := by
  have hnames : ∀ o ∈ options, startsStanza o.name = false := by decide
  exact hnames o ho

end Given

theorem isIface_of_start {device : Device} {l : Line} (h : (ifaceLine device).starts l = true) :
    isIface (words isBlank l) = true := by
  obtain ⟨rest, hwords⟩ := words_of_ifaceLine h
  rw [hwords, isIface]
  exact decide_eq_true rfl

theorem entries_cons_of_isIface {l : Line} (h : isIface (words isBlank l) = true) (file : List Line) :
    entries (l :: file) = words isBlank l :: entries file := by
  rw [entries_cons]
  cases hl : words isBlank l with
  | nil =>
    rw [hl] at h
    cases h
  | cons w ws => rfl

/-! ### The new stanza -/

section Stanza
variable {device : Device} {v : Vars} {stanza : Content Char}

theorem optionLines_cons (o : OptionOf) (opts : List OptionOf) : optionLines v (o :: opts) =
    (if (v o.parm).need then [o.line (v o.parm).value] else []) ++ optionLines v opts := by
  rw [optionLines, List.filter_cons]
  split <;> rfl

theorem isSome_given (p : Parm) : (v.given p).isSome = (v p).need := by
  rw [Vars.given]
  cases (v p).need <;> rfl

theorem given_of_need {p : Parm} (h : (v p).need = true) : v.given p = some (v p).value := if_pos h

theorem given_of_not_need {p : Parm} (h : (v p).need = false) : v.given p = none :=
  if_neg (Bool.eq_false_iff.mp h)

/-- Their entries are the settings that are given. -/
theorem entries_optionLines (opts : List OptionOf) (hopts : ∀ o ∈ opts, o ∈ options) :
    (∀ e ∈ entries (optionLines v opts), isHeader e = false) ∧
      (entries (optionLines v opts)).map setting =
        opts.filterMap fun o => (v.given o.parm).map fun val => [o.name, val.text] := by
  induction opts with
  | nil => exact ⟨fun _ h => absurd h List.not_mem_nil, rfl⟩
  | cons o opts ih =>
    obtain ⟨ho, hopts⟩ := List.forall_mem_cons.mp hopts
    obtain ⟨hheaders, hsettings⟩ := ih hopts
    rw [optionLines_cons, List.filterMap_cons]
    cases hneed : (v o.parm).need with
    | false =>
      rw [given_of_not_need hneed]
      exact ⟨hheaders, hsettings⟩
    | true =>
      obtain ⟨rest, hwords, hsetting⟩ := words_line ho (v o.parm).value
      rw [if_pos rfl, List.singleton_append, entries_cons, hwords, given_of_need hneed]
      constructor
      · exact List.forall_mem_cons.mpr ⟨not_isHeader_name ho rest, hheaders⟩
      · rw [← hsettings]
        exact congrArg (· :: _) hsetting

theorem optionLine_names : IsWord isBlank "iface".toList ∧ ∀ o ∈ options, IsWord isBlank o.name := by decide

/-- The filters of the script look at the first word of a line. -/
theorem keeps_words (l : Line) :
    (!(optionLine "iface".toList).starts l &&
        options.all fun o => !((v o.parm).need && (optionLine o.name).starts l)) =
      keeps v.given (words isBlank l) := by
  rw [keeps, optionLine_starts optionLine_names.1]
  congr 1
  rw [Bool.eq_iff_iff, List.all_eq_true, List.all_eq_true]
  refine forall₂_congr fun o ho => ?_
  rw [optionLine_starts (optionLine_names.2 o ho), isSome_given]

/-- The first line of the new stanza, where the old one has `l`. -/
def newLine (device : Device) (v : Vars) (l : Line) : Line :=
  if (v .ip_addr_src).need then ifaceText device (v .ip_addr_src).value.text else l

def newHeader (device : Device) (v : Vars) (old : Entry) : Entry :=
  if (v .ip_addr_src).need then
    ["iface".toList, device.text, "inet".toList, (v .ip_addr_src).value.text]
  else old

theorem words_newLine (l : Line) : words isBlank (newLine device v l) = newHeader device v (words isBlank l) := by
  rw [newLine, newHeader]
  split
  · exact words_ifaceText device (v .ip_addr_src).value.isWord
  · rfl

theorem isIface_newHeader {old : Entry} (h : isIface old = true) : isIface (newHeader device v old) = true := by
  rw [newHeader]
  split
  · rw [isIface]
    exact decide_eq_true rfl
  · exact h

/-- What the script keeps of the old stanza. -/
def keptLines (v : Vars) (old : Content Char) : Content Char :=
  old.filter fun l => keeps v.given (words isBlank l)

theorem doModifyStanza_eq_ok {old stale : Content Char} {l : Line} {rest : List Line} (hall : old.all = l :: rest)
    (h : doModifyStanza device v old stale = .ok stanza) :
    stanza = ((if (v .ip_addr_src).need then .ofLines [ifaceText device (v .ip_addr_src).value.text]
      else old.first).cat (.ofLines (optionLines v options))).cat (keptLines v old) := by
  have hkeeps : (fun l => !(optionLine "iface".toList).starts l &&
      options.all fun o => !((v o.parm).need && (optionLine o.name).starts l)) =
        fun l => keeps v.given (words isBlank l) := funext keeps_words
  have hsome : old.isEmpty = false := by
    rw [← Bool.not_eq_true, Content.isEmpty_iff, hall]
    exact List.cons_ne_nil l rest
  rw [doModifyStanza_eq stale hsome, hkeeps] at h
  exact (Except.ok.inj h).symm

/-- Where the first line of the new stanza has its newline. -/
theorem modify_eq {old stale : Content Char} {l : Line} {rest : List Line} (hall : old.all = l :: rest)
    (hends : (v .ip_addr_src).need = true ∨ old.lines ≠ [])
    (h : doModifyStanza device v old stale = .ok stanza) :
    stanza = (Content.ofLines (newLine device v l :: optionLines v options)).cat (keptLines v old) := by
  rw [doModifyStanza_eq_ok hall h]
  congr 1
  have hfirst : (if (v .ip_addr_src).need then .ofLines [ifaceText device (v .ip_addr_src).value.text]
      else old.first) = Content.ofLines [newLine device v l] := by
    rw [newLine]
    split
    · rfl
    · next hneed =>
      cases hlines : old.lines with
      | nil => exact absurd hlines (hends.resolve_left hneed)
      | cons l' ls =>
        rw [Content.all, hlines] at hall
        rw [Content.first, hlines, (List.cons.inj hall).1]
        rfl
  rw [hfirst, Content.cat_of_no_rest rfl]
  rfl

theorem entries_keptLines {old : Content Char} {l : Line} {rest : List Line} (hall : old.all = l :: rest)
    (hwords : isIface (words isBlank l) = true) :
    entries (keptLines v old).all = (entries rest).filter (keeps v.given) := by
  have hcut : keeps v.given (words isBlank l) = false := not_keeps_of_isIface hwords
  rw [keptLines, Content.all_filter, entries_filter, hall, entries_cons_of_isIface hwords,
    List.filter_cons_of_neg (by simp [hcut])]

theorem modify_entries {old stale : Content Char} {l : Line} {rest : List Line} (hall : old.all = l :: rest)
    (hwords : isIface (words isBlank l) = true) (hends : (v .ip_addr_src).need = true ∨ old.lines ≠ [])
    (h : doModifyStanza device v old stale = .ok stanza) :
    entries stanza.all = newHeader device v (words isBlank l) ::
      (entries (optionLines v options) ++ (entries rest).filter (keeps v.given)) := by
  have hheader : isIface (words isBlank (newLine device v l)) = true := by
    rw [words_newLine]
    exact isIface_newHeader hwords
  rw [modify_eq hall hends h, entries_cat rfl, Content.all_ofLines, entries_keptLines hall hwords,
    entries_cons_of_isIface hheader, words_newLine]
  rfl

theorem line_eq {o : OptionOf} {text : Str} (h : text = "\t".toList ++ o.name ++ o.before) (val : Word) :
    text ++ val.text = o.line val := by rw [h, OptionOf.line]

/-- The lines of a new stanza are those of the options that are set, except that one
for `dhcp` has at most the hardware address. -/
theorem doCreateStanza_eq_ok {stale : Content Char} (hchecked : Checked v)
    (h : doCreateStanza device v stale = .ok stanza) : (v .ip_addr_src).need = true ∧
      (((v .ip_addr_src).value.text = "dhcp".toList ∧
          stanza = .ofLines ([ifaceText device (v .ip_addr_src).value.text] ++
            (if (v .mac_addr).need then ["\thwaddress ".toList ++ (v .mac_addr).value.text] else []) ++
            ["\t".toList])) ∨
        ((v .ip_addr_src).value.text = "static".toList ∧
          stanza = .ofLines ([ifaceText device (v .ip_addr_src).value.text] ++ optionLines v options ++
            ["  ".toList]))) := by
  rw [doCreateStanza] at h
  cases hneed : (v .ip_addr_src).need with
  | false =>
    rw [hneed] at h
    cases h
  | true =>
    rw [hneed] at h
    refine ⟨rfl, ?_⟩
    rcases hchecked hneed with hsrc | hsrc
    · have hne : ¬ "static".toList = "dhcp".toList := by decide
      rw [hsrc, if_neg (by decide), if_neg hne, if_pos rfl] at h
      split at h
      · cases h
      split at h
      · cases h
      next hip hmask =>
      rw [Bool.not_eq_true', Bool.not_eq_false] at hip hmask
      cases h
      refine .inr ⟨hsrc, ?_⟩
      rw [hsrc, options, optionLines_cons, optionLines_cons, optionLines_cons, optionLines_cons,
        if_pos hip, if_pos hmask, line_eq (o := ⟨.ip_addr, "address".toList, " ".toList⟩) (by decide),
        line_eq (o := ⟨.subnet_mask, "netmask".toList, " ".toList⟩) (by decide),
        line_eq (o := ⟨.default_gw_ip_addr, "gateway".toList, " ".toList⟩) (by decide),
        line_eq (o := ⟨.mac_addr, "hwaddress".toList, " ether ".toList⟩) (by decide)]
      simp only [List.append_assoc]
      rfl
    · rw [hsrc, if_neg (by decide), if_pos rfl] at h
      cases h
      exact .inl ⟨hsrc, by rw [hsrc]⟩

theorem method_newHeader (old : Entry) :
    (newHeader device v old)[3]? = ((v.given .ip_addr_src).map Word.text).or old[3]? := by
  rw [newHeader]
  cases hneed : (v .ip_addr_src).need with
  | true =>
    rw [given_of_need hneed]
    rfl
  | false =>
    rw [given_of_not_need hneed]
    rfl

/-- The settings of a new stanza. -/
def createdSettings (g : Parm → Option Word) : List Entry :=
  if (g .ip_addr_src).map Word.text = some "dhcp".toList then
    (g .mac_addr).toList.map fun val => ["hwaddress".toList, val.text]
  else givenSettings g

theorem create_entries {stale : Content Char} (hchecked : Checked v)
    (h : doCreateStanza device v stale = .ok stanza) : ∃ body,
      stanza = .ofLines (ifaceText device (v .ip_addr_src).value.text :: body) ∧ (v .ip_addr_src).need = true ∧
      (∀ e ∈ entries body, isHeader e = false) ∧ (entries body).map setting = createdSettings v.given := by
  obtain ⟨hneed, ⟨hsrc, rfl⟩ | ⟨hsrc, rfl⟩⟩ := doCreateStanza_eq_ok hchecked h
  · refine ⟨(if (v .mac_addr).need then ["\thwaddress ".toList ++ (v .mac_addr).value.text] else []) ++
      ["\t".toList], ?_, hneed, ?_⟩
    · rw [List.append_assoc, List.singleton_append]
    · have hdhcp : (v.given .ip_addr_src).map Word.text = some "dhcp".toList := by
        rw [given_of_need hneed, Option.map_some, hsrc]
      have htab : entries ["\t".toList] = [] := by decide
      rw [createdSettings, if_pos hdhcp, entries_append, htab, List.append_nil]
      cases hmac : (v .mac_addr).need with
      | false =>
        rw [given_of_not_need hmac]
        exact ⟨fun _ h => absurd h List.not_mem_nil, rfl⟩
      | true =>
        have htext : "\thwaddress ".toList = "\t".toList ++ "hwaddress".toList ++ " ".toList := by decide
        rw [given_of_need hmac, if_pos rfl, entries_cons, htext, words_option (by decide)]
        refine ⟨List.forall_mem_cons.mpr ⟨?_, fun _ h => absurd h List.not_mem_nil⟩, rfl⟩
        exact not_isHeader_name (o := ⟨.mac_addr, "hwaddress".toList, " ether ".toList⟩) (by decide) _
  · obtain ⟨hheaders, hsettings⟩ := entries_optionLines (v := v) options fun _ h => h
    have hblank : entries ["  ".toList] = [] := by decide
    refine ⟨optionLines v options ++ ["  ".toList], ?_, hneed, ?_⟩
    · rw [List.append_assoc, List.singleton_append]
    · have hne : ¬ some (v .ip_addr_src).value.text = some "dhcp".toList := by
        rw [hsrc]
        decide
      rw [createdSettings, given_of_need hneed, Option.map_some, if_neg hne, entries_append, hblank,
        List.append_nil]
      exact ⟨hheaders, hsettings⟩

end Stanza

/-! ### What is overridden -/

section Overridden
variable {g : Parm → Option Word}

theorem overridden_iff {before : Option Stanza} {head : Entry} {body given rest : List Entry}
    (hbody : body.map setting = given ++ rest) (hgiven : ∀ e ∈ given, isGiven g e = true)
    (hrest : ∀ e ∈ rest, isGiven g e = false)
    (hmethod : head[3]? = ((g .ip_addr_src).map Word.text).or (before.bind method)) :
    Overridden g before ⟨head, body⟩ ↔ (head[3]?).isSome ∧
      rest = (before.elim [] settings).filter (fun e => !isGiven g e) ∧ given.Perm (givenSettings g) := by
  have hkept : (settings ⟨head, body⟩).filter (fun e => !isGiven g e) = rest := by
    rw [settings, hbody, List.filter_append, List.filter_eq_nil_iff.mpr fun e he => by simp [hgiven e he],
      List.filter_eq_self.mpr fun e he => by simp [hrest e he], List.nil_append]
  have htaken : (settings ⟨head, body⟩).filter (isGiven g) = given := by
    rw [settings, hbody, List.filter_append, List.filter_eq_self.mpr hgiven,
      List.filter_eq_nil_iff.mpr fun e he => by simp [hrest e he], List.append_nil]
  constructor
  · intro hboth
    obtain ⟨hsome, -, hold, hnew⟩ := hboth
    rw [hkept] at hold
    rw [htaken] at hnew
    exact ⟨hsome, hold, hnew⟩
  · intro hboth
    obtain ⟨hsome, hold, hnew⟩ := hboth
    exact ⟨hsome, hmethod, hkept.trans hold, htaken.symm ▸ hnew⟩

theorem filterMap_cons_toList {α β : Type} (f : α → Option β) (a : α) (l : List α) :
    (a :: l).filterMap f = (f a).toList ++ l.filterMap f := by
  rw [List.filterMap_cons]
  cases f a <;> rfl

/-- What a new stanza leaves out. -/
theorem createdSettings_perm_iff : (createdSettings g).Perm (givenSettings g) ↔
    ((g .ip_addr_src).map Word.text = some "dhcp".toList →
      g .ip_addr = none ∧ g .subnet_mask = none ∧ g .default_gw_ip_addr = none) := by
  rw [createdSettings]
  split
  · next hsrc =>
    rw [givenSettings, options, filterMap_cons_toList, filterMap_cons_toList, filterMap_cons_toList,
      filterMap_cons_toList, List.filterMap_nil, List.append_nil]
    constructor
    · intro hperm _
      have hlen := hperm.length_eq
      simp only [List.length_append, List.length_map, Option.length_toList, Option.isSome_map] at hlen
      have hnone : ∀ p, (if (g p).isSome then 1 else 0) = 0 → g p = none := fun p h => by
        cases hp : g p with
        | none => rfl
        | some val =>
          rw [hp] at h
          cases h
      exact ⟨hnone _ (by omega), hnone _ (by omega), hnone _ (by omega)⟩
    · intro hnone
      obtain ⟨hip, hmask, hgw⟩ := hnone hsrc
      rw [hip, hmask, hgw]
      cases g .mac_addr <;> exact .refl _
  · next hsrc => exact ⟨fun _ h => absurd h hsrc, fun _ => .refl _⟩

theorem isGiven_createdSettings : ∀ e ∈ createdSettings g, isGiven g e = true := by
  rw [createdSettings]
  split
  · intro e he
    obtain ⟨val, hval, rfl⟩ := List.mem_map.mp he
    rw [Option.mem_toList] at hval
    exact isGiven_name (o := ⟨.mac_addr, "hwaddress".toList, " ether ".toList⟩) (by decide)
      (by rw [Option.mem_def.mp hval]; rfl) _
  · exact isGiven_givenSettings

end Overridden

end Idic.Ipmi.Lancontrol
