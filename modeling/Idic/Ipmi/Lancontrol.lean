import Idic.Python.Text
import Idic.Shell.Files

/-! The `set` operation of `lancontrol`.

A set collects its parameters, cuts the stanza of its device out of
`/etc/network/interfaces` with `sed`, rewrites it and puts it at the end of the file.
The last line of that file may have no newline. `doModifyStanza_eq` gives the new
stanza as its three parts: its first line, the options that are set, and the lines of
the old stanza that no filter deletes. -/
namespace Idic.Ipmi.Lancontrol
open Python Shell

abbrev Line := List Char

/-- A space or a tab. -/
def isBlank (c : Char) : Bool := c = ' ' || c = '\t'

/-- A character that neither ends a word nor is special to `echo`. -/
def isPlain (c : Char) : Bool := !(isBlank c || c ∈ "\n\\".toList)

/-- A word of the command line. Taken for a file name pattern it matches no file, so
that it stands for itself wherever the script expands it. -/
structure Word where
  text : Str
  nonempty : text ≠ []
  plain : text.all isPlain = true
  deriving DecidableEq

/-- The name of a network device, in which nothing but a dot is special to `sed`. -/
structure Device extends Word where
  literal : text.all (fun c => !(c ∈ "/*[".toList)) = true
  deriving DecidableEq

theorem isBlank_space : isBlank ' ' = true := rfl

theorem isBlank_tab : isBlank '\t' = true := rfl

theorem isBlank_of_isPlain {c : Char} (h : isPlain c = true) : isBlank c = false := by
  rw [isPlain, Bool.not_eq_true', Bool.or_eq_false_iff] at h
  exact h.1

theorem Word.isWord (w : Word) : IsWord isBlank w.text :=
  ⟨w.nonempty, fun c hc => isBlank_of_isPlain (List.all_eq_true.mp w.plain c hc)⟩

/-! ### The parameters -/

/-- The parameters that `set` takes. -/
inductive Parm where
  | ip_addr_src
  | ip_addr
  | subnet_mask
  | default_gw_ip_addr
  | mac_addr
  deriving DecidableEq, Repr

def Parm.name : Parm → Str
  | .ip_addr_src => "ip_addr_src".toList
  | .ip_addr => "ip_addr".toList
  | .subnet_mask => "subnet_mask".toList
  | .default_gw_ip_addr => "default_gw_ip_addr".toList
  | .mac_addr => "mac_addr".toList

def Parm.all : List Parm := [.ip_addr_src, .ip_addr, .subnet_mask, .default_gw_ip_addr, .mac_addr]

def Parm.ofName (name : Str) : Option Parm := all.find? fun p => p.name = name

/-- The pair of `need_..` and the variable of the parameter's name. -/
structure Var where
  need : Bool
  value : Word
  deriving DecidableEq

abbrev Vars := Parm → Var

/-- What the script sets them to at its start. -/
def initial : Vars
  | .ip_addr_src => ⟨false, "dhcp".toList, by decide, by decide⟩
  | .ip_addr => ⟨false, "0.0.0.0".toList, by decide, by decide⟩
  | .subnet_mask => ⟨false, "255.255.255.255".toList, by decide, by decide⟩
  | .default_gw_ip_addr => ⟨false, "0.0.0.0".toList, by decide, by decide⟩
  | .mac_addr => ⟨false, "00:00:00:00:00:00".toList, by decide, by decide⟩

/-- Groups of characters with a separator between them. -/
def groups (group : Pattern Char) (sep : Char) : Nat → Pattern Char
  | 0 => group
  | n + 1 => .seq group (.seq (.lit [sep]) (groups group sep n))

/-- `[0-9]{1,3}[.][0-9]{1,3}[.][0-9]{1,3}[.][0-9]{1,3}` -/
def ipAddress : Pattern Char := groups (.upTo Char.isDigit 2) '.' 3

def isHexDigit (c : Char) : Bool :=
  c.isDigit || ('a' ≤ c && c ≤ 'f') || ('A' ≤ c && c ≤ 'F')

/-- `[[:xdigit:]]{1,2}`, six times with `[:]` between. -/
def macAddress : Pattern Char := groups (.upTo isHexDigit 1) ':' 5

def invalidValue (parm val : Str) : Str :=
  "Invalid value ".toList ++ val ++ " for parameter ".toList ++ parm

def doCheck (parm val : Word) : Except Str Unit :=
  match Parm.ofName parm.text with
  | some .ip_addr_src =>
    if val.text = "static".toList || val.text = "dhcp".toList then .ok ()
    else .error ("Invalid ip_addr_src: ".toList ++ val.text)
  | some .ip_addr | some .subnet_mask | some .default_gw_ip_addr =>
    if ipAddress.found val.text then .ok () else .error (invalidValue parm.text val.text)
  | some .mac_addr =>
    if macAddress.found val.text then .ok () else .error (invalidValue parm.text val.text)
  | none => .error ("Invalid parameter: ".toList ++ parm.text)

/-- The loop of `do_set` over its arguments. -/
def setLoop : List Word → Vars → Except Str Vars
  | [], v => .ok v
  | [parm], _ => .error ("No value present for parameter ".toList ++ parm.text)
  | parm :: val :: rest, v => do
    doCheck parm val
    match Parm.ofName parm.text with
    | some p => setLoop rest (Function.update v p ⟨true, val⟩)
    | none => .error ("Invalid parameter: ".toList ++ rest.head?.elim [] Word.text)

/-! ### The stanza -/

section Stanza
variable (device : Device) (v : Vars)

/-- `^[ \t]*iface[ \t][ \t]*$device[ \t]`, with any character for a dot of the name. -/
def ifaceLine : Pattern Char :=
  .seq (.star isBlank) <| .seq (.lit "iface".toList) <| .seq (.one isBlank) <|
    .seq (.star isBlank) <| .seq (.all (device.text.map fun c x => c = '.' || x = c)) <| .one isBlank

/-- `^\t$` -/
def isTab (l : Line) : Bool := l = "\t".toList

/-- `^[ \t]*name` -/
def optionLine (name : Str) : Pattern Char := .seq (.star isBlank) (.lit name)

/-- The line that starts a stanza of the script's own. -/
def ifaceText (src : Str) : Line := "iface ".toList ++ device.text ++ " inet ".toList ++ src

/-- A parameter that is an option of the stanza, with the option's name and what
stands between the name and the value. -/
structure OptionOf where
  parm : Parm
  name : Str
  before : Str
  deriving DecidableEq, Repr

/-- In the order of the script. -/
def options : List OptionOf :=
  [⟨.ip_addr, "address".toList, " ".toList⟩, ⟨.subnet_mask, "netmask".toList, " ".toList⟩,
    ⟨.default_gw_ip_addr, "gateway".toList, " ".toList⟩, ⟨.mac_addr, "hwaddress".toList, " ether ".toList⟩]

def OptionOf.line (o : OptionOf) (value : Word) : Line := "\t".toList ++ o.name ++ o.before ++ value.text

/-- `stale` is what an earlier run has left in `/tmp/ipmi_ifaces_stanza`. -/
def doCreateStanza (stale : Content Char) : Except Str (Content Char) :=
  if !(v .ip_addr_src).need then
    .error "ip_addr_src required for new interface stanza - fail".toList
  else if (v .ip_addr_src).value.text = "dhcp".toList then
    .ok (.ofLines ([ifaceText device "dhcp".toList] ++
      (if (v .mac_addr).need then ["\thwaddress ".toList ++ (v .mac_addr).value.text] else []) ++
      ["\t".toList]))
  else if (v .ip_addr_src).value.text = "static".toList then
    if !(v .ip_addr).need then .error "static configuration requires ip_addr - fail".toList
    else if !(v .subnet_mask).need then .error "static configuration requires subnet_mask - fail".toList
    else
      .ok (.ofLines ([ifaceText device "static".toList] ++
        ["\taddress ".toList ++ (v .ip_addr).value.text] ++
        ["\tnetmask ".toList ++ (v .subnet_mask).value.text] ++
        (if (v .default_gw_ip_addr).need then ["\tgateway ".toList ++ (v .default_gw_ip_addr).value.text]
          else []) ++
        (if (v .mac_addr).need then ["\thwaddress ether ".toList ++ (v .mac_addr).value.text] else []) ++
        ["  ".toList]))
  else .ok stale

/-- The files `ipmi_interfaces_unchanged` and `ipmi_old_stanza`. -/
def doSplitInterfaces (file : Content Char) : Content Char × Content Char :=
  (file.deleteRanges (ifaceLine device).starts isTab, file.printRanges (ifaceLine device).starts isTab)

/-- A parameter that is set: `files` are `ipmi_old_stanza_src` and
`ipmi_ifaces_stanza`. -/
def setOption (files : Content Char × Content Char) (o : OptionOf) : Content Char × Content Char :=
  if (v o.parm).need then
    (files.1.filter fun l => !(optionLine o.name).starts l, files.2.append (o.line (v o.parm).value))
  else files

def doModifyStanza (old stale : Content Char) : Except Str (Content Char) :=
  if old.isEmpty then doCreateStanza device v stale
  else
    let src := old.filter fun l => !(optionLine "iface".toList).starts l
    let stanza :=
      if (v .ip_addr_src).need then .ofLines [ifaceText device (v .ip_addr_src).value.text] else old.first
    let files := options.foldl (setOption v) (src, stanza)
    .ok (files.2.cat files.1)

end Stanza

section Spec
variable {device : Device} {v v' : Vars} {l : Line}

theorem Parm.ofName_eq_some {name : Str} {p : Parm} (h : Parm.ofName name = some p) : name = p.name := by
  have hp := List.find?_some h
  exact (of_decide_eq_true hp).symm

theorem Parm.name_injective : ∀ p q : Parm, p.name = q.name → p = q := by
  intro p q h
  cases p <;> cases q <;> first | rfl | exact absurd h (by decide)

/-- One parameter of the loop. -/
theorem setLoop_cons {parm val : Word} {rest : List Word} (h : setLoop (parm :: val :: rest) v = .ok v') :
    ∃ p, parm.text = p.name ∧ doCheck parm val = .ok () ∧
      setLoop rest (Function.update v p ⟨true, val⟩) = .ok v' := by
  rw [setLoop, bind_eq_ok] at h
  obtain ⟨_, hcheck, h⟩ := h
  split at h
  · next p hp => exact ⟨p, Parm.ofName_eq_some hp, hcheck, h⟩
  · cases h

/-- The address source is one that the check lets pass. -/
def Checked (v : Vars) : Prop :=
  (v .ip_addr_src).need = true →
    (v .ip_addr_src).value.text = "static".toList ∨ (v .ip_addr_src).value.text = "dhcp".toList

theorem checked_initial : Checked initial := nofun

theorem doCheck_source {parm val : Word} (hname : parm.text = Parm.ip_addr_src.name)
    (h : doCheck parm val = .ok ()) : val.text = "static".toList ∨ val.text = "dhcp".toList := by
  have hp : Parm.ofName parm.text = some .ip_addr_src := by
    rw [hname]
    decide
  rw [doCheck, hp] at h
  simp only [Bool.or_eq_true, decide_eq_true_eq] at h
  split at h
  · assumption
  · cases h

theorem setLoop_checked : {args : List Word} → {v : Vars} → Checked v → setLoop args v = .ok v' → Checked v'
  | [], _, hv, h => by
    cases h
    exact hv
  | [_], _, _, h => by cases h
  | _ :: val :: rest, v, hv, h => by
    obtain ⟨p, hname, hcheck, h⟩ := setLoop_cons h
    refine setLoop_checked ?_ h
    intro hneed
    by_cases hp : p = .ip_addr_src
    · subst hp
      rw [Function.update_self]
      exact doCheck_source hname hcheck
    · rw [Function.update_of_ne (Ne.symm hp)] at hneed ⊢
      exact hv hneed

/-- The lines of the options that are set. -/
def optionLines (v : Vars) (opts : List OptionOf) : List Line :=
  (opts.filter fun o => (v o.parm).need).map fun o => o.line (v o.parm).value

/-- What is left after the filter of every option that is set, and the lines for
them. -/
theorem foldl_setOption (opts : List OptionOf) (src stanza : Content Char) :
    opts.foldl (setOption v) (src, stanza) =
      (src.filter fun l => opts.all fun o => !((v o.parm).need && (optionLine o.name).starts l),
        stanza.cat (.ofLines (optionLines v opts))) := by
  rw [← Content.foldl_append]
  induction opts generalizing src stanza with
  | nil =>
    rw [List.foldl_nil]
    exact congrArg (·, _) (Content.filter_true src).symm
  | cons o opts ih =>
    rw [List.foldl_cons, setOption, optionLines, List.filter_cons]
    cases hneed : (v o.parm).need with
    | true => simp [ih, hneed, Content.filter_filter, optionLines]
    | false => simp [ih, hneed, optionLines]

theorem doModifyStanza_eq {old : Content Char} (stale : Content Char) (h : old.isEmpty = false) :
    doModifyStanza device v old stale =
      .ok (((if (v .ip_addr_src).need then .ofLines [ifaceText device (v .ip_addr_src).value.text]
          else old.first).cat (.ofLines (optionLines v options))).cat
        (old.filter fun l => !(optionLine "iface".toList).starts l &&
          options.all fun o => !((v o.parm).need && (optionLine o.name).starts l))) := by
  simp only [doModifyStanza, h, Bool.false_eq_true, if_false, foldl_setOption, Content.filter_filter]

/-! ### What the patterns match -/

/-- The first word of a line starts with the name. -/
def startsWith (name : Str) : List Str → Bool
  | [] => false
  | w :: _ => name.isPrefixOf w

theorem optionLine_starts {name : Str} (hname : IsWord isBlank name) (l : Line) :
    (optionLine name).starts l = startsWith name (words isBlank l) := by
  rw [Bool.eq_iff_iff, Pattern.starts_iff]
  constructor
  · intro hsome
    obtain ⟨r, hr⟩ := hsome
    obtain ⟨t, ht, hname'⟩ := Pattern.mem_seq.mp hr
    obtain ⟨u, rfl, hu⟩ := Pattern.mem_star.mp ht
    rw [Pattern.mem_lit.mp hname', ← List.append_assoc, words_prefix hu hname, startsWith,
      List.isPrefixOf_iff_prefix]
    exact List.prefix_append ..
  · intro h
    rcases words_cases isBlank l with ⟨hnil, -⟩ | ⟨u, w, rest, hl, hu, -, -, hwords⟩
    · rw [hnil] at h
      cases h
    · rw [hwords, startsWith, List.isPrefixOf_iff_prefix] at h
      obtain ⟨more, rfl⟩ := h
      refine ⟨more ++ rest, Pattern.mem_seq.mpr ⟨name ++ more ++ rest, ?_, ?_⟩⟩
      · exact Pattern.mem_star.mpr ⟨u, by rw [hl, List.append_assoc], hu⟩
      · exact Pattern.mem_lit.mpr (List.append_assoc ..)

/-- A line that starts a range is an `iface` line. -/
theorem words_of_ifaceLine (h : (ifaceLine device).starts l = true) :
    ∃ rest, words isBlank l = "iface".toList :: rest := by
  obtain ⟨r, hr⟩ := Pattern.starts_iff.mp h
  obtain ⟨t, hlead, hr⟩ := Pattern.mem_seq.mp hr
  obtain ⟨u, hl, hu⟩ := Pattern.mem_star.mp hlead
  obtain ⟨rest, hiface, hr⟩ := Pattern.mem_seq.mp hr
  obtain ⟨rest', hblank, -⟩ := Pattern.mem_seq.mp hr
  obtain ⟨c, hc, hrest⟩ := Pattern.mem_one.mp hblank
  have hends : Ends isBlank rest := by
    rw [hrest]
    intro c' hc'
    cases hc'
    exact hc
  refine ⟨words isBlank rest, ?_⟩
  rw [hl, words_append_of_sep hu, Pattern.mem_lit.mp hiface]
  exact words_word_append (by decide) hends

theorem words_eq_cons {w : Str} {ws : List Str} (h : words isBlank l = w :: ws) :
    ∃ u rest, l = u ++ w ++ rest ∧ (∀ c ∈ u, isBlank c = true) ∧ Ends isBlank rest ∧
      words isBlank rest = ws := by
  rcases words_cases isBlank l with ⟨hnil, -⟩ | ⟨u, w', rest, hl, hu, -, hends, hwords⟩
  · cases hnil.symm.trans h
  · rw [hwords] at h
    obtain ⟨hw', hws⟩ := List.cons.inj h
    exact ⟨u, rest, hw' ▸ hl, hu, hends, hws⟩

/-- A rest of a line with words starts with a blank. -/
theorem ends_cons {rest : List Char} (h : Ends isBlank rest) (hwords : words isBlank rest ≠ []) :
    ∃ c t, rest = c :: t ∧ isBlank c = true := by
  cases rest with
  | nil => exact absurd rfl hwords
  | cons c t => exact ⟨c, t, rfl, h c rfl⟩

/-- A line of the device starts a range, or ends with the device's name. -/
theorem ifaceLine_cases {ws : List Str} (h : words isBlank l = "iface".toList :: device.text :: ws) :
    (ifaceLine device).starts l = true ∨ ∃ u c u', l = u ++ ("iface".toList ++ c :: (u' ++ device.text)) ∧
      (∀ c ∈ u, isBlank c = true) ∧ isBlank c = true ∧ ∀ c ∈ u', isBlank c = true := by
  obtain ⟨u, rest, rfl, hu, hends, hrest⟩ := words_eq_cons h
  obtain ⟨c, t, rfl, hc⟩ := ends_cons hends (by simp [hrest])
  rw [words_cons_sep hc] at hrest
  obtain ⟨u', rest', rfl, hu', hends', -⟩ := words_eq_cons hrest
  cases rest' with
  | nil => exact .inr ⟨u, c, u', by rw [List.append_nil, List.append_assoc], hu, hc, hu'⟩
  | cons c' t' =>
    have hname : List.Forall₂ (fun p x => p x = true) (device.text.map fun c x => c = '.' || x = c) device.text := by
      rw [List.forall₂_map_left_iff]
      exact List.forall₂_same.mpr fun c _ => by simp
    have hlead : "iface".toList ++ c :: (u' ++ device.text ++ c' :: t') ∈
        Pattern.star isBlank (u ++ "iface".toList ++ c :: (u' ++ device.text ++ c' :: t')) :=
      Pattern.mem_star.mpr ⟨u, List.append_assoc .., hu⟩
    have hgap : device.text ++ c' :: t' ∈ Pattern.star isBlank (u' ++ device.text ++ c' :: t') :=
      Pattern.mem_star.mpr ⟨u', List.append_assoc .., hu'⟩
    refine .inl (Pattern.starts_iff.mpr ⟨t', Pattern.mem_seq.mpr ⟨_, hlead, ?_⟩⟩)
    refine Pattern.mem_seq.mpr ⟨_, Pattern.mem_lit.mpr rfl, ?_⟩
    refine Pattern.mem_seq.mpr ⟨_, Pattern.mem_one.mpr ⟨c, hc, rfl⟩, ?_⟩
    refine Pattern.mem_seq.mpr ⟨_, hgap, ?_⟩
    refine Pattern.mem_seq.mpr ⟨_, Pattern.mem_all.mpr ⟨device.text, rfl, hname⟩, ?_⟩
    exact Pattern.mem_one.mpr ⟨c', hends' c' rfl, rfl⟩

/-- What is put behind a line that ends with the device's name makes the name longer. -/
theorem words_behind_name {u u' w t : List Char} {c c' : Char} (hu : ∀ c ∈ u, isBlank c = true)
    (hc : isBlank c = true) (hu' : ∀ c ∈ u', isBlank c = true) (hw : IsWord isBlank (device.text ++ w))
    (hc' : isBlank c' = true) :
    words isBlank (u ++ ("iface".toList ++ c :: (u' ++ device.text)) ++ (w ++ c' :: t)) =
      "iface".toList :: (device.text ++ w) :: words isBlank t := by
  have htext : u ++ ("iface".toList ++ c :: (u' ++ device.text)) ++ (w ++ c' :: t) =
      u ++ ("iface".toList ++ c :: (u' ++ ((device.text ++ w) ++ c' :: t))) := by
    simp only [List.append_assoc, List.cons_append]
  rw [htext, words_append_of_sep hu, words_word_cons (by decide) hc, words_append_of_sep hu', words_word_cons hw hc']

theorem ifaceLine_of_words {w : Str} {ws : List Str}
    (h : words isBlank l = "iface".toList :: device.text :: w :: ws) : (ifaceLine device).starts l = true := by
  rcases ifaceLine_cases h with hstart | ⟨u, c, u', rfl, hu, hc, hu'⟩
  · exact hstart
  · rw [words_append_of_sep hu, words_word_cons (by decide) hc, words_append_of_sep hu', words_word device.isWord] at h
    cases h

end Spec

/-! ### The files -/

structure File where
  content : Content Char
  writable : Bool
  deriving DecidableEq, Repr

/-- `/etc/network` if it is a directory, `interfaces` and `interfaces.old` in it, and
what an earlier run has left in `/tmp/ipmi_ifaces_stanza`. -/
structure Host where
  network : Bool
  interfaces : Option File
  interfacesOld : Option File
  stale : Content Char
  deriving DecidableEq, Repr

def doInterfaces (device : Device) (v : Vars) (host : Host) : Except Str Host :=
  if host.network then
    match host.interfaces with
    | some file =>
      if file.writable then do
        let (unchanged, old) := doSplitInterfaces device file.content
        let stanza ← doModifyStanza device v old host.stale
        .ok { host with interfaces := some ⟨unchanged.cat stanza, true⟩,
                        interfacesOld := some file, stale := stanza }
      else .error "/etc/network/interfaces exists and is not writable -fail".toList
    | none => do
      let stanza ← doCreateStanza device v host.stale
      .ok { host with interfaces := some ⟨stanza, true⟩, stale := stanza }
  else .error "No /etc/network directory found - failing".toList

/-- `lancontrol <device> set <args>`, before the interface is restarted. -/
def doSet (device : Device) (args : List Word) (host : Host) : Except Str Host :=
  if args.isEmpty then .error "no parameters given for set command - fail".toList
  else do
    let v ← setLoop args initial
    doInterfaces device v host

end Idic.Ipmi.Lancontrol
