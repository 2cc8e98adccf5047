import Idic.Ipmi.Interfaces

/-! The checks of `lancontrol`.

`do_check` compares a value with what `grep` finds in it. `check` runs it once on all
of its arguments, `set` on one pair of them after another, and either takes the words
of its arguments from an unquoted `$@`. `alike_iff` says when the two agree, and
`documented_iff` which values are accepted that the comment of the script does not
document. -/
namespace Idic.Ipmi.Lancontrol
open Python Shell

/-- The separators of an expansion. -/
def isFieldSep (c : Char) : Bool := isBlank c || c = '\n'

/-- The unquoted `$@`. Taken for file name patterns the fields match no file. -/
def fields (args : List Str) : List Str := args.flatMap (words isFieldSep)

/-- What `echo $2 | grep -E pattern` prints for one word. -/
def grep (pattern : Pattern Char) (val : Str) : Str := if pattern.found val then val else []

/-- `do_check`, with the values of `$1`, `$2` and `$parm`. -/
def doCheckArgs (one two parm : Str) : Except Str Unit :=
  match Parm.ofName one with
  | some .ip_addr_src =>
    if two = "static".toList || two = "dhcp".toList then .ok ()
    else .error ("Invalid ip_addr_src: ".toList ++ two)
  | some .ip_addr | some .subnet_mask | some .default_gw_ip_addr =>
    if two ≠ grep ipAddress two then .error (invalidValue one two) else .ok ()
  | some .mac_addr => if two ≠ grep macAddress two then .error (invalidValue one two) else .ok ()
  | none => .error ("Invalid parameter: ".toList ++ parm)

/-- `lancontrol <device> check <args>`, where `$parm` is not set. -/
def check (args : List Str) : Except Str Unit :=
  let fields := fields args
  doCheckArgs (fields[0]?.getD []) (fields[1]?.getD []) []

/-- The parameters that are set, with their values. -/
abbrev Assigned := Parm → Option Str

/-- The loop of `do_set` over its fields. -/
def validate : List Str → Assigned → Except Str Assigned
  | [], v => .ok v
  | [parm], _ => .error ("No value present for parameter ".toList ++ parm)
  | parm :: val :: rest, v => do
    doCheckArgs parm val parm
    match Parm.ofName parm with
    | some p => validate rest (Function.update v p (some val))
    | none => .error ("Invalid parameter: ".toList ++ rest.head?.getD [])

/-- `lancontrol <device> set <args>`, up to `do_interfaces`. -/
def validateSet (args : List Str) : Except Str Assigned :=
  if fields args = [] then .error "no parameters given for set command - fail".toList
  else validate (fields args) fun _ => none

/-! ### What a check accepts -/

/-- One of the groups between the separators of an address. -/
def IsGroup (p : Char → Bool) (most : Nat) (g : Str) : Prop := g ≠ [] ∧ g.length ≤ most ∧ ∀ c ∈ g, p c = true

/-- So many groups with a separator between them. -/
def Separated (sep : Char) (count : Nat) (P : Str → Prop) (w : Str) : Prop :=
  ∃ gs : List Str, gs.length = count ∧ (∀ g ∈ gs, P g) ∧ w = [sep].intercalate gs

/-- What is looked for in a value. -/
def Parm.Shape : Parm → Str → Prop
  | .ip_addr_src, w => w = "static".toList ∨ w = "dhcp".toList
  | .ip_addr, w | .subnet_mask, w | .default_gw_ip_addr, w => Separated '.' 4 (IsGroup Char.isDigit 3) w
  | .mac_addr, w => Separated ':' 6 (IsGroup isHexDigit 2) w

/-- Some part of the value has the shape. -/
def HasPart (L : Str → Prop) (val : Str) : Prop := ∃ u w t, L w ∧ val = u ++ w ++ t

/-- What `do_check` accepts as a value; `grep` looks for a part of it. -/
def Parm.Accepts (p : Parm) (val : Str) : Prop :=
  if p = .ip_addr_src then p.Shape val else HasPart p.Shape val

theorem groups_matches {group : Pattern Char} {L : Str → Prop} (h : group.Matches L) (sep : Char) (n : Nat) :
    (groups group sep n).Matches (Separated sep (n + 1) L) := by
  induction n with
  | zero =>
    refine h.congr fun w => ?_
    constructor
    · intro hw
      exact ⟨[w], rfl, List.forall_mem_singleton.mpr hw, List.intercalate_singleton.symm⟩
    · intro hsome
      obtain ⟨gs, hlength, hgs, rfl⟩ := hsome
      match gs, hlength with
      | [g], _ =>
        rw [List.intercalate_singleton]
        exact hgs g (List.mem_singleton_self g)
  | succ n ih =>
    refine (h.seq ((Pattern.matches_lit [sep]).seq ih)).congr fun w => ?_
    constructor
    · intro hsome
      obtain ⟨g, _, hg, ⟨_, _, rfl, ⟨gs, hlength, hgs, rfl⟩, rfl⟩, rfl⟩ := hsome
      have hne : gs ≠ [] := List.ne_nil_of_length_eq_add_one hlength
      refine ⟨g :: gs, congrArg Nat.succ hlength, List.forall_mem_cons.mpr ⟨hg, hgs⟩, ?_⟩
      rw [List.intercalate_cons_of_ne_nil hne, List.append_assoc]
    · intro hsome
      obtain ⟨gs, hlength, hgs, rfl⟩ := hsome
      match gs, hlength with
      | g :: g' :: gs, hlength =>
        obtain ⟨hg, hgs⟩ := List.forall_mem_cons.mp hgs
        refine ⟨g, [sep] ++ [sep].intercalate (g' :: gs), hg,
          ⟨[sep], _, rfl, ⟨g' :: gs, Nat.succ.inj hlength, hgs, rfl⟩, rfl⟩, ?_⟩
        rw [List.intercalate_cons_cons, List.append_assoc]

theorem ipAddress_found_iff {val : Str} :
    ipAddress.found val = true ↔ HasPart (Separated '.' 4 (IsGroup Char.isDigit 3)) val :=
  (groups_matches (Pattern.matches_upTo Char.isDigit 2) '.' 3).found_iff

theorem macAddress_found_iff {val : Str} :
    macAddress.found val = true ↔ HasPart (Separated ':' 6 (IsGroup isHexDigit 2)) val :=
  (groups_matches (Pattern.matches_upTo isHexDigit 1) ':' 5).found_iff

/-- A value is what `grep` prints of it if it has a match, or is empty. -/
theorem eq_grep_iff {pattern : Pattern Char} {val : Str} :
    val = grep pattern val ↔ pattern.found val = true ∨ val = [] := by
  rw [grep]
  split
  · next h => exact iff_of_true rfl (.inl h)
  · next h => simp [h]

theorem Parm.ofName_name (p : Parm) : Parm.ofName p.name = some p := by
  cases p <;> decide

theorem isOk_iff {α : Type} {x : Except Str α} : x.isOk = true ↔ ∃ a, x = .ok a := by
  cases x with
  | error e => exact iff_of_false nofun fun ⟨_, h⟩ => by cases h
  | ok a => exact iff_of_true rfl ⟨a, rfl⟩

theorem ite_error_eq_ok {c : Prop} [Decidable c] {e : Str} :
    (if c then Except.error e else Except.ok ()) = Except.ok () ↔ ¬ c := by
  split
  · next hc => exact iff_of_false nofun (not_not.mpr hc)
  · next hc => exact iff_of_true rfl hc

theorem ite_ok_eq_ok {c : Prop} [Decidable c] {e : Str} :
    (if c then Except.ok () else Except.error e) = Except.ok () ↔ c := by
  split
  · next hc => exact iff_of_true rfl hc
  · next hc => exact iff_of_false nofun hc

theorem Parm.accepts_source {val : Str} : Parm.ip_addr_src.Accepts val ↔
    val = "static".toList ∨ val = "dhcp".toList := by
  rw [Accepts, if_pos rfl]
  rfl

theorem Parm.accepts_address {p : Parm} (h : p ≠ .ip_addr_src) {val : Str} : p.Accepts val ↔ HasPart p.Shape val := by
  rw [Accepts, if_neg h]

theorem doCheckArgs_name (p : Parm) (two parm : Str) :
    doCheckArgs p.name two parm = .ok () ↔ p.Accepts two ∨ p ≠ .ip_addr_src ∧ two = [] := by
  by_cases hsource : p = .ip_addr_src
  · subst hsource
    rw [doCheckArgs, Parm.ofName_name, Parm.accepts_source]
    simp only [ite_ok_eq_ok, Bool.or_eq_true, decide_eq_true_eq, ne_eq, not_true, false_and, or_false]
  · rw [doCheckArgs, Parm.ofName_name, Parm.accepts_address hsource, and_iff_right hsource]
    cases p with
    | ip_addr_src => exact absurd rfl hsource
    | ip_addr | subnet_mask | default_gw_ip_addr =>
      rw [ite_error_eq_ok, not_not, eq_grep_iff, ipAddress_found_iff]
      rfl
    | mac_addr =>
      rw [ite_error_eq_ok, not_not, eq_grep_iff, macAddress_found_iff]
      rfl

theorem doCheckArgs_eq_ok_iff (one two parm : Str) : doCheckArgs one two parm = .ok () ↔
    ∃ p : Parm, one = p.name ∧ (p.Accepts two ∨ p ≠ .ip_addr_src ∧ two = []) := by
  constructor
  · intro h
    cases hname : Parm.ofName one with
    | none =>
      rw [doCheckArgs, hname] at h
      cases h
    | some p =>
      obtain rfl := Parm.ofName_eq_some hname
      exact ⟨p, rfl, (doCheckArgs_name p two parm).mp h⟩
  · intro hsome
    obtain ⟨p, rfl, h⟩ := hsome
    exact (doCheckArgs_name p two parm).mpr h

/-! ### One pair and all pairs -/

/-- `check` and `set` accept the same arguments: the one exits successfully exactly when
the other gets to `do_interfaces`. -/
def Alike (args : List Str) : Prop := (check args).isOk = (validateSet args).isOk

instance (args : List Str) : Decidable (Alike args) := inferInstanceAs (Decidable (_ = _))

/-- A parameter with a value that is accepted. -/
def ValidPair (parm val : Str) : Prop := ∃ p : Parm, parm = p.name ∧ p.Accepts val

/-- Nothing but such pairs. -/
def ValidPairs : List Str → Prop
  | [] => True
  | [_] => False
  | parm :: val :: rest => ValidPair parm val ∧ ValidPairs rest

/-- No address parameter stands alone, and behind a first pair that is valid there are
only valid pairs. -/
def FirstDecides : List Str → Prop
  | [] => True
  | [parm] => ∀ p : Parm, parm = p.name → p = .ip_addr_src
  | parm :: val :: rest => ValidPair parm val → ValidPairs rest

theorem fields_ne_nil {args : List Str} : ∀ f ∈ fields args, f ≠ [] := by
  intro f hf
  obtain ⟨arg, -, hf⟩ := List.mem_flatMap.mp hf
  rw [words_eq_filter] at hf
  simpa using (List.mem_filter.mp hf).2

theorem doCheckArgs_ok_iff_validPair {one two : Str} (parm : Str) (h : two ≠ []) :
    doCheckArgs one two parm = .ok () ↔ ValidPair one two := by
  rw [doCheckArgs_eq_ok_iff]
  refine exists_congr fun p => and_congr_right fun _ => ?_
  exact or_iff_left fun hempty => h hempty.2

/-- The loop goes through when the fields are pairs that are valid. -/
theorem validate_isOk_iff : (fs : List Str) → (∀ f ∈ fs, f ≠ []) → (v : Assigned) →
    ((∃ v', validate fs v = .ok v') ↔ ValidPairs fs)
  | [], _, v => iff_of_true ⟨v, rfl⟩ trivial
  | [_], _, _ => iff_of_false (fun ⟨_, h⟩ => by cases h) id
  | parm :: val :: rest, hne, v => by
    have hval : val ≠ [] := hne val (by simp)
    have hrest : ∀ f ∈ rest, f ≠ [] := fun f hf => hne f (by simp [hf])
    constructor
    · intro hsome
      obtain ⟨v', h⟩ := hsome
      rw [validate, bind_eq_ok] at h
      obtain ⟨_, hcheck, h⟩ := h
      refine ⟨(doCheckArgs_ok_iff_validPair parm hval).mp hcheck, ?_⟩
      split at h
      · exact (validate_isOk_iff rest hrest _).mp ⟨v', h⟩
      · cases h
    · intro hpairs
      obtain ⟨⟨p, hname, haccepts⟩, hpairs⟩ := hpairs
      have hcheck := (doCheckArgs_ok_iff_validPair parm hval).mpr ⟨p, hname, haccepts⟩
      obtain ⟨v', h⟩ := (validate_isOk_iff rest hrest (Function.update v p (some val))).mpr hpairs
      refine ⟨v', ?_⟩
      rw [validate, hcheck, hname, Parm.ofName_name]
      exact h

theorem validateSet_isOk_iff (args : List Str) :
    (∃ v, validateSet args = .ok v) ↔ fields args ≠ [] ∧ ValidPairs (fields args) := by
  rw [validateSet]
  split
  · next h => exact iff_of_false (fun ⟨_, hv⟩ => by cases hv) fun hboth => hboth.1 h
  · next h => rw [validate_isOk_iff _ fields_ne_nil, and_iff_right h]

/-- **`check` agrees with `set` exactly when the first pair decides.** -/
theorem alike_iff (args : List Str) : Alike args ↔ FirstDecides (fields args) := by
  have hcheck : (check args).isOk = true ↔
      doCheckArgs ((fields args)[0]?.getD []) ((fields args)[1]?.getD []) [] = .ok () :=
    isOk_iff.trans ⟨fun ⟨_, h⟩ => h, fun h => ⟨(), h⟩⟩
  have hne : ∀ f ∈ fields args, f ≠ [] := fields_ne_nil
  rw [Alike, Bool.eq_iff_iff, hcheck, isOk_iff, validateSet_isOk_iff]
  cases hfields : fields args with
  | nil => exact iff_of_true (iff_of_false (by decide) fun h => h.1 rfl) trivial
  | cons parm fs =>
    rw [hfields] at hne
    cases fs with
    | nil =>
      have hset : ¬ (([parm] : List Str) ≠ [] ∧ ValidPairs [parm]) := fun h => h.2
      rw [iff_false_right hset]
      show ¬ doCheckArgs parm [] [] = .ok () ↔ ∀ p : Parm, parm = p.name → p = .ip_addr_src
      rw [doCheckArgs_eq_ok_iff, not_exists]
      refine forall_congr' fun p => ?_
      constructor
      · intro h hname
        by_contra hsource
        exact h ⟨hname, .inr ⟨hsource, rfl⟩⟩
      · rintro h ⟨hname, haccepts | ⟨hsource, -⟩⟩
        · rw [h hname, Parm.accepts_source] at haccepts
          revert haccepts
          decide
        · exact hsource (h hname)
    | cons val rest =>
      have hval : val ≠ [] := hne val (by simp)
      show (doCheckArgs parm val [] = .ok () ↔ _ ∧ ValidPair parm val ∧ ValidPairs rest) ↔
        (ValidPair parm val → ValidPairs rest)
      rw [doCheckArgs_ok_iff_validPair [] hval, and_iff_right (List.cons_ne_nil _ _)]
      exact iff_self_and

/-- `check` looks at nothing behind the first pair, and takes a missing address for a
valid one. -/
theorem secondPair_unchecked :
    ¬ Alike ["ip_addr".toList, "10.0.0.1".toList, "subnet_mask".toList, "none".toList] ∧
    ¬ Alike ["ip_addr".toList] := by
  decide +kernel

/-! ### Words that stand for themselves -/

section Words

theorem isFieldSep_of_isPlain {c : Char} (h : isPlain c = true) : isFieldSep c = false := by
  have hblank := isBlank_of_isPlain h
  have hnewline : c ≠ '\n' := by
    rintro rfl
    exact absurd h (by decide)
  simp [isFieldSep, hblank, hnewline]

theorem fields_words (args : List Word) : fields (args.map Word.text) = args.map Word.text := by
  induction args with
  | nil => rfl
  | cons w rest ih =>
    have hw : IsWord isFieldSep w.text :=
      ⟨w.nonempty, fun c hc => isFieldSep_of_isPlain (List.all_eq_true.mp w.plain c hc)⟩
    rw [List.map_cons, fields, List.flatMap_cons, words_word hw, List.singleton_append]
    exact congrArg _ ih

theorem doCheck_eq (parm val : Word) : doCheck parm val = doCheckArgs parm.text val.text parm.text := by
  have haddress (pattern : Pattern Char) (e : Str) :
      (if pattern.found val.text then Except.ok () else Except.error e) =
        if val.text ≠ grep pattern val.text then Except.error e else Except.ok () := by
    by_cases h : pattern.found val.text = true
    · rw [if_pos h, if_neg (not_not.mpr (eq_grep_iff.mpr (.inl h)))]
    · rw [if_neg h, if_pos fun heq => (eq_grep_iff.mp heq).elim h val.nonempty]
  rw [doCheck, doCheckArgs]
  cases Parm.ofName parm.text with
  | none => rfl
  | some p =>
    cases p with
    | ip_addr_src => rfl
    | ip_addr | subnet_mask | default_gw_ip_addr => exact haddress _ _
    | mac_addr => exact haddress _ _

/-- The texts of the values that are set. -/
def Vars.texts (v : Vars) : Assigned := fun p => (v.given p).map Word.text

theorem Vars.texts_update (v : Vars) (p : Parm) (val : Word) :
    Vars.texts (Function.update v p ⟨true, val⟩) = Function.update v.texts p (some val.text) := by
  funext q
  rw [Vars.texts, Vars.given_update, Function.update_apply]
  by_cases h : p = q
  · rw [if_pos h, if_pos h.symm]
    rfl
  · rw [if_neg h, if_neg (Ne.symm h)]
    rfl

theorem Vars.texts_initial : Vars.texts initial = fun _ => none := by
  funext p
  rw [Vars.texts, given_initial]
  rfl

/-- On such words the loop is the one that keeps them as words. -/
theorem validate_words : (args : List Word) → (v : Vars) →
    validate (args.map Word.text) v.texts = (setLoop args v).map Vars.texts
  | [], _ => rfl
  | [_], _ => rfl
  | parm :: val :: rest, v => by
    rw [List.map_cons, List.map_cons, validate, setLoop, doCheck_eq]
    cases doCheckArgs parm.text val.text parm.text with
    | error e => rfl
    | ok _ =>
      show (match Parm.ofName parm.text with
        | some p => validate (rest.map Word.text) (Function.update v.texts p (some val.text))
        | none => _) = Except.map _ (match Parm.ofName parm.text with
        | some p => setLoop rest (Function.update v p ⟨true, val⟩)
        | none => _)
      cases Parm.ofName parm.text with
      | some p =>
        show validate (rest.map Word.text) (Function.update v.texts p (some val.text)) = _
        rw [← Vars.texts_update, validate_words rest]
      | none => cases rest <;> rfl

end Words

/-! ### Documented values -/

/-- The number that decimal digits write. -/
def decimalNumber (s : Str) : Nat := Nat.ofDigits 10 (s.reverse.map hexValue)

def IsOctet (g : Str) : Prop := IsGroup Char.isDigit 3 g ∧ decimalNumber g ≤ 255

/-- The values that the comment of the script documents. -/
def Parm.Documented : Parm → Str → Prop
  | .ip_addr_src, v => v = "static".toList ∨ v = "dhcp".toList
  | .ip_addr, v | .subnet_mask, v | .default_gw_ip_addr, v => Separated '.' 4 IsOctet v
  | .mac_addr, v => Separated ':' 6 (IsGroup isHexDigit 2) v

theorem Separated.mono {sep : Char} {count : Nat} {P Q : Str → Prop} (h : ∀ g, P g → Q g) {w : Str}
    (hw : Separated sep count P w) : Separated sep count Q w := by
  obtain ⟨gs, hlength, hgs, heq⟩ := hw
  exact ⟨gs, hlength, fun g hg => h g (hgs g hg), heq⟩

theorem Parm.Documented.shape {p : Parm} {v : Str} (h : p.Documented v) : p.Shape v := by
  cases p with
  | ip_addr_src | mac_addr => exact h
  | ip_addr | subnet_mask | default_gw_ip_addr => exact Separated.mono (fun _ hg => hg.1) h

/-- **A check accepts what is documented, and no more when no part of the value has the
shape or all of it is documented.** -/
theorem documented_iff (p : Parm) (hp : p ≠ .ip_addr_src) (parm v : Str) (hv : IsWord isFieldSep v) :
    (doCheckArgs p.name v parm = .ok () ↔ p.Documented v) ↔ (p.Documented v ∨ ¬ HasPart p.Shape v) := by
  have hcheck : doCheckArgs p.name v parm = .ok () ↔ HasPart p.Shape v := by
    rw [doCheckArgs_name, Parm.accepts_address hp, or_iff_left fun hempty => hv.1 hempty.2]
  have hpart : p.Documented v → HasPart p.Shape v :=
    fun h => ⟨[], v, [], h.shape, (List.append_nil v).symm⟩
  rw [hcheck]
  constructor
  · intro h
    by_cases hdocumented : p.Documented v
    · exact .inl hdocumented
    · exact .inr fun hsome => hdocumented (h.mp hsome)
  · rintro (hdocumented | hnone)
    · exact iff_of_true (hpart hdocumented) hdocumented
    · exact iff_of_false hnone fun h => hnone (hpart h)

/-- The groups are what is between the separators. -/
theorem separated_iff {sep : Char} {count : Nat} {P : Str → Prop} (hP : ∀ g, P g → sep ∉ g) (hcount : count ≠ 0)
    {w : Str} : Separated sep count P w ↔
      (w.splitOn sep).length = count ∧ ∀ g ∈ w.splitOn sep, P g := by
  constructor
  · intro hsome
    obtain ⟨gs, hlength, hgs, rfl⟩ := hsome
    have hne : gs ≠ [] := fun h => hcount (hlength.symm.trans (congrArg List.length h))
    rw [List.splitOn_intercalate sep (fun g hg => hP g (hgs g hg)) hne]
    exact ⟨hlength, hgs⟩
  · intro h
    exact ⟨w.splitOn sep, h.1, h.2, (List.intercalate_splitOn sep).symm⟩

instance (p : Char → Bool) (most : Nat) (g : Str) : Decidable (IsGroup p most g) :=
  decidable_of_iff (g ≠ [] ∧ g.length ≤ most ∧ g.all p = true)
    (and_congr_right fun _ => and_congr_right fun _ => List.all_eq_true)

instance (g : Str) : Decidable (IsOctet g) := inferInstanceAs (Decidable (_ ∧ _))

theorem documented_iff_privateAddress :
    (doCheckArgs Parm.ip_addr.name "10.0.0.1".toList [] = .ok () ↔ Parm.ip_addr.Documented "10.0.0.1".toList) ↔
      (Parm.ip_addr.Documented "10.0.0.1".toList ∨ ¬ HasPart Parm.ip_addr.Shape "10.0.0.1".toList) :=
  documented_iff .ip_addr (by decide) [] "10.0.0.1".toList (by decide)

/-- Numbers above 255 and text around an address are accepted. -/
theorem undocumented_accepted :
    (doCheckArgs Parm.ip_addr.name "999.0.0.1".toList [] = .ok () ∧ ¬ Parm.ip_addr.Documented "999.0.0.1".toList) ∧
    doCheckArgs Parm.mac_addr.name "0:1:2:3:4:5:x".toList [] = .ok () ∧
      ¬ Parm.mac_addr.Documented "0:1:2:3:4:5:x".toList := by
  have hdot (g : Str) (hg : IsOctet g) : '.' ∉ g := fun h => absurd (hg.1.2.2 '.' h) (by decide)
  have hcolon (g : Str) (hg : IsGroup isHexDigit 2 g) : ':' ∉ g := fun h => absurd (hg.2.2 ':' h) (by decide)
  refine ⟨⟨by decide +kernel, fun h => ?_⟩, by decide +kernel, fun h => ?_⟩
  · revert h
    show ¬ Separated '.' 4 IsOctet "999.0.0.1".toList
    rw [separated_iff hdot (by decide)]
    decide +kernel
  · revert h
    show ¬ Separated ':' 6 (IsGroup isHexDigit 2) "0:1:2:3:4:5:x".toList
    rw [separated_iff hcolon (by decide)]
    decide +kernel

end Idic.Ipmi.Lancontrol
