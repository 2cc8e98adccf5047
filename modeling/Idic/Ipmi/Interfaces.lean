import Idic.Ipmi.Lancontrol
import Idic.Shell.Sections

/-! `/etc/network/interfaces` as `ifupdown` reads it.

A file is a list of stanzas; what counts of a line is its words, and a line without
words does not count. `Updated` says what a set should do to a file: it changes the
one stanza of its device, or adds it, and nothing else. -/
namespace Idic.Ipmi.Lancontrol
open Python Shell

/-- The words of a line. -/
abbrev Entry := List Str

/-- The lines with words. -/
def entries (file : List Line) : List Entry := (file.map (words isBlank)).filter fun e => !e.isEmpty

/-- The words that start a stanza. -/
def startsStanza (w : Str) : Bool :=
  w ∈ ["iface".toList, "auto".toList, "mapping".toList, "source".toList] || "allow-".toList.isPrefixOf w

/-- A line that starts a stanza. -/
def isHeader : Entry → Bool
  | [] => false
  | w :: _ => startsStanza w

abbrev Stanza := Section Entry

def isIfaceOf (device : Device) : Entry → Bool
  | iface :: name :: _ => iface = "iface".toList && name = device.text
  | _ => false

theorem isIfaceOf_iff {device : Device} {e : Entry} :
    isIfaceOf device e = true ↔ ∃ ws, e = "iface".toList :: device.text :: ws := by
  constructor
  · intro h
    unfold isIfaceOf at h
    split at h
    · next iface name ws =>
      rw [Bool.and_eq_true, decide_eq_true_eq, decide_eq_true_eq] at h
      exact ⟨ws, by rw [h.1, h.2]⟩
    · cases h
  · rintro ⟨ws, rfl⟩
    simp [isIfaceOf]

/-- The stanzas of the device's interface. -/
def ifaceStanzas (device : Device) (file : List Line) : List Stanza :=
  (sections isHeader (entries file)).filter fun s => isIfaceOf device s.head

def otherStanzas (device : Device) (file : List Line) : List Stanza :=
  (sections isHeader (entries file)).filter fun s => !isIfaceOf device s.head

/-- The word after the address family. -/
def method (s : Stanza) : Option Str := s.head[3]?

/-- An option, where the hardware address may be given with its class. -/
def setting : Entry → Entry
  | name :: cls :: address :: rest =>
    if name = "hwaddress".toList && cls = "ether".toList then name :: address :: rest
    else name :: cls :: address :: rest
  | e => e

def settings (s : Stanza) : List Entry := s.body.map setting

/-! ### What is given -/

/-- The last value that the arguments give to a parameter. -/
def given : List Word → Parm → Option Word
  | parm :: val :: rest, p => (given rest p).or (if parm.text = p.name then some val else none)
  | _, _ => none

section Given
variable (g : Parm → Option Word)

/-- The options that are given. -/
def givenSettings : List Entry := options.filterMap fun o => (g o.parm).map fun val => [o.name, val.text]

/-- An option whose value is given. -/
def isGiven : Entry → Bool
  | [] => false
  | name :: _ => options.any fun o => (g o.parm).isSome && o.name = name

/-- The stanza has the method and the options that the one before it had, if there was
one, overridden by the given ones. -/
structure Overridden (before : Option Stanza) (s : Stanza) : Prop where
  method_some : (method s).isSome
  method_eq : method s = ((g .ip_addr_src).map Word.text).or (before.bind method)
  kept : (settings s).filter (fun e => !isGiven g e) =
    (before.elim [] settings).filter fun e => !isGiven g e
  given : ((settings s).filter (isGiven g)).Perm (givenSettings g)

/-- One interface is updated, and every other stanza is still there. -/
structure Updated (device : Device) (old new : List Line) : Prop where
  lead : lead isHeader (entries new) = lead isHeader (entries old)
  others : (otherStanzas device old).Subperm (otherStanzas device new)
  stanza : ∃ s, ifaceStanzas device new = [s] ∧ Overridden g (ifaceStanzas device old).head? s

/-- What no filter of the script deletes. -/
def keeps (e : Entry) : Bool :=
  !startsWith "iface".toList e && options.all fun o => !((g o.parm).isSome && startsWith o.name e)

end Given

/-- The values that are set. -/
def Vars.given (v : Vars) (p : Parm) : Option Word := if (v p).need then some (v p).value else none

theorem given_initial (p : Parm) : initial.given p = none := by cases p <;> rfl

theorem Vars.given_update (v : Vars) (p q : Parm) (val : Word) :
    Vars.given (Function.update v p ⟨true, val⟩) q = if p = q then some val else v.given q := by
  by_cases h : p = q
  · subst h
    simp [Vars.given]
  · rw [Vars.given, Function.update_of_ne (Ne.symm h), if_neg h]
    rfl

theorem setLoop_given {v' : Vars} : {args : List Word} → {v : Vars} → setLoop args v = .ok v' →
    ∀ q, v'.given q = (given args q).or (v.given q)
  | [], _, h, q => by
    cases h
    rfl
  | [_], _, h, _ => by cases h
  | parm :: val :: rest, v, h, q => by
    obtain ⟨p, hname, -, h⟩ := setLoop_cons h
    rw [setLoop_given h q, Vars.given_update, given, Option.or_assoc]
    congr 1
    by_cases hp : p = q
    · rw [if_pos hp, hname, hp, if_pos rfl]
      rfl
    · rw [if_neg hp, if_neg fun hq => hp (Parm.name_injective _ _ (hname.symm.trans hq))]
      rfl

/-! ### The entries of the lines -/

theorem entries_append (file file' : List Line) : entries (file ++ file') = entries file ++ entries file' := by
  rw [entries, List.map_append, List.filter_append]
  rfl

theorem entries_cons (l : Line) (file : List Line) :
    entries (l :: file) = (if (words isBlank l).isEmpty then [] else [words isBlank l]) ++ entries file := by
  rw [← List.singleton_append, entries_append]
  congr 1
  cases h : (words isBlank l).isEmpty <;> simp [entries, h]

theorem entries_singleton {l : Line} (h : words isBlank l ≠ []) : entries [l] = [words isBlank l] := by
  rw [entries_cons, if_neg (by simpa using h)]
  rfl

/-- A filter that looks at the words of a line. -/
theorem entries_filter (keep : Entry → Bool) (file : List Line) :
    entries (file.filter fun l => keep (words isBlank l)) = (entries file).filter keep := by
  rw [entries, entries, List.filter_comm keep]
  congr 1
  exact List.filter_map.symm

theorem entries_all (c : Content Char) : entries c.all = entries c.lines ++ entries [c.rest] := by
  rw [Content.all, entries_append]
  cases c.rest <;> rfl

theorem words_blank_append {u : Line} (h : words isBlank u = []) (l : Line) :
    words isBlank (u ++ l) = words isBlank l := by
  rcases words_cases isBlank u with ⟨-, hblank⟩ | ⟨_, _, _, -, -, -, -, hwords⟩
  · exact words_append_of_sep hblank l
  · cases h.symm.trans hwords

/-- What is put behind blanks is read as it is. -/
theorem entries_cat {c d : Content Char} (h : words isBlank c.rest = []) :
    entries (c.cat d).all = entries c.all ++ entries d.all := by
  have hnone : entries [c.rest] = [] := by rw [entries_cons, h]; rfl
  have hglued : ∀ (l : Line) (ls : List Line), entries ((c.rest ++ l) :: ls) = entries (l :: ls) := by
    intro l ls
    rw [entries_cons, entries_cons, words_blank_append h]
  cases hlines : d.lines with
  | nil =>
    have hcat : c.cat d = ⟨c.lines, c.rest ++ d.rest⟩ := by rw [Content.cat, hlines]
    rw [hcat, entries_all, entries_all, entries_all, hlines, hglued, hnone, List.append_nil]
    rfl
  | cons l ls =>
    rw [Content.cat_of_lines hlines, entries_all, entries_all, entries_all, hlines, hnone, entries_append,
      hglued, List.append_nil, List.append_assoc]

theorem words_four {a b c d a' c' : Str} (ha : IsWord isBlank a) (hb : IsWord isBlank b)
    (hc : IsWord isBlank c) (hd : IsWord isBlank d) (ha' : a' = a ++ [' ']) (hc' : c' = ' ' :: (c ++ [' '])) :
    words isBlank (a' ++ b ++ c' ++ d) = [a, b, c, d] := by
  subst ha' hc'
  simp only [List.append_assoc, List.cons_append, List.nil_append]
  rw [words_word_cons ha isBlank_space, words_word_cons hb isBlank_space, words_word_cons hc isBlank_space,
    words_word hd]

theorem words_ifaceText (device : Device) {src : Str} (hsrc : IsWord isBlank src) :
    words isBlank (ifaceText device src) = ["iface".toList, device.text, "inet".toList, src] :=
  words_four (by decide) device.isWord (by decide) hsrc (by decide) (by decide)

theorem words_option {name : Str} (hname : IsWord isBlank name) (val : Word) :
    words isBlank ("\t".toList ++ name ++ " ".toList ++ val.text) = [name, val.text] := by
  have htext : "\t".toList ++ name ++ " ".toList ++ val.text = '\t' :: (name ++ ' ' :: val.text) := by simp
  rw [htext, words_cons_sep isBlank_tab, words_word_cons hname isBlank_space, words_word val.isWord]

/-- The entry of an option's line. -/
theorem words_line {o : OptionOf} (ho : o ∈ options) (val : Word) :
    ∃ rest, words isBlank (o.line val) = o.name :: rest ∧ setting (o.name :: rest) = [o.name, val.text] := by
  simp only [options, List.mem_cons, List.not_mem_nil, or_false] at ho
  rcases ho with rfl | rfl | rfl | rfl
  · exact ⟨_, words_option (by decide) val, rfl⟩
  · exact ⟨_, words_option (by decide) val, rfl⟩
  · exact ⟨_, words_option (by decide) val, rfl⟩
  · have htext : OptionOf.line ⟨.mac_addr, "hwaddress".toList, " ether ".toList⟩ val =
        '\t' :: ("hwaddress".toList ++ ' ' :: ("ether".toList ++ ' ' :: val.text)) := by
      simp [OptionOf.line]
    refine ⟨["ether".toList, val.text], ?_, rfl⟩
    rw [htext, words_cons_sep isBlank_tab, words_word_cons (w := "hwaddress".toList) (by decide) isBlank_space,
      words_word_cons (w := "ether".toList) (by decide) isBlank_space, words_word val.isWord]

end Idic.Ipmi.Lancontrol
