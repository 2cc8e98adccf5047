import Mathlib.Algebra.Order.Group.Multiset
import Mathlib.Data.List.Perm.Subperm
import Mathlib.Tactic.Abel

/-! Files that are read in sections.

A section runs from a head to the line before the next head; what is before the
first head belongs to none and is the file's lead. The lines and the heads are
arbitrary. `sections_append` says what a file put behind another one does to the
other's last section, and `Recut.perm` and `recut_of_subperm` when the sections of a
file survive that a part is cut out of it, thinned and put at its end. -/
namespace Idic.Shell

structure Section (β : Type) where
  head : β
  body : List β
  deriving DecidableEq

variable {β : Type}

def Section.lines (s : Section β) : List β := s.head :: s.body

/-- More lines behind the last section. -/
def extendLast : List (Section β) → List β → List (Section β)
  | [], _ => []
  | [s], more => [⟨s.head, s.body ++ more⟩]
  | s :: t :: rest, more => s :: extendLast (t :: rest) more

theorem extendLast_nil (ss : List (Section β)) : extendLast ss [] = ss := by
  induction ss with
  | nil => rfl
  | cons s rest ih =>
    cases rest with
    | nil => simp only [extendLast, List.append_nil]
    | cons t rest => rw [extendLast, ih]

theorem extendLast_concat (ss : List (Section β)) (s : Section β) (more : List β) :
    extendLast (ss ++ [s]) more = ss ++ [⟨s.head, s.body ++ more⟩] := by
  induction ss with
  | nil => rfl
  | cons t rest ih =>
    cases hrest : rest ++ [s] with
    | nil => simp at hrest
    | cons u us =>
      rw [List.cons_append, hrest, extendLast, ← hrest, ih]
      rfl

section Read
variable (isHead : β → Bool)

/-- The lead and the sections. -/
def readSections : List β → List β × List (Section β)
  | [] => ([], [])
  | l :: rest =>
    let (lead, sections) := readSections rest
    if isHead l then ([], ⟨l, lead⟩ :: sections) else (l :: lead, sections)

def lead (file : List β) : List β := (readSections isHead file).1

def sections (file : List β) : List (Section β) := (readSections isHead file).2

variable {isHead}

@[simp] theorem lead_nil : lead isHead [] = [] := rfl

@[simp] theorem sections_nil : sections isHead [] = [] := rfl

theorem lead_cons_head {l : β} (h : isHead l = true) (rest : List β) : lead isHead (l :: rest) = [] := by
  simp only [lead, readSections, h, if_true]

theorem sections_cons_head {l : β} (h : isHead l = true) (rest : List β) :
    sections isHead (l :: rest) = ⟨l, lead isHead rest⟩ :: sections isHead rest := by
  simp only [lead, sections, readSections, h, if_true]

theorem lead_cons {l : β} (h : isHead l = false) (rest : List β) :
    lead isHead (l :: rest) = l :: lead isHead rest := by
  simp only [lead, readSections, h, Bool.false_eq_true, if_false]

theorem sections_cons {l : β} (h : isHead l = false) (rest : List β) :
    sections isHead (l :: rest) = sections isHead rest := by
  simp only [sections, readSections, h, Bool.false_eq_true, if_false]

variable (isHead) in
/-- Reading loses no line. -/
theorem lead_append_sections (file : List β) :
    lead isHead file ++ (sections isHead file).flatMap Section.lines = file := by
  induction file with
  | nil => rfl
  | cons l rest ih =>
    cases h : isHead l with
    | true =>
      rw [lead_cons_head h, sections_cons_head h, List.flatMap_cons, List.nil_append, Section.lines,
        List.cons_append, ih]
    | false => rw [lead_cons h, sections_cons h, List.cons_append, ih]

theorem mem_of_mem_lead {file : List β} {l : β} (h : l ∈ lead isHead file) : l ∈ file := by
  rw [← lead_append_sections isHead file]
  exact List.mem_append_left _ h

theorem heads_eq (file : List β) : (sections isHead file).map Section.head = file.filter isHead := by
  induction file with
  | nil => rfl
  | cons l rest ih =>
    cases h : isHead l with
    | true => rw [sections_cons_head h, List.map_cons, ih, List.filter_cons_of_pos h]
    | false => rw [sections_cons h, ih, List.filter_cons_of_neg (by simp [h])]

theorem lead_of_no_head {file : List β} (h : ∀ l ∈ file, isHead l = false) : lead isHead file = file := by
  induction file with
  | nil => rfl
  | cons l rest ih =>
    obtain ⟨hl, hrest⟩ := List.forall_mem_cons.mp h
    rw [lead_cons hl, ih hrest]

theorem sections_eq_nil_iff {file : List β} :
    sections isHead file = [] ↔ ∀ l ∈ file, isHead l = false := by
  rw [← List.map_eq_nil_iff (f := Section.head), heads_eq, List.filter_eq_nil_iff]
  simp only [Bool.not_eq_true]

theorem lead_not_head {file : List β} : ∀ l ∈ lead isHead file, isHead l = false := by
  induction file with
  | nil => exact fun _ h => absurd h List.not_mem_nil
  | cons l rest ih =>
    cases h : isHead l with
    | true =>
      rw [lead_cons_head h]
      exact fun _ h => absurd h List.not_mem_nil
    | false =>
      rw [lead_cons h]
      exact List.forall_mem_cons.mpr ⟨h, ih⟩

/-- Behind a file with a head, the lead of the next file joins the last section. -/
theorem readSections_append (file next : List β) :
    sections isHead (file ++ next) =
        extendLast (sections isHead file) (lead isHead next) ++ sections isHead next ∧
      lead isHead (file ++ next) =
        if sections isHead file = [] then file ++ lead isHead next else lead isHead file := by
  induction file with
  | nil => exact ⟨rfl, rfl⟩
  | cons l rest ih =>
    obtain ⟨hsections, hlead⟩ := ih
    rw [List.cons_append]
    cases h : isHead l with
    | false =>
      rw [sections_cons h, sections_cons h, lead_cons h, lead_cons h, hsections, hlead]
      refine ⟨rfl, ?_⟩
      split <;> rfl
    | true =>
      rw [sections_cons_head h, sections_cons_head h, lead_cons_head h, lead_cons_head h, hsections, hlead]
      refine ⟨?_, rfl⟩
      cases hrest : sections isHead rest with
      | nil =>
        have hnone := sections_eq_nil_iff.mp hrest
        simp only [if_true, extendLast, List.nil_append, List.cons_append, lead_of_no_head hnone]
      | cons s ss => simp only [reduceCtorEq, if_false, extendLast, List.cons_append]

variable (isHead) in
theorem sections_append (file next : List β) : sections isHead (file ++ next) =
    extendLast (sections isHead file) (lead isHead next) ++ sections isHead next :=
  (readSections_append file next).1

theorem sections_append_of_lead {file next : List β} (h : lead isHead next = []) :
    sections isHead (file ++ next) = sections isHead file ++ sections isHead next := by
  rw [sections_append, h, extendLast_nil]

theorem lead_append_of_head {file next : List β} (h : sections isHead file ≠ []) :
    lead isHead (file ++ next) = lead isHead file := by
  rw [(readSections_append file next).2, if_neg h]

theorem lead_append_of_no_head {file next : List β} (h : sections isHead file = []) :
    lead isHead (file ++ next) = file ++ lead isHead next := by
  rw [(readSections_append file next).2, if_pos h]

/-! ### Lines and their number -/

variable (isHead) in
/-- The lines that are in sections. -/
def sectionLines (file : List β) : List β := (sections isHead file).flatMap Section.lines

variable (isHead) in
theorem length_lines (file : List β) :
    (lead isHead file).length + (sectionLines isHead file).length = file.length := by
  rw [← List.length_append, sectionLines, lead_append_sections]

theorem length_sections (file : List β) : (sections isHead file).length = (file.filter isHead).length := by
  rw [← heads_eq, List.length_map]

theorem sections_lead (file : List β) : sections isHead (lead isHead file) = [] :=
  sections_eq_nil_iff.mpr lead_not_head

variable (isHead) in
/-- The lines in sections read the same without the lead. -/
theorem sections_sectionLines (file : List β) :
    sections isHead (sectionLines isHead file) = sections isHead file ∧
      lead isHead (sectionLines isHead file) = [] := by
  have hsections := sections_append isHead (lead isHead file) (sectionLines isHead file)
  have hlead : lead isHead (lead isHead file ++ sectionLines isHead file) =
      lead isHead file ++ lead isHead (sectionLines isHead file) := lead_append_of_no_head (sections_lead file)
  rw [sectionLines, lead_append_sections] at hsections hlead
  rw [sections_lead, extendLast, List.nil_append] at hsections
  exact ⟨hsections.symm, List.self_eq_append_right.mp hlead⟩

/-- What a filter does to the lead and to the lines in sections. -/
theorem lead_filter (keep : β → Bool) (file : List β) :
    lead isHead (file.filter keep) =
      (lead isHead file).filter keep ++ lead isHead ((sectionLines isHead file).filter keep) := by
  have hnone : sections isHead ((lead isHead file).filter keep) = [] :=
    sections_eq_nil_iff.mpr fun l hl => lead_not_head l (List.mem_of_mem_filter hl)
  rw [← lead_append_of_no_head hnone, ← List.filter_append, sectionLines, lead_append_sections]

/-- Lines of the lead are taken out without touching a section. -/
theorem sections_filter {keep : β → Bool} {file : List β}
    (h : ∀ l ∈ sectionLines isHead file, keep l = true) :
    sections isHead (file.filter keep) = sections isHead file ∧
      lead isHead (file.filter keep) = (lead isHead file).filter keep := by
  obtain ⟨hsections, hlead⟩ := sections_sectionLines isHead file
  have hself : (sectionLines isHead file).filter keep = sectionLines isHead file :=
    List.filter_eq_self.mpr h
  have hnone : sections isHead ((lead isHead file).filter keep) = [] :=
    sections_eq_nil_iff.mpr fun l hl => lead_not_head l (List.mem_of_mem_filter hl)
  refine ⟨?_, by rw [lead_filter, hself, hlead, List.append_nil]⟩
  calc sections isHead (file.filter keep)
      = sections isHead ((lead isHead file).filter keep ++ (sectionLines isHead file).filter keep) := by
        rw [← List.filter_append, sectionLines, lead_append_sections]
    _ = sections isHead (sectionLines isHead file) := by
        rw [sections_append, hnone, hself]
        rfl
    _ = sections isHead file := hsections

/-- A next file that starts with a head leaves the lead as it is. -/
theorem lead_append_of_lead {file next : List β} (h : lead isHead next = []) :
    lead isHead (file ++ next) = lead isHead file := by
  by_cases hnone : sections isHead file = []
  · rw [lead_append_of_no_head hnone, h, List.append_nil, lead_of_no_head (sections_eq_nil_iff.mp hnone)]
  · exact lead_append_of_head hnone

/-! ### Sections of one kind

`p` is a kind of heads. -/

section Kind
variable {p : β → Bool}

theorem heads_of_kind (hp : ∀ l, p l = true → isHead l = true) (file : List β) :
    ((sections isHead file).filter fun s => p s.head).map Section.head = file.filter p := by
  have hboth : (fun l => p l && isHead l) = p := by
    funext l
    cases hl : p l with
    | true => rw [hp l hl, Bool.and_true]
    | false => rfl
  calc ((sections isHead file).filter fun s => p s.head).map Section.head
      = ((sections isHead file).map Section.head).filter p := List.filter_map.symm
    _ = file.filter p := by rw [heads_eq, List.filter_filter, hboth]

variable (isHead) in
theorem sections_of_kind_eq_nil {file : List β} (h : ∀ l ∈ file, p l = false) :
    (sections isHead file).filter (fun s => p s.head) = [] := by
  refine List.filter_eq_nil_iff.mpr fun s hs => ?_
  have hhead : s.head ∈ (sections isHead file).map Section.head := List.mem_map_of_mem hs
  rw [heads_eq] at hhead
  rw [h _ (List.mem_of_mem_filter hhead)]
  exact Bool.false_ne_true

theorem sections_of_other_kind {file : List β} (h : ∀ l ∈ file, p l = false) :
    (sections isHead file).filter (fun s => !p s.head) = sections isHead file := by
  have hnone := List.filter_eq_nil_iff.mp (sections_of_kind_eq_nil isHead h)
  exact List.filter_eq_self.mpr fun s hs => by simpa using hnone s hs

/-- The only section of its kind, and the sections around it. -/
theorem sections_around {front rest : List β} {h : β} (hhead : isHead h = true) (hh : p h = true)
    (hfront : ∀ l ∈ front, p l = false) (hrest : ∀ l ∈ rest, p l = false) :
    (sections isHead (front ++ h :: rest)).filter (fun s => p s.head) = [⟨h, lead isHead rest⟩] ∧
      (sections isHead (front ++ h :: rest)).filter (fun s => !p s.head) =
        sections isHead front ++ sections isHead rest := by
  rw [sections_append_of_lead (lead_cons_head hhead rest), sections_cons_head hhead, List.filter_append,
    List.filter_append, sections_of_kind_eq_nil isHead hfront, sections_of_other_kind hfront]
  constructor
  · rw [List.nil_append, List.filter_cons, if_pos hh, sections_of_kind_eq_nil isHead hrest]
  · rw [List.filter_cons, if_neg (by simp [hh]), sections_of_other_kind hrest]

/-- Where the sections that are not of the kind survive, a file that has fewer heads of
a wider kind `q` has fewer of the kind. -/
theorem count_le_of_subperm {q : β → Bool} (hp : ∀ l, p l = true → q l = true)
    (hq : ∀ l, q l = true → isHead l = true) {old new : List β}
    (h : ((sections isHead old).filter fun s => !p s.head).Subperm
      ((sections isHead new).filter fun s => !p s.head)) :
    old.countP q + new.countP p ≤ new.countP q + old.countP p := by
  have hcount : ∀ file : List β, file.countP q =
      file.countP p + ((sections isHead file).filter fun s => !p s.head).countP fun s => q s.head := by
    intro file
    have hheads : ∀ r : β → Bool, (∀ l, r l = true → isHead l = true) →
        (sections isHead file).countP (fun s => r s.head) = file.countP r := by
      intro r hr
      rw [List.countP_eq_length_filter, List.countP_eq_length_filter, ← heads_of_kind hr, List.length_map]
    rw [← hheads q hq, ← hheads p fun l hl => hq l (hp l hl),
      List.countP_eq_countP_filter_add _ _ fun s => p s.head]
    congr 1
    rw [List.countP_filter]
    refine List.countP_congr fun s _ => ?_
    cases hs : p s.head with
    | true => simp [hp _ hs]
    | false => simp
  have hle := h.countP_le fun s => q s.head
  have hold := hcount old
  have hnew := hcount new
  omega

end Kind

/-! ### A part that is cut out and put at the end

A file is `front ++ part ++ rear`, where the lead of `part ++ rear` belongs to a
section of its own. What `keep` leaves of the part is put behind the front and the
rear. Lines that are `gone` are meant to be taken out of that lead. -/

section Recut
variable (isHead) (keep gone : β → Bool) (front part rear : List β)

/-- Only what is meant to go is taken out, and the rear starts with a head, or joins
the like of the section that it is cut from. -/
structure Recut : Prop where
  cut : ∀ l ∈ lead isHead part, keep l = false → gone l = true
  kept : ∀ l ∈ sectionLines isHead part, keep l = true
  joins : lead isHead rear = [] ∨
    ∃ s ∈ (sections isHead front).getLast?, s ∈ (sections isHead part).getLast?

end Recut

variable {keep gone : β → Bool} {front part rear : List β}

theorem eq_concat_of_getLast? {α : Type} {l : List α} {a : α} (h : a ∈ l.getLast?) : ∃ init, l = init ++ [a] := by
  obtain ⟨init, hl⟩ := List.getLast?_eq_some_iff.mp h
  exact ⟨init, hl⟩

theorem Recut.lead_part (h : Recut isHead keep gone front part rear)
    (hgone : ∀ l, gone l = true → keep l = false) :
    lead isHead (part.filter keep) = (lead isHead part).filter fun l => !gone l := by
  rw [(sections_filter h.kept).2]
  refine List.filter_congr fun l hl => ?_
  cases hk : keep l with
  | true =>
    cases hg : gone l with
    | true => cases hk.symm.trans (hgone l hg)
    | false => rfl
  | false =>
    rw [h.cut l hl hk]
    rfl

/-- Without sections in the part the rear starts with a head. -/
theorem Recut.lead_rear (h : Recut isHead keep gone front part rear)
    (hpart : sections isHead front = [] ∨ sections isHead part = []) : lead isHead rear = [] := by
  refine h.joins.resolve_right ?_
  intro hsome
  obtain ⟨s, hfront, hs⟩ := hsome
  rcases hpart with hnil | hnil
  · rw [hnil] at hfront
    cases hfront
  · rw [hnil] at hs
    cases hs

theorem Recut.lead_front (h : Recut isHead keep gone front part rear) :
    lead isHead (front ++ rear) = lead isHead front := by
  by_cases hnone : sections isHead front = []
  · rw [lead_append_of_no_head hnone, h.lead_rear (.inl hnone), List.append_nil,
      lead_of_no_head (sections_eq_nil_iff.mp hnone)]
  · exact lead_append_of_head hnone

theorem Recut.lead_cut (h : Recut isHead keep gone front part rear) :
    lead isHead (part ++ rear) = lead isHead part := by
  by_cases hnone : sections isHead part = []
  · rw [lead_append_of_no_head hnone, h.lead_rear (.inr hnone), List.append_nil,
      lead_of_no_head (sections_eq_nil_iff.mp hnone)]
  · exact lead_append_of_head hnone

/-- The sections around two that change. -/
theorem perm_around {α : Type} (l₁ l₂ l₃ : List α) (a b : α) :
    (l₁ ++ [a] ++ (l₂ ++ [b] ++ l₃)).Perm ([a, b] ++ (l₁ ++ l₂ ++ l₃)) ∧
      (l₁ ++ [a] ++ l₃ ++ (l₂ ++ [b])).Perm ([a, b] ++ (l₁ ++ l₂ ++ l₃)) := by
  have hpair : ((([a, b] : List α) : Multiset α)) = ([a] : List α) + ([b] : List α) := rfl
  simp only [← Multiset.coe_eq_coe, ← Multiset.coe_add, hpair]
  constructor <;> abel

theorem Recut.perm (h : Recut isHead keep gone front part rear) :
    (sections isHead front ++ sections isHead (part ++ rear)).Perm
      (sections isHead (front ++ rear) ++ sections isHead (part.filter keep)) := by
  rw [(sections_filter h.kept).1]
  rcases h.joins with hrear | ⟨s, hfront, hpart⟩
  · rw [sections_append_of_lead hrear, sections_append_of_lead hrear, List.append_assoc]
    exact List.perm_append_comm.append_left _
  · obtain ⟨l₁, h₁⟩ := eq_concat_of_getLast? hfront
    obtain ⟨l₂, h₂⟩ := eq_concat_of_getLast? hpart
    rw [sections_append, sections_append, h₁, h₂, extendLast_concat, extendLast_concat]
    refine (perm_around _ _ _ _ _).1.trans (.trans ?_ (perm_around _ _ _ _ _).2.symm)
    exact .append_right _ (.swap ..)

theorem length_extendLast (ss : List (Section β)) (more : List β) :
    (extendLast ss more).length = ss.length := by
  rcases List.eq_nil_or_concat ss with rfl | ⟨init, s, rfl⟩
  · rfl
  · rw [List.concat_eq_append, extendLast_concat, List.length_append, List.length_append]
    rfl

/-- The lines that sections have together. -/
theorem perm_lines {ss ss' : List (Section β)} (h : ss.Perm ss') :
    (ss.flatMap Section.lines).length = (ss'.flatMap Section.lines).length :=
  (h.flatMap_right Section.lines).length_eq

/-- The section that the rear is cut from, and the one it joins, are alike. -/
theorem joins_of_perm (hrear : lead isHead rear ≠ []) {l₁ l₂ : List (Section β)} {s s' : Section β}
    (hfront : sections isHead front = l₁ ++ [s]) (hpart : sections isHead part = l₂ ++ [s'])
    (h : (sections isHead front ++ sections isHead (part ++ rear)).Perm
      (sections isHead (front ++ rear) ++ sections isHead part)) : s = s' := by
  rw [sections_append, sections_append, hfront, hpart, extendLast_concat, extendLast_concat] at h
  have hpair := (perm_around ..).1.symm.trans (h.trans (perm_around ..).2)
  have hmem := ((List.perm_append_right_iff _).mp hpair).mem_iff.mp (List.mem_cons_self ..)
  rcases List.mem_cons.mp hmem with heq | hmem
  · exact absurd (congrArg Section.body heq) fun hbody => hrear (List.self_eq_append_right.mp hbody)
  · exact List.mem_singleton.mp hmem

/-- Where no more is taken out than is meant to go, nothing else is. -/
theorem gone_of_length {file : List β} (hgone : ∀ l, gone l = true → keep l = false)
    (h : (file.filter keep).length = (file.filter fun l => !gone l).length) :
    ∀ l ∈ file, keep l = false → gone l = true := by
  have htwice : file.filter keep = (file.filter fun l => !gone l).filter keep := by
    rw [List.filter_filter]
    refine List.filter_congr fun l _ => ?_
    cases hg : gone l with
    | true => simp [hgone l hg]
    | false => simp
  rw [htwice, List.length_filter_eq_length_iff] at h
  intro l hl hcut
  by_contra hnot
  have hkeep := h l (List.mem_filter.mpr ⟨hl, by simp [hnot]⟩)
  cases hkeep.symm.trans hcut

/-- A part that is thinned has no more sections than before. -/
theorem cut_perm (h : (sections isHead front ++ sections isHead (part ++ rear)).Subperm
      (sections isHead (front ++ rear) ++ sections isHead (part.filter keep))) :
    (sections isHead front ++ sections isHead (part ++ rear)).Perm
      (sections isHead (front ++ rear) ++ sections isHead (part.filter keep)) := by
  have hheads : ((part.filter keep).filter isHead).length ≤ (part.filter isHead).length := by
    rw [List.filter_comm]
    exact List.length_filter_le ..
  refine h.perm_of_length_le ?_
  simp only [List.length_append, sections_append, length_extendLast, length_sections]
  omega

/-- No line has left the sections: what the part lost it lost from its lead. -/
theorem cut_length (hlead : lead isHead (front ++ rear) = lead isHead front)
    (h : (sections isHead front ++ sections isHead (part ++ rear)).Perm
      (sections isHead (front ++ rear) ++ sections isHead (part.filter keep))) :
    part.length + (lead isHead (part.filter keep)).length =
      (part.filter keep).length + (lead isHead (part ++ rear)).length := by
  have hall := perm_lines h
  rw [List.flatMap_append, List.flatMap_append, List.length_append, List.length_append] at hall
  have h₁ := length_lines isHead front
  have h₂ := length_lines isHead (part ++ rear)
  have h₃ := length_lines isHead (front ++ rear)
  have h₄ := length_lines isHead (part.filter keep)
  rw [List.length_append] at h₂ h₃
  rw [hlead] at h₃
  simp only [sectionLines] at h₁ h₂ h₃ h₄
  omega

/-- A part of one section. -/
theorem recut_of_no_section (hgone : ∀ l, gone l = true → keep l = false) (hnone : sections isHead part = [])
    (hlength : part.length + (lead isHead (part.filter keep)).length =
      (part.filter keep).length + (lead isHead (part ++ rear)).length)
    (hcut : (lead isHead (part.filter keep)).length =
      ((lead isHead (part ++ rear)).filter fun l => !gone l).length) :
    Recut isHead keep gone front part rear := by
  have hheads := sections_eq_nil_iff.mp hnone
  have hpart : lead isHead part = part := lead_of_no_head hheads
  have hkept : lead isHead (part.filter keep) = part.filter keep :=
    lead_of_no_head fun l hl => hheads l (List.mem_of_mem_filter hl)
  rw [lead_append_of_no_head hnone] at hlength hcut
  rw [hkept, List.length_append] at hlength
  have hrear : lead isHead rear = [] := List.length_eq_zero_iff.mp (by omega)
  rw [hkept, hrear, List.append_nil] at hcut
  refine ⟨?_, ?_, .inl hrear⟩
  · rw [hpart]
    exact gone_of_length hgone hcut
  · rw [sectionLines, hnone]
    exact fun _ h => absurd h List.not_mem_nil

/-- Where every section survives, the part was cut out well. -/
theorem recut_of_subperm (hgone : ∀ l, gone l = true → keep l = false)
    (hlead : lead isHead (front ++ rear) = lead isHead front)
    (hcut : (lead isHead (part.filter keep)).length =
      ((lead isHead (part ++ rear)).filter fun l => !gone l).length)
    (hsections : (sections isHead front ++ sections isHead (part ++ rear)).Subperm
      (sections isHead (front ++ rear) ++ sections isHead (part.filter keep))) :
    Recut isHead keep gone front part rear := by
  have hperm := cut_perm hsections
  have hlength := cut_length hlead hperm
  by_cases hnone : sections isHead part = []
  · exact recut_of_no_section hgone hnone hlength hcut
  have hsplit : (part.filter keep).length =
      ((lead isHead part).filter keep).length + ((sectionLines isHead part).filter keep).length := by
    rw [← List.length_append, ← List.filter_append, sectionLines, lead_append_sections]
  have hle := List.length_filter_le keep (sectionLines isHead part)
  have hall := length_lines isHead part
  rw [lead_append_of_head hnone, lead_filter, List.length_append] at hlength hcut
  have hkept : ∀ l ∈ sectionLines isHead part, keep l = true :=
    List.length_filter_eq_length_iff.mp (by omega)
  refine ⟨gone_of_length hgone (by omega), hkept, ?_⟩
  by_cases hrear : lead isHead rear = []
  · exact .inl hrear
  have hsome : sections isHead front ≠ [] := by
    intro hnil
    rw [lead_append_of_no_head hnil, lead_of_no_head (sections_eq_nil_iff.mp hnil)] at hlead
    exact hrear (List.append_right_eq_self.mp hlead)
  have hs := List.getLast?_eq_some_getLast hsome
  have hs' := List.getLast?_eq_some_getLast hnone
  obtain ⟨l₁, h₁⟩ := eq_concat_of_getLast? hs
  obtain ⟨l₂, h₂⟩ := eq_concat_of_getLast? hs'
  rw [(sections_filter hkept).1] at hperm
  have hsame := joins_of_perm hrear h₁ h₂ hperm
  exact .inr ⟨_, hs, hsame ▸ hs'⟩

end Read

end Idic.Shell
