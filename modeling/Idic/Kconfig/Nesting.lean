import Idic.Kconfig.Menu

/-! What `menu_finalize` does to the tree.

No entry is lost, put in twice or moved past another one, whatever goes into what. And
what holds an entry is there whenever the entry is: its symbol is set, or its prompt is
visible. -/
namespace Idic.Kconfig

variable {σ : Type}

open Idic.Kconfig.Expr

section Order
variable [DecidableEq σ] (types : σ → SymbolType)

/-- Every entry under the conditions of those it stands in, with all of them where they
were read. -/
def restrictAll (parentdep : Option (Expr σ)) : Menus σ → Menus σ
  | .nil => .nil
  | .cons m list next =>
    let m' := m.restricted types parentdep
    .cons m' (restrictAll m'.parentdep list) (restrictAll parentdep next)

/-- The same for what the entries of a list hold. -/
def restrictLists : Menus σ → Menus σ
  | .nil => .nil
  | .cons m list next => .cons m (restrictAll types m.parentdep list) (restrictLists next)

variable {types}

theorem restrictLists_mapEntries (parentdep : Option (Expr σ)) (ms : Menus σ) :
    restrictLists types (ms.mapEntries (Entry.restricted types parentdep)) = restrictAll types parentdep ms := by
  induction ms with
  | nil => rfl
  | cons m list next _ ih => rw [Menus.mapEntries, restrictLists, ih, restrictAll]

variable (types) in
/-- What an entry holds before `splice`, and what it leaves behind it. -/
def opened (m : Entry σ) (list next : Menus σ) : Menus σ × Menus σ :=
  if list.isNil then
    match m.sym with
    | some s => (siblings types (nestsUnder types s m) next).1
    | none => (.nil, next)
  else ((siblings types (fun _ => true) (list.mapEntries (Entry.restricted types m.parentdep))).1.1, next)

theorem opened_size_le (m : Entry σ) (list next : Menus σ) : (opened types m list next).2.size ≤ next.size := by
  unfold opened
  split
  · split
    · exact (siblings types _ next).2
    · exact le_refl _
  · exact le_refl _

theorem siblings_nil (nests : Entry σ → Bool) : (siblings types nests .nil).1 = (.nil, .nil) := by
  rw [siblings]

theorem siblings_stop {nests : Entry σ → Bool} {m : Entry σ} (h : nests m = false) (list next : Menus σ) :
    (siblings types nests (.cons m list next)).1 = (.nil, .cons m list next) := by
  rw [siblings]
  simp [h]

theorem siblings_take {nests : Entry σ → Bool} {m : Entry σ} (h : nests m = true) (list next : Menus σ) :
    (siblings types nests (.cons m list next)).1 =
      let x := opened types m list next
      let y := (siblings types nests x.2).1
      (.cons m x.1.splice y.1, y.2) := by
  rw [siblings]
  dsimp only
  rw [if_pos h]
  rcases m with ⟨_ | s, choice, dep, prompt, props⟩ <;> cases list <;> rfl

variable (types) in
/-- Induction along the loops: for an entry that is taken, what it holds, what it takes
from behind it, and what is left behind that. -/
theorem siblings_induction {motive : (Entry σ → Bool) → Menus σ → Prop}
    (nil : ∀ nests, motive nests .nil)
    (stop : ∀ nests m list next, nests m = false → motive nests (.cons m list next))
    (take : ∀ nests m list next, nests m = true →
      motive (fun _ => true) (list.mapEntries (Entry.restricted types m.parentdep)) →
      (∀ s, m.sym = some s → motive (nestsUnder types s m) next) →
      motive nests (opened types m list next).2 → motive nests (.cons m list next))
    (nests : Entry σ → Bool) (ms : Menus σ) : motive nests ms := by
  induction hn : ms.size using Nat.strongRecOn generalizing nests ms with
  | ind n ih =>
    cases ms with
    | nil => exact nil nests
    | cons m list next =>
      simp only [Menus.size] at hn
      cases hm : nests m with
      | false => exact stop nests m list next hm
      | true =>
        have hopened : (opened types m list next).2.size ≤ next.size := opened_size_le m list next
        refine take nests m list next hm (ih _ ?_ _ _ rfl) (fun s _ => ih _ ?_ _ _ rfl) (ih _ ?_ _ _ rfl)
        · rw [Menus.mapEntries_size]; omega
        · omega
        · omega

/-- Where everything is taken nothing is left. -/
theorem siblings_all (ms : Menus σ) : (siblings types (fun _ => true) ms).1.2 = .nil := by
  have hall : ∀ nests ms, (∀ m, nests m = true) → (siblings types nests ms).1.2 = .nil := by
    intro nests ms
    induction nests, ms using siblings_induction types with
    | nil nests => exact fun _ => by rw [siblings_nil]
    | stop nests m list next hm => exact fun h => absurd (h m) (by rw [hm]; decide)
    | take nests m list next hm _ _ ih => exact fun h => by rw [siblings_take hm]; exact ih h
  exact hall _ ms fun _ => rfl

/-- What is taken and what is left are the entries that there were, in their order. -/
theorem siblings_order (nests : Entry σ → Bool) (ms : Menus σ) :
    (siblings types nests ms).1.1.order ++ (restrictLists types (siblings types nests ms).1.2).order =
      (restrictLists types ms).order := by
  induction nests, ms using siblings_induction types with
  | nil nests => rw [siblings_nil]; rfl
  | stop nests m list next hm => rw [siblings_stop hm]; rfl
  | take nests m list next hm ihlist ihnext ihrest =>
    have hopened : (opened types m list next).1.order ++
        (restrictLists types (opened types m list next).2).order =
          (restrictAll types m.parentdep list).order ++ (restrictLists types next).order := by
      unfold opened
      split
      · next hnil =>
        have hlist : list = .nil := by cases list <;> first | rfl | cases hnil
        rw [hlist]
        split
        · next s hs => exact ihnext s hs
        · rfl
      · rw [siblings_all] at ihlist
        rw [← restrictLists_mapEntries, ← ihlist]
        simp [restrictLists, Menus.order]
    rw [siblings_take hm]
    simp only [Menus.order, Menus.order_splice, restrictLists]
    rw [List.cons_append, List.append_assoc, ihrest, hopened]

theorem finalize_order (ms : Menus σ) :
    (finalize types ms).order = (restrictAll types none ms).order := by
  have horder : _ ++ _ = (restrictLists types (ms.mapEntries (Entry.restricted types none))).order :=
    siblings_order (fun _ => true) _
  rw [siblings_all, restrictLists_mapEntries] at horder
  rw [finalize, Menus.order_splice, ← horder]
  exact (List.append_nil _).symm

end Order

section Guarded
variable {types : σ → SymbolType} (v : Values types)

def present (e : Option (Expr σ)) : Prop := calcCondition v e ≠ .no

/-- The entry's symbol is set, or its condition is met. -/
def Entry.Holds (m : Entry σ) : Prop :=
  (∃ s, m.sym = some s ∧ (v.tri s ≠ .no ∨ v.stringOf (.var s) ≠ ['n'])) ∨ present v m.condition

/-- A symbol without a prompt. What has gone into it is spliced out behind it. -/
def Entry.Hidden (m : Entry σ) : Prop := m.prompt = none ∧ m.sym.isSome = true

/-- What holds the entries of a list holds where one of them is there, and so on below,
but behind a hidden symbol. -/
def Guarded (parent : Entry σ) (above : List (Entry σ)) : Menus σ → Prop
  | .nil => True
  | .cons m list next =>
    (present v m.condition → parent.Holds v ∨ ∃ h ∈ parent :: above, h.Hidden) ∧
      Guarded m [] list ∧ Guarded parent (above ++ [m]) next

namespace Menus

/-- The entries of the list itself. -/
def heads : Menus σ → List (Entry σ)
  | nil => []
  | cons m _ next => m :: next.heads

theorem heads_mapEntries (f : Entry σ → Entry σ) (ms : Menus σ) :
    (ms.mapEntries f).heads = ms.heads.map f := by
  induction ms with
  | nil => rfl
  | cons m list next _ ih => rw [mapEntries, heads, ih, heads, List.map_cons]

end Menus

variable {v}

theorem Guarded.mono {parent : Entry σ} {above above' : List (Entry σ)} {ms : Menus σ}
    (h : Guarded v parent above ms) (hsub : above ⊆ above') : Guarded v parent above' ms := by
  induction ms generalizing above above' with
  | nil => trivial
  | cons m list next _ ih =>
    obtain ⟨hm, hlist, hnext⟩ := h
    refine ⟨fun hp => (hm hp).imp_right ?_, hlist, ih hnext ?_⟩
    · exact fun ⟨h, hmem, hh⟩ => ⟨h, List.cons_subset_cons _ hsub hmem, hh⟩
    · exact List.append_subset.mpr 
        ⟨List.Subset.trans hsub (List.subset_append_left _ _), List.subset_append_right _ _⟩

/-- A list may be moved to where its parent stands. -/
theorem Guarded.moved {parent m : Entry σ} {above above' : List (Entry σ)} {ms : Menus σ}
    (h : Guarded v m above ms) (hsub : above ⊆ above') (hprompt : m.prompt = none) (hm : m ∈ above')
    (hup : present v m.condition → parent.Holds v ∨ ∃ h ∈ parent :: above', h.Hidden) :
    Guarded v parent above' ms := by
  induction ms generalizing above above' with
  | nil => trivial
  | cons m' list next _ ih =>
    obtain ⟨hm', hlist, hnext⟩ := h
    refine ⟨fun hp => ?_, hlist, ih hnext ?_ ?_ ?_⟩
    · rcases hm' hp with (⟨s, hs, -⟩ | hcond) | ⟨h, hmem, hh⟩
      · exact .inr ⟨m, List.mem_cons_of_mem _ hm, hprompt, by rw [hs]; rfl⟩
      · exact hup hcond
      · rcases List.mem_cons.mp hmem with rfl | hmem
        · exact .inr ⟨h, List.mem_cons_of_mem _ hm, hh⟩
        · exact .inr ⟨h, List.mem_cons_of_mem _ (hsub hmem), hh⟩
    · exact List.append_subset.mpr 
        ⟨List.Subset.trans hsub (List.subset_append_left _ _), List.subset_append_right _ _⟩
    · exact List.mem_append_left _ hm
    · refine fun hcond => (hup hcond).imp_right fun ⟨h, hmem, hh⟩ => ⟨h, ?_, hh⟩
      exact List.cons_subset_cons _ (List.subset_append_left _ _) hmem

theorem Guarded.append {parent : Entry σ} {above : List (Entry σ)} {ms ms' : Menus σ}
    (h : Guarded v parent above ms) (h' : Guarded v parent above ms') :
    Guarded v parent above (ms.append ms') := by
  induction ms generalizing above with
  | nil => exact h'
  | cons m list next _ ih =>
    exact ⟨h.1, h.2.1, ih h.2.2 (h'.mono (List.subset_append_left _ _))⟩

theorem Guarded.splice {parent : Entry σ} {above : List (Entry σ)} {ms : Menus σ}
    (h : Guarded v parent above ms) : Guarded v parent above ms.splice := by
  induction ms generalizing parent above with
  | nil => trivial
  | cons m list next ihl ihn =>
    obtain ⟨hm, hlist, hnext⟩ := h
    rw [Menus.splice]
    split
    · next hsplice =>
      have hprompt : m.prompt = none := by
        rw [Bool.and_eq_true, Option.isNone_iff_eq_none] at hsplice
        exact hsplice.2
      refine ⟨hm, trivial, .append ((ihl hlist).moved ?_ hprompt ?_ fun hcond => ?_) (ihn hnext)⟩
      · exact List.nil_subset _
      · exact List.mem_append_right _ (List.mem_singleton.mpr rfl)
      · rcases hm hcond with hholds | ⟨h, hmem, hh⟩
        · exact .inl hholds
        · exact .inr ⟨h, List.cons_subset_cons _ (List.subset_append_left _ _) hmem, hh⟩
    · exact ⟨hm, hlist, ihn hnext⟩

end Guarded

section Conditions
variable {types : σ → SymbolType} (v : Values types)

/-- A condition that is there has its negations before symbols. -/
def NnfCondition : Option (Expr σ) → Prop
  | none => True
  | some e => e.Nnf

def SettledCondition : Option (Expr σ) → Prop
  | none => True
  | some e => e.Settled v

theorem transBool_nnf {e : Expr σ} (h : e.Nnf) : (e.transBool types).Nnf := by
  induction e with
  | symbol s => exact h
  | not e =>
    cases e with
    | symbol s => exact h
    | not e => exact h.elim
    | comp c s t => exact h.elim
    | bin op l r => exact h.elim
  | comp c s t =>
    cases c with
    | equal => exact h
    | unequal =>
      cases t <;> first | exact h | skip
      rw [transBool]
      split <;> trivial
  | bin op l r ihl ihr => exact ⟨ihl h.1, ihr h.2⟩

theorem allocAnd_nnf {e1 e2 : Option (Expr σ)} (h1 : NnfCondition e1) (h2 : NnfCondition e2) :
    NnfCondition (allocAnd e1 e2) := by
  cases e1 with
  | none => exact h2
  | some e1 =>
    cases e2 with
    | none => exact h1
    | some e2 => exact ⟨h1, h2⟩

section Restrict
variable [DecidableEq σ]

theorem restrict_nnf {dep1 : Option (Expr σ)} (h : NnfCondition dep1) (dep2 : Option (Expr σ)) :
    NnfCondition (restrict types dep1 dep2) := by
  have hand : NnfCondition (allocAnd dep1 (dep2.map (transform types))) := by
    refine allocAnd_nnf h ?_
    cases dep2 with
    | none => trivial
    | some e => exact (transform_normal types e).nnf
  unfold restrict
  cases hdep : allocAnd dep1 (dep2.map (transform types)) with
  | none => trivial
  | some e => rw [hdep] at hand; exact eliminateDups_nnf hand

theorem restrictVisible_nnf (m : Entry σ) {basedep : Option (Expr σ)} (h : NnfCondition basedep)
    (visible : Option (Expr σ)) : NnfCondition (restrictVisible types m basedep visible) := by
  have hdep : NnfCondition (restrict types basedep visible) := restrict_nnf h visible
  unfold restrictVisible
  dsimp only
  split
  · split
    · cases hr : restrict types basedep visible with
      | none => trivial
      | some e => rw [hr] at hdep; exact transBool_nnf hdep
    · exact hdep
  · exact hdep

end Restrict

theorem calcCondition_allocAnd (e1 e2 : Option (Expr σ)) :
    calcCondition v (allocAnd e1 e2) = Op.and.apply (calcCondition v e1) (calcCondition v e2) := by
  cases e1 with
  | none => exact (Op.unit_apply .and _).symm
  | some e1 =>
    cases e2 with
    | none => exact (Op.apply_unit .and _).symm
    | some e2 => rfl

variable {v}

theorem and_ne_no {a b : Tristate} : Op.and.apply a b ≠ .no ↔ a ≠ .no ∧ b ≠ .no := by
  cases a <;> cases b <;> decide

variable [DecidableEq σ]

/-- What two conditions have been made into is met only where both are. -/
theorem present_restrict {dep1 dep2 : Option (Expr σ)} (h : present v (restrict types dep1 dep2)) :
    present v dep1 ∧ present v dep2 := by
  have htransform : calcCondition v (dep2.map (transform types)) = calcCondition v dep2 := by
    cases dep2 with
    | none => rfl
    | some e => exact calcValue_transform v e
  have hand : present v (allocAnd dep1 (dep2.map (transform types))) := by
    unfold restrict at h
    cases hdep : allocAnd dep1 (dep2.map (transform types)) with
    | none => exact (by decide : Tristate.yes ≠ .no)
    | some e =>
      rw [hdep] at h
      intro hno
      exact h (((eliminateDups_sharpens v e).eq (by rw [show e.calcValue v = .no from hno]; decide)).trans hno)
  rw [present, calcCondition_allocAnd, htransform] at hand
  exact and_ne_no.mp hand

theorem present_restrictVisible {m : Entry σ} {basedep visible : Option (Expr σ)} (hnnf : NnfCondition basedep)
    (h : present v (restrictVisible types m basedep visible)) : present v basedep := by
  have hdep : NnfCondition (restrict types basedep visible) := restrict_nnf hnnf visible
  have hrestrict : present v (restrict types basedep visible) := by
    unfold restrictVisible at h
    dsimp only at h
    split at h
    · split at h
      · cases hr : restrict types basedep visible with
        | none => exact (by decide : Tristate.yes ≠ .no)
        | some e =>
          rw [hr] at h hdep
          have hpromote := promote_transBool v hdep
          intro hno
          rw [show e.calcValue v = .no from hno] at hpromote
          refine h ?_
          revert hpromote
          change _ → (e.transBool types).calcValue v = .no
          cases (e.transBool types).calcValue v <;> intro hno <;> first | rfl | cases hno
      · exact h
    · exact h
  exact (present_restrict hrestrict).1

/-- A comparison with `n` is decided, and so nothing that is done to it changes it. -/
theorem calcValue_compared {dep : Option (Expr σ)} (h : SettledCondition v dep) :
    (compared types dep).calcValue v = Comp.unequal.value (calcCondition v dep = .no) := by
  have hcompare : ∀ e : Expr σ, e.calcValue v = Comp.unequal.value (calcCondition v dep = .no) →
      (eliminateDups types (e.transform types)).calcValue v =
        Comp.unequal.value (calcCondition v dep = .no) := by
    intro e he
    have hsharp := eliminateDups_sharpens v (e.transform types)
    rw [calcValue_transform, he] at hsharp
    exact hsharp.eq (Comp.unequal.value_ne_mod _)
  cases dep with
  | none => exact hcompare _ rfl
  | some e => exact hcompare _ (calcValue_transCompare (by decide : Tristate.no ≠ .mod) .unequal h)

/-- Where an expression depends on a symbol and is not `n`, the symbol is set. -/
theorem dependsSymbol_sound {s : σ} {e : Expr σ} (h : e.dependsSymbol (.var s) = true)
    (he : e.calcValue v ≠ .no) : v.tri s ≠ .no ∨ v.stringOf (.var s) ≠ ['n'] := by
  induction e with
  | symbol t => rw [of_decide_eq_true h] at he; exact .inl he
  | not e => cases h
  | comp c t t' =>
    cases c with
    | equal =>
      simp only [dependsSymbol, Bool.and_eq_true, Bool.or_eq_true, decide_eq_true_eq] at h
      obtain ⟨rfl, rfl | rfl⟩ := h
      · refine .inr fun hn => he ?_
        rw [calcValue, hn]
        rfl
      · refine .inr fun hn => he ?_
        rw [calcValue, hn]
        rfl
    | unequal =>
      simp only [dependsSymbol, Bool.and_eq_true, decide_eq_true_eq] at h
      obtain ⟨rfl, rfl⟩ := h
      refine .inr fun hn => he ?_
      rw [calcValue, hn]
      rfl
  | bin op l r ihl ihr =>
    cases op with
    | or => cases h
    | and =>
      obtain ⟨hl, hr⟩ := and_ne_no.mp he
      rcases Bool.or_eq_true _ _ ▸ h with h | h
      · exact ihl h hl
      · exact ihr h hr

/-- An entry is taken only where its condition is no weaker than what it goes into. -/
theorem nestsUnder_sound {s : σ} {parent m : Entry σ} (hsym : parent.sym = some s)
    (hparent : SettledCondition v parent.condition) (hm : SettledCondition v m.condition)
    (h : nestsUnder types s parent m = true) (hpresent : present v m.condition) :
    parent.Holds v ∨ parent.Hidden := by
  unfold nestsUnder at h
  cases hcond : m.condition with
  | none => rw [hcond] at h; cases h
  | some dep =>
    rw [hcond] at h hm hpresent
    dsimp only at h
    split_ifs at h with hcontains hdepends
    · exact .inl (.inl ⟨s, hsym, dependsSymbol_sound hdepends hpresent⟩)
    · cases hprompt : parent.prompt with
      | none => exact .inr ⟨hprompt, by rw [hsym]; rfl⟩
      | some visible =>
        have hvisible : parent.condition = visible := by rw [Entry.condition, hprompt]
        rw [hprompt, Option.join_some] at h
        rw [hvisible] at hparent
        refine .inl (.inr ?_)
        have hle : (compared types (some dep)).calcValue v ≤ (compared types visible).calcValue v := by
          refine eliminateEq_le v _ _ ?_
          rw [of_decide_eq_true h]
          exact Tristate.le_yes _
        rw [calcValue_compared hm, calcValue_compared hparent] at hle
        rw [hvisible]
        intro hno
        rw [Comp.value, if_neg hpresent, Comp.value, if_pos hno] at hle
        exact absurd hle (by decide)

/-- An entry under the conditions of what it stands in is there only where that is. -/
theorem restricted_present {parentdep : Option (Expr σ)} (hnnf : NnfCondition parentdep) {m : Entry σ}
    (h : present v (m.restricted types parentdep).condition) : present v parentdep := by
  have hbase : NnfCondition (restrict types parentdep m.dep) := restrict_nnf hnnf m.dep
  have hdep : present v (restrict types parentdep m.dep) := by
    unfold Entry.restricted Entry.condition at h
    cases hprompt : m.prompt with
    | none => rw [hprompt] at h; exact h
    | some visible => rw [hprompt] at h; exact present_restrictVisible hbase h
  exact (present_restrict hdep).1

theorem restricted_nnf {parentdep : Option (Expr σ)} (hnnf : NnfCondition parentdep) (m : Entry σ) :
    NnfCondition (m.restricted types parentdep).parentdep := by
  have hbase : NnfCondition (restrict types parentdep m.dep) := restrict_nnf hnnf m.dep
  have hcondition : NnfCondition (m.restricted types parentdep).condition := by
    unfold Entry.restricted Entry.condition
    cases m.prompt with
    | none => exact hbase
    | some visible => exact restrictVisible_nnf m hbase visible
  unfold Entry.parentdep
  split
  · split
    · trivial
    · exact hcondition
  · exact hcondition

omit [DecidableEq σ] in
theorem holds_of_parentdep {m : Entry σ} (h : present v m.parentdep) : m.Holds v := by
  unfold Entry.parentdep at h
  split at h
  · next s hs =>
    split at h
    · exact .inl ⟨s, hs, .inl h⟩
    · exact .inr h
  · exact .inr h

end Conditions

section Tree
variable [DecidableEq σ] {types : σ → SymbolType} {v : Values types}

theorem heads_subset_restrictLists (ms : Menus σ) : ms.heads ⊆ (restrictLists types ms).order := by
  induction ms with
  | nil => exact List.Subset.refl _
  | cons m list next _ ih =>
    exact List.cons_subset_cons _ (List.Subset.trans ih (List.subset_append_right _ _))

theorem siblings_heads_subset (nests : Entry σ → Bool) (ms : Menus σ) :
    (siblings types nests ms).1.2.heads ⊆ ms.heads := by
  induction nests, ms using siblings_induction types with
  | nil nests => rw [siblings_nil]; exact List.Subset.refl _
  | stop nests m list next hm => rw [siblings_stop hm]; exact List.Subset.refl _
  | take nests m list next hm _ ihnext ihrest =>
    have hopened : (opened types m list next).2.heads ⊆ next.heads := by
      unfold opened
      split
      · split
        · next s hs => exact ihnext s hs
        · exact List.Subset.refl _
      · exact List.Subset.refl _
    rw [siblings_take hm]
    exact List.Subset.trans ihrest (List.Subset.trans hopened (List.subset_cons_self _ _))

theorem opened_heads_subset (m : Entry σ) (list next : Menus σ) :
    (opened types m list next).2.heads ⊆ next.heads := by
  unfold opened
  split
  · split
    · exact siblings_heads_subset _ next
    · exact List.Subset.refl _
  · exact List.Subset.refl _

theorem opened_order_subset (m : Entry σ) (list next : Menus σ) :
    (restrictLists types (opened types m list next).2).order ⊆ (restrictLists types next).order := by
  unfold opened
  split
  · split
    · next s hs =>
      rw [← siblings_order (nestsUnder types s m) next]
      exact List.subset_append_right _ _
    · exact List.Subset.refl _
  · exact List.Subset.refl _

theorem siblings_guarded (nests : Entry σ → Bool) (ms : Menus σ) (parent : Entry σ)
    (hnests : ∀ m ∈ ms.heads, nests m = true → present v m.condition → parent.Holds v ∨ parent.Hidden)
    (hnnf : ∀ m ∈ ms.heads, NnfCondition m.parentdep)
    (hsettled : ∀ m ∈ (restrictLists types ms).order, SettledCondition v m.condition) :
    Guarded v parent [] (siblings types nests ms).1.1 := by
  induction nests, ms using siblings_induction types generalizing parent with
  | nil nests => rw [siblings_nil]; trivial
  | stop nests m list next hm => rw [siblings_stop hm]; trivial
  | take nests m list next hm ihlist ihnext ihrest =>
    have hmem : m ∈ (Menus.cons m list next).heads := List.mem_cons_self
    have hnextheads : next.heads ⊆ (Menus.cons m list next).heads := List.subset_cons_self _ _
    have hlistorder : (restrictAll types m.parentdep list).order ⊆
        (restrictLists types (.cons m list next)).order :=
      List.subset_cons_of_subset _ (List.subset_append_left _ _)
    have hnextorder : (restrictLists types next).order ⊆ (restrictLists types (.cons m list next)).order :=
      List.subset_cons_of_subset _ (List.subset_append_right _ _)
    have hheld : Guarded v m [] (opened types m list next).1 := by
      unfold opened
      split
      · split
        · next s hs =>
          refine ihnext s hs m (fun m' hm' htake hpresent => ?_) (fun m' hm' => hnnf m' (hnextheads hm'))
            (fun m' hm' => hsettled m' (hnextorder hm'))
          refine nestsUnder_sound hs (hsettled m List.mem_cons_self) (hsettled m' (hnextorder ?_)) htake hpresent
          exact heads_subset_restrictLists next hm'
        · trivial
      · refine ihlist m (fun m' hm' _ hpresent => ?_) (fun m' hm' => ?_) (fun m' hm' => ?_)
        · rw [Menus.heads_mapEntries] at hm'
          obtain ⟨c, -, rfl⟩ := List.mem_map.mp hm'
          exact .inl (holds_of_parentdep (restricted_present (hnnf m hmem) hpresent))
        · rw [Menus.heads_mapEntries] at hm'
          obtain ⟨c, -, rfl⟩ := List.mem_map.mp hm'
          exact restricted_nnf (hnnf m hmem) c
        · rw [restrictLists_mapEntries] at hm'
          exact hsettled m' (hlistorder hm')
    have hrest : Guarded v parent [] (siblings types nests (opened types m list next).2).1.1 := by
      refine ihrest parent (fun m' hm' => hnests m' ?_) (fun m' hm' => hnnf m' ?_)
        (fun m' hm' => hsettled m' (hnextorder (opened_order_subset m list next hm')))
      · exact hnextheads (opened_heads_subset m list next hm')
      · exact hnextheads (opened_heads_subset m list next hm')
    rw [siblings_take hm]
    refine ⟨fun hpresent => ?_, hheld.splice, hrest.mono (List.nil_subset _)⟩
    exact (hnests m hmem hm hpresent).imp_right fun hh => ⟨parent, List.mem_cons_self, hh⟩

/-- The root is always there. -/
def root : Entry σ := ⟨none, "Embedded Rootfs Configuration".toList, false, true, none, some none, []⟩

end Tree

section Example

/-- A package, and an option of it that is asked for when the package is there. -/
def package : Menus Bool :=
  .cons ⟨some false, "PDU simulation".toList, false, false, none, some none, []⟩ .nil
    (.cons ⟨some true, "vPDU Service".toList, false, false, some (.symbol (.var false)), some none, []⟩ .nil .nil)

def allYes : Values fun _ : Bool => SymbolType.boolean := ⟨fun _ => .yes, fun _ => [], fun _ _ => nofun⟩

end Example

end Idic.Kconfig
