import Idic.Kconfig.CheckConf

/-! The rounds of `check_conf`.

A question finishes its symbol: it is not new any more, and what it has kept is what
setting it again would keep. To ask for a symbol that is finished changes no value, so
what was visible stays so, and `conf` comes to the symbol that `check_conf` has called it
for, if it has not finished another one before. Each round but the last one therefore
finishes a symbol, and none is taken back (`checkLoop_ends`). -/
namespace Idic.Kconfig
open Python (Str)

variable {σ : Type} [DecidableEq σ] [Fintype σ]

section Unfinished
variable (T : Table σ)

/-- The symbol is new, or would keep something else if it were set to what it keeps. -/
def isUnfinished (type : SymbolType) (user : User) : Bool :=
  user.isNew || user.val.any fun val => keptString type val ≠ val

def unfinished (user : σ → User) : Finset σ := Finset.univ.filter fun s => isUnfinished (T.type s) (user s)

variable {T} {user : σ → User} {s : σ}

omit [DecidableEq σ] in
@[simp] theorem mem_unfinished : s ∈ unfinished T user ↔ isUnfinished (T.type s) (user s) = true := by
  simp [unfinished]

omit [DecidableEq σ] in
theorem new_unfinished (h : (user s).isNew = true) : s ∈ unfinished T user := by
  simp [isUnfinished, h]

theorem unfinished_update {u : User} (h : isUnfinished (T.type s) u = false) :
    unfinished T (Function.update user s u) = (unfinished T user).erase s := by
  ext s'
  by_cases hs : s' = s
  · subst hs
    simp [h]
  · simp [hs]

theorem keptString_idem (type : SymbolType) (val : Str) :
    keptString type (keptString type val) = keptString type val := by
  unfold keptString
  by_cases h : type = .hex ∧ (!hasHexMark val) = true
  · rw [if_pos h, if_neg fun h' => by simp [hasHexMark] at h']
  · rw [if_neg h, if_neg h]

theorem keptString_not_text {type : SymbolType} (h : type.isText = false) (val : Str) : keptString type val = val :=
  if_neg fun h' => by rw [h'.1] at h; cases h

variable {x : Session σ}

theorem setTristateValue_finishes (htext : (T.type s).isText = false) {val : Tristate}
    (hset : (setTristateValue T s val x).1 = true) :
    unfinished T (setTristateValue T s val x).2.user = (unfinished T x.user).erase s := by
  have hfinished : isUnfinished (T.type s) {x.user s with isNew := false, tri := val} = false := by
    simp [isUnfinished, keptString_not_text htext]
  rcases Session.setTristateValue_cases (T := T) s val x with ⟨-, -, hx⟩ | ⟨-, hx⟩ | ⟨-, hx⟩ <;> rw [hx] at hset ⊢
  · cases hset
  · exact unfinished_update hfinished
  · exact unfinished_update hfinished

theorem setStringValue_finishes (htext : (T.type s).isText = true) {newval : Str}
    (hset : (setStringValue T s newval x).1 = true) :
    unfinished T (setStringValue T s newval x).2.user = (unfinished T x.user).erase s := by
  rcases Session.setStringValue_cases htext newval x with hx | ⟨-, hkeep, hx⟩ | hx <;> rw [hx] at hset ⊢
  · cases hset
  · exact unfinished_update (by simp [isUnfinished, hkeep])
  · exact unfinished_update (by simp [isUnfinished, keptString_idem])

end Unfinished

section Rests
variable {T : Table σ} {cells : σ → Cell} {x : Session σ} {s : σ}

variable (T cells) in
/-- The solution has these cells, and what is kept agrees with them. -/
def Rests (x : Session σ) : Prop := ∃ S : Solution T x.user, S.cells = cells ∧ Memo.Agrees cells ∅ x.memo

omit [Fintype σ] in
theorem setTristateValue_rests (h : Rests T cells x) (hs : s ∈ x.memo.valid) (htext : (T.type s).isText = false) :
    Rests T cells (setTristateValue T s (x.memo.cells s).tri x).2 := by
  obtain ⟨S, rfl, hagrees⟩ := h
  have hcell : x.memo.cells s = S.cells s := hagrees s hs (Finset.notMem_empty s)
  have hset : (setTristateValue T s (x.memo.cells s).tri x).2 =
      x.setUser s {x.user s with isNew := false, tri := (x.memo.cells s).tri} := by
    simp [setTristateValue]
  rw [hset]
  exact ⟨S.keep rfl (congrArg Cell.tri hcell) htext, rfl, hagrees⟩

omit [Fintype σ] in
/-- A text that is finished is only kept otherwise where nobody sees it. -/
theorem kept_or_hidden (S : Solution T x.user) (htext : (T.type s).isText = true)
    (hfinished : isUnfinished (T.type s) (x.user s) = false) (hvalid : stringValid (T.type s) (S.cells s).val = true) :
    keptString (T.type s) (S.cells s).val = (S.cells s).val ∨ (S.cells s).visible = .no := by
  by_contra hnot
  obtain ⟨hkept, hvisible⟩ := not_or.mp hnot
  obtain ⟨hnew, hval⟩ := Bool.or_eq_false_iff.mp hfinished
  have hcell : (S.cells s).val = (x.user s).val.getD [] := by
    rw [S.cells_eq s, value_second_text _ (getType_text htext)]
    exact if_pos ⟨by rwa [S.first_visible], by rw [hnew]; rfl⟩
  cases huser : (x.user s).val with
  | some val =>
    rw [huser] at hcell hval
    rw [hcell] at hkept
    exact hkept (by simpa using hval)
  | none =>
    rw [huser] at hcell
    rw [hcell] at hkept hvalid
    unfold keptString at hkept
    split at hkept
    · next hhex =>
      rw [hhex.1] at hvalid
      cases hvalid
    · exact hkept rfl

omit [Fintype σ] in
theorem setStringValue_rests (h : Rests T cells x) (hs : s ∈ x.memo.valid) (htext : (T.type s).isText = true)
    (hfinished : isUnfinished (T.type s) (x.user s) = false)
    (hset : (setStringValue T s (x.memo.cells s).val x).1 = true) :
    Rests T cells (setStringValue T s (x.memo.cells s).val x).2 := by
  obtain ⟨S, rfl, hagrees⟩ := h
  have hcell : x.memo.cells s = S.cells s := hagrees s hs (Finset.notMem_empty s)
  have hvalid : stringValid (T.type s) (S.cells s).val = true := by
    rw [← hcell, ← setStringValue_accepts htext, hset]
  rw [hcell] at hset ⊢
  rcases Session.setStringValue_cases htext (S.cells s).val x with hx | ⟨hval, -, hx⟩ | hx <;> rw [hx] at hset ⊢
  · cases hset
  · exact ⟨S.keepText rfl rfl htext, rfl, hagrees⟩
  · rcases kept_or_hidden S htext hfinished hvalid with hkept | hhidden
    · exact ⟨S.keepText rfl (congrArg some hkept) htext, rfl, fun i hi => absurd hi (Finset.notMem_empty i)⟩
    · refine ⟨S.hidden fun s' hs' => Function.update_of_ne ?_ _ _, rfl, fun i hi => absurd hi (Finset.notMem_empty i)⟩
      rintro rfl
      exact hs' hhidden

end Rests

section Question
variable {T : Table σ} {mode : InputMode} {validStdin : Bool} {d d' : Dialogue σ} {s : σ}

omit [DecidableEq σ] [Fintype σ] in
/-- What is not asked for is set to what it is. -/
theorem askUntil_kept {accept : Str → Session σ → Option (Session σ)}
    (hwaits : waits mode s d.session = false) (h : askUntil mode validStdin s accept d = some d') :
    accept ['\n'] d.session = some d'.session := by
  have hask : askValue mode validStdin s d = some (['\n'], d.input) := by
    unfold askValue
    rw [hwaits]
    rfl
  rw [askUntil, hask] at h
  dsimp only at h
  split at h
  · next x hx => cases h; exact hx
  · rw [if_neg (lt_irrefl _)] at h; cases h

omit [DecidableEq σ] [Fintype σ] in
theorem waits_finished (hmode : mode ≠ .askAll) {type : SymbolType} {x : Session σ}
    (h : isUnfinished type (x.user s) = false) : waits mode s x = false := by
  have hnew := (Bool.or_eq_false_iff.mp h).1
  cases mode with
  | askAll => exact absurd rfl hmode
  | askNew | askSilent | setDefault => simp [waits, hnew]

theorem confSym_finishes (hmode : mode ≠ .askAll) (hs : s ∈ d.session.memo.valid) (htext : (T.type s).isText = false)
    (h : confSym T mode validStdin s d = some d') :
    unfinished T d'.session.user = (unfinished T d.session.user).erase s ∧
      ∀ cells, s ∉ unfinished T d.session.user → Rests T cells d.session → Rests T cells d'.session := by
  refine ⟨?_, fun cells hfinished hrests => ?_⟩
  · obtain ⟨line, x, -, haccept, -, rfl, -⟩ := askUntil_accepted mode validStdin h
    unfold acceptTristate at haccept
    split at haccept
    · cases haccept
    · dsimp only at haccept
      split at haccept
      · next hset => rw [← Option.some.inj haccept]; exact setTristateValue_finishes htext hset
      · cases haccept
  · rw [mem_unfinished, Bool.not_eq_true] at hfinished
    have haccept := askUntil_kept (waits_finished hmode hfinished) h
    change (if (setTristateValue T s (d.session.memo.cells s).tri d.session).1 = true then
      some (setTristateValue T s (d.session.memo.cells s).tri d.session).2 else none) = _ at haccept
    split at haccept
    · rw [← Option.some.inj haccept]
      exact setTristateValue_rests hrests hs htext
    · cases haccept

theorem confString_finishes (hmode : mode ≠ .askAll) (hs : s ∈ d.session.memo.valid) (htext : (T.type s).isText = true)
    (h : confString T mode validStdin s d = some d') :
    unfinished T d'.session.user = (unfinished T d.session.user).erase s ∧
      ∀ cells, s ∉ unfinished T d.session.user → Rests T cells d.session → Rests T cells d'.session := by
  refine ⟨?_, fun cells hfinished hrests => ?_⟩
  · obtain ⟨line, x, -, haccept, -, rfl, -⟩ := askUntil_accepted mode validStdin h
    unfold acceptString at haccept
    split at haccept
    · cases haccept
    · dsimp only at haccept
      split at haccept
      · next hset => rw [← Option.some.inj haccept]; exact setStringValue_finishes htext hset
      · cases haccept
  · rw [mem_unfinished, Bool.not_eq_true] at hfinished
    have haccept := askUntil_kept (waits_finished hmode hfinished) h
    change (if (setStringValue T s ((d.session.memo.cells s).string (T.type s)) d.session).1 = true then
      some (setStringValue T s ((d.session.memo.cells s).string (T.type s)) d.session).2 else none) = _ at haccept
    rw [string_text htext] at haccept
    split at haccept
    · next hset =>
      rw [← Option.some.inj haccept]
      exact setStringValue_rests hrests hs htext hfinished hset
    · cases haccept

end Question

section Forward
variable (T : Table σ)

/-- Nothing that was finished is unfinished again. Where nothing is finished either, the
solution stays, and `R` says what that means for `conf_cnt` and for what is unfinished. -/
structure Steps (R : (σ → Cell) → Finset σ → Nat → Nat → Prop) (d d' : Dialogue σ) : Prop where
  subset : unfinished T d'.session.user ⊆ unfinished T d.session.user
  rests : unfinished T d'.session.user = unfinished T d.session.user → ∀ cells, Rests T cells d.session →
    Rests T cells d'.session ∧ R cells (unfinished T d.session.user) d.count d'.count

structure Forward (f : Dialogue σ → Option (Dialogue σ)) (R : (σ → Cell) → Finset σ → Nat → Nat → Prop) : Prop where
  proper : Proper T f
  steps (d d' : Dialogue σ) : d.Sound T → f d = some d' → Steps T R d d'

/-- The same, of an entry whose symbol has been calculated. -/
structure ForwardOwn (m : Entry σ) (f : Dialogue σ → Option (Dialogue σ))
    (R : (σ → Cell) → Finset σ → Nat → Nat → Prop) : Prop where
  proper : ProperOwn T m f
  steps (d d' : Dialogue σ) : d.Sound T → (∀ s ∈ m.sym, s ∈ d.session.memo.valid) → f d = some d' → Steps T R d d'

/-- The entries that are visible are finished, but for those in a menu further down. -/
def Finished (cells : σ → Cell) (left : Finset σ) : Menus σ → Prop
  | .nil => True
  | .cons m list next =>
    ((isVisible T m (anyVisible T list)).value cells = true → m.menu = false →
      (∀ s ∈ m.sym, s ∉ left) ∧ Finished cells left list) ∧ Finished cells left next

variable {T} {R R' : (σ → Cell) → Finset σ → Nat → Nat → Prop} {f g : Dialogue σ → Option (Dialogue σ)} {m : Entry σ}

theorem Steps.mono {d d' : Dialogue σ} (h : Steps T R d d') (hR : ∀ c left n n', R c left n n' → R' c left n n') :
    Steps T R' d d' :=
  ⟨h.subset, fun heq cells hcells => (h.rests heq cells hcells).imp_right (hR _ _ _ _)⟩

theorem Steps.trans {d d₁ d₂ : Dialogue σ} (h : Steps T R d d₁) (h' : Steps T R' d₁ d₂) :
    Steps T (fun c left n n' => ∃ n₁, R c left n n₁ ∧ R' c left n₁ n') d d₂ := by
  refine ⟨h'.subset.trans h.subset, fun heq cells hcells => ?_⟩
  have heq₁ : unfinished T d₁.session.user = unfinished T d.session.user :=
    h.subset.antisymm (heq.symm.subset.trans h'.subset)
  obtain ⟨hcells₁, hR⟩ := h.rests heq₁ cells hcells
  obtain ⟨hcells₂, hR'⟩ := h'.rests (heq.trans heq₁.symm) cells hcells₁
  exact ⟨hcells₂, _, hR, heq₁ ▸ hR'⟩

theorem Forward.mono (h : Forward T f R) (hR : ∀ c left n n', R c left n n' → R' c left n n') : Forward T f R' :=
  ⟨h.proper, fun d d' hd hf => (h.steps d d' hd hf).mono hR⟩

theorem Forward.own (h : Forward T f R) (m : Entry σ) : ForwardOwn T m f R :=
  ⟨fun d d' hd _ hf => h.proper d d' hd hf, fun d d' hd _ hf => h.steps d d' hd hf⟩

theorem some_forward (hR : ∀ c left n, R c left n n) : Forward T some R :=
  ⟨some_proper, fun d d' _ h => by
    cases h
    exact ⟨subset_rfl, fun _ cells hcells => ⟨hcells, hR _ _ _⟩⟩⟩

theorem bind_forward (hf : Forward T f R) (hg : Forward T g R') :
    Forward T (fun d => (f d).bind g) fun c left n n' => ∃ n₁, R c left n n₁ ∧ R' c left n₁ n' := by
  refine ⟨bind_proper hf.proper hg.proper, fun d d' hd h => ?_⟩
  obtain ⟨d₁, hd₁, hrest⟩ := Option.bind_eq_some_iff.mp h
  exact (hf.steps d d₁ hd hd₁).trans (hg.steps d₁ d' (hf.proper d d₁ hd hd₁).1 hrest)

theorem visit_forward (hwf : WellFounded T.Before) (hchoice : m.choice = false) (list : Menus σ)
    {own below : Dialogue σ → Option (Dialogue σ)} (hown : ForwardOwn T m own R) (hbelow : Forward T below R') :
    Forward T (visit T m list own below) fun c left n n' =>
      if (isVisible T m (anyVisible T list)).value c then ∃ n₁, R c left n n₁ ∧ R' c left n₁ n' else n' = n := by
  refine ⟨visit_proper hwf hown.proper hbelow.proper, fun d d' hd h => ?_⟩
  have hsound := ask_sound hwf hd (isVisible T m (anyVisible T list))
  have hask : Steps T (fun c _ n n' => n' = n ∧ (d.session.ask T (isVisible T m (anyVisible T list))).1 =
      (isVisible T m (anyVisible T list)).value c) d
      {d with session := (d.session.ask T (isVisible T m (anyVisible T list))).2} := by
    refine ⟨subset_rfl, fun _ cells hcells => ?_⟩
    obtain ⟨S, rfl, hst⟩ := hcells
    obtain ⟨hvalue, hkeeps⟩ := ask_keeps hwf (S := S) ⟨rfl, hst⟩ (isVisible T m (anyVisible T list))
    exact ⟨⟨S, rfl, hkeeps.agrees⟩, rfl, hvalue⟩
  unfold visit at h
  dsimp only at h
  split at h
  · next hseen =>
    obtain ⟨S, hst⟩ := hd.coherent
    obtain ⟨d₁, hd₁, hrest⟩ := Option.bind_eq_some_iff.mp h
    have hvalid := fun s hs => isVisible_valid (S := S) (s := s) hwf ⟨rfl, hst⟩ hs hseen
    have hstop : stopsAt m d₁.session = false := by
      unfold stopsAt
      split
      · rfl
      · rw [hchoice]; rfl
    rw [hstop, if_neg Bool.false_ne_true] at hrest
    have hsteps := (hask.trans (hown.steps _ d₁ hsound hvalid hd₁)).trans
      (hbelow.steps d₁ d' (hown.proper _ d₁ hsound hvalid hd₁).1 hrest)
    refine hsteps.mono ?_
    rintro c left n n' ⟨n₂, ⟨n₁, ⟨rfl, hvalue⟩, hR⟩, hR'⟩
    rw [if_pos (hvalue.symm.trans hseen)]
    exact ⟨n₂, hR, hR'⟩
  · next hseen =>
    cases h
    refine hask.mono ?_
    rintro c left n n' ⟨rfl, hvalue⟩
    rw [if_neg fun h => hseen (hvalue.trans h)]

variable {mode : InputMode} {validStdin : Bool} {choose : Entry σ → Dialogue σ → Option (Dialogue σ)}

theorem finishes_steps {d d' : Dialogue σ} {s : σ}
    (h : unfinished T d'.session.user = (unfinished T d.session.user).erase s ∧
      ∀ cells, s ∉ unfinished T d.session.user → Rests T cells d.session → Rests T cells d'.session) :
    Steps T (fun _ left _ _ => s ∉ left) d d' := by
  obtain ⟨herase, hrests⟩ := h
  refine ⟨herase ▸ Finset.erase_subset _ _, fun heq cells hcells => ?_⟩
  have hs : s ∉ unfinished T d.session.user := Finset.erase_eq_self.mp (herase.symm.trans heq)
  exact ⟨hrests cells hs hcells, hs⟩

theorem confEntry_forward (hmode : mode ≠ .askAll) (hwf : WellFounded T.Before) (hchoice : m.choice = false) :
    ForwardOwn T m (confEntry T mode validStdin choose m) fun _ left _ _ => ∀ s ∈ m.sym, s ∉ left := by
  refine ⟨confEntry_proper hwf fun h => absurd (hchoice.symm.trans h) Bool.false_ne_true, fun d d' hd hvalid h => ?_⟩
  unfold confEntry at h
  split at h
  · next hsym =>
    cases h
    exact ⟨subset_rfl, fun _ cells hcells => ⟨hcells, fun s hs => by rw [hsym] at hs; cases hs⟩⟩
  · next s hsym =>
    rw [hchoice, if_neg Bool.false_ne_true] at h
    have hsteps : Steps T (fun _ left _ _ => s ∉ left) d d' := by
      split at h
      · next htext => exact finishes_steps (confString_finishes hmode (hvalid s hsym) htext h)
      · next htext => exact finishes_steps (confSym_finishes hmode (hvalid s hsym) (eq_false_of_ne_true htext) h)
    refine hsteps.mono fun _ left _ _ hs s' hs' => ?_
    rw [hsym] at hs'
    cases hs'
    exact hs

/-- A symbol that is asked for is new, so it cannot be left as it is. -/
theorem askEntry_forward {K : (σ → Cell) → Prop} {root : Dialogue σ → Option (Dialogue σ)}
    (hroot : Forward T root fun c left _ _ => K c → ∀ s ∈ m.sym, s ∉ left) :
    ForwardOwn T m (askEntry root m) fun c _ n n' => K c → n' = n := by
  refine ⟨askEntry_proper m hroot.proper, fun d d' hd hvalid h => ?_⟩
  have hnothing : Steps T (fun c _ n n' => K c → n' = n) d d :=
    ⟨subset_rfl, fun _ cells hcells => ⟨hcells, fun _ => rfl⟩⟩
  unfold askEntry at h
  split at h
  · cases h; exact hnothing
  · next s hsym =>
    split at h
    · next hasked =>
      have hnew : s ∈ unfinished T d.session.user := by
        rw [toBeAsked, Bool.and_eq_true] at hasked
        exact new_unfinished hasked.2
      have hsteps := hroot.steps {d with count := d.count + 1} d' ⟨hd.coherent, hd.unkept⟩ h
      refine ⟨hsteps.subset, fun heq cells hcells => ?_⟩
      obtain ⟨hcells', hfinished⟩ := hsteps.rests heq cells hcells
      exact ⟨hcells', fun hK => absurd hnew (hfinished hK s hsym)⟩
    · cases h; exact hnothing

variable (T) in
/-- The entry and those below it are finished, if it is visible. -/
def EntryFinished (cells : σ → Cell) (left : Finset σ) (m : Entry σ) (list : Menus σ) : Prop :=
  (isVisible T m (anyVisible T list)).value cells = true → (∀ s ∈ m.sym, s ∉ left) ∧ Finished T cells left list

theorem confVisit_forward (hmode : mode ≠ .askAll) (hwf : WellFounded T.Before) (hchoice : m.choice = false)
    {list : Menus σ}
    (hlist : Forward T (conf T mode validStdin choose list) fun c left _ _ => Finished T c left list) :
    Forward T (visit T m list (confEntry T mode validStdin choose m) (conf T mode validStdin choose list))
      fun c left _ _ => EntryFinished T c left m list := by
  refine (visit_forward hwf hchoice list (confEntry_forward hmode hwf hchoice) hlist).mono fun c left n n' h hseen => ?_
  rw [if_pos hseen] at h
  obtain ⟨-, hsym, hbelow⟩ := h
  exact ⟨hsym, hbelow⟩

/-- `K` is what is known of the values where the entry is come to. Below it, it is visible too. -/
theorem checkVisit_forward (hwf : WellFounded T.Before) (hchoice : m.choice = false) {list : Menus σ}
    (hlist : ∀ (K : (σ → Cell) → Prop) (root : Dialogue σ → Option (Dialogue σ)),
      Forward T root (fun c left _ _ => K c → Finished T c left list) →
        Forward T (checkConf T mode validStdin choose root list) fun c _ n n' => K c → n' = n)
    {K : (σ → Cell) → Prop} {root : Dialogue σ → Option (Dialogue σ)}
    (hroot : Forward T root fun c left _ _ => K c → EntryFinished T c left m list) :
    Forward T (visit T m list (askEntry root m) (checkConf T mode validStdin choose root list))
      fun c _ n n' => K c → n' = n := by
  let Come (c : σ → Cell) : Prop := K c ∧ (isVisible T m (anyVisible T list)).value c = true
  have hask := askEntry_forward (K := Come) (m := m) (hroot.mono fun c left n n' h hK => (h hK.1 hK.2).1)
  have hbelow := hlist Come root (hroot.mono fun c left n n' h hK => (h hK.1 hK.2).2)
  refine (visit_forward hwf hchoice list hask hbelow).mono fun c left n n' h hK => ?_
  split at h
  · next hseen =>
    obtain ⟨n₁, h₁, h₂⟩ := h
    exact (h₂ ⟨hK, hseen⟩).trans (h₁ ⟨hK, hseen⟩)
  · exact h

/-- What `conf` comes to it finishes. What `check_conf` asks for is finished by `root`, if
`root` finishes all that `check_conf` comes to. -/
theorem conf_forward (hmode : mode ≠ .askAll) (hwf : WellFounded T.Before) (ms : Menus σ)
    (hchoice : ∀ m ∈ ms.order, m.choice = false) :
    Forward T (conf T mode validStdin choose ms) (fun c left _ _ => Finished T c left ms) ∧
      ∀ (K : (σ → Cell) → Prop) (root : Dialogue σ → Option (Dialogue σ)),
        Forward T root (fun c left _ _ => K c → Finished T c left ms) →
          Forward T (checkConf T mode validStdin choose root ms) fun c _ n n' => K c → n' = n := by
  induction ms with
  | nil => exact ⟨some_forward fun _ _ _ => trivial, fun _ _ _ => some_forward fun _ _ _ _ => rfl⟩
  | cons m list next ihlist ihnext =>
    rw [Menus.order, List.forall_mem_cons, List.forall_mem_append] at hchoice
    obtain ⟨hm, hlist, hnext⟩ := hchoice
    obtain ⟨ihconf, ihcheck⟩ := ihlist hlist
    obtain ⟨ihconf', ihcheck'⟩ := ihnext hnext
    have hown := confVisit_forward hmode hwf hm ihconf
    refine ⟨?_, fun K root hroot => ?_⟩
    · refine (bind_forward (f := fun d => if m.menu ∧ mode = .askSilent then _ else _)
        (R := fun c left _ _ => m.menu = false → EntryFinished T c left m list) ?_ ihconf').mono ?_
      · by_cases hmenu : m.menu = true ∧ mode = .askSilent
        · -- A menu within the one that is asked for is left to `check_conf`.
          simp only [if_pos hmenu]
          have hcheck := checkVisit_forward (K := fun _ => True) hwf hm ihcheck (hown.mono fun _ _ _ _ h _ => h)
          have hnothing := some_forward (T := T) (R := fun _ _ _ _ => True) fun _ _ _ => trivial
          refine (visit_forward hwf hm list (hcheck.own m) hnothing).mono ?_
          intro _ _ _ _ _ hno
          exact absurd (hno.symm.trans hmenu.1) Bool.false_ne_true
        · simp only [if_neg hmenu]
          exact hown.mono fun _ _ _ _ h _ => h
      · rintro c left n n' ⟨-, hm', hnext'⟩
        exact ⟨fun hseen hmenu => hm' hmenu hseen, hnext'⟩
    · have hused : Forward T (if m.menu = true then visit T m list (confEntry T mode validStdin choose m)
          (conf T mode validStdin choose list) else root)
          fun c left _ _ => K c → EntryFinished T c left m list := by
        split
        · exact hown.mono fun _ _ _ _ h _ => h
        · next hmenu => exact hroot.mono fun _ _ _ _ h hK hseen => (h hK).1 hseen (eq_false_of_ne_true hmenu)
      have hbehind := ihcheck' K root (hroot.mono fun _ _ _ _ h hK => (h hK).2)
      refine (bind_forward (checkVisit_forward hwf hm ihcheck hused) hbehind).mono ?_
      rintro c left n n' ⟨n₁, h₁, h₂⟩ hK
      exact (h₂ hK).trans (h₁ hK)

end Forward

section Loop
variable {T : Table σ} {mode : InputMode} {validStdin : Bool} {choose : Entry σ → Dialogue σ → Option (Dialogue σ)}
  {ms : Menus σ}

/-- The loop of `main` ends, unless a round of it does not. -/
theorem checkLoop_ends (hmode : mode ≠ .askAll) (hwf : WellFounded T.Before)
    (hchoice : ∀ m ∈ ms.order, m.choice = false)
    (hround : ∀ d, d.Sound T → ∃ d', checkConf T mode validStdin choose some (.cons root ms .nil) d = some d')
    {rounds : Nat} {d : Dialogue σ} (hd : d.Sound T) (hrounds : (unfinished T d.session.user).card < rounds) :
    ∃ d', checkLoop T mode validStdin choose ms rounds d = some d' := by
  -- The root is a menu, so there is nothing above it to be finished.
  have hforward : Forward T (checkConf T mode validStdin choose some (.cons root ms .nil))
      fun _ _ n n' => True → n' = n :=
    (conf_forward hmode hwf _ (forall_root (P := fun m => m.choice = false) rfl hchoice)).2 (fun _ => True) some
      (some_forward fun _ _ _ _ => ⟨fun _ h => Bool.noConfusion h, trivial⟩)
  induction rounds generalizing d with
  | zero => exact absurd hrounds (Nat.not_lt_zero _)
  | succ rounds ih =>
    have hstart : Dialogue.Sound T {d with count := 0} := ⟨hd.coherent, hd.unkept⟩
    obtain ⟨d₁, hd₁⟩ := hround _ hstart
    have hsteps := hforward.steps _ d₁ hstart hd₁
    rw [checkLoop, hd₁, Option.bind_some]
    split
    · exact ⟨d₁, rfl⟩
    · next hcount =>
      refine ih (hforward.proper _ d₁ hstart hd₁).1 ?_
      have hless : unfinished T d₁.session.user ⊂ unfinished T d.session.user := by
        refine hsteps.subset.ssubset_of_ne fun heq => hcount ?_
        obtain ⟨S, hst⟩ := hd.coherent
        exact (hsteps.rests heq S.cells ⟨S, rfl, hst⟩).2 trivial
      have hcard := Finset.card_lt_card hless
      omega

theorem checkLoop_mono {rounds rounds' : Nat} (h : rounds ≤ rounds') {d d' : Dialogue σ}
    (hd : checkLoop T mode validStdin choose ms rounds d = some d') :
    checkLoop T mode validStdin choose ms rounds' d = some d' := by
  induction rounds generalizing rounds' d with
  | zero => cases hd
  | succ rounds ih =>
    obtain ⟨rounds', rfl⟩ := Nat.exists_eq_succ_of_ne_zero (Nat.ne_of_gt ((Nat.succ_pos rounds).trans_le h))
    obtain ⟨d₁, hd₁, hrest⟩ := Option.bind_eq_some_iff.mp hd
    rw [checkLoop, hd₁, Option.bind_some]
    split at hrest
    · next hcount => rw [if_pos hcount]; exact hrest
    · next hcount => rw [if_neg hcount]; exact ih (Nat.le_of_succ_le_succ h) hrest

end Loop

section Ends
variable {T : Table σ} {mode : InputMode} {validStdin : Bool} {choose : Entry σ → Dialogue σ → Option (Dialogue σ)}
  {ms : Menus σ}

variable (T) in
def Ends (f : Dialogue σ → Option (Dialogue σ)) : Prop := Proper T f ∧ ∀ d, d.Sound T → ∃ d', f d = some d'

variable (T) in
def EndsOwn (m : Entry σ) (f : Dialogue σ → Option (Dialogue σ)) : Prop :=
  ProperOwn T m f ∧ ∀ d, d.Sound T → (∀ s ∈ m.sym, s ∈ d.session.memo.valid) → ∃ d', f d = some d'

theorem visit_ends (hwf : WellFounded T.Before) {m : Entry σ} (list : Menus σ)
    {own below : Dialogue σ → Option (Dialogue σ)} (hown : EndsOwn T m own) (hbelow : Ends T below) :
    Ends T (visit T m list own below) := by
  refine ⟨visit_proper hwf hown.1 hbelow.1, fun d hd => ?_⟩
  obtain ⟨S, hst⟩ := hd.coherent
  have hsound := ask_sound hwf hd (isVisible T m (anyVisible T list))
  unfold visit
  dsimp only
  split
  · next hseen =>
    have hvalid := fun s hs => isVisible_valid (S := S) (s := s) hwf ⟨rfl, hst⟩ hs hseen
    obtain ⟨d₁, hd₁⟩ := hown.2 _ hsound hvalid
    rw [hd₁, Option.bind_some]
    split
    · exact ⟨d₁, rfl⟩
    · exact hbelow.2 d₁ (hown.1 _ d₁ hsound hvalid hd₁).1
  · exact ⟨_, rfl⟩

omit [Fintype σ] in
theorem askEntry_ends {root : Dialogue σ → Option (Dialogue σ)} (m : Entry σ) (hroot : Ends T root) :
    EndsOwn T m (askEntry root m) := by
  refine ⟨askEntry_proper m hroot.1, fun d hd _ => ?_⟩
  unfold askEntry
  split
  · exact ⟨d, rfl⟩
  · split
    · exact hroot.2 _ ⟨hd.coherent, hd.unkept⟩
    · exact ⟨d, rfl⟩

theorem closed_ends (hwf : WellFounded T.Before) : Closed T (Ends T) (EndsOwn T) where
  none := ⟨some_proper, fun d _ => ⟨d, rfl⟩⟩
  bind := by
    intro f g hf hg
    refine ⟨bind_proper hf.1 hg.1, fun d hd => ?_⟩
    obtain ⟨d₁, hd₁⟩ := hf.2 d hd
    show ∃ d', (f d).bind g = some d'
    rw [hd₁, Option.bind_some]
    exact hg.2 d₁ (hf.1 d d₁ hd hd₁).1
  visit list _ _ hown hbelow := visit_ends hwf list hown hbelow
  ask m hroot := askEntry_ends m hroot
  own _ hf := ⟨fun d d' hd _ h => hf.1 d d' hd h, fun d hd _ => hf.2 d hd⟩

omit [Fintype σ] in
/-- Every text is one that a string can be. -/
theorem confEntry_ends (hwf : WellFounded T.Before) (hstdin : aborts mode validStdin = false)
    (hstring : ∀ s, (T.type s).isText = true → T.type s = .string) {m : Entry σ} (hchoice : m.choice = false) :
    EndsOwn T m (confEntry T mode validStdin choose m) := by
  refine ⟨confEntry_proper hwf fun h => absurd (hchoice.symm.trans h) Bool.false_ne_true, fun d hd _ => ?_⟩
  unfold confEntry
  split
  · exact ⟨d, rfl⟩
  · next s _ =>
    rw [hchoice, if_neg Bool.false_ne_true]
    split
    · next htext =>
      have hvalid : ∀ newval, stringValid (T.type s) newval = true := by
        intro newval
        rw [hstring s htext]
        rfl
      refine Option.ne_none_iff_exists'.mp fun hnone => ?_
      rw [confString_eq_none_iff htext, hstdin, hvalid] at hnone
      rcases hnone with ⟨-, h⟩ | ⟨h, -⟩ <;> cases h
    · refine Option.ne_none_iff_exists'.mp fun hnone => ?_
      rw [confSym_eq_none_iff, hstdin] at hnone
      cases hnone.2

/-- A run comes to its end, if one with `-s` is on a terminal, with a configuration that no
bound on the rounds has a part in. No answer may be a text that a symbol has kept from the file
without having it. -/
theorem configure_ends (hwf : WellFounded T.Before) (hchoice : ∀ m ∈ ms.order, m.choice = false)
    (hstring : ∀ s, (T.type s).isText = true → T.type s = .string) (hstdin : mode = .askSilent → validStdin = true)
    {stale : σ → Cell} {text stdin : Str} {x : Session σ} (hread : confRead T stale text = some x)
    (hkept : ∀ s, (T.type s).isText = true → (x.user s).isNew = true →
      ∀ line ∈ Lines.lines answerRoom stdin, (x.user s).val ≠ some line.dropLast) :
    ∃ out, ∀ rounds, Fintype.card σ < rounds →
      configure T mode validStdin choose ms rounds stale text stdin = some out := by
  have hends : ∀ mode validStdin, aborts mode validStdin = false →
      Ends T (conf T mode validStdin choose (.cons root ms .nil)) ∧
        ∀ f, Ends T f → Ends T (checkConf T mode validStdin choose f (.cons root ms .nil)) :=
    fun mode validStdin haborts => conf_closed (closed_ends hwf) _ fun m hm =>
      confEntry_ends hwf haborts hstring (forall_root (P := fun m => m.choice = false) rfl hchoice m hm)
  have hstart : Dialogue.Sound T ⟨0, Lines.lines answerRoom stdin, x⟩ := ⟨confRead_coherent hwf hread, hkept⟩
  obtain ⟨d, hd, hsound⟩ : ∃ d, askFirst T mode validStdin choose ms ⟨0, Lines.lines answerRoom stdin, x⟩ = some d ∧
      d.Sound T := by
    unfold askFirst
    split
    · next hmode =>
      obtain ⟨hproper, hfirst⟩ := (hends mode validStdin (by simp [aborts, hmode])).1
      obtain ⟨d, hd⟩ := hfirst _ hstart
      exact ⟨d, hd, (hproper _ d hstart hd).1⟩
    · exact ⟨_, rfl, hstart⟩
  have hmode : mode.thenMode ≠ .askAll := by cases mode <;> decide
  have haborts : aborts mode.thenMode (validStdin || decide (mode = .askAll)) = false := by
    cases mode with
    | askSilent => simp [aborts, hstdin rfl]
    | askAll | askNew | setDefault => simp [aborts, InputMode.thenMode]
  have hround := ((hends mode.thenMode _ haborts).2 some (closed_ends hwf).none).2
  have hcard : (unfinished T d.session.user).card ≤ Fintype.card σ := Finset.card_le_univ _
  obtain ⟨d', hd'⟩ := checkLoop_ends hmode hwf hchoice hround hsound (Nat.lt_succ_of_le hcard)
  refine ⟨(confWrite T ms d'.session).1, fun rounds hrounds => ?_⟩
  exact Option.bind_eq_some_iff.mpr ⟨x, hread, Option.bind_eq_some_iff.mpr ⟨d, hd, Option.bind_eq_some_iff.mpr
    ⟨d', checkLoop_mono hrounds hd', rfl⟩⟩⟩

end Ends

section Example

theorem pdu_configure_ends : ∃ out, ∀ rounds, Fintype.card Pdu < rounds →
    configure pdu .askAll false noChoice pduMenus rounds (fun _ => default) [] pduAnswers = some out := by
  obtain ⟨x, hread⟩ := Option.isSome_iff_exists.mp
    (show (confRead pdu (fun _ => default) []).isSome = true by decide +kernel)
  have hstring : ∀ s, (pdu.type s).isText = true → pdu.type s = .string := by
    intro s
    cases s <;> decide
  refine configure_ends pdu_wellFounded (by decide) hstring (fun hmode => by cases hmode) hread fun s _ _ line _ => ?_
  rw [pdu_unkept x hread s]
  exact (Option.some_ne_none _).symm

end Example

end Idic.Kconfig
