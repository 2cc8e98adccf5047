import Idic.Kconfig.ConfFile

/-! A configuration file that anyone may have written.

`conf_read` goes on from the values of the symbols without calculating them again after it
has put some of them back to new. What it has calculated is right all the same
(`confRead_coherent`): a text that it takes over is valid, so that only symbols are put
back that cannot be seen, and these do not depend on the user. -/
namespace Idic.Kconfig
open Python (Str)

variable {σ : Type} [DecidableEq σ] {T : Table σ}

variable (T) in
/-- A text that the user has set is one that the symbol may have. -/
def TextsValid (user : σ → User) : Prop :=
  ∀ s, (T.type s).isText = true → (user s).isNew = false →
    stringValid (T.type s) ((user s).val.getD []) = true

theorem TextsValid.update {user : σ → User} (h : TextsValid T user) {s : σ} {u : User}
    (hu : (T.type s).isText = true → u.isNew = false → stringValid (T.type s) (u.val.getD []) = true) :
    TextsValid T (Function.update user s u) := by
  intro s' htext hnew
  by_cases hs : s' = s
  · subst hs
    rw [Function.update_self] at hnew ⊢
    exact hu htext hnew
  · rw [Function.update_of_ne hs] at hnew ⊢
    exact h s' htext hnew

omit [DecidableEq σ] in
theorem unset_textsValid : TextsValid T fun _ => ⟨true, .no, none⟩ := fun _ _ hnew => by cases hnew

/-- The program exits when a text is not valid. -/
theorem assign_valid {type : SymbolType} {user user' : User} {p : Str} (h : assign type user p = some user')
    (huser : user.isNew = false → stringValid type (user.val.getD []) = true) (htext : type.isText = true)
    (hnew : user'.isNew = false) : stringValid type (user'.val.getD []) = true := by
  cases type with
  | boolean | tristate | unknown | other => cases htext
  | string => rfl
  | int | hex =>
    simp only [assign] at h
    split at h
    · next hvalid => cases h; exact hvalid
    · cases h

theorem readLine_valid {user user' : σ → User} {line : Str} (h : TextsValid T user)
    (hread : readLine T user line = some user') : TextsValid T user' := by
  unfold readLine at hread
  split at hread
  · split at hread
    · next s hs =>
      split at hread
      · next htype =>
        cases hread
        refine h.update fun htext => ?_
        rcases htype with htype | htype <;> rw [htype] at htext <;> cases htext
      · cases hread; exact h
    · cases hread; exact h
  · split at hread
    · split at hread
      · cases hread; exact h
      · split at hread
        · next s hs =>
          obtain ⟨u, hassign, rfl⟩ := Option.map_eq_some_iff.mp hread
          exact h.update fun htext => assign_valid hassign (h s htext) htext
        · cases hread; exact h
    · cases hread; exact h
  · cases hread; exact h

theorem readLines_valid {lines : List Str} {user user' : σ → User} (h : TextsValid T user)
    (hread : lines.foldlM (readLine T) user = some user') : TextsValid T user' := by
  induction lines generalizing user with
  | nil => cases hread; exact h
  | cons line lines ih =>
    obtain ⟨user₁, hline, hlines⟩ := Option.bind_eq_some_iff.mp hread
    exact ih (readLine_valid h hline) hlines

omit [DecidableEq σ] in
/-- The user has no part in a symbol that cannot be seen. -/
theorem value_second_hidden {user user' : σ → User} (sol : σ → Cell) {s : σ} {c : Cell} (h : c.visible = .no) :
    (T.second user' s c).value sol = (T.second user s c).value sol := by
  by_cases htype : T.getType s = .boolean ∨ T.getType s = .tristate
  · rw [value_second_tri sol htype, value_second_tri sol htype]
    congr 1
    by_cases hseen : Op.or.apply c.visible c.revDep ≠ .no
    · have hno : ∀ tri, limit T s c tri = T.promoted s c.revDep := by
        intro tri
        rw [limit, h]
        cases tri <;> cases c.revDep <;> rfl
      rw [calcTri_seen sol hseen, calcTri_seen sol hseen, hno, hno]
    · rw [Table.calcTri, Table.calcTri, if_neg hseen, if_neg hseen]
  · unfold Table.second
    split <;> simp_all

/-- What the user sets of a symbol that cannot be seen has no part in the solution. -/
def Solution.hidden {user user' : σ → User} (S : Solution T user)
    (h : ∀ s, (S.cells s).visible ≠ .no → user' s = user s) : Solution T user' where
  cells := S.cells
  solves s := by
    refine (S.cells_eq s).trans ?_
    symm
    show (T.second user' s ((T.first s).value S.cells)).value S.cells =
      (T.second user s ((T.first s).value S.cells)).value S.cells
    by_cases hvisible : (S.cells s).visible = .no
    · exact value_second_hidden S.cells (S.first_visible.trans hvisible)
    · rw [second_congr (h s hvisible)]

section Settle
variable [Fintype σ] {user : σ → User}

/-- Only a symbol that cannot be seen is put back to new. -/
theorem settle_seen (hwf : WellFounded T.Before) {x : Session σ} (S : Solution T x.user)
    (hst : Memo.Agrees S.cells ∅ x.memo) (s : σ)
    (hvalid : (S.cells s).visible ≠ .no → (T.type s).isText = true → (x.user s).isNew = false →
      stringValid (T.type s) ((x.user s).val.getD []) = true) :
    (∀ s', (S.cells s').visible ≠ .no → (settle T x s).user s' = x.user s') ∧
      Memo.Agrees S.cells ∅ (settle T x s).memo := by
  obtain ⟨hagrees, hcell⟩ := Memo.demand_solves S.solves hwf hst s
  unfold settle
  dsimp only
  split
  · next hback =>
    refine ⟨fun s' hs' => Function.update_of_ne ?_ _ _, hagrees⟩
    rintro rfl
    have hvisible : ((x.calculate T s').memo.cells s').visible = (S.cells s').visible := congrArg Cell.visible hcell
    obtain ⟨hold, hno | ⟨htext, hinvalid⟩⟩ := hback
    · exact hs' (hvisible.symm.trans hno)
    · have hold' : (x.user s').isNew = false := by simpa using hold
      have hinvalid' : stringValid (T.type s') ((x.user s').val.getD []) = false := by simpa using hinvalid
      rw [hvalid hs' htext hold'] at hinvalid'
      cases hinvalid'
  · exact ⟨fun _ _ => rfl, hagrees⟩

theorem settles_seen (hwf : WellFounded T.Before) (S : Solution T user)
    (hvalid : ∀ s, (S.cells s).visible ≠ .no → (T.type s).isText = true → (user s).isNew = false →
      stringValid (T.type s) ((user s).val.getD []) = true) (symbols : List σ) {x : Session σ}
    (hx : ∀ s, (S.cells s).visible ≠ .no → x.user s = user s) (hst : Memo.Agrees S.cells ∅ x.memo) :
    (∀ s, (S.cells s).visible ≠ .no → (symbols.foldl (settle T) x).user s = user s) ∧
      Memo.Agrees S.cells ∅ (symbols.foldl (settle T) x).memo := by
  induction symbols generalizing x with
  | nil => exact ⟨hx, hst⟩
  | cons s symbols ih =>
    have hvalid' : (S.cells s).visible ≠ .no → (T.type s).isText = true → (x.user s).isNew = false →
        stringValid (T.type s) ((x.user s).val.getD []) = true := by
      intro hs
      rw [hx s hs]
      exact hvalid s hs
    obtain ⟨hseen, hst'⟩ := settle_seen hwf (S.hidden hx) hst s hvalid'
    exact ih (fun s' hs' => (hseen s' hs').trans (hx s' hs')) hst'

/-- Whatever stands in the file, what has been calculated when it has been read is right. -/
theorem confRead_coherent (hwf : WellFounded T.Before) {stale : σ → Cell} {text : Str} {x : Session σ}
    (h : confRead T stale text = some x) : x.Coherent T := by
  obtain ⟨user, hread, rfl⟩ := Option.map_eq_some_iff.mp h
  obtain ⟨S⟩ := exists_solution (T := T) user hwf
  have hvalid := readLines_valid unset_textsValid hread
  have hfresh : Memo.Agrees S.cells ∅ ⟨∅, stale⟩ := fun i hi => absurd hi (Finset.notMem_empty i)
  obtain ⟨hseen, hst⟩ := settles_seen hwf S (fun s _ => hvalid s) T.symbols
    (x := ⟨user, ∅, stale⟩) (fun _ _ => rfl) hfresh
  exact ⟨S.hidden hseen, hst⟩

end Settle

end Idic.Kconfig
