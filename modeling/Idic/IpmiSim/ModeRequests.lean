import Idic.IpmiSim.Spot

/-! Mode requests, and the thread that resets fault mode.

`Log` watches one sensor: which requests were accepted, whose mode the sensor has,
and what the thread has read and evaluated. A thread in a fault iteration reads
the mode, then the fault level, then writes user mode. `requests_not_overwritten`
says that nothing is lost in a run in which no mode is written between that read
and that write, and no other level before it is evaluated. -/
namespace Idic.IpmiSim
open Python Threads

/-! ### Requests in order -/

def ModeRequest.level? : ModeRequest → Option Level
  | .fault l => some l
  | _ => none

/-- The level of the last fault request. -/
def lastLevel (rs : List ModeRequest) : Option Level := (rs.filterMap ModeRequest.level?).getLast?

theorem lastLevel_append (rs : List ModeRequest) (r : ModeRequest) :
    lastLevel (rs ++ [r]) = r.level?.or (lastLevel rs) := by
  unfold lastLevel
  rw [List.filterMap_append]
  cases h : r.level? with
  | none => simp [h]
  | some l => simp [h]

/-- A fault request has the last level, or a later one has. -/
theorem lastLevel_or_later {rs : List ModeRequest} {l l' : Level} {t : Nat} (hlast : lastLevel rs = some l')
    (ht : (rs[t]?).bind ModeRequest.level? = some l) :
    l' = l ∨ ∃ t' < rs.length, t < t' ∧ ((rs[t']?).bind ModeRequest.level?).isSome := by
  induction rs using List.reverseRecOn with
  | nil => cases hlast
  | append_singleton rs r ih =>
    rw [lastLevel_append] at hlast
    by_cases hlt : t < rs.length
    · rw [List.getElem?_append_left hlt] at ht
      cases hr : r.level? with
      | none =>
        rw [hr, Option.none_or] at hlast
        refine (ih hlast ht).imp id fun ⟨t', hlen, hlater, hfault⟩ => ?_
        have happend : (rs ++ [r])[t']? = rs[t']? := List.getElem?_append_left hlen
        rw [← happend] at hfault
        exact ⟨t', by simp; omega, hlater, hfault⟩
      | some l₁ =>
        refine .inr ⟨rs.length, by simp, hlt, ?_⟩
        simp [hr]
    · obtain rfl | hgt := Nat.eq_or_lt_of_not_lt hlt
      · simp only [List.getElem?_concat_length, Option.bind_some] at ht
        rw [ht, Option.some_or] at hlast
        exact .inl (Option.some.inj hlast).symm
      · rw [List.getElem?_eq_none (by simp; omega)] at ht
        cases ht

/-! ### The log -/

/-- The fault level a session is about to write. -/
def CommandPc.writesLevel? : CommandPc → Option Level
  | .writeLevel l => some l
  | _ => none

/-- The level of an accepted fault request that has yet to write its mode. -/
def CommandPc.pendingLevel? : CommandPc → Option Level
  | .readMode (.fault l) | .writeMode (.fault l) _ => some l
  | _ => none

theorem CommandPc.writes_faultLevel (pc : CommandPc) (obj : Sensor) :
    (pc.writes obj).faultLevel = pc.writesLevel?.or obj.faultLevel := by
  cases pc with
  | store x =>
    simp only [writes]
    split <;> rfl
  | _ => rfl

theorem ValueArg.call_pending (a : ValueArg) (s : Sensor) : (a.call s).pendingLevel? = none := by
  rcases a.call_eq s with h | ⟨x, -, h⟩ | ⟨text, -, h⟩ <;> rw [h] <;> rfl

/-- A pending request has just written its level, or was pending before. -/
theorem CommandPc.Next.pending {obj : Sensor} {pc pc' : CommandPc} (h : pc.Next obj pc') {l : Level}
    (hl : pc'.pendingLevel? = some l) : pc = .writeLevel l ∨ pc.pendingLevel? = some l := by
  cases h with
  | leveled l' =>
    cases hl
    exact .inl rfl
  | read r =>
    cases r with
    | fault l' => exact .inr hl
    | user | auto => cases hl
  | calls a =>
    rw [a.call_pending] at hl
    cases hl
  | _ => cases hl

/-- From its read of fault until it writes user mode. -/
def ThreadPc.serving : ThreadPc → Bool
  | .fault | .clear _ => true
  | _ => false

/-- What has happened to one sensor's mode. A request is accepted with its first
write, and is known by its place among the accepted ones; `ticket` is that of each
session's request. `holder` is the request whose mode the sensor has, if a
request wrote it. `evaluated` has each evaluated level with the number of requests
accepted before it. -/
structure Log (ι : Type) where
  accepted : List ModeRequest := []
  ticket : ι → Nat := fun _ => 0
  holder : Option Nat := none
  modeWrites : Nat := 0
  /-- `modeWrites` and the number of accepted requests at the thread's last read -/
  readWrites : Nat := 0
  readAccepted : Nat := 0
  evaluated : List (Level × Nat) := []

namespace Log
variable {ι : Type}

def accept (log : Log ι) (r : ModeRequest) : Log ι := {log with accepted := log.accepted ++ [r]}

/-- The mode is written by someone other than the thread. -/
def write (log : Log ι) (holder : Option Nat) : Log ι :=
  {log with holder := holder, modeWrites := log.modeWrites + 1}

/-- A session's action. -/
def session [DecidableEq ι] (log : Log ι) (i : ι) : CommandPc → Log ι
  | .writeLevel l =>
    {log.accept (.fault l) with ticket := Function.update log.ticket i log.accepted.length}
  | .writeMode (.fault _) _ => log.write (some (log.ticket i))
  | .writeMode r _ => (log.accept r).write (some log.accepted.length)
  | .writeUser _ => log.write none
  | _ => log

/-- The thread's action. -/
def thread (log : Log ι) (obj : Sensor) : ThreadPc → Log ι
  | .testAuto => {log with readWrites := log.modeWrites, readAccepted := log.accepted.length}
  | .fault => {log with evaluated := (obj.faultLevel.toList.map (·, log.accepted.length)) ++ log.evaluated}
  | .clear _ => {log with holder := none}
  | _ => log

def main (log : Log ι) : MainAt → Log ι
  | .at .setMode => log.write none
  | _ => log

def update {σ : Type} [DecidableEq σ] [DecidableEq ι] (s : σ) (e : Event σ ι) (w : World σ ι)
    (log : Log ι) : Log ι :=
  match e with
  | .thread s' .. => if s' = s then log.thread (w.shared s).obj (w.thread s) else log
  | .session i _ => log.session i (w.on s i)
  | .main => log.main (w.main.at s)
  | _ => log

/-- The level of an accepted request, if it is a fault request. -/
def fault? (log : Log ι) (t : Nat) : Option Level := (log.accepted[t]?).bind ModeRequest.level?

/-- The mode that is about to be reset was not written after the thread's read. -/
def NotOverwritten (log : Log ι) : Prop := log.modeWrites = log.readWrites

/-- If a fault request wrote that mode, its level was evaluated after it was
accepted, or a later fault request was accepted before the thread's read. -/
def Served (log : Log ι) : Prop :=
  ∀ t ∈ log.holder, ∀ l ∈ log.fault? t,
    (∃ x ∈ log.evaluated, x.1 = l ∧ t < x.2) ∨
      ∃ t' < log.readAccepted, t < t' ∧ (log.fault? t').isSome

/-! ### What a session's action does to the log -/

theorem session_accepted [DecidableEq ι] (log : Log ι) (i : ι) (pc : CommandPc) :
    ∃ suffix, (log.session i pc).accepted = log.accepted ++ suffix := by
  cases pc with
  | writeLevel l => exact ⟨[.fault l], rfl⟩
  | writeMode r preMode =>
    cases r with
    | fault l => exact ⟨[], (List.append_nil _).symm⟩
    | user => exact ⟨[.user], rfl⟩
    | auto => exact ⟨[.auto], rfl⟩
  | _ => exact ⟨[], (List.append_nil _).symm⟩

theorem session_lastLevel [DecidableEq ι] (log : Log ι) (i : ι) (pc : CommandPc) :
    lastLevel (log.session i pc).accepted = pc.writesLevel?.or (lastLevel log.accepted) := by
  cases pc with
  | writeLevel l => exact lastLevel_append ..
  | writeMode r preMode =>
    cases r with
    | fault l => rfl
    | user | auto => exact lastLevel_append ..
  | _ => rfl

/-- The thread's part of the log is the thread's. -/
theorem session_read [DecidableEq ι] (log : Log ι) (i : ι) (pc : CommandPc) :
    (log.session i pc).readWrites = log.readWrites ∧
      (log.session i pc).readAccepted = log.readAccepted ∧
      (log.session i pc).evaluated = log.evaluated := by
  cases pc with
  | writeMode r preMode => cases r <;> exact ⟨rfl, rfl, rfl⟩
  | _ => exact ⟨rfl, rfl, rfl⟩

theorem session_of_no_write [DecidableEq ι] (log : Log ι) (i : ι) {pc : CommandPc}
    (h : pc.writesMode = none) : (log.session i pc).modeWrites = log.modeWrites ∧
      (log.session i pc).holder = log.holder := by
  cases pc with
  | writeMode | writeUser => cases h
  | _ => exact ⟨rfl, rfl⟩

theorem session_ticket [DecidableEq ι] (log : Log ι) (i j : ι) (pc : CommandPc)
    (h : j ≠ i ∨ pc.writesLevel? = none) : (log.session i pc).ticket j = log.ticket j := by
  cases pc with
  | writeLevel l =>
    rcases h with h | h
    · exact Function.update_of_ne h ..
    · cases h
  | writeMode r preMode => cases r <;> rfl
  | _ => rfl

theorem fault?_lt {log : Log ι} {t : Nat} {l : Level} (h : log.fault? t = some l) :
    t < log.accepted.length := by
  by_contra hge
  rw [fault?, List.getElem?_eq_none (Nat.not_lt.mp hge)] at h
  cases h

theorem session_fault? [DecidableEq ι] {log : Log ι} {t : Nat} {l : Level} (h : log.fault? t = some l)
    (i : ι) (pc : CommandPc) : (log.session i pc).fault? t = some l := by
  obtain ⟨suffix, hsuffix⟩ := log.session_accepted i pc
  rw [fault?, hsuffix, List.getElem?_append_left (fault?_lt h)]
  exact h

end Log

/-! ### The condition and the invariant -/

namespace Spot
variable {σ ι : Type}

/-- While the thread serves a fault, nobody else writes the mode, and nobody
writes another level before it is evaluated. -/
structure Undisturbed (e : Event σ ι) (p : Spot σ ι) : Prop where
  mode : p.thread.serving → ∀ i ∈ e.session?, (p.session i).writesMode = none
  main : p.thread.serving → e = .main → p.main ≠ .at .setMode
  level : p.thread = .fault → ∀ i ∈ e.session?, ∀ l ∈ (p.session i).writesLevel?,
    p.shared.obj.faultLevel = some l

/-- The invariant. -/
structure Logged (p : Spot σ ι) (log : Log ι) : Prop where
  level : p.shared.obj.faultLevel = lastLevel log.accepted
  holder : ∀ t ∈ log.holder, t < log.accepted.length
  ticket : ∀ i, ∀ l ∈ (p.session i).pendingLevel?, log.fault? (log.ticket i) = some l
  serving : p.thread.serving → log.modeWrites = log.readWrites ∧
    log.readAccepted ≤ log.accepted.length ∧ ∀ t ∈ log.holder, t < log.readAccepted
  reading : p.thread = .fault →
    p.shared.obj.faultLevel = lastLevel (log.accepted.take log.readAccepted)
  evaluated : ∀ v, p.thread = .clear v → ∃ x ∈ log.evaluated,
    log.readAccepted ≤ x.2 ∧ lastLevel (log.accepted.take log.readAccepted) = some x.1

/-- At the reset, the invariant gives both halves. -/
theorem Logged.served {p : Spot σ ι} {log : Log ι} (h : p.Logged log) {v : Option Int}
    (hv : p.thread = .clear v) : log.NotOverwritten ∧ log.Served := by
  obtain ⟨hwrites, hle, hholder⟩ := h.serving (by rw [hv]; rfl)
  refine ⟨hwrites, fun t ht l hl => ?_⟩
  obtain ⟨x, hx, hn, hlast⟩ := h.evaluated v hv
  have htake (t' : Nat) (ht' : t' < log.readAccepted) :
      (log.accepted.take log.readAccepted)[t']? = log.accepted[t']? := List.getElem?_take_of_lt ht'
  have hlt := hholder t ht
  rcases lastLevel_or_later hlast (by rw [htake t hlt]; exact hl) with rfl | ⟨t', hlen, hlater, hfault⟩
  · exact .inl ⟨x, hx, rfl, lt_of_lt_of_le hlt hn⟩
  · have hlt' : t' < log.readAccepted := lt_of_lt_of_le hlen (List.length_take_le ..)
    rw [htake t' hlt'] at hfault
    exact .inr ⟨t', hlt', hlater, hfault⟩

/-! ### Moves -/

/-- Whoever writes a mode holds it with an accepted request. -/
theorem Logged.session_holder [DecidableEq ι] {p : Spot σ ι} {log : Log ι} (h : p.Logged log) {i : ι}
    {t : Nat} (ht : t ∈ (log.session i (p.session i)).holder) {m : Mode}
    (hw : (p.session i).writesMode = some m) : t < (log.session i (p.session i)).accepted.length := by
  cases hpc : p.session i with
  | writeMode r preMode =>
    rw [hpc] at ht
    cases r with
    | fault l =>
      cases ht
      exact Log.fault?_lt (h.ticket i l (by rw [hpc]; rfl))
    | user | auto =>
      cases ht
      simp [Log.session, Log.write, Log.accept]
  | writeUser a =>
    rw [hpc] at ht
    cases ht
  | _ =>
    rw [hpc] at hw
    cases hw

theorem Logged.session [DecidableEq ι] {p : Spot σ ι} {log : Log ι} (h : p.Logged log) {i : ι}
    {delivered : Bool} (ha : p.Undisturbed (.session i delivered)) {l : Option (Tid σ ι)}
    {pc : CommandPc} {v : View (Tid σ ι)}
    (hstep : (p.session i).step (.session i) delivered ⟨p.shared, l⟩ = some (pc, v)) :
    ({p with shared := v.toShared, session := Function.update p.session i pc} : Spot σ ι).Logged
      (log.session i (p.session i)) := by
  obtain ⟨hobj, -, -⟩ := CommandPc.step_effect hstep
  have hlevel : v.obj.faultLevel = (p.session i).writesLevel?.or p.shared.obj.faultLevel := by
    rw [hobj, CommandPc.writes_faultLevel]
  obtain ⟨suffix, hsuffix⟩ := log.session_accepted i (p.session i)
  obtain ⟨hreadWrites, hreadAccepted, hevaluated⟩ := log.session_read i (p.session i)
  have htake (hserving : p.thread.serving) :
      (log.session i (p.session i)).accepted.take log.readAccepted = log.accepted.take log.readAccepted := by
    rw [hsuffix, List.take_append_of_le_length (h.serving hserving).2.1]
  refine ⟨?_, ?_, ?_, ?_, ?_, ?_⟩
  · exact hlevel.trans (by rw [log.session_lastLevel, h.level])
  · intro t ht
    have hgrows : log.accepted.length ≤ (log.session i (p.session i)).accepted.length := by
      rw [hsuffix, List.length_append]
      exact Nat.le_add_right ..
    cases hw : (p.session i).writesMode with
    | none =>
      rw [(log.session_of_no_write i hw).2] at ht
      exact lt_of_lt_of_le (h.holder t ht) hgrows
    | some m => exact h.session_holder ht hw
  · intro j l' hl'
    have hl' : (Function.update p.session i pc j).pendingLevel? = some l' := hl'
    by_cases hj : j = i
    · subst hj
      rw [Function.update_self] at hl'
      rcases (CommandPc.step_next hstep).pending hl' with hwrite | hpending
      · rw [hwrite]
        simp [Log.session, Log.fault?, Log.accept, ModeRequest.level?]
      · have hnot : (p.session j).writesLevel? = none := by
          cases hpc : p.session j <;> rw [hpc] at hpending <;> first | rfl | cases hpending
        rw [log.session_ticket j j _ (.inr hnot)]
        exact Log.session_fault? (h.ticket j l' hpending) j _
    · rw [Function.update_of_ne hj] at hl'
      rw [log.session_ticket i j _ (.inl hj)]
      exact Log.session_fault? (h.ticket j l' hl') i _
  · intro hserving
    obtain ⟨hwrites, hholder⟩ := log.session_of_no_write i (ha.mode hserving i rfl)
    obtain ⟨hsame, hle, hlt⟩ := h.serving hserving
    rw [hwrites, hholder, hreadWrites, hreadAccepted, hsuffix, List.length_append]
    exact ⟨hsame, Nat.le_add_right_of_le hle, hlt⟩
  · intro hfault
    rw [hreadAccepted, htake (by rw [show p.thread = .fault from hfault]; rfl), ← h.reading hfault, hlevel]
    cases hl : (p.session i).writesLevel? with
    | none => rfl
    | some l' => exact (ha.level hfault i rfl l' hl).symm
  · intro x hx
    rw [hreadAccepted, hevaluated, htake (by rw [show p.thread = .clear x from hx]; rfl)]
    exact h.evaluated x hx

/-- A step that leaves the thread outside a fault iteration and accepts nothing. -/
theorem Logged.idle {p p' : Spot σ ι} {log log' : Log ι} (h : p.Logged log)
    (hsession : p'.session = p.session) (hlevel : p'.shared.obj.faultLevel = p.shared.obj.faultLevel)
    (haccepted : log'.accepted = log.accepted) (hticket : log'.ticket = log.ticket)
    (hholder : ∀ t ∈ log'.holder, t ∈ log.holder) (hidle : ¬ p'.thread.serving) : p'.Logged log' where
  level := by rw [hlevel, haccepted, h.level]
  holder t ht := haccepted ▸ h.holder t (hholder t ht)
  ticket i l hl := by
    rw [hsession] at hl
    rw [Log.fault?, haccepted, hticket]
    exact h.ticket i l hl
  serving hserving := absurd hserving hidle
  reading hfault := absurd (by rw [hfault]; rfl) hidle
  evaluated v hv := absurd (by rw [hv]; rfl) hidle

/-- How the thread gets into a fault iteration and on in it. -/
theorem next_serving {obj : Sensor} {pc pc' : ThreadPc} (h : pc.Next obj pc') (hs : pc'.serving) :
    pc = .testAuto ∧ pc' = .fault ∨
      pc = .fault ∧ ∃ v l, pc' = .clear v ∧ obj.faultLevel = some l := by
  cases h with
  | notAuto => exact .inl ⟨rfl, rfl⟩
  | evaluated hl => exact .inr ⟨rfl, _, _, rfl, hl⟩
  | _ => cases hs

theorem Logged.thread [DecidableEq (Tid σ ι)] {s : σ} {p : Spot σ ι} {log : Log ι} (h : p.Logged log)
    {rng : Nat} {delivered : Bool} {l : Option (Tid σ ι)} {pc : ThreadPc} {v : View (Tid σ ι)}
    (hstep : p.thread.step (.sensor s) rng delivered ⟨p.shared, l⟩ = some (pc, v)) :
    ({p with shared := v.toShared, thread := pc} : Spot σ ι).Logged (log.thread p.shared.obj p.thread) := by
  obtain ⟨hobj, -, -⟩ := ThreadPc.step_effect hstep
  have hnext := ThreadPc.step_next hstep
  have hlevel : v.obj.faultLevel = p.shared.obj.faultLevel := by
    rw [hobj]
    cases p.thread <;> rfl
  by_cases hserving : pc.serving
  · rcases next_serving hnext hserving with ⟨hpc, rfl⟩ | ⟨hpc, x, l, rfl, hl⟩
    · -- The read of fault: everything so far came before it.
      rw [hpc]
      refine ⟨hlevel.trans h.level, h.holder, h.ticket, fun _ => ⟨rfl, le_refl _, h.holder⟩, fun _ => ?_, nofun⟩
      show v.obj.faultLevel = lastLevel (log.accepted.take log.accepted.length)
      rw [List.take_length, hlevel, h.level]
    · obtain ⟨hsame, hle, hlt⟩ := h.serving (by rw [hpc]; rfl)
      have hreading := h.reading hpc
      rw [hpc]
      refine ⟨hlevel.trans h.level, h.holder, h.ticket, fun _ => ⟨hsame, hle, hlt⟩, nofun, fun _ _ => ?_⟩
      refine ⟨(l, log.accepted.length), ?_, hle, hreading.symm.trans hl⟩
      have hl : p.shared.obj.faultLevel = some l := hl
      simp [Log.thread, hl]
  · refine h.idle rfl hlevel ?_ ?_ (fun t ht => ?_) hserving
    · cases p.thread <;> rfl
    · cases p.thread <;> rfl
    · cases hpc : p.thread <;> rw [hpc] at ht <;> first | exact ht | cases ht

/-- A step that the log does not see. -/
theorem Logged.of_eq {p p' : Spot σ ι} {log : Log ι} (h : p.Logged log)
    (hlevel : p'.shared.obj.faultLevel = p.shared.obj.faultLevel) (hthread : p'.thread = p.thread)
    (hsession : ∀ i, ∀ l ∈ (p'.session i).pendingLevel?, (p.session i).pendingLevel? = some l) :
    p'.Logged log where
  level := hlevel.trans h.level
  holder := h.holder
  ticket i l hl := h.ticket i l (hsession i l hl)
  serving hserving := h.serving (hthread ▸ hserving)
  reading hfault := hlevel.trans (h.reading (hthread ▸ hfault))
  evaluated v hv := h.evaluated v (hthread ▸ hv)

theorem Logged.main {p : Spot σ ι} {log : Log ι} (h : p.Logged log) (ha : p.Undisturbed .main)
    {ph : FreePhase} (hat : p.main = .at ph) {l : Option (Tid σ ι)} {ph' : Option FreePhase}
    {v : View (Tid σ ι)} {m : MainAt} (hstep : ph.step .main ⟨p.shared, l⟩ = some (ph', v)) :
    ({p with shared := v.toShared, main := m} : Spot σ ι).Logged (log.main p.main) := by
  obtain ⟨hobj, -, -⟩ := FreePhase.step_effect hstep
  have hlevel : v.obj.faultLevel = p.shared.obj.faultLevel := by
    rw [hobj]
    cases ph <;> rfl
  rw [hat]
  cases ph with
  | setMode =>
    have hidle : ¬ p.thread.serving := fun hserving => ha.main hserving rfl hat
    exact h.idle rfl hlevel rfl rfl nofun hidle
  | setQuit | notify => exact h.of_eq hlevel rfl fun _ _ => id

theorem Logged.begin [DecidableEq ι] {p : Spot σ ι} {log : Log ι} (h : p.Logged log) (i : ι)
    (c : Command) :
    ({p with session := Function.update p.session i c.start} : Spot σ ι).Logged log := by
  refine h.of_eq rfl rfl fun j l hl => ?_
  have hl : (Function.update p.session i c.start j).pendingLevel? = some l := hl
  by_cases hj : j = i
  · subst hj
    rw [Function.update_self] at hl
    cases c with
    | modeSet r => cases r <;> cases hl
    | selSet checked => cases checked <;> cases hl
    | _ => cases hl
  · rwa [Function.update_of_ne hj] at hl

theorem update_elsewhere [DecidableEq σ] [DecidableEq ι] {s : σ} {e : Event σ ι} {w : World σ ι}
    (h : ¬ e.Concerns s (w.spot s)) (log : Log ι) : log.update s e w = log := by
  cases e with
  | thread s' => exact if_neg h
  | timeout | begin | interrupt => rfl
  | session i delivered =>
    have hreturned : w.on s i = .returned := not_not.mp h
    simp only [Log.update, hreturned, Log.session]
  | main =>
    have hnot (ph : FreePhase) : w.main.at s ≠ .at ph := fun hat => h ⟨ph, hat⟩
    simp only [Log.update]
    cases hat : w.main.at s with
    | «at» ph => exact absurd hat (hnot ph)
    | ahead | past => rfl

theorem logged_moves [DecidableEq σ] [DecidableEq ι] {listed : Prop} {s : σ} {e : Event σ ι}
    {w : World σ ι} {p' : Spot σ ι} {log : Log ι} (h : (w.spot s).Logged log)
    (ha : (w.spot s).Undisturbed e) (hm : (w.spot s).Moves listed s e p') :
    p'.Logged (log.update s e w) := by
  cases hm with
  | @thread rng delivered _ _ _ hstep =>
    have hlog : log.update s (.thread s rng delivered) w =
      log.thread (w.spot s).shared.obj (w.spot s).thread := if_pos rfl
    exact hlog ▸ h.thread hstep
  | timeout => exact h.of_eq rfl rfl fun _ _ => id
  | begin c => exact h.begin _ c
  | session hstep => exact h.session ha hstep
  | mainTurn hat hstep | mainLeaves hat hstep => exact h.main ha hat hstep
  | elsewhere he =>
    rw [update_elsewhere he]
    exact h.of_eq rfl rfl fun _ _ => id

theorem initial_logged [DecidableEq σ] {w : World σ ι} (h : w.Initial) (s : σ) :
    (w.spot s).Logged {} := by
  have hidle : ¬ (w.spot s).thread.serving := by
    show ¬ (w.thread s).serving
    rw [h.thread s, ThreadPc.start]
    split <;> exact Bool.false_ne_true
  refine ⟨(h.fresh s).faultLevel, fun t ht => ?_, fun i l hl => ?_, fun hs => absurd hs hidle,
    fun hfault => ?_, fun v hv => ?_⟩
  · cases ht
  · rw [h.on_returned] at hl
    cases hl
  · exact absurd (by rw [hfault]; rfl) hidle
  · exact absurd (by rw [hv]; rfl) hidle

instance [DecidableEq σ] [DecidableEq ι] (e : Event σ ι) (p : Spot σ ι) : Decidable (p.Undisturbed e) :=
  decidable_of_iff ((p.thread.serving → ∀ i ∈ e.session?, (p.session i).writesMode = none) ∧
      (p.thread.serving → e = .main → p.main ≠ .at .setMode) ∧
      (p.thread = .fault → ∀ i ∈ e.session?, ∀ l ∈ (p.session i).writesLevel?,
        p.shared.obj.faultLevel = some l))
    ⟨fun ⟨h₁, h₂, h₃⟩ => ⟨h₁, h₂, h₃⟩, fun h => ⟨h.mode, h.main, h.level⟩⟩

end Spot

instance {ι : Type} (log : Log ι) : Decidable log.NotOverwritten :=
  inferInstanceAs (Decidable (_ = _))

instance {ι : Type} (log : Log ι) : Decidable log.Served :=
  inferInstanceAs (Decidable (∀ t ∈ log.holder, ∀ l ∈ log.fault? t,
    (∃ x ∈ log.evaluated, _) ∨ ∃ t' < log.readAccepted, _))

/-- **Requests are not overwritten.** In every run in which nobody writes the mode
while the thread serves a fault, or another level before the level is evaluated,
the mode that the thread resets was not written after its read, and a fault
request that wrote it has been served. -/
theorem requests_not_overwritten {σ ι : Type} [DecidableEq σ] [DecidableEq ι] (sensorList : List σ)
    (s : σ) (w : World σ ι) (log : Log ι)
    (h : ((system σ ι sensorList).withHistory {} (fun e w log => log.update s e w)).Reach
      (fun e x => (x.1.spot s).Undisturbed e) (w, log))
    (v : Option Int) (hv : w.thread s = .clear v) : log.NotOverwritten ∧ log.Served := by
  have hlogged : (w.spot s).Logged log :=
    Spot.invariantWithHistory s (fun _ => id) rfl (fun w hw => Spot.initial_logged hw s)
      (fun _ _ _ _ _ hI ha hm => Spot.logged_moves hI ha hm) h
  exact hlogged.served hv

/-- A second fault request, accepted after the first was evaluated and written
before it is reset. -/
def overwritingRun : List (Event Unit Unit) :=
  commandSteps () (.modeSet (.fault .lc)) 6 ++ threadSteps Unit 5 ++
    commandSteps () (.modeSet (.fault .unc)) 3

theorem fan_request_overwritten : ∃ (w : World Unit Unit) (log : Log Unit),
    ((system Unit Unit [()]).withHistory {} (fun e w log => log.update () e w)).Reachable (w, log) ∧
      w.thread () = .clear (some 11) ∧ ¬ log.NotOverwritten ∧ ¬ log.Served := by
  obtain ⟨⟨w, log⟩, hw, hthread, hnot, hunserved⟩ := (fanWorld_withHistory Unit ({} : Log Unit)
      (fun e w log => log.update () e w) System.any).exists_of_run overwritingRun
    (fun x => x.1.thread () = .clear (some 11) ∧ ¬ x.2.NotOverwritten ∧ ¬ x.2.Served)
    (by decide +kernel)
  exact ⟨w, log, hw, hthread, hnot, hunserved⟩

/-- The second request waits until the first is reset. -/
theorem requests_not_overwritten_fan : ∃ (w : World Unit Unit) (log : Log Unit),
    w.thread () = .clear (some 200) ∧ log.accepted = [.fault .lc, .fault .unc] ∧
      log.holder = some 1 ∧ log.NotOverwritten ∧ log.Served := by
  obtain ⟨⟨w, log⟩, hw, hthread, haccepted, hholder⟩ := (fanWorld_withHistory Unit ({} : Log Unit)
      (fun e w log => log.update () e w) (fun e x => (x.1.spot ()).Undisturbed e)).exists_of_run
    (commandSteps () (.modeSet (.fault .lc)) 6 ++ threadSteps Unit 6 ++
      commandSteps () (.modeSet (.fault .unc)) 3 ++ threadSteps Unit 11)
    (fun x => x.1.thread () = .clear (some 200) ∧ x.2.accepted = [.fault .lc, .fault .unc] ∧
      x.2.holder = some 1) (by decide +kernel)
  exact ⟨w, log, hthread, haccepted, hholder, requests_not_overwritten [()] () w log hw (some 200) hthread⟩

end Idic.IpmiSim
