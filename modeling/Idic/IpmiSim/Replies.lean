import Idic.IpmiSim.Sessions

/-! Whose messages a session writes.

`Account` accounts for the messages that one session's commands have put: those
that have been written to its channel, those in the response, those that some
session has taken, those on the queue, in this order. `replies_delivered` says
that they are written to their own session only, in order, and are all written
when the session is back at its prompt, in every run with one session at a time:
then no step breaks the account (`Exclusive.keepsAccounts`). -/
namespace Idic.IpmiSim.Sshsrv
open Python Threads

variable {ι : Type}

/-- The message that a session has taken and not yet appended. -/
def Pc.hand : Pc ι → Option (Message ι)
  | .append m => some m
  | _ => none

/-- No command of the session is being handled. -/
def Pc.Idle : Pc ι → Prop
  | .clear | .expect | .ended => True
  | _ => False

variable [DecidableEq ι]

/-- The messages that session `i` has put. -/
def own (i : ι) (l : List (Message ι)) : List (Message ι) := l.filter fun m => m.sender = some i

@[simp] theorem own_nil (i : ι) : own i ([] : List (Message ι)) = [] := rfl

@[simp] theorem own_append (i : ι) (l l' : List (Message ι)) : own i (l ++ l') = own i l ++ own i l' :=
  List.filter_append ..

theorem own_cons_self {i : ι} {m : Message ι} (h : m.sender = some i) (l : List (Message ι)) :
    own i (m :: l) = m :: own i l := List.filter_cons_of_pos (by simpa using h)

theorem own_cons_of_ne {i : ι} {m : Message ι} (h : m.sender ≠ some i) (l : List (Message ι)) :
    own i (m :: l) = own i l := List.filter_cons_of_neg (by simpa using h)

theorem mem_own {i : ι} {m : Message ι} {l : List (Message ι)} :
    m ∈ own i l ↔ m ∈ l ∧ m.sender = some i := by simp [own]

/-- The messages of session `i`, each at its one place: written, in the response
(`pending`), taken by some session (`held`), or on the queue. What has been written
stays in the response until the session clears it. -/
structure Account (w : State ι) (i : ι) (pending held : List (Message ι)) : Prop where
  put : w.put i = own i (w.channel i) ++ pending ++ held ++ own i w.queue
  sorted : (w.put i).Pairwise fun m m' => m.number < m'.number
  number : ∀ m ∈ w.put i, m.number < (w.put i).length
  elsewhere : ∀ j ≠ i, own i (w.channel j) = []
  response : own i w.response = pending ∨ w.pc i = .clear ∧ ∀ m ∈ own i w.response, m ∈ w.channel i
  hands : ∀ m, m ∈ held ↔ m.sender = some i ∧ ∃ j, (w.pc j).hand = some m
  once : ∀ m j j', m.sender = some i → (w.pc j).hand = some m → (w.pc j').hand = some m → j = j'
  write : w.pc i = .write → own i w.queue = []
  idle : (w.pc i).Idle → pending = [] ∧ held = [] ∧ own i w.queue = []

/-- What a session must find to keep the accounts: what it clears from the response
has been written, what it writes is its own and all of it, and what it appends comes
before what others have taken. -/
def Pc.KeepsAccounts (w : State ι) (i : ι) : Pc ι → Prop
  | .clear => ∀ m ∈ w.response, ∀ j ∈ m.sender, m ∈ w.channel j
  | .append m => ∀ j ≠ i, ∀ m' ∈ (w.pc j).hand, m'.sender = m.sender → m.sender.isSome → m.number < m'.number
  | .write => (∀ m ∈ w.response, ∀ j ∈ m.sender, j = i) ∧ ∀ j ≠ i, ∀ m ∈ (w.pc j).hand, m.sender ≠ some i
  | _ => True

def KeepsAccounts (e : Event ι) (w : State ι) : Prop :=
  match e with
  | .session i => (w.pc i).KeepsAccounts w i
  | .line .. | .produce _ => True

namespace State

theorem goto_pc_or (w : State ι) (i j : ι) (pc : Pc ι) :
    (w.goto i pc).pc j = pc ∨ (w.goto i pc).pc j = w.pc j := by
  rw [goto_pc, Function.update_apply]
  split
  · exact .inl rfl
  · exact .inr rfl

/-- Hands are as they were, but for the session that has moved. -/
theorem hand_goto (w : State ι) (i j : ι) (pc : Pc ι) :
    ((w.goto i pc).pc j).hand = if j = i then pc.hand else (w.pc j).hand := by
  rw [goto_pc, Function.update_apply]
  split <;> rfl

theorem hand_goto_none {w : State ι} {i : ι} {pc : Pc ι} (hold : (w.pc i).hand = none)
    (hnew : pc.hand = none) (j : ι) : ((w.goto i pc).pc j).hand = (w.pc j).hand := by
  rw [hand_goto]
  split
  · next hj => rw [hj, hold, hnew]
  · rfl

end State

namespace Account
variable {w w' : State ι} {k : ι} {pending held : List (Message ι)}

theorem nodup (h : Account w k pending held) :
    (own k (w.channel k) ++ pending ++ held ++ own k w.queue).Nodup := by
  rw [← h.put]
  exact h.sorted.imp fun hlt heq => absurd (congrArg Message.number heq) (Nat.ne_of_lt hlt)

theorem response_of_not_clear (h : Account w k pending held) (hpc : w.pc k ≠ .clear) :
    own k w.response = pending := h.response.resolve_right fun hclear => hpc hclear.1

/-- A step that moves none of the session's messages. -/
theorem of_eq (h : Account w k pending held) (hput : w'.put k = w.put k)
    (hchannel : ∀ j, own k (w'.channel j) = own k (w.channel j)) (hqueue : own k w'.queue = own k w.queue)
    (hresponse : own k w'.response = pending ∨ w'.pc k = .clear ∧ ∀ m ∈ own k w'.response, m ∈ w'.channel k)
    (hhand : ∀ m j, m.sender = some k → ((w'.pc j).hand = some m ↔ (w.pc j).hand = some m))
    (hwrite : w'.pc k = .write → own k w.queue = []) (hidle : (w'.pc k).Idle → (w.pc k).Idle) :
    Account w' k pending held where
  put := by rw [hput, hchannel, hqueue, h.put]
  sorted := hput ▸ h.sorted
  number := hput ▸ h.number
  elsewhere j hj := (hchannel j).trans (h.elsewhere j hj)
  response := hresponse
  hands m := by
    rw [h.hands]
    exact and_congr_right fun hm => exists_congr fun j => (hhand m j hm).symm
  once m j j' hm hj hj' := h.once m j j' hm ((hhand m j hm).mp hj) ((hhand m j' hm).mp hj')
  write hpc := hqueue ▸ hwrite hpc
  idle hpc := hqueue ▸ h.idle (hidle hpc)

/-- A session that goes on, with nothing in its hand before and after. -/
theorem goto (h : Account w k pending held) {i : ι} {pc : Pc ι} (hold : (w.pc i).hand = none)
    (hnew : pc.hand = none) (hself : i = k → own k w.response = pending ∧
      (pc = .write → own k w.queue = []) ∧ (pc.Idle → (w.pc k).Idle)) :
    Account (w.goto i pc) k pending held := by
  have hhand (m : Message ι) (j : ι) : ((w.goto i pc).pc j).hand = some m ↔ (w.pc j).hand = some m := by
    rw [State.hand_goto_none hold hnew]
  by_cases hk : i = k
  · subst hk
    have hpc : (w.goto i pc).pc i = pc := Function.update_self ..
    obtain ⟨hresponse, hwrite, hidle⟩ := hself rfl
    rw [← hpc] at hwrite hidle
    exact h.of_eq rfl (fun _ => rfl) rfl (.inl hresponse) (fun m j _ => hhand m j) hwrite hidle
  · have hpc : (w.goto i pc).pc k = w.pc k := Function.update_of_ne (Ne.symm hk) ..
    refine h.of_eq rfl (fun _ => rfl) rfl ?_ (fun m j _ => hhand m j) ?_ ?_ <;> rw [hpc]
    · exact h.response
    · exact h.write
    · exact id

/-- When all that the response holds has been written, nothing is pending. -/
theorem pending_nil (h : Account w k pending held)
    (hwritten : ∀ m ∈ w.response, ∀ j ∈ m.sender, m ∈ w.channel j) : pending = [] := by
  rcases h.response with hresponse | ⟨hpc, -⟩
  · refine List.eq_nil_iff_forall_not_mem.mpr fun m hm => ?_
    obtain ⟨hm', hsender⟩ := mem_own.mp (hresponse ▸ hm)
    have hchannel : m ∈ own k (w.channel k) := mem_own.mpr ⟨hwritten m hm' k hsender, hsender⟩
    have hnodup := ((List.nodup_append.mp h.nodup).1)
    have hdisjoint := (List.nodup_append.mp (List.nodup_append.mp hnodup).1).2.2
    exact hdisjoint m hchannel m hm rfl
  · exact (h.idle (hpc ▸ trivial)).1

theorem cleared (h : Account w k pending held)
    (hwritten : ∀ m ∈ w.response, ∀ j ∈ m.sender, m ∈ w.channel j) :
    Account {w with response := []} k [] held := by
  have hnil := h.pending_nil hwritten
  subst hnil
  exact h.of_eq rfl (fun _ => rfl) rfl (.inl rfl) (fun _ _ _ => Iff.rfl) h.write id

theorem putMsg (h : Account w k pending held) {i : ι} {text : Str} {todo : List Str}
    (hpc : w.pc i = .puts todo) : Account (w.putMsg i (w.next i text)) k pending held := by
  by_cases hk : i = k
  · subst hk
    have hown : own i [w.next i text] = [w.next i text] := own_cons_self rfl []
    have hput : (w.putMsg i (w.next i text)).put i = w.put i ++ [w.next i text] := Function.update_self ..
    exact {
      put := by
        rw [hput, h.put]
        simp only [State.putMsg, own_append, hown, List.append_assoc]
      sorted := by
        rw [hput, List.pairwise_append]
        refine ⟨h.sorted, List.pairwise_singleton .., fun m hm m' hm' => ?_⟩
        rw [List.mem_singleton.mp hm']
        exact h.number m hm
      number := by
        intro m hm
        rw [hput] at hm ⊢
        rw [List.length_append, List.length_singleton]
        rcases List.mem_append.mp hm with hm | hm
        · exact Nat.lt_succ_of_lt (h.number m hm)
        · rw [List.mem_singleton.mp hm]
          exact Nat.lt_succ_self _
      elsewhere := h.elsewhere
      response := h.response
      hands := h.hands
      once := h.once
      write := fun hwrite => by cases hpc.symm.trans hwrite
      idle := fun hidle => by
        rw [show (w.putMsg i (w.next i text)).pc i = .puts todo from hpc] at hidle
        exact hidle.elim }
  · have hown : own k [w.next i text] = [] := own_cons_of_ne (fun heq => hk (Option.some.inj heq)) []
    have hqueue : own k (w.queue ++ [w.next i text]) = own k w.queue := by
      rw [own_append, hown, List.append_nil]
    exact h.of_eq (Function.update_of_ne (Ne.symm hk) ..) (fun _ => rfl) hqueue h.response
      (fun _ _ _ => Iff.rfl) h.write id

theorem produced (h : Account w k pending held) (text : Str) :
    Account {w with queue := w.queue ++ [⟨none, 0, text⟩]} k pending held := by
  have hqueue : own k (w.queue ++ [⟨none, 0, text⟩]) = own k w.queue := by
    rw [own_append, own_cons_of_ne (by simp), own_nil, List.append_nil]
  exact h.of_eq rfl (fun _ => rfl) hqueue h.response (fun _ _ _ => Iff.rfl) h.write id

/-- While a message of the session is on its way, the session is at work. -/
theorem not_idle (h : Account w k pending held) {m : Message ι} (hm : m ∈ held ∨ m ∈ own k w.queue) :
    ¬ (w.pc k).Idle := by
  intro hidle
  obtain ⟨-, hheld, hqueue⟩ := h.idle hidle
  rw [hheld, hqueue] at hm
  rcases hm with hm | hm <;> cases hm

/-- A message that another session has put, or none, changes hands. -/
theorem goto_of_ne (h : Account w k pending held) {i : ι} {pc : Pc ι} {m : Message ι}
    (hm : m.sender ≠ some k) (hold : ∀ m' ∈ (w.pc i).hand, m' = m) (hnew : ∀ m' ∈ pc.hand, m' = m)
    (hclear : w.pc i ≠ .clear) (hpc : pc ≠ .write ∧ ¬ pc.Idle) {queue response : List (Message ι)}
    (hqueue : own k queue = own k w.queue) (hresponse : own k response = own k w.response) :
    Account (({w with queue := queue, response := response} : State ι).goto i pc) k pending held := by
  have hpc' := State.goto_pc_or {w with queue := queue, response := response} i k pc
  have hnone {m' : Message ι} (hsender : m'.sender = some k) : m' ≠ m := fun heq => hm (heq ▸ hsender)
  refine h.of_eq rfl (fun _ => rfl) hqueue ?_ (fun m' j hsender => ?_) (fun hwrite => ?_) fun hidle => ?_
  · show own k response = pending ∨ _
    rw [hresponse]
    refine h.response.imp_right fun hwritten => ⟨?_, fun m' hm' => hwritten.2 m' (hresponse ▸ hm')⟩
    have hne : k ≠ i := fun heq => hclear (heq ▸ hwritten.1)
    exact (Function.update_of_ne hne ..).trans hwritten.1
  · rw [State.hand_goto]
    split
    · next hj =>
      rw [hj]
      exact ⟨fun hm' => absurd (hnew m' hm') (hnone hsender), fun hm' => absurd (hold m' hm') (hnone hsender)⟩
    · rfl
  · rcases hpc' with heq | heq <;> rw [heq] at hwrite
    · exact absurd hwrite hpc.1
    · exact h.write hwrite
  · rcases hpc' with heq | heq <;> rw [heq] at hidle
    · exact absurd hidle hpc.2
    · exact hidle

theorem got (h : Account w k pending held) {i : ι} {m : Message ι} {queue : List (Message ι)}
    (hpc : w.pc i = .get) (hq : w.queue = m :: queue) :
    ∃ held', Account (({w with queue := queue} : State ι).goto i (.append m)) k pending held' := by
  have hfree : (w.pc i).hand = none := by rw [hpc]; rfl
  by_cases hm : m.sender = some k
  · have hqueue : own k w.queue = m :: own k queue := by rw [hq, own_cons_self hm]
    have hqueued : m ∈ own k w.queue := hqueue ▸ List.mem_cons_self ..
    have hbusy := h.not_idle (.inr hqueued)
    have hnot (j : ι) (hj : (w.pc j).hand = some m) : False := by
      have hdisjoint := (List.nodup_append.mp h.nodup).2.2
      exact hdisjoint m (List.mem_append_right _ ((h.hands m).mpr ⟨hm, j, hj⟩)) m hqueued rfl
    have hhand (j : ι) := State.hand_goto {w with queue := queue} i j (.append m)
    have hpc' := State.goto_pc_or {w with queue := queue} i k (.append m)
    refine ⟨held ++ [m], ?_, h.sorted, h.number, h.elsewhere, .inl ?_, fun m' => ?_, ?_, ?_, ?_⟩
    · show w.put k = _
      rw [h.put, hqueue]
      simp only [State.goto, List.append_assoc, List.singleton_append]
    · exact h.response_of_not_clear fun hclear => hbusy (hclear ▸ trivial)
    · rw [List.mem_append, List.mem_singleton, h.hands]
      constructor
      · intro hcase
        rcases hcase with ⟨hsender, j, hj⟩ | rfl
        · have hne : j ≠ i := fun heq => by rw [heq, hfree] at hj; cases hj
          exact ⟨hsender, j, by rw [hhand, if_neg hne]; exact hj⟩
        · exact ⟨hm, i, by rw [hhand, if_pos rfl]; rfl⟩
      · intro hboth
        obtain ⟨hsender, j, hj⟩ := hboth
        rw [hhand] at hj
        split at hj
        · exact .inr (Option.some.inj hj).symm
        · exact .inl ⟨hsender, j, hj⟩
    · intro m' j j' hsender hj hj'
      rw [hhand] at hj hj'
      split at hj <;> split at hj'
      · next h₁ h₂ => rw [h₁, h₂]
      · cases hj
        exact (hnot j' hj').elim
      · cases hj'
        exact (hnot j hj).elim
      · exact h.once m' j j' hsender hj hj'
    · intro hwrite
      rcases hpc' with heq | heq <;> rw [heq] at hwrite
      · cases hwrite
      · rw [h.write hwrite] at hqueued
        cases hqueued
    · intro hidle
      rcases hpc' with heq | heq <;> rw [heq] at hidle
      · exact hidle.elim
      · exact absurd hidle hbusy
  · have hnew : ∀ m' ∈ (Pc.append m).hand, m' = m := fun m' hm' => (Option.some.inj hm').symm
    have hold : ∀ m' ∈ (w.pc i).hand, m' = m := by
      rw [hfree]
      exact nofun
    have hqueue : own k queue = own k w.queue := by rw [hq, own_cons_of_ne hm]
    refine ⟨held, h.goto_of_ne hm hold hnew ?_ ⟨nofun, id⟩ hqueue rfl⟩
    rw [hpc]
    exact nofun

/-- The message that is appended comes next. -/
theorem held_head (h : Account w k pending held) {i : ι} {m : Message ι} (hpc : w.pc i = .append m)
    (hm : m.sender = some k)
    (hnext : ∀ j ≠ i, ∀ m' ∈ (w.pc j).hand, m'.sender = some k → m.number < m'.number) :
    ∃ held', held = m :: held' := by
  have hmem : m ∈ held := (h.hands m).mpr ⟨hm, i, by rw [hpc]; rfl⟩
  cases hheld : held with
  | nil =>
    rw [hheld] at hmem
    cases hmem
  | cons m₀ held' =>
    by_cases heq : m₀ = m
    · exact ⟨held', by rw [heq]⟩
    · have hsorted : held.Pairwise fun m m' => m.number < m'.number := by
        have := h.sorted
        rw [h.put] at this
        exact (List.pairwise_append.mp (List.pairwise_append.mp this).1).2.1
      rw [hheld] at hsorted hmem
      have hlt := (List.pairwise_cons.mp hsorted).1 m ((List.mem_cons.mp hmem).resolve_left (Ne.symm heq))
      obtain ⟨hsender, j, hj⟩ := (h.hands m₀).mp (hheld ▸ List.mem_cons_self ..)
      have hne : j ≠ i := by
        intro heq
        subst heq
        rw [hpc] at hj
        exact heq (Option.some.inj hj).symm
      exact absurd (hnext j hne m₀ hj hsender) (Nat.lt_asymm hlt)

theorem appended (h : Account w k pending held) {i : ι} {m : Message ι} (hpc : w.pc i = .append m)
    (hnext : m.sender = some k →
      ∀ j ≠ i, ∀ m' ∈ (w.pc j).hand, m'.sender = some k → m.number < m'.number) :
    ∃ pending' held', Account (({w with response := w.response ++ [m]} : State ι).goto i .testEmpty)
      k pending' held' := by
  have hhold : (w.pc i).hand = some m := by rw [hpc]; rfl
  by_cases hm : m.sender = some k
  · obtain ⟨held', rfl⟩ := h.held_head hpc hm (hnext hm)
    have hbusy := h.not_idle (.inl (List.mem_cons_self ..))
    have hnot : m ∉ held' := by
      have hnodup := (List.nodup_append.mp (List.nodup_append.mp h.nodup).1).2.1
      exact (List.nodup_cons.mp hnodup).1
    have hhand (j : ι) := State.hand_goto {w with response := w.response ++ [m]} i j .testEmpty
    have hpc' := State.goto_pc_or {w with response := w.response ++ [m]} i k .testEmpty
    refine ⟨pending ++ [m], held', ?_, h.sorted, h.number, h.elsewhere, .inl ?_, fun m' => ?_, ?_, ?_, ?_⟩
    · show w.put k = _
      rw [h.put]
      simp only [State.goto, List.append_assoc, List.singleton_append]
    · show own k (w.response ++ [m]) = _
      rw [own_append, h.response_of_not_clear fun hclear => hbusy (hclear ▸ trivial), own_cons_self hm, own_nil]
    · constructor
      · intro hm'
        obtain ⟨hsender, j, hj⟩ := (h.hands m').mp (List.mem_cons_of_mem _ hm')
        have hne : j ≠ i := by
          intro heq
          subst heq
          rw [hhold] at hj
          exact hnot (Option.some.inj hj ▸ hm')
        exact ⟨hsender, j, by rw [hhand, if_neg hne]; exact hj⟩
      · intro hboth
        obtain ⟨hsender, j, hj⟩ := hboth
        rw [hhand] at hj
        split at hj
        · cases hj
        · next hne =>
          refine (List.mem_cons.mp ((h.hands m').mpr ⟨hsender, j, hj⟩)).resolve_left ?_
          intro heq
          subst heq
          exact hne (h.once _ j i hm hj hhold)
    · intro m' j j' hsender hj hj'
      rw [hhand] at hj hj'
      split at hj <;> split at hj'
      · next h₁ h₂ => rw [h₁, h₂]
      · cases hj
      · cases hj'
      · exact h.once m' j j' hsender hj hj'
    · intro hwrite
      rcases hpc' with heq | heq <;> rw [heq] at hwrite
      · cases hwrite
      · exact h.write hwrite
    · intro hidle
      rcases hpc' with heq | heq <;> rw [heq] at hidle
      · exact hidle.elim
      · exact absurd hidle hbusy
  · have hnew : ∀ m' ∈ (Pc.testEmpty : Pc ι).hand, m' = m := fun m' hm' => by cases hm'
    have hold : ∀ m' ∈ (w.pc i).hand, m' = m := by
      rw [hhold]
      exact fun m' hm' => (Option.some.inj hm').symm
    have hresponse : own k (w.response ++ [m]) = own k w.response := by
      rw [own_append, own_cons_of_ne hm, own_nil, List.append_nil]
    refine ⟨pending, held, h.goto_of_ne hm hold hnew ?_ ⟨nofun, id⟩ rfl hresponse⟩
    rw [hpc]
    exact nofun

/-- Everything that a session has put is in the response when it writes. -/
theorem held_nil (h : Account w k pending held) (hpc : w.pc k = .write)
    (hhands : ∀ j ≠ k, ∀ m ∈ (w.pc j).hand, m.sender ≠ some k) : held = [] := by
  refine List.eq_nil_iff_forall_not_mem.mpr fun m hm => ?_
  obtain ⟨hsender, j, hj⟩ := (h.hands m).mp hm
  have hne : j ≠ k := by
    intro heq
    subst heq
    rw [hpc] at hj
    cases hj
  exact hhands j hne m hj hsender

theorem written (h : Account w k pending held) {i : ι} (hpc : w.pc i = .write)
    (hresponse : ∀ m ∈ w.response, ∀ j ∈ m.sender, j = i)
    (hhands : ∀ j ≠ i, ∀ m ∈ (w.pc j).hand, m.sender ≠ some i) :
    ∃ pending' held', Account ((w.reply i).goto i .clear) k pending' held' := by
  have hhand (j : ι) : (((w.reply i).goto i .clear).pc j).hand = (w.pc j).hand :=
    State.hand_goto_none (w := w.reply i) (by rw [show (w.reply i).pc i = .write from hpc]; rfl) rfl j
  by_cases hk : i = k
  · subst hk
    obtain rfl := h.held_nil hpc hhands
    have hqueue := h.write hpc
    have hchannel : ((w.reply i).goto i .clear).channel i = w.channel i ++ w.response := Function.update_self ..
    have hclear : ((w.reply i).goto i .clear).pc i = .clear := Function.update_self ..
    have hpending : own i w.response = pending := h.response_of_not_clear (by rw [hpc]; exact nofun)
    refine ⟨[], [], ?_, h.sorted, h.number, fun j hj => ?_, .inr ⟨hclear, fun m hm => ?_⟩, fun m => ?_,
      fun m j j' => ?_, fun _ => hqueue, fun _ => ⟨rfl, rfl, hqueue⟩⟩
    · show w.put i = _
      rw [h.put, hchannel, own_append, hpending]
      simp only [State.goto, State.reply, List.append_nil]
    · exact (congrArg (own i) (Function.update_of_ne hj ..)).trans (h.elsewhere j hj)
    · rw [hchannel]
      exact List.mem_append_right _ (mem_own.mp hm).1
    · simp only [hhand]
      exact h.hands m
    · simp only [hhand]
      exact h.once m j j'
  · have hnil : own k w.response = [] := by
      refine List.eq_nil_iff_forall_not_mem.mpr fun m hm => ?_
      obtain ⟨hm, hsender⟩ := mem_own.mp hm
      exact hk (hresponse m hm k hsender).symm
    have hpck : ((w.reply i).goto i .clear).pc k = w.pc k := Function.update_of_ne (Ne.symm hk) ..
    have hchannel (j : ι) : own k (((w.reply i).goto i .clear).channel j) = own k (w.channel j) := by
      show own k (Function.update w.channel i (w.channel i ++ w.response) j) = _
      rw [Function.update_apply]
      split
      · next hj => rw [own_append, hnil, List.append_nil, hj]
      · rfl
    refine ⟨pending, held, h.of_eq rfl hchannel rfl ?_ (fun m j _ => by rw [hhand]) ?_ ?_⟩ <;> rw [hpck]
    · refine h.response.imp_right fun hwritten => ⟨hwritten.1, fun m hm => ?_⟩
      rw [show own k ((w.reply i).goto i .clear).response = [] from hnil] at hm
      cases hm
    · exact h.write
    · exact id

end Account

/-- Every session's messages are accounted for. -/
def Accounts (w : State ι) : Prop := ∀ k, ∃ pending held, Account w k pending held

theorem init_accounts : Accounts (.init : State ι) := fun _ => ⟨[], [], {
  put := rfl
  sorted := .nil
  number := nofun
  elsewhere := fun _ _ => rfl
  response := .inl rfl
  hands := fun _ => ⟨nofun, fun ⟨_, _, h⟩ => nomatch h⟩
  once := fun _ _ _ _ h => nomatch h
  write := nofun
  idle := fun _ => ⟨rfl, rfl, rfl⟩ }⟩

theorem Accounts.step {e : Event ι} {w w' : State ι} (h : Accounts w) (hkeeps : KeepsAccounts e w)
    (hs : w.step e = some w') : Accounts w' := by
  intro k
  obtain ⟨pending, held, hk⟩ := h k
  have hempty {i : ι} {pc : Pc ι} (hpc : w.pc i = pc) (hnone : pc.hand = none) : (w.pc i).hand = none :=
    hpc ▸ hnone
  have hresponse {i : ι} {pc : Pc ι} (hpc : w.pc i = pc) (hne : pc ≠ .clear) (hi : i = k) :
      own k w.response = pending := hk.response_of_not_clear (hi ▸ hpc ▸ hne)
  cases State.step_moves hs with
  | @cleared i hpc =>
    simp only [KeepsAccounts, hpc] at hkeeps
    refine ⟨[], held, (hk.cleared hkeeps).goto (hempty hpc rfl) rfl fun hi => ⟨rfl, nofun, fun _ => ?_⟩⟩
    show (w.pc k).Idle
    rw [← hi, hpc]
    trivial
  | @read i input hpc =>
    refine ⟨pending, held, hk.goto (hempty hpc rfl) ?_ fun hi => ⟨hresponse hpc nofun hi, ?_, fun _ => ?_⟩⟩
    · cases input <;> rfl
    · cases input <;> exact nofun
    · rw [← hi, hpc]
      trivial
  | @puts i text todo hpc =>
    refine ⟨pending, held, (hk.putMsg hpc).goto (hempty hpc rfl) rfl fun hi => ⟨?_, nofun, False.elim⟩⟩
    exact hresponse hpc nofun hi
  | handled hpc =>
    exact ⟨pending, held, hk.goto (hempty hpc rfl) rfl fun hi => ⟨hresponse hpc nofun hi, nofun, False.elim⟩⟩
  | drained hpc hq =>
    refine ⟨pending, held, hk.goto (hempty hpc rfl) rfl fun hi =>
      ⟨hresponse hpc nofun hi, fun _ => ?_, False.elim⟩⟩
    rw [hq]
    rfl
  | filled hpc =>
    exact ⟨pending, held, hk.goto (hempty hpc rfl) rfl fun hi => ⟨hresponse hpc nofun hi, nofun, False.elim⟩⟩
  | got hpc hq => exact ⟨pending, hk.got hpc hq⟩
  | @appended i m hpc =>
    simp only [KeepsAccounts, hpc] at hkeeps
    refine hk.appended hpc fun hm j hj m' hm' hsender => ?_
    exact hkeeps j hj m' hm' (hsender.trans hm.symm) (by rw [hm]; rfl)
  | @written i hpc =>
    simp only [KeepsAccounts, hpc] at hkeeps
    exact hk.written hpc hkeeps.1 hkeeps.2
  | produced text => exact ⟨pending, held, hk.produced text⟩

/-! ### No other steps keep the accounts -/

namespace Account
variable {w w' : State ι} {k : ι} {pending held pending' held' : List (Message ι)}

theorem written_of_cleared (h : Account w k pending held) {i : ι} (hpc : w.pc i = .clear)
    (h' : Account (({w with response := []} : State ι).goto i .expect) k pending' held') :
    ∀ m ∈ w.response, m.sender = some k → m ∈ w.channel k := by
  intro m hm hsender
  rcases h.response with hresponse | ⟨-, hwritten⟩
  · have hpending : m ∈ pending := hresponse ▸ mem_own.mpr ⟨hm, hsender⟩
    obtain rfl : pending' = [] := by
      rcases h'.response with hnil | ⟨hclear, -⟩
      · exact hnil.symm
      · exact (h'.idle (hclear ▸ trivial)).1
    have hput : w.put k = own k (w.channel k) ++ [] ++ held' ++ own k w.queue := h'.put
    rw [h.put, List.append_nil, List.append_left_inj, List.append_assoc, List.append_right_inj] at hput
    have hmem : m ∈ held' := hput ▸ List.mem_append_left _ hpending
    obtain ⟨-, j, hj⟩ := (h'.hands m).mp hmem
    have hhand : ((State.goto {w with response := []} i .expect).pc j).hand = _ :=
      State.hand_goto_none (by rw [show State.pc _ i = .clear from hpc]; rfl) rfl j
    have hheld : m ∈ held := (h.hands m).mpr ⟨hsender, j, hhand ▸ hj⟩
    have hnodup := h.nodup
    rw [List.append_assoc (own k _)] at hnodup
    have hdisjoint := (List.nodup_append.mp (List.nodup_append.mp (List.nodup_append.mp hnodup).1).2.1).2.2
    exact absurd rfl (hdisjoint m hpending m hheld)
  · exact hwritten m (mem_own.mpr ⟨hm, hsender⟩)

theorem lt_of_appended (h : Account w k pending held) {i j : ι} {m m' : Message ι}
    (hpc : w.pc i = .append m) (hsender : m.sender = some k)
    (h' : Account (({w with response := w.response ++ [m]} : State ι).goto i .testEmpty) k pending' held')
    (hne : j ≠ i) (hj : (w.pc j).hand = some m') (hsender' : m'.sender = some k) : m.number < m'.number := by
  have hbusy := h.not_idle (.inl ((h.hands m).mpr ⟨hsender, i, by rw [hpc]; rfl⟩))
  have hmem : m' ∈ held' := by
    refine (h'.hands m').mpr ⟨hsender', j, ?_⟩
    rw [State.hand_goto, if_neg hne]
    exact hj
  have hbusy' := h'.not_idle (.inl hmem)
  have hpending : own k (w.response ++ [m]) = pending' :=
    h'.response_of_not_clear fun hclear => hbusy' (hclear ▸ trivial)
  rw [own_append, own_cons_self hsender, own_nil] at hpending
  have hsorted := h'.sorted
  rw [h'.put, ← hpending] at hsorted
  have hlt := (List.pairwise_append.mp (List.pairwise_append.mp hsorted).1).2.2
  exact hlt m (by simp) m' hmem

end Account

theorem Accounts.keeps {e : Event ι} {w w' : State ι} (h : Accounts w) (hs : w.step e = some w')
    (h' : Accounts w') : KeepsAccounts e w := by
  cases State.step_moves hs with
  | cleared hpc =>
    simp only [KeepsAccounts, hpc]
    intro m hm k hsender
    obtain ⟨pending, held, hk⟩ := h k
    obtain ⟨pending', held', hk'⟩ := h' k
    exact hk.written_of_cleared hpc hk' m hm hsender
  | @appended i m hpc =>
    simp only [KeepsAccounts, hpc]
    intro j hj m' hm' hsame hsome
    obtain ⟨k, hsender⟩ := Option.isSome_iff_exists.mp hsome
    obtain ⟨pending, held, hk⟩ := h k
    obtain ⟨pending', held', hk'⟩ := h' k
    exact hk.lt_of_appended hpc hsender hk' hj hm' (hsame.trans hsender)
  | @written i hpc =>
    simp only [KeepsAccounts, hpc]
    have hchannel : ((w.reply i).goto i .clear).channel i = w.channel i ++ w.response := Function.update_self ..
    have hclear : ((w.reply i).goto i .clear).pc i = .clear := Function.update_self ..
    refine ⟨fun m hm k hsender => ?_, fun j hj m hm hsender => ?_⟩
    · by_contra hne
      obtain ⟨pending', held', hk'⟩ := h' k
      have hnil := hk'.elsewhere i (Ne.symm hne)
      rw [hchannel, own_append, List.append_eq_nil_iff] at hnil
      have hmem := mem_own.mpr ⟨hm, hsender⟩
      rw [hnil.2] at hmem
      cases hmem
    · obtain ⟨pending', held', hi'⟩ := h' i
      refine hi'.not_idle (.inl ((hi'.hands m).mpr ⟨hsender, j, ?_⟩)) ?_
      · rw [State.hand_goto, if_neg hj]
        exact hm
      · rw [hclear]
        trivial
  | puts hpc | handled hpc | drained hpc | filled hpc | got hpc =>
    simp only [KeepsAccounts, hpc]
    trivial
  | read | produced => trivial

/-- The condition is exact: a step keeps the accounts exactly when it meets it. -/
theorem step_accounts_iff {e : Event ι} {w w' : State ι} (h : Accounts w) (hs : w.step e = some w') :
    Accounts w' ↔ KeepsAccounts e w :=
  ⟨h.keeps hs, fun hkeeps => h.step hkeeps hs⟩

/-! ### One session at a time -/

/-- One session at a time: a session that starts a command finds the response empty
and no other session at a command, and one that clears a text from the response
finds no other session at a command. -/
def OneAtATime (e : Event ι) (w : State ι) : Prop :=
  match e with
  | .session i => w.pc i = .clear → w.response ≠ [] → ∀ j ≠ i, (w.pc j).Idle
  | .line i (.command _) => w.response = [] ∧ ∀ j ≠ i, (w.pc j).Idle
  | .line _ _ | .produce _ => True

/-- The session at a command is the only one, and the response is its own; when
there is none, what the response holds has been written. -/
structure Exclusive (w : State ι) : Prop where
  unique : ∀ i j, ¬ (w.pc i).Idle → ¬ (w.pc j).Idle → i = j
  owned : ∀ i, ¬ (w.pc i).Idle → ∀ m ∈ w.response, ∀ j ∈ m.sender, j = i
  written : (∀ i, (w.pc i).Idle) → ∀ m ∈ w.response, ∀ j ∈ m.sender, m ∈ w.channel j

omit [DecidableEq ι] in
theorem init_exclusive : Exclusive (.init : State ι) where
  unique _ _ hbusy := absurd trivial hbusy
  owned _ hbusy := absurd trivial hbusy
  written _ _ hm := absurd hm List.not_mem_nil

namespace Exclusive
variable {w w' : State ι}

/-- A session that is at its command before a step and after it, and keeps the
response to itself. -/
theorem of_busy (h : Exclusive w) {i : ι} (hbusy : ¬ (w.pc i).Idle) {pc : Pc ι} (hpc : ¬ pc.Idle)
    (hsame : w'.pc = w.pc) (hresponse : ∀ m ∈ w'.response, ∀ j ∈ m.sender, j = i) :
    Exclusive (w'.goto i pc) := by
  have honly (j : ι) (hj : ¬ ((w'.goto i pc).pc j).Idle) : j = i := by
    by_contra hne
    refine hne (h.unique j i ?_ hbusy)
    rwa [State.goto_pc, Function.update_of_ne hne, hsame] at hj
  refine ⟨fun j j' hj hj' => (honly j hj).trans (honly j' hj').symm, fun j hj => ?_, fun hidle => ?_⟩
  · rw [honly j hj]
    exact hresponse
  · have hi := hidle i
    rw [State.goto_pc, Function.update_self] at hi
    exact absurd hi hpc

/-- A session that stays away from any command. -/
theorem of_idle (h : Exclusive w) {i : ι} {pc : Pc ι} (hidle : (w.pc i).Idle) (hpc : pc.Idle) :
    Exclusive (w.goto i pc) := by
  have hsame (j : ι) : ((w.goto i pc).pc j).Idle ↔ (w.pc j).Idle := by
    rw [State.goto_pc, Function.update_apply]
    split
    · next hj => exact iff_of_true hpc (hj ▸ hidle)
    · rfl
  refine ⟨fun j j' hj hj' => ?_, fun j hj => ?_, fun hall => ?_⟩
  · exact h.unique j j' (mt (hsame j).mpr hj) (mt (hsame j').mpr hj')
  · exact h.owned j (mt (hsame j).mpr hj)
  · exact h.written fun j => (hsame j).mp (hall j)

omit [DecidableEq ι] in
/-- With the response empty there is nothing to own. -/
theorem of_nil (hnil : w.response = []) (hunique : ∀ i j, ¬ (w.pc i).Idle → ¬ (w.pc j).Idle → i = j) :
    Exclusive w where
  unique := hunique
  owned _ _ _ hm := absurd (hnil ▸ hm) List.not_mem_nil
  written _ _ hm := absurd (hnil ▸ hm) List.not_mem_nil

omit [DecidableEq ι] in
/-- Only the session at a command has taken a message. -/
theorem no_hand (h : Exclusive w) {i j : ι} (hbusy : ¬ (w.pc i).Idle) (hne : j ≠ i) : (w.pc j).hand = none := by
  by_contra hhand
  refine hne (h.unique j i (fun hidle => hhand ?_) hbusy)
  revert hidle
  cases w.pc j with
  | append => exact False.elim
  | clear | expect | puts | testEmpty | get | write | ended => exact fun _ => rfl

/-- Under the condition a step keeps the accounts. -/
theorem keepsAccounts (h : Exclusive w) {e : Event ι} (hone : OneAtATime e w) (hs : w.step e = some w') :
    KeepsAccounts e w := by
  cases State.step_moves hs with
  | @cleared i hpc =>
    simp only [KeepsAccounts, hpc]
    intro m hm
    refine h.written (fun j => ?_) m hm
    by_cases hj : j = i
    · rw [hj, hpc]
      trivial
    · exact hone hpc (List.ne_nil_of_mem hm) j hj
  | @appended i m hpc =>
    simp only [KeepsAccounts, hpc]
    intro j hj m' hm'
    rw [h.no_hand (by rw [hpc]; exact id) hj] at hm'
    cases hm'
  | @written i hpc =>
    have hbusy : ¬ (w.pc i).Idle := by
      rw [hpc]
      exact id
    simp only [KeepsAccounts, hpc]
    refine ⟨h.owned i hbusy, fun j hj m hm => ?_⟩
    rw [h.no_hand hbusy hj] at hm
    cases hm
  | puts hpc | handled hpc | drained hpc | filled hpc | got hpc =>
    simp only [KeepsAccounts, hpc]
    trivial
  | read | produced => trivial

theorem cleared (h : Exclusive w) {i : ι} (hpc : w.pc i = .clear) :
    Exclusive (({w with response := []} : State ι).goto i .expect) := by
  have hidle : (w.pc i).Idle := by
    rw [hpc]
    trivial
  have hleft (j : ι) (hj : ¬ ((({w with response := []} : State ι).goto i .expect).pc j).Idle) :
      ¬ (w.pc j).Idle := by
    rw [State.goto_pc, Function.update_apply] at hj
    split at hj
    · exact absurd trivial hj
    · exact hj
  exact of_nil rfl fun j j' hj hj' => h.unique j j' (hleft j hj) (hleft j' hj')

/-- What a session appends is its own: it is the only one whose message is on its way. -/
theorem appended (h : Exclusive w) (haccounts : Accounts w) {i : ι} {m : Message ι} (hpc : w.pc i = .append m) :
    Exclusive (({w with response := w.response ++ [m]} : State ι).goto i .testEmpty) := by
  have hbusy : ¬ (w.pc i).Idle := by
    rw [hpc]
    exact id
  refine h.of_busy hbusy id rfl fun m' hm' j hj => ?_
  rcases List.mem_append.mp hm' with hm' | hm'
  · exact h.owned i hbusy m' hm' j hj
  · obtain ⟨pending, held, hj'⟩ := haccounts j
    rw [List.mem_singleton.mp hm'] at hj
    have hheld : m ∈ held := (hj'.hands m).mpr ⟨hj, i, by rw [hpc]; rfl⟩
    exact h.unique j i (hj'.not_idle (.inl hheld)) hbusy

theorem written_goto (h : Exclusive w) {i : ι} (hpc : w.pc i = .write) :
    Exclusive ((w.reply i).goto i .clear) := by
  have hbusy : ¬ (w.pc i).Idle := by
    rw [hpc]
    exact id
  have hleft (j : ι) : (((w.reply i).goto i .clear).pc j).Idle := by
    rw [State.goto_pc, Function.update_apply]
    split
    · trivial
    · next hj =>
      by_contra hnot
      exact hj (h.unique j i hnot hbusy)
  refine ⟨fun j _ hj => absurd (hleft j) hj, fun j hj => absurd (hleft j) hj, fun _ m hm j hj => ?_⟩
  have hself : ((w.reply i).goto i .clear).channel i = w.channel i ++ w.response := Function.update_self ..
  rw [h.owned i hbusy m hm j hj, hself]
  exact List.mem_append_right _ hm

theorem step (h : Exclusive w) (haccounts : Accounts w) {e : Event ι} (hone : OneAtATime e w)
    (hs : w.step e = some w') : Exclusive w' := by
  have hgoes {i : ι} {pc pc' : Pc ι} (hpc : w.pc i = pc) (hnot : ¬ pc.Idle) (hnot' : ¬ pc'.Idle)
      {w₀ : State ι} (hsame : w₀.pc = w.pc) (hresponse : w₀.response = w.response) :
      Exclusive (w₀.goto i pc') := by
    have hbusy : ¬ (w.pc i).Idle := by rwa [hpc]
    exact h.of_busy hbusy hnot' hsame (hresponse ▸ h.owned i hbusy)
  cases State.step_moves hs with
  | cleared hpc => exact h.cleared hpc
  | @read i input hpc =>
    have hidle : (w.pc i).Idle := by
      rw [hpc]
      trivial
    cases input with
    | skip | quit => exact h.of_idle hidle trivial
    | command messages =>
      obtain ⟨hnil, hothers⟩ := hone
      have honly (j : ι) (hj : ¬ ((w.goto i (.puts messages)).pc j).Idle) : j = i := by
        by_contra hne
        rw [State.goto_pc, Function.update_of_ne hne] at hj
        exact hj (hothers j hne)
      exact of_nil hnil fun j j' hj hj' => (honly j hj).trans (honly j' hj').symm
  | puts hpc => exact hgoes hpc id id rfl rfl
  | handled hpc => exact hgoes hpc id id rfl rfl
  | drained hpc => exact hgoes hpc id id rfl rfl
  | filled hpc => exact hgoes hpc id id rfl rfl
  | got hpc => exact hgoes hpc id id rfl rfl
  | appended hpc => exact h.appended haccounts hpc
  | written hpc => exact h.written_goto hpc
  | produced => exact ⟨h.unique, h.owned, h.written⟩

end Exclusive

/-- **Replies go to the session that asked**, in every run with one session at a
time: what a session's commands put is written to no other session, to its own in
the order it was put, and all of it by the time it is back at its prompt. -/
theorem replies_delivered (w : State ι) (h : (server ι).Reach OneAtATime w) (i : ι) :
    (∀ j ≠ i, own i (w.channel j) = []) ∧ own i (w.channel i) <+: w.put i ∧ (w.put i).Nodup ∧
      ((w.pc i).Idle → own i (w.channel i) = w.put i) := by
  have hinv : Accounts w ∧ Exclusive w := by
    refine h.invariant (I := fun w => Accounts w ∧ Exclusive w) ?_ fun e w w' hI ha hs => ?_
    · rintro w rfl
      exact ⟨init_accounts, init_exclusive⟩
    · exact ⟨hI.1.step (hI.2.keepsAccounts ha hs) hs, hI.2.step hI.1 ha hs⟩
  obtain ⟨pending, held, hi⟩ := hinv.1 i
  refine ⟨hi.elsewhere, ⟨pending ++ held ++ own i w.queue, ?_⟩, hi.put ▸ hi.nodup, fun hidle => ?_⟩
  · rw [hi.put]
    simp only [List.append_assoc]
  · obtain ⟨rfl, rfl, hqueue⟩ := hi.idle hidle
    rw [hi.put, hqueue]
    simp only [List.append_nil]

/-! ### Two sessions -/

instance (pc : Pc ι) : Decidable pc.Idle := by
  unfold Pc.Idle
  split <;> infer_instance

instance (e : Event (Fin 2)) (w : State (Fin 2)) : Decidable (OneAtATime e w) := by
  unfold OneAtATime
  split <;> infer_instance

/-- The first message of a session. -/
def firstMessage (session : ι) : Message ι := ⟨some session, 0, "a\n".toList⟩

/-- Session 0 has cleared the response when session 1 starts its command. -/
theorem replies_delivered_twoSessions : ∃ w : State (Fin 2),
    w.channel 0 = [firstMessage 0] ∧ w.channel 1 = [firstMessage 1] ∧ (∀ j ≠ 0, own 0 (w.channel j) = []) ∧
      own 0 (w.channel 0) <+: w.put 0 ∧ (w.put 0).Nodup ∧ ((w.pc 0).Idle → own 0 (w.channel 0) = w.put 0) := by
  obtain ⟨w, hw, hchannel⟩ := (server_initial (Fin 2) OneAtATime).exists_of_run
    (commandRun 0 ["a\n".toList] ++ List.replicate 6 (.session 0) ++ commandRun 1 ["a\n".toList] ++
      List.replicate 5 (.session 1))
    (fun w => w.channel 0 = [firstMessage 0] ∧ w.channel 1 = [firstMessage 1]) (by decide +kernel)
  exact ⟨w, hchannel.1, hchannel.2, replies_delivered w hw 0⟩

/-- Both sessions have put a message when session 1 drains the queue: it writes both,
and session 0 is back at its prompt without its own. -/
theorem twoSessions_crossed : ∃ w : State (Fin 2), (server (Fin 2)).Reachable w ∧
    own 0 (w.channel 1) = [firstMessage 0] ∧ w.put 0 = [firstMessage 0] ∧ w.channel 0 = [] ∧ w.pc 0 = .clear := by
  obtain ⟨w, hw, h⟩ := (server_initial (Fin 2) System.any).exists_of_run
    (commandRun 0 ["a\n".toList] ++ commandRun 1 ["b\n".toList] ++ List.replicate 9 (.session 1) ++
      List.replicate 2 (.session 0))
    (fun w => own 0 (w.channel 1) = [firstMessage 0] ∧ w.put 0 = [firstMessage 0] ∧ w.channel 0 = [] ∧ w.pc 0 = .clear)
    (by decide +kernel)
  exact ⟨w, hw, h⟩

end Idic.IpmiSim.Sshsrv
