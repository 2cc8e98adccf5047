import Idic.Ipmi.Network

/-! Which interface is in which bridge.

The number of an interface is its place in what `find` lists, while an interface that is
in a bridge stays there. So the first run settles everything: `ownBridges_iff` says when
it leaves every interface in a bridge of its own. -/
namespace Idic.Ipmi.Startcmd
open Python Shell

def eth0 : Str := "eth0".toList

/-- The interfaces that are listed. -/
def eths (net : Net) : List Str := networkInterfaceList "eth".toList net

/-- What `rc` leaves: `eth0` is in `br0`, and there is no other bridge. -/
structure Boot (net : Net) : Prop where
  distinct : net.interfaces.Nodup
  eth0_mem : eth0 ∈ net.interfaces
  noBridge : ∀ d ∈ net.interfaces, ¬"br".toList <+: d
  bridges : net.bridges = [bridgeName 0]
  ports : net.ports = [(bridgeName 0, eth0)]

/-- Every interface is in exactly one of the bridges that a virtual interface is
attached to, and each of these is there and has exactly one interface. -/
structure OwnBridges (net : Net) : Prop where
  one : ∀ x ∈ eths net, ∃! i, i < (eths net).length ∧ (bridgeName i, x) ∈ net.ports
  bridge : ∀ i < (eths net).length, bridgeName i ∈ net.bridges
  alone : ∀ i < (eths net).length, ∃! x, x ∈ eths net ∧ (bridgeName i, x) ∈ net.ports

/-! ### One interface -/

/-- A device is a bridge if and only if it is named so. -/
structure Wired (net : Net) : Prop where
  noBridge : ∀ d ∈ net.interfaces, ¬"br".toList <+: d
  named : ∀ b ∈ net.bridges, "br".toList <+: b

section Step
variable {net : Net} {n : Str}

theorem Boot.wired (h : Boot net) : Wired net where
  noBridge := h.noBridge
  named := by
    rw [h.bridges]
    intro b hb
    rw [List.mem_singleton.mp hb]
    exact prefix_bridgeName 0

theorem mem_networkInterfaceList {intPrefix d : Str} (hne : intPrefix ≠ []) :
    d ∈ networkInterfaceList intPrefix net ↔ (d ∈ net.interfaces ∨ d ∈ net.bridges) ∧ intPrefix <+: d := by
  rw [networkInterfaceList, if_neg hne, List.mem_filter, List.mem_append, List.isPrefixOf_iff_prefix]

theorem Wired.checkBridge_iff (h : Wired net) (i : Nat) :
    checkBridge (bridgeName i) net = true ↔ bridgeName i ∈ net.bridges := by
  rw [checkBridge, List.contains_iff_mem, mem_networkInterfaceList (by decide)]
  constructor
  · rintro ⟨hmem | hmem, hprefix⟩
    · exact absurd hprefix (h.noBridge _ hmem)
    · exact hmem
  · intro hmem
    exact ⟨.inr hmem, prefix_bridgeName i⟩

theorem Wired.eths_eq (h : Wired net) : eths net = net.interfaces.filter fun d => "eth".toList.isPrefixOf d := by
  have hbridges : net.bridges.filter (fun d => "eth".toList.isPrefixOf d) = [] := by
    rw [List.filter_eq_nil_iff]
    intro b hb
    obtain ⟨t, rfl⟩ := h.named b hb
    rintro ⟨⟩
  rw [eths, networkInterfaceList, if_neg (by decide), List.filter_append, hbridges, List.append_nil]

/-- The interfaces that are listed are no bridges. -/
theorem Wired.mem_eths (h : Wired net) : n ∈ eths net ↔ n ∈ net.interfaces ∧ "eth".toList <+: n := by
  rw [h.eths_eq, List.mem_filter, List.isPrefixOf_iff_prefix]

theorem Wired.eths_of_interfaces {net' : Net} (h : Wired net) (h' : Wired net')
    (hsame : net'.interfaces = net.interfaces) : eths net' = eths net := by
  rw [h.eths_eq, h'.eths_eq, hsame]

/-- The bridges with one of this name. -/
def withBridge (i : Nat) (net : Net) : List Str :=
  if net.bridges.contains (bridgeName i) then net.bridges else net.bridges ++ [bridgeName i]

theorem mem_withBridge {i : Nat} {b : Str} : b ∈ withBridge i net ↔ b ∈ net.bridges ∨ b = bridgeName i := by
  unfold withBridge
  split
  · next h =>
    constructor
    · exact .inl
    · rintro (hb | rfl)
      · exact hb
      · exact List.contains_iff_mem.mp h
  · rw [List.mem_append, List.mem_singleton]

theorem Wired.addBridge (h : Wired net) (i : Nat) :
    (if checkBridge (bridgeName i) net then net else brctlAddbr (bridgeName i) net) =
      {net with bridges := withBridge i net} := by
  rw [withBridge]
  split
  · next hcheck => rw [if_pos (List.contains_iff_mem.mpr ((h.checkBridge_iff i).mp hcheck))]
  · next hcheck =>
    have hbridges : bridgeName i ∉ net.bridges := fun hmem => hcheck ((h.checkBridge_iff i).mpr hmem)
    have hdevices : bridgeName i ∉ net.interfaces ++ net.bridges := by
      rw [List.mem_append]
      rintro (hmem | hmem)
      · exact h.noBridge _ hmem (prefix_bridgeName i)
      · exact hbridges hmem
    rw [brctlAddbr_of_new hdevices, if_neg fun hcontains => hbridges (List.contains_iff_mem.mp hcontains)]

theorem Wired.bridged (h : Wired net) (i : Nat) (ports : List (Str × Str)) :
    Wired ⟨net.interfaces, withBridge i net, ports⟩ where
  noBridge := h.noBridge
  named b hb := by
    rcases mem_withBridge.mp hb with hb | rfl
    · exact h.named b hb
    · exact prefix_bridgeName i

theorem Wired.checkInterface_iff (h : Wired net) {i : Nat} (hbridge : bridgeName i ∈ net.bridges) (hn : n ≠ []) :
    checkInterface (bridgeName i) n net = true ↔ (bridgeName i, n) ∈ net.ports := by
  rw [checkInterface, if_neg (by simp [bridgeName_ne_nil, hn]), List.contains_iff_mem, bindedIntefaceListOnBridge,
    if_neg (bridgeName_ne_nil i), (h.checkBridge_iff i).mpr hbridge, Bool.not_true, if_neg Bool.false_ne_true,
    List.mem_map]
  constructor
  · rintro ⟨⟨br, n'⟩, hmem, rfl⟩
    obtain ⟨hport, hbr⟩ := List.mem_filter.mp hmem
    rw [← of_decide_eq_true hbr]
    exact hport
  · intro hport
    exact ⟨_, List.mem_filter.mpr ⟨hport, decide_eq_true rfl⟩, rfl⟩

/-- The bridge is there afterwards, and the interface is in it if it was in none. -/
theorem Wired.addIntfToBridge_eq (h : Wired net) (i : Nat) (hn : n ∈ eths net) :
    addIntfToBridge (bridgeName i) n net = ⟨net.interfaces, withBridge i net,
      if n ∈ net.ports.map Prod.snd then net.ports else net.ports ++ [(bridgeName i, n)]⟩ := by
  obtain ⟨hdevice, hprefix⟩ := h.mem_eths.mp hn
  have hne : n ≠ [] := by
    rintro rfl
    exact absurd (List.prefix_nil.mp hprefix) (by decide)
  have hbridge : bridgeName i ∈ withBridge i net := mem_withBridge.mpr (.inr rfl)
  have hcheck := (h.bridged i net.ports).checkInterface_iff hbridge hne
  rw [addIntfToBridge, if_neg (by simp [bridgeName_ne_nil, hne])]
  simp only [h.addBridge i]
  by_cases hport : n ∈ net.ports.map Prod.snd
  · rw [if_pos hport]
    split
    · rfl
    · exact brctlAddif_of_mem _ hport
  · have hnot : (bridgeName i, n) ∉ net.ports := fun hmem => hport (List.mem_map_of_mem hmem)
    rw [if_neg hport, if_neg fun htrue => hnot (hcheck.mp htrue)]
    exact brctlAddif_of_free hbridge hdevice hport

end Step

/-! ### A run -/

section Run
variable {net : Net} {order : List Str}

/-- What a run leaves from the number `i` on: the bridges of its numbers, and in each the
interface of that number, if it was in none before. -/
structure Settles (i : Nat) (order : List Str) (net net' : Net) : Prop where
  wired : Wired net'
  interfaces : net'.interfaces = net.interfaces
  bridges : ∀ b, b ∈ net'.bridges ↔ b ∈ net.bridges ∨ ∃ k < order.length, b = bridgeName (i + k)
  ports : ∀ b x, (b, x) ∈ net'.ports ↔
    (b, x) ∈ net.ports ∨ x ∉ net.ports.map Prod.snd ∧ ∃ k, order[k]? = some x ∧ b = bridgeName (i + k)

/-- The interface of the number `i`, and those behind it. -/
theorem numbered_cons (i : Nat) (n x b : Str) (rest : List Str) :
    (∃ k, (n :: rest)[k]? = some x ∧ b = bridgeName (i + k)) ↔
      n = x ∧ b = bridgeName i ∨ ∃ k, rest[k]? = some x ∧ b = bridgeName (i + 1 + k) := by
  have hshift : ∀ k, i + 1 + k = i + (k + 1) := by omega
  rw [← Nat.or_exists_add_one]
  simp only [hshift, List.getElem?_cons_succ, List.getElem?_cons_zero, Option.some.injEq, Nat.add_zero]

/-- After a run the interfaces of the run are in bridges too. -/
theorem Settles.inBridge_iff {net' : Net} {i : Nat} (h : Settles i order net net') (x : Str) :
    x ∈ net'.ports.map Prod.snd ↔ x ∈ net.ports.map Prod.snd ∨ x ∈ order := by
  have hholds (ports : List (Str × Str)) : x ∈ ports.map Prod.snd ↔ ∃ b, (b, x) ∈ ports := by simp
  constructor
  · intro hx
    obtain ⟨b, hb⟩ := (hholds _).mp hx
    rcases (h.ports b x).mp hb with hold | ⟨-, k, hk, -⟩
    · exact .inl ((hholds _).mpr ⟨b, hold⟩)
    · exact .inr (List.mem_of_getElem? hk)
  · intro hx
    by_cases hold : x ∈ net.ports.map Prod.snd
    · obtain ⟨b, hb⟩ := (hholds _).mp hold
      exact (hholds _).mpr ⟨b, (h.ports b x).mpr (.inl hb)⟩
    · obtain ⟨k, hk⟩ := List.mem_iff_getElem?.mp (hx.resolve_left hold)
      exact (hholds _).mpr ⟨_, (h.ports _ x).mpr (.inr ⟨hold, k, hk, rfl⟩)⟩

/-- One interface, and a run over others from the next number on. -/
theorem Settles.cons {net' net'' : Net} {i : Nat} {n : Str} (h : Settles i [n] net net')
    (hrest : Settles (i + 1) order net' net'') (hfresh : n ∉ order) : Settles i (n :: order) net net'' where
  wired := hrest.wired
  interfaces := hrest.interfaces.trans h.interfaces
  bridges b := by
    have hshift : ∀ k, i + 1 + k = i + (k + 1) := by omega
    rw [hrest.bridges, h.bridges]
    constructor
    · rintro ((hb | ⟨k, hk, rfl⟩) | ⟨k, hk, rfl⟩)
      · exact .inl hb
      · exact .inr ⟨k, Nat.lt_of_lt_of_le hk (Nat.succ_le_succ (Nat.zero_le _)), rfl⟩
      · exact .inr ⟨k + 1, Nat.succ_lt_succ hk, by rw [hshift]⟩
    · rintro (hb | ⟨_ | k, hk, rfl⟩)
      · exact .inl (.inl hb)
      · exact .inl (.inr ⟨0, Nat.zero_lt_one, rfl⟩)
      · exact .inr ⟨k, Nat.lt_of_succ_lt_succ hk, by rw [hshift]⟩
  ports b x := by
    rw [hrest.ports, h.ports, h.inBridge_iff, numbered_cons, numbered_cons, List.mem_singleton]
    constructor
    · rintro ((hold | ⟨hx, hn | ⟨k, hk, -⟩⟩) | ⟨hx, hlater⟩)
      · exact .inl hold
      · exact .inr ⟨hx, .inl hn⟩
      · cases hk
      · exact .inr ⟨fun hold => hx (.inl hold), .inr hlater⟩
    · rintro (hold | ⟨hx, hn | ⟨k, hk, rfl⟩⟩)
      · exact .inl (.inl hold)
      · exact .inl (.inr ⟨hx, .inl hn⟩)
      · refine .inr ⟨?_, k, hk, rfl⟩
        rintro (hold | rfl)
        · exact hx hold
        · exact hfresh (List.mem_of_getElem? hk)

theorem Wired.addIntfToBridge_settles (h : Wired net) (i : Nat) {n : Str} (hn : n ∈ eths net) :
    Settles i [n] net (addIntfToBridge (bridgeName i) n net) := by
  rw [h.addIntfToBridge_eq i hn]
  refine ⟨h.bridged i _, rfl, fun b => ?_, fun b x => ?_⟩
  · rw [mem_withBridge]
    simp
  · rw [numbered_cons]
    by_cases hport : n ∈ net.ports.map Prod.snd
    · rw [if_pos hport]
      constructor
      · exact .inl
      · rintro (hold | ⟨hx, ⟨rfl, -⟩ | ⟨k, hk, -⟩⟩)
        · exact hold
        · exact absurd hport hx
        · cases hk
    · rw [if_neg hport, List.mem_append, List.mem_singleton, Prod.mk.injEq]
      constructor
      · rintro (hold | ⟨rfl, rfl⟩)
        · exact .inl hold
        · exact .inr ⟨hport, .inl ⟨rfl, rfl⟩⟩
      · rintro (hold | ⟨hx, ⟨rfl, rfl⟩ | ⟨k, hk, -⟩⟩)
        · exact .inl hold
        · exact .inr ⟨rfl, rfl⟩
        · cases hk

theorem Wired.addAll_settles (h : Wired net) (hmem : ∀ n ∈ order, n ∈ eths net) (hdistinct : order.Nodup)
    (i : Nat) : Settles i order net (addAll i order net) := by
  induction order generalizing i net with
  | nil => exact ⟨h, rfl, by simp [addAll], by simp [addAll]⟩
  | cons n rest ih =>
    obtain ⟨hn, hrest⟩ := List.forall_mem_cons.mp hmem
    obtain ⟨hfresh, hdistinct⟩ := List.nodup_cons.mp hdistinct
    have hone := h.addIntfToBridge_settles i hn
    have heths := h.eths_of_interfaces hone.wired hone.interfaces
    exact hone.cons (ih hone.wired (by rwa [heths]) hdistinct (i + 1)) hfresh

/-- Where every interface is in a bridge, a run changes nothing. -/
theorem Wired.addAll_settled (h : Wired net) (hmem : ∀ n ∈ order, n ∈ eths net) {i : Nat}
    (hbridges : ∀ k < order.length, bridgeName (i + k) ∈ net.bridges)
    (hports : ∀ n ∈ order, n ∈ net.ports.map Prod.snd) : addAll i order net = net := by
  induction order generalizing i with
  | nil => rfl
  | cons n rest ih =>
    obtain ⟨hn, hrest⟩ := List.forall_mem_cons.mp hmem
    obtain ⟨hport, hports⟩ := List.forall_mem_cons.mp hports
    have hbridge : bridgeName i ∈ net.bridges := hbridges 0 (Nat.zero_lt_succ _)
    rw [addAll, h.addIntfToBridge_eq i hn, if_pos hport, withBridge, if_pos (List.contains_iff_mem.mpr hbridge)]
    refine ih hrest (fun k hk => ?_) hports
    have hlater := hbridges (k + 1) (Nat.succ_lt_succ hk)
    rwa [show i + (k + 1) = i + 1 + k by omega] at hlater

end Run

/-! ### From the boot on -/

section Runs
variable (suffix : Str → Str) {host : Host} {order : List Str}

theorem Boot.distinct_eths (h : Boot host.net) : (eths host.net).Nodup := by
  rw [h.wired.eths_eq]
  exact h.distinct.filter _

theorem Boot.run_settles (h : Boot host.net) (horder : order.Perm (eths host.net)) :
    Settles 0 order host.net (run suffix host order).net := by
  rw [run_net]
  exact h.wired.addAll_settles (fun n hn => horder.mem_iff.mp hn) (horder.nodup_iff.mpr h.distinct_eths) 0

/-- The first run: an interface goes to the bridge of its number, except `eth0`. -/
theorem Boot.run_ports (h : Boot host.net) (horder : order.Perm (eths host.net)) (b x : Str) :
    (b, x) ∈ (run suffix host order).net.ports ↔
      b = bridgeName 0 ∧ x = eth0 ∨ x ≠ eth0 ∧ ∃ k, order[k]? = some x ∧ b = bridgeName k := by
  rw [(h.run_settles suffix horder).ports, h.ports]
  simp

theorem Boot.eths_run (h : Boot host.net) (horder : order.Perm (eths host.net)) :
    eths (run suffix host order).net = eths host.net :=
  have hsettles := h.run_settles suffix horder
  h.wired.eths_of_interfaces hsettles.wired hsettles.interfaces

theorem Boot.run_bridges (h : Boot host.net) (horder : order.Perm (eths host.net)) :
    ∀ i < (eths host.net).length, bridgeName i ∈ (run suffix host order).net.bridges := by
  intro i hi
  rw [(h.run_settles suffix horder).bridges]
  exact .inr ⟨i, horder.length_eq ▸ hi, by rw [Nat.zero_add]⟩

/-- Where `eth0` is the first, every interface is in the bridge of its number. -/
theorem Boot.run_ports_eth0 (h : Boot host.net) (horder : order.Perm (eths host.net))
    (hfirst : order[0]? = some eth0) (b x : Str) :
    (b, x) ∈ (run suffix host order).net.ports ↔ ∃ k, order[k]? = some x ∧ b = bridgeName k := by
  rw [h.run_ports suffix horder]
  constructor
  · rintro (⟨rfl, rfl⟩ | ⟨-, hk⟩)
    · exact ⟨0, hfirst, rfl⟩
    · exact hk
  · rintro ⟨k, hk, rfl⟩
    by_cases hx : x = eth0
    · obtain ⟨hlt, -⟩ := List.getElem?_eq_some_iff.mp hk
      have hzero : k = 0 := (List.getElem?_inj hlt (horder.nodup_iff.mpr h.distinct_eths)).mp (by rw [hk, hfirst, hx])
      exact .inl ⟨by rw [hzero], hx⟩
    · exact .inr ⟨hx, k, hk, rfl⟩

/-- Where another interface is the first, it is in `br0` besides `eth0`. -/
theorem Boot.eth0_first (h : Boot host.net) (horder : order.Perm (eths host.net))
    (hown : OwnBridges (run suffix host order).net) : order[0]? = some eth0 := by
  have heth0 : eth0 ∈ order := horder.mem_iff.mpr (h.wired.mem_eths.mpr ⟨h.eth0_mem, by decide⟩)
  obtain ⟨x, rest, rfl⟩ := List.exists_cons_of_ne_nil (List.ne_nil_of_mem heth0)
  by_contra hne
  rw [List.getElem?_cons_zero, Option.some.injEq] at hne
  have hx : (bridgeName 0, x) ∈ (run suffix host (x :: rest)).net.ports :=
    (h.run_ports suffix horder _ _).mpr (.inr ⟨hne, 0, rfl, rfl⟩)
  have hold : (bridgeName 0, eth0) ∈ (run suffix host (x :: rest)).net.ports :=
    (h.run_ports suffix horder _ _).mpr (.inl ⟨rfl, rfl⟩)
  have hpos : 0 < (eths (run suffix host (x :: rest)).net).length := by
    rw [h.eths_run suffix horder, ← horder.length_eq]
    exact Nat.zero_lt_succ _
  have halone := hown.alone 0 hpos
  rw [h.eths_run suffix horder] at halone
  exact hne (halone.unique ⟨horder.mem_iff.mp (List.mem_cons_self ..), hx⟩ ⟨horder.mem_iff.mp heth0, hold⟩)

theorem Boot.ownBridges_run (h : Boot host.net) (horder : order.Perm (eths host.net))
    (hfirst : order[0]? = some eth0) : OwnBridges (run suffix host order).net := by
  have hdistinct : order.Nodup := horder.nodup_iff.mpr h.distinct_eths
  have hports := h.run_ports_eth0 suffix horder hfirst
  refine ⟨fun x hx => ?_, ?_, fun i hi => ?_⟩
  · rw [h.eths_run suffix horder] at hx ⊢
    obtain ⟨k, hk, rfl⟩ := List.mem_iff_getElem.mp (horder.mem_iff.mpr hx)
    refine ⟨k, ⟨horder.length_eq ▸ hk, (hports _ _).mpr ⟨k, List.getElem?_eq_getElem hk, rfl⟩⟩, ?_⟩
    rintro i ⟨-, hi⟩
    obtain ⟨k', hk', hname⟩ := (hports _ _).mp hi
    rw [bridgeName_injective hname]
    exact ((List.getElem?_inj hk hdistinct).mp (by rw [hk', List.getElem?_eq_getElem hk])).symm
  · rw [h.eths_run suffix horder]
    exact h.run_bridges suffix horder
  · rw [h.eths_run suffix horder] at hi ⊢
    have hlt : i < order.length := horder.length_eq ▸ hi
    have hget := List.getElem?_eq_getElem hlt
    refine ⟨order[i], ⟨horder.mem_iff.mp (List.getElem_mem hlt), (hports _ _).mpr ⟨i, hget, rfl⟩⟩, ?_⟩
    rintro y ⟨-, hy⟩
    obtain ⟨k, hk, hname⟩ := (hports _ _).mp hy
    rw [← bridgeName_injective hname, hget] at hk
    exact (Option.some.inj hk).symm

theorem Boot.ownBridges_run_iff (h : Boot host.net) (horder : order.Perm (eths host.net)) :
    OwnBridges (run suffix host order).net ↔ order[0]? = some eth0 :=
  ⟨h.eth0_first suffix horder, h.ownBridges_run suffix horder⟩

/-- The runs behind the first one change nothing. -/
theorem Boot.later_runs (h : Boot host.net) (horder : order.Perm (eths host.net)) {orders : List (List Str)}
    (horders : ∀ order ∈ orders, order.Perm (eths host.net)) {later : Host}
    (hlater : later.net = (run suffix host order).net) :
    (orders.foldl (run suffix) later).net = (run suffix host order).net := by
  have hsettles := h.run_settles suffix horder
  induction orders generalizing later with
  | nil => exact hlater
  | cons next orders ih =>
    obtain ⟨hnext, horders⟩ := List.forall_mem_cons.mp horders
    refine ih horders ?_
    rw [run_net, hlater]
    refine hsettles.wired.addAll_settled (fun n hn => ?_) (fun k hk => ?_) (fun n hn => ?_)
    · rw [h.eths_run suffix horder]
      exact hnext.mem_iff.mp hn
    · rw [Nat.zero_add]
      exact h.run_bridges suffix horder k (hnext.length_eq ▸ hk)
    · obtain ⟨k, hk, rfl⟩ := List.mem_iff_getElem.mp (horder.mem_iff.mpr (hnext.mem_iff.mp hn))
      by_cases heth0 : order[k] = eth0
      · exact List.mem_map_of_mem (f := Prod.snd) ((h.run_ports suffix horder _ _).mpr (.inl ⟨rfl, heth0⟩))
      · exact List.mem_map_of_mem (f := Prod.snd)
          ((h.run_ports suffix horder _ _).mpr (.inr ⟨heth0, k, List.getElem?_eq_getElem hk, rfl⟩))

/-- **Every interface has a bridge of its own** after each run from the boot on, in
whatever order the runs list the interfaces, if and only if the first run lists `eth0`
first. -/
theorem ownBridges_iff (h : Boot host.net) (orders : List (List Str))
    (horders : ∀ order ∈ orders, order.Perm (eths host.net)) :
    (∀ k < orders.length, OwnBridges ((orders.take (k + 1)).foldl (run suffix) host).net) ↔
      ∀ order ∈ orders.head?, order[0]? = some eth0 := by
  cases orders with
  | nil => simp
  | cons first later =>
    obtain ⟨hfirst, hlater⟩ := List.forall_mem_cons.mp horders
    have hafter : ∀ k, (((first :: later).take (k + 1)).foldl (run suffix) host).net =
        (run suffix host first).net := fun k =>
      h.later_runs suffix hfirst (fun order hmem => hlater order (List.mem_of_mem_take hmem)) rfl
    simp only [hafter, h.ownBridges_run_iff suffix hfirst, List.head?_cons, Option.mem_some_iff, forall_eq']
    exact ⟨fun hall => hall 0 (Nat.zero_lt_succ _), fun heth0 _ _ => heth0⟩

end Runs

/-- A host with two interfaces. -/
def twoNics : Host := ⟨⟨[eth0, "eth1".toList], [bridgeName 0], [(bridgeName 0, eth0)]⟩, none, some [], []⟩

theorem twoNics_boot : Boot twoNics.net where
  distinct := by decide
  eth0_mem := by decide
  noBridge := by decide
  bridges := rfl
  ports := rfl

/-- Two runs, of which the first lists `eth0` first. -/
theorem twoNics_ownBridges : Boot twoNics.net ∧
    ∀ k < 2, OwnBridges (([[eth0, "eth1".toList], ["eth1".toList, eth0]].take (k + 1)).foldl
      (run fun _ => "00:01".toList) twoNics).net :=
  ⟨twoNics_boot, (ownBridges_iff _ twoNics_boot [[eth0, "eth1".toList], ["eth1".toList, eth0]] (by decide)).mpr
    (by decide)⟩

/-- Where `eth1` is listed first, it joins `eth0` in `br0`, and `br1` stays empty. -/
theorem eth1_first_shares : Boot twoNics.net ∧ ["eth1".toList, eth0].Perm (eths twoNics.net) ∧
    let after := (run (fun _ => "00:01".toList) twoNics ["eth1".toList, eth0]).net
    after.bridges = [bridgeName 0, bridgeName 1] ∧
    after.ports = [(bridgeName 0, eth0), (bridgeName 0, "eth1".toList)] ∧ ¬OwnBridges after := by
  refine ⟨twoNics_boot, by decide, by decide, by decide, fun hown => ?_⟩
  have halone := hown.alone 0 (by decide)
  have hsame : eth0 = "eth1".toList := halone.unique (by decide) (by decide)
  exact absurd hsame (by decide)

end Idic.Ipmi.Startcmd
