import GlendaDrivers.Platform.Dtb

/-!
# Power control from the device tree (`platform/dtb/src/driver.rs`, `server.rs`)

`init` looks at all nodes of the tree; each match sets flags, and overwrites the method.

* `detectPower`: the loop over the nodes;
* `handleOff`, `handleReboot`: the requests;
* `PowerMatch`, `detectPower_eq`: the matches, and their effect one after the other;
* `Reordered`: the same nodes in another order;
* `power_honoured`: when the order does not matter and every implemented method is honoured.
-/

namespace GlendaDrivers

/-! ### The driver -/

/-- `PowerMethod`. -/
inductive PowerMethod
  | sbi
  | psci
  | gpio
  | syscon
  | none
  deriving DecidableEq

/-- What `DtbDriver` knows about power. -/
structure PowerControl where
  hasPowerOff : Bool
  hasReboot : Bool
  powerMethod : PowerMethod
  deriving DecidableEq

/-- `DtbDriver::new`. -/
def PowerControl.new : PowerControl := ⟨false, false, .none⟩

/-- One compatible string of a node. -/
def detectCompatible (p : PowerControl) (c : String) : PowerControl :=
  if c = "psci" then { p with hasPowerOff := true, hasReboot := true, powerMethod := .psci }
  else if c = "gpio-poweroff" then { p with hasPowerOff := true, powerMethod := .gpio }
  else if c = "gpio-restart" then { p with hasReboot := true, powerMethod := .gpio }
  else if c = "syscon-reboot" then { p with hasReboot := true, powerMethod := .syscon }
  else p

/-- `node.name == "sbi" || node.name.starts_with("sbi@")`. -/
def NodeView.IsSbi (node : NodeView) : Prop :=
  node.name = "sbi" ∨ "sbi@".toList <+: node.name.toList

instance : DecidablePred NodeView.IsSbi := fun node =>
  inferInstanceAs (Decidable (node.name = "sbi" ∨ "sbi@".toList <+: node.name.toList))

/-- One node. -/
def detectNode (p : PowerControl) (node : NodeView) : PowerControl :=
  let p := match node.compatible with
    | none => p
    | some comp => comp.foldl detectCompatible p
  if node.IsSbi then { p with hasPowerOff := true, hasReboot := true, powerMethod := .sbi } else p

/-- The loop of `init` over `fdt.all_nodes()`. -/
def detectPower (nodes : List NodeView) : PowerControl := nodes.foldl detectNode .new

/-- A request that needs a flag, and that is implemented for some methods. -/
def handlePower (flag : Bool) (implemented : List PowerMethod) (method : PowerMethod) :
    Except Error Unit :=
  if flag = false then .error .notSupported
  else if method ∈ implemented then .ok ()
  else .error .notSupported

/-- `handle_off`. -/
def PowerControl.handleOff (p : PowerControl) : Except Error Unit :=
  handlePower p.hasPowerOff [.sbi, .psci] p.powerMethod

/-- `handle_reboot`. -/
def PowerControl.handleReboot (p : PowerControl) : Except Error Unit :=
  handlePower p.hasReboot [.sbi, .psci, .syscon] p.powerMethod

/-! ### Matches -/

/-- What `init` can find. -/
inductive PowerMatch
  | psci
  | gpioPoweroff
  | gpioRestart
  | sysconReboot
  | sbi
  deriving DecidableEq

namespace PowerMatch

def setsPowerOff : PowerMatch → Bool
  | psci | gpioPoweroff | sbi => true
  | gpioRestart | sysconReboot => false

def setsReboot : PowerMatch → Bool
  | psci | gpioRestart | sysconReboot | sbi => true
  | gpioPoweroff => false

def method : PowerMatch → PowerMethod
  | psci => .psci
  | gpioPoweroff | gpioRestart => .gpio
  | sysconReboot => .syscon
  | sbi => .sbi

/-- The compatible string that is looked for. -/
def text : PowerMatch → Option String
  | psci => some "psci"
  | gpioPoweroff => some "gpio-poweroff"
  | gpioRestart => some "gpio-restart"
  | sysconReboot => some "syscon-reboot"
  | sbi => none

/-- The match of a compatible string. -/
def ofCompatible (c : String) : Option PowerMatch :=
  if c = "psci" then some psci
  else if c = "gpio-poweroff" then some gpioPoweroff
  else if c = "gpio-restart" then some gpioRestart
  else if c = "syscon-reboot" then some sysconReboot
  else none

theorem ofCompatible_eq_some {c : String} {m : PowerMatch} :
    ofCompatible c = some m ↔ m.text = some c := by
  unfold ofCompatible
  split_ifs with h₁ h₂ h₃ h₄ <;> cases m <;> simp_all [text, eq_comm]

end PowerMatch

/-- The effect of a match. -/
def PowerControl.found (p : PowerControl) (m : PowerMatch) : PowerControl where
  hasPowerOff := p.hasPowerOff || m.setsPowerOff
  hasReboot := p.hasReboot || m.setsReboot
  powerMethod := m.method

namespace NodeView

/-- The compatible strings of a node. -/
def strings (node : NodeView) : List String := node.compatible.getD []

/-- The matches of a node, in the order in which they are found. -/
def powerMatches (node : NodeView) : List PowerMatch :=
  node.strings.filterMap PowerMatch.ofCompatible ++ if node.IsSbi then [.sbi] else []

theorem mem_powerMatches {node : NodeView} {m : PowerMatch} : m ∈ node.powerMatches ↔
    (∃ c ∈ node.strings, PowerMatch.ofCompatible c = some m) ∨ node.IsSbi ∧ m = .sbi := by
  unfold powerMatches
  rw [List.mem_append, List.mem_filterMap]
  refine or_congr Iff.rfl ?_
  split_ifs with hsbi <;> simp [hsbi]

theorem mem_powerMatches_text {node : NodeView} {m : PowerMatch} {c : String}
    (h : m.text = some c) : m ∈ node.powerMatches ↔ c ∈ node.strings := by
  rw [mem_powerMatches]
  simp only [PowerMatch.ofCompatible_eq_some, h, Option.some.injEq]
  constructor
  · rintro (⟨c', hc', rfl⟩ | ⟨-, rfl⟩)
    · exact hc'
    · cases h
  · exact fun hc => Or.inl ⟨c, hc, rfl⟩

theorem sbi_mem_powerMatches {node : NodeView} : .sbi ∈ node.powerMatches ↔ node.IsSbi := by
  rw [mem_powerMatches]
  simp [PowerMatch.ofCompatible_eq_some, PowerMatch.text]

end NodeView

theorem detectCompatible_eq (p : PowerControl) (c : String) :
    detectCompatible p c = (PowerMatch.ofCompatible c).elim p p.found := by
  unfold detectCompatible PowerMatch.ofCompatible
  split_ifs <;> simp [PowerControl.found, PowerMatch.setsPowerOff, PowerMatch.setsReboot,
    PowerMatch.method]

theorem foldl_detectCompatible (p : PowerControl) (comp : List String) :
    comp.foldl detectCompatible p =
      (comp.filterMap PowerMatch.ofCompatible).foldl PowerControl.found p := by
  induction comp generalizing p with
  | nil => rfl
  | cons c comp ih =>
    rw [List.foldl_cons, ih, detectCompatible_eq]
    cases hc : PowerMatch.ofCompatible c with
    | none => rw [List.filterMap_cons_none hc]; rfl
    | some m => rw [List.filterMap_cons_some hc]; rfl

theorem detectNode_eq (p : PowerControl) (node : NodeView) :
    detectNode p node = node.powerMatches.foldl PowerControl.found p := by
  have hcomp : (match node.compatible with
      | none => p
      | some comp => comp.foldl detectCompatible p) =
        (node.strings.filterMap PowerMatch.ofCompatible).foldl PowerControl.found p := by
    unfold NodeView.strings
    cases node.compatible with
    | none => rfl
    | some comp => exact foldl_detectCompatible p comp
  unfold detectNode NodeView.powerMatches
  rw [hcomp, List.foldl_append]
  split_ifs
  · simp [PowerControl.found, PowerMatch.setsPowerOff, PowerMatch.setsReboot, PowerMatch.method]
  · rfl

/-- The matches take effect one after the other. -/
theorem detectPower_eq (nodes : List NodeView) :
    detectPower nodes = (nodes.flatMap NodeView.powerMatches).foldl PowerControl.found .new := by
  unfold detectPower
  generalize PowerControl.new = p
  induction nodes generalizing p with
  | nil => rfl
  | cons node nodes ih =>
    rw [List.foldl_cons, ih, detectNode_eq, List.flatMap_cons, List.foldl_append]

/-- The flags accumulate, and the last match gives the method. -/
theorem foldl_found (p : PowerControl) (l : List PowerMatch) : l.foldl PowerControl.found p =
    ⟨p.hasPowerOff || l.any PowerMatch.setsPowerOff, p.hasReboot || l.any PowerMatch.setsReboot,
      (l.getLast?.map PowerMatch.method).getD p.powerMethod⟩ := by
  induction l generalizing p with
  | nil => simp
  | cons m l ih =>
    rw [List.foldl_cons, ih]
    cases l with
    | nil => simp [PowerControl.found]
    | cons m' l => simp [PowerControl.found, Bool.or_assoc, List.getLast?_eq_some_getLast]

/-! ### Other orders -/

/-- The same node, up to the order of its compatible strings. -/
def SameNode (node node' : NodeView) : Prop :=
  node'.name = node.name ∧ node.strings.Perm node'.strings

/-- The same nodes in another order, with their compatible strings in another order. -/
def Reordered (nodes nodes' : List NodeView) : Prop :=
  ∃ mid, nodes.Perm mid ∧ List.Forall₂ SameNode mid nodes'

theorem SameNode.refl (node : NodeView) : SameNode node node := ⟨rfl, List.Perm.refl _⟩

theorem SameNode.isSbi {node node' : NodeView} (h : SameNode node node') :
    node'.IsSbi ↔ node.IsSbi := by
  unfold NodeView.IsSbi
  rw [h.1]

theorem SameNode.mem_powerMatches {node node' : NodeView} (h : SameNode node node')
    (m : PowerMatch) : m ∈ node'.powerMatches ↔ m ∈ node.powerMatches := by
  rw [NodeView.mem_powerMatches, NodeView.mem_powerMatches, h.isSbi]
  simp only [h.2.mem_iff]

namespace Reordered

variable {nodes nodes' : List NodeView}

theorem exists_iff (h : Reordered nodes nodes') {Q : NodeView → Prop}
    (hQ : ∀ node node', SameNode node node' → (Q node' ↔ Q node)) :
    (∃ node ∈ nodes', Q node) ↔ ∃ node ∈ nodes, Q node := by
  obtain ⟨mid, hperm, hsame⟩ := h
  simp only [hperm.mem_iff]
  induction hsame generalizing nodes with
  | nil => exact Iff.rfl
  | cons h _ ih =>
    rw [List.exists_mem_cons_iff, List.exists_mem_cons_iff, hQ _ _ h]
    exact or_congr Iff.rfl (ih (List.Perm.refl _))

/-- A match is found in both orders or in neither. -/
theorem exists_match (h : Reordered nodes nodes') (Q : PowerMatch → Prop) :
    (∃ m ∈ nodes'.flatMap NodeView.powerMatches, Q m) ↔
      ∃ m ∈ nodes.flatMap NodeView.powerMatches, Q m := by
  have hnodes := h.exists_iff (Q := fun node => ∃ m ∈ node.powerMatches, Q m)
    fun node node' hsame => by simp only [hsame.mem_powerMatches]
  simp only [List.mem_flatMap]
  constructor
  · rintro ⟨m, ⟨node, hnode, hm⟩, hQ⟩
    obtain ⟨node', hnode', m', hm', hQ'⟩ := hnodes.mp ⟨node, hnode, m, hm, hQ⟩
    exact ⟨m', ⟨node', hnode', hm'⟩, hQ'⟩
  · rintro ⟨m, ⟨node, hnode, hm⟩, hQ⟩
    obtain ⟨node', hnode', m', hm', hQ'⟩ := hnodes.mpr ⟨node, hnode, m, hm, hQ⟩
    exact ⟨m', ⟨node', hnode', hm'⟩, hQ'⟩

theorem any_eq (h : Reordered nodes nodes') (sets : PowerMatch → Bool) :
    (nodes'.flatMap NodeView.powerMatches).any sets =
      (nodes.flatMap NodeView.powerMatches).any sets := by
  rw [Bool.eq_iff_iff, List.any_eq_true, List.any_eq_true]
  exact h.exists_match _

/-- Any node can come last, and unless it is an SBI node any of its compatible strings. -/
theorem exists_last {node : NodeView} (hnode : node ∈ nodes) (hsbi : ¬node.IsSbi)
    {m : PowerMatch} (hm : m ∈ node.powerMatches) : ∃ nodes', Reordered nodes nodes' ∧
      (nodes'.flatMap NodeView.powerMatches).getLast? = some m := by
  obtain ⟨before, after, rfl⟩ := List.append_of_mem hnode
  obtain ⟨c, hc, hmatch⟩ | ⟨h, -⟩ := NodeView.mem_powerMatches.mp hm
  swap
  · exact absurd h hsbi
  obtain ⟨front, rest, hstrings⟩ := List.append_of_mem hc
  let last : NodeView := { node with compatible := some (front ++ rest ++ [c]) }
  have hlast : SameNode node last := by
    refine ⟨rfl, ?_⟩
    rw [hstrings]
    show (front ++ c :: rest).Perm (front ++ rest ++ [c])
    exact List.perm_middle.trans (List.perm_append_singleton c (front ++ rest)).symm
  refine ⟨before ++ after ++ [last], ⟨before ++ after ++ [node], ?_, ?_⟩, ?_⟩
  · exact List.perm_middle.trans (List.perm_append_singleton node (before ++ after)).symm
  · exact List.rel_append (List.forall₂_same.mpr fun _ _ => SameNode.refl _)
      (List.Forall₂.cons hlast List.Forall₂.nil)
  · have hmatches : last.powerMatches =
        (front ++ rest).filterMap PowerMatch.ofCompatible ++ [m] := by
      unfold NodeView.powerMatches
      rw [if_neg (mt hlast.isSbi.mp hsbi), List.append_nil]
      show (front ++ rest ++ [c]).filterMap PowerMatch.ofCompatible = _
      rw [List.filterMap_append, List.filterMap_cons_some hmatch]
      rfl
    rw [List.flatMap_append, List.flatMap_singleton, hmatches, ← List.append_assoc,
      List.getLast?_append]
    rfl

end Reordered

/-! ### Requests -/

section Requests

variable (implemented : List PowerMethod) {nodes nodes' : List NodeView}

/-- The last match has an implemented method. -/
def Works (nodes : List NodeView) : Prop :=
  ∃ m, (nodes.flatMap NodeView.powerMatches).getLast? = some m ∧ m.method ∈ implemented

/-- Some match has an implemented method. -/
def Offers (nodes : List NodeView) : Prop :=
  ∃ m ∈ nodes.flatMap NodeView.powerMatches, m.method ∈ implemented

/-- No node but SBI nodes has a match with another method. -/
def Unmixed (nodes : List NodeView) : Prop :=
  ∀ node ∈ nodes, ¬node.IsSbi → ∀ m ∈ node.powerMatches, m.method ∈ implemented

theorem Works.offers (h : Works implemented nodes) : Offers implemented nodes := by
  obtain ⟨m, hlast, hm⟩ := h
  exact ⟨m, List.mem_of_getLast? hlast, hm⟩

/-- The last match is the last one of some node. -/
theorem getLast?_flatMap {m : PowerMatch}
    (h : (nodes.flatMap NodeView.powerMatches).getLast? = some m) :
    ∃ node ∈ nodes, node.powerMatches.getLast? = some m := by
  induction nodes with
  | nil => simp at h
  | cons node nodes ih =>
    rw [List.flatMap_cons, List.getLast?_append] at h
    cases hrest : (nodes.flatMap NodeView.powerMatches).getLast? with
    | none =>
      rw [hrest] at h
      exact ⟨node, List.mem_cons_self, h⟩
    | some m' =>
      rw [hrest] at h
      cases h
      obtain ⟨node', hmem, hlast⟩ := ih hrest
      exact ⟨node', List.mem_cons_of_mem node hmem, hlast⟩

variable {implemented}

theorem Offers.works (hsbi : .sbi ∈ implemented) (h : Offers implemented nodes)
    (hunmixed : Unmixed implemented nodes) : Works implemented nodes := by
  obtain ⟨m, hm, -⟩ := h
  obtain ⟨last, hlast⟩ := Option.isSome_iff_exists.mp
    (List.getLast?_isSome.mpr (List.ne_nil_of_mem hm))
  refine ⟨last, hlast, ?_⟩
  obtain ⟨node, hnode, hnodeLast⟩ := getLast?_flatMap hlast
  by_cases his : node.IsSbi
  · unfold NodeView.powerMatches at hnodeLast
    rw [if_pos his, List.getLast?_append] at hnodeLast
    cases hnodeLast
    exact hsbi
  · exact hunmixed node hnode his _ (List.mem_of_getLast? hnodeLast)

theorem Reordered.unmixed_iff (h : Reordered nodes nodes') :
    Unmixed implemented nodes' ↔ Unmixed implemented nodes := by
  have hmixed := h.exists_iff
    (Q := fun node => ¬node.IsSbi ∧ ∃ m ∈ node.powerMatches, m.method ∉ implemented)
    fun node node' hsame => by simp only [hsame.isSbi, hsame.mem_powerMatches]
  have hnot : ∀ nodes, Unmixed implemented nodes ↔ ¬∃ node ∈ nodes,
      ¬node.IsSbi ∧ ∃ m ∈ node.powerMatches, m.method ∉ implemented := by
    intro nodes
    unfold Unmixed
    push Not
    rfl
  rw [hnot, hnot, hmixed]

/-- The order does not matter, and an offered method works, unless methods are mixed. -/
theorem works_iff (implemented : List PowerMethod) (nodes : List NodeView)
    (hsbi : .sbi ∈ implemented) :
    ((∀ nodes', Reordered nodes nodes' → (Works implemented nodes' ↔ Works implemented nodes)) ∧
      (Offers implemented nodes → Works implemented nodes)) ↔
        (Offers implemented nodes → Unmixed implemented nodes) := by
  constructor
  · rintro ⟨hsame, hworks⟩ hoffers node hnode his m hm
    by_contra hbad
    obtain ⟨nodes', hre, hlast⟩ := Reordered.exists_last hnode his hm
    obtain ⟨m', hlast', hm'⟩ := (hsame nodes' hre).mpr (hworks hoffers)
    rw [hlast] at hlast'
    cases hlast'
    exact hbad hm'
  · intro h
    refine ⟨fun nodes' hre => ?_, fun hoffers => hoffers.works hsbi (h hoffers)⟩
    have hoffers : Offers implemented nodes' ↔ Offers implemented nodes := hre.exists_match _
    constructor
    · intro hworks
      have ho := hoffers.mp hworks.offers
      exact ho.works hsbi (h ho)
    · intro hworks
      exact (hoffers.mpr hworks.offers).works hsbi (hre.unmixed_iff.mpr (h hworks.offers))

theorem handlePower_cases (implemented : List PowerMethod) (flag : Bool) (method : PowerMethod) :
    handlePower flag implemented method = .ok () ∨
      handlePower flag implemented method = .error .notSupported := by
  unfold handlePower
  split_ifs
  · exact Or.inr rfl
  · exact Or.inl rfl
  · exact Or.inr rfl

theorem handlePower_eq_iff {flag flag' : Bool} {method method' : PowerMethod} :
    handlePower flag implemented method = handlePower flag' implemented method' ↔
      (handlePower flag implemented method = .ok () ↔
        handlePower flag' implemented method' = .ok ()) := by
  obtain h | h := handlePower_cases implemented flag method <;>
    obtain h' | h' := handlePower_cases implemented flag' method' <;>
      simp [h, h']

/-- A request succeeds iff the last match has an implemented method, which sets the flag. -/
theorem handlePower_ok_iff {sets : PowerMatch → Bool}
    (hsets : ∀ m, m.method ∈ implemented → sets m = true) (hnone : .none ∉ implemented)
    (nodes : List NodeView) :
    handlePower ((nodes.flatMap NodeView.powerMatches).any sets) implemented
        (((nodes.flatMap NodeView.powerMatches).getLast?.map PowerMatch.method).getD .none) =
      .ok () ↔ Works implemented nodes := by
  unfold handlePower Works
  cases hlast : (nodes.flatMap NodeView.powerMatches).getLast? with
  | none => simp [hnone]
  | some m =>
    have hmem := List.mem_of_getLast? hlast
    by_cases hm : m.method ∈ implemented
    · have hany : (nodes.flatMap NodeView.powerMatches).any sets = true :=
        List.any_eq_true.mpr ⟨m, hmem, hsets m hm⟩
      simp [hany, hm]
    · simp [hm]

end Requests

/-! ### The theorem -/

theorem detectPower_found (nodes : List NodeView) : detectPower nodes =
    ⟨(nodes.flatMap NodeView.powerMatches).any PowerMatch.setsPowerOff,
      (nodes.flatMap NodeView.powerMatches).any PowerMatch.setsReboot,
      ((nodes.flatMap NodeView.powerMatches).getLast?.map PowerMatch.method).getD .none⟩ := by
  rw [detectPower_eq, foldl_found]
  rfl

theorem handleOff_ok_iff (nodes : List NodeView) :
    (detectPower nodes).handleOff = .ok () ↔ Works [.sbi, .psci] nodes := by
  rw [detectPower_found]
  exact handlePower_ok_iff (fun m hm => by cases m <;> first | rfl | simp [PowerMatch.method] at hm)
    (by decide) nodes

theorem handleReboot_ok_iff (nodes : List NodeView) :
    (detectPower nodes).handleReboot = .ok () ↔ Works [.sbi, .psci, .syscon] nodes := by
  rw [detectPower_found]
  exact handlePower_ok_iff (fun m hm => by cases m <;> first | rfl | simp [PowerMatch.method] at hm)
    (by decide) nodes

/-- Some node offers PSCI or SBI. -/
def OffersOff (nodes : List NodeView) : Prop :=
  ∃ node ∈ nodes, "psci" ∈ node.strings ∨ node.IsSbi

/-- Some node offers PSCI, SBI or a syscon reboot. -/
def OffersReboot (nodes : List NodeView) : Prop :=
  ∃ node ∈ nodes, "psci" ∈ node.strings ∨ "syscon-reboot" ∈ node.strings ∨ node.IsSbi

/-- What is detected, and how the requests are answered, does not depend on the order, and an
offered method that is implemented is honoured. -/
def PowerHonoured (nodes : List NodeView) : Prop :=
  (∀ nodes', Reordered nodes nodes' →
    (detectPower nodes').hasPowerOff = (detectPower nodes).hasPowerOff ∧
      (detectPower nodes').hasReboot = (detectPower nodes).hasReboot ∧
      (detectPower nodes').handleOff = (detectPower nodes).handleOff ∧
      (detectPower nodes').handleReboot = (detectPower nodes).handleReboot) ∧
    (OffersOff nodes → (detectPower nodes).handleOff = .ok ()) ∧
    (OffersReboot nodes → (detectPower nodes).handleReboot = .ok ())

theorem exists_powerMatch {node : NodeView} {Q : PowerMatch → Prop} :
    (∃ m ∈ node.powerMatches, Q m) ↔
      "psci" ∈ node.strings ∧ Q .psci ∨ "gpio-poweroff" ∈ node.strings ∧ Q .gpioPoweroff ∨
        "gpio-restart" ∈ node.strings ∧ Q .gpioRestart ∨
          "syscon-reboot" ∈ node.strings ∧ Q .sysconReboot ∨ node.IsSbi ∧ Q .sbi := by
  rw [← NodeView.mem_powerMatches_text (m := .psci) rfl,
    ← NodeView.mem_powerMatches_text (m := .gpioPoweroff) rfl,
    ← NodeView.mem_powerMatches_text (m := .gpioRestart) rfl,
    ← NodeView.mem_powerMatches_text (m := .sysconReboot) rfl, ← NodeView.sbi_mem_powerMatches]
  constructor
  · rintro ⟨m, hm, hQ⟩
    cases m <;> simp [hm, hQ]
  · rintro (⟨h, hQ⟩ | ⟨h, hQ⟩ | ⟨h, hQ⟩ | ⟨h, hQ⟩ | ⟨h, hQ⟩) <;> exact ⟨_, h, hQ⟩

theorem offers_iff {implemented : List PowerMethod} {nodes : List NodeView} :
    Offers implemented nodes ↔
      ∃ node ∈ nodes, ∃ m ∈ node.powerMatches, m.method ∈ implemented := by
  unfold Offers
  simp only [List.mem_flatMap]
  constructor
  · rintro ⟨m, ⟨node, hnode, hm⟩, h⟩
    exact ⟨node, hnode, m, hm, h⟩
  · rintro ⟨node, hnode, m, hm, h⟩
    exact ⟨m, ⟨node, hnode, hm⟩, h⟩

theorem offersOff_iff (nodes : List NodeView) :
    Offers [.sbi, .psci] nodes ↔ OffersOff nodes := by
  rw [offers_iff]
  unfold OffersOff
  simp [exists_powerMatch, PowerMatch.method]

theorem offersReboot_iff (nodes : List NodeView) :
    Offers [.sbi, .psci, .syscon] nodes ↔ OffersReboot nodes := by
  rw [offers_iff]
  unfold OffersReboot
  simp [exists_powerMatch, PowerMatch.method]

theorem unmixed_iff {implemented : List PowerMethod} {nodes : List NodeView} :
    Unmixed implemented nodes ↔ ∀ node ∈ nodes, ¬node.IsSbi →
      ¬∃ m ∈ node.powerMatches, m.method ∉ implemented := by
  unfold Unmixed
  push Not
  rfl

/-- **Power control.**  What is detected does not depend on the order of the nodes and of their
compatible strings, and an offered method that is implemented is honoured, exactly when no node
but SBI nodes names a method that the requested operation does not implement, next to one that it
does. -/
theorem power_honoured (nodes : List NodeView) : PowerHonoured nodes ↔
    (OffersOff nodes → ∀ node ∈ nodes, ¬node.IsSbi → "gpio-poweroff" ∉ node.strings ∧
      "gpio-restart" ∉ node.strings ∧ "syscon-reboot" ∉ node.strings) ∧
    (OffersReboot nodes → ∀ node ∈ nodes, ¬node.IsSbi → "gpio-poweroff" ∉ node.strings ∧
      "gpio-restart" ∉ node.strings) := by
  have hoff := works_iff [.sbi, .psci] nodes (by decide)
  have hreboot := works_iff [.sbi, .psci, .syscon] nodes (by decide)
  have hmixedOff : Unmixed [.sbi, .psci] nodes ↔ ∀ node ∈ nodes, ¬node.IsSbi →
      "gpio-poweroff" ∉ node.strings ∧ "gpio-restart" ∉ node.strings ∧
        "syscon-reboot" ∉ node.strings := by
    rw [unmixed_iff]
    simp [exists_powerMatch, PowerMatch.method]
  have hmixedReboot : Unmixed [.sbi, .psci, .syscon] nodes ↔ ∀ node ∈ nodes, ¬node.IsSbi →
      "gpio-poweroff" ∉ node.strings ∧ "gpio-restart" ∉ node.strings := by
    rw [unmixed_iff]
    simp [exists_powerMatch, PowerMatch.method]
  rw [offersOff_iff, hmixedOff] at hoff
  rw [offersReboot_iff, hmixedReboot] at hreboot
  rw [← hoff, ← hreboot]
  unfold PowerHonoured
  simp only [handleOff_ok_iff, handleReboot_ok_iff]
  constructor
  · rintro ⟨hsame, hworksOff, hworksReboot⟩
    refine ⟨⟨fun nodes' hre => ?_, hworksOff⟩, fun nodes' hre => ?_, hworksReboot⟩
    · rw [← handleOff_ok_iff, ← handleOff_ok_iff, (hsame nodes' hre).2.2.1]
    · rw [← handleReboot_ok_iff, ← handleReboot_ok_iff, (hsame nodes' hre).2.2.2]
  · rintro ⟨⟨hsameOff, hworksOff⟩, hsameReboot, hworksReboot⟩
    refine ⟨fun nodes' hre => ⟨?_, ?_, ?_, ?_⟩, hworksOff, hworksReboot⟩
    · rw [detectPower_found, detectPower_found]
      exact hre.any_eq _
    · rw [detectPower_found, detectPower_found]
      exact hre.any_eq _
    · refine handlePower_eq_iff.mpr ?_
      exact (handleOff_ok_iff nodes').trans
        ((hsameOff nodes' hre).trans (handleOff_ok_iff nodes).symm)
    · refine handlePower_eq_iff.mpr ?_
      exact (handleReboot_ok_iff nodes').trans
        ((hsameReboot nodes' hre).trans (handleReboot_ok_iff nodes).symm)

/-- A node with one compatible string. -/
def powerNode (c : String) : NodeView := ⟨c, some [c], none, none, fun _ => none⟩

/-- PSCI can switch off, unless a `gpio-restart` node comes after the PSCI node. -/
theorem psci_overwritten :
    (detectPower [powerNode "gpio-restart", powerNode "psci"]).handleOff = .ok () ∧
      (detectPower [powerNode "psci", powerNode "gpio-restart"]).handleOff =
        .error .notSupported ∧
      ¬PowerHonoured [powerNode "psci", powerNode "gpio-restart"] := by
  refine ⟨by decide, by decide, fun h => ?_⟩
  have hoff := h.2.1 ⟨powerNode "psci", by simp, Or.inl (by decide)⟩
  revert hoff
  decide

end GlendaDrivers
