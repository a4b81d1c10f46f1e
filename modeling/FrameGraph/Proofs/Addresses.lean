import FrameGraph.Proofs.Units

/-! # Addresses in a component tree

A component is found by its place among its siblings and the places of the groups around it. The addresses of leaves and
of isolated groups, in pre-order, tell for every leaf which unit it belongs to: that of the nearest isolated group around it.
-/

namespace FrameGraph

open Flattened (pathBelow)

section

variable {α β : Type} {children : α → List α} {below : β → List β} {f : β → α}

/-- The node that these places lead to, one level down with each of them. -/
def descend? (children : α → List α) : α → List Nat → Option α
  | node, [] => some node
  | node, place :: rest => (children node)[place]?.bind fun child => descend? children child rest

/-- The node at an address whose first place is among the roots. -/
def nodeAt? (children : α → List α) (roots : List α) : List Nat → Option α
  | [] => none
  | place :: rest => roots[place]?.bind fun node => descend? children node rest

theorem nodeAt?_here (front : List α) (node : α) (rest : List α) (address : List Nat) :
    nodeAt? children (front ++ node :: rest) (front.length :: address) = descend? children node address := by
  simp [nodeAt?]

theorem getElem?_of_map_prefix {part : List β} {all : List α} (fewer : part.map f <+: all) {place : Nat} {x : β}
    (found : part[place]? = some x) : all[place]? = some (f x) := by
  obtain ⟨more, rfl⟩ := fewer
  have inside : place < (part.map f).length := by
    rw [List.length_map]
    exact (List.getElem?_eq_some_iff.mp found).1
  rw [List.getElem?_append_left inside, List.getElem?_map, found]
  rfl

theorem descend?_of_nodeAt? {node found : α} {address : List Nat}
    (there : nodeAt? children (children node) address = some found) : descend? children node address = some found := by
  cases address with
  | nil => cases there
  | cons place rest => exact there

/-- A tree of nodes that carry more, and that may have fewer children, leads to the same nodes. -/
theorem descend?_map (fewer : ∀ x, (below x).map f <+: children (f x)) {address : List Nat} {x y : β}
    (found : descend? below x address = some y) : descend? children (f x) address = some (f y) := by
  induction address generalizing x with
  | nil =>
    cases found
    rfl
  | cons place rest ih =>
    obtain ⟨child, here, found⟩ := Option.bind_eq_some_iff.mp found
    rw [descend?, getElem?_of_map_prefix (fewer x) here]
    exact ih found

theorem nodeAt?_map (fewer : ∀ x, (below x).map f <+: children (f x)) {roots : List β} {all : List α}
    (start : roots.map f <+: all) {address : List Nat} {y : β} (found : nodeAt? below roots address = some y) :
    nodeAt? children all address = some (f y) := by
  cases address with
  | nil => cases found
  | cons place rest =>
    obtain ⟨child, here, found⟩ := Option.bind_eq_some_iff.mp found
    rw [nodeAt?, getElem?_of_map_prefix start here]
    exact descend?_map fewer found

end

namespace Component

def children : Component → List Component
  | .leaf _ => []
  | .group _ children => children
  | .offFrame _ children => children

def isLeaf : Component → Bool
  | .leaf _ => true
  | .group _ _ | .offFrame _ _ => false

def isIsolated : Component → Bool
  | .group options _ => options.isolated.isSome
  | .leaf _ | .offFrame _ _ => false

/-- The address of the component itself, if it is asked for. -/
def own (keep : Component → Bool) (component : Component) : List (List Nat) := if keep component then [[]] else []

mutual

/-- The addresses of the components asked for within a component, in pre-order. -/
def addresses (keep : Component → Bool) : Component → List (List Nat)
  | .leaf node => own keep (.leaf node)
  | .group options children => own keep (.group options children) ++ addressesFrom keep 0 children
  | .offFrame coordinator children => own keep (.offFrame coordinator children) ++ addressesFrom keep 0 children

/-- The same among siblings, the first of which stands at a place. -/
def addressesFrom (keep : Component → Bool) (place : Nat) : List Component → List (List Nat)
  | [] => []
  | component :: rest => (component.addresses keep).map (place :: ·) ++ addressesFrom keep (place + 1) rest

end

variable {keep : Component → Bool} {address : List Nat} {place : Nat}

theorem mem_own {component : Component} : address ∈ own keep component ↔ address = [] ∧ keep component := by
  unfold own
  split <;> simp_all

mutual

theorem mem_addresses : ∀ {component : Component} {address : List Nat},
    address ∈ component.addresses keep ↔ ∃ found, descend? children component address = some found ∧ keep found
  | .leaf node, address => by
    rw [addresses, mem_own]
    cases address <;> simp [descend?, children]
  | .group options components, address => by
    rw [addresses, List.mem_append, mem_own, mem_addressesFrom]
    cases address <;> simp [descend?, nodeAt?, children]
  | .offFrame coordinator components, address => by
    rw [addresses, List.mem_append, mem_own, mem_addressesFrom]
    cases address <;> simp [descend?, nodeAt?, children]

/-- The addresses are those of the components asked for. -/
theorem mem_addressesFrom : ∀ {components : List Component} {place : Nat} {address : List Nat},
    address ∈ addressesFrom keep place components ↔
      ∃ i rest found, address = (place + i) :: rest ∧ nodeAt? children components (i :: rest) = some found ∧ keep found
  | [], place, address => by simp [addressesFrom, nodeAt?]
  | component :: rest, place, address => by
    rw [addressesFrom, List.mem_append, List.mem_map, mem_addressesFrom]
    constructor
    · rintro (⟨inner, listed, rfl⟩ | ⟨i, inner, found, rfl, there, kept⟩)
      · obtain ⟨found, there, kept⟩ := mem_addresses.mp listed
        exact ⟨0, inner, found, rfl, there, kept⟩
      · exact ⟨i + 1, inner, found, by rw [Nat.add_assoc, Nat.add_comm 1], there, kept⟩
    · rintro ⟨i, inner, found, rfl, there, kept⟩
      cases i with
      | zero => exact .inl ⟨inner, mem_addresses.mpr ⟨found, there, kept⟩, rfl⟩
      | succ i => exact .inr ⟨i, inner, found, by rw [Nat.add_assoc, Nat.add_comm 1], there, kept⟩

end

theorem head_le {components : List Component} (listed : address ∈ addressesFrom keep place components) :
    ∃ i rest, address = i :: rest ∧ place ≤ i := by
  obtain ⟨i, rest, _, rfl, -⟩ := mem_addressesFrom.mp listed
  exact ⟨_, _, rfl, Nat.le_add_right _ _⟩

theorem own_sorted {component : Component} {inner : List (List Nat)} (sorted : inner.Pairwise (· < ·))
    (below : ∀ address ∈ inner, address ≠ []) : (own keep component ++ inner).Pairwise (· < ·) := by
  rw [own]
  split
  · refine List.pairwise_cons.mpr ⟨fun address listed => ?_, sorted⟩
    obtain ⟨place, rest, rfl⟩ := List.exists_cons_of_ne_nil (below address listed)
    exact List.nil_lt_cons place rest
  · exact sorted

theorem addressesFrom_ne_nil {components : List Component} :
    ∀ address ∈ addressesFrom keep place components, address ≠ [] := by
  intro address listed
  obtain ⟨i, rest, rfl, -⟩ := head_le listed
  exact List.cons_ne_nil i rest

mutual

theorem addresses_sorted : ∀ component : Component, (component.addresses keep).Pairwise (· < ·)
  | .leaf node => by
    rw [addresses, own]
    split <;> simp
  | .group options components => own_sorted (addressesFrom_sorted 0 components) addressesFrom_ne_nil
  | .offFrame coordinator components => own_sorted (addressesFrom_sorted 0 components) addressesFrom_ne_nil

/-- The addresses are in lexicographic order. -/
theorem addressesFrom_sorted : ∀ (place : Nat) (components : List Component),
    (addressesFrom keep place components).Pairwise (· < ·)
  | _, [] => .nil
  | place, component :: rest => by
    rw [addressesFrom, List.pairwise_append, List.pairwise_map]
    refine ⟨(addresses_sorted component).imp fun less => List.cons_lt_cons_self.mpr less,
      addressesFrom_sorted (place + 1) rest, fun first early last late => ?_⟩
    obtain ⟨inner, -, rfl⟩ := List.mem_map.mp early
    obtain ⟨i, outer, rfl, larger⟩ := head_le late
    exact List.cons_lt_cons_iff.mpr (.inl larger)

end

end Component

/-! ### Nearest isolated groups -/

/-- The unit of what stands at an address among components that belong to `unit` and whose isolated groups, found at these
addresses, open the units from `next` on: the one that the nearest isolated group around it opens. -/
inductive UnitOf (groups : List (List Nat)) (unit next : Nat) (address : List Nat) : Nat → Prop where
  | outer (free : ∀ group ∈ groups, ¬group <+: address) : UnitOf groups unit next address unit
  | opened {place : Nat} {group : List Nat} (found : groups[place]? = some group) (around : group <+: address)
    (nearest : ∀ other ∈ groups, other <+: address → other <+: group) : UnitOf groups unit next address (next + place)

namespace UnitOf

variable {groups others : List (List Nat)} {unit next number place : Nat} {address : List Nat}

/-- Within an isolated group. -/
theorem inside (within : UnitOf groups next (next + 1) address number) :
    UnitOf ([] :: groups) unit next address number := by
  cases within with
  | outer free =>
    have here : ([] :: groups)[0]? = some [] := rfl
    apply opened here List.nil_prefix
    rw [List.forall_mem_cons]
    exact ⟨fun _ => List.prefix_rfl, fun other listed around => absurd around (free other listed)⟩
  | @opened place group found around nearest =>
    have there : ([] :: groups)[place + 1]? = some group := found
    rw [Nat.add_assoc, Nat.add_comm 1]
    apply opened there around
    rw [List.forall_mem_cons]
    exact ⟨fun _ => List.nil_prefix, nearest⟩

/-- Within the component at a place; groups elsewhere are not around it. -/
theorem first (within : UnitOf groups unit next address number) (away : ∀ group ∈ others, ¬group <+: place :: address) :
    UnitOf (groups.map (place :: ·) ++ others) unit next (place :: address) number := by
  cases within with
  | outer free =>
    apply outer
    rw [List.forall_mem_append, List.forall_mem_map]
    exact ⟨fun group listed around => free group listed (List.cons_prefix_cons.mp around).2, away⟩
  | @opened index group found around nearest =>
    have there : (groups.map (place :: ·) ++ others)[index]? = some (place :: group) := by
      have bound := (List.getElem?_eq_some_iff.mp found).1
      rw [List.getElem?_append_left (by simpa using bound), List.getElem?_map, found]
      rfl
    apply opened there (List.cons_prefix_cons.mpr ⟨rfl, around⟩)
    rw [List.forall_mem_append, List.forall_mem_map]
    refine ⟨fun other listed surrounds => ?_, fun other listed surrounds => absurd surrounds (away other listed)⟩
    exact List.cons_prefix_cons.mpr ⟨rfl, nearest other listed (List.cons_prefix_cons.mp surrounds).2⟩

/-- Behind other components. -/
theorem later (within : UnitOf groups unit (next + others.length) address number)
    (away : ∀ group ∈ others, ¬group <+: address) : UnitOf (others ++ groups) unit next address number := by
  cases within with
  | outer free =>
    apply outer
    rw [List.forall_mem_append]
    exact ⟨away, free⟩
  | @opened index group found around nearest =>
    have there : (others ++ groups)[others.length + index]? = some group := by
      rw [List.getElem?_append_right (Nat.le_add_right ..), Nat.add_sub_cancel_left, found]
    rw [Nat.add_assoc]
    apply opened there around
    rw [List.forall_mem_append]
    exact ⟨fun other listed surrounds => absurd surrounds (away other listed), nearest⟩

/-- There is only one such unit. -/
theorem unique {other : Nat} (nodup : groups.Nodup) (one : UnitOf groups unit next address number)
    (two : UnitOf groups unit next address other) : number = other := by
  cases one with
  | outer free =>
    cases two with
    | outer => rfl
    | opened found around => exact absurd around (free _ (List.mem_of_getElem? found))
  | opened found around nearest =>
    have listed := List.mem_of_getElem? found
    cases two with
    | outer free => exact absurd around (free _ listed)
    | opened found' around' nearest' =>
      have listed' := List.mem_of_getElem? found'
      have same := (nearest' _ listed around).eq_of_length_le (nearest _ listed' around').length_le
      subst same
      obtain ⟨inside, rfl⟩ := List.getElem?_eq_some_iff.mp found
      rw [(List.getElem?_inj inside nodup).mp (found'.symm ▸ List.getElem?_eq_getElem inside)]

end UnitOf

/-- The component is the isolated group. -/
def IsolatedGroup.Is (group : IsolatedGroup) (component : Component) : Prop :=
  ∃ options, component = .group options group.children ∧ options.isolated = some group.library

namespace Component

/-- These groups stand at these addresses, each of which leads there from the component or from its children. -/
theorem forall₂_descend? {component : Component} {addresses : List (List Nat)} {groups : List IsolatedGroup}
    (inner : List.Forall₂ (fun address group => ∃ found, nodeAt? children component.children address = some found ∧
      group.Is found) addresses groups) :
    List.Forall₂ (fun address group => ∃ found, descend? children component address = some found ∧ group.Is found)
      addresses groups :=
  inner.imp fun _ _ ⟨found, there, is⟩ => ⟨found, descend?_of_nodeAt? there, is⟩

mutual

theorem isolated_addresses (parent : String) : ∀ component : Component,
    List.Forall₂ (fun address group => ∃ found, descend? children component address = some found ∧ group.Is found)
      (component.addresses isIsolated) (component.isolated parent)
  | .leaf _ => .nil
  | .group options components => by
    rw [addresses, isolated, own, isIsolated]
    cases isolates : options.isolated with
    | none => exact forall₂_descend? (isolatedAll_addresses _ components [])
    | some library =>
      exact .cons ⟨_, rfl, options, rfl, isolates⟩ (forall₂_descend? (isolatedAll_addresses _ components []))
  | .offFrame coordinator components => by
    rw [addresses, isolated]
    exact forall₂_descend? (isolatedAll_addresses _ components [])

/-- The isolated groups stand at their addresses. -/
theorem isolatedAll_addresses (parent : String) : ∀ components front : List Component,
    List.Forall₂ (fun address group => ∃ found, nodeAt? children (front ++ components) address = some found ∧ group.Is found)
      (addressesFrom isIsolated front.length components) (isolatedAll parent components)
  | [], _ => .nil
  | component :: rest, front => by
    rw [addressesFrom, isolatedAll]
    apply List.rel_append
    · rw [List.forall₂_map_left_iff]
      simp only [nodeAt?_here]
      exact isolated_addresses parent component
    · have others := isolatedAll_addresses parent rest (front ++ [component])
      rwa [← List.append_cons, List.length_append, List.length_singleton] at others

end

theorem length_addresses (parent : String) (component : Component) :
    (component.addresses isIsolated).length = (component.isolated parent).length :=
  (isolated_addresses parent component).length_eq

mutual

theorem placed_addresses (unit next : Nat) : ∀ component : Component,
    List.Forall₂ (fun address leaf => UnitOf (component.addresses isIsolated) unit next address leaf.1)
      (component.addresses isLeaf) (component.placed unit next)
  | .leaf _ => .cons (.outer nofun) .nil
  | .group options components => by
    rw [addresses, addresses, placed, own, own, isIsolated, isLeaf]
    cases isolates : options.isolated with
    | none => exact placedAll_addresses unit next 0 components
    | some library => exact (placedAll_addresses next (next + 1) 0 components).imp fun _ _ => UnitOf.inside
  | .offFrame coordinator components => by
    rw [addresses, addresses, placed]
    exact placedAll_addresses unit next 0 components

/-- The leaves stand at their addresses, each with the unit that the nearest isolated group around it opens. -/
theorem placedAll_addresses (unit next place : Nat) : ∀ components : List Component,
    List.Forall₂ (fun address leaf => UnitOf (addressesFrom isIsolated place components) unit next address leaf.1)
      (addressesFrom isLeaf place components) (placedAll unit next components)
  | [] => .nil
  | component :: rest => by
    rw [addressesFrom, addressesFrom, placedAll]
    apply List.rel_append
    · rw [List.forall₂_map_left_iff]
      refine (placed_addresses unit next component).imp fun address leaf within => within.first fun group listed around => ?_
      obtain ⟨i, inner, rfl, larger⟩ := head_le listed
      have same := (List.cons_prefix_cons.mp around).1
      omega
    · have others := placedAll_addresses unit (next + (component.isolated "").length) (place + 1) rest
      refine List.forall₂_iff_zip.mpr ⟨others.length_eq, fun {address leaf} found => ?_⟩
      have within := (List.forall₂_iff_zip.mp others).2 found
      rw [← length_addresses ""] at within
      refine UnitOf.later (by rwa [List.length_map]) (List.forall_mem_map.mpr fun group listed around => ?_)
      obtain ⟨i, inner, rfl, larger⟩ := head_le (List.of_mem_zip found).1
      have same := (List.cons_prefix_cons.mp around).1
      omega

end

end Component

namespace Program

/-- The component at an address. -/
def at? (source : Program) (address : List Nat) : Option Component := nodeAt? Component.children source.root address

/-- The addresses of all leaves, in pre-order. -/
def leafAddresses (source : Program) : List (List Nat) := Component.addressesFrom Component.isLeaf 0 source.root

/-- The addresses of all isolated groups, in pre-order. -/
def isolatedAddresses (source : Program) : List (List Nat) := Component.addressesFrom Component.isIsolated 0 source.root

variable {source : Program} {address : List Nat}

theorem mem_addressesFrom_root (keep : Component → Bool) :
    address ∈ Component.addressesFrom keep 0 source.root ↔ ∃ found, source.at? address = some found ∧ keep found := by
  rw [Component.mem_addressesFrom]
  cases address <;> simp [at?, nodeAt?]

theorem mem_leafAddresses : address ∈ source.leafAddresses ↔ ∃ node, source.at? address = some (.leaf node) := by
  rw [leafAddresses, mem_addressesFrom_root]
  constructor
  · rintro ⟨found, there, kept⟩
    cases found with
    | leaf node => exact ⟨node, there⟩
    | group | offFrame => cases kept
  · rintro ⟨node, there⟩
    exact ⟨_, there, rfl⟩

theorem mem_isolatedAddresses : address ∈ source.isolatedAddresses ↔
    ∃ options children, source.at? address = some (.group options children) ∧ options.isolated.isSome := by
  rw [isolatedAddresses, mem_addressesFrom_root]
  constructor
  · rintro ⟨found, there, kept⟩
    cases found with
    | group options children => exact ⟨options, children, there, kept⟩
    | leaf | offFrame => cases kept
  · rintro ⟨options, children, there, isolated⟩
    exact ⟨_, there, isolated⟩

/-- In pre-order the addresses ascend: a group comes before what is below it, and that before the group's later siblings. -/
theorem isolatedAddresses_sorted : source.isolatedAddresses.Pairwise (· < ·) :=
  Component.addressesFrom_sorted 0 source.root

/-- The unit that an address belongs to is unique. -/
theorem unitOf_unique {number other : Nat} (one : UnitOf source.isolatedAddresses 0 1 address number)
    (two : UnitOf source.isolatedAddresses 0 1 address other) : number = other := by
  apply one.unique _ two
  rw [List.nodup_iff_pairwise_ne]
  apply isolatedAddresses_sorted.imp
  intro first second less same
  rw [same] at less
  exact List.lt_irrefl second less

end Program

end FrameGraph
