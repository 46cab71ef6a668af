import Mathlib.Tactic.Abel
import ArenaMemory.Proofs.Interner.Copies
import ArenaMemory.Proofs.World.Order

namespace ArenaMemory

variable {ι : Type}

/-- A block and the ground that it is held on. -/
abbrev Holding := Option String × Grant

def heldOn (ground : Option String) (blocks : Multiset Grant) : Multiset Holding :=
  blocks.map (Prod.mk ground)

def blocksOn (ground : Option String) (held : Multiset Holding) : Multiset Grant :=
  (held.filter (·.1 = ground)).map Prod.snd

/-- What is not held on the region of that name. -/
def elsewhere (name : String) (held : Multiset Holding) : Multiset Holding :=
  held.filter (·.1 ≠ some name)

section Holdings

variable (ground other : Option String) (blocks blocks' : Multiset Grant)
  (held held' : Multiset Holding)

@[simp]
theorem heldOn_zero : heldOn ground 0 = 0 := rfl

@[simp]
theorem heldOn_add : heldOn ground (blocks + blocks') = heldOn ground blocks + heldOn ground blocks' :=
  Multiset.map_add _ _ _

@[simp]
theorem map_snd_heldOn : (heldOn ground blocks).map Prod.snd = blocks := by
  simp [heldOn]

theorem mem_heldOn {holding : Holding} :
    holding ∈ heldOn ground blocks ↔ holding.1 = ground ∧ holding.2 ∈ blocks := by
  obtain ⟨g, k⟩ := holding
  simp [heldOn, eq_comm, and_comm]

@[simp]
theorem blocksOn_zero : blocksOn ground 0 = 0 := rfl

@[simp]
theorem blocksOn_add :
    blocksOn ground (held + held') = blocksOn ground held + blocksOn ground held' := by
  simp [blocksOn]

@[simp]
theorem blocksOn_heldOn : blocksOn ground (heldOn ground blocks) = blocks := by
  have hall : (heldOn ground blocks).filter (·.1 = ground) = heldOn ground blocks :=
    Multiset.filter_eq_self.2 fun _ hh => ((mem_heldOn ground blocks).1 hh).1
  rw [blocksOn, hall, map_snd_heldOn]

variable {ground other held held'}

theorem blocksOn_eq_zero (h : ∀ holding ∈ held, holding.1 ≠ ground) : blocksOn ground held = 0 := by
  rw [blocksOn, Multiset.filter_eq_nil.2 h, Multiset.map_zero]

theorem blocksOn_heldOn_ne (h : other ≠ ground) : blocksOn ground (heldOn other blocks) = 0 :=
  blocksOn_eq_zero fun _ hh => ((mem_heldOn other blocks).1 hh).1 ▸ h

theorem blocksOn_elsewhere {name : String} (h : ground ≠ some name) :
    blocksOn ground (elsewhere name held) = blocksOn ground held := by
  rw [blocksOn, blocksOn, elsewhere, Multiset.filter_filter]
  congr 1
  exact Multiset.filter_congr fun holding _ => ⟨And.left, fun he => ⟨he, he ▸ h⟩⟩

theorem elsewhere_eq_self {name : String} (h : blocksOn (some name) held = 0) :
    elsewhere name held = held := by
  have hsplit := Multiset.filter_add_not (·.1 = some name) held
  rwa [Multiset.map_eq_zero.1 h, zero_add] at hsplit

theorem blocksOn_le (h : held ≤ held') : blocksOn ground held ≤ blocksOn ground held' :=
  Multiset.map_le_map (Multiset.filter_le_filter _ h)

theorem mem_blocksOn {g : Grant} : g ∈ blocksOn ground held ↔ (ground, g) ∈ held := by
  simp [blocksOn]

end Holdings

namespace Object

def grants : Object → Multiset Grant
  | .tracker _ => 0
  | .region r home => r.grants + granted home regionLayout
  | .interner i home => i.grants + granted home internerLayout
  | .box kind addr => {⟨addr, kind.layout⟩}

/-- The blocks of the object with contents of its user's. -/
def blocks : Object → Multiset Grant
  | .tracker _ | .region _ _ => 0
  | .interner i _ => i.copies
  | .box kind addr => {⟨addr, kind.layout⟩}

/-- The blocks that the object keeps its own records in. -/
def records : Object → Multiset Grant
  | .tracker _ | .box _ _ => 0
  | .region r home => r.footers + granted home regionLayout
  | .interner i home =>
    i.arena.footers + i.map.grants + i.table.grants + granted home internerLayout

def parts (object : Object) : Multiset Grant := object.blocks + object.records

/-- What the object relies on, given the blocks that are held on it. -/
def Hosts (held : Multiset Grant) : Object → Prop
  | .region r _ => r.Hosts held
  | .interner i _ => i.Sized ∧ i.arena.Hosts i.copies
  | .tracker _ | .box _ _ => True

theorem Hosts.mono {object : Object} {held held' : Multiset Grant} (h : object.Hosts held)
    (hle : held' ≤ held) : object.Hosts held' := by
  cases object with
  | region r home => exact Region.Hosts.mono h hle
  | tracker | interner | box => exact h

/-- What requests leave of an object: a tracker has counted them, and a region may have more
chunks. -/
inductive Grows : Object → Object → Prop where
  | tracker {t t'} : Grows (.tracker t) (.tracker t')
  | region {r r' home} : r.footers ≤ r'.footers → r.grants ≤ r'.grants →
      Grows (.region r home) (.region r' home)
  | refl (object) : Grows object object

theorem Grows.replaces {object object' : Object} (h : object.Grows object') :
    object.Replaces object' := by
  cases h with
  | tracker => exact .tracker
  | region => exact .region
  | refl => exact .refl object

theorem Grows.trans {object object' object'' : Object} (h : object.Grows object')
    (h' : object'.Grows object'') : object.Grows object'' := by
  cases h with
  | tracker => cases h' <;> exact .tracker
  | region hfooters hgrants =>
    cases h' with
    | region hfooters' hgrants' =>
      exact .region (hfooters.trans hfooters') (hgrants.trans hgrants')
    | refl => exact .region hfooters hgrants
  | refl => exact h'

theorem Grows.grants_le {object object' : Object} (h : object.Grows object') :
    object.grants ≤ object'.grants := by
  cases h with
  | tracker => exact le_rfl
  | region _ hgrants => exact add_le_add hgrants le_rfl
  | refl => exact le_rfl

theorem Grows.blocks_le {object object' : Object} (h : object.Grows object') :
    object.blocks ≤ object'.blocks := by
  cases h <;> exact le_rfl

theorem Grows.parts_le {object object' : Object} (h : object.Grows object') :
    object.parts ≤ object'.parts := by
  refine add_le_add h.blocks_le ?_
  cases h with
  | tracker => exact le_rfl
  | region hfooters _ => exact add_le_add hfooters le_rfl
  | refl => exact le_rfl

end Object

/-- What objects hold on the grounds that they were built on. -/
def holdings (items : List (Item ι)) : Multiset Holding :=
  (items.map fun item => heldOn item.origin.ground item.object.grants).sum

/-- The blocks that users hold, and with them what `part` tells of each object. -/
def inUse (part : Object → Multiset Grant) (items : List (Item ι)) (held : Multiset Holding) :
    Multiset Grant :=
  held.map Prod.snd + (items.map fun item => part item.object).sum

/-- All blocks in use: those that users hold, and those with contents or records of the objects. -/
abbrev leaves (items : List (Item ι)) (held : Multiset Holding) : Multiset Grant :=
  inUse Object.parts items held

abbrev contents (items : List (Item ι)) (held : Multiset Holding) : Multiset Grant :=
  inUse Object.blocks items held

/-- The store is in order: what is held on base allocators lies side by side, and every region hosts
what is held on it. -/
structure Stacked (items : List (Item ι)) (held : Multiset Holding) : Prop where
  ordered : Ordered items
  live : ∀ holding ∈ held, ∀ name, holding.1 = some name →
    ∃ origin region home, ⟨name, origin, .region region home⟩ ∈ items
  packed : Packed (blocksOn none (held + holdings items))
  hosts : ∀ item ∈ items, item.object.Hosts (blocksOn (some item.name) (held + holdings items))

variable {items older : List (Item ι)} {item : Item ι} {held : Multiset Holding} {origin : Origin ι}
  {name : String}

theorem holdings_cons : holdings (item :: older) =
    heldOn item.origin.ground item.object.grants + holdings older := by
  simp [holdings]

theorem mem_holdings {holding : Holding} : holding ∈ holdings items ↔
    ∃ item ∈ items, holding.1 = item.origin.ground ∧ holding.2 ∈ item.object.grants := by
  induction items with
  | nil => simp [holdings]
  | cons newest older ih =>
    rw [holdings_cons, Multiset.mem_add, mem_heldOn, ih, List.exists_mem_cons_iff]

theorem exists_built {holding : Holding} (hmem : holding ∈ holdings items)
    (hground : holding.1 = some name) : ∃ item ∈ items, item.origin.ground = some name := by
  obtain ⟨item, hitem, hg, -⟩ := mem_holdings.1 hmem
  exact ⟨item, hitem, hg ▸ hground⟩

theorem blocksOn_holdings (hnot : ∀ item ∈ items, ¬ item.origin.Mentions name) :
    blocksOn (some name) (holdings items) = 0 :=
  blocksOn_eq_zero fun _ hmem hground => by
    obtain ⟨item, hitem, hbuilt⟩ := exists_built hmem hground
    exact hnot item hitem (Origin.mentions_of_ground hbuilt)

theorem holdings_others (h : Ordered items) (hitem : item ∈ items) :
    holdings items =
      heldOn item.origin.ground item.object.grants + holdings (others item.name items) :=
  h.sum_others _ hitem

theorem blocksOn_detach {ground : Option String} (h : Ordered items) (hitem : item ∈ items)
    (hne : ground ≠ some item.name) :
    blocksOn ground (heldOn item.origin.ground item.object.grants + elsewhere item.name held +
      holdings (others item.name items)) = blocksOn ground (held + holdings items) := by
  rw [holdings_others h hitem]
  simp only [blocksOn_add, blocksOn_elsewhere hne]
  rw [add_comm (blocksOn _ (heldOn _ _)), add_assoc]

namespace Stacked

/-- Looking past an object that nothing was built on: what it holds is held in its stead, and what
was held on it lies within that. -/
theorem detach (h : Stacked items held) (hitem : item ∈ items)
    (hnot : ∀ other ∈ items, ¬ other.origin.Mentions item.name) :
    Stacked (others item.name items)
      (heldOn item.origin.ground item.object.grants + elsewhere item.name held) := by
  refine ⟨h.ordered.others hnot, fun holding hmem name hname => ?_, ?_, fun other hother => ?_⟩
  · obtain hmem | hmem := Multiset.mem_add.1 hmem
    · rw [((mem_heldOn _ _).1 hmem).1] at hname
      exact ((h.ordered.liveIn hitem).others (hnot item hitem)).ground hname
    · obtain ⟨hheld, hne⟩ := Multiset.mem_filter.1 hmem
      obtain ⟨origin, region, home, hregion⟩ := h.live holding hheld name hname
      exact ⟨origin, region, home, mem_others.2 ⟨hregion, fun he => hne (he ▸ hname)⟩⟩
  · rw [blocksOn_detach h.ordered hitem (by simp)]
    exact h.packed
  · obtain ⟨hold, hname⟩ := mem_others.1 hother
    rw [blocksOn_detach h.ordered hitem fun he => hname (Option.some.inj he)]
    exact h.hosts other hold

theorem lower (h : Stacked (item :: older) held) :
    Stacked older (heldOn item.origin.ground item.object.grants + elsewhere item.name held) := by
  have hdetached := h.detach List.mem_cons_self fun _ => h.ordered.not_mentions_newest
  rwa [h.ordered.others_newest] at hdetached

theorem mono {held' : Multiset Holding} (h : Stacked items held) (hle : held' ≤ held) :
    Stacked items held' := by
  have hsum : held' + holdings items ≤ held + holdings items := add_le_add hle le_rfl
  refine ⟨h.ordered, fun holding hmem => h.live holding (Multiset.mem_of_le hle hmem),
    h.packed.mono (blocksOn_le hsum), fun item hitem => ?_⟩
  exact (h.hosts item hitem).mono (blocksOn_le hsum)

theorem separate_ground (h : Stacked items held) (hlive : origin.LiveIn items) :
    Separate (blocksOn origin.ground (held + holdings items)) := by
  cases hground : origin.ground with
  | none => exact h.packed.separate
  | some name =>
    obtain ⟨inner, region, home, hregion⟩ := hlive.ground hground
    have hosts : region.Hosts _ := h.hosts _ hregion
    exact hosts.separate

theorem blocksOn_eq_zero_of_not_region (h : Stacked items held) (hitem : item ∈ items)
    (hnot : ∀ r home, item.object ≠ .region r home) : blocksOn (some item.name) held = 0 :=
  ArenaMemory.blocksOn_eq_zero fun holding hmem hground => by
    obtain ⟨origin, region, home, hregion⟩ := h.live holding hmem _ hground
    have heq := h.ordered.eq_of_name hitem hregion rfl
    exact hnot region home (heq ▸ rfl)

end Stacked

theorem Object.subdivides {object : Object} {hosted : Multiset Grant} (hosts : object.Hosts hosted)
    (hnot : (∀ r home, object ≠ .region r home) → hosted = 0) (hseparate : Separate object.grants) :
    Subdivides (hosted + object.parts) object.grants := by
  have hwhole := Subdivides.refl hseparate
  cases object with
  | tracker t =>
    rw [hnot (by simp)]
    exact hwhole
  | region r home =>
    have hparts := hwhole.refine (Region.Hosts.subdivides hosts)
    rwa [add_assoc, ← zero_add (r.footers + _)] at hparts
  | interner i home =>
    rw [hnot (by simp), zero_add]
    simp only [Object.grants, Interner.grants, Object.parts, Object.blocks, Object.records,
      add_assoc] at hwhole ⊢
    have hparts := hwhole.refine (Region.Hosts.subdivides hosts.2)
    rwa [add_assoc] at hparts
  | box kind addr =>
    rw [hnot (by simp), zero_add, Object.parts, Object.records, add_zero]
    exact hwhole

section InUse

variable {part : Object → Multiset Grant}

theorem inUse_heldOn (ground : Option String) (blocks : Multiset Grant) :
    inUse part items (heldOn ground blocks + held) = blocks + inUse part items held := by
  rw [inUse, inUse, Multiset.map_add, map_snd_heldOn, add_assoc]

theorem map_snd_split (name : String) : held.map Prod.snd =
    blocksOn (some name) held + (elsewhere name held).map Prod.snd := by
  rw [blocksOn, elsewhere, ← Multiset.map_add, Multiset.filter_add_not]

theorem inUse_elsewhere (name : String) : inUse part items held =
    blocksOn (some name) held + inUse part items (elsewhere name held) := by
  rw [inUse, inUse, map_snd_split name, add_assoc]

theorem inUse_others (h : Ordered items) (hitem : item ∈ items) : inUse part items held =
    part item.object + inUse part (others item.name items) held := by
  rw [inUse, inUse, h.sum_others (fun item => part item.object) hitem, add_left_comm]

theorem inUse_detach (h : Ordered items) (hitem : item ∈ items) : inUse part items held =
    blocksOn (some item.name) held + part item.object +
      inUse part (others item.name items) (elsewhere item.name held) := by
  rw [inUse_elsewhere item.name, inUse_others h hitem, add_assoc]

theorem inUse_mono {part' : Object → Multiset Grant} (hle : ∀ object, part object ≤ part' object) :
    inUse part items held ≤ inUse part' items held := by
  refine add_le_add le_rfl ?_
  induction items with
  | nil => exact le_rfl
  | cons item older ih =>
    rw [List.map_cons, List.map_cons, List.sum_cons, List.sum_cons]
    exact add_le_add (hle item.object) ih

theorem contents_le_leaves : contents items held ≤ leaves items held :=
  inUse_mono fun _ => Multiset.le_add_right _ _

end InUse

/-- All blocks in use are parts of what the base allocators handed out: taking the objects off one
by one, what is held on each is given for what it holds. -/
theorem Stacked.subdivides (h : Stacked items held) :
    Subdivides (leaves items held) (blocksOn none (held + holdings items)) := by
  induction items generalizing held with
  | nil =>
    have hall : held.filter (·.1 = none) = held := Multiset.filter_eq_self.2 fun holding hmem => by
      cases hground : holding.1 with
      | none => rfl
      | some name =>
        obtain ⟨_, _, _, hregion⟩ := h.live holding hmem name hground
        cases hregion
    have hleaves : leaves ([] : List (Item ι)) held =
        blocksOn none (held + holdings ([] : List (Item ι))) := by
      simp [inUse, holdings, blocksOn, hall]
    rw [hleaves]
    exact .refl h.packed.separate
  | cons item older ih =>
    have hlower := ih h.lower
    have hsame : blocksOn none _ = blocksOn none (held + holdings (item :: older)) :=
      blocksOn_detach h.ordered List.mem_cons_self (by simp)
    rw [h.ordered.others_newest] at hsame
    rw [leaves, inUse_heldOn, hsame] at hlower
    have hosts := h.hosts item List.mem_cons_self
    rw [blocksOn_add, blocksOn_holdings fun _ => h.ordered.not_mentions_newest, add_zero] at hosts
    have hparts := Object.subdivides hosts
      (h.blocksOn_eq_zero_of_not_region List.mem_cons_self) (separate_add.1 hlower.separate).1
    rw [leaves, inUse_detach h.ordered List.mem_cons_self, h.ordered.others_newest]
    exact hlower.refine hparts

theorem Stacked.packed_leaves (h : Stacked items held) : Packed (leaves items held) :=
  h.packed.subdivide h.subdivides

end ArenaMemory
