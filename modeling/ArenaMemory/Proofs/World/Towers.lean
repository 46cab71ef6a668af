import ArenaMemory.Proofs.Region.Alike
import ArenaMemory.Proofs.World.Tenancy

namespace ArenaMemory

open Allocator

variable {ι β : Type} {base : Allocator β} {contract : base.Contract} {items : List (Item ι)}
  {item : Item ι} {held : Multiset Holding} {origin inner : Origin ι} {name : String}
  {allowed : String → Prop} {visible : String → Bool} {store : Store ι β} {mine mine' : Multiset Grant}
  {memory memory' : Memory} {machine machine' : Machine (Store ι β)} {result : Option Word}
  {layout : Layout}

/-- The allocator of a handle, in a tower over one base allocator. -/
abbrev Origin.handle (base : Allocator β) (origin : Origin ι) : Allocator (Store ι β) :=
  origin.allocator fun _ => base

def Origin.leaf : Origin ι → ι
  | .base which => which
  | .tracker _ inner | .region _ inner => inner.leaf

/-- A handle depends on no base allocator but the one that it leads down to. -/
theorem Origin.allocator_eq_handle (bases : ι → Allocator β) (origin : Origin ι) :
    origin.allocator bases = origin.handle (bases origin.leaf) := by
  induction origin with
  | base which => rfl
  | tracker name inner ih => rw [Origin.allocator, ih]; rfl
  | region name inner ih => rw [Origin.allocator, ih]; rfl

section Base

theorem blocksOn_none_tenant : blocksOn none (heldOn none mine + held + holdings items) =
    mine + blocksOn none (held + holdings items) := by
  rw [add_assoc, blocksOn_add, blocksOn_heldOn]

variable (h : Tenancy contract allowed visible items held none mine store)
include h

theorem Tenancy.holds_base :
    contract.holds (mine + blocksOn none (held + holdings (seen visible store.items)))
      store.base :=
  blocksOn_none_tenant ▸ h.standing.holds

theorem Tenancy.packed_base :
    Packed (mine + blocksOn none (held + holdings (seen visible store.items))) :=
  blocksOn_none_tenant ▸ h.standing.stacked.packed

theorem Tenancy.rebase {answered : β}
    (hpacked : Packed (mine' + blocksOn none (held + holdings (seen visible store.items))))
    (hholds : contract.holds
      (mine' + blocksOn none (held + holdings (seen visible store.items))) answered) :
    Tenancy contract allowed visible items held none mine' { store with base := answered } := by
  obtain ⟨⟨⟨hordered, hlive, -, hosts⟩, -⟩, hgrown⟩ := h
  refine ⟨⟨⟨hordered, fun holding hmem name hname => ?_, ?_, fun item hitem => ?_⟩, ?_⟩, hgrown⟩
  · obtain hmem | hmem := Multiset.mem_add.1 hmem
    · rw [((mem_heldOn _ _).1 hmem).1] at hname
      cases hname
    · exact hlive holding (Multiset.mem_add.2 (.inr hmem)) name hname
  · rw [blocksOn_none_tenant]
    exact hpacked
  · have hosted := hosts item hitem
    rw [add_assoc, blocksOn_add, blocksOn_heldOn_ne _ (by simp), zero_add] at hosted ⊢
    exact hosted
  · rw [blocksOn_none_tenant]
    exact hholds

theorem Tenancy.agree_base (hle : mine' ≤ mine)
    (hagree : AgreeOn (mine' + blocksOn none (held + holdings (seen visible store.items)))
      memory memory') :
    AgreeOn (leaves (seen visible items) held) memory memory' := by
  have hheld : heldOn none mine' + held ≤ heldOn none mine + held :=
    add_le_add (Multiset.map_le_map hle) le_rfl
  have hstacked := h.standing.stacked.mono hheld
  have hparts := hstacked.subdivides
  rw [blocksOn_none_tenant, leaves, inUse_heldOn] at hparts
  have hgrown : Grown allowed (seen visible items) (seen visible store.items) := h.grown.seen
  exact (hagree.subdivide hparts).right.mono (Multiset.subset_of_le (hgrown.leaves_le held))

end Base

theorem Tenancy.holds_cons {g : Grant}
    (h : Tenancy contract allowed visible items held none ({g} + mine) store) : contract.holds
      ({g} + (mine + blocksOn none (held + holdings (seen visible store.items)))) store.base :=
  add_assoc {g} mine _ ▸ h.holds_base

theorem Tenancy.packed_cons {g : Grant}
    (h : Tenancy contract allowed visible items held none ({g} + mine) store) :
    Packed ({g} + (mine + blocksOn none (held + holdings (seen visible store.items)))) :=
  add_assoc {g} mine _ ▸ h.packed_base

def Allocator.Contract.grounded (contract : base.Contract) (allowed : String → Prop)
    (visible : String → Bool) (items : List (Item ι)) (held : Multiset Holding) :
    (base.within (·.base) fun base (store : Store ι β) => { store with base }).Contract where
  holds := Tenancy contract allowed visible items held none
  alloc := by
    intro out layout machine result machine' h ha
    obtain ⟨served, hb, rfl⟩ := within_alloc ha
    refine h.rebase ?_ ?_
    · rw [add_assoc]
      exact h.packed_base.granted fun addr he hpos =>
        contract.alloc_fresh h.holds_base hpos (he ▸ hb)
    · rw [add_assoc]
      exact contract.alloc h.holds_base hb
  release := by
    intro out addr layout machine h
    have hreleased : contract.holds _
        (base.release addr layout (machine.withStore machine.store.base)).store :=
      contract.release h.holds_cons
    exact h.rebase h.packed_cons.tail hreleased
  nativeRealloc := by
    intro _ hnative out addr old new machine result machine' hnew h hr
    obtain ⟨native, served, hinner, hb, rfl⟩ := within_nativeRealloc hnative hr
    have hholds := contract.nativeRealloc hinner hnew h.holds_cons hb
    rw [← add_assoc] at hholds
    refine h.rebase ?_ hholds
    rw [add_assoc]
    cases result with
    | none => exact h.packed_cons
    | some fresh =>
      exact h.packed_cons.tail.cons fun _ => contract.realloc_fresh hinner hnew h.holds_cons hb
  nativeZalloc := by
    intro _ hnative out layout machine result machine' h hz
    obtain ⟨native, served, hinner, hb, rfl⟩ := within_nativeZalloc hnative hz
    refine h.rebase ?_ ?_
    · rw [add_assoc]
      exact h.packed_base.granted fun addr he hpos =>
        contract.zalloc_fresh hinner h.holds_base hpos (he ▸ hb)
    · rw [add_assoc]
      exact contract.nativeZalloc hinner h.holds_base hb
  alloc_fresh := by
    intro out layout machine addr machine' h hpos ha
    obtain ⟨served, hb, rfl⟩ := within_alloc ha
    exact (contract.alloc_fresh h.holds_base hpos hb).left
  realloc_fresh := by
    intro _ hnative out addr old new machine fresh machine' hnew h hr
    obtain ⟨native, served, hinner, hb, rfl⟩ := within_nativeRealloc hnative hr
    exact (contract.realloc_fresh hinner hnew h.holds_cons hb).left
  zalloc_fresh := by
    intro _ hnative out layout machine addr machine' h hpos hz
    obtain ⟨native, served, hinner, hb, rfl⟩ := within_nativeZalloc hnative hz
    exact (contract.zalloc_fresh hinner h.holds_base hpos hb).left
  alloc_keeps := by
    intro out layout machine result machine' h ha
    obtain ⟨served, hb, rfl⟩ := within_alloc ha
    exact (contract.alloc_keeps h.holds_base hb).left
  release_keeps := by
    intro out addr layout machine h
    have hkept : AgreeOn _ machine.memory
        (base.release addr layout (machine.withStore machine.store.base)).memory :=
      contract.release_keeps h.holds_cons
    exact hkept.left
  realloc_keeps := by
    intro _ hnative out addr old new machine result machine' hnew h hr
    obtain ⟨native, served, hinner, hb, rfl⟩ := within_nativeRealloc hnative hr
    exact (contract.realloc_keeps hinner hnew h.holds_cons hb).left
  realloc_refused := by
    intro _ hnative out addr old new machine machine' hnew h hr
    obtain ⟨native, served, hinner, hb, rfl⟩ := within_nativeRealloc hnative hr
    exact contract.realloc_refused hinner hnew h.holds_cons hb
  realloc_moves := by
    intro _ hnative out addr old new machine fresh machine' hnew h hr
    obtain ⟨native, served, hinner, hb, rfl⟩ := within_nativeRealloc hnative hr
    exact contract.realloc_moves hinner hnew h.holds_cons hb
  zalloc_keeps := by
    intro _ hnative out layout machine result machine' h hz
    obtain ⟨native, served, hinner, hb, rfl⟩ := within_nativeZalloc hnative hz
    exact (contract.zalloc_keeps hinner h.holds_base hb).left
  zalloc_zeroes := by
    intro _ hnative out layout machine addr machine' h hpos hz
    obtain ⟨native, served, hinner, hb, rfl⟩ := within_nativeZalloc hnative hz
    exact contract.zalloc_zeroes hinner h.holds_base hpos hb

theorem Allocator.Contract.grounded_spares (contract : base.Contract) (allowed : String → Prop)
    (visible : String → Bool) (items : List (Item ι)) (held : Multiset Holding) :
    (contract.grounded allowed visible items held).Spares (leaves (seen visible items) held) where
  packed h := h.packed
  alloc := by
    intro out layout machine result machine' h ha
    obtain ⟨served, hb, rfl⟩ := within_alloc ha
    exact Tenancy.agree_base h le_rfl (contract.alloc_keeps h.holds_base hb)
  release := by
    intro out addr layout machine h
    have hkept : AgreeOn _ machine.memory
        (base.release addr layout (machine.withStore machine.store.base)).memory :=
      contract.release_keeps h.holds_cons
    exact Tenancy.agree_base h (Multiset.le_add_left _ _) hkept
  nativeRealloc := by
    intro _ hnative out addr old new machine result machine' hnew h hr
    obtain ⟨native, served, hinner, hb, rfl⟩ := within_nativeRealloc hnative hr
    exact Tenancy.agree_base h (Multiset.le_add_left _ _)
      (contract.realloc_keeps hinner hnew h.holds_cons hb)
  nativeZalloc := by
    intro _ hnative out layout machine result machine' h hz
    obtain ⟨native, served, hinner, hb, rfl⟩ := within_nativeZalloc hnative hz
    exact Tenancy.agree_base h le_rfl (contract.zalloc_keeps hinner h.holds_base hb)

/-- What a handle keeps in a store: whatever may be looked at there, and whatever others hold, it
has a contract with a tenant on its ground, and spares all blocks in use but the tenant's. -/
def Origin.Obeys (contract : base.Contract) (origin : Origin ι) : Prop :=
  ∀ (allowed : String → Prop) (visible : String → Bool) (items : List (Item ι))
    (held : Multiset Holding), (∀ name, origin.Mentions name → allowed name) →
    origin.LiveIn (seen visible items) →
    ∃ tenancy : (origin.handle base).Contract,
      tenancy.holds = Tenancy contract allowed visible items held origin.ground ∧
        tenancy.Spares (leaves (seen visible items) held)

theorem obeys_base (which : ι) : (Origin.base which).Obeys contract :=
  fun allowed visible items held _ _ =>
    ⟨contract.grounded allowed visible items held, rfl,
      contract.grounded_spares allowed visible items held⟩

section Tracker

theorem Tenancy.put_tracker {ground : Option String} (tracker : Tracker) (hallowed : allowed name)
    (hlive : (Origin.tracker name inner).LiveIn (seen visible items))
    (h : Tenancy contract allowed visible items held ground mine store) :
    Tenancy contract allowed visible items held ground mine
      (store.put name (.tracker tracker)) := by
  obtain ⟨-, old, hmem⟩ := h.liveIn hlive
  have hordered := h.standing.stacked.ordered
  have hsum : heldOn ground mine + held + heldOn inner.ground (Object.tracker tracker).grants =
      heldOn ground mine + held + heldOn inner.ground (Object.tracker old).grants +
        heldOn (some name) 0 := by
    rw [heldOn_zero, add_zero, Object.grants, Object.grants]
  exact ⟨h.standing.exchange hmem .tracker hsum h.standing.stacked.live trivial,
    h.grown.trans (grown_put hordered hmem hallowed .tracker)⟩

theorem obeys_tracker (hinner : inner.Obeys contract) :
    (Origin.tracker name inner).Obeys contract := by
  intro allowed visible items held hallowed hlive
  obtain ⟨tenancy, hholds, spares⟩ :=
    hinner allowed visible items held (fun name hm => hallowed name (.inr hm)) hlive.1
  have hput : ∀ out tracker store, tenancy.holds out store →
      tenancy.holds out (store.put name (.tracker tracker)) := by
    rw [hholds]
    exact fun out tracker store => Tenancy.put_tracker tracker (hallowed name (.inl rfl)) hlive
  have halive : ∀ out store, tenancy.holds out store → store.tracker? name ≠ none := by
    rw [hholds]
    intro out store h
    obtain ⟨-, tracker, hmem⟩ := h.liveIn hlive
    rw [Store.tracker?_of_mem h.standing.stacked.ordered hmem]
    exact Option.some_ne_none _
  exact ⟨tenancy.tracked hput halive, hholds, spares.tracked hput halive⟩

end Tracker

section Region

variable {region region' : Region} {home : Option Word}

/-- Where a region that is served is in the store. -/
structure Housed (visible : String → Bool) (store : Store ι β) (name : String) (inner : Origin ι)
    (region : Region) (home : Option Word) : Prop where
  mem : ⟨name, inner, .region region home⟩ ∈ seen visible store.items
  live : inner.LiveIn (seen visible store.items)

theorem Standing.fresh_chunk (hinner : inner.Obeys contract)
    (h : Standing contract visible held machine.store)
    (housed : Housed visible machine.store name inner region home)
    {chunkLayout : Layout} {start : Word} (hpos : 0 < chunkLayout.size.toNat)
    (ha : (inner.handle base).alloc chunkLayout machine = (some start, machine')) :
    Grant.Fresh region.grants ⟨start, chunkLayout⟩ := by
  obtain ⟨tenancy, hholds, -⟩ :=
    hinner inner.Mentions visible machine.store.items held (fun _ => id) housed.live
  have hbegun : tenancy.holds 0 machine.store := by
    rw [hholds]
    exact .begin (by rwa [heldOn_zero, zero_add])
  have hserved := tenancy.alloc hbegun ha
  rw [hholds, granted_some] at hserved
  refine { tenancy.alloc_fresh hbegun hpos ha with apart := fun chunk hchunk => ?_ }
  refine hserved.apart_ground (by simp) housed.live rfl chunk ?_
  rw [mem_blocksOn]
  refine Multiset.mem_add.2 (.inr (mem_holdings.2 ⟨_, housed.mem, rfl, ?_⟩))
  exact Multiset.mem_add.2 (.inl hchunk)

/-- What a region asks for while it serves a request is held on what it was built on. -/
theorem Standing.calling (hinner : inner.Obeys contract)
    (h : Standing contract visible held machine.store)
    (housed : Housed visible machine.store name inner region home)
    (hcalling : Region.Calling (inner.handle base) region machine region' machine') :
    ∃ chunks, region'.grants = chunks + region.grants ∧
      Tenancy contract inner.Mentions visible machine.store.items held inner.ground chunks
        machine'.store ∧
      AgreeOn (leaves (seen visible machine.store.items) held) machine.memory
        machine'.memory := by
  have hbegun : Tenancy contract inner.Mentions visible machine.store.items held inner.ground 0
      machine.store := .begin (by rwa [heldOn_zero, zero_add])
  cases hcalling with
  | silent hgrants => exact ⟨0, by rw [hgrants, zero_add], hbegun, .refl _ _⟩
  | @asked layout result _ served _ ha hgrants =>
    obtain ⟨tenancy, hholds, spares⟩ :=
      hinner inner.Mentions visible machine.store.items held (fun _ => id) housed.live
    rw [← hholds] at hbegun
    have hserved := tenancy.alloc hbegun ha
    have hkept := spares.alloc hbegun ha
    rw [hholds, add_zero] at hserved
    exact ⟨granted result layout, hgrants, hserved, hkept⟩

def plainRegion (base : Allocator β) (name : String) (inner : Origin ι) : Allocator (Store ι β) :=
  { (Origin.region name inner).handle base with nativeRealloc := none, nativeZalloc := none }

theorem plainRegion_alloc (hregion : machine.store.region? name = some region)
    (ha : (plainRegion base name inner).alloc layout machine = (result, machine')) :
    ∃ region' served, region.alloc (inner.handle base) layout machine = (result, region', served) ∧
      machine' = { served with store := served.store.putRegion name region' } := by
  rcases hr : region.alloc (inner.handle base) layout machine with ⟨answer, region', served⟩
  have hserve : (plainRegion base name inner).alloc layout machine =
      (answer, { served with store := served.store.putRegion name region' }) := by
    simp only [plainRegion, Origin.allocator, ofRegion, ofRegion.serve, hregion, hr]
  obtain ⟨rfl, rfl⟩ := Prod.mk.inj (hserve.symm.trans ha)
  exact ⟨region', served, rfl, rfl⟩

theorem Tenancy.forget (hle : mine' ≤ mine)
    (h : Tenancy contract allowed visible items held (some name) mine store) :
    Tenancy contract allowed visible items held (some name) mine' store := by
  have hheld : heldOn (some name) mine' + held ≤ heldOn (some name) mine + held :=
    add_le_add (Multiset.map_le_map hle) le_rfl
  have hholds := h.standing.holds
  rw [add_assoc, blocksOn_add, blocksOn_heldOn_ne _ (by simp)] at hholds
  refine ⟨⟨h.standing.stacked.mono hheld, ?_⟩, h.grown⟩
  rw [add_assoc, blocksOn_add, blocksOn_heldOn_ne _ (by simp)]
  exact hholds

variable (hinner : inner.Obeys contract)
  (hallowed : ∀ other, (Origin.region name inner).Mentions other → allowed other)
  (hlive : (Origin.region name inner).LiveIn (seen visible items))
include hinner hallowed hlive

theorem Tenancy.request
    (h : Tenancy contract allowed visible items held (some name) mine machine.store)
    (ha : (plainRegion base name inner).alloc layout machine = (result, machine')) :
    Tenancy contract allowed visible items held (some name) (granted result layout + mine)
        machine'.store ∧
      AgreeOn (leaves (seen visible machine.store.items) (heldOn (some name) mine + held))
        machine.memory machine'.memory ∧
      ∀ addr, result = some addr → 0 < layout.size.toNat →
        layout.align.bytes.toNat ∣ addr.toNat := by
  obtain ⟨hbeneath, region, home, hmem⟩ := h.liveIn hlive
  have housed : Housed visible machine.store name inner region home := ⟨hmem, hbeneath⟩
  have hordered := h.standing.stacked.ordered
  obtain ⟨region', served, hr, rfl⟩ :=
    plainRegion_alloc (Store.region?_of_mem hordered hmem) ha
  obtain ⟨chunks, hgrants, hserved, hkept⟩ :=
    h.standing.calling hinner housed (Region.calling hr)
  -- the requests of the region lead past it, so that it is there as it was
  have hsame : ⟨name, inner, .region region home⟩ ∈ seen visible served.store.items :=
    Grown.mem_of_not_allowed hserved.grown.seen hmem (hordered.not_mentions_self hmem)
  have hstacked := hserved.standing.stacked
  have hosts : region.Hosts (blocksOn (some name) _) := hstacked.hosts _ hsame
  have hfresh : ∀ {chunkLayout start machine'}, 0 < chunkLayout.size.toNat →
      (inner.handle base).alloc chunkLayout machine = (some start, machine') →
      Grant.Fresh region.grants ⟨start, chunkLayout⟩ :=
    fun hpos hb => h.standing.fresh_chunk hinner housed hpos hb
  have hsum : heldOn (some name) (granted result layout + mine) + held +
      heldOn inner.ground (Object.region region' home).grants =
      heldOn inner.ground chunks + (heldOn (some name) mine + held) +
        heldOn inner.ground (Object.region region home).grants +
        heldOn (some name) (granted result layout) := by
    rw [Object.grants, Object.grants, hgrants]
    simp only [heldOn_add]
    abel
  have hput := hserved.standing.exchange hsame .region hsum
    (fun holding hmem other hother => by
      obtain hmem | hmem := Multiset.mem_add.1 hmem
      · rw [((mem_heldOn _ _).1 hmem).1] at hother
        obtain rfl := Option.some.inj hother
        exact ⟨inner, region, home, hsame⟩
      · exact hstacked.live holding
          (Multiset.mem_add.2 (.inr (Multiset.mem_add.2 (.inr hmem)))) other hother)
    (hosts.request hfresh hr)
  have hgrows : (Object.region region home).Grows (.region region' home) :=
    .region (Region.footers_le hr) (hgrants ▸ Multiset.le_add_left _ _)
  refine ⟨?_, hkept, fun addr he hpos => ?_⟩
  · dsimp only
    rw [Store.putRegion_eq hstacked.ordered hsame]
    exact ⟨hput, (h.grown.trans (hserved.grown.mono fun other hm => hallowed other (.inr hm))).trans
      (grown_put hstacked.ordered hsame (hallowed name (.inl rfl)) hgrows)⟩
  · exact ((Region.alloc_served_of_fresh hosts.sound.valid hfresh hr).fresh addr he hpos).2.1

theorem obeys_plainRegion : ∃ tenancy : (plainRegion base name inner).Contract,
    tenancy.holds = Tenancy contract allowed visible items held (some name) ∧
      tenancy.Spares (leaves (seen visible items) held) := by
  refine ⟨{
    holds := Tenancy contract allowed visible items held (some name)
    alloc := fun h ha => (h.request hinner hallowed hlive ha).1
    release := fun h => h.forget (Multiset.le_add_left _ _)
    nativeRealloc := fun hnative => by cases hnative
    nativeZalloc := fun hnative => by cases hnative
    alloc_fresh := ?fresh
    realloc_fresh := fun hnative => by cases hnative
    zalloc_fresh := fun hnative => by cases hnative
    alloc_keeps := ?keeps
    release_keeps := fun _ => .refl _ _
    realloc_keeps := fun hnative => by cases hnative
    realloc_refused := fun hnative => by cases hnative
    realloc_moves := fun hnative => by cases hnative
    zalloc_keeps := fun hnative => by cases hnative
    zalloc_zeroes := fun hnative => by cases hnative }, rfl, {
    packed := fun h => h.packed
    alloc := ?spares
    release := fun _ => .refl _ _
    nativeRealloc := fun hnative => by cases hnative
    nativeZalloc := fun hnative => by cases hnative }⟩
  case fresh =>
    intro out layout machine addr machine' h hpos ha
    obtain ⟨hserved, -, haligned⟩ := h.request hinner hallowed hlive ha
    have hpacked := hserved.packed
    rw [granted_some, add_assoc] at hpacked
    obtain ⟨hstart, hstop⟩ :=
      hpacked.within _ (Multiset.mem_add.2 (.inl (Multiset.mem_singleton_self _))) hpos
    exact ⟨fun he => Nat.ne_of_gt hstart (congrArg UInt64.toNat he), haligned addr rfl hpos,
      hstop, fun k hk => hpacked.head k (Multiset.mem_add.2 (.inl hk))⟩
  case keeps =>
    intro out layout machine result machine' h ha
    have hkept := (h.request hinner hallowed hlive ha).2.1
    rw [leaves, inUse_heldOn] at hkept
    exact hkept.left
  case spares =>
    intro out layout machine result machine' h ha
    have hkept := (h.request hinner hallowed hlive ha).2.1
    rw [leaves, inUse_heldOn] at hkept
    have hgrown : Grown allowed (seen visible items) (seen visible machine.store.items) :=
      h.grown.seen
    exact hkept.right.mono (Multiset.subset_of_le (hgrown.leaves_le held))

end Region

theorem obeys_region (hinner : inner.Obeys contract) :
    (Origin.region name inner).Obeys contract := by
  intro allowed visible items held hallowed hlive
  obtain ⟨tenancy, hholds, spares⟩ :
      ∃ tenancy : (plainRegion base name inner).Contract,
        tenancy.holds = Tenancy contract allowed visible items held (some name) ∧
          tenancy.Spares (leaves (seen visible items) held) :=
    obeys_plainRegion hinner hallowed hlive
  have hzalloc := ofRegion_zalloc (inner.handle base) (·.region? name) fun region store =>
    store.putRegion name region
  have hfaithful := faithful_ofRegion (inner.handle base) (·.region? name) fun region store =>
    store.putRegion name region
  exact ⟨tenancy.natively spares (fun addr old _ machine hnew =>
    hfaithful.realloc addr old machine hnew) hzalloc, hholds, spares.natively _ _⟩

/-- Every handle of a tower keeps the contract, by induction on what lies beneath it. -/
theorem obeys (contract : base.Contract) (origin : Origin ι) : origin.Obeys contract := by
  induction origin with
  | base which => exact obeys_base which
  | tracker name inner ih => exact obeys_tracker ih
  | region name inner ih => exact obeys_region ih

end ArenaMemory
