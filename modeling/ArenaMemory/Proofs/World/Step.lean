import ArenaMemory.Proofs.World.Lifetime

namespace ArenaMemory

open Allocator

variable {ι β σ : Type} {base : Allocator β} {contract : base.Contract}

def Object.value : Object → Multiset Grant
  | .box kind addr => {⟨addr, kind.layout⟩}
  | .tracker _ | .region _ _ | .interner _ _ => 0

theorem Object.value_le_blocks (object : Object) : object.value ≤ object.blocks := by
  cases object with
  | interner => exact Multiset.zero_le _
  | tracker | region | box => exact le_rfl

/-- A request through a handle: what it takes, and what its client has out of `mine` before and
after it. -/
inductive Request (handle : Allocator σ) :
    Multiset Grant → Multiset Grant → Machine σ → Multiset Grant → Machine σ → Prop where
  | alloc {layout machine result machine'} : handle.alloc layout machine = (result, machine') →
      Request handle 0 0 machine (granted result layout) machine'
  | zalloc {layout machine result machine'} : handle.zalloc layout machine = (result, machine') →
      Request handle 0 0 machine (granted result layout) machine'
  | free (addr layout machine) :
      Request handle {⟨addr, layout⟩} {⟨addr, layout⟩} machine 0
        (handle.free (some addr) layout machine)
  | moved {addr old new machine fresh machine'} : 0 < new.size.toNat →
      handle.realloc (some addr) old new machine = (some fresh, machine') →
      Request handle {⟨addr, old⟩} {⟨addr, old⟩} machine {⟨fresh, new⟩} machine'
  | unmoved {addr old new machine machine'} : 0 < new.size.toNat →
      handle.realloc (some addr) old new machine = (none, machine') →
      Request handle 0 {⟨addr, old⟩} machine {⟨addr, old⟩} machine'

namespace Site

/-- What may happen, along with the blocks that it takes. -/
inductive Step (base : Allocator β) : Multiset Grant → Site ι β → Site ι β → Prop where
  | request {machine : Machine (Store ι β)} {held} {origin : Origin ι} {taken mine mine' machine'} :
      origin.LiveIn machine.store.items →
      Request (origin.handle base) taken mine machine mine' machine' →
      Step base taken ⟨machine, heldOn origin.ground mine + held⟩
        ⟨machine', heldOn origin.ground mine' + held⟩
  /-- A block that is moved to nothing. What a base allocator does then natively is its own. -/
  | emptied {machine : Machine (Store ι β)} {held} {origin : Origin ι} {addr old new machine'} :
      origin.LiveIn machine.store.items → new.size = 0 →
      ((∃ which, origin = .base which) → base.nativeRealloc = none) →
      (origin.handle base).realloc (some addr) old new machine = (none, machine') →
      Step base {⟨addr, old⟩} ⟨machine, heldOn origin.ground {⟨addr, old⟩} + held⟩ ⟨machine', held⟩
  /-- A user writes into a block, in whatever way. -/
  | write {machine : Machine (Store ι β)} {held memory} {g : Grant} :
      g ∈ inUse Object.value machine.store.items held →
      (∀ a, ¬ g.Covers a → memory.get a = machine.memory.get a) →
      Step base {g} ⟨machine, held⟩ ⟨{ machine with memory }, held⟩
  /-- A region is asked itself: for a block, a copy or another limit. -/
  | serve {machine : Machine (Store ι β)} {held name} {inner : Origin ι} {region home result region'}
      {op : Region.Operation} {machine' : Machine (Store ι β)} :
      ⟨name, inner, .region region home⟩ ∈ machine.store.items → op.forgets = false →
      op.perform (inner.handle base) region machine = (result, region', machine') →
      Step base 0 ⟨machine, held⟩
        ⟨{ machine' with store := machine'.store.putRegion name region' },
          heldOn (some name) (op.blocks result [] : List Grant) + held⟩
  /-- A region is reset or gives all back, and the blocks on it are gone. -/
  | forget {machine : Machine (Store ι β)} {held name} {inner : Origin ι} {region home result region'}
      {op : Region.Operation} {machine' : Machine (Store ι β)} :
      ⟨name, inner, .region region home⟩ ∈ machine.store.items → op.forgets = true →
      machine.store.isUsed name = false →
      op.perform (inner.handle base) region machine = (result, region', machine') →
      Step base (blocksOn (some name) held) ⟨machine, held⟩
        ⟨{ machine' with store := machine'.store.putRegion name region' }, elsewhere name held⟩
  | intern {machine : Machine (Store ι β)} {held name} {origin : Origin ι} {interner home answer}
      {interner'} {op : Interner.Operation} {contentHash} {machine' : Machine (Store ι β)} :
      ⟨name, origin, .interner interner home⟩ ∈ machine.store.items →
      op.perform contentHash (origin.handle base) interner machine = (answer, interner', machine') →
      Step base (if op.forgets then interner.copies else 0) ⟨machine, held⟩
        ⟨{ machine' with store := machine'.store.put name (.interner interner' home) }, held⟩
  | setBudget {machine : Machine (Store ι β)} {held name inner tracker} (budget) :
      ⟨name, inner, .tracker tracker⟩ ∈ machine.store.items →
      Step base 0 ⟨machine, held⟩
        ⟨{ machine with store := machine.store.put name (.tracker (tracker.setBudget budget)) }, held⟩
  | create {machine : Machine (Store ι β)} {held} {origin : Origin ι} {object}
      {machine' : Machine (Store ι β)} (name) :
      origin.LiveIn machine.store.items → machine.store.find? name = none →
      Created (origin.handle base) machine (some object) machine' →
      Step base 0 ⟨machine, held⟩
        ⟨{ machine' with store := machine'.store.add ⟨name, origin, object⟩ }, held⟩
  | notCreated {machine : Machine (Store ι β)} {held} {origin : Origin ι} {machine'} :
      origin.LiveIn machine.store.items → Created (origin.handle base) machine none machine' →
      Step base 0 ⟨machine, held⟩ ⟨machine', held⟩
  | drop {machine : Machine (Store ι β)} {held} {item : Item ι} {dropped : Machine (Store ι β)} :
      item ∈ machine.store.items → machine.store.isUsed item.name = false →
      item.object.drop (item.origin.handle base) machine = dropped →
      Step base (blocksOn (some item.name) held + item.object.blocks) ⟨machine, held⟩
        ⟨{ dropped with store := dropped.store.remove item.name }, elsewhere item.name held⟩

/-- The store is in order after a step, and the blocks that were not taken are as they were. -/
structure Passed (contract : base.Contract) (taken : Multiset Grant) (site site' : Site ι β) :
    Prop where
  settled : Settled contract site'.held site'.machine.store
  undisturbed : Undisturbed taken site site'

end Site

section Request

variable {handle : Allocator σ} {client : handle.Contract} {kept taken mine mine' : Multiset Grant}
  {machine machine' : Machine σ}

theorem Request.served (spares : client.Spares kept) (h : client.holds mine machine.store)
    (hr : Request handle taken mine machine mine' machine') :
    client.holds mine' machine'.store ∧ ∃ stay, mine = taken + stay ∧ stay ≤ mine' ∧
      AgreeOn (stay + kept) machine.memory machine'.memory := by
  cases hr with
  | alloc ha =>
    have hserved := client.alloc h ha
    rw [add_zero] at hserved
    exact ⟨hserved, 0, rfl, Multiset.zero_le _, (zero_add kept).symm ▸ spares.alloc h ha⟩
  | zalloc hz =>
    have hserved := client.toLedger.zalloc h hz
    rw [add_zero] at hserved
    exact ⟨hserved, 0, rfl, Multiset.zero_le _, (zero_add kept).symm ▸ spares.zalloc h hz⟩
  | free addr layout =>
    rw [← add_zero {_}] at h
    exact ⟨client.release h, 0, (add_zero _).symm, le_rfl, (zero_add kept).symm ▸ spares.release h⟩
  | moved hnew hm =>
    rw [← add_zero {_}] at h
    have hserved := client.toLedger.realloc hnew h hm
    rw [add_zero] at hserved
    exact ⟨hserved, 0, (add_zero _).symm, Multiset.zero_le _,
      (zero_add kept).symm ▸ spares.realloc hnew h hm⟩
  | unmoved hnew hm =>
    rw [← add_zero {_}] at h
    have hserved := client.toLedger.realloc hnew h hm
    rw [add_zero] at hserved
    exact ⟨hserved, _, (zero_add _).symm, le_rfl,
      (client.agree_of_unmoved hnew h hm).add (spares.realloc hnew h hm)⟩

end Request

namespace Site

variable {machine machine' : Machine (Store ι β)} {held : Multiset Holding} {origin inner : Origin ι}
  {taken mine mine' : Multiset Grant} {name : String} {item : Item ι} {region region' : Region}
  {home result : Option Word}

theorem passed_request (h : Settled contract (heldOn origin.ground mine + held) machine.store)
    (hlive : origin.LiveIn machine.store.items)
    (hr : Request (origin.handle base) taken mine machine mine' machine') :
    Passed contract taken ⟨machine, heldOn origin.ground mine + held⟩
      ⟨machine', heldOn origin.ground mine' + held⟩ := by
  obtain ⟨tenancy, hholds, spares, hbegun⟩ := h.client_all hlive
  obtain ⟨hafter, stay, hmine, hstay, hagree⟩ := hr.served spares hbegun
  rw [hholds] at hafter
  exact ⟨hafter.standing, hafter.undisturbed hmine hstay hagree⟩

/-- Where the handle composes the operation, a block that is moved to nothing is given back, and a
region does nothing then as it does when a block is given back. -/
theorem realloc_emptied {addr : Word} {old new : Layout} (hordered : Ordered machine.store.items)
    (hlive : origin.LiveIn machine.store.items) (hsize : new.size = 0)
    (hbase : (∃ which, origin = .base which) → base.nativeRealloc = none) :
    (origin.handle base).realloc (some addr) old new machine =
      (none, (origin.handle base).release addr old machine) := by
  have hcomposed : (origin.handle base).nativeRealloc = none →
      (origin.handle base).realloc (some addr) old new machine =
        (none, (origin.handle base).release addr old machine) := by
    intro hnone
    simp only [Allocator.realloc, hnone, if_pos hsize]
  cases origin with
  | base which =>
    apply hcomposed
    simp only [Origin.allocator, Allocator.within, hbase ⟨which, rfl⟩, Option.map_none]
  | tracker name inner => exact hcomposed rfl
  | region name inner =>
    obtain ⟨-, region, home, hmem⟩ := hlive
    have hsame : machine.store.putRegion name region = machine.store :=
      (Store.putRegion_all hordered hmem).trans (Store.put_self hordered hmem)
    simp only [Allocator.realloc, Origin.allocator, ofRegion, ofRegion.serve,
      Store.region?_all hordered hmem, Region.realloc, if_pos hsize, hsame]

theorem passed_new (h : Settled contract held machine.store)
    (hlive : origin.LiveIn machine.store.items)
    (hr : Request (origin.handle base) 0 0 machine mine' machine') :
    Passed contract 0 ⟨machine, held⟩ ⟨machine', heldOn origin.ground mine' + held⟩ := by
  have hfree : Settled contract (heldOn origin.ground 0 + held) machine.store := by
    rwa [heldOn_zero, zero_add]
  have hpassed := passed_request hfree hlive hr
  rwa [heldOn_zero, zero_add] at hpassed

theorem passed_emptied {addr : Word} {old new : Layout}
    (h : Settled contract (heldOn origin.ground {⟨addr, old⟩} + held) machine.store)
    (hlive : origin.LiveIn machine.store.items) (hsize : new.size = 0)
    (hbase : (∃ which, origin = .base which) → base.nativeRealloc = none)
    (hr : (origin.handle base).realloc (some addr) old new machine = (none, machine')) :
    Passed contract {⟨addr, old⟩} ⟨machine, heldOn origin.ground {⟨addr, old⟩} + held⟩
      ⟨machine', held⟩ := by
  rw [realloc_emptied h.stacked_all.ordered hlive hsize hbase] at hr
  obtain ⟨-, rfl⟩ := hr
  have hpassed := passed_request h hlive (.free addr old machine)
  rwa [heldOn_zero, zero_add] at hpassed

theorem passed_write {memory : Memory} {g : Grant} (h : Settled contract held machine.store)
    (hg : g ∈ inUse Object.value machine.store.items held)
    (hsame : ∀ a, ¬ g.Covers a → memory.get a = machine.memory.get a) :
    Passed contract {g} ⟨machine, held⟩ ⟨{ machine with memory }, held⟩ := by
  have hle : inUse Object.value machine.store.items held ≤ contents machine.store.items held :=
    inUse_mono Object.value_le_blocks
  obtain ⟨kept, hkept⟩ := Multiset.exists_cons_of_mem (Multiset.mem_of_le hle hg)
  have hcontents : contents machine.store.items held = {g} + kept := hkept
  have hpacked := h.stacked_all.packed_leaves.mono contents_le_leaves
  rw [hcontents] at hpacked
  refine ⟨h, kept, hcontents, hcontents ▸ Multiset.le_add_left _ _, fun k hk a ha => ?_⟩
  exact hsame a ((hpacked.head k hk).symm.not_covers ha)

theorem handle_alloc {layout : Layout} (hregion : machine.store.region? name = some region)
    (hr : region.alloc (inner.handle base) layout machine = (result, region', machine')) :
    ((Origin.region name inner).handle base).alloc layout machine =
      (result, { machine' with store := machine'.store.putRegion name region' }) := by
  simp only [Origin.allocator, ofRegion, ofRegion.serve, hregion, hr]

theorem handle_zalloc {layout : Layout} (hregion : machine.store.region? name = some region)
    (hr : region.allocZeroed (inner.handle base) layout machine = (result, region', machine')) :
    ((Origin.region name inner).handle base).zalloc layout machine =
      (result, { machine' with store := machine'.store.putRegion name region' }) := by
  simp only [Allocator.zalloc, Origin.allocator, ofRegion, ofRegion.serve, hregion, hr]

theorem fresh_alloc {layout : Layout} {addr : Word} (h : Settled contract held machine.store)
    (hlive : origin.LiveIn machine.store.items) (hpos : 0 < layout.size.toNat)
    (ha : (origin.handle base).alloc layout machine = (some addr, machine')) :
    Grant.Fresh (leaves machine.store.items held) ⟨addr, layout⟩ := by
  obtain ⟨tenancy, -, spares, hbegun⟩ := h.newcomer hlive
  exact (spares.fresh (tenancy.alloc hbegun ha) (tenancy.alloc_fresh hbegun hpos ha)).right

theorem passed_put {object : Object} (h : Settled contract held machine.store)
    (hitem : item ∈ machine.store.items) (hrep : item.object.Replaces object)
    (hgrants : object.grants = item.object.grants) (hblocks : object.blocks = item.object.blocks)
    (hosts : ∀ {hosted}, item.object.Hosts hosted → object.Hosts hosted) :
    Passed contract 0 ⟨machine, held⟩
      ⟨{ machine with store := machine.store.put item.name object }, held⟩ := by
  have hordered := h.stacked_all.ordered
  have hvisible : item ∈ seen (fun _ => true) machine.store.items := by rwa [seen_all]
  have hsum : held + heldOn item.origin.ground object.grants =
      held + heldOn item.origin.ground item.object.grants + heldOn (some item.name) 0 := by
    rw [hgrants, heldOn_zero, add_zero]
  refine ⟨h.exchange hvisible hrep hsum h.stacked.live ?_, contents machine.store.items held,
    (zero_add _).symm, ?_, .refl _ _⟩
  · rw [zero_add]
    exact hosts (h.stacked.hosts item hvisible)
  · have hafter : contents (replaced machine.store.items item.name object) held = _ :=
      inUse_replaced hordered hitem hrep
    rw [hblocks, ← inUse_others hordered hitem] at hafter
    exact hafter.ge

theorem passed_serve {op : Region.Operation} (h : Settled contract held machine.store)
    (hmem : ⟨name, inner, .region region home⟩ ∈ machine.store.items) (hop : op.forgets = false)
    (hp : op.perform (inner.handle base) region machine = (result, region', machine')) :
    Passed contract 0 ⟨machine, held⟩
      ⟨{ machine' with store := machine'.store.putRegion name region' },
        heldOn (some name) (op.blocks result [] : List Grant) + held⟩ := by
  have hordered := h.stacked_all.ordered
  have hperformed := hp ▸ Region.performed op (inner.handle base) region machine
  cases hperformed with
  | declined =>
    rw [Store.putRegion_all hordered hmem, Store.put_self hordered hmem,
      Region.Operation.blocks_none hop, Multiset.coe_nil, heldOn_zero, zero_add]
    exact ⟨h, .refl _⟩
  | @requested _ layout _ _ served memory _ hlayout ha hfills =>
    have hlive : (Origin.region name inner).LiveIn machine.store.items :=
      ⟨hordered.liveIn hmem, region, home, hmem⟩
    have hhandle := handle_alloc (Store.region?_all hordered hmem) ha
    obtain ⟨hsettled, hundisturbed⟩ := passed_new h hlive (.alloc hhandle)
    have hblocks : (op.blocks result [] : List Grant) = granted result layout := by
      cases result with
      | none => rw [Region.Operation.blocks_none hop]; rfl
      | some addr => rw [Region.Operation.blocks_some hop hlayout]; rfl
    rw [hblocks]
    refine ⟨hsettled, hundisturbed.fill (hfills _ fun addr he hpos => ?_)⟩
    exact (fresh_alloc h hlive hpos (he ▸ hhandle)).mono contents_le_leaves
  | limited limit =>
    rw [Store.putRegion_all hordered hmem, Region.Operation.blocks_none hop, Multiset.coe_nil,
      heldOn_zero, zero_add]
    exact passed_put h hmem .region rfl rfl fun hosts => Region.Hosts.setLimit hosts limit
  | reset | deinit => cases hop

theorem passed_forget {op : Region.Operation} (h : Settled contract held machine.store)
    (hmem : ⟨name, inner, .region region home⟩ ∈ machine.store.items) (hop : op.forgets = true)
    (hused : machine.store.isUsed name = false)
    (hp : op.perform (inner.handle base) region machine = (result, region', machine')) :
    Passed contract (blocksOn (some name) held) ⟨machine, held⟩
      ⟨{ machine' with store := machine'.store.putRegion name region' }, elsewhere name held⟩ := by
  have hordered := h.stacked_all.ordered
  obtain ⟨tenancy, hholds, spares, hbegun⟩ :=
    h.detached hmem (Store.not_mentions_of_not_used hordered hused)
  have hgrants : tenancy.holds (region.grants + granted home Object.regionLayout) machine.store :=
    hbegun
  have hafter := Region.perform_holds tenancy.toLedger hgrants hp
  have hkept := Region.perform_kept spares.keeps hop hgrants hp
  have hosts : region.Hosts _ := h.stacked_all.hosts _ hmem
  have hsound := hosts.sound.perform tenancy.toPlacement hgrants hp
  rw [hholds] at hafter
  rw [Store.putRegion_all (hafter.grown.succeeded.ordered hordered) (hafter.mem_after hordered hmem)]
  have hobject : Tenancy contract inner.Mentions (· ≠ name) machine.store.items
      (elsewhere name held) inner.ground (Object.region region' home).grants machine'.store := hafter
  have hagree : AgreeOn (leaves (others name machine.store.items) (elsewhere name held) + 0)
      machine.memory machine'.memory := by rwa [add_zero]
  have hblocks : (Object.region region home).blocks = 0 + 0 := rfl
  have hundisturbed :=
    hobject.undisturbed_attach hmem hordered .region hblocks (Multiset.zero_le _) hagree
  rw [add_zero] at hundisturbed
  exact ⟨hobject.attach hmem hordered .region (Region.hosts_zero hsound), hundisturbed⟩

theorem passed_intern {interner interner' : Interner} {op : Interner.Operation}
    {answer : Interner.Answer} {contentHash : ContentHash}
    (h : Settled contract held machine.store)
    (hmem : ⟨name, origin, .interner interner home⟩ ∈ machine.store.items)
    (hp : op.perform contentHash (origin.handle base) interner machine =
      (answer, interner', machine')) :
    Passed contract (if op.forgets then interner.copies else 0) ⟨machine, held⟩
      ⟨{ machine' with store := machine'.store.put name (.interner interner' home) }, held⟩ := by
  have hordered := h.stacked_all.ordered
  obtain ⟨tenancy, hholds, spares, hbegun⟩ :=
    h.detached hmem (hordered.not_mentions_of_kind hmem nofun nofun)
  -- nothing is held on an interner
  have hnone : blocksOn (some name) held = 0 :=
    h.stacked_all.blocksOn_eq_zero_of_not_region hmem nofun
  have helsewhere := elsewhere_eq_self hnone
  have hhosts : interner.Sized ∧ interner.arena.Hosts interner.copies := h.stacked_all.hosts _ hmem
  have howns : Interner.Owns tenancy.toLedger (granted home Object.internerLayout) interner machine :=
    ⟨hhosts.1, hbegun⟩
  have hafter := howns.perform hp
  have hcarried := Interner.perform_carried spares howns hhosts.2 hp
  have hobject : Tenancy contract origin.Mentions (· ≠ name) machine.store.items
      (elsewhere name held) origin.ground (Object.interner interner' home).grants
      machine'.store := hholds ▸ hafter.holds
  have hsettled := hobject.attach hmem hordered .interner ⟨hafter.sized, hcarried.1.1⟩
  have hundisturbed : Undisturbed
      (blocksOn (some name) held + if op.forgets then interner.copies else 0) ⟨machine, held⟩
      ⟨{ machine' with store := machine'.store.put name (.interner interner' home) },
        elsewhere name held⟩ := by
    cases hop : op.forgets with
    | true =>
      have hblocks : (Object.interner interner home).blocks = interner.copies + 0 :=
        (add_zero interner.copies).symm
      exact hobject.undisturbed_attach hmem hordered .interner hblocks (Multiset.zero_le _)
        ((add_zero (leaves _ _)).symm ▸ hcarried.1.2)
    | false =>
      have hblocks : (Object.interner interner home).blocks = 0 + interner.copies :=
        (zero_add interner.copies).symm
      exact hobject.undisturbed_attach hmem hordered .interner hblocks (hcarried.2 hop).copies_le
        (hcarried.2 hop).agree
  rw [hnone, zero_add, helsewhere] at hundisturbed
  rw [helsewhere] at hsettled
  exact ⟨hsettled, hundisturbed⟩

theorem passed_create {object : Object} (h : Settled contract held machine.store)
    (hlive : origin.LiveIn machine.store.items) (hname : machine.store.find? name = none)
    (hc : Created (origin.handle base) machine (some object) machine') :
    Passed contract 0 ⟨machine, held⟩
      ⟨{ machine' with store := machine'.store.add ⟨name, origin, object⟩ }, held⟩ := by
  obtain ⟨tenancy, hholds, spares, hbegun⟩ := h.newcomer hlive
  obtain ⟨hserved, hosts, hkept⟩ := hc.served spares hbegun
  rw [hholds, Option.elim_some] at hserved
  have hnew : ∀ other ∈ machine.store.items, other.name ≠ name := fun other hother hsame =>
    List.find?_eq_none.1 hname other hother (decide_eq_true hsame)
  refine ⟨hserved.add hnew hlive (hosts object rfl), contents machine.store.items held,
    (zero_add _).symm, ?_, hkept.mono (Multiset.subset_of_le contents_le_leaves)⟩
  have hadded : contents (⟨name, origin, object⟩ :: machine'.store.items) held =
      object.blocks + contents machine'.store.items held := by
    rw [contents, inUse, List.map_cons, List.sum_cons, add_left_comm]
    rfl
  exact (hserved.grown.contents_le held).trans (hadded ▸ Multiset.le_add_left _ _)

theorem passed_notCreated (h : Settled contract held machine.store)
    (hlive : origin.LiveIn machine.store.items)
    (hc : Created (origin.handle base) machine none machine') :
    Passed contract 0 ⟨machine, held⟩ ⟨machine', held⟩ := by
  obtain ⟨tenancy, hholds, spares, hbegun⟩ := h.newcomer hlive
  obtain ⟨hserved, -, hkept⟩ := hc.served spares hbegun
  rw [hholds] at hserved
  have hsettled := hserved.standing
  rw [Option.elim_none, heldOn_zero, zero_add] at hsettled
  exact ⟨hsettled, contents machine.store.items held, (zero_add _).symm,
    hserved.grown.contents_le held, hkept.mono (Multiset.subset_of_le contents_le_leaves)⟩

theorem passed_drop (h : Settled contract held machine.store) (hitem : item ∈ machine.store.items)
    (hused : machine.store.isUsed item.name = false)
    (hd : item.object.drop (item.origin.handle base) machine = machine') :
    Passed contract (blocksOn (some item.name) held + item.object.blocks) ⟨machine, held⟩
      ⟨{ machine' with store := machine'.store.remove item.name }, elsewhere item.name held⟩ := by
  have hordered := h.stacked_all.ordered
  obtain ⟨tenancy, hholds, spares, hbegun⟩ :=
    h.detached hitem (Store.not_mentions_of_not_used hordered hused)
  have hcount : ∀ {out store dropped}, tenancy.holds out store →
      tenancy.holds out { store with dropped := dropped } := by
    rw [hholds]
    exact fun h => ⟨⟨h.standing.stacked, h.standing.holds⟩, h.grown⟩
  obtain ⟨hafter, hkept⟩ := Object.dropped spares hcount hbegun
  rw [hholds, hd] at hafter
  rw [hd] at hkept
  exact ⟨hafter.remove, hafter.undisturbed_remove hitem hordered hkept⟩

/-- Every step leaves the store in order, and the bytes of all blocks that it does not take. -/
theorem Step.passed {site site' : Site ι β} (h : Settled contract site.held site.machine.store)
    (step : Step base taken site site') : Passed contract taken site site' := by
  cases step with
  | request hlive hr => exact passed_request h hlive hr
  | emptied hlive hsize hbase hr => exact passed_emptied h hlive hsize hbase hr
  | write hg hsame => exact passed_write h hg hsame
  | serve hmem hop hp => exact passed_serve h hmem hop hp
  | forget hmem hop hused hp => exact passed_forget h hmem hop hused hp
  | intern hmem hp => exact passed_intern h hmem hp
  | setBudget budget hmem => exact passed_put h hmem .tracker rfl rfl fun _ => trivial
  | create name hlive hname hc => exact passed_create h hlive hname hc
  | notCreated hlive hc => exact passed_notCreated h hlive hc
  | drop hitem hused hd => exact passed_drop h hitem hused hd

end Site

end ArenaMemory
