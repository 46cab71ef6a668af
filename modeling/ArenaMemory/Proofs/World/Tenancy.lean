import ArenaMemory.Proofs.Allocator.Sparing
import ArenaMemory.Proofs.World.Exchange

namespace ArenaMemory

variable {ι β : Type} {base : Allocator β} {items items' items'' : List (Item ι)} {item : Item ι}
  {object : Object} {held held' : Multiset Holding} {origin : Origin ι} {name : String}
  {allowed allowed' : String → Prop} {visible : String → Bool}

/-- The objects of some names have grown, and no other has changed. -/
abbrev Grown (allowed : String → Prop) (items items' : List (Item ι)) : Prop :=
  Updated (fun name object object' => object.Grows object' ∧ (¬ allowed name → object' = object))
    items items'

namespace Grown

theorem refl (allowed : String → Prop) (items : List (Item ι)) : Grown allowed items items :=
  Updated.refl (fun _ object => ⟨.refl object, fun _ => rfl⟩) items

theorem trans (h : Grown allowed items items') (h' : Grown allowed items' items'') :
    Grown allowed items items'' :=
  Updated.trans (fun _ _ _ _ h h' => ⟨h.1.trans h'.1, fun hnot => (h'.2 hnot).trans (h.2 hnot)⟩) h h'

theorem mono (h : Grown allowed items items') (himp : ∀ name, allowed name → allowed' name) :
    Grown allowed' items items' :=
  Updated.mono (fun name _ _ h => ⟨h.1, fun hnot => h.2 fun ha => hnot (himp name ha)⟩) h

theorem succeeded (h : Grown allowed items items') : Succeeded items items' :=
  Updated.mono (fun _ _ _ h => h.1.replaces) h

theorem inUse_le {part : Object → Multiset Grant}
    (hpart : ∀ {object object'}, object.Grows object' → part object ≤ part object')
    (h : Grown allowed items items') (held : Multiset Holding) :
    inUse part items held ≤ inUse part items' held :=
  add_le_add le_rfl (h.sum_le _ fun _ _ hobject => hpart hobject.1)

theorem leaves_le (h : Grown allowed items items') (held : Multiset Holding) :
    leaves items held ≤ leaves items' held :=
  h.inUse_le Object.Grows.parts_le held

theorem contents_le (h : Grown allowed items items') (held : Multiset Holding) :
    contents items held ≤ contents items' held :=
  h.inUse_le Object.Grows.blocks_le held

theorem holdings_le (h : Grown allowed items items') : holdings items ≤ holdings items' :=
  h.sum_le _ fun _ _ hobject => Multiset.map_le_map hobject.1.grants_le

theorem mem_of_not_allowed (h : Grown allowed items items') (hitem : item ∈ items)
    (hnot : ¬ allowed item.name) : item ∈ items' := by
  obtain ⟨object, hobject, hmem⟩ := h.exists_new hitem
  rwa [hobject.2 hnot] at hmem

end Grown

/-- The objects that are looked at are in order, and what is held on base allocators is out there.
-/
structure Standing (contract : base.Contract) (visible : String → Bool) (held : Multiset Holding)
    (store : Store ι β) : Prop where
  stacked : Stacked (seen visible store.items) held
  holds : contract.holds (blocksOn none (held + holdings (seen visible store.items))) store.base

variable {contract : base.Contract} {store : Store ι β} {ground : Option String}
  {mine mine' : Multiset Grant}

theorem Standing.exchange {added : Multiset Grant} (h : Standing contract visible held store)
    (hitem : item ∈ seen visible store.items) (hrep : item.object.Replaces object)
    (hsum : held' + heldOn item.origin.ground object.grants =
      held + heldOn item.origin.ground item.object.grants + heldOn (some item.name) added)
    (hlive : ∀ holding ∈ held', ∀ name, holding.1 = some name →
      ∃ origin region home, ⟨name, origin, .region region home⟩ ∈ seen visible store.items)
    (hosts : object.Hosts (added +
      blocksOn (some item.name) (held + holdings (seen visible store.items)))) :
    Standing contract visible held' (store.put item.name object) := by
  obtain ⟨hstacked, hsame⟩ := h.stacked.exchange hitem hrep hsum hlive hosts
  constructor
  · rw [Store.seen_put]
    exact hstacked
  · rw [Store.seen_put, hsame]
    exact h.holds

/-- The tenancy of a client on a ground: the client has its blocks out there, others hold theirs. -/
structure Tenancy (contract : base.Contract) (allowed : String → Prop) (visible : String → Bool)
    (items : List (Item ι)) (held : Multiset Holding) (ground : Option String)
    (mine : Multiset Grant) (store : Store ι β) : Prop where
  standing : Standing contract visible (heldOn ground mine + held) store
  grown : Grown allowed items store.items

theorem grown_put (h : Ordered (seen visible store.items)) (hitem : item ∈ seen visible store.items)
    (hallowed : allowed item.name) (hgrows : item.object.Grows object) :
    Grown allowed store.items (store.put item.name object).items :=
  updated_replaced (fun _ object => ⟨.refl object, fun _ => rfl⟩) fun _ hother hname =>
    ⟨Store.eq_of_seen h hitem hother hname ▸ hgrows, fun hnot => absurd hallowed hnot⟩

namespace Tenancy

theorem begin (h : Standing contract visible (heldOn ground mine + held) store) :
    Tenancy contract allowed visible store.items held ground mine store :=
  ⟨h, .refl allowed _⟩

variable (h : Tenancy contract allowed visible items held ground mine store)
include h

theorem packed : Packed (mine + leaves (seen visible items) held) := by
  have hpacked := h.standing.stacked.packed_leaves
  rw [leaves, inUse_heldOn] at hpacked
  have hgrown : Grown allowed (seen visible items) (seen visible store.items) := h.grown.seen
  exact hpacked.mono (add_le_add le_rfl (hgrown.leaves_le held))

theorem liveIn (hlive : origin.LiveIn (seen visible items)) :
    origin.LiveIn (seen visible store.items) :=
  h.grown.succeeded.seen.liveIn hlive

theorem apart_ground {g : Grant} (hg : g ∈ mine) (hlive : origin.LiveIn (seen visible items))
    (hground : origin.ground = ground) :
    ∀ k ∈ blocksOn ground (held + holdings (seen visible items)), g.Apart k := by
  have hgrown : Grown allowed (seen visible items) (seen visible store.items) := h.grown.seen
  have hseparate := h.standing.stacked.separate_ground (h.liveIn hlive)
  rw [hground, add_assoc, blocksOn_add, blocksOn_heldOn] at hseparate
  obtain ⟨-, -, hacross⟩ := separate_add.1 hseparate
  exact fun k hk => hacross g hg k
    (Multiset.mem_of_le (blocksOn_le (add_le_add le_rfl hgrown.holdings_le)) hk)

end Tenancy

end ArenaMemory
