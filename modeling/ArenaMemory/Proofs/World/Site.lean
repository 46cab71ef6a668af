import ArenaMemory.Proofs.World.Towers

namespace ArenaMemory

variable {ι β : Type} {base : Allocator β} {contract : base.Contract} {item : Item ι} {object : Object}
  {held : Multiset Holding} {origin : Origin ι} {name : String} {store store' : Store ι β}
  {allowed : String → Prop} {visible : String → Bool} {ground : Option String}
  {mine mine' taken stay : Multiset Grant} {machine machine' : Machine (Store ι β)}

structure Site (ι β : Type) where
  machine : Machine (Store ι β)
  held : Multiset Holding

namespace Site

abbrev items (site : Site ι β) : List (Item ι) := site.machine.store.items

/-- All blocks with contents of users are still there with the bytes that they had, except for those
that were taken. -/
def Undisturbed (taken : Multiset Grant) (site site' : Site ι β) : Prop :=
  ∃ kept, contents site.items site.held = taken + kept ∧ kept ≤ contents site'.items site'.held ∧
    AgreeOn kept site.machine.memory site'.machine.memory

theorem Undisturbed.refl (site : Site ι β) : Undisturbed 0 site site :=
  ⟨_, (zero_add _).symm, le_rfl, .refl _ _⟩

theorem Undisturbed.fill {site site' : Site ι β} {memory : Memory} (h : Undisturbed 0 site site')
    (hagree : AgreeOn (contents site.items site.held) site'.machine.memory memory) :
    Undisturbed 0 site ⟨{ site'.machine with memory }, site'.held⟩ := by
  obtain ⟨kept, hkept, hle, hsame⟩ := h
  rw [zero_add] at hkept
  exact ⟨kept, hkept.trans (zero_add kept).symm, hle, hsame.trans (hkept ▸ hagree)⟩

end Site

open Site

/-- All objects are in order, and what is held on base allocators is out there. -/
abbrev Settled (contract : base.Contract) (held : Multiset Holding) (store : Store ι β) : Prop :=
  Standing contract (fun _ => true) held store

theorem settled (hstacked : Stacked store.items held)
    (hholds : contract.holds (blocksOn none (held + holdings store.items)) store.base) :
    Settled contract held store := by
  constructor <;> rwa [seen_all]

namespace Standing

theorem stacked_all (h : Settled contract held store) : Stacked store.items held := by
  have hstacked := h.stacked
  rwa [seen_all] at hstacked

theorem holds_all (h : Settled contract held store) :
    contract.holds (blocksOn none (held + holdings store.items)) store.base := by
  have hholds := h.holds
  rwa [seen_all] at hholds

/-- The contract of a handle towards a client that has blocks out on its ground. -/
theorem client (h : Standing contract visible (heldOn origin.ground mine + held) store)
    (hlive : origin.LiveIn (seen visible store.items)) :
    ∃ tenancy : (origin.handle base).Contract,
      tenancy.holds = Tenancy contract origin.Mentions visible store.items held origin.ground ∧
        tenancy.Spares (leaves (seen visible store.items) held) ∧ tenancy.holds mine store := by
  obtain ⟨tenancy, hholds, spares⟩ :=
    obeys contract origin origin.Mentions visible store.items held (fun _ => id) hlive
  exact ⟨tenancy, hholds, spares, hholds ▸ .begin h⟩

theorem client_all (h : Settled contract (heldOn origin.ground mine + held) store)
    (hlive : origin.LiveIn store.items) :
    ∃ tenancy : (origin.handle base).Contract,
      tenancy.holds = Tenancy contract origin.Mentions (fun _ => true) store.items held origin.ground ∧
        tenancy.Spares (leaves store.items held) ∧ tenancy.holds mine store := by
  have hclient := h.client ((seen_all store.items).symm ▸ hlive)
  rwa [seen_all] at hclient

theorem newcomer (h : Settled contract held store) (hlive : origin.LiveIn store.items) :
    ∃ tenancy : (origin.handle base).Contract,
      tenancy.holds = Tenancy contract origin.Mentions (fun _ => true) store.items held origin.ground ∧
        tenancy.Spares (leaves store.items held) ∧ tenancy.holds 0 store :=
  client_all (by rwa [heldOn_zero, zero_add]) hlive

theorem detach (h : Settled contract held store) (hitem : item ∈ store.items)
    (hnot : ∀ other ∈ store.items, ¬ other.origin.Mentions item.name) :
    Standing contract (· ≠ item.name)
      (heldOn item.origin.ground item.object.grants + elsewhere item.name held) store := by
  refine ⟨h.stacked_all.detach hitem hnot, ?_⟩
  have hsame : blocksOn none _ = blocksOn none (held + holdings store.items) :=
    blocksOn_detach h.stacked_all.ordered hitem (by simp)
  rw [hsame]
  exact h.holds_all

theorem detached (h : Settled contract held store) (hitem : item ∈ store.items)
    (hnot : ∀ other ∈ store.items, ¬ other.origin.Mentions item.name) :
    ∃ tenancy : (item.origin.handle base).Contract,
      tenancy.holds = Tenancy contract item.origin.Mentions (· ≠ item.name) store.items
          (elsewhere item.name held) item.origin.ground ∧
        tenancy.Spares (leaves (others item.name store.items) (elsewhere item.name held)) ∧
        tenancy.holds item.object.grants store :=
  (h.detach hitem hnot).client ((h.stacked_all.ordered.liveIn hitem).others (hnot item hitem))

end Standing

namespace Tenancy

theorem undisturbed
    (h : Tenancy contract allowed (fun _ => true) machine.store.items held ground mine' machine'.store)
    (hmine : mine = taken + stay) (hstay : stay ≤ mine')
    (hagree : AgreeOn (stay + leaves machine.store.items held) machine.memory machine'.memory) :
    Undisturbed taken ⟨machine, heldOn ground mine + held⟩
      ⟨machine', heldOn ground mine' + held⟩ := by
  refine ⟨stay + contents machine.store.items held, ?_, ?_,
    hagree.mono (Multiset.subset_of_le (add_le_add le_rfl contents_le_leaves))⟩
  · rw [contents, inUse_heldOn, hmine, add_assoc]
  · rw [contents, contents, inUse_heldOn]
    exact add_le_add hstay (h.grown.contents_le held)

theorem mem_after (h : Tenancy contract item.origin.Mentions visible store.items held ground mine store')
    (hordered : Ordered store.items) (hitem : item ∈ store.items) : item ∈ store'.items :=
  h.grown.mem_of_not_allowed hitem (hordered.not_mentions_self hitem)

theorem contents_others_le
    (h : Tenancy contract allowed visible store.items held ground mine store')
    (held' : Multiset Holding) :
    contents (others name store.items) held' ≤ contents (others name store'.items) held' := by
  have hgrown : Grown allowed (others name store.items) (others name store'.items) := h.grown.seen
  exact hgrown.contents_le held'

theorem attach (hitem : item ∈ store.items) (hordered : Ordered store.items)
    (h : Tenancy contract item.origin.Mentions (· ≠ item.name) store.items (elsewhere item.name held)
      item.origin.ground object.grants store')
    (hrep : item.object.Replaces object) (hosts : object.Hosts 0) :
    Settled contract (elsewhere item.name held) (store'.put item.name object) := by
  obtain ⟨hstacked, hsame⟩ := Stacked.attach (h.grown.succeeded.ordered hordered)
    (h.mem_after hordered hitem) hrep h.standing.stacked hosts
  refine settled hstacked ?_
  have hholds := h.standing.holds
  rw [← hsame] at hholds
  exact hholds

/-- What an object does that was looked past leaves all blocks of others, and of its own those that
it keeps. -/
theorem undisturbed_attach (hitem : item ∈ machine.store.items)
    (hordered : Ordered machine.store.items)
    (h : Tenancy contract item.origin.Mentions (· ≠ item.name) machine.store.items
      (elsewhere item.name held) item.origin.ground object.grants machine'.store)
    (hrep : item.object.Replaces object) (hblocks : item.object.blocks = taken + stay)
    (hstay : stay ≤ object.blocks)
    (hagree : AgreeOn (leaves (others item.name machine.store.items) (elsewhere item.name held) + stay)
      machine.memory machine'.memory) :
    Undisturbed (blocksOn (some item.name) held + taken) ⟨machine, held⟩
      ⟨{ machine' with store := machine'.store.put item.name object },
        elsewhere item.name held⟩ := by
  refine ⟨contents (others item.name machine.store.items) (elsewhere item.name held) + stay, ?_, ?_,
    hagree.mono (Multiset.subset_of_le (add_le_add contents_le_leaves le_rfl))⟩
  · rw [contents, inUse_detach hordered hitem, hblocks]
    abel
  · have hafter : contents (replaced machine'.store.items item.name object)
        (elsewhere item.name held) = _ :=
      inUse_replaced (h.grown.succeeded.ordered hordered) (h.mem_after hordered hitem) hrep
    change _ ≤ contents (replaced machine'.store.items item.name object) (elsewhere item.name held)
    rw [hafter, add_comm]
    exact add_le_add hstay (h.contents_others_le _)

theorem remove (h : Tenancy contract item.origin.Mentions (· ≠ item.name) store.items
      (elsewhere item.name held) item.origin.ground 0 store') :
    Settled contract (elsewhere item.name held) (store'.remove item.name) := by
  obtain ⟨⟨hstacked, hholds⟩, -⟩ := h
  rw [heldOn_zero, zero_add] at hstacked hholds
  exact settled hstacked hholds

theorem undisturbed_remove (hitem : item ∈ machine.store.items)
    (hordered : Ordered machine.store.items)
    (h : Tenancy contract item.origin.Mentions (· ≠ item.name) machine.store.items
      (elsewhere item.name held) item.origin.ground 0 machine'.store)
    (hagree : AgreeOn (leaves (others item.name machine.store.items) (elsewhere item.name held))
      machine.memory machine'.memory) :
    Undisturbed (blocksOn (some item.name) held + item.object.blocks) ⟨machine, held⟩
      ⟨{ machine' with store := machine'.store.remove item.name }, elsewhere item.name held⟩ :=
  ⟨contents (others item.name machine.store.items) (elsewhere item.name held),
    inUse_detach hordered hitem, h.contents_others_le _,
    hagree.mono (Multiset.subset_of_le contents_le_leaves)⟩

theorem add (h : Tenancy contract allowed (fun _ => true) store.items held origin.ground
      object.grants store')
    (hname : ∀ other ∈ store.items, other.name ≠ name) (hlive : origin.LiveIn store.items)
    (hosts : object.Hosts 0) : Settled contract held (store'.add ⟨name, origin, object⟩) := by
  have hnew : ∀ other ∈ store'.items, other.name ≠ name := by
    intro other hother
    obtain ⟨object', -, hmem⟩ := h.grown.exists_old hother
    exact hname ⟨other.name, other.origin, object'⟩ hmem
  refine settled (h.standing.stacked_all.add hnew (h.grown.succeeded.liveIn hlive) hosts) ?_
  have hsum : held + holdings (⟨name, origin, object⟩ :: store'.items) = _ := holdings_added
  have hholds := h.standing.holds_all
  rw [← hsum] at hholds
  exact hholds

end Tenancy

end ArenaMemory
