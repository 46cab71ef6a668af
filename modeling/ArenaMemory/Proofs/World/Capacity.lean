import ArenaMemory.Proofs.Region.Handle
import ArenaMemory.Proofs.Region.Occupancy
import ArenaMemory.Proofs.World.NoInterference

namespace ArenaMemory

variable {ι β : Type}

theorem usableBytes_le_bytesOut {chunks : List Chunk}
    (h : ∀ chunk ∈ chunks, chunk.usable.toNat + 48 ≤ chunk.layout.size.toNat) :
    usableBytes chunks + 48 * chunks.length ≤ bytesOut (chunks.map Chunk.grant : List Grant) := by
  induction chunks with
  | nil => exact Nat.zero_le _
  | cons chunk older ih =>
    obtain ⟨hchunk, holder⟩ := List.forall_mem_cons.1 h
    have hrest := ih holder
    rw [List.map_cons, ← Multiset.cons_coe, ← Multiset.singleton_add, bytesOut_add,
      bytesOut_singleton, usableBytes_cons, List.length_cons]
    have hsize : chunk.grant.layout = chunk.layout := rfl
    rw [hsize]
    omega

/-- What the chunks of a region take of the one below: their usable bytes, and a footer for each. -/
def Region.extent (region : Region) : Nat :=
  region.stats.allocated.toNat + 48 * region.stats.chunkCount

theorem Region.Sound.extent_le {region : Region} (sound : region.Sound) :
    region.extent ≤ bytesOut region.grants := by
  have hallocated : region.stats.allocated.toNat = usableBytes region.chunks :=
    allocated_eq_usableBytes sound.tallied
  rw [extent, hallocated]
  exact usableBytes_le_bytesOut fun chunk hchunk => sound.valid.usable_le hchunk

namespace Object

/-- The region that an object is, or that it keeps its copies in. -/
def arena? : Object → Option Region
  | .region r _ => some r
  | .interner i _ => some i.arena
  | .tracker _ | .box _ _ => none

def extent (object : Object) : Nat := (object.arena?.map Region.extent).getD 0

theorem Hosts.extent_le {object : Object} {held : Multiset Grant} (h : object.Hosts held) :
    object.extent ≤ bytesOut object.grants := by
  cases object with
  | tracker t | box kind addr => exact Nat.zero_le (bytesOut _)
  | region r home =>
    have hregion : r.extent ≤ bytesOut r.grants := (Region.Hosts.sound h).extent_le
    rw [grants, bytesOut_add]
    exact hregion.trans (Nat.le_add_right _ _)
  | interner i home =>
    have harena : i.arena.extent ≤ bytesOut i.arena.grants := h.2.sound.extent_le
    rw [grants, Interner.grants, bytesOut_add, bytesOut_add, bytesOut_add, Nat.add_assoc,
      Nat.add_assoc]
    exact harena.trans (Nat.le_add_right _ _)

end Object

theorem sum_extent_le {items built : List (Item ι)} {ground : Option String}
    (hextent : ∀ item ∈ items, item.object.extent ≤ bytesOut item.object.grants)
    (hsub : built.Sublist items) (hground : ∀ item ∈ built, item.origin.ground = ground) :
    (built.map fun item => item.object.extent).sum ≤ bytesOut (blocksOn ground (holdings items)) := by
  induction hsub with
  | slnil => exact Nat.zero_le _
  | cons item _ ih =>
    have hrest := ih (List.forall_mem_cons.1 hextent).2 hground
    rw [holdings_cons, blocksOn_add, bytesOut_add]
    exact hrest.trans (Nat.le_add_left _ _)
  | cons_cons item _ ih =>
    obtain ⟨hitem, hitems⟩ := List.forall_mem_cons.1 hextent
    obtain ⟨hon, hothers⟩ := List.forall_mem_cons.1 hground
    have hrest := ih hitems hothers
    rw [holdings_cons, blocksOn_add, bytesOut_add, hon, blocksOn_heldOn, List.map_cons,
      List.sum_cons]
    exact Nat.add_le_add hitem hrest

/-- The blocks that a region handed out add up to no more than its usable bytes that are not free.
So do the objects built on it, with the footers of their chunks. -/
theorem capacity_accounting :
    (∀ {σ : Type} {backing : Allocator σ} {minAlign home blocks} {start : Machine σ}
      {machine : Machine (Region × σ)} (placement : backing.Placement),
      placement.shared.holds 0 start.store →
      Region.Used backing (fun mine _ machine' => placement.shared.holds mine machine'.store)
        minAlign start home blocks machine →
      bytesOut (blocks : Multiset Grant) + machine.store.1.stats.remaining.toNat ≤
        machine.store.1.stats.allocated.toNat) ∧
    ∀ {ι β : Type} {base : Allocator β} {start : Machine (Store ι β)} {site}
      (contract : base.Contract),
      contract.holds 0 start.store.base → Site.Run base start site →
      ∀ {name inner region home}, ⟨name, inner, .region region home⟩ ∈ site.items →
      ∀ built : List (Item ι), built.Sublist site.items →
        (∀ item ∈ built, item.origin.ground = some name) →
        (built.map fun item => item.object.extent).sum + region.stats.remaining.toNat ≤
          region.stats.allocated.toNat := by
  constructor
  · intro σ backing minAlign home blocks start machine placement hstart used
    exact (used.run.hosts placement hstart).bytesOut_le
  · intro ι β base start site contract hstart run name inner region home hmem built hsub hground
    have settled : Settled contract site.held site.machine.store := run.settled hstart
    have stacked := settled.stacked_all
    have hosts : region.Hosts (blocksOn (some name) (site.held + holdings site.items)) :=
      stacked.hosts _ hmem
    have hblocks := hosts.bytesOut_le
    have hextent : _ ≤ bytesOut (blocksOn (some name) (holdings site.items)) :=
      sum_extent_le (fun item hitem => (stacked.hosts item hitem).extent_le) hsub hground
    rw [blocksOn_add, bytesOut_add] at hblocks
    omega

theorem capacity_accounting_tower :
    (∃ (blocks : List Grant) (machine : Machine (Region × Platform)),
      blocks.map (·.layout.size) = [50, 200, 100] ∧ machine.store.1.stats = ⟨4048, 1, 3688⟩ ∧
      bytesOut (blocks : Multiset Grant) + machine.store.1.stats.remaining.toNat ≤
        machine.store.1.stats.allocated.toNat) ∧
    ∃ (site : Site Unit Platform) (region : Region),
      site.items.map (·.name) = ["i", "s", "t", "r"] ∧ region.stats = ⟨12288, 2, 3824⟩ ∧
      ((site.items.take 2).map fun item => item.object.extent).sum = 8192 ∧
      ((site.items.take 2).map fun item => item.object.extent).sum + region.stats.remaining.toNat ≤
        region.stats.allocated.toNat := by
  constructor
  · have hcreated : Region.Used Platform.plainWindow
        (fun mine _ machine' =>
          Platform.plainWindowContract.toPlacement.shared.holds mine machine'.store) 8
        { store := ⟨.ofCap 65536, {}⟩ } none [] _ :=
      .create (show Region.create 0x10000 8 = .ok _ from rfl)
    have hmoved := (hcreated.use (.alloc ⟨100, .one⟩) rfl).use
      (.realloc (some 0x1000000f68) ⟨100, .one⟩ ⟨200, .one⟩) rfl
    have hfreed := (hmoved.use (.zalloc ⟨50, .one⟩) rfl).use (.free (some 0x1000000e68) ⟨50, .one⟩) rfl
    exact ⟨_, _, by decide, by decide,
      capacity_accounting.1 Platform.plainWindowContract.toPlacement Region.holds_window hfreed⟩
  · have hstart : Platform.plainWindowContract.holds 0 (⟨.ofCap 65536, {}⟩ : Platform) :=
      ⟨by decide, by decide, by simp⟩
    have hempty : Site.Run Platform.plainWindow
      ({ store := { base := ⟨.ofCap 65536, {}⟩ } } : Machine (Store Unit Platform)) _ := .start rfl
    have hregion := hempty.step (.create "r" (show (Origin.base ()).LiveIn _ from trivial) rfl
      (.region none (show Region.create 0x10000 8 = .ok _ from rfl)))
    have htracker := hregion.step (.create "t"
      (show (Origin.region "r" (.base ())).LiveIn _ from ⟨trivial, _, _, .head _⟩) rfl
      (.tracker none))
    have hsmaller := htracker.step (.create "s"
      (show (Origin.tracker "t" (.region "r" (.base ()))).LiveIn _ from
        ⟨⟨trivial, _, _, .tail _ (.head _)⟩, _, .head _⟩) rfl
      (.region none (show Region.create 0x10000 8 = .ok _ from rfl)))
    have hinterner := hsmaller.step (.create "i"
      (show (Origin.region "r" (.base ())).LiveIn _ from
        ⟨trivial, _, _, .tail _ (.tail _ (.head _))⟩) rfl
      (.interner 0x10000 .threeQuarters 1 none))
    have hblock := hinterner.step (.serve (.tail _ (.head _)) rfl
      (rfl : Region.Operation.perform (.alloc ⟨16, .eight⟩) _ _ _ = _))
    have hcopy := hblock.step (.intern (.head _)
      (rfl : Interner.Operation.perform (.intern [97]) (fun _ => 7) _ _ _ = _))
    refine ⟨_, _, rfl, ?_, ?_, capacity_accounting.2 Platform.plainWindowContract hstart hcopy
      (.tail _ (.tail _ (.tail _ (.head _)))) (List.take 2 _) (List.take_sublist _ _) ?_⟩
    · decide
    · decide
    · decide

end ArenaMemory
