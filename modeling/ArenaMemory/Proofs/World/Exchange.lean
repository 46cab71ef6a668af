import ArenaMemory.Proofs.World.Holdings

namespace ArenaMemory

variable {ι : Type} {items items' : List (Item ι)} {item : Item ι} {held held' : Multiset Holding}
  {origin : Origin ι} {name : String} {object : Object}

theorem holdings_replaced (h : Ordered items) (hitem : item ∈ items)
    (hrep : item.object.Replaces object) :
    holdings (replaced items item.name object) =
      heldOn item.origin.ground object.grants + holdings (others item.name items) :=
  sum_replaced _ h hitem hrep

theorem inUse_replaced {part : Object → Multiset Grant} (h : Ordered items) (hitem : item ∈ items)
    (hrep : item.object.Replaces object) : inUse part (replaced items item.name object) held =
      part object + inUse part (others item.name items) held := by
  rw [inUse, sum_replaced (fun item => part item.object) h hitem hrep, inUse, add_left_comm]

theorem holdings_added : held + holdings (⟨name, origin, object⟩ :: items) =
    heldOn origin.ground object.grants + held + holdings items := by
  rw [holdings_cons, add_left_comm, add_assoc]

namespace Stacked

theorem blocksOn_absent (h : Stacked items held) (habsent : ∀ item ∈ items, item.name ≠ name) :
    blocksOn (some name) (held + holdings items) = 0 := by
  have hheld : blocksOn (some name) held = 0 :=
    ArenaMemory.blocksOn_eq_zero fun holding hmem hground => by
      obtain ⟨origin, region, home, hregion⟩ := h.live holding hmem name hground
      exact habsent _ hregion rfl
  rw [blocksOn_add, hheld, zero_add]
  refine blocksOn_holdings fun item hitem hm => ?_
  obtain ⟨beneath, hbeneath, hname⟩ := (h.ordered.liveIn hitem).exists_of_mentions hm
  exact habsent beneath hbeneath hname

theorem replace {total : Multiset Holding} (h : Ordered items) (hitem : item ∈ items)
    (hrep : item.object.Replaces object)
    (htotal : held + (heldOn item.origin.ground object.grants +
      holdings (others item.name items)) = total)
    (hlive : ∀ holding ∈ held, ∀ name, holding.1 = some name →
      ∃ origin region home, ⟨name, origin, .region region home⟩ ∈ items)
    (hpacked : Packed (blocksOn none total))
    (hothers : ∀ other ∈ others item.name items,
      other.object.Hosts (blocksOn (some other.name) total))
    (hosts : object.Hosts (blocksOn (some item.name) total)) :
    Stacked (replaced items item.name object) held := by
  have hreplaced := succeeded_replaced h hitem hrep
  have hsum : held + holdings (replaced items item.name object) = total :=
    holdings_replaced h hitem hrep ▸ htotal
  refine ⟨hreplaced.ordered h, fun holding hmem name hname => ?_, hsum ▸ hpacked,
    fun other hother => ?_⟩
  · obtain ⟨origin, region, home, hregion⟩ := hlive holding hmem name hname
    obtain ⟨object', hobject', hmem'⟩ := hreplaced.exists_new hregion
    cases hobject' with
    | @region _ _ region' home' => exact ⟨origin, region', home', hmem'⟩
  · rw [hsum]
    obtain ⟨old, hold, hname, rfl⟩ | hold := mem_replaced hother
    · dsimp only
      rwa [hname]
    · exact hothers other hold

theorem exchange {added : Multiset Grant} (h : Stacked items held) (hitem : item ∈ items)
    (hrep : item.object.Replaces object)
    (hsum : held' + heldOn item.origin.ground object.grants =
      held + heldOn item.origin.ground item.object.grants + heldOn (some item.name) added)
    (hlive : ∀ holding ∈ held', ∀ name, holding.1 = some name →
      ∃ origin region home, ⟨name, origin, .region region home⟩ ∈ items)
    (hosts : object.Hosts (added + blocksOn (some item.name) (held + holdings items))) :
    Stacked (replaced items item.name object) held' ∧
      blocksOn none (held' + holdings (replaced items item.name object)) =
        blocksOn none (held + holdings items) := by
  have htotal : held' + (heldOn item.origin.ground object.grants +
      holdings (others item.name items)) =
      heldOn (some item.name) added + (held + holdings items) := by
    rw [holdings_others h.ordered hitem, ← add_assoc held', hsum]
    abel
  have helsewhere : ∀ ground, ground ≠ some item.name →
      blocksOn ground (heldOn (some item.name) added + (held + holdings items)) =
        blocksOn ground (held + holdings items) := by
    intro ground hne
    rw [blocksOn_add, blocksOn_heldOn_ne _ hne.symm, zero_add]
  constructor
  · refine replace h.ordered hitem hrep htotal hlive ?_ (fun other hother => ?_) ?_
    · rw [helsewhere none (by simp)]
      exact h.packed
    · obtain ⟨hold, hname⟩ := mem_others.1 hother
      rw [helsewhere _ fun he => hname (Option.some.inj he)]
      exact h.hosts other hold
    · rwa [blocksOn_add, blocksOn_heldOn]
  · rw [holdings_replaced h.ordered hitem hrep, htotal, helsewhere none (by simp)]

theorem attach (hordered : Ordered items) (hitem : item ∈ items) (hrep : item.object.Replaces object)
    (h : Stacked (others item.name items) (heldOn item.origin.ground object.grants + held))
    (hosts : object.Hosts 0) :
    Stacked (replaced items item.name object) held ∧
      blocksOn none (held + holdings (replaced items item.name object)) =
        blocksOn none (heldOn item.origin.ground object.grants + held +
          holdings (others item.name items)) := by
  have htotal : held + (heldOn item.origin.ground object.grants +
      holdings (others item.name items)) =
      heldOn item.origin.ground object.grants + held + holdings (others item.name items) :=
    (add_left_comm _ _ _).trans (add_assoc _ _ _).symm
  refine ⟨replace hordered hitem hrep htotal (fun holding hmem name hname => ?_) h.packed h.hosts ?_,
    by rw [holdings_replaced hordered hitem hrep, htotal]⟩
  · obtain ⟨origin, region, home, hregion⟩ :=
      h.live holding (Multiset.mem_add.2 (.inr hmem)) name hname
    exact ⟨origin, region, home, (mem_others.1 hregion).1⟩
  · rw [h.blocksOn_absent fun other hother => (mem_others.1 hother).2]
    exact hosts

theorem add (h : Stacked items (heldOn origin.ground object.grants + held))
    (hname : ∀ other ∈ items, other.name ≠ name) (hlive : origin.LiveIn items)
    (hosts : object.Hosts 0) : Stacked (⟨name, origin, object⟩ :: items) held := by
  have hsum : held + holdings (⟨name, origin, object⟩ :: items) = _ := holdings_added
  refine ⟨⟨hname, hlive, h.ordered⟩, fun holding hmem name hground => ?_, hsum ▸ h.packed, ?_⟩
  · obtain ⟨origin, region, home, hregion⟩ :=
      h.live holding (Multiset.mem_add.2 (.inr hmem)) name hground
    exact ⟨origin, region, home, List.mem_cons_of_mem _ hregion⟩
  · rw [hsum]
    refine List.forall_mem_cons.2 ⟨?_, h.hosts⟩
    dsimp only
    rw [h.blocksOn_absent hname]
    exact hosts

end Stacked

end ArenaMemory
