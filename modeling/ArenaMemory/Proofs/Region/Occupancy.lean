import ArenaMemory.Proofs.Region.Hosting

namespace ArenaMemory

variable {σ : Type}

theorem exists_cover (whole : Multiset Grant) :
    ∃ addresses : Finset Nat, addresses.card ≤ bytesOut whole ∧
      ∀ w ∈ whole, Finset.Ico w.start w.stop ⊆ addresses := by
  induction whole using Multiset.induction_on with
  | empty => exact ⟨∅, Nat.zero_le _, by simp⟩
  | cons g whole ih =>
    obtain ⟨addresses, hcard, hcovered⟩ := ih
    refine ⟨Finset.Ico g.start g.stop ∪ addresses, ?_, ?_⟩
    · have hunion := Finset.card_union_le (Finset.Ico g.start g.stop) addresses
      rw [Nat.card_Ico, Grant.stop, Grant.start, Nat.add_sub_cancel_left] at hunion
      rw [← Multiset.singleton_add, bytesOut_add, bytesOut_singleton]
      exact hunion.trans (Nat.add_le_add_left hcard _)
    · refine Multiset.forall_mem_cons.2 ⟨Finset.subset_union_left, fun w hw => ?_⟩
      exact (hcovered w hw).trans Finset.subset_union_right

theorem Subdivides.bytesOut_le {parts whole : Multiset Grant} (h : Subdivides parts whole)
    (packed : Packed whole) : bytesOut parts ≤ bytesOut whole := by
  obtain ⟨addresses, -, hcard, hin⟩ := (packed.subdivide h).exists_addresses
  obtain ⟨cover, hcover, hcovered⟩ := exists_cover whole
  have hsub : addresses ⊆ cover := by
    intro n hn
    obtain ⟨p, hp, hstart, hstop⟩ := hin n hn
    have hpos : 0 < p.layout.size.toNat := by
      simp only [Grant.start, Grant.stop] at hstart hstop
      omega
    obtain ⟨w, hw, hwithin⟩ := h.within p hp hpos
    exact hcovered w hw (Finset.mem_Ico.2
      ⟨Nat.le_trans hwithin.1 hstart, Nat.lt_of_lt_of_le hstop hwithin.2⟩)
  exact hcard ▸ (Finset.card_le_card hsub).trans hcover

def Chunk.data (chunk : Chunk) : Grant := ⟨chunk.start, chunk.usable, .one⟩

namespace Region

variable {region : Region} {blocks : Multiset Grant}

def data (region : Region) : Multiset Grant := (region.chunks.map Chunk.data : List Grant)

def freeBytes (region : Region) : Grant := ⟨region.current.start, region.stats.remaining, .one⟩

theorem bytesOut_data (region : Region) : bytesOut region.data = usableBytes region.chunks := by
  simp only [bytesOut, data, usableBytes, Multiset.map_coe, Multiset.sum_coe, List.map_map]
  rfl

theorem Valid.data_within {chunk : Chunk} (valid : region.Valid) (h : chunk ∈ region.chunks) :
    chunk.data.Within chunk.grant := by
  have hfooter := (valid.chunks chunk h).footer_within
  refine ⟨Nat.le_refl _, ?_⟩
  simp only [Chunk.data, Grant.stop] at hfooter ⊢
  omega

theorem Valid.data_subdivides (valid : region.Valid) : Subdivides region.data region.grants := by
  refine ⟨fun g hg _ => ?_, valid.separate_parts fun _ => valid.data_within⟩
  obtain ⟨chunk, hchunk, rfl⟩ := List.mem_map.1 hg
  exact ⟨chunk.grant, mem_grants hchunk, valid.data_within hchunk⟩

theorem Valid.within_data {chunk : Chunk} {g : Grant} (valid : region.Valid)
    (h : chunk ∈ region.chunks) (hstart : chunk.start.toNat ≤ g.start)
    (hstop : g.stop ≤ chunk.footer.toNat) : g.Within chunk.data := by
  rw [(valid.chunks chunk h).toNat_footer] at hstop
  exact ⟨hstart, hstop⟩

theorem Hosts.subdivides_data (hosts : region.Hosts blocks) :
    Subdivides ({region.freeBytes} + blocks) region.data := by
  have valid := hosts.sound.valid
  have hfree := valid.remaining
  have hempty : region.chunks = [] → region.freeBytes.layout.size.toNat = 0 := by
    intro hnil
    rw [current_of_nil hnil] at hfree
    simp only [Chunk.sentinel] at hfree
    simp only [freeBytes]
    omega
  constructor
  · intro g hg hpos
    obtain hg | hg := Multiset.mem_add.1 hg
    · obtain rfl := Multiset.mem_singleton.1 hg
      cases hchunks : region.chunks with
      | nil => exact absurd (hempty hchunks) (by omega)
      | cons newest older =>
        have hmem : newest ∈ region.chunks := by simp [hchunks]
        have hbump := (valid.chunks newest hmem).bump_le_footer
        rw [current_of_cons hchunks] at hfree
        refine ⟨newest.data, List.mem_map_of_mem hmem, ?_⟩
        simp only [freeBytes, current_of_cons hchunks, Grant.Within, Chunk.data, Grant.start,
          Grant.stop]
        omega
    · obtain ⟨chunk, hchunk, hstart, hstop⟩ := hosts.inUse g hg hpos
      have hle := (valid.chunks chunk hchunk).start_le_bump
      exact ⟨chunk.data, List.mem_map_of_mem hchunk,
        valid.within_data hchunk (Nat.le_trans hle hstart) hstop⟩
  · rw [Multiset.singleton_add]
    refine separate_cons.2 ⟨fun g hg => ?_, hosts.separate⟩
    obtain hzero | hpos := Nat.eq_zero_or_pos g.layout.size.toNat
    · exact (Grant.apart_of_empty hzero).symm
    cases hchunks : region.chunks with
    | nil => exact Grant.apart_of_empty (hempty hchunks)
    | cons newest older =>
      rw [current_of_cons hchunks] at hfree
      have hapart : Grant.Apart ⟨newest.start, region.freeBytes.layout⟩ g :=
        valid.carved_apart (by simp [hchunks]) (Nat.le_refl _) (Nat.le_of_eq hfree)
          (hosts.inUse g hg hpos)
      rwa [freeBytes, current_of_cons hchunks]

/-- The blocks that a region handed out have no more bytes than are usable and not free. -/
theorem Hosts.bytesOut_le (hosts : region.Hosts blocks) :
    bytesOut blocks + region.stats.remaining.toNat ≤ region.stats.allocated.toNat := by
  have hpacked := hosts.sound.packed.subdivide hosts.sound.valid.data_subdivides
  have hle := hosts.subdivides_data.bytesOut_le hpacked
  have hallocated : region.stats.allocated.toNat = usableBytes region.chunks :=
    allocated_eq_usableBytes hosts.sound.tallied
  rw [bytesOut_add, bytesOut_singleton, bytesOut_data, ← hallocated, Nat.add_comm] at hle
  exact hle

theorem Run.hosts {backing : Allocator σ} {minAlign : Word} {start machine : Machine σ}
    {home : Option Word} {blocks : List Grant} (placement : backing.Placement)
    (hstart : placement.shared.holds 0 start.store)
    (run : Run backing (fun mine _ machine' => placement.shared.holds mine machine'.store) minAlign
      start home blocks region machine) : region.Hosts (blocks : Multiset Grant) := by
  have safe := run.safe placement hstart
  refine ⟨run.sound placement hstart, separate_coe safe.apart, fun g hg hpos => ?_⟩
  exact (safe.placed g hg hpos).1

end Region

end ArenaMemory
