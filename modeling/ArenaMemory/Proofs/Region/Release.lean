import ArenaMemory.Proofs.Region.Request

namespace ArenaMemory

variable {σ : Type}

namespace Region

variable {backing : Allocator σ} {region region' : Region} {rest kept : Multiset Grant}
  {machine machine' : Machine σ} {ledger : backing.Ledger}

theorem grants_cons {newest : Chunk} {older : List Chunk} (h : region.chunks = newest :: older) :
    region.grants = {newest.grant} + (older.map Chunk.grant : List Grant) := by
  rw [grants, h]
  rfl

theorem releaseChunks_holds (ledger : backing.Ledger) (chunks : List Chunk)
    (h : ledger.holds ((chunks.map Chunk.grant : List Grant) + rest) machine.store) :
    ledger.holds rest (releaseChunks backing chunks machine).store := by
  induction chunks generalizing machine with
  | nil => simpa [releaseChunks] using h
  | cons chunk chunks ih =>
    rw [List.map_cons, ← Multiset.cons_coe, ← Multiset.singleton_add, add_assoc] at h
    apply ih
    apply ledger.release
    exact h

theorem releaseChunks_kept (keeps : ledger.Keeps kept) (chunks : List Chunk)
    (h : ledger.holds ((chunks.map Chunk.grant : List Grant) + rest) machine.store) :
    AgreeOn kept machine.memory (releaseChunks backing chunks machine).memory := by
  induction chunks generalizing machine with
  | nil => exact .refl _ _
  | cons chunk chunks ih =>
    rw [List.map_cons, ← Multiset.cons_coe, ← Multiset.singleton_add, add_assoc] at h
    have hkept : AgreeOn kept machine.memory (backing.release chunk.start chunk.layout
        (machine.emit (.chunkReleased chunk.layout.size))).memory := keeps.release h
    exact hkept.trans (ih (ledger.release h))

theorem deinit_holds (ledger : backing.Ledger)
    (h : ledger.holds (region.grants + rest) machine.store) :
    ledger.holds rest (region.deinit backing machine).2.store :=
  releaseChunks_holds ledger region.chunks h

theorem deinit_kept (keeps : ledger.Keeps kept)
    (h : ledger.holds (region.grants + rest) machine.store) :
    AgreeOn kept machine.memory (region.deinit backing machine).2.memory :=
  releaseChunks_kept keeps region.chunks h

theorem valid_of_chunks_nil (h : region.chunks = []) : region.Valid :=
  ⟨by simp [h], by simp [h]⟩

theorem reset_holds (ledger : backing.Ledger)
    (h : ledger.holds (region.grants + rest) machine.store)
    (hr : region.reset backing machine = (region', machine')) :
    ledger.holds (region'.grants + rest) machine'.store := by
  rw [reset] at hr
  split at hr
  · obtain ⟨rfl, rfl⟩ := hr
    exact h
  next newest older hchunks =>
    obtain ⟨rfl, rfl⟩ := hr
    rw [grants_cons hchunks, add_assoc, add_left_comm] at h
    exact releaseChunks_holds ledger older h

theorem reset_kept (keeps : ledger.Keeps kept)
    (h : ledger.holds (region.grants + rest) machine.store)
    (hr : region.reset backing machine = (region', machine')) :
    AgreeOn kept machine.memory machine'.memory := by
  rw [reset] at hr
  split at hr
  · obtain ⟨rfl, rfl⟩ := hr
    exact .refl _ _
  next newest older hchunks =>
    obtain ⟨rfl, rfl⟩ := hr
    rw [grants_cons hchunks, add_assoc, add_left_comm] at h
    exact releaseChunks_kept keeps older h

theorem reset_same (hr : region.reset backing machine = (region', machine')) :
    region' = { region with chunks := region'.chunks } := by
  rw [reset] at hr
  split at hr
  all_goals
    obtain ⟨rfl, rfl⟩ := hr
    rfl

theorem reset_valid (valid : region.Valid)
    (hr : region.reset backing machine = (region', machine')) :
    region'.Valid ∧ region' = { region with chunks := region'.chunks } := by
  refine ⟨?_, reset_same hr⟩
  rw [reset] at hr
  split at hr
  · obtain ⟨rfl, rfl⟩ := hr
    exact valid
  next newest older hchunks =>
    obtain ⟨rfl, rfl⟩ := hr
    have hnewest := (valid.chunks newest (by simp [hchunks])).rewind region.minAlign_le
    refine ⟨?_, List.pairwise_singleton _ _⟩
    exact List.forall_mem_singleton.2 { hnewest with }

theorem reset_keeps (contract : backing.Contract)
    (h : contract.holds (region.grants + rest) machine.store)
    (hr : region.reset backing machine = (region', machine')) :
    region'.chunks.map Chunk.grant = (region.chunks.take 1).map Chunk.grant ∧
      AgreeOn region'.grants machine.memory machine'.memory := by
  rw [reset] at hr
  split at hr
  next hchunks =>
    obtain ⟨rfl, rfl⟩ := hr
    exact ⟨by rw [hchunks, List.take_nil], .refl _ _⟩
  next newest older hchunks =>
    obtain ⟨rfl, rfl⟩ := hr
    rw [grants_cons hchunks, add_assoc, add_left_comm] at h
    have hkept : AgreeOn ({newest.grant} + rest) machine.memory
        (releaseChunks backing older machine).memory :=
      releaseChunks_kept (contract.keeps _) older (contract.beside_of_holds h)
    exact ⟨by rw [hchunks]; rfl, hkept.left⟩

end Region

end ArenaMemory
