import ArenaMemory.Proofs.Region.ChunkLedger

namespace ArenaMemory

variable {σ : Type}

def Layout.OfChunk (layout : Layout) : Prop :=
  ∃ wished align usable, chunkAlign.bytes ≤ align.bytes ∧
    Chunk.plan? wished align = some (usable, layout)

inductive Call.OfChunk : Call → Prop where
  | obtained {layout : Layout} (answer : Option Word) : layout.OfChunk →
      OfChunk (.alloc layout answer)
  | returned {grant : Grant} : grant.layout.OfChunk → OfChunk (.release grant)

/-- All that was asked for since `earlier` were chunks. -/
def ChunkCalls (earlier calls : List Call) : Prop :=
  ∃ newer, calls = newer ++ earlier ∧ ∀ call ∈ newer, call.OfChunk

theorem Layout.OfChunk.align_le {layout : Layout} (h : layout.OfChunk) :
    chunkAlign.bytes ≤ layout.align.bytes := by
  obtain ⟨wished, align, usable, hle, hplan⟩ := h
  obtain ⟨-, rfl, -⟩ := Chunk.plan?_eq_some.1 hplan
  exact hle

/-- Elements that need a weaker alignment than chunks are never kept in a block for a chunk. -/
theorem Layout.OfChunk.ne_array {layout element : Layout} (h : layout.OfChunk)
    (halign : element.align.bytes < chunkAlign.bytes) (count : Nat) :
    element.array count ≠ some layout := by
  intro harray
  obtain ⟨size, -, rfl⟩ := Option.map_eq_some_iff.1 harray
  exact UInt64.not_le.2 halign h.align_le

namespace ChunkCalls

variable {earlier between calls : List Call}

theorem refl (calls : List Call) : ChunkCalls calls calls := ⟨[], rfl, by simp⟩

theorem trans (h : ChunkCalls earlier between) (h' : ChunkCalls between calls) :
    ChunkCalls earlier calls := by
  obtain ⟨newer, rfl, hnewer⟩ := h
  obtain ⟨newest, rfl, hnewest⟩ := h'
  refine ⟨newest ++ newer, (List.append_assoc _ _ _).symm, fun call hcall => ?_⟩
  exact (List.mem_append.1 hcall).elim (hnewest call) (hnewer call)

theorem obtained {layout : Layout} (h : layout.OfChunk) (answer : Option Word) :
    ChunkCalls calls (.alloc layout answer :: calls) :=
  ⟨[_], rfl, by simpa using Call.OfChunk.obtained answer h⟩

theorem returned {chunks : List Chunk} (h : ∀ chunk ∈ chunks, chunk.layout.OfChunk) :
    ChunkCalls calls (releaseCalls chunks ++ calls) := by
  refine ⟨_, rfl, fun call hcall => ?_⟩
  obtain ⟨chunk, hchunk, rfl⟩ := List.mem_map.1 (List.mem_reverse.1 hcall)
  exact .returned (h chunk hchunk)

end ChunkCalls

namespace Region

def Chunked (region : Region) : Prop := ∀ chunk ∈ region.chunks, chunk.layout.OfChunk

variable {inner : Allocator σ} {region region' : Region} {machine machine' : Machine (Recorded σ)}
  {layout chunkLayout : Layout} {result : Option Word} {bytes : List UInt8} {align : Alignment}

theorem ofChunk_of_plan {usable usable' : Word}
    (hp : Chunk.plan? usable (region.growthAlign layout) = some (usable', chunkLayout)) :
    chunkLayout.OfChunk := by
  refine ⟨usable, _, usable', ?_, hp⟩
  exact UInt64.le_trans (chunkAlign.le_strictest_left region.minAlign)
    (Alignment.le_strictest_left _ layout.align)

theorem Chunked.setCurrent (chunked : region.Chunked) (addr : Word) :
    (region.setCurrent { region.current with bump := addr }).Chunked := by
  rw [Region.setCurrent]
  split
  · exact chunked
  next newest older hchunks =>
    rw [Chunked, hchunks, List.forall_mem_cons] at chunked
    rw [current_of_cons hchunks]
    exact List.forall_mem_cons.2 chunked

theorem Chunked.push {chunk : Chunk} (chunked : region.Chunked) (h : chunk.layout.OfChunk) :
    (region.push chunk).Chunked := List.forall_mem_cons.2 ⟨h, chunked⟩

theorem Chunked.alloc (chunked : region.Chunked)
    (ha : region.alloc inner.recorded layout machine = (result, region', machine')) :
    region'.Chunked ∧ ChunkCalls machine.store.calls machine'.store.calls := by
  have houtcome := ha ▸ alloc_outcome inner.recorded region layout machine
  cases houtcome with
  | empty => exact ⟨chunked, .refl _⟩
  | carved => exact ⟨chunked.setCurrent _, .refl _⟩
  | slow _ _ hg =>
    cases hg with
    | overflow | limited | unplanned => exact ⟨chunked, .refl _⟩
    | denied _ hp hb =>
      obtain ⟨-, rfl⟩ := Prod.mk.inj hb
      exact ⟨chunked, .obtained (ofChunk_of_plan hp) _⟩
    | wasted _ hp hb | served _ hp hb =>
      obtain ⟨-, rfl⟩ := Prod.mk.inj hb
      exact ⟨chunked.push (ofChunk_of_plan hp), .obtained (ofChunk_of_plan hp) _⟩

theorem Chunked.allocCopy (chunked : region.Chunked)
    (hc : region.allocCopy inner.recorded bytes align machine = (result, region', machine')) :
    region'.Chunked ∧ ChunkCalls machine.store.calls machine'.store.calls := by
  have hcopying := hc ▸ copying inner.recorded region bytes align machine
  cases hcopying with
  | uncountable => exact ⟨chunked, .refl _⟩
  | refused _ ha | served _ ha =>
    have hasked := chunked.alloc ha
    exact hasked

theorem Chunked.reset (chunked : region.Chunked) (inner : Allocator σ)
    (machine : Machine (Recorded σ)) :
    (region.reset inner.recorded machine).1.Chunked ∧
      ChunkCalls machine.store.calls (region.reset inner.recorded machine).2.store.calls := by
  constructor
  · rw [Region.reset]
    split
    · exact chunked
    next newest older hchunks =>
      rw [Chunked, hchunks, List.forall_mem_cons] at chunked
      exact List.forall_mem_singleton.2 chunked.1
  · rw [reset_calls]
    exact .returned fun chunk hchunk => chunked chunk (List.mem_of_mem_tail hchunk)

end Region

end ArenaMemory
