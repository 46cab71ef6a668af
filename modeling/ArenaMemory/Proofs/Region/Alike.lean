import ArenaMemory.Proofs.Allocator.Alike
import ArenaMemory.Region.Copy

namespace ArenaMemory

variable {σ : Type}

namespace Region

variable {same : σ → σ → Prop} {a b : Allocator σ} {machine machine' : Machine σ} (region : Region)

section Alike

variable (h : a.Alike same b)
include h

theorem grow_alike (usable : Word) (align : Alignment) (hm : machine.Alike same machine') :
    Paired (Machine.Alike same) (region.grow a usable align machine)
      (region.grow b usable align machine') := by
  unfold grow
  cases Chunk.plan? usable align with
  | none => exact .intro none hm
  | some plan =>
    obtain ⟨usable, layout⟩ := plan
    have hserved := h.alloc layout hm
    dsimp only
    obtain ⟨result, _, _, ha, hb, hm⟩ := hserved.exists_eq
    rw [ha, hb]
    cases result with
    | none => exact .intro none hm
    | some start => exact .intro (some _) (hm.emit _ _)

theorem allocSlow_alike (layout : Layout) (hm : machine.Alike same machine') :
    Paired (Paired (Machine.Alike same)) (region.allocSlow a layout machine)
      (region.allocSlow b layout machine') := by
  unfold allocSlow
  cases region.nextUsable layout with
  | error refusal =>
    cases refusal with
    | overflow => exact .intro none (.intro region hm)
    | limit limit allocated => exact .intro none (.intro region (hm.emit _ _))
  | ok usable =>
    have hgrown := region.grow_alike h usable
      ((chunkAlign.strictest region.minAlign).strictest layout.align) hm
    dsimp only
    obtain ⟨grown, _, _, ha, hb, hm⟩ := hgrown.exists_eq
    rw [ha, hb]
    cases grown with
    | none => exact .intro none (.intro region hm)
    | some grown =>
      dsimp only
      cases grown.bump? layout with
      | none => exact .intro none (.intro grown hm)
      | some carved => exact .intro (some carved.1) (.intro carved.2 hm)

theorem alloc_alike (layout : Layout) (hm : machine.Alike same machine') :
    Paired (Paired (Machine.Alike same)) (region.alloc a layout machine)
      (region.alloc b layout machine') := by
  unfold alloc
  by_cases hzero : layout.size = 0
  · rw [if_pos hzero, if_pos hzero]
    exact .intro _ (.intro region hm)
  · rw [if_neg hzero, if_neg hzero]
    cases region.bump? layout with
    | none => exact region.allocSlow_alike h layout hm
    | some carved => exact .intro (some carved.1) (.intro carved.2 hm)

theorem allocCopy_alike (bytes : List UInt8) (align : Alignment)
    (hm : machine.Alike same machine') :
    Paired (Paired (Machine.Alike same)) (region.allocCopy a bytes align machine)
      (region.allocCopy b bytes align machine') := by
  unfold allocCopy
  cases Layout.ofCount? bytes.length align with
  | none => exact .intro none (.intro region hm)
  | some layout =>
    have hserved := region.alloc_alike h layout hm
    dsimp only
    obtain ⟨result, _, _, ha, hb, ⟨after, hm⟩⟩ := hserved.exists_eq
    rw [ha, hb]
    cases result with
    | none => exact .intro none (.intro after hm)
    | some addr => exact .intro (some addr) (.intro after (hm.mapMemory _))

theorem dup_alike (bytes : List UInt8) (hm : machine.Alike same machine') :
    Paired (Paired (Machine.Alike same)) (region.dup a bytes machine)
      (region.dup b bytes machine') :=
  region.allocCopy_alike h (bytes ++ [0]) .one hm

omit region in
theorem releaseChunks_alike (chunks : List Chunk) (hm : machine.Alike same machine') :
    (releaseChunks a chunks machine).Alike same (releaseChunks b chunks machine') := by
  induction chunks generalizing machine machine' with
  | nil => exact hm
  | cons chunk chunks ih => exact ih (h.release chunk.start chunk.layout (hm.emit _ _))

theorem deinit_alike (hm : machine.Alike same machine') :
    Paired (Machine.Alike same) (region.deinit a machine) (region.deinit b machine') :=
  .intro { region with chunks := [] } (releaseChunks_alike h region.chunks hm)

theorem reset_alike (hm : machine.Alike same machine') :
    Paired (Machine.Alike same) (region.reset a machine) (region.reset b machine') := by
  unfold reset
  cases region.chunks with
  | nil => exact .intro region hm
  | cons newest older => exact .intro _ ((releaseChunks_alike h older hm).emit _ _)

end Alike

end Region

namespace Allocator

section OfRegion

variable (backing : Allocator σ) (region? : σ → Option Region) (put : Region → σ → σ)

theorem ofRegion_zalloc (layout : Layout) (machine : Machine σ) :
    (ofRegion backing region? put).zalloc layout machine =
      (ofRegion backing region? put).composed.zalloc layout machine := by
  simp only [Allocator.zalloc, composed, ofRegion, ofRegion.serve]
  cases region? machine.store with
  | none => rfl
  | some region =>
    simp only [Region.allocZeroed]
    rcases region.alloc backing layout machine with ⟨_ | addr, after, served⟩ <;> rfl

/-- Moving a block in a region is copying it, as giving the old one back does nothing. -/
theorem ofRegion_realloc (addr : Word) (old : Layout) {new : Layout} (machine : Machine σ)
    (hnew : new.size ≠ 0) :
    (ofRegion backing region? put).realloc (some addr) old new machine =
      (ofRegion backing region? put).composed.realloc (some addr) old new machine := by
  simp only [Allocator.realloc, composed, ofRegion, ofRegion.serve, if_neg hnew]
  cases region? machine.store with
  | none => rfl
  | some region =>
    simp only [Region.realloc, if_neg hnew]
    rcases region.alloc backing new machine with ⟨_ | fresh, after, served⟩ <;> rfl

theorem ofRegion_realloc_empty (machine : Machine σ)
    (hput : ∀ region, region? machine.store = some region → put region machine.store = machine.store)
    (addr : Word) (old : Layout) {new : Layout} (hnew : new.size = 0) :
    (ofRegion backing region? put).realloc (some addr) old new machine =
      (ofRegion backing region? put).composed.realloc (some addr) old new machine := by
  simp only [Allocator.realloc, composed, ofRegion, ofRegion.serve, if_pos hnew]
  cases hregion : region? machine.store with
  | none => rfl
  | some region =>
    simp only [Region.realloc, if_pos hnew]
    rw [hput region hregion]

theorem faithful_ofRegion : (ofRegion backing region? put).Faithful where
  zalloc machine _ := ofRegion_zalloc backing region? put _ machine
  realloc addr old new machine hnew :=
    ofRegion_realloc backing region? put addr old machine fun he => by simp [he] at hnew

variable {same : σ → σ → Prop} {a b : Allocator σ} {region? : σ → Option Region}
  {put : Region → σ → σ} {machine machine' : Machine σ}
  {request request' : Region → Machine σ → Option Word × Region × Machine σ}
  (hlook : ∀ ⦃store store' : σ⦄, same store store' → region? store = region? store')
  (hput : ∀ (region : Region) ⦃store store' : σ⦄, same store store' →
    same (put region store) (put region store'))
include hlook hput

theorem ofRegion_serve_alike (hm : machine.Alike same machine')
    (hrequest : ∀ region : Region,
      Paired (Paired (Machine.Alike same)) (request region machine) (request' region machine')) :
    Paired (Machine.Alike same) (ofRegion.serve region? put request machine)
      (ofRegion.serve region? put request' machine') := by
  unfold ofRegion.serve
  rw [← hlook hm.store]
  cases region? machine.store with
  | none => exact .intro none hm
  | some region =>
    have hserved := hrequest region
    dsimp only
    obtain ⟨result, _, _, ha, hb, ⟨after, hm⟩⟩ := hserved.exists_eq
    rw [ha, hb]
    exact .intro result ⟨hm.memory_eq, hput after hm.store⟩

theorem ofRegion_alike (h : a.Alike same b) :
    (ofRegion a region? put).Alike same (ofRegion b region? put) := by
  apply (faithful_ofRegion a region? put).alike (faithful_ofRegion b region? put)
  apply Alike.of_parts
  · intro layout machine machine' hm
    exact ofRegion_serve_alike hlook hput hm fun region => region.alloc_alike h layout hm
  · intro addr layout machine machine' hm
    exact hm

theorem ofRegion_optional (h : a.Alike same a) :
    (ofRegion a region? put).Alike same (ofRegion a region? put).composed := by
  have hsteady : (ofRegion a region? put).Alike same (ofRegion a region? put) :=
    ofRegion_alike hlook hput h
  exact (faithful_ofRegion a region? put).alike_composed hsteady.composed

end OfRegion

end Allocator

end ArenaMemory
