import Mathlib.Algebra.Order.BigOperators.Group.List
import ArenaMemory.Proofs.Allocator.Accounting
import ArenaMemory.Proofs.Region.BlockSafety

namespace ArenaMemory

variable {σ : Type}

def usableBytes (chunks : List Chunk) : Nat := (chunks.map fun chunk => chunk.usable.toNat).sum

@[simp]
theorem usableBytes_nil : usableBytes [] = 0 := rfl

@[simp]
theorem usableBytes_cons (chunk : Chunk) (older : List Chunk) :
    usableBytes (chunk :: older) = chunk.usable.toNat + usableBytes older := by
  simp [usableBytes]

/-- Every watermark counts the usable bytes of its chunk and all older ones. -/
def Tallied (chunks : List Chunk) : Prop :=
  ∀ chunk older, chunk :: older <:+ chunks → chunk.watermark.toNat = usableBytes (chunk :: older)

theorem tallied_nil : Tallied [] := fun _ _ h => absurd (List.suffix_nil.1 h) (List.cons_ne_nil _ _)

theorem tallied_cons {newest : Chunk} {chunks : List Chunk} :
    Tallied (newest :: chunks) ↔
      newest.watermark.toNat = usableBytes (newest :: chunks) ∧ Tallied chunks := by
  constructor
  · intro h
    exact ⟨h newest chunks List.suffix_rfl, fun chunk older hs =>
      h chunk older (hs.trans (List.suffix_cons newest chunks))⟩
  · rintro ⟨hnewest, h⟩ chunk older hs
    obtain heq | hs := List.suffix_cons_iff.1 hs
    · obtain ⟨rfl, rfl⟩ := List.cons.inj heq
      exact hnewest
    · exact h chunk older hs

namespace Region

variable {backing : Allocator σ} {region region' : Region} {layout : Layout} {rest : Multiset Grant}
  {minAlign : Word} {start machine machine' : Machine σ} {home result : Option Word}
  {blocks : List Grant} {op : Operation}

/-- What holds of a region's chunks at any time: each has its parts in order, they lie side by side,
and their watermarks count their bytes. -/
structure Sound (region : Region) : Prop where
  valid : region.Valid
  packed : Packed region.grants
  tallied : Tallied region.chunks

theorem sound_of_chunks_nil (h : region.chunks = []) : region.Sound :=
  ⟨valid_of_chunks_nil h, grants_of_chunks_nil h ▸ .zero, h ▸ tallied_nil⟩

theorem allocated_eq_usableBytes (tallied : Tallied region.chunks) :
    region.allocated.toNat = usableBytes region.chunks := by
  rw [Region.allocated, current]
  cases hchunks : region.chunks with
  | nil => rfl
  | cons newest older => exact (tallied_cons.1 (hchunks ▸ tallied)).1

theorem Valid.usable_le {chunk : Chunk} (valid : region.Valid) (h : chunk ∈ region.chunks) :
    chunk.usable.toNat + footerSize.toNat ≤ chunk.layout.size.toNat := by
  rw [(valid.chunks chunk h).size_eq]
  exact le_roundUp chunk.layout.align.toNat_pos

/-- The usable bytes are part of the blocks, and blocks side by side have no more bytes than there
are addresses. -/
theorem usableBytes_lt (valid : region.Valid) (packed : Packed region.grants) :
    usableBytes region.chunks < 2 ^ 64 := by
  refine Nat.lt_of_le_of_lt ?_ packed.bytesOut_lt
  rw [bytesOut, grants, Multiset.map_coe, Multiset.sum_coe, List.map_map]
  refine List.sum_le_sum fun chunk hchunk => ?_
  exact Nat.le_trans (Nat.le_add_right _ _) (valid.usable_le hchunk)

theorem tallied_bump (addr : Word) (tallied : Tallied region.chunks) :
    Tallied (region.setCurrent { region.current with bump := addr }).chunks := by
  unfold setCurrent current
  split
  · exact tallied
  next newest older hchunks =>
    rw [hchunks, tallied_cons] at tallied
    rw [hchunks]
    exact tallied_cons.2 tallied

theorem tallied_push {chunk : Chunk} (tallied : Tallied region.chunks)
    (valid : (region.push chunk).Valid) (packed : Packed (region.push chunk).grants)
    (hwatermark : chunk.watermark = Word.saturatingAdd region.allocated chunk.usable) :
    Tallied (region.push chunk).chunks := by
  have hlt := usableBytes_lt valid packed
  rw [push, usableBytes_cons] at hlt
  rw [push, tallied_cons, hwatermark, Word.toNat_saturatingAdd, allocated_eq_usableBytes tallied,
    usableBytes_cons]
  exact ⟨by omega, tallied⟩

theorem Sound.alloc_of_fresh (sound : region.Sound)
    (hfresh : ∀ {chunkLayout start machine'}, 0 < chunkLayout.size.toNat →
      backing.alloc chunkLayout machine = (some start, machine') →
      Grant.Fresh region.grants ⟨start, chunkLayout⟩)
    (ha : region.alloc backing layout machine = (result, region', machine')) : region'.Sound := by
  have hvalid := (alloc_served_of_fresh sound.valid hfresh ha).valid
  have ho := ha ▸ alloc_outcome backing region layout machine
  cases ho with
  | empty => exact sound
  | carved => exact ⟨hvalid, (grants_bump _).symm ▸ sound.packed, tallied_bump _ sound.tallied⟩
  | slow hsize hc hg =>
    cases hg with
    | overflow | limited | unplanned | denied => exact sound
    | wasted hn hp hb hw | served hn hp hb hw =>
      have hpacked := sound.packed.cons fun hpos => hfresh hpos hb
      exact ⟨hvalid, hpacked, tallied_push sound.tallied hvalid hpacked rfl⟩

theorem Sound.alloc (placement : backing.Placement) (sound : region.Sound)
    (h : placement.holds (region.grants + rest) machine.store)
    (ha : region.alloc backing layout machine = (result, region', machine')) : region'.Sound :=
  sound.alloc_of_fresh (fun hpos hb => (placement.alloc_fresh h hpos hb).left) ha

theorem Sound.reset (sound : region.Sound)
    (hr : region.reset backing machine = (region', machine')) : region'.Sound := by
  have hvalid := (reset_valid sound.valid hr).1
  rw [Region.reset] at hr
  split at hr
  · obtain ⟨rfl, rfl⟩ := hr
    exact sound
  next newest older hchunks =>
    obtain ⟨rfl, rfl⟩ := hr
    refine ⟨hvalid, sound.packed.mono ?_, tallied_cons.2 ⟨rfl, tallied_nil⟩⟩
    rw [grants_cons hchunks]
    exact Multiset.le_add_right _ _

theorem Sound.setLimit (sound : region.Sound) (limit : Option Word) : (region.setLimit limit).Sound :=
  ⟨⟨sound.valid.chunks, sound.valid.apart⟩, sound.packed, sound.tallied⟩

theorem Sound.perform (placement : backing.Placement) (sound : region.Sound)
    (h : placement.holds (region.grants + rest) machine.store)
    (hp : op.perform backing region machine = (result, region', machine')) : region'.Sound := by
  have hperformed := hp ▸ performed op backing region machine
  cases hperformed with
  | declined => exact sound
  | requested _ hop hlayout ha => exact sound.alloc placement h ha
  | limited limit => exact sound.setLimit limit
  | reset hr => exact sound.reset hr
  | deinit hd =>
    obtain ⟨rfl, rfl⟩ := Prod.mk.inj hd
    exact sound_of_chunks_nil rfl

theorem Run.sound (placement : backing.Placement) (hstart : placement.shared.holds 0 start.store)
    (run : Run backing (fun mine _ machine' => placement.shared.holds mine machine'.store) minAlign
      start home blocks region machine) : region.Sound := by
  induction run with
  | create hc | box hc => exact sound_of_chunks_nil (chunks_of_create hc)
  | perform op run hp ih =>
    have h := run.holds placement.shared.toLedger hstart fun _ ho => ho
    exact ih.perform placement.shared h hp
  | others run ho ih => exact ih

theorem Valid.nodup_footers (valid : region.Valid) : (region.chunks.map Chunk.footer).Nodup := by
  refine List.pairwise_map.2 (valid.apart.imp_of_mem fun {c d} hc hd hapart heq => ?_)
  have hcf := (valid.chunks c hc).footer_within
  have hdf := (valid.chunks d hd).footer_within
  rw [← (valid.chunks c hc).toNat_footer] at hcf
  rw [← (valid.chunks d hd).toNat_footer, ← heq] at hdf
  have hcs := (valid.chunks c hc).toNat_footer
  have hds := (valid.chunks d hd).toNat_footer
  rw [← heq] at hds
  simp only [Grant.Apart, Grant.start, Chunk.grant] at hapart hcf hdf
  omega

theorem perform_same (hp : op.perform backing region machine = (result, region', machine')) :
    region' = { region with limit := region'.limit, chunks := region'.chunks } := by
  have hperformed := hp ▸ performed op backing region machine
  cases hperformed with
  | declined | limited => rfl
  | requested _ hop hlayout ha => rw [alloc_same ha]
  | reset hr => rw [reset_same hr]
  | deinit hd =>
    obtain ⟨rfl, rfl⟩ := Prod.mk.inj hd
    rfl

theorem perform_allocated_le (hop : op.forgets = false)
    (hp : op.perform backing region machine = (result, region', machine')) :
    region.allocated ≤ region'.allocated := by
  have hperformed := hp ▸ performed op backing region machine
  cases hperformed with
  | declined | limited => exact UInt64.le_refl _
  | requested _ _ hlayout ha => exact allocated_le ha
  | reset | deinit => cases hop

theorem Valid.start_le_bump (valid : region.Valid) :
    region.current.start.toNat ≤ region.current.bump.toNat := by
  rw [current]
  cases hchunks : region.chunks with
  | nil => exact Nat.le_refl _
  | cons newest older => exact (valid.chunks newest (by simp [hchunks])).start_le_bump

theorem Valid.remaining (valid : region.Valid) :
    region.current.start.toNat + region.stats.remaining.toNat = region.current.bump.toNat := by
  have hle := valid.start_le_bump
  rw [stats, Chunk.remaining, UInt64.toNat_sub_of_le _ _ (UInt64.le_iff_toNat_le.2 hle)]
  exact Nat.add_sub_of_le hle

theorem Sound.remaining (sound : region.Sound) :
    region.current.start.toNat + region.stats.remaining.toNat = region.current.bump.toNat :=
  sound.valid.remaining

theorem Sound.allocated_eq_zero (sound : region.Sound) :
    region.allocated = 0 ↔ region.chunks = [] := by
  rw [← UInt64.toNat_inj, allocated_eq_usableBytes sound.tallied, UInt64.toNat_zero]
  cases hchunks : region.chunks with
  | nil => simp
  | cons newest older =>
    have hpos := (sound.valid.chunks newest (by simp [hchunks])).usable_pos
    rw [usableBytes_cons]
    simp only [reduceCtorEq, iff_false]
    omega

/-- The representation invariant of a region: distinct chunks in order and aligned, below them the
sentinel, and watermarks that count the usable bytes without an overflow. -/
theorem representation (placement : backing.Placement)
    (hstart : placement.shared.holds 0 start.store)
    (run : Run backing (fun mine _ machine' => placement.shared.holds mine machine'.store) minAlign
      start home blocks region machine) :
    (region.chunks.map Chunk.footer).Nodup ∧
      (region.chunks = [] → region.current = .sentinel region.anchor ∧
        ∀ layout chunk, 0 < layout.size.toNat →
          region.bump? layout = none ∧ region.setCurrent chunk = region) ∧
      (∀ chunk ∈ region.chunks,
        chunk.start.toNat ≤ chunk.bump.toNat ∧ chunk.bump.toNat ≤ chunk.footer.toNat ∧
          minAlign.toNat ∣ chunk.bump.toNat ∧
          chunk.layout.align.bytes.toNat ∣ chunk.start.toNat ∧
          0 < chunk.usable.toNat ∧ 16 ∣ chunk.usable.toNat ∧
          chunk.layout.size.toNat =
            roundUp (chunk.usable.toNat + 48) chunk.layout.align.bytes.toNat) ∧
      (∀ chunk older, chunk :: older <:+ region.chunks →
        chunk.watermark.toNat = usableBytes (chunk :: older)) ∧
      region.stats.allocated.toNat = usableBytes region.chunks ∧
      region.stats.chunkCount = region.chunks.length ∧
      region.current.start.toNat + region.stats.remaining.toNat = region.current.bump.toNat ∧
      (region.stats.allocated = 0 ↔ region.chunks = []) ∧
      ∀ op result region' machine',
        Operation.perform op backing region machine = (result, region', machine') →
        region' = { region with limit := region'.limit, chunks := region'.chunks } ∧
          (op.forgets = false → region.stats.allocated ≤ region'.stats.allocated) := by
  have sound := run.sound placement hstart
  have safe := run.safe placement hstart
  refine ⟨sound.valid.nodup_footers, fun hnil => ⟨?_, fun layout chunk hpos => ⟨?_, ?_⟩⟩,
    fun chunk hchunk => ?_, sound.tallied, allocated_eq_usableBytes sound.tallied, rfl, sound.remaining,
    sound.allocated_eq_zero,
    fun op result region' machine' hp => ⟨perform_same hp, fun hop => perform_allocated_le hop hp⟩⟩
  · rw [current, hnil]
    rfl
  · rw [bump?, current, hnil, List.headD_nil, Chunk.carve?_sentinel _ hpos]
  · rw [setCurrent, hnil]
  · have hvalid := sound.valid.chunks chunk hchunk
    exact ⟨hvalid.start_le_bump, hvalid.toNat_footer ▸ hvalid.bump_le_footer,
      safe.minAlign_eq ▸ hvalid.bump_aligned, hvalid.start_aligned, hvalid.usable_pos,
      hvalid.usable_aligned, hvalid.size_eq⟩

theorem holds_window : Platform.plainWindowContract.toPlacement.shared.holds 0
    (⟨.ofCap 65536, {}⟩ : Platform) := ⟨0, by decide, by decide, by simp⟩

theorem run_window : Run Platform.plainWindow
    (fun mine _ machine' =>
      Platform.plainWindowContract.toPlacement.shared.holds mine machine'.store) 8
    { store := ⟨.ofCap 65536, {}⟩ } none [] ⟨0x10000, .eight, by decide, none, []⟩
    { store := ⟨.ofCap 65536, {}⟩ } :=
  .create (show Region.create 0x10000 8 = _ by decide)

theorem representation_two_chunks : ∃ region : Region,
    region.chunks.map (·.usable) = [8096, 4048] ∧ region.stats = ⟨12144, 2, 3008⟩ ∧
      (region.chunks.map Chunk.footer).Nodup ∧
      (∀ chunk older, chunk :: older <:+ region.chunks →
        chunk.watermark.toNat = usableBytes (chunk :: older)) ∧
      region.stats.allocated.toNat = usableBytes region.chunks ∧
      (region.stats.allocated = 0 ↔ region.chunks = []) := by
  obtain ⟨hnodup, -, -, htallied, hallocated, -, -, hzero, -⟩ :=
    representation Platform.plainWindowContract.toPlacement holds_window
      ((run_window.perform (.alloc ⟨100, .one⟩) rfl).perform (.alloc ⟨5000, .sixtyFour⟩) rfl)
  exact ⟨_, by decide, by decide, hnodup, htallied, hallocated, hzero⟩

end Region

end ArenaMemory
