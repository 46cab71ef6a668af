import ArenaMemory.Proofs.Region.Representation

namespace ArenaMemory

variable {σ : Type}

theorem Alignment.two_mul_dvd_of_lt {a b : Alignment} (h : a.bytes < b.bytes) :
    2 * a.bytes.toNat ∣ b.bytes.toNat := by
  obtain ⟨i, -, hi⟩ := a.exists_exponent
  obtain ⟨j, -, hj⟩ := b.exists_exponent
  rw [UInt64.lt_iff_toNat_lt, hi, hj, Nat.pow_lt_pow_iff_right (by decide)] at h
  rw [hi, hj, ← Nat.pow_succ']
  exact Nat.pow_dvd_pow 2 h

namespace Chunk

variable {chunk : Chunk} {minAlign align : Alignment} {anchor : Word}

theorem emptyBlock_ne_zero : chunk.emptyBlock align ≠ 0 := by
  rw [emptyBlock]
  split
  · exact UInt64.pos_iff_ne_zero.1 align.toNat_pos
  · assumption

theorem dvd_emptyBlock : align.bytes.toNat ∣ (chunk.emptyBlock align).toNat := by
  rw [emptyBlock]
  split
  · exact Nat.dvd_refl _
  · rw [Word.toNat_alignDown]
    exact dvd_roundDown

theorem emptyBlock_eq_bump (hbump : chunk.bump ≠ 0)
    (hdvd : align.bytes.toNat ∣ chunk.bump.toNat) : chunk.emptyBlock align = chunk.bump := by
  have hdown : Word.alignDown chunk.bump align.bytes = chunk.bump := by
    rw [← UInt64.toNat_inj, Word.toNat_alignDown]
    exact roundDown_eq hdvd
  rw [emptyBlock, hdown, if_neg hbump]

theorem minAlign_dvd_emptyBlock (hbump : chunk.bump ≠ 0)
    (hdvd : minAlign.bytes.toNat ∣ chunk.bump.toNat) :
    minAlign.bytes.toNat ∣ (chunk.emptyBlock align).toNat := by
  obtain hle | hlt := UInt64.le_or_lt minAlign.bytes align.bytes
  · exact (Alignment.dvd_of_le hle).trans dvd_emptyBlock
  · have halign := Alignment.dvd_of_le (UInt64.le_of_lt hlt)
    rw [emptyBlock_eq_bump hbump (halign.trans hdvd)]
    exact hdvd

/-- The sentinel stands at a multiple of the footer type's alignment, which may be less than the
region's. -/
theorem minAlign_dvd_emptyBlock_sentinel (hmin : minAlign.bytes ≤ chunkAlign.bytes)
    (hanchor : anchor ≠ 0) (height : 8 ∣ anchor.toNat) :
    minAlign.bytes.toNat ∣ ((sentinel anchor).emptyBlock align).toNat ↔
      minAlign.bytes ≤ align.bytes ∨ minAlign.bytes.toNat ∣ anchor.toNat := by
  constructor
  · intro hdvd
    refine (UInt64.le_or_lt minAlign.bytes align.bytes).imp_right fun hlt => ?_
    have hsixteen : 2 * align.bytes.toNat ∣ 2 * 8 :=
      (Alignment.two_mul_dvd_of_lt hlt).trans (Alignment.dvd_of_le hmin)
    have halign : align.bytes.toNat ∣ anchor.toNat :=
      (Nat.dvd_of_mul_dvd_mul_left (by decide) hsixteen).trans height
    rwa [emptyBlock_eq_bump hanchor halign] at hdvd
  · rintro (hle | hdvd)
    · exact (Alignment.dvd_of_le hle).trans dvd_emptyBlock
    · exact minAlign_dvd_emptyBlock hanchor hdvd

end Chunk

namespace Region

variable {backing : Allocator σ} {region region' : Region} {layout : Layout} {rest : Multiset Grant}
  {minAlign : Word} {start machine machine' : Machine σ} {home result : Option Word}
  {blocks : List Grant} {op : Operation}

def NonNull (region : Region) : Prop := ∀ chunk ∈ region.chunks, chunk.start ≠ 0

theorem nonNull_of_chunks_nil (h : region.chunks = []) : region.NonNull := by
  simp [NonNull, h]

theorem NonNull.bump (nonNull : region.NonNull) (addr : Word) :
    (region.setCurrent { region.current with bump := addr }).NonNull := by
  cases hchunks : region.chunks with
  | nil =>
    rw [setCurrent, hchunks]
    exact nonNull
  | cons newest older =>
    rw [setCurrent_of_cons hchunks, current_of_cons hchunks]
    rw [NonNull, hchunks, List.forall_mem_cons] at nonNull
    exact List.forall_mem_cons.2 nonNull

theorem NonNull.alloc (placement : backing.Placement) (nonNull : region.NonNull)
    (h : placement.holds (region.grants + rest) machine.store)
    (ha : region.alloc backing layout machine = (result, region', machine')) : region'.NonNull := by
  have ho := ha ▸ alloc_outcome backing region layout machine
  cases ho with
  | empty => exact nonNull
  | carved => exact nonNull.bump _
  | slow hsize hc hg =>
    cases hg with
    | overflow | limited | unplanned | denied => exact nonNull
    | wasted hn hp hb hw | served hn hp hb hw =>
      have hfresh := placement.alloc_fresh h (planned_size_pos hp) hb
      exact List.forall_mem_cons.2 ⟨hfresh.addr_ne_zero, nonNull⟩

theorem NonNull.reset (nonNull : region.NonNull)
    (hr : region.reset backing machine = (region', machine')) : region'.NonNull := by
  rw [Region.reset] at hr
  split at hr
  · obtain ⟨rfl, rfl⟩ := hr
    exact nonNull
  next newest older hchunks =>
    obtain ⟨rfl, rfl⟩ := hr
    rw [NonNull, hchunks, List.forall_mem_cons] at nonNull
    exact List.forall_mem_singleton.2 nonNull.1

theorem NonNull.perform (placement : backing.Placement) (nonNull : region.NonNull)
    (h : placement.holds (region.grants + rest) machine.store)
    (hp : op.perform backing region machine = (result, region', machine')) : region'.NonNull := by
  have hperformed := hp ▸ performed op backing region machine
  cases hperformed with
  | declined | limited => exact nonNull
  | requested _ hop hlayout ha => exact nonNull.alloc placement h ha
  | reset hr => exact nonNull.reset hr
  | deinit hd =>
    obtain ⟨rfl, rfl⟩ := Prod.mk.inj hd
    exact nonNull_of_chunks_nil rfl

theorem Run.nonNull (placement : backing.Placement)
    (hstart : placement.shared.holds 0 start.store)
    (run : Run backing (fun mine _ machine' => placement.shared.holds mine machine'.store) minAlign
      start home blocks region machine) : region.NonNull := by
  induction run with
  | create hc | box hc => exact nonNull_of_chunks_nil (chunks_of_create hc)
  | perform op run hp ih =>
    have h := run.holds placement.shared.toLedger hstart fun _ ho => ho
    exact ih.perform placement.shared h hp
  | others run ho ih => exact ih

theorem minAlign_dvd_emptyBlock (valid : region.Valid) (nonNull : region.NonNull)
    (hchunks : region.chunks ≠ []) (align : Alignment) :
    region.minAlign.bytes.toNat ∣ (region.current.emptyBlock align).toNat := by
  obtain ⟨newest, older, hcons⟩ := List.exists_cons_of_ne_nil hchunks
  have hnewest : newest ∈ region.chunks := by simp [hcons]
  have hvalid := valid.chunks newest hnewest
  have hpos : 0 < newest.start.toNat := UInt64.pos_iff_ne_zero.2 (nonNull newest hnewest)
  have hbump : newest.bump ≠ 0 := UInt64.pos_iff_ne_zero.1
    (UInt64.lt_iff_toNat_lt.2 (Nat.lt_of_lt_of_le hpos hvalid.start_le_bump))
  rw [current_of_cons hcons]
  exact Chunk.minAlign_dvd_emptyBlock hbump hvalid.bump_aligned

/-- A request for no bytes is served without a call, and changes nothing. Without a chunk the
address is aligned to the region's own alignment only where the alignment asked for or the place of
the sentinel provides it. -/
theorem empty_request (placement : backing.Placement)
    (hstart : placement.shared.holds 0 start.store)
    (run : Run backing (fun mine _ machine' => placement.shared.holds mine machine'.store) minAlign
      start home blocks region machine) (layout : Layout) (hsize : layout.size = 0) :
    ∃ addr, region.alloc backing layout machine = (some addr, region, machine) ∧ addr ≠ 0 ∧
      layout.align.bytes.toNat ∣ addr.toNat ∧
      (region.chunks ≠ [] → minAlign.toNat ∣ addr.toNat) ∧
      (region.chunks = [] → region.anchor ≠ 0 → 8 ∣ region.anchor.toNat →
        (minAlign.toNat ∣ addr.toNat ↔
          minAlign ≤ layout.align.bytes ∨ minAlign.toNat ∣ region.anchor.toNat)) := by
  have safe := run.safe placement hstart
  rw [← safe.minAlign_eq]
  refine ⟨_, alloc_empty hsize, Chunk.emptyBlock_ne_zero,
    Chunk.dvd_emptyBlock, fun hchunks => ?_, fun hnil hanchor height => ?_⟩
  · exact minAlign_dvd_emptyBlock safe.valid (run.nonNull placement hstart) hchunks layout.align
  · rw [current_of_nil hnil]
    exact Chunk.minAlign_dvd_emptyBlock_sentinel region.minAlign_le hanchor height

theorem empty_request_beside_block : ∃ (region : Region) (machine : Machine Platform),
    region.chunks.length = 1 ∧ ∃ addr, region.alloc Platform.plainWindow ⟨0, .one⟩ machine =
      (some addr, region, machine) ∧ addr ≠ 0 ∧ (8 : Word).toNat ∣ addr.toNat := by
  obtain ⟨addr, ha, hne, -, hmin, -⟩ :=
    empty_request Platform.plainWindowContract.toPlacement holds_window
      (run_window.perform (.alloc ⟨100, .one⟩) rfl) ⟨0, .one⟩ rfl
  exact ⟨_, _, by decide, addr, ha, hne, hmin (by decide)⟩

/-- A sentinel at an odd multiple of eight is handed out by a region whose blocks are to be aligned
to sixteen. -/
theorem empty_request_misaligned : ¬ ∀ (anchor : Word) (region : Region) (layout : Layout)
    (machine : Machine Platform), anchor ≠ 0 → 8 ∣ anchor.toNat →
      Region.create anchor 16 = .ok region → layout.size = 0 →
      ∃ addr, (region.alloc Platform.plainWindow layout machine).1 = some addr ∧
        16 ∣ addr.toNat := by
  intro h
  obtain ⟨addr, haddr, hdvd⟩ := h 0x10008 ⟨0x10008, .sixteen, by decide, none, []⟩ ⟨0, .one⟩
    { store := ⟨.ofCap 65536, {}⟩ } (by decide) (by decide) (by decide) rfl
  have heq : addr = 0x10008 := (Option.some.inj haddr).symm
  exact absurd hdvd (heq ▸ by decide)

end Region

end ArenaMemory
