import ArenaMemory.Proofs.Region.Representation

namespace ArenaMemory

variable {σ : Type}

def Grant.Within (part whole : Grant) : Prop := whole.start ≤ part.start ∧ part.stop ≤ whole.stop

namespace Grant.Within

variable {g h k : Grant} {a : Word}

theorem refl (g : Grant) : g.Within g := ⟨Nat.le_refl _, Nat.le_refl _⟩

theorem trans (hg : g.Within h) (hh : h.Within k) : g.Within k :=
  ⟨Nat.le_trans hh.1 hg.1, Nat.le_trans hg.2 hh.2⟩

theorem covers (hg : g.Within h) (ha : g.Covers a) : h.Covers a :=
  ⟨Nat.le_trans hg.1 ha.1, Nat.lt_of_lt_of_le ha.2 hg.2⟩

theorem size_pos (hg : g.Within h) (hpos : 0 < g.layout.size.toNat) :
    0 < h.layout.size.toNat := by
  obtain ⟨hstart, hstop⟩ := hg
  simp only [Grant.start, Grant.stop] at hstart hstop
  omega

end Grant.Within

/-- Every part that is not empty lies within one of the whole blocks, and no two parts have a byte
in common. -/
structure Subdivides (parts whole : Multiset Grant) : Prop where
  within : ∀ p ∈ parts, 0 < p.layout.size.toNat → ∃ w ∈ whole, p.Within w
  separate : Separate parts

namespace Subdivides

variable {parts parts' whole rest : Multiset Grant}

theorem refl (h : Separate whole) : Subdivides whole whole :=
  ⟨fun p hp _ => ⟨p, hp, .refl p⟩, h⟩

theorem refine (h : Subdivides (parts + rest) whole) (h' : Subdivides parts' parts) :
    Subdivides (parts' + rest) whole := by
  obtain ⟨-, hrest, hacross⟩ := separate_add.1 h.separate
  constructor
  · intro g hg hpos
    obtain hpart | hout := Multiset.mem_add.1 hg
    · obtain ⟨p, hp, hwithin⟩ := h'.within g hpart hpos
      obtain ⟨w, hw, hpw⟩ :=
        h.within p (Multiset.mem_add.2 (.inl hp)) (hwithin.size_pos hpos)
      exact ⟨w, hw, hwithin.trans hpw⟩
    · exact h.within g (Multiset.mem_add.2 (.inr hout)) hpos
  · refine separate_add.2 ⟨h'.separate, hrest, fun g hg k hk => ?_⟩
    obtain hzero | hpos := Nat.eq_zero_or_pos g.layout.size.toNat
    · exact Grant.apart_of_empty hzero
    · obtain ⟨p, hp, hwithin⟩ := h'.within g hg hpos
      exact (hacross p hp k hk).within hwithin.1 hwithin.2

end Subdivides

theorem Packed.subdivide {parts whole : Multiset Grant} (h : Packed whole)
    (hs : Subdivides parts whole) : Packed parts := by
  refine ⟨fun g hg hpos => ?_, hs.separate⟩
  obtain ⟨w, hw, hwithin⟩ := hs.within g hg hpos
  obtain ⟨hstart, hstop⟩ := h.within w hw (hwithin.size_pos hpos)
  exact ⟨Nat.lt_of_lt_of_le hstart hwithin.1, Nat.le_trans hwithin.2 hstop⟩

theorem AgreeOn.subdivide {parts whole : Multiset Grant} {memory memory' : Memory}
    (h : AgreeOn whole memory memory') (hs : Subdivides parts whole) :
    AgreeOn parts memory memory' := by
  intro g hg a ha
  have hpos : 0 < g.layout.size.toNat := by
    obtain ⟨hstart, hstop⟩ := ha
    simp only [Grant.start, Grant.stop] at hstart hstop
    omega
  obtain ⟨w, hw, hwithin⟩ := hs.within g hg hpos
  exact h w hw a (hwithin.covers ha)

namespace Region

variable {backing : Allocator σ} {region region' : Region} {layout : Layout}
  {machine machine' : Machine σ} {result : Option Word} {blocks blocks' : Multiset Grant}

def footers (region : Region) : Multiset Grant :=
  (region.chunks.map Chunk.footerBlock : List Grant)

/-- The region is sound and the blocks are some that it handed out. -/
structure Hosts (region : Region) (blocks : Multiset Grant) : Prop where
  sound : region.Sound
  separate : Separate blocks
  inUse : ∀ g ∈ blocks, 0 < g.layout.size.toNat → region.InUse g

theorem Hosts.mono (hosts : region.Hosts blocks) (hle : blocks' ≤ blocks) : region.Hosts blocks' :=
  ⟨hosts.sound, hosts.separate.mono hle, fun g hg => hosts.inUse g (Multiset.mem_of_le hle hg)⟩

theorem Hosts.setLimit (hosts : region.Hosts blocks) (limit : Option Word) :
    (region.setLimit limit).Hosts blocks :=
  ⟨hosts.sound.setLimit limit, hosts.separate, hosts.inUse⟩

theorem hosts_zero (sound : region.Sound) : region.Hosts 0 :=
  ⟨sound, by simp [Separate], by simp⟩

theorem Valid.footer_within {chunk : Chunk} (valid : region.Valid) (h : chunk ∈ region.chunks) :
    chunk.footerBlock.Within chunk.grant := by
  have hvalid := valid.chunks chunk h
  have hfoot := hvalid.footer_within
  rw [← hvalid.toNat_footer] at hfoot
  refine ⟨?_, hfoot⟩
  simp only [Chunk.footerBlock, Grant.start, Chunk.grant, hvalid.toNat_footer]
  exact Nat.le_add_right _ _

theorem Valid.separate_parts {part : Chunk → Grant} (valid : region.Valid)
    (hpart : ∀ chunk ∈ region.chunks, (part chunk).Within chunk.grant) :
    Separate (region.chunks.map part : List Grant) := by
  refine separate_coe (List.pairwise_map.2 (valid.apart.imp_of_mem fun {c d} hc hd hapart => ?_))
  have hcw := hpart c hc
  have hdw := hpart d hd
  exact ((hapart.within hcw.1 hcw.2).symm.within hdw.1 hdw.2).symm

theorem Valid.separate_footers (valid : region.Valid) : Separate region.footers :=
  valid.separate_parts fun _ => valid.footer_within

/-- The chunks of a region are cut into the blocks that it handed out and its footers. -/
theorem Hosts.subdivides (hosts : region.Hosts blocks) :
    Subdivides (blocks + region.footers) region.grants := by
  have hvalid := hosts.sound.valid
  constructor
  · intro g hg hpos
    obtain hblock | hfooter := Multiset.mem_add.1 hg
    · obtain ⟨chunk, hchunk, hwithin⟩ := (hosts.inUse g hblock hpos).within hvalid
      exact ⟨chunk.grant, mem_grants hchunk, hwithin⟩
    · obtain ⟨chunk, hchunk, rfl⟩ := List.mem_map.1 hfooter
      exact ⟨chunk.grant, mem_grants hchunk, hvalid.footer_within hchunk⟩
  · refine separate_add.2 ⟨hosts.separate, hvalid.separate_footers, fun g hg k hk => ?_⟩
    obtain ⟨chunk, hchunk, rfl⟩ := List.mem_map.1 hk
    obtain hzero | hpos := Nat.eq_zero_or_pos g.layout.size.toNat
    · exact Grant.apart_of_empty hzero
    · exact hvalid.footer_apart hchunk (hosts.inUse g hg hpos)

theorem Hosts.request (hosts : region.Hosts blocks)
    (hfresh : ∀ {chunkLayout start machine'}, 0 < chunkLayout.size.toNat →
      backing.alloc chunkLayout machine = (some start, machine') →
      Grant.Fresh region.grants ⟨start, chunkLayout⟩)
    (ha : region.alloc backing layout machine = (result, region', machine')) :
    region'.Hosts (granted result layout + blocks) := by
  have hsound := hosts.sound.alloc_of_fresh hfresh ha
  have hserved := alloc_served_of_fresh hosts.sound.valid hfresh ha
  have hkept : ∀ g ∈ blocks, 0 < g.layout.size.toNat → region'.InUse g :=
    fun g hg hpos => hserved.inUse g (hosts.inUse g hg hpos)
  cases result with
  | none =>
    rw [granted_none, zero_add]
    exact ⟨hsound, hosts.separate, hkept⟩
  | some addr =>
    rw [granted_some, Multiset.singleton_add]
    refine ⟨hsound, separate_cons.2 ⟨fun g hg => ?_, hosts.separate⟩, fun g hg hpos => ?_⟩
    · obtain hzero | hpos := Nat.eq_zero_or_pos layout.size.toNat
      · exact Grant.apart_of_empty hzero
      obtain hzero | hgpos := Nat.eq_zero_or_pos g.layout.size.toNat
      · exact (Grant.apart_of_empty hzero).symm
      · obtain ⟨-, -, -, hapart⟩ := hserved.fresh addr rfl hpos
        exact hapart g (hosts.inUse g hg hgpos)
    · obtain rfl | hold := Multiset.mem_cons.1 hg
      · exact (hserved.fresh addr rfl hpos).1
      · exact hkept g hold hpos

theorem footers_le (ha : region.alloc backing layout machine = (result, region', machine')) :
    region.footers ≤ region'.footers := by
  have ho := ha ▸ alloc_outcome backing region layout machine
  cases ho with
  | empty => exact le_rfl
  | carved =>
    unfold footers setCurrent current
    split
    · exact le_rfl
    next hchunks =>
      rw [hchunks]
      exact le_rfl
  | slow hsize hc hg =>
    cases hg with
    | overflow | limited | unplanned | denied => exact le_rfl
    | wasted | served => exact Multiset.le_cons_self _ _

inductive Calling (backing : Allocator σ) (region : Region) (machine : Machine σ) :
    Region → Machine σ → Prop where
  | silent {region' trace} : region'.grants = region.grants →
      Calling backing region machine region' { machine with trace }
  | asked {layout result region' machine' trace} :
      backing.alloc layout machine = (result, machine') →
      region'.grants = granted result layout + region.grants →
      Calling backing region machine region' { machine' with trace }

theorem calling (ha : region.alloc backing layout machine = (result, region', machine')) :
    Calling backing region machine region' machine' := by
  have ho := ha ▸ alloc_outcome backing region layout machine
  cases ho with
  | empty => exact .silent rfl
  | carved => exact .silent (grants_bump _)
  | slow hsize hc hg =>
    cases hg with
    | overflow | limited | unplanned => exact .silent rfl
    | denied hn hp hb => exact .asked hb (by rw [granted_none, zero_add])
    | wasted hn hp hb hw | served hn hp hb hw => exact .asked hb rfl

end Region

end ArenaMemory
