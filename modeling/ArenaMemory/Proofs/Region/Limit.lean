import ArenaMemory.Proofs.RunFrom
import ArenaMemory.Proofs.Region.Representation

namespace ArenaMemory

variable {σ : Type}

namespace Region

/-- The bytes that a block of the layout takes of a chunk: its size, rounded to its alignment and
the region's. -/
def bytesFor (region : Region) (layout : Layout) : Nat :=
  roundUp layout.size.toNat (layout.align.strictest region.minAlign).bytes.toNat

/-- What a limit leaves to be obtained. A limit that was lowered below what the region has leaves
nothing. -/
def leftOf (region : Region) (limit : Word) : Nat := limit.toNat - region.allocated.toNat

variable {backing : Allocator σ} {region region' : Region} {layout : Layout} {rest : Multiset Grant}
  {machine machine' : Machine σ} {result : Option Word} {limit usable : Word} {op : Operation}

theorem need?_eq_some {need : Word} :
    region.need? layout = some need ↔ need.toNat = region.bytesFor layout := by
  rw [need?, Alignment.max_bytes, Word.checkedAlignUp_eq_some, bytesFor]

theorem need?_eq_none : region.need? layout = none ↔ 2 ^ 64 ≤ region.bytesFor layout := by
  rw [need?, Alignment.max_bytes, Word.checkedAlignUp_eq_none, bytesFor]

theorem bytesFor_pos (hpos : 0 < layout.size.toNat) : 0 < region.bytesFor layout :=
  roundUp_pos (layout.align.strictest region.minAlign).toNat_pos hpos

theorem toNat_preferred (raw : Word) :
    (preferred raw).toNat = min (roundUp raw.toNat 16) (2 ^ 64 - 16) := by
  have hsixteen : chunkAlign.bytes.toNat = 16 := rfl
  rw [preferred]
  cases hup : Word.checkedAlignUp raw chunkAlign.bytes with
  | none =>
    have hover := Word.checkedAlignUp_eq_none.1 hup
    have hlast : (Word.alignDown Word.maxValue chunkAlign.bytes).toNat = 2 ^ 64 - 16 := by decide
    rw [hsixteen] at hover
    rw [Option.getD_none, hlast]
    omega
  | some up =>
    have hu := Word.checkedAlignUp_eq_some.1 hup
    have hlt := up.toNat_lt
    have hdvd : 16 ∣ roundUp raw.toNat 16 := dvd_roundUp
    rw [hsixteen] at hu
    rw [Option.getD_some, hu]
    omega

/-- The usable bytes that the next chunk should have if nothing limits it: twice those of the
newest, a page at least, and enough for the request. -/
def wished (region : Region) (layout : Layout) : Nat :=
  roundUp (max (max (2 * region.current.usable.toNat) leastUsable.toNat) (region.bytesFor layout)) 16

/-- Where doubling leaves the range, so does what is wished for, and the preference stops at the
same place. -/
theorem toNat_wished {need : Word} (hneed : need.toNat = region.bytesFor layout) :
    (preferred (max (max ((Word.checkedMul region.current.usable 2).getD Word.maxValue) leastUsable)
      need)).toNat = min (region.wished layout) (2 ^ 64 - 16) := by
  have hlt := need.toNat_lt
  have htwo : (2 : Word).toNat = 2 := rfl
  rw [toNat_preferred, Word.toNat_max, Word.toNat_max, Word.toNat_checkedMul_getD, hneed, htwo,
    Nat.mul_comm, wished]
  by_cases hfits : 2 * region.current.usable.toNat ≤ 2 ^ 64 - 1
  · rw [Nat.min_eq_left hfits]
  · rw [Nat.min_eq_right (Nat.le_of_not_le hfits)]
    have hleft := le_roundUp (a := 16)
      (n := max (max (2 ^ 64 - 1) leastUsable.toNat) (region.bytesFor layout)) (by decide)
    have hright := le_roundUp (a := 16) (n := max (max (2 * region.current.usable.toNat)
      leastUsable.toNat) (region.bytesFor layout)) (by decide)
    omega

inductive Plan (region : Region) (layout : Layout) (limit : Word) : Except ChunkRefusal Word → Prop
  where
  | overflow : 2 ^ 64 ≤ roundUp (region.bytesFor layout) 16 →
      Plan region layout limit (.error .overflow)
  | refused : region.leftOf limit < roundUp (region.bytesFor layout) 16 →
      Plan region layout limit (.error (.limit limit region.allocated))
  | doubled {usable : Word} : usable.toNat = min (region.wished layout) (2 ^ 64 - 16) →
      usable.toNat ≤ region.leftOf limit → Plan region layout limit (.ok usable)
  | shrunk {usable : Word} : roundUp (region.bytesFor layout) 16 ≤ region.leftOf limit →
      region.leftOf limit < min (region.wished layout) (2 ^ 64 - 16) →
      usable.toNat = roundDown (region.leftOf limit) 16 → Plan region layout limit (.ok usable)

theorem plan (hlimit : region.limit = some limit) :
    Plan region layout limit (region.nextUsable layout) := by
  have hsixteen : chunkAlign.bytes.toNat = 16 := rfl
  have hleft : (Word.saturatingSub limit region.allocated).toNat = region.leftOf limit :=
    Word.toNat_saturatingSub _ _
  rw [nextUsable]
  cases hneed : region.need? layout with
  | none =>
    have hover := need?_eq_none.1 hneed
    exact .overflow (Nat.le_trans hover (le_roundUp (by decide)))
  | some need =>
    rw [need?_eq_some] at hneed
    have hwished := toNat_wished hneed
    rw [preferred] at hwished
    simp only [hlimit]
    split
    next hle =>
      rw [UInt64.le_iff_toNat_le, hleft] at hle
      exact .doubled hwished hle
    next hgt =>
      rw [UInt64.le_iff_toNat_le, hleft] at hgt
      cases hup : Word.checkedAlignUp need chunkAlign.bytes with
      | none =>
        have hover := Word.checkedAlignUp_eq_none.1 hup
        rw [hneed, hsixteen] at hover
        exact .overflow hover
      | some up =>
        have hu := Word.checkedAlignUp_eq_some.1 hup
        rw [hneed, hsixteen] at hu
        dsimp only
        split
        next hlt =>
          rw [UInt64.lt_iff_toNat_lt, hleft, hu] at hlt
          exact .refused hlt
        next hfits =>
          rw [UInt64.lt_iff_toNat_lt, hleft, hu] at hfits
          refine .shrunk (Nat.le_of_not_lt hfits) ?_ ?_
          · rw [← hwished]
            exact Nat.lt_of_not_le hgt
          · rw [Word.toNat_alignDown, hleft, hsixteen]

theorem nextUsable_le (hlimit : region.limit = some limit)
    (hn : region.nextUsable layout = .ok usable) : usable.toNat ≤ region.leftOf limit := by
  have hplan : Plan region layout limit _ := plan hlimit
  rw [hn] at hplan
  cases hplan with
  | doubled hwished hle => exact hle
  | shrunk hfits hlt husable => exact husable ▸ roundDown_le

/-- A request that fits what the limit leaves has a chunk planned for it: the one wished for, or
what is left. -/
theorem nextUsable_of_fits (hlimit : region.limit = some limit)
    (hfits : roundUp (region.bytesFor layout) 16 ≤ region.leftOf limit) :
    ∃ usable, region.nextUsable layout = .ok usable ∧
      usable.toNat = min (region.wished layout) (roundDown (region.leftOf limit) 16) ∧
      region.bytesFor layout ≤ usable.toNat := by
  have hlt : region.leftOf limit < 2 ^ 64 :=
    Nat.lt_of_le_of_lt (Nat.sub_le _ _) limit.toNat_lt
  have hbytes := le_roundUp (n := region.bytesFor layout) (a := 16) (by decide)
  have hdown := roundDown_le (n := region.leftOf limit) (a := 16)
  have hneed : region.bytesFor layout ≤ roundDown (region.leftOf limit) 16 :=
    Nat.le_trans hbytes (le_roundDown dvd_roundUp hfits)
  have hwish : region.bytesFor layout ≤ region.wished layout :=
    Nat.le_trans (Nat.le_max_right _ _) (le_roundUp (by decide))
  suffices h : ∃ usable, region.nextUsable layout = .ok usable ∧
      usable.toNat = min (region.wished layout) (roundDown (region.leftOf limit) 16) by
    obtain ⟨usable, hn, hu⟩ := h
    exact ⟨usable, hn, hu, by omega⟩
  have hplan : Plan region layout limit _ := plan hlimit
  generalize region.nextUsable layout = planned at hplan
  cases hplan with
  | overflow hover | refused hover => omega
  | @doubled usable husable hle =>
    have hwhole : 16 ∣ roundDown (region.leftOf limit) 16 := dvd_roundDown
    have hdvd : 16 ∣ usable.toNat := by
      have hw : 16 ∣ region.wished layout := dvd_roundUp
      omega
    have hroom := le_roundDown hdvd hle
    exact ⟨usable, rfl, by omega⟩
  | @shrunk usable hneeded hless husable => exact ⟨usable, rfl, by omega⟩

theorem grow_within {usable' : Word} {chunkLayout : Layout} (hlimit : region.limit = some limit)
    (hpos : 0 < layout.size.toNat) (hn : region.nextUsable layout = .ok usable)
    (hp : Chunk.plan? usable (region.growthAlign layout) = some (usable', chunkLayout)) :
    Word.saturatingAdd region.allocated usable' ≤ limit := by
  obtain ⟨hu, -, -⟩ := Chunk.plan?_eq_some.1 hp
  obtain ⟨hdvd, hneed⟩ := nextUsable_ok hn
  have hbytes : 0 < region.bytesFor layout := bytesFor_pos hpos
  have hle := nextUsable_le hlimit hn
  rw [roundUp_eq (by decide) hdvd] at hu
  rw [UInt64.le_iff_toNat_le, Word.toNat_saturatingAdd, hu]
  simp only [leftOf, bytesFor] at hle hbytes
  omega

theorem alloc_within (hlimit : region.limit = some limit)
    (ha : region.alloc backing layout machine = (result, region', machine')) :
    (region'.chunks.length = region.chunks.length ∧ region'.allocated = region.allocated) ∨
      region'.allocated ≤ limit := by
  have ho := ha ▸ alloc_outcome backing region layout machine
  cases ho with
  | empty => exact .inl ⟨rfl, rfl⟩
  | carved => exact .inl ⟨length_setCurrent _, allocated_bump _⟩
  | slow hsize hc hg =>
    have hpos : 0 < layout.size.toNat := UInt64.pos_iff_ne_zero.2 hsize
    cases hg with
    | overflow | limited | unplanned | denied => exact .inl ⟨rfl, rfl⟩
    | wasted hn hp hb hw | served hn hp hb hw => exact .inr (grow_within hlimit hpos hn hp)

def Operation.limitAfter (op : Operation) (limit : Option Word) : Option Word :=
  match op with
  | setLimit limit => limit
  | _ => limit

theorem limit_of_create {anchor minAlign : Word} (hc : Region.create anchor minAlign = .ok region) :
    region.limit = none := by
  obtain ⟨align, hle, -, rfl⟩ := eq_of_create hc
  rfl

theorem perform_limit (hp : op.perform backing region machine = (result, region', machine')) :
    region'.limit = op.limitAfter region.limit := by
  by_cases hset : ∃ limit', op = .setLimit limit'
  · obtain ⟨limit', rfl⟩ := hset
    obtain ⟨-, rfl, -⟩ := hp
    rfl
  · have hkeeps : op.limitAfter region.limit = region.limit := by
      cases op with
      | setLimit limit' => exact absurd ⟨limit', rfl⟩ hset
      | _ => rfl
    have hperformed := hp ▸ performed op backing region machine
    rw [hkeeps]
    cases hperformed with
    | declined => rfl
    | requested _ _ hlayout ha => rw [alloc_same ha]
    | limited limit' => exact absurd ⟨limit', rfl⟩ hset
    | reset hr => rw [reset_same hr]
    | deinit hd =>
      obtain ⟨rfl, rfl⟩ := Prod.mk.inj hd
      rfl

theorem length_reset_le (hr : region.reset backing machine = (region', machine')) :
    region'.chunks.length ≤ region.chunks.length := by
  rw [reset] at hr
  split at hr
  all_goals
    obtain ⟨rfl, rfl⟩ := hr
  · exact Nat.le_refl _
  next hchunks =>
    rw [hchunks]
    exact Nat.succ_le_succ (Nat.zero_le _)

theorem perform_within (hlimit : region.limit = some limit)
    (hp : op.perform backing region machine = (result, region', machine'))
    (hgrew : region.chunks.length < region'.chunks.length) : region'.allocated ≤ limit := by
  have hperformed := hp ▸ performed op backing region machine
  cases hperformed with
  | declined | limited => exact absurd hgrew (Nat.lt_irrefl _)
  | requested _ hop hlayout ha =>
    obtain ⟨hlength, -⟩ | hle := alloc_within hlimit ha
    · exact absurd hgrew (Nat.not_lt.2 (Nat.le_of_eq hlength))
    · exact hle
  | reset hr => exact absurd hgrew (Nat.not_lt.2 (length_reset_le hr))
  | deinit hd =>
    obtain ⟨rfl, rfl⟩ := Prod.mk.inj hd
    exact absurd hgrew (Nat.not_lt_zero _)

/-- A region within its limit. A reset counts the newest chunk anew, so no chunk may have more
usable bytes than were counted with it. -/
structure Within (limit : Word) (region : Region) : Prop where
  limit_eq : region.limit = some limit
  allocated_le : region.allocated ≤ limit
  usable_le : ∀ chunk ∈ region.chunks, chunk.usable ≤ chunk.watermark

theorem within_of_chunks_nil (hlimit : region.limit = some limit) (h : region.chunks = []) :
    Within limit region := by
  refine ⟨hlimit, ?_, by simp [h]⟩
  rw [Region.allocated, current, h]
  exact UInt64.zero_le

theorem Sound.usable_le (sound : region.Sound) :
    ∀ chunk ∈ region.chunks, chunk.usable ≤ chunk.watermark := by
  intro chunk hchunk
  obtain ⟨newer, older, hchunks⟩ := List.append_of_mem hchunk
  rw [UInt64.le_iff_toNat_le, sound.tallied chunk older (hchunks ▸ List.suffix_append _ _),
    usableBytes_cons]
  exact Nat.le_add_right _ _

theorem usable_le_bump (addr : Word) (h : ∀ chunk ∈ region.chunks, chunk.usable ≤ chunk.watermark) :
    ∀ chunk ∈ (region.setCurrent { region.current with bump := addr }).chunks,
      chunk.usable ≤ chunk.watermark := by
  unfold setCurrent current
  split
  · exact h
  next newest older hchunks =>
    rw [hchunks, List.forall_mem_cons] at h
    rw [hchunks]
    exact List.forall_mem_cons.2 h

theorem Within.alloc (within : Within limit region)
    (ha : region.alloc backing layout machine = (result, region', machine')) :
    Within limit region' := by
  have hlimit : region'.limit = some limit := by
    rw [alloc_same ha]
    exact within.limit_eq
  have hle : region'.allocated ≤ limit := by
    obtain ⟨-, hsame⟩ | hle := alloc_within within.limit_eq ha
    · rw [hsame]
      exact within.allocated_le
    · exact hle
  refine ⟨hlimit, hle, ?_⟩
  have ho := ha ▸ alloc_outcome backing region layout machine
  cases ho with
  | empty => exact within.usable_le
  | carved => exact usable_le_bump _ within.usable_le
  | slow hsize hc hg =>
    cases hg with
    | overflow | limited | unplanned | denied => exact within.usable_le
    | wasted hn hp hb hw | served hn hp hb hw =>
      exact List.forall_mem_cons.2 ⟨Word.le_saturatingAdd_right _ _, within.usable_le⟩

theorem Within.reset (within : Within limit region)
    (hr : region.reset backing machine = (region', machine')) : Within limit region' := by
  rw [Region.reset] at hr
  split at hr
  all_goals
    obtain ⟨rfl, rfl⟩ := hr
  · exact within
  next newest older hchunks =>
    have hnewest : newest.usable ≤ region.allocated := by
      rw [Region.allocated, current_of_cons hchunks]
      exact within.usable_le newest (by simp [hchunks])
    exact ⟨within.limit_eq, UInt64.le_trans hnewest within.allocated_le,
      List.forall_mem_singleton.2 (UInt64.le_refl _)⟩

theorem Within.perform (within : Within limit region)
    (hop : op.limitAfter region.limit = region.limit)
    (hp : op.perform backing region machine = (result, region', machine')) :
    Within limit region' := by
  have hperformed := hp ▸ performed op backing region machine
  cases hperformed with
  | declined => exact within
  | requested _ _ hlayout ha => exact within.alloc ha
  | limited limit' =>
    obtain rfl : limit' = region.limit := hop
    exact within
  | reset hr => exact within.reset hr
  | deinit hd =>
    obtain ⟨rfl, rfl⟩ := Prod.mk.inj hd
    exact within_of_chunks_nil within.limit_eq rfl

theorem Within.runFrom {others : Region → Machine σ → Machine σ → Prop}
    {events : List (Operation × Option Word)} (within : Within limit region)
    (run : RunFrom (fun op : Operation => op.perform backing)
      (fun op region _ => op.limitAfter region.limit = region.limit) others region machine events
      region' machine') :
    Within limit region' :=
  run.preserves (fun region _ => Within limit region) within (fun ih hop hp => ih.perform hop hp)
    fun ih _ => ih

theorem nextUsable_exhausted (hlimit : region.limit = some limit)
    (hover : limit ≤ region.allocated) (hpos : 0 < layout.size.toNat) :
    region.nextUsable layout = .error .overflow ∨
      region.nextUsable layout = .error (.limit limit region.allocated) := by
  have hnone : region.leftOf limit = 0 := Nat.sub_eq_zero_of_le (UInt64.le_iff_toNat_le.1 hover)
  have hbytes : 0 < roundUp (region.bytesFor layout) 16 :=
    roundUp_pos (by decide) (bytesFor_pos hpos)
  have hwish : region.bytesFor layout ≤ region.wished layout :=
    Nat.le_trans (Nat.le_max_right _ _) (le_roundUp (by decide))
  have hroom : 0 < region.bytesFor layout := bytesFor_pos hpos
  have hplan : Plan region layout limit _ := plan hlimit
  generalize region.nextUsable layout = planned at hplan
  cases hplan with
  | overflow => exact .inl rfl
  | refused => exact .inr rfl
  | doubled husable hle => omega
  | shrunk hneeded => omega

theorem alloc_exhausted (hlimit : region.limit = some limit) (hover : limit ≤ region.allocated)
    (hpos : 0 < layout.size.toNat) (hc : region.current.carve? region.minAlign layout = none) :
    ∃ trace, region.alloc backing layout machine = (none, region, { machine with trace }) := by
  have hne : layout.size ≠ 0 := UInt64.pos_iff_ne_zero.1 hpos
  rw [alloc, if_neg hne, bump?, hc]
  dsimp only
  rw [allocSlow]
  obtain hn | hn := nextUsable_exhausted hlimit hover hpos
  all_goals rw [hn]
  · exact ⟨machine.trace, rfl⟩
  · exact ⟨_, rfl⟩

def HasRoom (region : Region) (layout : Layout) : Prop :=
  region.current.start.toNat + region.bytesFor layout ≤
    roundDown region.current.bump.toNat (layout.align.strictest region.minAlign).bytes.toNat

theorem Valid.carve?_eq_none (valid : region.Valid) (hpos : 0 < layout.size.toNat) :
    region.current.carve? region.minAlign layout = none ↔ ¬ region.HasRoom layout := by
  have hbytes : 0 < region.bytesFor layout := bytesFor_pos hpos
  have hdown := roundDown_le (n := region.current.bump.toNat)
    (a := (layout.align.strictest region.minAlign).bytes.toNat)
  rw [HasRoom]
  cases hchunks : region.chunks with
  | nil =>
    have hsentinel := current_of_nil hchunks
    have hempty : region.current.start = region.current.bump := by rw [hsentinel]; rfl
    rw [hempty]
    refine ⟨fun _ => by omega, fun _ => ?_⟩
    rw [hsentinel]
    exact Chunk.carve?_sentinel _ hpos
  | cons newest older =>
    have hnewest := current_of_cons hchunks
    have hvalid := valid.chunks newest (by simp [hchunks])
    rw [hnewest] at hdown ⊢
    rw [Option.eq_none_iff_forall_ne_some]
    constructor
    · intro hnone hroom
      have hlt := newest.bump.toNat_lt
      have haddr := UInt64.toNat_ofNat_of_lt' (n := roundDown newest.bump.toNat
        (layout.align.strictest region.minAlign).bytes.toNat - region.bytesFor layout)
        (by simp only [UInt64.size]; omega)
      exact hnone _ ((Chunk.carve?_eq_some hvalid.start_le_bump hvalid.bump_aligned).2
        ⟨hroom, haddr⟩)
    · intro hroom addr hc
      exact hroom ((Chunk.carve?_eq_some hvalid.start_le_bump hvalid.bump_aligned).1 hc).1

theorem perform_of_alloc (hlayout : op.layout? = some layout) (hpos : 0 < layout.size.toNat)
    (ha : region.alloc backing layout machine = (result, region', machine')) :
    ∃ memory, op.perform backing region machine = (result, region', { machine' with memory }) ∧
      (result = none → memory = machine'.memory) :=
  perform_of_request (Operation.request?_of_pos hlayout hpos) ha

theorem reset_grants_le (hr : region.reset backing machine = (region', machine')) :
    region'.grants ≤ region.grants := by
  rw [reset] at hr
  split at hr
  all_goals
    obtain ⟨rfl, rfl⟩ := hr
  · exact le_rfl
  next hchunks =>
    rw [grants_cons hchunks]
    exact Multiset.le_add_right _ _

theorem perform_exhausted (hlimit : region.limit = some limit) (hover : limit ≤ region.allocated)
    (hp : op.perform backing region machine = (result, region', machine')) :
    region'.grants ≤ region.grants := by
  have hperformed := hp ▸ performed op backing region machine
  cases hperformed with
  | declined | limited => exact le_rfl
  | requested _ hop hlayout ha =>
    have ho := ha ▸ alloc_outcome backing region _ machine
    cases ho with
    | empty => exact le_rfl
    | carved => exact le_of_eq (grants_bump _)
    | slow hsize hc hg =>
      have hpos := UInt64.pos_iff_ne_zero.2 hsize
      obtain ⟨trace, hrefused⟩ : ∃ trace,
          region.alloc backing _ machine = (none, region, { machine with trace }) :=
        alloc_exhausted hlimit hover hpos hc
      rw [hrefused] at ha
      obtain ⟨-, rfl, -⟩ := ha
      exact le_rfl
  | reset hr => exact reset_grants_le hr
  | deinit hd =>
    obtain ⟨rfl, rfl⟩ := Prod.mk.inj hd
    exact Multiset.zero_le _

/-- A request that has a chunk planned for it is refused only where the chunk is. -/
theorem chunk_refused (placement : backing.Placement) (valid : region.Valid)
    (h : placement.holds (region.grants + rest) machine.store) (hpos : 0 < layout.size.toNat)
    (hroom : ¬ region.HasRoom layout) (hn : region.nextUsable layout = .ok usable)
    (ha : region.alloc backing layout machine = (none, region', machine')) {usable' : Word}
    {chunkLayout : Layout}
    (hp : Chunk.plan? usable (region.growthAlign layout) = some (usable', chunkLayout)) :
    (backing.alloc chunkLayout machine).1 = none := by
  have hc := (valid.carve?_eq_none hpos).2 hroom
  have ho := alloc_outcome backing region layout machine
  rw [ha] at ho
  cases ho with
  | slow hsize _ hg =>
    cases hg with
    | overflow he | limited he => simp [hn] at he
    | unplanned hn' hp' =>
      obtain rfl := Except.ok.inj (hn.symm.trans hn')
      simp [hp] at hp'
    | denied hn' hp' hb =>
      obtain rfl := Except.ok.inj (hn.symm.trans hn')
      obtain ⟨-, rfl⟩ := Prod.mk.inj (Option.some.inj (hp.symm.trans hp'))
      rw [hb]
    | wasted hn' hp' hb hw =>
      have hf := placement.alloc_fresh h (planned_size_pos hp') hb
      exact absurd hw ((planned hn' hp' hf).carve hpos)

end Region

end ArenaMemory
