import ArenaMemory.Proofs.Region.EmptyBlock

namespace ArenaMemory

variable {σ τ : Type}

namespace Chunk

/-- What a chunk answers by itself, and what it is then. -/
def serve? (minAlign : Alignment) (chunk : Chunk) (layout : Layout) : Option (Word × Chunk) :=
  if layout.size = 0 then some (chunk.emptyBlock layout.align, chunk)
  else (chunk.carve? minAlign layout).map fun addr => (addr, { chunk with bump := addr })

/-- The chunk answered requests one after another with these blocks, oldest first, and is the second
chunk now. -/
inductive Serves (minAlign : Alignment) (first : Chunk) : List Grant → Chunk → Prop where
  | nil : Serves minAlign first [] first
  | concat {served chunk chunk' layout addr} : Serves minAlign first served chunk →
      chunk.serve? minAlign layout = some (addr, chunk') →
      Serves minAlign first (served ++ [⟨addr, layout⟩]) chunk'

variable {minAlign : Alignment} {layout : Layout} {addr : Word} {chunk chunk' first : Chunk}
  {served : List Grant}

theorem serve?_empty (hsize : layout.size = 0) :
    chunk.serve? minAlign layout = some (chunk.emptyBlock layout.align, chunk) := by
  rw [serve?, if_pos hsize]

theorem serve?_carve (hsize : layout.size ≠ 0) (h : chunk.carve? minAlign layout = some addr) :
    chunk.serve? minAlign layout = some (addr, { chunk with bump := addr }) := by
  rw [serve?, if_neg hsize, h, Option.map_some]

theorem serve?_eq_some (h : chunk.serve? minAlign layout = some (addr, chunk')) :
    (layout.size = 0 ∧ addr = chunk.emptyBlock layout.align ∧ chunk' = chunk) ∨
      (layout.size ≠ 0 ∧ chunk.carve? minAlign layout = some addr ∧
        chunk' = { chunk with bump := addr }) := by
  rw [serve?] at h
  split at h
  next hsize =>
    obtain ⟨rfl, rfl⟩ := Prod.mk.inj (Option.some.inj h)
    exact .inl ⟨hsize, rfl, rfl⟩
  next hsize =>
    obtain ⟨place, hplace, heq⟩ := Option.map_eq_some_iff.1 h
    obtain ⟨rfl, rfl⟩ := Prod.mk.inj heq
    exact .inr ⟨hsize, hplace, rfl⟩

theorem serve?_watermark (watermark : Word)
    (h : chunk.serve? minAlign layout = some (addr, chunk')) :
    ({ chunk with watermark } : Chunk).serve? minAlign layout =
      some (addr, { chunk' with watermark }) := by
  obtain ⟨hsize, rfl, rfl⟩ | ⟨hsize, hc, rfl⟩ := serve?_eq_some h
  · exact serve?_empty hsize
  · exact serve?_carve hsize hc

/-- Serving moves only the bump pointer, and that is what rewinding puts back. -/
theorem rewind_serve? (h : chunk.serve? minAlign layout = some (addr, chunk')) :
    chunk'.rewind minAlign = chunk.rewind minAlign := by
  obtain ⟨-, -, rfl⟩ | ⟨-, -, rfl⟩ := serve?_eq_some h
  · rfl
  · rfl

end Chunk

namespace Region

def performAll (backing : Allocator σ) (ops : List Operation) (region : Region)
    (machine : Machine σ) : List (Option Word) × Region × Machine σ :=
  ops.foldl
    (fun (results, region, machine) op =>
      let (result, region, machine) := op.perform backing region machine
      (results ++ [result], region, machine))
    ([], region, machine)

inductive Answered (region : Region) (layout : Layout) (addr : Word) : Region → Prop where
  | sentinel : region.chunks = [] → Answered region layout addr region
  | newest {chunk chunk' : Chunk} {older} : region.chunks = chunk :: older →
      chunk.serve? region.minAlign layout = some (addr, chunk') →
      Answered region layout addr { region with chunks := chunk' :: older }
  | fresh {chunk chunk' : Chunk} : chunk.rewind region.minAlign = chunk →
      chunk.serve? region.minAlign layout = some (addr, chunk') →
      Answered region layout addr (region.push chunk')

/-- The runs of a region that has a chunk, with the blocks that the newest one served since it was
obtained or rewound, oldest first. -/
inductive Tenure (backing : Allocator σ) (others : Multiset Grant → Machine σ → Machine σ → Prop)
    (minAlign : Word) (start : Machine σ) :
    Option Word → List Grant → Region → Machine σ → Prop where
  | acquired {home blocks region machine layout addr region' machine'} (op : Operation) :
      Run backing others minAlign start home blocks region machine →
      op.request? = some layout →
      op.perform backing region machine = (some addr, region', machine') →
      region'.chunks.length = region.chunks.length + 1 →
      Tenure backing others minAlign start home [⟨addr, layout⟩] region' machine'
  | rewound {home blocks region machine region' machine'} :
      Run backing others minAlign start home blocks region machine → region.chunks ≠ [] →
      region.reset backing machine = (region', machine') →
      Tenure backing others minAlign start home [] region' machine'
  | served {home served region machine layout addr region' machine'} (op : Operation) :
      Tenure backing others minAlign start home served region machine →
      op.request? = some layout →
      op.perform backing region machine = (some addr, region', machine') →
      region'.chunks.length = region.chunks.length →
      Tenure backing others minAlign start home (served ++ [⟨addr, layout⟩]) region' machine'
  | declined {home served region machine region' machine'} (op : Operation) :
      Tenure backing others minAlign start home served region machine → op.forgets = false →
      op.perform backing region machine = (none, region', machine') →
      Tenure backing others minAlign start home served region' machine'
  | others {home served region machine machine'} :
      Tenure backing others minAlign start home served region machine →
      others (region.grants + granted home Object.regionLayout) machine machine' →
      Tenure backing others minAlign start home served region machine'

/-- The newest chunk served these blocks, oldest first, from where rewinding puts it. -/
def HasServed (region : Region) (served : List Grant) : Prop :=
  ∃ newest older, region.chunks = newest :: older ∧
    Chunk.Serves region.minAlign (newest.rewind region.minAlign) served newest

def rewound (region : Region) (chunk : Chunk) : Region :=
  { region with chunks := [{ chunk.rewind region.minAlign with watermark := chunk.usable }] }

variable {backing : Allocator σ} {others : Multiset Grant → Machine σ → Machine σ → Prop}
  {minAlign addr : Word} {start machine machine' : Machine σ} {home result : Option Word}
  {blocks served : List Grant} {region region' : Region} {op : Operation} {layout : Layout}
  {first chunk chunk' : Chunk} {older : List Chunk} {rest : Multiset Grant}

theorem performAll_concat (ops : List Operation) :
    performAll backing (ops ++ [op]) region machine =
      let (results, region, machine) := performAll backing ops region machine
      let (result, region, machine) := op.perform backing region machine
      (results ++ [result], region, machine) := by
  rw [performAll, List.foldl_append]
  rfl

theorem alloc_of_serve? (machine : Machine σ) (hchunks : region.chunks = chunk :: older)
    (hs : chunk.serve? region.minAlign layout = some (addr, chunk')) :
    region.alloc backing layout machine =
      (some addr, { region with chunks := chunk' :: older }, machine) := by
  have hcurrent := current_of_cons hchunks
  obtain ⟨hsize, rfl, rfl⟩ | ⟨hsize, hc, rfl⟩ := Chunk.serve?_eq_some hs
  · rw [alloc_empty hsize, hcurrent, ← hchunks]
  · rw [alloc_carved (UInt64.pos_iff_ne_zero.2 hsize) (hcurrent ▸ hc), hcurrent,
      setCurrent_of_cons hchunks]

theorem alloc_answered (ha : region.alloc backing layout machine = (some addr, region', machine')) :
    Answered region layout addr region' := by
  have ho := ha ▸ alloc_outcome backing region layout machine
  cases ho with
  | empty hsize =>
    cases hchunks : region.chunks with
    | nil => exact .sentinel hchunks
    | cons newest older =>
      have hserved := Answered.newest hchunks (Chunk.serve?_empty hsize)
      rwa [← hchunks, ← current_of_cons hchunks] at hserved
  | carved hsize hc =>
    obtain ⟨newest, older, hchunks, hcarved⟩ := cons_of_carve? (UInt64.pos_iff_ne_zero.2 hsize) hc
    rw [current_of_cons hchunks, setCurrent_of_cons hchunks]
    exact .newest hchunks (Chunk.serve?_carve hsize hcarved)
  | slow hsize hc hg =>
    cases hg with
    | served hn hp hb hw => exact .fresh rfl (Chunk.serve?_carve hsize hw)

theorem perform_answered (hp : op.perform backing region machine = (some addr, region', machine')) :
    ∃ layout, op.request? = some layout ∧ Answered region layout addr region' := by
  cases hop : op.request? with
  | none =>
    have hnone : (op.perform backing region machine).1 = none := perform_of_no_request hop
    rw [hp] at hnone
    cases hnone
  | some layout =>
    obtain ⟨served, memory, ha, -⟩ := alloc_of_perform hop hp
    exact ⟨layout, rfl, alloc_answered ha⟩

/-- What a chunk served once is served again, whoever backs the region and whatever the watermark:
by operations that ask for the same layouts in the same order. -/
theorem performAll_serves (other : Allocator τ) (watermark : Word)
    (serves : Chunk.Serves region.minAlign first served chunk)
    (hchunks : region.chunks = [{ first with watermark }]) (machine : Machine τ)
    (ops : List Operation) (hops : ops.map (·.request?) = served.map (some ·.layout)) :
    ∃ memory, performAll other ops region machine =
      (served.map (some ·.addr), { region with chunks := [{ chunk with watermark }] },
        { machine with memory }) := by
  induction serves generalizing ops with
  | nil =>
    rw [List.map_nil, List.map_eq_nil_iff] at hops
    rw [hops, ← hchunks]
    exact ⟨_, rfl⟩
  | @concat served chunk chunk' layout addr serves hs ih =>
    rw [List.map_append, List.map_eq_append_iff] at hops
    obtain ⟨front, last, rfl, hfront, hlast⟩ := hops
    obtain ⟨op, rfl, hop⟩ := List.map_eq_singleton_iff.1 hlast
    obtain ⟨memory, hperformed⟩ := ih front hfront
    have ha : ({ region with chunks := [{ chunk with watermark }] } : Region).alloc other layout
          { machine with memory } =
        (some addr, { region with chunks := [{ chunk' with watermark }] },
          { machine with memory }) :=
      alloc_of_serve? _ rfl (Chunk.serve?_watermark watermark hs)
    obtain ⟨memory', hp, -⟩ := perform_of_request hop ha
    rw [performAll_concat, hperformed]
    dsimp only
    rw [hp, List.map_append]
    exact ⟨_, rfl⟩

theorem Tenure.run (tenure : Tenure backing others minAlign start home served region machine) :
    ∃ blocks, Run backing others minAlign start home blocks region machine := by
  induction tenure with
  | acquired op run hop hp => exact ⟨_, run.perform op hp⟩
  | rewound run hchunks hr =>
    exact ⟨_, run.perform .reset (by rw [Operation.perform, hr])⟩
  | served op tenure hop hp hlength ih =>
    obtain ⟨blocks, run⟩ := ih
    exact ⟨_, run.perform op hp⟩
  | declined op tenure hop hp ih =>
    obtain ⟨blocks, run⟩ := ih
    exact ⟨_, run.perform op hp⟩
  | others tenure ho ih =>
    obtain ⟨blocks, run⟩ := ih
    exact ⟨_, run.others ho⟩

theorem Answered.hasServed (answered : Answered region layout addr region')
    (hlength : region'.chunks.length = region.chunks.length + 1) :
    region'.HasServed [⟨addr, layout⟩] := by
  cases answered with
  | sentinel => exact absurd hlength.symm (Nat.succ_ne_self _)
  | newest hchunks =>
    rw [hchunks] at hlength
    exact absurd hlength.symm (Nat.succ_ne_self _)
  | @fresh chunk chunk' hrewind hs =>
    have hserves : Chunk.Serves region.minAlign chunk ([] ++ [⟨addr, layout⟩]) chunk' :=
      .concat .nil hs
    rw [← hrewind, ← Chunk.rewind_serve? hs] at hserves
    exact ⟨chunk', region.chunks, rfl, hserves⟩

theorem HasServed.answered (hserved : region.HasServed served)
    (answered : Answered region layout addr region')
    (hlength : region'.chunks.length = region.chunks.length) :
    region'.HasServed (served ++ [⟨addr, layout⟩]) := by
  obtain ⟨newest, older, hchunks, hserves⟩ := hserved
  cases answered with
  | sentinel hnil => simp [hnil] at hchunks
  | newest hcons hs =>
    obtain ⟨rfl, rfl⟩ := List.cons.inj (hchunks.symm.trans hcons)
    rw [← Chunk.rewind_serve? hs] at hserves
    exact ⟨_, _, rfl, hserves.concat hs⟩
  | fresh => exact absurd hlength (Nat.succ_ne_self _)

theorem HasServed.declined (placement : backing.Placement) (valid : region.Valid)
    (h : placement.holds (region.grants + rest) machine.store) (hop : op.forgets = false)
    (hp : op.perform backing region machine = (none, region', machine'))
    (hserved : region.HasServed served) : region'.HasServed served := by
  have hperformed := performed op backing region machine
  rw [hp] at hperformed
  cases hperformed with
  | declined => exact hserved
  | requested _ _ hlayout ha =>
    rw [(alloc_served placement valid h ha).refused rfl]
    exact hserved
  | limited => exact hserved
  | reset | deinit => cases hop

theorem reset_of_cons (hchunks : region.chunks = chunk :: older) :
    region.reset backing machine =
      (region.rewound chunk,
        (releaseChunks backing older machine).emit (.regionReset chunk.usable)) := by
  rw [Region.reset, hchunks]
  rfl

theorem hasServed_reset (hchunks : region.chunks ≠ [])
    (hr : region.reset backing machine = (region', machine')) : region'.HasServed [] := by
  obtain ⟨newest, older, hcons⟩ := List.exists_cons_of_ne_nil hchunks
  rw [reset_of_cons hcons] at hr
  obtain ⟨rfl, rfl⟩ := Prod.mk.inj hr
  exact ⟨_, [], rfl, .nil⟩

theorem Tenure.hasServed (placement : backing.Placement)
    (hstart : placement.shared.holds 0 start.store)
    (tenure : Tenure backing (fun mine _ machine' => placement.shared.holds mine machine'.store)
      minAlign start home served region machine) : region.HasServed served := by
  induction tenure with
  | acquired op run hop hp hlength =>
    obtain ⟨layout', hop', answered⟩ := perform_answered hp
    obtain rfl := Option.some.inj (hop.symm.trans hop')
    exact answered.hasServed hlength
  | rewound run hchunks hr => exact hasServed_reset hchunks hr
  | served op tenure hop hp hlength ih =>
    obtain ⟨layout', hop', answered⟩ := perform_answered hp
    obtain rfl := Option.some.inj (hop.symm.trans hop')
    exact ih.answered answered hlength
  | declined op tenure hop hp ih =>
    obtain ⟨blocks, run⟩ := tenure.run
    have h := run.holds placement.shared.toLedger hstart fun _ ho => ho
    exact ih.declined placement.shared (run.safe placement hstart).valid h hop hp
  | others tenure ho ih => exact ih

theorem reset_of_nil (hnil : region.chunks = []) :
    region.reset backing machine = (region, machine) := by
  rw [Region.reset, hnil]

theorem Run.exists_tenure (placement : backing.Placement)
    (hstart : placement.shared.holds 0 start.store)
    (run : Run backing (fun mine _ machine' => placement.shared.holds mine machine'.store) minAlign
      start home blocks region machine) (hchunks : region.chunks ≠ []) :
    ∃ served, Tenure backing (fun mine _ machine' => placement.shared.holds mine machine'.store)
      minAlign start home served region machine := by
  induction run with
  | create hc | box hc => exact absurd (chunks_of_create hc) hchunks
  | @perform home blocks region machine result region' machine' op run hp ih =>
    have hperformed := hp ▸ performed op backing region machine
    cases hperformed with
    | declined hop =>
      obtain ⟨served, tenure⟩ := ih hchunks
      exact ⟨served, tenure.declined op hop hp⟩
    | limited limit =>
      obtain ⟨served, tenure⟩ := ih hchunks
      exact ⟨served, tenure.declined (.setLimit limit) rfl hp⟩
    | requested memory hop hlayout ha =>
      cases result with
      | none =>
        have h := run.holds placement.shared.toLedger hstart fun _ ho => ho
        have hserved := alloc_served placement.shared (run.safe placement hstart).valid h ha
        rw [hserved.refused rfl] at hchunks
        obtain ⟨served, tenure⟩ := ih hchunks
        exact ⟨served, tenure.declined op hop hp⟩
      | some addr =>
        obtain ⟨layout, hrequest, answered⟩ := perform_answered hp
        cases answered with
        | sentinel hnil => exact absurd hnil hchunks
        | newest hcons =>
          obtain ⟨served, tenure⟩ := ih (by simp [hcons])
          exact ⟨_, tenure.served op hrequest hp (by simp [hcons])⟩
        | fresh => exact ⟨_, .acquired op run hrequest hp rfl⟩
    | reset hr =>
      refine ⟨[], .rewound run (fun hnil => hchunks ?_) hr⟩
      obtain ⟨rfl, -⟩ := Prod.mk.inj ((reset_of_nil hnil).symm.trans hr)
      exact hnil
    | deinit hd =>
      obtain ⟨rfl, -⟩ := Prod.mk.inj hd
      exact absurd rfl hchunks
  | others run ho ih =>
    obtain ⟨served, tenure⟩ := ih hchunks
    exact ⟨served, tenure.others ho⟩

theorem stats_singleton (hchunks : region.chunks = [chunk]) :
    region.stats = ⟨chunk.watermark, 1, chunk.remaining⟩ := by
  rw [stats, allocated, current_of_cons hchunks, hchunks]
  rfl

theorem Valid.remaining_rewind (valid : region.Valid) (hchunks : region.chunks = chunk :: older) :
    (chunk.rewind region.minAlign).remaining = chunk.usable := by
  have hvalid := valid.chunks chunk (by simp [hchunks])
  have hbump := hvalid.toNat_rewind region.minAlign_le
  have hle : chunk.start ≤ (chunk.rewind region.minAlign).bump :=
    UInt64.le_iff_toNat_le.2 (by omega)
  rw [← UInt64.toNat_inj]
  change ((chunk.rewind region.minAlign).bump - chunk.start).toNat = chunk.usable.toNat
  rw [UInt64.toNat_sub_of_le _ _ hle]
  omega

/-- After a reset the layouts that the newest chunk served are served at the same addresses, on any
allocator and without a call. -/
theorem reset_replays (placement : backing.Placement)
    (hstart : placement.shared.holds 0 start.store)
    (run : Run backing (fun mine _ machine' => placement.shared.holds mine machine'.store) minAlign
      start home blocks region machine) :
    (region.chunks = [] → region.reset backing machine = (region, machine)) ∧
    (region.chunks ≠ [] →
      ∃ kept machine' usable, region.reset backing machine = (kept, machine') ∧
        kept.stats = ⟨usable, 1, usable⟩ ∧ usable = region.current.usable ∧
        (∀ (τ : Type) (other : Allocator τ) (idle : Machine τ),
          kept.reset other idle = (kept, idle.emit (.regionReset usable))) ∧
        (∃ served, Tenure backing
          (fun mine _ machine' => placement.shared.holds mine machine'.store) minAlign start home
          served region machine) ∧
        ∀ served, Tenure backing
          (fun mine _ machine' => placement.shared.holds mine machine'.store) minAlign start home
          served region machine →
        ∀ (τ : Type) (other : Allocator τ) (idle : Machine τ) (ops : List Operation),
          ops.map (·.request?) = served.map (some ·.layout) →
          ∃ replayed memory, performAll other ops kept idle =
              (served.map (some ·.addr), replayed, { idle with memory }) ∧
            replayed.stats = ⟨usable, 1, region.stats.remaining⟩) := by
  refine ⟨reset_of_nil, fun hchunks => ?_⟩
  obtain ⟨newest, older, hcons⟩ := List.exists_cons_of_ne_nil hchunks
  have valid := (run.safe placement hstart).valid
  have hcurrent := current_of_cons hcons
  refine ⟨_, _, newest.usable, reset_of_cons hcons, ?_, by rw [hcurrent],
    fun τ other idle => rfl, run.exists_tenure placement hstart hchunks,
    fun served tenure τ other idle ops hops => ?_⟩
  · rw [stats_singleton rfl]
    have hremaining := valid.remaining_rewind hcons
    exact congrArg (RegionStats.mk newest.usable 1) hremaining
  · obtain ⟨chunk, older', hcons', hserves⟩ := tenure.hasServed placement hstart
    obtain ⟨rfl, rfl⟩ := List.cons.inj (hcons.symm.trans hcons')
    have hkept : Chunk.Serves (region.rewound newest).minAlign (newest.rewind region.minAlign)
      served newest := hserves
    obtain ⟨memory, hreplayed⟩ := performAll_serves other newest.usable hkept rfl idle ops hops
    refine ⟨_, memory, hreplayed, ?_⟩
    rw [stats_singleton rfl, stats, hcurrent]
    rfl

theorem reset_replays_second_chunk :
    ∃ (region kept : Region) (machine machine' : Machine Platform), region.chunks.length = 2 ∧
      region.reset Platform.plainWindow machine = (kept, machine') ∧
      kept.stats = ⟨8096, 1, 8096⟩ ∧
      ∀ idle : Machine Platform, (performAll Platform.plainWindow
        [.alloc ⟨5000, .sixtyFour⟩, .realloc none 0 ⟨0, .sixteen⟩, .allocZeroed ⟨24, .eight⟩] kept
          idle).1 = [some 0x1000001bc0, some 0x1000001bc0, some 0x1000001ba8] := by
  have hfirst := run_window.perform (.alloc ⟨100, .one⟩) rfl
  have hsecond : Tenure _ _ _ _ _ [⟨0x1000001bc0, 5000, .sixtyFour⟩] _ _ :=
    .acquired (.alloc ⟨5000, .sixtyFour⟩) hfirst rfl rfl (by decide)
  have htenure := (hsecond.served (.alloc ⟨0, .sixteen⟩) rfl rfl rfl).served (.alloc ⟨24, .eight⟩)
    rfl rfl (by decide)
  obtain ⟨blocks, hrun⟩ := htenure.run
  obtain ⟨kept, machine', usable, hr, hstats, rfl, -, -, hreplay⟩ :=
    (reset_replays Platform.plainWindowContract.toPlacement holds_window hrun).2 (by decide)
  refine ⟨_, kept, _, machine', by decide, hr, hstats, fun idle => ?_⟩
  obtain ⟨replayed, memory, hp, -⟩ := hreplay _ htenure Platform Platform.plainWindow idle
    [.alloc ⟨5000, .sixtyFour⟩, .realloc none 0 ⟨0, .sixteen⟩, .allocZeroed ⟨24, .eight⟩] rfl
  rw [hp]
  rfl

end Region

end ArenaMemory
