import Mathlib.Data.Nat.Log
import ArenaMemory.Proofs.Region.SlowPath

namespace ArenaMemory

variable {σ : Type}

def Chunk.Outgrows (chunk : Chunk) (older : List Chunk) : Prop :=
  leastUsable.toNat ≤ chunk.usable.toNat ∧
    ∀ next ∈ older.head?, 2 * next.usable.toNat ≤ chunk.usable.toNat

/-- Beside every chunk stands the limit that was in force when it was acquired. -/
inductive Outgrown : List (Option Word) → List Chunk → Prop where
  | nil : Outgrown [] []
  | cons {limit limits chunk older} : (limit = none → chunk.Outgrows older) →
      Outgrown limits older → Outgrown (limit :: limits) (chunk :: older)

namespace Outgrown

variable {limits : List (Option Word)} {chunks : List Chunk}

theorem length_eq (outgrown : Outgrown limits chunks) : limits.length = chunks.length := by
  induction outgrown with
  | nil => rfl
  | cons _ _ ih => exact congrArg (· + 1) ih

theorem take_length (outgrown : Outgrown limits chunks) : limits.take chunks.length = limits :=
  List.take_of_length_le (Nat.le_of_eq outgrown.length_eq)

theorem replace {newest kept : Chunk} {older : List Chunk} (h : kept.usable = newest.usable)
    (outgrown : Outgrown limits (newest :: older)) : Outgrown limits (kept :: older) := by
  cases outgrown with
  | cons hnewest hrest =>
    refine .cons (fun hlimit => ?_) hrest
    rw [Chunk.Outgrows, h]
    exact hnewest hlimit

theorem newest {chunk : Chunk} {older : List Chunk} (outgrown : Outgrown limits (chunk :: older)) :
    Outgrown (limits.take 1) [chunk] := by
  cases outgrown with
  | cons hnewest hrest => exact .cons (fun hlimit => ⟨(hnewest hlimit).1, by simp⟩) .nil

end Outgrown

/-- Each chunk has twice the usable bytes of the next-older one, and those of a page. -/
structure Geometric (chunks : List Chunk) : Prop where
  doubling : chunks.IsChain fun newer older => 2 * older.usable.toNat ≤ newer.usable.toNat
  least : ∀ chunk ∈ chunks, leastUsable.toNat ≤ chunk.usable.toNat

theorem Outgrown.geometric {limits : List (Option Word)} {chunks : List Chunk}
    (outgrown : Outgrown limits chunks) (hfree : ∀ limit ∈ limits, limit = none) :
    Geometric chunks := by
  induction outgrown with
  | nil => exact ⟨.nil, by simp⟩
  | cons hnewest _ ih =>
    obtain ⟨hlimit, hrest⟩ := List.forall_mem_cons.1 hfree
    obtain ⟨hleast, hdouble⟩ := hnewest hlimit
    obtain ⟨doubling, least⟩ := ih hrest
    exact ⟨List.isChain_cons.2 ⟨hdouble, doubling⟩, List.forall_mem_cons.2 ⟨hleast, least⟩⟩

namespace Geometric

variable {newest : Chunk} {older chunks : List Chunk}

theorem tail (geometric : Geometric (newest :: older)) : Geometric older :=
  ⟨geometric.doubling.tail, (List.forall_mem_cons.1 geometric.least).2⟩

theorem pow_le_usable (geometric : Geometric (newest :: older)) :
    leastUsable.toNat * 2 ^ older.length ≤ newest.usable.toNat := by
  induction older generalizing newest with
  | nil => simpa using geometric.least newest
  | cons next older ih =>
    have hnext := ih geometric.tail
    have hdouble := (List.isChain_cons_cons.1 geometric.doubling).1
    rw [List.length_cons, Nat.pow_succ, ← Nat.mul_assoc]
    omega

theorem pow_le_usableBytes (geometric : Geometric chunks) :
    leastUsable.toNat * 2 ^ chunks.length ≤ leastUsable.toNat + usableBytes chunks := by
  induction chunks with
  | nil => simp
  | cons newest older ih =>
    have holder := ih geometric.tail
    have hnewest := geometric.pow_le_usable
    rw [List.length_cons, Nat.pow_succ, ← Nat.mul_assoc, usableBytes_cons]
    omega

theorem usableBytes_lt_usable (geometric : Geometric (newest :: older)) :
    usableBytes older < newest.usable.toNat := by
  induction older generalizing newest with
  | nil =>
    have hleast : 4048 ≤ newest.usable.toNat := geometric.least newest (List.mem_singleton.2 rfl)
    rw [usableBytes_nil]
    omega
  | cons next older ih =>
    have hnext := ih geometric.tail
    have hdouble := (List.isChain_cons_cons.1 geometric.doubling).1
    rw [usableBytes_cons]
    omega

end Geometric

namespace Region

/-- The limits in force when the live chunks were acquired, newest first, after an operation. -/
def limitsAfter (region region' : Region) (limits : List (Option Word)) : List (Option Word) :=
  if region.chunks.length < region'.chunks.length then region.limit :: limits
  else limits.take region'.chunks.length

/-- The runs of a region, with the limits that were in force when its live chunks were
acquired. -/
inductive Acquired (backing : Allocator σ)
    (others : Multiset Grant → Machine σ → Machine σ → Prop) (minAlign : Word) (start : Machine σ) :
    List (Option Word) → Option Word → List Grant → Region → Machine σ → Prop where
  | create {anchor region} : Region.create anchor minAlign = .ok region →
      Acquired backing others minAlign start [] none [] region start
  | box {anchor region home machine} : Region.create anchor minAlign = .ok region →
      backing.box Object.regionLayout (fun _ memory => memory) start = (some home, machine) →
      Acquired backing others minAlign start [] (some home) [] region machine
  | perform {limits home blocks region machine result region' machine'} (op : Operation) :
      Acquired backing others minAlign start limits home blocks region machine →
      op.perform backing region machine = (result, region', machine') →
      Acquired backing others minAlign start (limitsAfter region region' limits) home
        (op.blocks result blocks) region' machine'
  | others {limits home blocks region machine machine'} :
      Acquired backing others minAlign start limits home blocks region machine →
      others (region.grants + granted home Object.regionLayout) machine machine' →
      Acquired backing others minAlign start limits home blocks region machine'

variable {backing : Allocator σ} {others : Multiset Grant → Machine σ → Machine σ → Prop}
  {minAlign usable usable' : Word} {start machine machine' : Machine σ} {home result : Option Word}
  {blocks : List Grant} {region region' : Region} {op : Operation} {layout chunkLayout : Layout}
  {limits : List (Option Word)}

theorem Acquired.run
    (acquired : Acquired backing others minAlign start limits home blocks region machine) :
    Run backing others minAlign start home blocks region machine := by
  induction acquired with
  | create hc => exact .create hc
  | box hc hb => exact .box hc hb
  | perform op _ hp ih => exact ih.perform op hp
  | others _ ho ih => exact ih.others ho

theorem Run.acquired (run : Run backing others minAlign start home blocks region machine) :
    ∃ limits, Acquired backing others minAlign start limits home blocks region machine := by
  induction run with
  | create hc => exact ⟨_, .create hc⟩
  | box hc hb => exact ⟨_, .box hc hb⟩
  | perform op _ hp ih =>
    obtain ⟨_, acquired⟩ := ih
    exact ⟨_, acquired.perform op hp⟩
  | others _ ho ih =>
    obtain ⟨_, acquired⟩ := ih
    exact ⟨_, acquired.others ho⟩

/-- Without a limit a chunk is planned with all the usable bytes wished for: where doubling stops at
the end of the range there is no room for a footer, and no chunk. -/
theorem planned_wished (hlimit : region.limit = none) (hn : region.nextUsable layout = .ok usable)
    (hp : Chunk.plan? usable (region.growthAlign layout) = some (usable', chunkLayout)) :
    usable'.toNat = region.wished layout := by
  obtain ⟨hu, -, hs⟩ := Chunk.plan?_eq_some.1 hp
  rw [roundUp_eq (by decide) (nextUsable_ok hn).1] at hu
  obtain ⟨-, herror⟩ | ⟨wish, hok, hwish⟩ := region.nextUsable_unlimited layout hlimit
  · rw [hn] at herror
    cases herror
  · obtain rfl : usable = wish := Except.ok.inj (hn.symm.trans hok)
    have hfooter := le_roundUp (n := usable'.toNat + 48) (region.growthAlign layout).toNat_pos
    have hsize := chunkLayout.size.toNat_lt
    omega

theorem planned_outgrows (hlimit : region.limit = none)
    (hn : region.nextUsable layout = .ok usable)
    (hp : Chunk.plan? usable (region.growthAlign layout) = some (usable', chunkLayout)) :
    leastUsable.toNat ≤ usable'.toNat ∧
      ∀ next ∈ region.chunks.head?, 2 * next.usable.toNat ≤ usable'.toNat := by
  have hwished : max (max (2 * region.current.usable.toNat) leastUsable.toNat)
      (region.bytesFor layout) ≤ usable'.toNat :=
    planned_wished hlimit hn hp ▸ le_roundUp (by decide)
  refine ⟨by omega, fun next hnext => ?_⟩
  have hcurrent : region.current = next := by
    rw [current, List.headD_eq_head?_getD, hnext, Option.getD_some]
  rw [hcurrent] at hwished
  omega

theorem outgrown_same (outgrown : Outgrown limits region.chunks)
    (h : region'.chunks = region.chunks) :
    Outgrown (limitsAfter region region' limits) region'.chunks := by
  rw [limitsAfter, h, if_neg (Nat.lt_irrefl _), outgrown.take_length]
  exact outgrown

theorem outgrown_push {chunk : Chunk} (outgrown : Outgrown limits region.chunks)
    (hn : region.nextUsable layout = .ok usable)
    (hp : Chunk.plan? usable (region.growthAlign layout) = some (usable', chunkLayout))
    (hchunk : chunk.usable = usable') :
    Outgrown (limitsAfter region (region.push chunk) limits) (region.push chunk).chunks := by
  have hgrew : region.chunks.length < (region.push chunk).chunks.length := Nat.lt_succ_self _
  rw [limitsAfter, if_pos hgrew]
  refine .cons (fun hlimit => ?_) outgrown
  rw [Chunk.Outgrows, hchunk]
  exact planned_outgrows hlimit hn hp

theorem outgrown_carved (outgrown : Outgrown limits region.chunks) (addr : Word) :
    Outgrown limits (region.setCurrent { region.current with bump := addr }).chunks := by
  rw [setCurrent]
  split
  · exact outgrown
  next newest older hchunks =>
    rw [hchunks] at outgrown
    have husable : ({ region.current with bump := addr } : Chunk).usable = newest.usable := by
      rw [current_of_cons hchunks]
    exact outgrown.replace husable

theorem outgrown_alloc (outgrown : Outgrown limits region.chunks)
    (ha : region.alloc backing layout machine = (result, region', machine')) :
    Outgrown (limitsAfter region region' limits) region'.chunks := by
  have ho := ha ▸ alloc_outcome backing region layout machine
  cases ho with
  | empty => exact outgrown_same outgrown rfl
  | @carved addr =>
    have hcarved := outgrown_carved outgrown addr
    rw [limitsAfter, length_setCurrent, if_neg (Nat.lt_irrefl _), outgrown.take_length]
    exact hcarved
  | slow hsize hc hg =>
    cases hg with
    | overflow | limited | unplanned | denied => exact outgrown_same outgrown rfl
    | wasted hn hp | served hn hp => exact outgrown_push outgrown hn hp rfl

theorem outgrown_reset (outgrown : Outgrown limits region.chunks)
    (hr : region.reset backing machine = (region', machine')) :
    Outgrown (limitsAfter region region' limits) region'.chunks := by
  have hle := length_reset_le hr
  rw [limitsAfter, if_neg (Nat.not_lt.2 hle)]
  rw [reset] at hr
  split at hr
  · obtain ⟨rfl, rfl⟩ := hr
    rw [outgrown.take_length]
    exact outgrown
  next newest older hchunks =>
    obtain ⟨rfl, rfl⟩ := hr
    rw [hchunks] at outgrown
    have husable : ({ newest.rewind region.minAlign with watermark := newest.usable } : Chunk).usable =
      newest.usable := rfl
    exact Outgrown.replace husable outgrown.newest

theorem outgrown_perform (outgrown : Outgrown limits region.chunks)
    (hp : op.perform backing region machine = (result, region', machine')) :
    Outgrown (limitsAfter region region' limits) region'.chunks := by
  have hperformed := hp ▸ performed op backing region machine
  cases hperformed with
  | declined | limited => exact outgrown_same outgrown rfl
  | requested _ _ _ ha => exact outgrown_alloc outgrown ha
  | reset hr => exact outgrown_reset outgrown hr
  | deinit hd =>
    obtain ⟨rfl, rfl⟩ := Prod.mk.inj hd
    exact .nil

theorem Acquired.outgrown
    (acquired : Acquired backing others minAlign start limits home blocks region machine) :
    Outgrown limits region.chunks := by
  induction acquired with
  | create hc | box hc => exact chunks_of_create hc ▸ .nil
  | perform op _ hp ih => exact outgrown_perform ih hp
  | others _ _ ih => exact ih

theorem allocated_reset {newest : Chunk} {older : List Chunk}
    (hchunks : region.chunks = newest :: older)
    (hr : region.reset backing machine = (region', machine')) :
    region'.allocated = newest.usable := by
  rw [reset, hchunks] at hr
  obtain ⟨rfl, rfl⟩ := hr
  rfl

/-- Where no limit was in force when the live chunks were acquired, each has at least twice the
usable bytes of the next-older one. So a reset keeps more than half of all usable bytes. -/
theorem geometric_growth (placement : backing.Placement)
    (hstart : placement.shared.holds 0 start.store)
    (run : Run backing (fun mine _ machine' => placement.shared.holds mine machine'.store) minAlign
      start home blocks region machine) :
    (∃ limits, Acquired backing (fun mine _ machine' => placement.shared.holds mine machine'.store)
      minAlign start limits home blocks region machine) ∧
    ∀ limits,
      Acquired backing (fun mine _ machine' => placement.shared.holds mine machine'.store) minAlign
        start limits home blocks region machine →
      limits.length = region.stats.chunkCount ∧
      ((∀ limit ∈ limits, limit = none) →
        region.chunks.IsChain (fun newer older => 2 * older.usable.toNat ≤ newer.usable.toNat) ∧
        (∀ chunk ∈ region.chunks, 4048 ≤ chunk.usable.toNat) ∧
        (0 < region.stats.chunkCount →
          4048 * (2 ^ region.stats.chunkCount - 1) ≤ region.stats.allocated.toNat ∧
          region.stats.allocated.toNat < 2 * region.current.usable.toNat) ∧
        region.stats.chunkCount ≤ Nat.log 2 (region.stats.allocated.toNat / 4048 + 1) ∧
        ∀ region' machine', region.reset backing machine = (region', machine') →
          0 < region.stats.chunkCount →
          region.stats.allocated.toNat < 2 * region'.stats.allocated.toNat) := by
  refine ⟨run.acquired, fun limits acquired => ⟨acquired.outgrown.length_eq, fun hfree => ?_⟩⟩
  have geometric := acquired.outgrown.geometric hfree
  have hallocated : region.stats.allocated.toNat = usableBytes region.chunks :=
    allocated_eq_usableBytes (run.sound placement hstart).tallied
  have hcount : region.stats.chunkCount = region.chunks.length := rfl
  have hpow : 4048 * 2 ^ region.chunks.length ≤ 4048 + usableBytes region.chunks :=
    geometric.pow_le_usableBytes
  have hhalf : ∀ newest older, region.chunks = newest :: older →
      usableBytes region.chunks < 2 * newest.usable.toNat := by
    intro newest older hchunks
    rw [hchunks] at geometric ⊢
    have hlt := geometric.usableBytes_lt_usable
    rw [usableBytes_cons]
    omega
  refine ⟨geometric.doubling, geometric.least, fun hpos => ⟨?_, ?_⟩, ?_,
    fun region' machine' hr hpos => ?_⟩
  · rw [hallocated, hcount]
    omega
  · obtain ⟨newest, older, hchunks⟩ := List.exists_cons_of_length_pos hpos
    rw [hallocated, current_of_cons hchunks]
    exact hhalf newest older hchunks
  · rw [hallocated, hcount]
    refine Nat.le_log_of_pow_le (by decide) ?_
    omega
  · obtain ⟨newest, older, hchunks⟩ := List.exists_cons_of_length_pos hpos
    have hkept : region'.stats.allocated = newest.usable := allocated_reset hchunks hr
    rw [hallocated, hkept]
    exact hhalf newest older hchunks

/-- A region whose first chunk was cut short by a limit, and given back by a reset. No limit was in
force when the two that are live were acquired. -/
theorem geometric_growth_limited_before : ∃ (limits : List (Option Word)) (blocks : List Grant)
    (region : Region) (machine : Machine Platform),
    Acquired Platform.plainWindow
        (fun mine _ machine' =>
          Platform.plainWindowContract.toPlacement.shared.holds mine machine'.store) 8
        { store := ⟨.ofCap 65536, {}⟩ } limits none blocks region machine ∧
      limits = [none, none] ∧ region.limit = some 100 ∧
      region.chunks.map (·.usable) = [8096, 4048] ∧
      region.chunks.IsChain (fun newer older => 2 * older.usable.toNat ≤ newer.usable.toNat) ∧
      4048 * (2 ^ region.stats.chunkCount - 1) ≤ region.stats.allocated.toNat ∧
      region.stats.allocated.toNat < 2 * region.current.usable.toNat := by
  have hcreated : Acquired Platform.plainWindow
      (fun mine _ machine' =>
        Platform.plainWindowContract.toPlacement.shared.holds mine machine'.store) 8
      { store := ⟨.ofCap 65536, {}⟩ } [] none [] ⟨0x10000, .eight, by decide, none, []⟩
      { store := ⟨.ofCap 65536, {}⟩ } := .create (show Region.create 0x10000 8 = _ by decide)
  have hlimited := (hcreated.perform (.setLimit (some 2000)) rfl).perform (.alloc ⟨100, .one⟩) rfl
  have hreset := ((hlimited.perform (.setLimit none) rfl).perform (.alloc ⟨3000, .one⟩) rfl).perform
    .reset rfl
  have hgrown := (hreset.perform (.alloc ⟨5000, .one⟩) rfl).perform (.setLimit (some 100)) rfl
  obtain ⟨-, hall⟩ := geometric_growth Platform.plainWindowContract.toPlacement holds_window hgrown.run
  obtain ⟨-, hfree⟩ := hall _ hgrown
  obtain ⟨hdoubling, -, hcounted, -, -⟩ := hfree (show ∀ limit ∈ [none, none], limit = none by simp)
  obtain ⟨hleast, hhalf⟩ := hcounted (by decide)
  exact ⟨_, _, _, _, hgrown, rfl, rfl, rfl, hdoubling, hleast, hhalf⟩

end Region

end ArenaMemory
