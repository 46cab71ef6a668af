import ArenaMemory.Proofs.Allocator.Accounting
import ArenaMemory.Proofs.Region.Run

namespace ArenaMemory

variable {σ : Type}

def Allocator.beside (backing : Allocator σ) : Allocator (Region × σ) :=
  backing.within Prod.snd fun store outer => (outer.1, store)

namespace Region

def handle (backing : Allocator σ) : Allocator (Region × σ) :=
  .ofRegion backing.beside (fun store => some store.1) fun region store => (region, store.2)

/-- The machine without the region that its store keeps. -/
def apart (machine : Machine (Region × σ)) : Machine σ := machine.withStore machine.store.2

def keep (region : Region) (machine : Machine σ) : Machine (Region × σ) :=
  machine.withStore (region, machine.store)

/-- A call on a region: of its own, or through the handle. -/
inductive Use where
  | own (op : Operation)
  | alloc (layout : Layout)
  | zalloc (layout : Layout)
  | free (block : Option Word) (layout : Layout)
  | realloc (block : Option Word) (old new : Layout)

namespace Use

def operation? : Use → Option Operation
  | own op => some op
  | alloc layout => some (.alloc layout)
  | zalloc layout => some (.allocZeroed layout)
  | free _ _ => none
  | realloc block old new => some (.realloc block old.size new)

def perform (use : Use) (backing : Allocator σ) (machine : Machine (Region × σ)) :
    Option Word × Machine (Region × σ) :=
  match use with
  | own op =>
    let (result, region, served) := op.perform backing machine.store.1 (apart machine)
    (result, keep region served)
  | alloc layout => (handle backing).alloc layout machine
  | zalloc layout => (handle backing).zalloc layout machine
  | free block layout => (none, (handle backing).free block layout machine)
  | realloc block old new => (handle backing).realloc block old new machine

/-- The blocks that were handed out since the last reset or deinit, also those that were moved or
given back since. -/
def blocks (use : Use) (result : Option Word) (blocks : List Grant) : List Grant :=
  match use.operation? with
  | none => blocks
  | some op => op.blocks result blocks

end Use

variable {backing : Allocator σ} {region region' : Region} {layout : Layout}
  {machine machine' : Machine (Region × σ)} {served : Machine σ} {result : Option Word}
  {use : Use} {op : Operation}

theorem alloc_beside (backing : Allocator σ) (region : Region) (layout : Layout)
    (machine : Machine (Region × σ)) :
    region.alloc backing.beside layout machine =
      match region.alloc backing layout (apart machine) with
      | (result, region', served) => (result, region', keep machine.store.1 served) := by
  rw [alloc, alloc]
  by_cases hsize : layout.size = 0
  · rw [if_pos hsize, if_pos hsize]
    rfl
  rw [if_neg hsize, if_neg hsize]
  cases region.bump? layout with
  | some served => rfl
  | none =>
    dsimp only
    rw [allocSlow, allocSlow]
    cases region.nextUsable layout with
    | error refusal => cases refusal <;> rfl
    | ok usable =>
      dsimp only
      rw [grow, grow]
      cases Chunk.plan? usable ((chunkAlign.strictest region.minAlign).strictest layout.align) with
      | none => rfl
      | some plan =>
        dsimp only
        have hzoom : backing.beside.alloc plan.2 machine =
          machine.zoom Prod.snd (fun store outer => (outer.1, store)) (backing.alloc plan.2) := rfl
        rcases hb : backing.alloc plan.2 (apart machine) with ⟨_ | start, served⟩
        · rw [hzoom, Allocator.zoom_eq hb]
          rfl
        · rw [hzoom, Allocator.zoom_eq hb]
          dsimp only
          cases bump? _ layout <;> rfl

theorem allocZeroed_beside (backing : Allocator σ) (region : Region) (layout : Layout)
    (machine : Machine (Region × σ)) :
    region.allocZeroed backing.beside layout machine =
      match region.allocZeroed backing layout (apart machine) with
      | (result, region', served) => (result, region', keep machine.store.1 served) := by
  rw [allocZeroed, allocZeroed, alloc_beside]
  rcases region.alloc backing layout (apart machine) with ⟨_ | addr, region', served⟩ <;> rfl

theorem realloc_beside (backing : Allocator σ) (region : Region) (block : Option Word)
    (oldSize : Word) (layout : Layout) (machine : Machine (Region × σ)) :
    region.realloc backing.beside block oldSize layout machine =
      match region.realloc backing block oldSize layout (apart machine) with
      | (result, region', served) => (result, region', keep machine.store.1 served) := by
  cases block with
  | none => exact alloc_beside backing region layout machine
  | some old =>
    rw [realloc, realloc, alloc_beside]
    by_cases hsize : layout.size = 0
    · rw [if_pos hsize, if_pos hsize]
      rfl
    · rw [if_neg hsize, if_neg hsize]
      rcases region.alloc backing layout (apart machine) with ⟨_ | addr, region', served⟩ <;> rfl

theorem Use.perform_operation (hop : use.operation? = some op)
    (hp : op.perform backing machine.store.1 (apart machine) = (result, region', served)) :
    use.perform backing machine = (result, keep region' served) := by
  cases use with
  | own own =>
    obtain rfl := Option.some.inj hop
    simp only [Use.perform, hp]
  | alloc layout =>
    obtain rfl := Option.some.inj hop
    simp only [Operation.perform] at hp
    simp only [Use.perform, handle, Allocator.ofRegion, Allocator.ofRegion.serve, alloc_beside, hp]
    rfl
  | zalloc layout =>
    obtain rfl := Option.some.inj hop
    simp only [Operation.perform] at hp
    simp only [Use.perform, handle, Allocator.zalloc, Allocator.ofRegion, Allocator.ofRegion.serve,
      allocZeroed_beside, hp]
    rfl
  | free block layout => cases hop
  | realloc block old new =>
    obtain rfl := Option.some.inj hop
    simp only [Operation.perform] at hp
    cases block with
    | none =>
      rw [Region.realloc] at hp
      simp only [Use.perform, handle, Allocator.realloc, Allocator.ofRegion,
        Allocator.ofRegion.serve, alloc_beside, hp]
      rfl
    | some addr =>
      simp only [Use.perform, handle, Allocator.realloc, Allocator.ofRegion,
        Allocator.ofRegion.serve, realloc_beside, hp]
      rfl

theorem Use.perform_nothing (hop : use.operation? = none) :
    use.perform backing machine = (none, machine) := by
  cases use with
  | free block layout => cases block <;> rfl
  | own | alloc | zalloc | realloc => cases hop

/-- The runs of a region that is used directly and through its handle, with its storage and the
blocks handed out since the last reset or deinit. -/
inductive Used (backing : Allocator σ) (others : Multiset Grant → Machine σ → Machine σ → Prop)
    (minAlign : Word) (start : Machine σ) :
    Option Word → List Grant → Machine (Region × σ) → Prop where
  | create {anchor region} : Region.create anchor minAlign = .ok region →
      Used backing others minAlign start none [] (keep region start)
  | box {anchor region home machine} : Region.create anchor minAlign = .ok region →
      backing.box Object.regionLayout (fun _ memory => memory) start = (some home, machine) →
      Used backing others minAlign start (some home) [] (keep region machine)
  | use {home blocks machine result machine'} (use : Use) :
      Used backing others minAlign start home blocks machine →
      use.perform backing machine = (result, machine') →
      Used backing others minAlign start home (use.blocks result blocks) machine'
  | others {home blocks machine machine'} :
      Used backing others minAlign start home blocks machine →
      others (machine.store.1.grants + granted home Object.regionLayout) (apart machine) machine' →
      Used backing others minAlign start home blocks (keep machine.store.1 machine')

theorem Used.run {others : Multiset Grant → Machine σ → Machine σ → Prop} {minAlign : Word}
    {start : Machine σ} {home : Option Word} {blocks : List Grant}
    (used : Used backing others minAlign start home blocks machine) :
    Run backing others minAlign start home blocks machine.store.1 (apart machine) := by
  induction used with
  | create hc => exact .create hc
  | box hc hb => exact .box hc hb
  | @use home blocks machine result machine' use _ hp ih =>
    cases hop : use.operation? with
    | none =>
      rw [Use.perform_nothing hop] at hp
      obtain ⟨rfl, rfl⟩ := Prod.mk.inj hp
      simp only [Use.blocks, hop]
      exact ih
    | some op =>
      rcases hperform : op.perform backing machine.store.1 (apart machine) with
        ⟨answer, region', served⟩
      rw [Use.perform_operation hop hperform] at hp
      obtain ⟨rfl, rfl⟩ := Prod.mk.inj hp
      simp only [Use.blocks, hop]
      exact ih.perform op hperform
  | others _ ho ih => exact ih.others ho

end Region

end ArenaMemory
