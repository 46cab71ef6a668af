import ArenaMemory.Proofs.Interner.Run
import ArenaMemory.Proofs.Region.Limit

namespace ArenaMemory

variable {σ : Type}

namespace Interner

variable {contentHash : ContentHash} {allocator : Allocator σ} {interner interner' : Interner}
  {machine machine' : Machine σ} {bytes : List UInt8} {hash : UInt64} {limit : Word}

structure LimitKept (arena arena' : Region) : Prop where
  limit_eq : arena'.limit = arena.limit
  within : ∀ {limit}, Region.Within limit arena → Region.Within limit arena'

theorem LimitKept.trans {arena arena' arena'' : Region} (h : LimitKept arena arena')
    (h' : LimitKept arena' arena'') : LimitKept arena arena'' :=
  ⟨h'.limit_eq.trans h.limit_eq, h'.within ∘ h.within⟩

theorem limitKept_perform {arena arena' : Region} {op : Region.Operation} {result : Option Word}
    (hop : op.limitAfter arena.limit = arena.limit)
    (hp : op.perform allocator arena machine = (result, arena', machine')) :
    LimitKept arena arena' :=
  ⟨(Region.perform_limit hp).trans hop, fun within => within.perform hop hp⟩

theorem stepwise_limitKept : Stepwise allocator fun interner _ interner' _ =>
    LimitKept interner.arena interner'.arena where
  refl _ _ := ⟨rfl, id⟩
  trans h h' := h.trans h'
  insert := by
    intro interner hash bytes machine result interner' machine' hi trace
    have hinsertion := hi ▸ insertion allocator interner hash bytes machine
    cases hinsertion with
    | full | tableExhausted | mapExhausted => exact ⟨rfl, id⟩
    | @arenaExhausted _ _ _ _ second _ _ ht hm hd | @issued _ _ _ _ _ second _ _ ht hm hd =>
      have hp : (Region.Operation.dup bytes).perform allocator interner.arena second = _ := hd
      exact limitKept_perform rfl hp

theorem perform_limitKept {op : Operation} {answer : Answer}
    (hp : op.perform contentHash allocator interner machine = (answer, interner', machine')) :
    LimitKept interner.arena interner'.arena := by
  cases op with
  | intern bytes | internText text | internCString bytes =>
    exact stepwise_limitKept.intern (Prod.ext rfl (Prod.mk.inj hp).2)
  | internMany items => exact stepwise_limitKept.internMany (Prod.ext rfl (Prod.mk.inj hp).2)
  | get bytes | contains bytes | resolve symbol | count | list =>
    obtain ⟨rfl, rfl, rfl⟩ := hp
    exact ⟨rfl, id⟩
  | clear =>
    obtain ⟨-, rfl, rfl⟩ := hp
    have hr : Region.Operation.reset.perform allocator interner.arena machine = _ := rfl
    exact limitKept_perform rfl hr
  | deinit =>
    obtain ⟨-, rfl, rfl⟩ := hp
    have hd : Region.Operation.deinit.perform allocator interner.arena machine = _ := rfl
    exact limitKept_perform rfl hd

theorem Run.within {others : Multiset Grant → Machine σ → Machine σ → Prop} {start : Machine σ}
    {events : List (Operation × Answer)}
    (run : Run contentHash allocator others start events interner machine)
    (hlimit : interner.arena.limit = some limit) : Region.Within limit interner.arena := by
  induction run with
  | create => exact Region.within_of_chunks_nil hlimit rfl
  | presize hp =>
    rw [presize_arena hp] at hlimit ⊢
    exact Region.within_of_chunks_nil hlimit rfl
  | perform op run hp ih =>
    have hkept := perform_limitKept hp
    exact hkept.within (ih (hkept.limit_eq ▸ hlimit))
  | others run ho ih => exact ih hlimit

end Interner

open Region in
/-- A region within its limit stays within it, whenever the limit is set, changed or removed. An
exhausted limit is no reason to refuse what the newest chunk has room for. -/
theorem allocation_limit :
    (∀ {σ : Type} {backing : Allocator σ} {region},
      (∀ {anchor minAlign}, Region.create anchor minAlign = .ok region → region.limit = none) ∧
      ∀ {op result region'} {machine machine' : Machine σ},
        Region.Operation.perform op backing region machine = (result, region', machine') →
        region'.limit = op.limitAfter region.limit) ∧
    (∀ {σ : Type} {backing : Allocator σ} {minAlign home blocks region limit}
      {start machine : Machine σ} (placement : backing.Placement),
      placement.shared.holds 0 start.store →
      Region.Run backing (fun mine _ machine' => placement.shared.holds mine machine'.store)
        minAlign start home blocks region machine →
      region.limit = some limit →
      (∀ op result region' machine',
        Region.Operation.perform op backing region machine = (result, region', machine') →
        region.chunks.length < region'.chunks.length → region'.allocated ≤ limit) ∧
      (region.allocated ≤ limit → ∀ events region' machine',
        RunFrom (fun op : Region.Operation => op.perform backing)
          (fun op region _ => op.limitAfter region.limit = region.limit) (fun _ _ _ => True)
          region machine events region' machine' →
        region'.limit = some limit ∧ region'.allocated ≤ limit) ∧
      (limit ≤ region.allocated →
        (∀ op result region' machine',
          Region.Operation.perform op backing region machine = (result, region', machine') →
          region'.grants ≤ region.grants) ∧
        ∀ op layout, Region.Operation.layout? op = some layout → 0 < layout.size.toNat →
          ∀ other : Allocator σ,
            (region.HasRoom layout → ∃ addr memory, op.perform other region machine =
              (some addr, region.setCurrent { region.current with bump := addr },
                { machine with memory })) ∧
            (¬ region.HasRoom layout → ∃ trace, op.perform other region machine =
              (none, region, { machine with trace }))) ∧
      ∀ op layout, Region.Operation.layout? op = some layout → 0 < layout.size.toNat →
        ¬ region.HasRoom layout →
        roundUp (region.bytesFor layout) 16 ≤ region.leftOf limit →
        ∃ usable, region.nextUsable layout = .ok usable ∧
          usable.toNat = min (region.wished layout) (roundDown (region.leftOf limit) 16) ∧
          region.bytesFor layout ≤ usable.toNat ∧
          ((op.perform backing region machine).1 = none → ∀ usable' chunkLayout,
            Chunk.plan? usable (region.growthAlign layout) = some (usable', chunkLayout) →
            (backing.alloc chunkLayout machine).1 = none)) ∧
    ∀ {σ : Type} {allocator : Allocator σ} {contentHash},
      (∀ {anchor loadFactor capacity arenaLimit interner} {machine machine' : Machine σ},
        (Interner.create anchor loadFactor capacity arenaLimit).presize allocator capacity machine =
          (.ok interner, machine') →
        interner.arena.limit = arenaLimit) ∧
      ∀ {others start events interner machine},
        Interner.Run contentHash allocator others start events interner machine →
        (∀ op answer interner' machine',
          Interner.Operation.perform op contentHash allocator interner machine =
            (answer, interner', machine') →
          interner'.arena.limit = interner.arena.limit) ∧
        ∀ limit, interner.arena.limit = some limit → interner.arena.allocated ≤ limit := by
  refine ⟨fun {σ backing region} => ⟨limit_of_create, perform_limit⟩, ?_, ?_⟩
  · intro σ backing minAlign home blocks region limit start machine placement hstart run hlimit
    have sound := run.sound placement hstart
    have hholds := run.holds placement.shared.toLedger hstart fun _ ho => ho
    refine ⟨fun op result region' machine' hp hgrew => perform_within hlimit hp hgrew,
      fun hle events region' machine' hrun => ?_, fun hover => ⟨?_, ?_⟩, ?_⟩
    · have hwithin := Within.runFrom ⟨hlimit, hle, sound.usable_le⟩ hrun
      exact ⟨hwithin.limit_eq, hwithin.allocated_le⟩
    · exact fun op result region' machine' hp => perform_exhausted hlimit hover hp
    · intro op layout hlayout hpos other
      have hroom := sound.valid.carve?_eq_none hpos
      constructor
      · intro hfits
        obtain ⟨addr, hc⟩ := Option.ne_none_iff_exists'.1 fun hnone => hroom.1 hnone hfits
        obtain ⟨memory, hp, -⟩ := perform_of_alloc hlayout hpos (alloc_carved hpos hc)
        exact ⟨addr, memory, hp⟩
      · intro hfull
        obtain ⟨trace, ha⟩ := alloc_exhausted hlimit hover hpos (hroom.2 hfull)
        obtain ⟨memory, hp, hmemory⟩ := perform_of_alloc hlayout hpos ha
        obtain rfl := hmemory rfl
        exact ⟨trace, hp⟩
    · intro op layout hlayout hpos hfull hfits
      obtain ⟨usable, hn, husable, hbytes⟩ := nextUsable_of_fits hlimit hfits
      refine ⟨usable, hn, husable, hbytes, fun hrefused usable' chunkLayout hplan => ?_⟩
      rcases ha : region.alloc backing layout machine with ⟨result, region', machine'⟩
      obtain ⟨memory, hp, -⟩ := perform_of_alloc hlayout hpos ha
      rw [hp] at hrefused
      obtain rfl : result = none := hrefused
      exact chunk_refused placement.shared sound.valid hholds hpos hfull hn ha hplan
  · intro σ allocator contentHash
    refine ⟨fun hp => by rw [Interner.presize_arena hp]; rfl, fun run => ⟨?_, ?_⟩⟩
    · exact fun op answer interner' machine' hp => (Interner.perform_limitKept hp).limit_eq
    · exact fun limit hlimit => (run.within hlimit).allocated_le

open Region in
theorem allocation_limit_used_up :
    (∃ (region : Region) (machine : Machine Platform),
      region.chunks.map (·.usable) = [1952, 4048] ∧ region.allocated = 6000 ∧
      region.limit = some 6000 ∧
      (∀ events region' machine', RunFrom (fun op : Operation => op.perform Platform.plainWindow)
        (fun op region _ => op.limitAfter region.limit = region.limit) (fun _ _ _ => True) region
        machine events region' machine' → region'.allocated ≤ 6000) ∧
      ∀ other, ∃ trace,
        (Region.Operation.allocZeroed ⟨1000, .one⟩).perform other region machine =
          (none, region, { machine with trace })) ∧
    ∃ interner : Interner, interner.arena.chunks.length = 1 ∧ interner.arena.allocated ≤ 5000 := by
  constructor
  · obtain ⟨-, hkept, hexhausted, -⟩ :=
      allocation_limit.2.1 Platform.plainWindowContract.toPlacement holds_window
        (((run_window.perform (.setLimit (some 6000)) rfl).perform (.alloc ⟨4048, .one⟩) rfl).perform
          (.alloc ⟨1000, .one⟩) rfl) (rfl : _ = some (6000 : Word))
    refine ⟨_, _, by decide, by decide, by decide,
      fun events region' machine' hrun => (hkept (by decide) events region' machine' hrun).2,
      fun other => ((hexhausted (by decide)).2 (.allocZeroed ⟨1000, .one⟩) _ rfl (by decide)
        other).2 ?_⟩
    unfold HasRoom
    decide
  · have hinterned : Interner.Run (fun _ => 7) Platform.plainWindow (fun _ _ _ => True)
        { store := ⟨.ofCap 65536, {}⟩ } _ _ _ :=
      (Interner.Run.create 0x10000 .threeQuarters 1 (some 5000)).perform (.intern [97]) rfl
    exact ⟨_, rfl, (allocation_limit.2.2.2 hinterned).2 5000 rfl⟩

end ArenaMemory
