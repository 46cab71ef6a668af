import ArenaMemory.Proofs.Region.Representation

namespace ArenaMemory

variable {σ : Type}

namespace Region

def Operation.asks : Operation → Bool
  | setLimit _ | reset | deinit => false
  | _ => true

variable {backing : Allocator σ} {region region' grown : Region} {layout : Layout}
  {addr minAlign : Word}
  {start machine machine' : Machine σ} {home : Option Word} {blocks : List Grant} {op : Operation}
  {out rest : Multiset Grant} {usable : Word}

/-- A chunk that the allocator grants for a request is the newest, and has room for the request. -/
theorem grow_bump? (placement : backing.Placement) (hpos : 0 < layout.size.toNat)
    (h : placement.holds (region.grants + rest) machine.store)
    (hn : region.nextUsable layout = .ok usable)
    (hg : region.grow backing usable (region.growthAlign layout) machine = (some grown, machine')) :
    ∃ addr region', grown.bump? layout = some (addr, region') := by
  rw [grow] at hg
  split at hg
  · cases hg
  next usable' chunkLayout hp =>
    split at hg
    · cases hg
    next start served hb =>
      obtain rfl : region.push (region.freshChunk start usable' chunkLayout) = grown :=
        Option.some.inj (Prod.mk.inj hg).1
      have hfresh := (placement.alloc_fresh h (planned_size_pos hp) hb).left
      have hroom : (region.push (region.freshChunk start usable' chunkLayout)).bump? layout ≠ none :=
        fun hnone => (planned hn hp hfresh).carve hpos (bump?_eq_none.1 hnone)
      obtain ⟨⟨addr, region'⟩, hserved⟩ := Option.ne_none_iff_exists'.1 hroom
      exact ⟨addr, region', hserved⟩

theorem alloc_of_grow (hpos : 0 < layout.size.toNat) (hfull : region.bump? layout = none)
    (hn : region.nextUsable layout = .ok usable)
    (hg : region.grow backing usable (region.growthAlign layout) machine = (some grown, machine'))
    (hb : grown.bump? layout = some (addr, region')) :
    region.alloc backing layout machine = (some addr, region', machine') := by
  rw [growthAlign] at hg
  simp only [alloc_eq_allocSlow hpos hfull, allocSlow, hn, hg, hb]

/-- What a refused request leaves: the region, every ledger of the allocator and the bytes of all
blocks out are as they were. -/
structure Untouched (contract : backing.Contract) (region : Region) (machine : Machine σ)
    (region' : Region) (machine' : Machine σ) : Prop where
  region_eq : region' = region
  ledgers : ∀ ledger : backing.Ledger, ∀ out, ledger.holds out machine.store →
    ledger.holds out machine'.store
  bytes : ∀ out, contract.holds out machine.store → AgreeOn out machine.memory machine'.memory

theorem Untouched.refl (contract : backing.Contract) (region : Region) (machine : Machine σ) :
    Untouched contract region machine region machine :=
  ⟨rfl, fun _ _ h => h, fun _ _ => .refl _ _⟩

theorem alloc_untouched (contract : backing.Contract)
    (h : contract.holds (region.grants + rest) machine.store)
    (ha : region.alloc backing layout machine = (none, region', machine')) :
    Untouched contract region machine region' machine' := by
  have ho := alloc_outcome backing region layout machine
  rw [ha] at ho
  cases ho with
  | slow hsize hc hg =>
    cases hg with
    | overflow | unplanned => exact .refl contract region machine
    | limited => exact ⟨rfl, fun _ _ h => h, fun _ _ => .refl _ _⟩
    | denied hn hp hb =>
      refine ⟨rfl, fun ledger out hout => ?_, fun out hout => contract.alloc_keeps hout hb⟩
      have hafter := ledger.alloc hout hb
      rwa [granted_none, zero_add] at hafter
    | wasted hn hp hb hw =>
      have hpos : 0 < layout.size.toNat := UInt64.pos_iff_ne_zero.2 hsize
      have hfresh := (contract.alloc_fresh h (planned_size_pos hp) hb).left
      exact absurd hw ((planned hn hp hfresh).carve hpos)

theorem perform_untouched (contract : backing.Contract)
    (h : contract.holds (region.grants + rest) machine.store) (hop : op.asks = true)
    (hp : op.perform backing region machine = (none, region', machine')) :
    Untouched contract region machine region' machine' := by
  have hperformed := performed op backing region machine
  rw [hp] at hperformed
  cases hperformed with
  | declined => exact .refl contract region machine
  | requested memory _ hlayout ha hfills =>
    have hsame := alloc_untouched contract h ha
    exact { hsame with
      bytes := fun out hout => (hsame.bytes out hout).trans (hfills out (by simp)) }
  | limited | reset | deinit => cases hop

/-- A chunk holds the request that it was obtained for, and an operation that answers nothing leaves
the region, the ledgers and the bytes of others as they were. -/
theorem failure_untouched (contract : backing.Contract)
    (hstart : contract.shared.holds 0 start.store)
    (run : Run backing (fun mine _ machine' => contract.shared.holds mine machine'.store) minAlign
      start home blocks region machine) :
    (∀ layout usable grown machine', 0 < layout.size.toNat → region.bump? layout = none →
      region.nextUsable layout = .ok usable →
      region.grow backing usable (region.growthAlign layout) machine = (some grown, machine') →
      ∃ addr region', grown.bump? layout = some (addr, region') ∧
        region.alloc backing layout machine = (some addr, region', machine')) ∧
    ∀ op region' machine', Operation.asks op = true →
      op.perform backing region machine = (none, region', machine') →
      Untouched contract region machine region' machine' ∧
        AgreeOn (blocks : Multiset Grant) machine.memory machine'.memory := by
  have safe := run.safe contract.toPlacement hstart
  have h := run.holds contract.shared.toLedger hstart fun _ ho => ho
  obtain ⟨rest, hall⟩ := h
  rw [add_assoc] at hall
  constructor
  · intro layout usable grown machine' hpos hfull hn hg
    obtain ⟨addr, region', hb⟩ := grow_bump? contract.toPlacement hpos hall hn hg
    exact ⟨addr, region', hb, alloc_of_grow hpos hfull hn hg hb⟩
  · intro op region' machine' hop hp
    have hsame := perform_untouched contract hall hop hp
    refine ⟨hsame, fun g hg a ha => ?_⟩
    have hpos : 0 < g.layout.size.toNat := by
      have := ha
      simp only [Grant.Covers, Grant.stop, Grant.start] at this
      omega
    have hin := (safe.placed g (Multiset.mem_coe.1 hg) hpos).1
    exact hin.agree safe.valid (hsame.bytes _ hall).left g (Multiset.mem_singleton_self g) a ha

theorem failure_untouched_window :
    ∃ (region grown served failed : Region) (machine machine' machine'' : Machine Platform)
      (addr : Word),
      region.chunks.length = 1 ∧ grown.chunks.length = 2 ∧
      grown.bump? ⟨5000, .sixtyFour⟩ = some (addr, served) ∧
      region.alloc Platform.plainWindow ⟨5000, .sixtyFour⟩ machine = (some addr, served, machine') ∧
      region.alloc Platform.plainWindow ⟨100000, .one⟩ machine = (none, failed, machine'') ∧
      Untouched Platform.plainWindowContract region machine failed machine'' ∧
      AgreeOn ([⟨0x1000000f68, 100, .one⟩] : List Grant) machine.memory machine''.memory := by
  have hrun := run_window.perform (.alloc ⟨100, .one⟩) rfl
  have hstart : Platform.plainWindowContract.shared.holds 0
      ({ store := ⟨.ofCap 65536, {}⟩ } : Machine Platform).store := holds_window
  obtain ⟨hserved, hrefused⟩ := failure_untouched Platform.plainWindowContract hstart hrun
  obtain ⟨addr, served, hb, ha⟩ := hserved ⟨5000, .sixtyFour⟩ 8096 _ _ (by decide) (by decide)
    (by rfl) rfl
  obtain ⟨hsame, hbytes⟩ := hrefused (.alloc ⟨100000, .one⟩) _ _ rfl rfl
  exact ⟨_, _, served, _, _, _, _, addr, by decide, by decide, hb, ha, rfl, hsame, hbytes⟩

end Region

end ArenaMemory
