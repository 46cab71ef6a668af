import ArenaMemory.World.Create
import ArenaMemory.Proofs.Interner.Filling

namespace ArenaMemory

variable {σ : Type}

/-- Settings that pass validation ask for no more symbols than there are. -/
theorem InternerConfig.initialCapacity_le {config : InternerConfig}
    (h : config.validate = .ok ()) : config.initialCapacity.toNat ≤ Interner.maxSymbols := by
  rw [validate] at h
  split at h
  · cases h
  · split at h
    · cases h
    next hle => exact UInt64.le_iff_toNat_le.1 (UInt64.not_lt.1 hle)

namespace Interner

/-- An interner made as settings say. There is none for a share that is not strictly between zero
and one. -/
def configured? (allocator : Allocator σ) (anchor : Word) (config : InternerConfig)
    (machine : Machine σ) : Option (Except InternFailure Interner × Machine σ) :=
  (LoadFactor.ofBinary64? config.loadFactor).map fun loadFactor =>
    (create anchor loadFactor config.initialCapacity.toNat config.arenaLimit).presize allocator
      config.initialCapacity.toNat machine

/-- That is how a world makes one. -/
theorem newInternerOf_eq (world : World) (name : String) (origin : Origin BaseName)
    (config : InternerConfig) :
    world.newInternerOf name origin config =
      match configured? (World.allocator origin) World.anchor config world.machine with
      | none => (.violation .loadFactor, world)
      | some (.error failure, machine) => (.internFailed failure, { world with machine })
      | some (.ok interner, machine) =>
        (.created, { world with machine }.add name origin (.interner interner none)) := by
  rw [World.newInternerOf, configured?]
  cases LoadFactor.ofBinary64? config.loadFactor with
  | none => rfl
  | some loadFactor =>
    dsimp only [Option.map_some]
    rcases (create World.anchor loadFactor config.initialCapacity.toNat config.arenaLimit).presize
      (World.allocator origin) config.initialCapacity.toNat world.machine with
      ⟨failure | interner, machine⟩
    · rfl
    · rfl

def farWindow : Platform := ⟨{ cap := 0x1000000000000000 }, {}⟩

section Far

variable {region : Region} {machine : Machine (Recorded Platform)}

theorem configured_far : ∃ made fresh,
    configured? Platform.plainWindow.recorded 0x10000 { initialCapacity := 0x100000000 }
      { store := ⟨[], farWindow⟩ } = some (.ok made, fresh) ∧
    fresh.store.inner.window.cap = 0x1000000000000000 ∧
    fresh.store.inner.window.cursor = 0x3000000000 :=
  ⟨_, _, rfl, rfl, rfl⟩

theorem alloc_of_place? {layout : Layout} {offset : Word}
    (h : machine.store.inner.window.place? layout = some offset) :
    ∃ machine', Platform.plainWindow.recorded.alloc layout machine =
      (some (Window.base + offset), machine') := by
  refine ⟨_, Prod.ext ?_ rfl⟩
  change (machine.store.inner.window.serve _ _).1 = _
  rw [Window.serve, h]

theorem alloc_far (hcap : machine.store.inner.window.cap = 0x1000000000000000)
    (hcursor : machine.store.inner.window.cursor = 0x3000000000) :
    ∃ machine', Platform.plainWindow.recorded.alloc ⟨0x10000000040, .sixteen⟩ machine =
      (some (Window.base + 0x3000000000), machine') := by
  have hplace : Window.place? ⟨0x1000000000000000, 0x3000000000, []⟩ ⟨0x10000000040, .sixteen⟩ =
      some 0x3000000000 := rfl
  exact alloc_of_place? ((Window.place?_congr hcap hcursor).trans hplace)

theorem dup_far (hregion : region = ⟨0x10000, .one, by decide, none, []⟩)
    (hcap : machine.store.inner.window.cap = 0x1000000000000000)
    (hcursor : machine.store.inner.window.cursor = 0x3000000000) :
    ∃ addr region' machine',
      region.dup Platform.plainWindow.recorded (List.replicate 0x10000000000 0) machine =
        (some addr, region', machine') ∧
      region'.minAlign = .one ∧ region'.chunks ≠ [] ∧ region'.current.usable = 0x10000000010 := by
  have hcount : Layout.ofCount? (List.replicate 0x10000000000 0 ++ [0] : List UInt8).length .one =
      some ⟨0x10000000001, .one⟩ := by
    rw [List.length_append, List.length_replicate]
    rfl
  have hfull : region.bump? ⟨0x10000000001, .one⟩ = none := by rw [hregion]; rfl
  have hn : region.nextUsable ⟨0x10000000001, .one⟩ = .ok 0x10000000010 := by rw [hregion]; rfl
  have hp : Chunk.plan? 0x10000000010 (region.growthAlign ⟨0x10000000001, .one⟩) =
      some (0x10000000010, ⟨0x10000000040, .sixteen⟩) := by rw [hregion]; rfl
  have hc : (region.freshChunk (Window.base + 0x3000000000) 0x10000000010
      ⟨0x10000000040, .sixteen⟩).carve? region.minAlign ⟨0x10000000001, .one⟩ =
      some 0x400000000F := by rw [hregion]; rfl
  obtain ⟨machine', ha⟩ := alloc_far hcap hcursor
  obtain ⟨served, hslow⟩ := Region.allocSlow_served hn hp ha hc
  rw [← Region.alloc_eq_allocSlow (by decide) hfull] at hslow
  obtain ⟨memory, hd, -⟩ := Region.allocCopy_of_alloc hcount hslow
  exact ⟨_, _, _, hd, congrArg Region.minAlign hregion, List.cons_ne_nil _ _, rfl⟩

theorem littleEndian_inj {a b : Nat} (ha : a < 2 ^ 32) (hb : b < 2 ^ 32)
    (h : littleEndian 4 a = littleEndian 4 b) : a = b := by
  simp [littleEndian, List.range_succ, ← UInt8.toNat_inj, Nat.shiftRight_eq_div_pow] at h
  omega

theorem cleared_far : ∃ made fresh ops interner machine,
    configured? Platform.plainWindow.recorded 0x10000 { initialCapacity := 0x100000000 }
      { store := ⟨[], farWindow⟩ } = some (.ok made, fresh) ∧
    RunFrom (fun op : Operation => op.perform (fun _ => 7) Platform.plainWindow.recorded)
      (fun op _ _ => op ≠ .deinit) (fun _ _ _ => False) made fresh ops interner machine ∧
    interner.Presized 0x100000000 ∧
    Refines Platform.plainWindowContract.recorded 0 (fun _ => 7) interner machine [] ∧
    interner.arena.minAlign = .one ∧
    interner.arena.current.remaining = 0x10000000010 := by
  obtain ⟨made, fresh, hmade, hcap, hcursor⟩ := configured_far
  obtain ⟨loadFactor, -, hp⟩ := Option.map_eq_some_iff.1 hmade
  have hpos : 0 < ({ initialCapacity := 0x100000000 } : InternerConfig).initialCapacity.toNat := by
    decide
  obtain ⟨presized, -⟩ := presized_of_presize hpos hp
  have hroom : ({ initialCapacity := 0x100000000 } : InternerConfig).initialCapacity.toNat =
      0x100000000 := by decide
  rw [hroom] at presized
  have hstart : Platform.plainWindowContract.recorded.holds 0
      (⟨[], farWindow⟩ : Recorded Platform) := ⟨by decide, by decide, by simp⟩
  have hfresh : Refines Platform.plainWindowContract.recorded 0 (fun _ => 7) made fresh [] :=
    presize_refines (create_refines hstart) hp
  obtain ⟨addr, region, copied, hd, hone, hsome, husable⟩ :=
    dup_far (presize_arena hp) hcap hcursor
  obtain ⟨symbol, first, hi, rfl, hpresized, hfirst⟩ :=
    presized.intern_of_dup hfresh List.not_mem_nil (by decide) (by decide) hd
  have hlong : Operation.perform (.intern (List.replicate 0x10000000000 0)) (fun _ => 7)
      Platform.plainWindow.recorded made fresh = (.symbol (.ok symbol), first, copied) := by
    rw [Operation.perform, Operation.perform.answered, hi]
  obtain ⟨hminAlign, hremaining⟩ :=
    Region.remaining_reset Platform.plainWindow.recorded first.arena copied hone hsome
  exact ⟨made, fresh, _, _, _, hmade,
    .perform Operation.clear
      (.perform (Operation.intern _) .nothing Operation.noConfusion hlong) Operation.noConfusion rfl,
    hpresized.clear.1, clear_refines hfirst, hminAlign, hremaining.trans husable⟩

theorem exists_words : ∃ words : List (List UInt8), words.Nodup ∧ words.length = maxSymbols ∧
    copyBytes words = 5 * maxSymbols ∧ [] ∉ words := by
  have hmost : maxSymbols < 2 ^ 32 := by decide
  have hlength : ∀ word ∈ (List.range maxSymbols).map (littleEndian 4), word.length = 4 := by
    intro word hword
    obtain ⟨index, -, rfl⟩ := List.mem_map.1 hword
    exact Region.length_littleEndian 4 index
  refine ⟨(List.range maxSymbols).map (littleEndian 4), ?_, ?_, ?_, ?_⟩
  · exact List.nodup_range.map_on fun a ha b hb =>
      littleEndian_inj ((List.mem_range.1 ha).trans hmost) ((List.mem_range.1 hb).trans hmost)
  · rw [List.length_map, List.length_range]
  · rw [copyBytes, List.map_congr_left fun word hword => by rw [hlength word hword]]
    simp [Function.comp_def, Nat.mul_comm]
  · intro hmem
    have hzero := hlength [] hmem
    simp at hzero

end Far

/-- With fewer symbols than room was made for, an intern asks for chunks only, and only the arena
can be exhausted. For settings that validation refuses the symbols can be, too. -/
theorem presizing_suffices {inner : Allocator σ} (contentHash : ContentHash) {anchor : Word}
    {config : InternerConfig} {start fresh : Machine (Recorded σ)} {made : Interner}
    (hpos : 0 < config.initialCapacity)
    (hmade : configured? inner.recorded anchor config start = some (.ok made, fresh)) :
    made.table.capacity = config.initialCapacity.toNat ∧
    (∀ {others ops interner machine bytes result interner' machine'},
      RunFrom (fun op : Operation => op.perform contentHash inner.recorded)
        (fun op _ _ => op ≠ .deinit) others made fresh ops interner machine →
      interner.count < config.initialCapacity.toNat ∨
        interner.get? contentHash bytes machine.memory ≠ none →
      interner.intern contentHash inner.recorded bytes machine = (result, interner', machine') →
      interner'.table.capacity = interner.table.capacity ∧
      interner'.map.capacity = interner.map.capacity ∧
      ChunkCalls machine.store.calls machine'.store.calls ∧
      ∀ failure, result = .error failure → failure = .arenaExhausted bytes.length ∨
        failure = .symbolsExhausted ∧ maxSymbols ≤ interner.count ∧
          interner.count < config.initialCapacity.toNat ∧ config.validate ≠ .ok ()) ∧
    (∀ {ops interner machine},
      RunFrom (fun op : Operation => op.perform contentHash inner.recorded)
        (fun op interner machine => op ≠ .deinit ∧
          InRoom contentHash inner.recorded config.initialCapacity.toNat op.items interner machine)
        (fun _ machine machine' => machine'.store.calls = machine.store.calls) made fresh ops
        interner machine →
      interner.table.capacity = config.initialCapacity.toNat ∧
      interner.map.capacity = made.map.capacity ∧
      ChunkCalls fresh.store.calls machine.store.calls) ∧
    (∀ (contract : inner.Contract) {rest items result interner machine},
      contract.holds rest start.store.inner →
      items.toFinset.card ≤ config.initialCapacity.toNat →
      made.internMany contentHash inner.recorded items fresh = (result, interner, machine) →
      interner.table.capacity = config.initialCapacity.toNat ∧
      interner.map.capacity = made.map.capacity ∧
      ChunkCalls fresh.store.calls machine.store.calls) ∧
    ∀ {layout : Layout}, layout.OfChunk → ∀ count,
      Slot.layout.array count ≠ some layout ∧ Entry.layout.array count ≠ some layout := by
  obtain ⟨loadFactor, -, hp⟩ := Option.map_eq_some_iff.1 hmade
  obtain ⟨presized, hcapacity⟩ := presized_of_presize (UInt64.lt_iff_toNat_lt.1 hpos) hp
  have hkept : ∀ {interner machine}, ByArena made fresh interner machine →
      interner.table.capacity = config.initialCapacity.toNat ∧
      interner.map.capacity = made.map.capacity ∧
      ChunkCalls fresh.store.calls machine.store.calls := fun h =>
    ⟨(congrArg Buffer.capacity h.entries).trans hcapacity, congrArg Buffer.capacity h.slots,
      h.calls⟩
  refine ⟨hcapacity, ?_, fun run => hkept (presized.runFrom_byArena run), ?_, ?_⟩
  · intro others ops interner machine bytes result interner' machine' run hroom hi
    obtain ⟨harena, hfailure⟩ := (presized.runFrom run id).intern hroom hi
    refine ⟨congrArg Buffer.capacity harena.entries, congrArg Buffer.capacity harena.slots,
      harena.calls, fun failure he => (hfailure failure he).imp_right fun ⟨hsymbols, hmost, hfew⟩ =>
        ⟨hsymbols, hmost, hfew, fun hvalid => ?_⟩⟩
    have hle := config.initialCapacity_le hvalid
    omega
  · intro contract rest items result interner machine hstart hitems hi
    have hrefines : Refines contract.recorded rest contentHash made fresh [] :=
      presize_refines (create_refines hstart) hp
    exact hkept (presized.internMany
      (hrefines.inRoom hitems (by simp) fun _ hbytes => List.mem_toFinset.2 hbytes) hi)
  · intro layout hchunk count
    exact ⟨hchunk.ne_array (by decide) count, hchunk.ne_array (by decide) count⟩

theorem presizing_suffices_window :
    (∃ (interner many : Interner) (fresh machine later : Machine (Recorded Platform)),
      interner.count = 1 ∧ interner.table.capacity = 2 ∧ interner.map.capacity = 16 ∧
      fresh.store.calls.length = 2 ∧ machine.store.calls.length = 3 ∧
      ChunkCalls fresh.store.calls machine.store.calls ∧
      many.table.capacity = 2 ∧ many.map.capacity = 16 ∧
      ChunkCalls fresh.store.calls later.store.calls) ∧
    ∃ (made interner : Interner) (fresh machine : Machine (Recorded Platform)),
      made.intern (fun _ => 7) Platform.plainWindow.recorded [97] fresh =
        (.error (.arenaExhausted 1), interner, machine) ∧
      interner.table.capacity = made.table.capacity ∧ interner.map.capacity = made.map.capacity ∧
      ChunkCalls fresh.store.calls machine.store.calls := by
  constructor
  · have hmade : configured? Platform.plainWindow.recorded 0x10000 { initialCapacity := 2 }
        { store := ⟨[], .ofCap 65536, {}⟩ } = some (.ok _, _) := rfl
    have hstart : Platform.plainWindowContract.holds 0 (⟨.ofCap 65536, {}⟩ : Platform) :=
      ⟨by decide, by decide, by simp⟩
    obtain ⟨-, -, hrun, hdistinct, -⟩ := presizing_suffices (fun _ => 7) (by decide) hmade
    -- the latest operation comes first
    obtain ⟨htable, hmap, hcalls⟩ := hrun
      (.perform (Operation.intern [99])
        (.perform Operation.clear
          (.perform (Operation.intern [97, 98])
            (.perform (Operation.intern [97]) .nothing
              ⟨nofun, .inl (by decide), fun _ _ _ _ => trivial⟩ rfl)
            ⟨nofun, .inl (by decide), fun _ _ _ _ => trivial⟩ rfl)
          ⟨nofun, trivial⟩ rfl)
        ⟨nofun, .inl (by decide), fun _ _ _ _ => trivial⟩ rfl)
    obtain ⟨htable', hmap', hcalls'⟩ := hdistinct Platform.plainWindowContract hstart
      (show [[97], [98], [97]].toFinset.card ≤ 2 by decide) rfl
    exact ⟨_, _, _, _, _, rfl, htable, hmap, rfl, rfl, hcalls, htable', hmap', hcalls'⟩
  · have hmade : configured? Platform.plainWindow.recorded 0x10000 { initialCapacity := 2 }
        { store := ⟨[], .ofCap 400, {}⟩ } = some (.ok _, _) := rfl
    obtain ⟨-, hintern, -⟩ := presizing_suffices (fun _ => 7) (by decide) hmade
    obtain ⟨htable, hmap, hcalls, -⟩ :=
      hintern (RunFrom.nothing : RunFrom _ _ (fun _ _ _ => False) _ _ _ _ _) (.inl (by decide))
        (Prod.ext rfl rfl : Interner.intern _ _ _ [97] _ =
          (Except.error (InternFailure.arenaExhausted 1), _, _))
    refine ⟨_, _, _, _, ?_, htable, hmap, hcalls⟩
    exact Prod.ext rfl rfl

/-- Settings that do not pass validation may ask for room for more symbols than there are; then the
last of them is issued while there are still fewer than room was made for. -/
theorem presizing_beyond_symbols :
    ∃ (made interner : Interner) (fresh machine : Machine (Recorded Platform))
      (ops : List (Operation × Answer)),
      configured? Platform.plainWindow.recorded 0x10000 { initialCapacity := 0x100000000 }
        { store := ⟨[], farWindow⟩ } = some (.ok made, fresh) ∧
      RunFrom (fun op : Operation => op.perform (fun _ => 7) Platform.plainWindow.recorded)
        (fun op _ _ => op ≠ .deinit) (fun _ _ _ => False) made fresh ops interner machine ∧
      interner.count < 0x100000000 ∧
      (interner.intern (fun _ => 7) Platform.plainWindow.recorded [] machine).1 =
        .error .symbolsExhausted := by
  obtain ⟨made, fresh, ops, interner, machine, hmade, hrun, hpresized, hrefines, hone, hleft⟩ :=
    cleared_far
  obtain ⟨words, hnodup, hlength, hcopies, hempty⟩ := exists_words
  have hleft : interner.arena.current.remaining.toNat = 0x10000000010 := congrArg UInt64.toNat hleft
  have hmost : maxSymbols = 0xFFFFFFFF := rfl
  obtain ⟨symbols, full, last, hmany, hfull⟩ :=
    hpresized.internMany_ok hrefines hone ((List.nil_append words).symm ▸ hnodup)
      (by rw [List.length_nil]; omega) (by rw [List.length_nil]; omega) (by omega)
  have hcount : full.count = maxSymbols := by
    rw [hfull.1.count_eq, List.nil_append, hlength]
  have hwords : Operation.perform (.internMany words) (fun _ => 7) Platform.plainWindow.recorded
      interner machine = (.symbols (.ok symbols), full, last) := by
    rw [Operation.perform, hmany]
  refine ⟨made, full, fresh, last, _, hmade,
    .perform (Operation.internMany words) hrun Operation.noConfusion hwords, by omega, ?_⟩
  have hlookup : full.lookup 7 [] last.memory = none := hfull.1.lookup_eq_none.2 hempty
  have hinsert : full.insert Platform.plainWindow.recorded 7 [] last =
      (.error .symbolsExhausted, full, last) := if_pos (Nat.le_of_eq hcount.symm)
  simp only [intern, hlookup, hinsert]

end Interner

end ArenaMemory
