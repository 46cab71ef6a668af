import ArenaMemory.Proofs.Interner.Capacity
import ArenaMemory.Proofs.Interner.Lookup

namespace ArenaMemory

variable {σ : Type}

namespace SymbolMap

/-- A loop that counts nothing: from `index` on it passes slots, around the end by the mask of the
array's size, and ends at the first one that `stops`. There is no step from outside the array. -/
inductive Walk (slots : Array Slot) (stops : Slot → Bool) : Nat → List Nat → Nat → Prop where
  | stop {index slot} : slots[index]? = some slot → stops slot = true →
      Walk slots stops index [] index
  | pass {index slot passed last} : slots[index]? = some slot → stops slot = false →
      Walk slots stops ((index + 1) &&& (slots.size - 1)) passed last →
      Walk slots stops index (index :: passed) last

/-- From `start` on the loop ends at `last` and nowhere else. It looks at no more slots than there
are, and all of them are in the array. -/
def Ends (slots : Array Slot) (stops : Slot → Bool) (start last : Nat) : Prop :=
  ∃ passed, Walk slots stops start passed last ∧ (last :: passed).length ≤ slots.size ∧
    (∀ index ∈ last :: passed, index < slots.size) ∧
    ∀ passed' last', Walk slots stops start passed' last' → passed' = passed ∧ last' = last

def settles (hash : UInt64) (holds : UInt32 → Bool) (slot : Slot) : Bool :=
  slot.isFree || (decide (slot.hash = hash) && holds slot.id)

variable {slots : Array Slot} {stops : Slot → Bool} {slot : Slot} {hash : UInt64}
  {holds : UInt32 → Bool} {start last index steps k d : Nat} {passed passed' : List Nat}

theorem and_mask (hsize : slots.size = 2 ^ k) : index &&& (slots.size - 1) = index % slots.size := by
  rw [hsize, Nat.and_two_pow_sub_one_eq_mod]

namespace Walk

theorem index_lt (walk : Walk slots stops start passed last) :
    ∀ index ∈ last :: passed, index < slots.size := by
  induction walk with
  | stop hslot hstop =>
    intro index hindex
    obtain rfl := List.mem_singleton.1 hindex
    exact (Array.getElem?_eq_some_iff.1 hslot).1
  | pass hslot hstop walk ih =>
    intro index hindex
    obtain rfl | rfl | hrest : index = _ ∨ index = _ ∨ index ∈ _ := by simpa using hindex
    · exact ih _ List.mem_cons_self
    · exact (Array.getElem?_eq_some_iff.1 hslot).1
    · exact ih _ (List.mem_cons_of_mem _ hrest)

theorem unique {last' : Nat} (walk : Walk slots stops start passed last)
    (walk' : Walk slots stops start passed' last') : passed' = passed ∧ last' = last := by
  induction walk generalizing passed' with
  | stop hslot hstop =>
    cases walk' with
    | stop => exact ⟨rfl, rfl⟩
    | pass hslot' hpass =>
      obtain rfl := Option.some.inj (hslot.symm.trans hslot')
      simp [hstop] at hpass
  | pass hslot hpass walk ih =>
    cases walk' with
    | stop hslot' hstop =>
      obtain rfl := Option.some.inj (hslot.symm.trans hslot')
      simp [hpass] at hstop
    | pass _ _ walk' =>
      obtain ⟨rfl, rfl⟩ := ih walk'
      exact ⟨rfl, rfl⟩

/-- A lookup that may take a step more than the loop takes answers what the loop comes to. -/
theorem search_eq (hsize : slots.size = 2 ^ k)
    (walk : Walk slots (settles hash holds) start passed last) (hsteps : passed.length < steps) :
    ∃ slot, slots[last]? = some slot ∧
      search slots hash holds start steps = if slot.isFree then none else some slot.id := by
  induction walk generalizing steps with
  | @stop index slot hslot hstop =>
    obtain ⟨steps, rfl⟩ := Nat.exists_eq_succ_of_ne_zero (Nat.ne_of_gt hsteps)
    refine ⟨slot, hslot, ?_⟩
    rw [search, hslot]
    by_cases hfree : slot.isFree = true
    · simp [hfree]
    · have hmatch : (decide (slot.hash = hash) && holds slot.id) = true := by
        simpa [settles, hfree] using hstop
      simp only [hfree, hmatch, if_true, Bool.false_eq_true, if_false]
  | @pass index slot passed last hslot hpass walk ih =>
    obtain ⟨steps, rfl⟩ := Nat.exists_eq_succ_of_ne_zero (Nat.ne_of_gt (Nat.zero_lt_of_lt hsteps))
    rw [settles, Bool.or_eq_false_iff] at hpass
    rw [search, hslot]
    simp only [hpass, Bool.false_eq_true, if_false]
    rw [and_mask hsize] at ih
    exact ih (Nat.lt_of_succ_lt_succ hsteps)

theorem firstFree_eq (hsize : slots.size = 2 ^ k)
    (walk : Walk slots Slot.isFree start passed last) (hsteps : passed.length < steps) :
    firstFree slots start steps = some last := by
  induction walk generalizing steps with
  | stop hslot hstop =>
    obtain ⟨steps, rfl⟩ := Nat.exists_eq_succ_of_ne_zero (Nat.ne_of_gt hsteps)
    simp only [firstFree, hslot, hstop, if_true]
  | pass hslot hpass walk ih =>
    obtain ⟨steps, rfl⟩ := Nat.exists_eq_succ_of_ne_zero (Nat.ne_of_gt (Nat.zero_lt_of_lt hsteps))
    rw [and_mask hsize] at ih
    simp only [firstFree, hslot, hpass, Bool.false_eq_true, if_false]
    exact ih (Nat.lt_of_succ_lt_succ hsteps)

end Walk

/-- With a slot to stop at `d` places on, the loop has passed no more than `d` when it ends. -/
theorem exists_walk (hsize : slots.size = 2 ^ k) (hstart : start < slots.size)
    (hslot : at? slots start d = some slot) (hstop : stops slot = true) :
    ∃ passed last, Walk slots stops start passed last ∧ passed.length ≤ d := by
  induction d generalizing start with
  | zero =>
    rw [at?_zero hstart] at hslot
    exact ⟨[], start, .stop hslot hstop, Nat.le_refl 0⟩
  | succ d ih =>
    have hfirst : slots[start]? = some slots[start] := Array.getElem?_eq_getElem hstart
    by_cases hfound : stops slots[start] = true
    · exact ⟨[], start, .stop hfirst hfound, Nat.zero_le _⟩
    · rw [← at?_next] at hslot
      obtain ⟨passed, last, walk, hle⟩ := ih (next_lt hstart) hslot
      refine ⟨start :: passed, last, ?_, Nat.succ_le_succ hle⟩
      apply Walk.pass hfirst
      · simpa using hfound
      · rwa [and_mask hsize]

theorem exists_ends (stops : Slot → Bool) (hash : UInt64) (hsize : slots.size = 2 ^ k)
    (hroom : (taken slots).card < slots.size) (hfree : ∀ slot : Slot, slot.isFree → stops slot) :
    ∃ last, Ends slots stops (hash.toNat &&& (slots.size - 1)) last := by
  have hhome : home hash slots.size < slots.size := home_lt (Nat.zero_lt_of_lt hroom)
  obtain ⟨p, hp⟩ := exists_firstFree hroom hhome
  obtain ⟨d, hd, hdp, ⟨slot, hslot, hslotFree⟩, -⟩ := firstFree_eq_some hhome hp
  have hat : at? slots (home hash slots.size) d = some slot := by rw [at?, hdp, hslot]
  obtain ⟨passed, last, walk, hle⟩ := exists_walk hsize hhome hat (hfree slot hslotFree)
  refine ⟨last, passed, ?_, ?_, walk.index_lt, ?_⟩
  · rwa [and_mask hsize]
  · rw [List.length_cons]
    omega
  · intro passed' last' walk'
    rw [and_mask hsize] at walk'
    exact walk.unique walk'

theorem place_ends (hsize : slots.size = 2 ^ k) (hroom : (taken slots).card < slots.size)
    (slot : Slot) :
    ∃ last, Ends slots Slot.isFree (slot.hash.toNat &&& (slots.size - 1)) last ∧
      place slots slot = slots.setIfInBounds last slot := by
  obtain ⟨last, hends⟩ := exists_ends Slot.isFree slot.hash hsize hroom fun _ => id
  obtain ⟨passed, walk, hlength, -⟩ := id hends
  rw [and_mask hsize] at walk
  refine ⟨last, hends, ?_⟩
  rw [place, home, walk.firstFree_eq hsize hlength]

variable {allocator : Allocator σ} {factor : LoadFactor} {entries : List (UInt64 × UInt32)}
  {map map' : SymbolMap} {machine machine' : Machine σ} {additional capacity : Nat}

theorem rehash_ends {before after : List Slot} (hcapacity : capacity = 2 ^ k)
    (hroom : (taken slots).card < capacity) (hslots : slots.toList = before ++ slot :: after)
    (htaken : slot.isFree = false) :
    ∃ last, Ends (before.foldl placeTaken (Array.replicate capacity {})) Slot.isFree
        (slot.hash.toNat &&& (capacity - 1)) last ∧
      (before ++ [slot]).foldl placeTaken (Array.replicate capacity {}) =
        (before.foldl placeTaken (Array.replicate capacity {})).setIfInBounds last slot := by
  have hempty : (Array.replicate capacity ({} : Slot)).size = capacity := Array.size_replicate
  have hcard : (before.filter fun slot => !slot.isFree).length < (taken slots).card := by
    rw [taken, hslots, Multiset.coe_card, List.filter_append, List.length_append,
      List.filter_cons_of_pos (by simp [htaken]), List.length_cons]
    omega
  obtain ⟨hsize, -, hmoved⟩ := foldl_placeTaken_spec (Array.replicate capacity {}) before
    (probed_replicate capacity)
    (by rw [taken_replicate, hempty, Multiset.card_zero, Nat.zero_add]; omega)
  rw [taken_replicate, zero_add] at hmoved
  rw [hempty] at hsize
  obtain ⟨last, hends, hplace⟩ := place_ends (hsize.trans hcapacity)
    (by rw [hmoved, hsize, Multiset.coe_card]; omega) slot
  rw [hsize] at hends
  refine ⟨last, hends, ?_⟩
  rw [List.foldl_append, List.foldl_cons, List.foldl_nil, placeTaken, if_neg (by simp [htaken]),
    hplace]

theorem Filled.capacity_pow (filled : Filled allocator factor entries map)
    (hpos : 0 < map.capacity) : ∃ k < 64, map.capacity = 2 ^ k := by
  induction filled with
  | empty => cases hpos
  | @reserve entries map additional machine result map' machine' filled hr ih =>
    have hreservation := hr ▸ reservation allocator map additional machine
    cases hreservation with
    | roomy | unplanned | denied => exact ih hpos
    | grown _ _ _ _ _ hc =>
      obtain ⟨k, hk, rfl, -⟩ := capacityFor?_eq_some_iff.1 hc
      exact ⟨k, hk, rfl⟩
  | insert hash id filled hid hroom ih => exact ih hpos
  | clear filled ih => exact ih hpos
  | release filled hr ih =>
    obtain ⟨rfl, -⟩ := Prod.mk.inj hr
    cases hpos

theorem Valid.count_lt (valid : map.Valid) (hpos : 0 < map.capacity) : map.count < map.capacity :=
  Nat.lt_of_le_of_lt valid.count_le (map.loadFactor.threshold_lt hpos)

theorem exists_isFree (hroom : (taken slots).card < slots.size) :
    ∃ (index : Nat) (slot : Slot), slots[index]? = some slot ∧ slot.isFree = true := by
  have hpos : 0 < slots.size := Nat.zero_lt_of_lt hroom
  obtain ⟨p, hp⟩ := exists_firstFree hroom hpos
  obtain ⟨-, -, -, hfree, -⟩ := firstFree_eq_some hpos hp
  exact ⟨p, hfree⟩

/-- A map that has slots has a free one, so every loop over slots ends within the array. This holds
in the middle of a rehash, too. -/
theorem probe_loops_end (filled : Filled allocator factor entries map) :
    map.count = (taken map.slots).card ∧
      (0 < map.capacity →
        map.slots.size = map.capacity ∧ (∃ k < 64, map.capacity = 2 ^ k) ∧
        map.count < map.capacity ∧
        (∃ (index : Nat) (slot : Slot), map.slots[index]? = some slot ∧ slot.isFree = true) ∧
        (∀ hash holds, ∃ last slot,
          Ends map.slots (settles hash holds) (hash.toNat &&& (map.capacity - 1)) last ∧
          map.slots[last]? = some slot ∧
          map.find hash holds = if slot.isFree then none else some slot.id) ∧
        ∀ hash id, ∃ last,
          Ends map.slots Slot.isFree (hash.toNat &&& (map.capacity - 1)) last ∧
          map.insertUnique hash id = { map with
            slots := map.slots.setIfInBounds last (.ofId hash id), count := map.count + 1 }) ∧
      (∀ additional machine map' machine', 0 < additional →
        map.reserve allocator additional machine = (.ok (), map', machine') →
        0 < map'.capacity ∧
          map'.count + additional ≤ map'.loadFactor.threshold map'.capacity) ∧
      ∀ additional capacity,
        capacityFor? map.loadFactor map.capacity (map.count + additional) = some capacity →
        (∀ before slot after, map.slots.toList = before ++ slot :: after → slot.isFree = false →
          ∃ last, Ends (before.foldl placeTaken (Array.replicate capacity {})) Slot.isFree
              (slot.hash.toNat &&& (capacity - 1)) last ∧
            (before ++ [slot]).foldl placeTaken (Array.replicate capacity {}) =
              (before.foldl placeTaken (Array.replicate capacity {})).setIfInBounds last slot) ∧
        ∀ machine map' machine',
          map.rehash allocator capacity machine = (.ok (), map', machine') →
          map'.capacity = capacity ∧
            map'.slots = map.slots.toList.foldl placeTaken (Array.replicate capacity {}) := by
  obtain ⟨valid, -⟩ := filled.stores
  refine ⟨valid.count_eq, ?_, ?_, ?_⟩
  · intro hpos
    obtain ⟨k, hk, hpow⟩ := filled.capacity_pow hpos
    have hsize : map.slots.size = 2 ^ k := valid.size_eq.trans hpow
    have hlt := valid.count_lt hpos
    have hroom : (taken map.slots).card < map.slots.size := by
      rwa [← valid.count_eq, valid.size_eq]
    refine ⟨valid.size_eq, ⟨k, hk, hpow⟩, hlt, exists_isFree hroom, ?_, ?_⟩
    · intro hash holds
      obtain ⟨last, hends⟩ := exists_ends (settles hash holds) hash hsize hroom
        fun slot hfree => by simp [settles, hfree]
      obtain ⟨passed, walk, hlength, -⟩ := id hends
      rw [and_mask hsize] at walk
      obtain ⟨slot, hslot, hsearch⟩ := walk.search_eq hsize hlength
      exact ⟨last, slot, valid.size_eq ▸ hends, hslot, hsearch⟩
    · intro hash id
      obtain ⟨last, hends, hplace⟩ := place_ends hsize hroom (.ofId hash id)
      refine ⟨last, valid.size_eq ▸ hends, ?_⟩
      rw [insertUnique, hplace]
  · intro additional machine map' machine' hadditional hr
    have hreserved := reserve_reserved valid hr
    have hcount : map'.count = map.count := by rw [hreserved.same]
    have hle := hcount ▸ hreserved.room rfl
    refine ⟨Nat.pos_of_ne_zero ?_, hle⟩
    intro hzero
    rw [hzero, LoadFactor.threshold_zero] at hle
    omega
  · intro additional capacity hc
    obtain ⟨-, hpos, hneeded⟩ := capacityFor?_eq_some hc
    obtain ⟨k, -, hpow, -⟩ := capacityFor?_eq_some_iff.1 hc
    have hlt := map.loadFactor.threshold_lt hpos
    have hroom : (taken map.slots).card < capacity := by
      rw [← valid.count_eq]
      omega
    refine ⟨fun before slot after hslots htaken => rehash_ends hpow hroom hslots htaken, ?_⟩
    intro machine map' machine' hr
    obtain ⟨herror, -⟩ | ⟨addr, -, rfl⟩ := rehash_eq hr
    · cases herror
    · refine ⟨rfl, ?_⟩
      rw [rehashed, Array.foldl_toList]

theorem probe_loops_end_around_end : ∃ map : SymbolMap, map.capacity = 16 ∧ map.count = 3 ∧
    Walk map.slots (settles 46 fun _ => true) 14 [14, 15, 0] 1 ∧
    (∃ last, Ends map.slots (settles 46 fun _ => true) 14 last) ∧
    ∃ last, Ends map.slots Slot.isFree 14 last ∧ (map.insertUnique 46 3).slots =
      map.slots.setIfInBounds last (.ofId 46 3) := by
  obtain ⟨machine', hreserve⟩ : ∃ machine' : Machine Platform,
      SymbolMap.reserve Platform.plainWindow { loadFactor := .threeQuarters } 3
        { store := ⟨.ofCap 65536, {}⟩ } =
      (.ok (), ⟨.threeQuarters, ⟨0x1000000000, 16⟩, Array.replicate 16 {}, 0⟩, machine') := ⟨_, rfl⟩
  have hfilled := (((Filled.empty.reserve hreserve).insert 14 0 (by decide) (by decide)).insert 30 1
    (by decide) (by decide)).insert 62 2 (by decide) (by decide)
  obtain ⟨-, hloops, -⟩ := probe_loops_end hfilled
  obtain ⟨-, -, -, -, hfind, hinsert⟩ := hloops (by decide)
  obtain ⟨last, slot, hends, -⟩ := hfind 46 fun _ => true
  obtain ⟨place, hplace, hslots⟩ := hinsert 46 3
  refine ⟨_, by decide, by decide, ?_, ⟨last, hends⟩, place, hplace, by rw [hslots]⟩
  exact .pass rfl rfl (.pass rfl rfl (.pass rfl rfl (.stop rfl rfl)))

end SymbolMap

namespace Interner

open SymbolMap

variable {contentHash : ContentHash} {allocator : Allocator σ} {start machine machine' : Machine σ}
  {others : Multiset Grant → Machine σ → Machine σ → Prop} {factor : LoadFactor}
  {interner interner' : Interner} {op : Operation} {answer : Answer}
  {events : List (Operation × Answer)}

def MapFilled (allocator : Allocator σ) (factor : LoadFactor) (interner : Interner) : Prop :=
  ∃ entries, Filled allocator factor entries interner.map

theorem stepwise_mapFilled : Stepwise allocator fun interner _ interner' _ =>
    MapFilled allocator factor interner → MapFilled allocator factor interner' where
  refl _ _ := id
  trans h h' := h' ∘ h
  insert := by
    rintro interner hash bytes machine result interner' machine' hi trace ⟨entries, filled⟩
    have hinsertion := insertion allocator interner hash bytes machine
    rw [hi] at hinsertion
    cases hinsertion with
    | full | tableExhausted => exact ⟨entries, filled⟩
    | mapExhausted _ _ hm | arenaExhausted _ _ hm => exact ⟨entries, filled.reserve hm⟩
    | @issued table map arena addr first second machine' hcount _ hm hd =>
      have hreserved := reserve_reserved filled.stores.1 hm
      have hroom : map.count < map.loadFactor.threshold map.capacity := by
        have hsame : map.count = interner.map.count := by rw [hreserved.same]
        rw [hsame]
        exact hreserved.room rfl
      have hid : (UInt32.ofNat interner.count).toNat < 0xFFFFFFFF := by
        apply Nat.lt_of_le_of_lt _ hcount
        rw [UInt32.toNat_ofNat']
        exact Nat.mod_le _ _
      exact ⟨_, (filled.reserve hm).insert hash _ hid hroom⟩

theorem MapFilled.perform (filled : MapFilled allocator factor interner)
    (hp : op.perform contentHash allocator interner machine = (answer, interner', machine')) :
    MapFilled allocator factor interner' := by
  cases op with
  | intern bytes | internText text | internCString bytes =>
    exact stepwise_mapFilled.intern (Prod.ext rfl (Prod.mk.inj hp).2) filled
  | internMany items => exact stepwise_mapFilled.internMany (Prod.ext rfl (Prod.mk.inj hp).2) filled
  | get bytes | contains bytes | resolve symbol | count | list =>
    obtain ⟨-, rfl, -⟩ := hp
    exact filled
  | clear =>
    obtain ⟨-, rfl, -⟩ := hp
    obtain ⟨entries, filled⟩ := filled
    exact ⟨[], filled.clear⟩
  | deinit =>
    obtain ⟨-, rfl, -⟩ := hp
    obtain ⟨entries, filled⟩ := filled
    have hreleased : interner.map.release allocator machine = _ := Prod.mk.eta.symm
    exact ⟨[], filled.release hreleased⟩

theorem Run.mapFilled (run : Run contentHash allocator others start events interner machine) :
    ∃ factor, MapFilled allocator factor interner := by
  induction run with
  | create => exact ⟨_, [], .empty⟩
  | @presize anchor loadFactor capacity arenaLimit interner machine hp =>
    have hpresizing := hp ▸ presizing allocator _ capacity start
    cases hpresizing with
    | nothing => exact ⟨_, [], .empty⟩
    | made _ _ hm => exact ⟨loadFactor, [], Filled.empty.reserve hm⟩
  | perform op _ hp ih =>
    obtain ⟨factor, filled⟩ := ih
    exact ⟨factor, filled.perform hp⟩
  | others _ _ ih => exact ih

end Interner

end ArenaMemory
