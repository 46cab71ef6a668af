import ArenaMemory.Allocator.Platform
import ArenaMemory.Proofs.Interner.SymbolMap

namespace ArenaMemory

variable {σ : Type}

namespace SymbolMap

/-- The symbols that a search of at most `steps` slots from `index` on would ask about in turn. -/
def candidates (slots : Array Slot) (hash : UInt64) (index : Nat) : Nat → List UInt32
  | 0 => []
  | steps + 1 =>
    match slots[index]? with
    | none => []
    | some slot =>
      if slot.isFree then []
      else if slot.hash = hash then
        slot.id :: candidates slots hash ((index + 1) % slots.size) steps
      else candidates slots hash ((index + 1) % slots.size) steps

def asked (map : SymbolMap) (hash : UInt64) : List UInt32 :=
  candidates map.slots hash (home hash map.slots.size) map.slots.size

/-- The predicate tells apart the symbols that were inserted with the hash. -/
def AtMostOne (entries : List (UInt64 × UInt32)) (hash : UInt64) (holds : UInt32 → Bool) : Prop :=
  ∀ id id', (hash, id) ∈ entries → (hash, id') ∈ entries → holds id = true → holds id' = true →
    id = id'

/-- The histories of a map, with what was inserted since it was last emptied, newest first. A symbol
is inserted in room that was made before. -/
inductive Filled (allocator : Allocator σ) (factor : LoadFactor) :
    List (UInt64 × UInt32) → SymbolMap → Prop where
  | empty : Filled allocator factor [] { loadFactor := factor }
  | reserve {entries map additional machine result map' machine'} :
      Filled allocator factor entries map →
      map.reserve allocator additional machine = (result, map', machine') →
      Filled allocator factor entries map'
  | insert {entries map} (hash : UInt64) (id : UInt32) : Filled allocator factor entries map →
      id.toNat < 0xFFFFFFFF → map.count < map.loadFactor.threshold map.capacity →
      Filled allocator factor ((hash, id) :: entries) (map.insertUnique hash id)
  | clear {entries map} : Filled allocator factor entries map →
      Filled allocator factor [] map.clear
  | release {entries map machine map' machine'} : Filled allocator factor entries map →
      map.release allocator machine = (map', machine') → Filled allocator factor [] map'

/-- The taken slots say what was inserted, and each is reached from its home. -/
structure Stores (entries : List (UInt64 × UInt32)) (map : SymbolMap) : Prop where
  probed : Probed map.slots
  taken_eq : taken map.slots = (entries.map fun entry => Slot.ofId entry.1 entry.2 : List Slot)

variable {allocator : Allocator σ} {factor : LoadFactor} {entries : List (UInt64 × UInt32)}
  {map map' : SymbolMap} {machine machine' : Machine σ} {hash : UInt64} {holds : UInt32 → Bool}
  {id : UInt32} {slots : Array Slot} {index steps capacity : Nat}
  {result : Except InternFailure Unit}

/-- A search asks in turn and stops at the first that holds. -/
theorem search_eq_find? : search slots hash holds index steps =
    (candidates slots hash index steps).find? holds := by
  induction steps generalizing index with
  | zero => rfl
  | succ steps ih =>
    rw [search, candidates]
    cases slots[index]? with
    | none => rfl
    | some slot =>
      dsimp only
      by_cases hfree : slot.isFree = true
      · rw [if_pos hfree, if_pos hfree, List.find?_nil]
      rw [if_neg hfree, if_neg hfree, ih]
      by_cases hhash : slot.hash = hash
      · rw [if_pos hhash, List.find?_cons]
        cases holds slot.id <;> simp [hhash]
      · simp [hhash]

theorem find_eq_find? : map.find hash holds = (map.asked hash).find? holds := search_eq_find?

theorem mem_asked (hprobed : Probed map.slots) :
    id ∈ map.asked hash ↔ ∃ slot ∈ taken map.slots, slot.hash = hash ∧ slot.id = id := by
  constructor
  · intro hid
    have hsome : ((map.asked hash).find? fun other => decide (other = id)).isSome :=
      List.find?_isSome.2 ⟨id, hid, decide_eq_true rfl⟩
    obtain ⟨found, hfound⟩ := Option.isSome_iff_exists.1 hsome
    rw [← find_eq_find?] at hfound
    obtain ⟨slot, hslot, hhash, hslotId, hholds⟩ := find_eq_some hfound
    exact ⟨slot, hslot, hhash, hslotId.trans (of_decide_eq_true hholds)⟩
  · rintro ⟨slot, hslot, hhash, rfl⟩
    obtain ⟨found, hfound⟩ := Option.ne_none_iff_exists'.1
      (find_ne_none (fun other => decide (other = slot.id)) hprobed hslot hhash
        (decide_eq_true rfl))
    obtain ⟨other, -, -, rfl, hholds⟩ := find_eq_some hfound
    rw [find_eq_find?] at hfound
    rw [← of_decide_eq_true hholds]
    exact List.mem_of_find?_eq_some hfound

namespace Stores

variable (stores : Stores entries map)
include stores

theorem mem_asked : id ∈ map.asked hash ↔ (hash, id) ∈ entries := by
  rw [SymbolMap.mem_asked stores.probed, stores.taken_eq]
  constructor
  · rintro ⟨slot, hslot, rfl, rfl⟩
    obtain ⟨⟨hash, id⟩, hentry, rfl⟩ := List.mem_map.1 (Multiset.mem_coe.1 hslot)
    rwa [Slot.id_ofId]
  · intro hentry
    exact ⟨Slot.ofId hash id, Multiset.mem_coe.2 (List.mem_map.2 ⟨_, hentry, rfl⟩), rfl,
      Slot.id_ofId⟩

theorem find_eq_none :
    map.find hash holds = none ↔ ∀ id, (hash, id) ∈ entries → holds id = false := by
  simp only [find_eq_find?, List.find?_eq_none, stores.mem_asked, Bool.not_eq_true]

theorem find_eq_some_iff (hone : AtMostOne entries hash holds) :
    map.find hash holds = some id ↔ (hash, id) ∈ entries ∧ holds id = true := by
  have hfound : ∀ found, map.find hash holds = some found →
      (hash, found) ∈ entries ∧ holds found = true := by
    intro found hfound
    rw [find_eq_find?] at hfound
    exact ⟨stores.mem_asked.1 (List.mem_of_find?_eq_some hfound), List.find?_some hfound⟩
  refine ⟨hfound id, fun ⟨hid, hholds⟩ => ?_⟩
  cases hf : map.find hash holds with
  | none => simp [stores.find_eq_none.1 hf id hid] at hholds
  | some found =>
    obtain ⟨hmem, hfholds⟩ := hfound found hf
    rw [hone found id hmem hid hfholds hholds]

theorem find_congr (stores' : Stores entries map') (hone : AtMostOne entries hash holds) :
    map'.find hash holds = map.find hash holds :=
  Option.ext fun _ => (stores'.find_eq_some_iff hone).trans (stores.find_eq_some_iff hone).symm

end Stores

theorem Filled.stores (filled : Filled allocator factor entries map) :
    map.Valid ∧ Stores entries map := by
  induction filled with
  | empty =>
    exact ⟨valid_empty factor, (valid_empty factor).probed, rfl⟩
  | reserve filled hr ih =>
    obtain ⟨valid, stores⟩ := ih
    have hreserved := reserve_reserved valid hr
    exact ⟨hreserved.valid, hreserved.valid.probed, hreserved.taken_eq.trans stores.taken_eq⟩
  | @insert entries map hash id filled hid hroom ih =>
    obtain ⟨valid, stores⟩ := ih
    obtain ⟨hvalid, htaken⟩ := insertUnique_spec hash id valid hroom hid
    refine ⟨hvalid, hvalid.probed, ?_⟩
    rw [htaken, stores.taken_eq, Multiset.cons_coe, List.map_cons]
  | @clear entries map filled ih =>
    exact ⟨valid_clear map, (valid_clear map).probed, taken_clear map⟩
  | @release entries map machine map' machine' filled hr ih =>
    obtain ⟨rfl, rfl⟩ := Prod.mk.inj hr
    have hvalid := valid_empty map.loadFactor
    exact ⟨hvalid, hvalid.probed, rfl⟩

theorem rehash_eq (hr : map.rehash allocator capacity machine = (result, map', machine')) :
    (result = .error (.mapExhausted map.capacity) ∧ map' = map) ∨
      ∃ addr, result = .ok () ∧
        map' = { map with buffer := ⟨addr, capacity⟩, slots := rehashed map.slots capacity } := by
  rw [rehash] at hr
  split at hr
  · obtain ⟨rfl, hrest⟩ := Prod.mk.inj hr
    exact .inl ⟨rfl, (Prod.mk.inj hrest).1.symm⟩
  next addr served hserved =>
    obtain ⟨rfl, hrest⟩ := Prod.mk.inj hr
    exact .inr ⟨addr, rfl, (Prod.mk.inj hrest).1.symm⟩

theorem reserve_error {additional : Nat} {failure : InternFailure}
    (hr : map.reserve allocator additional machine = (.error failure, map', machine')) :
    map' = map := by
  have hreservation := reservation allocator map additional machine
  rw [hr] at hreservation
  cases hreservation with
  | unplanned | denied => rfl

theorem Valid.card_lt (valid : map.Valid) (hlarger : map.capacity < capacity) :
    (taken map.slots).card < capacity := by
  have hle := valid.count_le
  rw [valid.count_eq] at hle
  obtain hzero | hpos := Nat.eq_zero_or_pos map.capacity
  · rw [hzero, LoadFactor.threshold_zero] at hle
    omega
  · have hlt := map.loadFactor.threshold_lt hpos
    omega

theorem Stores.rehash (addr : Word) (valid : map.Valid) (stores : Stores entries map)
    (hlarger : map.capacity < capacity) :
    Stores entries
      { map with buffer := ⟨addr, capacity⟩, slots := rehashed map.slots capacity } := by
  obtain ⟨-, hprobed, htaken⟩ := rehashed_spec map.slots capacity (valid.card_lt hlarger)
  exact ⟨hprobed, htaken.trans stores.taken_eq⟩

theorem Stores.pairs_eq (stores : Stores entries map) :
    (taken map.slots).map (fun slot => (slot.hash, slot.id)) = (entries : Multiset _) := by
  rw [stores.taken_eq, Multiset.map_coe, List.map_map]
  refine congrArg _ ((List.map_congr_left fun entry _ => ?_).trans (List.map_id _))
  exact Prod.ext rfl Slot.id_ofId

/-- A lookup asks about the symbols that were inserted with just this hash, one after another, and
about no other. A rehash to any larger array changes no answer. -/
theorem lookup_exact (filled : Filled allocator factor entries map) :
    (∀ hash holds, AtMostOne entries hash holds →
      (∀ id, map.find hash holds = some id ↔ (hash, id) ∈ entries ∧ holds id = true) ∧
      (map.find hash holds = none ↔ ∀ id, (hash, id) ∈ entries → holds id = false)) ∧
    (∀ hash, (∀ id, id ∈ map.asked hash ↔ (hash, id) ∈ entries) ∧
      ∀ holds, map.find hash holds = (map.asked hash).find? holds) ∧
    (taken map.slots).map (fun slot => (slot.hash, slot.id)) = (entries : Multiset _) ∧
    (∀ capacity machine map' machine', map.capacity < capacity →
      map.rehash allocator capacity machine = (.ok (), map', machine') →
      map'.capacity = capacity ∧ taken map'.slots = taken map.slots ∧
        (∀ hash id, id ∈ map'.asked hash ↔ id ∈ map.asked hash) ∧
        ∀ hash holds, AtMostOne entries hash holds → map'.find hash holds = map.find hash holds) ∧
    ∀ additional machine result map' machine',
      map.reserve allocator additional machine = (result, map', machine') →
      (result = .ok () → map'.count + additional ≤ map'.loadFactor.threshold map'.capacity) ∧
      ∀ failure, result = .error failure → map' = map := by
  obtain ⟨valid, stores⟩ := filled.stores
  refine ⟨fun hash holds hone => ⟨fun id => stores.find_eq_some_iff hone, stores.find_eq_none⟩,
    fun hash => ⟨fun id => stores.mem_asked, fun holds => find_eq_find?⟩, stores.pairs_eq, ?_, ?_⟩
  · intro capacity machine map' machine' hlarger hr
    obtain ⟨herror, -⟩ | ⟨addr, -, rfl⟩ := rehash_eq hr
    · cases herror
    · have stores' := stores.rehash addr valid hlarger
      exact ⟨rfl, stores'.taken_eq.trans stores.taken_eq.symm,
        fun hash id => stores'.mem_asked.trans stores.mem_asked.symm,
        fun hash holds hone => stores.find_congr stores' hone⟩
  · intro additional machine result map' machine' hr
    have hreserved := reserve_reserved valid hr
    refine ⟨fun hok => ?_, fun failure hfailed => ?_⟩
    · have hcount : map'.count = map.count := by rw [hreserved.same]
      rw [hcount]
      exact hreserved.room hok
    · subst hfailed
      exact reserve_error hr

theorem lookup_exact_around_end : ∃ map : SymbolMap, map.capacity = 16 ∧
    map.slots[15]? = some (.ofId 15 0) ∧ map.slots[0]? = some (.ofId 31 1) ∧
    map.slots[1]? = some (.ofId 15 2) ∧ map.find 15 (fun id => decide (id = 2)) = some 2 ∧
    map.find 47 (fun _ => true) = none ∧ ∀ id, id ∈ map.asked 15 ↔ id = 0 ∨ id = 2 := by
  obtain ⟨machine', hreserve⟩ : ∃ machine' : Machine Platform,
      SymbolMap.reserve Platform.plainWindow { loadFactor := .threeQuarters } 3
        { store := ⟨.ofCap 65536, {}⟩ } =
      (.ok (), ⟨.threeQuarters, ⟨0x1000000000, 16⟩, Array.replicate 16 {}, 0⟩, machine') := ⟨_, rfl⟩
  have hfilled := (((Filled.empty.reserve hreserve).insert 15 0 (by decide) (by decide)).insert 31 1
    (by decide) (by decide)).insert 15 2 (by decide) (by decide)
  obtain ⟨hfind, hasked, -⟩ := lookup_exact hfilled
  have hthird := ((hfind 15 (fun id => decide (id = 2)) fun id id' _ _ hid hid' =>
    (of_decide_eq_true hid).trans (of_decide_eq_true hid').symm).1 2).2 ⟨by decide, by decide⟩
  have hnone := (hfind 47 (fun _ => true) (by simp [AtMostOne])).2.2 (by simp)
  have hids : ∀ id, (15, id) ∈ [((15 : UInt64), (2 : UInt32)), (31, 1), (15, 0)] ↔
      id = 0 ∨ id = 2 := by
    simp [or_comm]
  exact ⟨_, by decide, by decide, by decide, by decide, hthird, hnone,
    fun id => ((hasked 15).1 id).trans (hids id)⟩

end SymbolMap

end ArenaMemory
