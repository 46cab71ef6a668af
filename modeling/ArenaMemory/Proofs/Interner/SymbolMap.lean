import ArenaMemory.Proofs.Interner.Probing
import ArenaMemory.Proofs.Interner.Storage

namespace ArenaMemory

variable {σ : Type}

theorem LoadFactor.threshold_zero (factor : LoadFactor) : factor.threshold 0 = 0 := rfl

theorem LoadFactor.threshold_lt (factor : LoadFactor) {slots : Nat} (h : 0 < slots) :
    factor.threshold slots < slots := by
  rw [threshold, if_neg (Nat.ne_of_gt h)]
  have hle := Nat.min_le_right
    ((slots * factor.value.significand) >>> (-factor.value.exponent).toNat) (slots - 1)
  omega

namespace Slot

variable {hash : UInt64} {id : UInt32}

theorem id_ofId : (ofId hash id).id = id := by
  simp [ofId, Slot.id]

/-- The largest word is the number of no symbol. -/
theorem isFree_ofId (hash : UInt64) (h : id.toNat < 0xFFFFFFFF) :
    (ofId hash id).isFree = false := by
  rw [isFree, decide_eq_false_iff_not]
  intro hzero
  have htag : (id + 1).toNat = 0 := by
    rw [show id + 1 = 0 from hzero]
    rfl
  rw [UInt32.toNat_add, UInt32.toNat_one, Nat.mod_eq_of_lt (by omega)] at htag
  omega

end Slot

namespace SymbolMap

def grants (map : SymbolMap) : Multiset Grant := map.buffer.grants Slot.layout

/-- What holds of a map: it has as many slots as its buffer has room for, counts those that are
taken, and keeps one free. -/
structure Valid (map : SymbolMap) : Prop where
  size_eq : map.slots.size = map.capacity
  count_eq : map.count = (taken map.slots).card
  count_le : map.count ≤ map.loadFactor.threshold map.capacity
  probed : Probed map.slots

variable {allocator : Allocator σ} {map map' : SymbolMap} {machine machine' : Machine σ}
  {rest : Multiset Grant} {result : Except InternFailure Unit} {hash : UInt64}
  {holds : UInt32 → Bool} {id : UInt32} {slot : Slot} {additional : Nat}

theorem find_eq_some (h : map.find hash holds = some id) :
    ∃ slot ∈ taken map.slots, slot.hash = hash ∧ slot.id = id ∧ holds id = true :=
  search_eq_some h

theorem find_ne_none (holds : UInt32 → Bool) (hprobed : Probed map.slots)
    (hslot : slot ∈ taken map.slots) (hhash : slot.hash = hash) (hholds : holds slot.id = true) :
    map.find hash holds ≠ none := by
  obtain ⟨p, hp, hfree⟩ := mem_taken.1 hslot
  obtain ⟨d, hd, hdp, hpath⟩ := hprobed p slot hp hfree
  rw [hhash] at hdp hpath
  intro hnone
  exact search_eq_none (home_lt (by omega)) hnone hd hpath (by rw [at?, hdp, hp]) hfree
    ⟨hhash, hholds⟩

def rehashed (slots : Array Slot) (capacity : Nat) : Array Slot :=
  slots.foldl placeTaken (Array.replicate capacity {})

/-- A rehash loses no slot and makes up none. -/
theorem rehashed_spec (slots : Array Slot) (capacity : Nat) (h : (taken slots).card < capacity) :
    (rehashed slots capacity).size = capacity ∧ Probed (rehashed slots capacity) ∧
      taken (rehashed slots capacity) = taken slots := by
  have hsize : (Array.replicate capacity ({} : Slot)).size = capacity := Array.size_replicate
  have hplaced := foldl_placeTaken_spec (Array.replicate capacity {}) slots.toList
    (probed_replicate capacity)
    (by rwa [taken_replicate, hsize, Multiset.card_zero, Nat.zero_add, ← Multiset.coe_card])
  rw [taken_replicate, zero_add, hsize] at hplaced
  rw [rehashed, ← Array.foldl_toList]
  exact hplaced

structure Reserved (map : SymbolMap) (additional : Nat) (result : Except InternFailure Unit)
    (map' : SymbolMap) : Prop where
  same : map' = { map with buffer := map'.buffer, slots := map'.slots }
  taken_eq : taken map'.slots = taken map.slots
  capacity_le : map.capacity ≤ map'.capacity
  valid : map'.Valid
  room : result = .ok () → map.count + additional ≤ map'.loadFactor.threshold map'.capacity

inductive Reservation (allocator : Allocator σ) (map : SymbolMap) (additional : Nat)
    (machine : Machine σ) : Except InternFailure Unit × SymbolMap × Machine σ → Prop where
  | roomy : map.count + additional ≤ map.loadFactor.threshold map.capacity →
      Reservation allocator map additional machine (.ok (), map, machine)
  | unplanned : ¬ map.count + additional ≤ map.loadFactor.threshold map.capacity →
      (capacityFor? map.loadFactor map.capacity (map.count + additional)).bind Slot.layout.array =
        none →
      Reservation allocator map additional machine
        (.error (.mapExhausted map.capacity), map, machine)
  | denied {layout machine'} : 0 < layout.size.toNat →
      allocator.zalloc layout machine = (none, machine') →
      (capacityFor? map.loadFactor map.capacity (map.count + additional)).bind Slot.layout.array =
        some layout →
      Reservation allocator map additional machine
        (.error (.mapExhausted map.capacity), map, machine')
  | grown {capacity layout addr machine' trace} : map.capacity ≤ capacity → 0 < capacity →
      map.count + additional ≤ map.loadFactor.threshold capacity →
      Slot.layout.array capacity = some layout →
      allocator.zalloc layout machine = (some addr, machine') →
      capacityFor? map.loadFactor map.capacity (map.count + additional) = some capacity →
      Reservation allocator map additional machine
        (.ok (), { map with buffer := ⟨addr, capacity⟩, slots := rehashed map.slots capacity },
          map.buffer.release allocator Slot.layout { machine' with trace })

theorem capacityFor?_eq_some {factor : LoadFactor} {capacity needed slots : Nat}
    (h : capacityFor? factor capacity needed = some slots) :
    capacity ≤ slots ∧ 0 < slots ∧ needed ≤ factor.threshold slots := by
  have hfound := List.find?_some h
  rw [Bool.and_eq_true, decide_eq_true_eq, decide_eq_true_eq, leastCapacity] at hfound
  omega

theorem reservation (allocator : Allocator σ) (map : SymbolMap) (additional : Nat)
    (machine : Machine σ) :
    Reservation allocator map additional machine (map.reserve allocator additional machine) := by
  unfold reserve
  dsimp only
  split
  next hroom => exact .roomy hroom
  next hfull =>
    cases hc : capacityFor? map.loadFactor map.capacity (map.count + additional) with
    | none => exact .unplanned hfull (by rw [hc]; rfl)
    | some capacity =>
      obtain ⟨hle, hpos, hneeded⟩ := capacityFor?_eq_some hc
      simp only [rehash, Allocator.zallocArray]
      cases ha : Slot.layout.array capacity with
      | none => exact .unplanned hfull (by rw [hc]; exact ha)
      | some layout =>
        rcases hz : allocator.zalloc layout machine with ⟨_ | addr, machine'⟩
        · simp only [hz]
          exact .denied (Buffer.array_pos (by decide) hpos ha) hz (by rw [hc]; exact ha)
        · simp only [hz]
          exact .grown hle hpos hneeded ha hz hc

theorem reserve_reserved (valid : map.Valid)
    (hr : map.reserve allocator additional machine = (result, map', machine')) :
    Reserved map additional result map' := by
  have hreservation := hr ▸ reservation allocator map additional machine
  cases hreservation with
  | roomy hroom => exact ⟨rfl, rfl, Nat.le_refl _, valid, fun _ => hroom⟩
  | unplanned | denied => exact ⟨rfl, rfl, Nat.le_refl _, valid, by simp⟩
  | @grown capacity layout addr served trace hle hpos hneeded ha hz _ =>
    have hlt := map.loadFactor.threshold_lt hpos
    obtain ⟨hsize, hprobed, htaken⟩ := rehashed_spec map.slots capacity
      (by rw [← valid.count_eq]; omega)
    refine ⟨rfl, htaken, hle, ⟨hsize, ?_, ?_, hprobed⟩, fun _ => hneeded⟩
    · dsimp only
      rw [htaken, valid.count_eq]
    · exact Nat.le_trans (Nat.le_add_right _ _) hneeded

theorem reserve_holds (ledger : allocator.Ledger)
    (h : ledger.holds (map.grants + rest) machine.store)
    (hr : map.reserve allocator additional machine = (result, map', machine')) :
    ledger.holds (map'.grants + rest) machine'.store := by
  have hreservation := hr ▸ reservation allocator map additional machine
  cases hreservation with
  | roomy | unplanned => exact h
  | denied hpos hz => simpa using ledger.zalloc h hz
  | grown hle hpos hneeded ha hz =>
    have hout := ledger.zalloc h hz
    rw [granted_some, grants, add_left_comm] at hout
    rw [grants, Buffer.grants_of_array hpos ha]
    exact Buffer.release_holds ledger hout

theorem reserve_kept {ledger : allocator.Ledger} {kept : Multiset Grant} (keeps : ledger.Keeps kept)
    (h : ledger.holds (map.grants + rest) machine.store)
    (hr : map.reserve allocator additional machine = (result, map', machine')) :
    AgreeOn kept machine.memory machine'.memory := by
  have hreservation := hr ▸ reservation allocator map additional machine
  cases hreservation with
  | roomy | unplanned => exact .refl _ _
  | denied hpos hz => exact keeps.zalloc h hz
  | @grown capacity layout addr served trace hle hpos hneeded ha hz _ =>
    have hout := ledger.zalloc h hz
    rw [granted_some, grants, add_left_comm] at hout
    have hreleased : AgreeOn kept served.memory
        (map.buffer.release allocator Slot.layout { served with trace }).memory :=
      Buffer.release_kept keeps hout
    exact (keeps.zalloc h hz).trans hreleased

theorem insertUnique_spec (hash : UInt64) (id : UInt32) (valid : map.Valid)
    (hroom : map.count + 1 ≤ map.loadFactor.threshold map.capacity) (hid : id.toNat < 0xFFFFFFFF) :
    (map.insertUnique hash id).Valid ∧
      taken (map.insertUnique hash id).slots = Slot.ofId hash id ::ₘ taken map.slots := by
  have hpos : 0 < map.capacity := by
    refine Nat.pos_of_ne_zero fun hzero => ?_
    rw [hzero, LoadFactor.threshold_zero] at hroom
    omega
  have hlt := map.loadFactor.threshold_lt hpos
  obtain ⟨hsize, hprobed, htaken⟩ := place_spec valid.probed
    (by rw [← valid.count_eq, valid.size_eq]; omega) (Slot.isFree_ofId hash hid)
  refine ⟨⟨hsize.trans valid.size_eq, ?_, hroom, hprobed⟩, htaken⟩
  rw [insertUnique, htaken, Multiset.card_cons, valid.count_eq]

theorem valid_clear (map : SymbolMap) : map.clear.Valid where
  size_eq := Array.size_replicate
  count_eq := by rw [clear, taken_replicate, Multiset.card_zero]
  count_le := Nat.zero_le _
  probed := probed_replicate _

theorem taken_clear (map : SymbolMap) : taken map.clear.slots = 0 := taken_replicate _

theorem valid_empty (factor : LoadFactor) : ({ loadFactor := factor } : SymbolMap).Valid where
  size_eq := rfl
  count_eq := rfl
  count_le := Nat.zero_le _
  probed := fun p slot h => by simp at h

end SymbolMap

end ArenaMemory
