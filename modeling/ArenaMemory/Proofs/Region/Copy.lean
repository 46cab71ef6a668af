import ArenaMemory.Region.Copy
import ArenaMemory.Proofs.Region.Release

namespace ArenaMemory

variable {σ : Type}

theorem Layout.ofCount?_eq_some {count : Nat} {align : Alignment} {layout : Layout} :
    Layout.ofCount? count align = some layout ↔
      layout.size.toNat = count ∧ layout.align = align := by
  rw [ofCount?, Option.map_eq_some_iff]
  constructor
  · rintro ⟨size, hsize, rfl⟩
    exact ⟨Word.ofNat?_eq_some.1 hsize, rfl⟩
  · rintro ⟨hsize, rfl⟩
    exact ⟨layout.size, Word.ofNat?_eq_some.2 hsize, rfl⟩

theorem AgreeOn.within {out : Multiset Grant} {memory memory' : Memory} {g k : Grant}
    (h : AgreeOn out memory memory') (hg : g ∈ out) (hstart : g.start ≤ k.start)
    (hstop : k.stop ≤ g.stop) :
    AgreeOn {k} memory memory' := by
  intro k' hk a ha
  rw [Multiset.mem_singleton.1 hk] at ha
  exact h g hg a ⟨Nat.le_trans hstart ha.1, Nat.lt_of_lt_of_le ha.2 hstop⟩

namespace Region

variable {backing : Allocator σ} {region region' : Region} {bytes : List UInt8} {align : Alignment}
  {machine machine' : Machine σ} {addr : Word} {rest : Multiset Grant} {result : Option Word}
  {g : Grant} {memory memory' : Memory}

theorem InUse.within (hg : region.InUse g) (valid : region.Valid) :
    ∃ chunk ∈ region.chunks, chunk.grant.start ≤ g.start ∧ g.stop ≤ chunk.grant.stop := by
  obtain ⟨chunk, hchunk, hstart, hstop⟩ := hg
  have hvalid := valid.chunks chunk hchunk
  exact ⟨chunk, hchunk, hvalid.within (Nat.le_trans hvalid.start_le_bump hstart) hstop⟩

theorem InUse.bounded (hg : region.InUse g) (valid : region.Valid) : g.stop ≤ 2 ^ 64 := by
  obtain ⟨chunk, hchunk, -, hstop⟩ := hg.within valid
  exact Nat.le_trans hstop (valid.chunks chunk hchunk).bounded

theorem InUse.agree (hg : region.InUse g) (valid : region.Valid)
    (h : AgreeOn region.grants memory memory') : AgreeOn {g} memory memory' := by
  obtain ⟨chunk, hchunk, hstart, hstop⟩ := hg.within valid
  exact h.within (mem_grants hchunk) hstart hstop

inductive Copying (backing : Allocator σ) (region : Region) (bytes : List UInt8) (align : Alignment)
    (machine : Machine σ) : Option Word × Region × Machine σ → Prop where
  | uncountable : Layout.ofCount? bytes.length align = none →
      Copying backing region bytes align machine (none, region, machine)
  | refused {layout region' machine'} : Layout.ofCount? bytes.length align = some layout →
      region.alloc backing layout machine = (none, region', machine') →
      Copying backing region bytes align machine (none, region', machine')
  | served {layout addr region' machine'} : Layout.ofCount? bytes.length align = some layout →
      region.alloc backing layout machine = (some addr, region', machine') →
      Copying backing region bytes align machine
        (some addr, region', machine'.mapMemory (·.write addr bytes))

theorem copying (backing : Allocator σ) (region : Region) (bytes : List UInt8) (align : Alignment)
    (machine : Machine σ) :
    Copying backing region bytes align machine (region.allocCopy backing bytes align machine) := by
  rw [allocCopy]
  cases hcount : Layout.ofCount? bytes.length align with
  | none => exact .uncountable hcount
  | some layout =>
    dsimp only
    rcases ha : region.alloc backing layout machine with ⟨_ | addr, region', machine'⟩
    · exact .refused hcount ha
    · exact .served hcount ha

theorem allocCopy_of_uncountable (hcount : Layout.ofCount? bytes.length align = none) :
    (region.allocCopy backing bytes align machine).1 = none := by
  rw [allocCopy, hcount]

theorem allocCopy_of_alloc {layout : Layout}
    (hcount : Layout.ofCount? bytes.length align = some layout)
    (ha : region.alloc backing layout machine = (result, region', machine')) :
    ∃ memory, region.allocCopy backing bytes align machine =
        (result, region', { machine' with memory }) ∧ (result = none → memory = machine'.memory) := by
  simp only [allocCopy, hcount, ha]
  cases result with
  | none => exact ⟨_, rfl, fun _ => rfl⟩
  | some addr => exact ⟨_, rfl, by simp⟩

theorem allocCopy_holds (ledger : backing.Ledger)
    (h : ledger.holds (region.grants + rest) machine.store)
    (hc : region.allocCopy backing bytes align machine = (result, region', machine')) :
    ledger.holds (region'.grants + rest) machine'.store := by
  have hcopying := hc ▸ copying backing region bytes align machine
  cases hcopying with
  | uncountable => exact h
  | refused hcount ha | served hcount ha =>
    have hserved := alloc_holds ledger h ha
    exact hserved

theorem allocCopy_refused (contract : backing.Contract) (valid : region.Valid)
    (h : contract.holds (region.grants + rest) machine.store)
    (hc : region.allocCopy backing bytes align machine = (none, region', machine')) :
    region' = region ∧ AgreeOn region.grants machine.memory machine'.memory := by
  have hcopying := copying backing region bytes align machine
  rw [hc] at hcopying
  cases hcopying with
  | uncountable => exact ⟨rfl, .refl _ _⟩
  | refused hcount ha =>
    exact ⟨(alloc_served contract.toPlacement valid h ha).refused rfl,
      (alloc_keeps contract h ha).left⟩

/-- A copy is in use, reads as it was given, and leaves every block that was in use as it was. -/
structure Copied (region : Region) (bytes : List UInt8) (memory : Memory) (addr : Word)
    (region' : Region) (memory' : Memory) : Prop where
  valid : region'.Valid
  inUse : ∀ g, region.InUse g → region'.InUse g
  fits : ∃ layout : Layout, layout.size.toNat = bytes.length ∧ region'.InUse ⟨addr, layout⟩
  reads : memory'.read addr bytes.length = bytes
  keeps : ∀ g, region.InUse g → AgreeOn {g} memory memory'

theorem allocCopy_copied (contract : backing.Contract) (valid : region.Valid)
    (hpos : 0 < bytes.length) (h : contract.holds (region.grants + rest) machine.store)
    (hc : region.allocCopy backing bytes align machine = (some addr, region', machine')) :
    Copied region bytes machine.memory addr region' machine'.memory := by
  have hcopying := copying backing region bytes align machine
  rw [hc] at hcopying
  cases hcopying with
  | @served layout _ _ middle hcount ha =>
    obtain ⟨hsize, -⟩ := Layout.ofCount?_eq_some.1 hcount
    have hserved := alloc_served contract.toPlacement valid h ha
    have hkept : AgreeOn region.grants machine.memory middle.memory :=
      (alloc_keeps contract h ha).left
    obtain ⟨hin, -, -, hapart⟩ := hserved.fresh addr rfl (hsize ▸ hpos)
    have hlen : bytes.length ≤ 2 ^ 64 := hsize ▸ Nat.le_of_lt layout.size.toNat_lt
    refine ⟨hserved.valid, hserved.inUse, ⟨layout, hsize, hin⟩, Memory.read_write hlen,
      fun g hg => ?_⟩
    refine (hg.agree valid hkept).trans
      (.write (g := ⟨addr, layout⟩) (hin.bounded hserved.valid) ?_ ?_)
    · intro other ho
      rw [Multiset.mem_singleton.1 ho]
      exact hapart g hg
    · exact Nat.le_of_eq hsize.symm

end Region

end ArenaMemory
