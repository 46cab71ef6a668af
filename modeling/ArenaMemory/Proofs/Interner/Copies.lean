import ArenaMemory.Proofs.Allocator.Sparing
import ArenaMemory.Proofs.Interner.BlockLedger
import ArenaMemory.Proofs.Region.Hosting

namespace ArenaMemory

variable {σ : Type} {allocator : Allocator σ} {contract : allocator.Contract}
  {kept rest blocks : Multiset Grant} {machine machine' : Machine σ} {bytes : List UInt8}

/-- The block of a byte string with a zero byte behind it. -/
def copyLayout (length : Nat) : Layout := ⟨UInt64.ofNat (length + 1), .one⟩

namespace Region

variable {region region' : Region} {result : Option Word}

theorem Hosts.apart (hosts : region.Hosts blocks) (hpacked : Packed (region.grants + kept)) :
    ∀ g ∈ blocks, ∀ k ∈ kept, g.Apart k := by
  intro g hg k hk
  obtain hzero | hpos := Nat.eq_zero_or_pos g.layout.size.toNat
  · exact Grant.apart_of_empty hzero
  · obtain ⟨chunk, hchunk, hstart, hstop⟩ := (hosts.inUse g hg hpos).within hosts.sound.valid
    obtain ⟨-, -, hacross⟩ := separate_add.1 hpacked.separate
    exact (hacross _ (mem_grants hchunk) k hk).within hstart hstop

theorem Hosts.dup (spares : contract.Spares kept) (hosts : region.Hosts blocks)
    (h : contract.holds (region.grants + rest) machine.store)
    (hd : region.dup allocator bytes machine = (result, region', machine')) :
    region'.Hosts (granted result (copyLayout bytes.length) + blocks) ∧
      AgreeOn (kept + blocks) machine.memory machine'.memory := by
  have hcopying := copying allocator region (bytes ++ [0]) .one machine
  have hd' : region.allocCopy allocator (bytes ++ [0]) .one machine = (result, region', machine') :=
    hd
  rw [hd'] at hcopying
  have hrequest : ∀ {layout result region' machine'},
      region.alloc allocator layout machine = (result, region', machine') →
      region'.Hosts (granted result layout + blocks) ∧
        AgreeOn (kept + blocks) machine.memory machine'.memory :=
    fun ha => ⟨hosts.request (fun hpos hb => (contract.alloc_fresh h hpos hb).left) ha,
      (alloc_kept spares.keeps h ha).add
        ((alloc_keeps contract h ha).left.subdivide hosts.subdivides).left⟩
  cases hcopying with
  | uncountable => exact ⟨by rwa [granted_none, zero_add], .refl _ _⟩
  | refused hcount ha =>
    obtain ⟨hhosts, hkept⟩ := hrequest ha
    exact ⟨hhosts, hkept⟩
  | @served layout addr _ middle hcount ha =>
    obtain ⟨hsize, halign⟩ := Layout.ofCount?_eq_some.1 hcount
    have hlength : (bytes ++ [0]).length = bytes.length + 1 := by
      rw [List.length_append, List.length_singleton]
    have hlayout : layout = copyLayout bytes.length := by
      have hword : layout.size = UInt64.ofNat (bytes.length + 1) := by
        rw [← hlength, ← hsize, UInt64.ofNat_toNat]
      cases layout
      cases hword
      cases halign
      rfl
    subst hlayout
    obtain ⟨hhosts, hkept⟩ := hrequest ha
    have hpacked := spares.packed (alloc_holds contract.toLedger h ha)
    rw [granted_some] at hhosts
    have hmem : ⟨addr, copyLayout bytes.length⟩ ∈
        ({⟨addr, copyLayout bytes.length⟩} + blocks : Multiset Grant) :=
      Multiset.mem_add.2 (.inl (Multiset.mem_singleton_self _))
    refine ⟨hhosts, hkept.trans (.write (g := ⟨addr, copyLayout bytes.length⟩) ?_ ?_
      (Nat.le_of_eq hsize.symm))⟩
    · exact (hhosts.inUse _ hmem (by rw [hsize, hlength]; exact Nat.succ_pos _)).bounded
        hhosts.sound.valid
    · intro other hother
      obtain hkept | hblock := Multiset.mem_add.1 hother
      · rw [add_assoc] at hpacked
        exact hhosts.apart hpacked _ hmem other (Multiset.mem_add.2 (.inr hkept))
      · exact (separate_cons.1 hhosts.separate).1 other hblock

end Region

namespace Interner

variable {interner interner' interner'' : Interner} {machine'' : Machine σ} {hash : UInt64}
  {contentHash : ContentHash} {result : Except InternFailure Symbol}

def copies (interner : Interner) : Multiset Grant :=
  (interner.table.entries.toList.map fun entry =>
    ⟨entry.addr, copyLayout entry.length⟩ : List Grant)

def Operation.forgets : Operation → Bool
  | clear | deinit => true
  | _ => false

/-- Every copy is still there and reads as before, and so do the blocks that are spared. -/
structure Carried (kept : Multiset Grant) (interner : Interner) (machine : Machine σ)
    (interner' : Interner) (machine' : Machine σ) : Prop where
  hosts : interner'.arena.Hosts interner'.copies
  copies_le : interner.copies ≤ interner'.copies
  agree : AgreeOn (kept + interner.copies) machine.memory machine'.memory

namespace Carried

theorem refl (hosts : interner.arena.Hosts interner.copies) :
    Carried kept interner machine interner machine :=
  ⟨hosts, le_rfl, .refl _ _⟩

theorem trans (h : Carried kept interner machine interner' machine')
    (h' : Carried kept interner' machine' interner'' machine'') :
    Carried kept interner machine interner'' machine'' :=
  ⟨h'.hosts, h.copies_le.trans h'.copies_le, h.agree.trans
    (h'.agree.mono (Multiset.subset_of_le (add_le_add le_rfl h.copies_le)))⟩

end Carried

theorem deinit_kept {ledger : allocator.Ledger} (keeps : ledger.Keeps kept)
    (h : ledger.holds (interner.grants + rest) machine.store) :
    AgreeOn kept machine.memory (interner.deinit allocator machine).2.memory := by
  rw [grants_arena, add_assoc] at h
  have harena := Region.deinit_holds ledger h
  have hmap := Buffer.release_holds ledger harena
  exact ((Region.deinit_kept keeps h).trans (Buffer.release_kept keeps harena)).trans
    (Buffer.release_kept keeps hmap)

theorem drop_kept {ledger : allocator.Ledger} {home : Option Word} (keeps : ledger.Keeps kept)
    (h : ledger.holds (interner.grants + (granted home Object.internerLayout + rest))
      machine.store) :
    AgreeOn kept machine.memory (interner.drop allocator home machine).memory :=
  (deinit_kept keeps h).trans (keeps.free (deinit_holds h))

variable (spares : contract.Spares kept)
include spares

theorem carried_table {table : SymbolTable} {done : Except InternFailure Unit}
    (h : Owns contract.toLedger rest interner machine)
    (hosts : interner.arena.Hosts interner.copies)
    (ht : interner.table.reserveOne allocator machine = (done, table, machine')) :
    Carried kept interner machine { interner with table } machine' := by
  have hvalid := h.sized.table
  have hholds := h.holds
  rw [grants_table] at hholds
  have harena := (SymbolTable.reserveOne_kept (contract.keeps _) hvalid
    (contract.beside_of_holds hholds) ht).left.left
  have hspared := SymbolTable.reserveOne_kept spares.keeps hvalid hholds ht
  have hcopies : ({ interner with table } : Interner).copies = interner.copies := by
    rw [copies, copies, (SymbolTable.reserveOne_reserved hvalid ht).same]
  exact ⟨hcopies ▸ hosts, hcopies ▸ le_rfl, hspared.add (harena.subdivide hosts.subdivides).left⟩

theorem carried_map {map : SymbolMap} {done : Except InternFailure Unit} {additional : Nat}
    (h : Owns contract.toLedger rest interner machine)
    (hosts : interner.arena.Hosts interner.copies)
    (hm : interner.map.reserve allocator additional machine = (done, map, machine')) :
    Carried kept interner machine { interner with map } machine' := by
  have hholds := h.holds
  rw [grants_map] at hholds
  have harena := (SymbolMap.reserve_kept (contract.keeps _)
    (contract.beside_of_holds hholds) hm).left.left
  have hspared := SymbolMap.reserve_kept spares.keeps hholds hm
  exact ⟨hosts, le_rfl, hspared.add (harena.subdivide hosts.subdivides).left⟩

theorem carried_both {table : SymbolTable} {map : SymbolMap} {early done : Except InternFailure Unit}
    {additional : Nat} {middle : Machine σ} (h : Owns contract.toLedger rest interner machine)
    (hosts : interner.arena.Hosts interner.copies)
    (ht : interner.table.reserveOne allocator machine = (early, table, middle))
    (hm : interner.map.reserve allocator additional middle = (done, map, machine')) :
    Carried kept interner machine { interner with table, map } machine' := by
  have htable := carried_table spares h hosts ht
  exact htable.trans (carried_map spares (h.reserveOne ht) htable.hosts hm)

theorem carried_insert (h : Owns contract.toLedger rest interner machine)
    (hosts : interner.arena.Hosts interner.copies)
    (hi : interner.insert allocator hash bytes machine = (result, interner', machine')) :
    Carried kept interner machine interner' machine' := by
  have hinsertion := insertion allocator interner hash bytes machine
  rw [hi] at hinsertion
  cases hinsertion with
  | full => exact .refl hosts
  | tableExhausted _ ht => exact carried_table spares h hosts ht
  | mapExhausted _ ht hm => exact carried_both spares h hosts ht hm
  | arenaExhausted _ ht hm hd =>
    have hboth := carried_both spares h hosts ht hm
    have hholds := ((h.reserveOne ht).reserve hm).holds
    obtain ⟨hhosts, hagree⟩ := Region.Hosts.dup spares hboth.hosts (grants_arena _ rest ▸ hholds) hd
    rw [granted_none, zero_add] at hhosts
    exact hboth.trans ⟨hhosts, le_rfl, hagree⟩
  | @issued table map arena addr _ _ _ hcount ht hm hd =>
    have hboth := carried_both spares h hosts ht hm
    have hholds := ((h.reserveOne ht).reserve hm).holds
    obtain ⟨hhosts, hagree⟩ := Region.Hosts.dup spares hboth.hosts (grants_arena _ rest ▸ hholds) hd
    have hpushed : (⟨arena, map.insertUnique hash (UInt32.ofNat interner.count),
        table.push ⟨addr, bytes.length⟩⟩ : Interner).copies =
        {⟨addr, copyLayout bytes.length⟩} + ({ interner with table, map } : Interner).copies := by
      rw [copies, copies, SymbolTable.push, Array.toList_push, List.map_append, ← Multiset.coe_add,
        add_comm]
      rfl
    exact hboth.trans ⟨hpushed ▸ hhosts, hpushed ▸ Multiset.le_add_left _ _, hagree⟩

theorem stepwise_carried (rest : Multiset Grant) :
    Stepwise allocator fun interner machine interner' machine' =>
      Owns contract.toLedger rest interner machine → interner.arena.Hosts interner.copies →
        Owns contract.toLedger rest interner' machine' ∧
          Carried kept interner machine interner' machine' where
  refl _ _ h hosts := ⟨h, .refl hosts⟩
  trans hfirst hlater h hosts := by
    obtain ⟨hmiddle, hcarried⟩ := hfirst h hosts
    obtain ⟨hlast, hcarried'⟩ := hlater hmiddle hcarried.hosts
    exact ⟨hlast, hcarried.trans hcarried'⟩
  insert := by
    intro interner hash bytes machine result interner' machine' hi trace h hosts
    obtain ⟨hsized, hholds⟩ := h.insert hi
    obtain ⟨hhosts, hle, hagree⟩ := carried_insert spares h hosts hi
    exact ⟨⟨hsized, hholds⟩, hhosts, hle, hagree⟩

/-- After any operation the arena hosts the copies, and those that there were are still there,
unless the interner was to forget them. -/
theorem perform_carried {op : Operation} {answer : Answer}
    (h : Owns contract.toLedger rest interner machine)
    (hosts : interner.arena.Hosts interner.copies)
    (hp : op.perform contentHash allocator interner machine = (answer, interner', machine')) :
    (interner'.arena.Hosts interner'.copies ∧ AgreeOn kept machine.memory machine'.memory) ∧
      (op.forgets = false → Carried kept interner machine interner' machine') := by
  have hcarried : ∀ {interner' machine'}, Carried kept interner machine interner' machine' →
      (interner'.arena.Hosts interner'.copies ∧ AgreeOn kept machine.memory machine'.memory) ∧
        (op.forgets = false → Carried kept interner machine interner' machine') :=
    fun hcarried => ⟨⟨hcarried.hosts, hcarried.agree.left⟩, fun _ => hcarried⟩
  cases op with
  | intern bytes | internText text | internCString bytes =>
    have hstep : Owns contract.toLedger rest interner' machine' ∧
        Carried kept interner machine interner' machine' :=
      (stepwise_carried spares rest).intern (Prod.ext rfl (Prod.mk.inj hp).2) h hosts
    exact hcarried hstep.2
  | internMany items =>
    have hsteps : Owns contract.toLedger rest interner' machine' ∧
        Carried kept interner machine interner' machine' :=
      (stepwise_carried spares rest).internMany (Prod.ext rfl (Prod.mk.inj hp).2) h hosts
    exact hcarried hsteps.2
  | get bytes | contains bytes | resolve symbol | count | list =>
    obtain ⟨rfl, rfl, rfl⟩ := hp
    exact hcarried (.refl hosts)
  | clear =>
    rw [Operation.perform, Interner.clear] at hp
    rcases hr : interner.arena.reset allocator machine with ⟨arena, served⟩
    rw [hr] at hp
    obtain ⟨-, rfl, rfl⟩ := hp
    exact ⟨⟨Region.hosts_zero (hosts.sound.reset hr),
      Region.reset_kept spares.keeps (grants_arena _ rest ▸ h.holds) hr⟩, by simp [Operation.forgets]⟩
  | deinit =>
    obtain ⟨-, rfl, rfl⟩ := hp
    exact ⟨⟨Region.hosts_zero (Region.sound_of_chunks_nil rfl), deinit_kept spares.keeps h.holds⟩,
      by simp [Operation.forgets]⟩

theorem presize_carried {capacity : Nat} {made : Except InternFailure Interner}
    (h : Owns contract.toLedger rest interner machine)
    (hosts : interner.arena.Hosts interner.copies)
    (hp : interner.presize allocator capacity machine = (made, machine')) :
    AgreeOn kept machine.memory machine'.memory ∧
      ∀ interner', made = .ok interner' → Carried kept interner machine interner' machine' := by
  have hpresizing := hp ▸ presizing allocator interner capacity machine
  cases hpresizing with
  | nothing => exact ⟨.refl _ _, fun _ he => Except.ok.inj he ▸ .refl hosts⟩
  | tableExhausted ht =>
    have htable := carried_table spares h hosts ht
    exact ⟨htable.agree.left.trans (deinit_kept spares.keeps (h.reserveOne ht).holds), by simp⟩
  | mapExhausted ht hm =>
    have hboth := carried_both spares h hosts ht hm
    exact ⟨hboth.agree.left.trans
      (deinit_kept spares.keeps ((h.reserveOne ht).reserve hm).holds), by simp⟩
  | made _ ht hm =>
    have hboth := carried_both spares h hosts ht hm
    exact ⟨hboth.agree.left, fun _ he => Except.ok.inj he ▸ hboth⟩

end Interner

end ArenaMemory
