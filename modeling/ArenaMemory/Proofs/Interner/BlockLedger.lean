import ArenaMemory.Proofs.Allocator.Recorder
import ArenaMemory.Proofs.Interner.FailedIntern

namespace ArenaMemory

variable {σ : Type}

namespace Buffer

def Sized (element : Layout) (buffer : Buffer) : Prop :=
  buffer.capacity ≠ 0 → ∃ layout, element.array buffer.capacity = some layout

/-- The block of a buffer for elements of sixteen bytes: none as long as it has no room. -/
inductive Block (buffer : Buffer) : Multiset Grant → Prop where
  | none : buffer.capacity = 0 → Block buffer 0
  | one {size : Word} : 0 < buffer.capacity → size.toNat = 16 * buffer.capacity →
      Block buffer {⟨buffer.addr, size, .eight⟩}

variable {allocator : Allocator σ} {element : Layout} {buffer resized : Buffer} {capacity : Nat}
  {machine machine' : Machine σ}

theorem block_of_sized (hsize : element.size = 16) (halign : element.align = .eight)
    (h : Sized element buffer) : Block buffer (buffer.grants element) := by
  obtain hzero | hpos := Nat.eq_zero_or_pos buffer.capacity
  · rw [grants, if_pos hzero]
    exact .none hzero
  · obtain ⟨layout, hlayout⟩ := h (Nat.ne_of_gt hpos)
    have hgrants : buffer.grants element = {⟨buffer.addr, layout⟩} := grants_of_array hpos hlayout
    obtain ⟨size, hcount, rfl⟩ := Option.map_eq_some_iff.1 hlayout
    rw [hgrants, halign]
    refine .one hpos ?_
    rw [Word.ofNat?_eq_some.1 hcount, hsize]
    rfl

theorem resize?_sized
    (hr : buffer.resize? allocator element capacity machine = (some resized, machine')) :
    Sized element resized := by
  intro _
  rw [resize?_capacity hr]
  rw [resize?] at hr
  cases hnew : element.array capacity with
  | none => simp [hnew] at hr
  | some layout => exact ⟨layout, rfl⟩

end Buffer

namespace Interner

/-- What an interner keeps on any allocator: its table has room for its entries, and its buffers can
be given back for the layouts that they were obtained for. -/
structure Sized (interner : Interner) : Prop where
  table : interner.table.Valid
  entries : interner.table.buffer.Sized Entry.layout
  slots : interner.map.buffer.Sized Slot.layout

structure Owns {allocator : Allocator σ} (ledger : allocator.Ledger) (rest : Multiset Grant)
    (interner : Interner) (machine : Machine σ) : Prop where
  sized : interner.Sized
  holds : ledger.holds (interner.grants + rest) machine.store

/-- An interner's own storage, if it was given some before its first request. -/
inductive Housed (allocator : Allocator σ) (fresh : Machine σ) : Option Word → Machine σ → Prop where
  | plain : Housed allocator fresh none fresh
  | boxed {home machine} :
      allocator.box Object.internerLayout (fun _ memory => memory) fresh = (some home, machine) →
      Housed allocator fresh (some home) machine

variable {allocator : Allocator σ} {ledger : allocator.Ledger} {contentHash : ContentHash}
  {interner interner' : Interner} {machine machine' : Machine σ} {rest : Multiset Grant}
  {bytes : List UInt8} {hash : UInt64} {table : SymbolTable} {map : SymbolMap} {home : Option Word}
  {done : Except InternFailure Unit} {additional : Nat} {result : Except InternFailure Symbol}

theorem Owns.reserveOne (h : Owns ledger rest interner machine)
    (ht : interner.table.reserveOne allocator machine = (done, table, machine')) :
    Owns ledger rest { interner with table } machine' := by
  obtain ⟨⟨hvalid, hentries, hslots⟩, hholds⟩ := h
  have hreserved := SymbolTable.reserveOne_reserved hvalid ht
  rw [grants_table] at hholds
  have hout := SymbolTable.reserveOne_holds ledger hvalid hholds ht
  rw [← grants_table { interner with table }] at hout
  refine ⟨⟨⟨?_, ?_⟩, ?_, hslots⟩, hout⟩
  · rw [hreserved.same]
    exact hvalid.initial_pos
  · have hcount : table.count = interner.table.count := by rw [hreserved.same]; rfl
    rw [hcount]
    exact Nat.le_trans hvalid.count_le hreserved.capacity_le
  · have hreservation := ht ▸ SymbolTable.reservation allocator machine hvalid
    cases hreservation with
    | roomy | refused => exact hentries
    | grown trace hlt hcount hb => exact Buffer.resize?_sized hb

theorem Owns.reserve (h : Owns ledger rest interner machine)
    (hm : interner.map.reserve allocator additional machine = (done, map, machine')) :
    Owns ledger rest { interner with map } machine' := by
  obtain ⟨⟨hvalid, hentries, hslots⟩, hholds⟩ := h
  rw [grants_map] at hholds
  have hout := SymbolMap.reserve_holds ledger hholds hm
  rw [← grants_map { interner with map }] at hout
  refine ⟨⟨hvalid, hentries, ?_⟩, hout⟩
  have hreservation := hm ▸ SymbolMap.reservation allocator interner.map additional machine
  cases hreservation with
  | roomy | unplanned | denied => exact hslots
  | grown hle hpos hneeded ha hz => exact fun _ => ⟨_, ha⟩

theorem Owns.deinit (h : Owns ledger rest interner machine) :
    Owns ledger rest (interner.deinit allocator machine).1 (interner.deinit allocator machine).2 := by
  refine ⟨⟨⟨h.sized.table.initial_pos, Nat.zero_le _⟩, fun hc => absurd rfl hc,
    fun hc => absurd rfl hc⟩, ?_⟩
  rw [grants_deinit, zero_add]
  exact deinit_holds h.holds

theorem Owns.clear (h : Owns ledger rest interner machine) :
    Owns ledger rest (interner.clear allocator machine).1 (interner.clear allocator machine).2 := by
  obtain ⟨⟨hvalid, hentries, hslots⟩, hholds⟩ := h
  rw [Interner.clear]
  rcases hr : interner.arena.reset allocator machine with ⟨arena, machine'⟩
  rw [grants_arena] at hholds
  have hout := Region.reset_holds ledger hholds hr
  refine ⟨⟨⟨hvalid.initial_pos, Nat.zero_le _⟩, hentries, hslots⟩, ?_⟩
  rw [grants_arena]
  exact hout

theorem Owns.insert (h : Owns ledger rest interner machine)
    (hi : interner.insert allocator hash bytes machine = (result, interner', machine')) :
    Owns ledger rest interner' machine' := by
  have hinsertion := insertion allocator interner hash bytes machine
  rw [hi] at hinsertion
  cases hinsertion with
  | full => exact h
  | tableExhausted _ ht => exact h.reserveOne ht
  | mapExhausted _ ht hm => exact (h.reserveOne ht).reserve hm
  | @arenaExhausted table map arena _ _ _ _ ht hm hd =>
    obtain ⟨⟨hvalid, hentries, hslots⟩, hholds⟩ := (h.reserveOne ht).reserve hm
    rw [grants_arena] at hholds
    have hout := Region.allocCopy_holds ledger hholds hd
    rw [← grants_arena ⟨arena, map, table⟩] at hout
    exact ⟨⟨hvalid, hentries, hslots⟩, hout⟩
  | @issued table map arena addr first second _ hcount ht hm hd =>
    obtain ⟨⟨hvalid, hentries, hslots⟩, hholds⟩ := (h.reserveOne ht).reserve hm
    rw [grants_arena] at hholds
    have hout := Region.allocCopy_holds ledger hholds hd
    have hreserved := SymbolTable.reserveOne_reserved h.sized.table ht
    have hroom : table.count < table.capacity := by
      have hroom := hreserved.room rfl
      rw [hreserved.same] at hroom ⊢
      exact hroom
    refine ⟨⟨⟨hvalid.initial_pos, ?_⟩, hentries, hslots⟩, ?_⟩
    · exact Nat.le_trans (Nat.le_of_eq (Array.size_push _)) hroom
    · rw [grants_arena]
      exact hout

theorem stepwise_owns (ledger : allocator.Ledger) (rest : Multiset Grant) :
    Stepwise allocator fun interner machine interner' machine' =>
      Owns ledger rest interner machine → Owns ledger rest interner' machine' where
  refl _ _ h := h
  trans hfirst hlater h := hlater (hfirst h)
  insert hi _ h := ⟨(h.insert hi).sized, (h.insert hi).holds⟩

theorem Owns.perform {op : Operation} {answer : Answer} (h : Owns ledger rest interner machine)
    (hp : op.perform contentHash allocator interner machine = (answer, interner', machine')) :
    Owns ledger rest interner' machine' := by
  cases op with
  | intern bytes | internText text | internCString bytes =>
    exact (stepwise_owns ledger rest).intern (Prod.ext rfl (Prod.mk.inj hp).2) h
  | internMany items =>
    exact (stepwise_owns ledger rest).internMany (Prod.ext rfl (Prod.mk.inj hp).2) h
  | get bytes | contains bytes | resolve symbol | count | list =>
    obtain ⟨rfl, rfl, rfl⟩ := hp
    exact h
  | clear =>
    obtain ⟨-, rfl, rfl⟩ := hp
    exact h.clear
  | deinit =>
    obtain ⟨-, rfl, rfl⟩ := hp
    exact h.deinit

theorem owns_create {anchor : Word} {loadFactor : LoadFactor} {capacity : Nat}
    {arenaLimit : Option Word} (h : ledger.holds rest machine.store) :
    Owns ledger rest (.create anchor loadFactor capacity arenaLimit) machine := by
  refine ⟨⟨⟨Nat.lt_of_lt_of_le Nat.zero_lt_one (Nat.le_max_right capacity 1), Nat.zero_le _⟩,
    fun hc => absurd rfl hc, fun hc => absurd rfl hc⟩, ?_⟩
  have hnone : (Interner.create anchor loadFactor capacity arenaLimit).grants = 0 := rfl
  rwa [hnone, zero_add]

/-- Making room at once either succeeds or gives everything back. -/
theorem Owns.presize {capacity : Nat} {made : Except InternFailure Interner}
    (h : Owns ledger rest interner machine)
    (hp : interner.presize allocator capacity machine = (made, machine')) :
    (∀ interner', made = .ok interner' → Owns ledger rest interner' machine') ∧
      ∀ failure, made = .error failure → ledger.holds rest machine'.store := by
  have hpresizing := hp ▸ presizing allocator interner capacity machine
  cases hpresizing with
  | nothing => exact ⟨fun _ he => Except.ok.inj he ▸ h, by simp⟩
  | tableExhausted ht => exact ⟨by simp, fun _ _ => deinit_holds (h.reserveOne ht).holds⟩
  | mapExhausted ht hm =>
    exact ⟨by simp, fun _ _ => deinit_holds ((h.reserveOne ht).reserve hm).holds⟩
  | made _ ht hm =>
    exact ⟨fun _ he => Except.ok.inj he ▸ (h.reserveOne ht).reserve hm, by simp⟩

variable {others : Multiset Grant → Machine σ → Machine σ → Prop} {start : Machine σ}
  {events : List (Operation × Answer)}

theorem Run.owns (hstart : ledger.holds rest start.store)
    (hothers : ∀ {mine machine machine'}, ledger.holds (mine + rest) machine.store →
      others mine machine machine' → ledger.holds (mine + rest) machine'.store)
    (run : Run contentHash allocator others start events interner machine) :
    Owns ledger rest interner machine := by
  induction run with
  | create => exact owns_create hstart
  | presize hp => exact ((owns_create hstart).presize hp).1 _ rfl
  | perform op run hp ih => exact ih.perform hp
  | others run ho ih => exact ⟨ih.sized, hothers ih.holds ho⟩

theorem Housed.holds {fresh : Machine σ} (h : ledger.holds 0 fresh.store)
    (housed : Housed allocator fresh home machine) :
    ledger.holds (granted home Object.internerLayout) machine.store := by
  cases housed with
  | plain => exact h
  | boxed hb =>
    rw [← add_zero (granted _ _)]
    exact ledger.box h hb

/-- Between any two operations the blocks out are the chunks of the arena, the slots, the entries
and the interner's own storage. Each goes back once, with the layout that it was handed out with. -/
theorem block_ledger {inner : Allocator σ} {fresh : Machine (Recorded σ)}
    (hfresh : fresh.store.calls = []) :
    (∀ {anchor loadFactor capacity arenaLimit failure machine},
      (Interner.create anchor loadFactor capacity arenaLimit).presize inner.recorded capacity fresh =
        (.error failure, machine) →
      Balanced machine.store.calls 0) ∧
    ∀ {contentHash home start events interner machine}, Housed inner.recorded fresh home start →
      Run contentHash inner.recorded
        (fun _ machine machine' => machine'.store.calls = machine.store.calls)
        start events interner machine →
      (∃ slots entries, interner.map.buffer.Block slots ∧ interner.table.buffer.Block entries ∧
        Balanced machine.store.calls
          (interner.arena.grants + slots + entries + granted home Object.internerLayout)) ∧
      Balanced (interner.deinit inner.recorded machine).2.store.calls
        (granted home Object.internerLayout) ∧
      Balanced (interner.drop inner.recorded home machine).store.calls 0 := by
  have hnone : inner.recordedLedger.holds 0 fresh.store := congrArg outstanding? hfresh
  constructor
  · intro anchor loadFactor capacity arenaLimit failure machine hp
    exact balanced (((owns_create hnone).presize hp).2 failure rfl)
  · intro contentHash home start events interner machine housed run
    have hstart : inner.recordedLedger.holds (granted home Object.internerLayout) start.store :=
      housed.holds hnone
    have howns : Owns inner.recordedLedger (granted home Object.internerLayout) interner machine :=
      run.owns hstart fun h ho => (congrArg outstanding? ho).trans h
    have hdrop : inner.recordedLedger.holds 0 (interner.drop inner.recorded home machine).store := by
      apply drop_holds
      rw [add_zero]
      exact howns.holds
    refine ⟨⟨_, _, Buffer.block_of_sized rfl rfl howns.sized.slots,
      Buffer.block_of_sized rfl rfl howns.sized.entries, balanced howns.holds⟩,
      balanced (deinit_holds howns.holds), balanced hdrop⟩

theorem block_ledger_moved_table :
    (∃ (interner : Interner) (machine : Machine (Recorded Platform)),
      machine.store.calls.head? =
        some (.realloc ⟨0x10000000a0, 16, .eight⟩ ⟨32, .eight⟩ (some 0x10000011b0)) ∧
      interner.map.capacity = 16 ∧ interner.table.capacity = 2 ∧
      (∃ slots entries, interner.map.buffer.Block slots ∧ interner.table.buffer.Block entries ∧
        Balanced machine.store.calls (interner.arena.grants + slots + entries +
          {⟨0x1000000000, Object.internerLayout⟩})) ∧
      Balanced (interner.drop Platform.fullWindow.recorded (some 0x1000000000) machine).store.calls
        0) ∧
    ∃ machine : Machine (Recorded Platform), machine.store.calls.length = 3 ∧
      Balanced machine.store.calls 0 := by
  constructor
  · have hhoused : Housed Platform.fullWindow.recorded { store := { inner := ⟨.ofCap 65536, {}⟩ } }
        (some 0x1000000000) _ := .boxed (Prod.ext rfl rfl)
    obtain ⟨hblocks, -, hdrop⟩ := (block_ledger rfl).2 hhoused
      (((Run.create 0x10000 .threeQuarters 1 none).perform (.intern [97])
        (rfl : Operation.perform _ (fun _ => 7) _ _ _ = _)).perform (.intern [98, 99]) rfl)
    exact ⟨_, _, rfl, rfl, rfl, hblocks, hdrop⟩
  · have hfailed : (Interner.create 0x10000 .threeQuarters 1 none).presize
        Platform.fullWindow.recorded 1 { store := { inner := ⟨.ofCap 20, {}⟩ } } =
          (.error (.mapExhausted 0), _) := Prod.ext rfl rfl
    exact ⟨_, rfl, (block_ledger rfl).1 hfailed⟩

end Interner

end ArenaMemory
