import ArenaMemory.Interner.Basic
import ArenaMemory.Proofs.Interner.SymbolMap
import ArenaMemory.Proofs.Region.Copy

namespace ArenaMemory

namespace Memory

theorem take_read {memory : Memory} {addr : Word} {count : Nat} (n : Nat) (h : n ≤ count) :
    (memory.read addr count).take n = memory.read addr n := by
  rw [read, read, ← List.map_take, List.take_range, Nat.min_eq_left h]

end Memory

namespace Interner

def grants (interner : Interner) : Multiset Grant :=
  interner.arena.grants + interner.map.grants + interner.table.grants

section Grants

variable (interner : Interner) (rest : Multiset Grant)

theorem grants_arena : interner.grants + rest =
    interner.arena.grants + (interner.map.grants + interner.table.grants + rest) := by
  rw [grants, add_assoc, add_assoc, add_assoc]

theorem grants_map : interner.grants + rest =
    interner.map.grants + (interner.arena.grants + interner.table.grants + rest) := by
  rw [grants, add_assoc, add_assoc, add_assoc, add_left_comm]

theorem grants_table : interner.grants + rest =
    interner.table.grants + (interner.arena.grants + interner.map.grants + rest) := by
  rw [grants, add_comm (interner.arena.grants + interner.map.grants), add_assoc]

end Grants

/-- The slots of byte strings that are numbered by their places. -/
def slotsOf (hash : ContentHash) (strings : List (List UInt8)) : Multiset Slot :=
  (strings.zipIdx.map fun (bytes, i) => Slot.ofId (hash bytes) (UInt32.ofNat i) : List Slot)

/-- An entry points to a copy of the bytes, with a zero behind it. -/
structure Holds (arena : Region) (memory : Memory) (entry : Entry) (bytes : List UInt8) : Prop where
  length_eq : entry.length = bytes.length
  fits : ∃ layout : Layout, layout.size.toNat = bytes.length + 1 ∧ arena.InUse ⟨entry.addr, layout⟩
  reads : memory.read entry.addr (bytes.length + 1) = bytes ++ [0]

def hasBytes (interner : Interner) (memory : Memory) (bytes : List UInt8) (id : UInt32) : Bool :=
  match interner.table.get? id.toNat with
  | none => false
  | some entry => entry.length = bytes.length && entry.bytes memory = bytes

/-- The interner has issued symbols for these byte strings. -/
structure Represents (hash : ContentHash) (interner : Interner) (memory : Memory)
    (strings : List (List UInt8)) : Prop where
  nodup : strings.Nodup
  length_le : strings.length ≤ maxSymbols
  arena : interner.arena.Valid
  map : interner.map.Valid
  table : interner.table.Valid
  taken_eq : SymbolMap.taken interner.map.slots = slotsOf hash strings
  count_eq : interner.count = strings.length
  entries : ∀ i entry, interner.table.get? i = some entry →
    ∃ bytes, strings[i]? = some bytes ∧ Holds interner.arena memory entry bytes

variable {hash : ContentHash} {interner interner' : Interner} {memory memory' : Memory}
  {strings : List (List UInt8)} {bytes : List UInt8} {symbol : Symbol} {entry : Entry}
  {arena : Region} {slot : Slot} {i : Nat}

theorem Holds.bytes_eq (h : Holds arena memory entry bytes) : entry.bytes memory = bytes := by
  rw [Entry.bytes, h.length_eq, ← Memory.take_read bytes.length (Nat.le_succ _), h.reads,
    List.take_left]

/-- A copy stays what it is while its bytes do and no arena takes it back. -/
theorem Holds.carry {arena' : Region} (h : Holds arena memory entry bytes) (valid : arena.Valid)
    (hin : ∀ g, arena.InUse g → arena'.InUse g)
    (hagree : ∀ g, arena.InUse g → AgreeOn {g} memory memory') :
    Holds arena' memory' entry bytes := by
  obtain ⟨layout, hsize, hused⟩ := h.fits
  have hread := (hagree _ hused).read_eq (Multiset.mem_singleton_self _) (hused.bounded valid)
    (bytes.length + 1) (Nat.le_of_eq hsize.symm)
  exact ⟨h.length_eq, ⟨layout, hsize, hin _ hused⟩, hread.trans h.reads⟩

theorem mem_slotsOf : slot ∈ slotsOf hash strings ↔
    ∃ i bytes, strings[i]? = some bytes ∧ slot = Slot.ofId (hash bytes) (UInt32.ofNat i) := by
  rw [slotsOf, Multiset.mem_coe, List.mem_map]
  constructor
  · rintro ⟨⟨bytes, i⟩, hmem, rfl⟩
    exact ⟨i, bytes, List.mem_zipIdx_iff_getElem?.1 hmem, rfl⟩
  · rintro ⟨i, bytes, hget, rfl⟩
    exact ⟨(bytes, i), List.mem_zipIdx_iff_getElem?.2 hget, rfl⟩

theorem slotsOf_append : slotsOf hash (strings ++ [bytes]) =
    Slot.ofId (hash bytes) (UInt32.ofNat strings.length) ::ₘ slotsOf hash strings := by
  rw [slotsOf, slotsOf, List.zipIdx_append, List.map_append, ← Multiset.coe_add, add_comm]
  simp

namespace Represents

variable (rep : Represents hash interner memory strings)
include rep

theorem index_lt (h : strings[i]? = some bytes) : i < maxSymbols :=
  Nat.lt_of_lt_of_le (List.getElem?_eq_some_iff.1 h).1 rep.length_le

theorem toNat_index (h : strings[i]? = some bytes) : (UInt32.ofNat i).toNat = i :=
  UInt32.toNat_ofNat_of_lt' (Nat.lt_of_lt_of_le (rep.index_lt h) (by decide))

theorem exists_entry (h : strings[i]? = some bytes) :
    ∃ entry, interner.table.get? i = some entry ∧ Holds interner.arena memory entry bytes := by
  have hlt : i < interner.table.entries.size :=
    Nat.lt_of_lt_of_eq (List.getElem?_eq_some_iff.1 h).1 rep.count_eq.symm
  have hentry : interner.table.get? i = some interner.table.entries[i] :=
    Array.getElem?_eq_getElem hlt
  obtain ⟨found, hfound, hholds⟩ := rep.entries i _ hentry
  rw [h, Option.some.injEq] at hfound
  exact ⟨_, hentry, hfound ▸ hholds⟩

theorem hasBytes_iff (id : UInt32) :
    interner.hasBytes memory bytes id = true ↔ strings[id.toNat]? = some bytes := by
  rw [hasBytes]
  cases hentry : interner.table.get? id.toNat with
  | none =>
    simp only [Bool.false_eq_true, false_iff]
    intro hget
    obtain ⟨entry, hsome, -⟩ := rep.exists_entry hget
    rw [hentry] at hsome
    cases hsome
  | some entry =>
    obtain ⟨found, hfound, hholds⟩ := rep.entries _ entry hentry
    simp only [Bool.and_eq_true, decide_eq_true_eq, hholds.bytes_eq, hholds.length_eq, hfound,
      Option.some.injEq]
    exact ⟨And.right, fun h => ⟨congrArg List.length h, h⟩⟩

/-- A lookup finds exactly the place of the bytes, however hashes collide. -/
theorem lookup_eq_some : interner.lookup (hash bytes) bytes memory = some symbol ↔
    strings[symbol.index]? = some bytes := by
  rw [lookup, Option.map_eq_some_iff]
  constructor
  · rintro ⟨id, hfind, rfl⟩
    obtain ⟨slot, -, -, -, hholds⟩ := SymbolMap.find_eq_some hfind
    exact (rep.hasBytes_iff id).1 hholds
  · intro hget
    have hid : UInt32.ofNat symbol.index = symbol.id := UInt32.ofNat_toNat
    have hslot : Slot.ofId (hash bytes) symbol.id ∈ SymbolMap.taken interner.map.slots := by
      rw [rep.taken_eq]
      exact mem_slotsOf.2 ⟨symbol.index, bytes, hget, by rw [hid]⟩
    have hfound := SymbolMap.find_ne_none (interner.hasBytes memory bytes) rep.map.probed hslot
      rfl (by rw [Slot.id_ofId]; exact (rep.hasBytes_iff symbol.id).2 hget)
    obtain ⟨id, hfind⟩ := Option.ne_none_iff_exists'.1 hfound
    obtain ⟨-, -, -, -, hholds⟩ := SymbolMap.find_eq_some hfind
    have hplace := (rep.hasBytes_iff id).1 hholds
    have hsame : id.toNat = symbol.id.toNat :=
      (List.getElem?_inj (List.getElem?_eq_some_iff.1 hplace).1 rep.nodup).1
        (hplace.trans hget.symm)
    exact ⟨id, hfind, congrArg Symbol.mk (UInt32.toNat_inj.1 hsame)⟩

theorem lookup_eq_none : interner.lookup (hash bytes) bytes memory = none ↔ bytes ∉ strings := by
  constructor
  · intro hnone hmem
    obtain ⟨i, hget⟩ := List.mem_iff_getElem?.1 hmem
    have hsome : interner.lookup (hash bytes) bytes memory = some ⟨UInt32.ofNat i⟩ := by
      apply rep.lookup_eq_some.2
      rw [Symbol.index, rep.toNat_index hget]
      exact hget
    rw [hnone] at hsome
    cases hsome
  · intro hmem
    cases hl : interner.lookup (hash bytes) bytes memory with
    | none => rfl
    | some symbol => exact absurd (List.mem_of_getElem? (rep.lookup_eq_some.1 hl)) hmem

theorem resolve_eq_ok (h : strings[symbol.index]? = some bytes) :
    interner.resolve symbol memory = .ok bytes := by
  obtain ⟨entry, hentry, hholds⟩ := rep.exists_entry h
  rw [resolve, Interner.entry, hentry]
  exact congrArg Except.ok hholds.bytes_eq

theorem resolve_eq_error (h : strings.length ≤ symbol.index) :
    interner.resolve symbol memory = .error (.symbolOutOfRange symbol.id strings.length) := by
  have hnone : interner.table.get? symbol.index = none :=
    Array.getElem?_eq_none (Nat.le_trans (Nat.le_of_eq rep.count_eq) h)
  rw [resolve, Interner.entry, hnone, rep.count_eq]
  rfl

theorem toList_eq : interner.toList memory =
    strings.zipIdx.map fun (bytes, i) => (⟨UInt32.ofNat i⟩, bytes) := by
  apply List.ext_getElem?
  intro i
  rw [toList, List.getElem?_map, List.getElem?_map, List.getElem?_zipIdx, List.getElem?_zipIdx,
    Array.getElem?_toList]
  cases hget : strings[i]? with
  | none =>
    have hnone : interner.table.entries[i]? = none :=
      Array.getElem?_eq_none
        (Nat.le_trans (Nat.le_of_eq rep.count_eq) (List.getElem?_eq_none_iff.1 hget))
    rw [hnone]
    rfl
  | some bytes =>
    obtain ⟨entry, hentry, hholds⟩ := rep.exists_entry hget
    rw [show interner.table.entries[i]? = some entry from hentry]
    simp only [Option.map_some, hholds.bytes_eq]

theorem agree (h : AgreeOn interner.arena.grants memory memory') :
    Represents hash interner memory' strings :=
  { rep with
    entries := fun i entry hentry =>
      (rep.entries i entry hentry).imp fun _ hb =>
        ⟨hb.1, hb.2.carry rep.arena (fun _ hg => hg) fun _ hg => hg.agree rep.arena h⟩ }

end Represents

def append (hash : ContentHash) (interner : Interner) (arena : Region) (addr : Word)
    (bytes : List UInt8) : Interner :=
  ⟨arena, interner.map.insertUnique (hash bytes) (UInt32.ofNat interner.count),
    interner.table.push ⟨addr, bytes.length⟩⟩

theorem holds_of_copied {region : Region} {addr : Word}
    (h : Region.Copied region (bytes ++ [0]) memory addr arena memory') :
    Holds arena memory' ⟨addr, bytes.length⟩ bytes := by
  have hlength : (bytes ++ [0]).length = bytes.length + 1 := by
    rw [List.length_append, List.length_singleton]
  obtain ⟨layout, hsize, hin⟩ := h.fits
  have hreads := h.reads
  rw [hlength] at hsize hreads
  exact ⟨rfl, ⟨layout, hsize, hin⟩, hreads⟩

theorem Represents.append {addr : Word} (rep : Represents hash interner memory strings)
    (hnew : bytes ∉ strings) (hcount : interner.count < maxSymbols)
    (htable : interner.table.count < interner.table.capacity)
    (hmap : interner.map.count + 1 ≤ interner.map.loadFactor.threshold interner.map.capacity)
    (hcopied : Region.Copied interner.arena (bytes ++ [0]) memory addr arena memory') :
    Represents hash (interner.append hash arena addr bytes) memory' (strings ++ [bytes]) := by
  have hlast : interner.count = strings.length := rep.count_eq
  have hid : (UInt32.ofNat interner.count).toNat = interner.count :=
    UInt32.toNat_ofNat_of_lt' (Nat.lt_trans hcount (by decide))
  obtain ⟨hvalid, htaken⟩ := SymbolMap.insertUnique_spec (hash bytes) (UInt32.ofNat interner.count)
    rep.map hmap (by rwa [hid])
  have hpushed : (interner.append hash arena addr bytes).count = interner.count + 1 :=
    Array.size_push _
  refine
    { nodup := ?_
      length_le := ?_
      arena := hcopied.valid
      map := hvalid
      table := ⟨rep.table.initial_pos, Nat.le_trans (Nat.le_of_eq hpushed) htable⟩
      taken_eq := ?_
      count_eq := ?_
      entries := ?_ }
  · rw [← List.concat_eq_append]
    exact rep.nodup.concat hnew
  · rw [List.length_append, List.length_singleton, ← hlast]
    exact hcount
  · rw [slotsOf_append, ← hlast, ← rep.taken_eq]
    exact htaken
  · rw [hpushed, hlast, List.length_append, List.length_singleton]
  · intro i entry hentry
    rw [Interner.append, SymbolTable.get?, SymbolTable.push, Array.getElem?_push] at hentry
    split at hentry
    next hi =>
      obtain rfl := Option.some.inj hentry
      have hlength : i = strings.length := hi.trans hlast
      exact ⟨bytes, by rw [hlength, List.getElem?_concat_length], holds_of_copied hcopied⟩
    next hi =>
      obtain ⟨found, hfound, hholds⟩ := rep.entries i entry hentry
      refine ⟨found, ?_, hholds.carry rep.arena hcopied.inUse hcopied.keeps⟩
      rw [List.getElem?_append_left (List.getElem?_eq_some_iff.1 hfound).1, hfound]

structure Grown (interner interner' : Interner) : Prop where
  arena_eq : interner'.arena = interner.arena
  table_eq : interner'.table = { interner.table with buffer := interner'.table.buffer }
  map_eq : interner'.map =
    { interner.map with buffer := interner'.map.buffer, slots := interner'.map.slots }
  taken_eq : SymbolMap.taken interner'.map.slots = SymbolMap.taken interner.map.slots
  table_le : interner.table.capacity ≤ interner'.table.capacity
  map_le : interner.map.capacity ≤ interner'.map.capacity
  map : interner'.map.Valid

namespace Grown

theorem refl (h : interner.map.Valid) : Grown interner interner :=
  ⟨rfl, rfl, rfl, rfl, Nat.le_refl _, Nat.le_refl _, h⟩

theorem trans {interner'' : Interner} (h : Grown interner interner')
    (h' : Grown interner' interner'') :
    Grown interner interner'' where
  arena_eq := h'.arena_eq.trans h.arena_eq
  table_eq := by rw [h'.table_eq, h.table_eq]
  map_eq := by rw [h'.map_eq, h.map_eq]
  taken_eq := h'.taken_eq.trans h.taken_eq
  table_le := Nat.le_trans h.table_le h'.table_le
  map_le := Nat.le_trans h.map_le h'.map_le
  map := h'.map

theorem entries_eq (h : Grown interner interner') :
    interner'.table.entries = interner.table.entries := by
  rw [h.table_eq]

theorem count_eq (h : Grown interner interner') : interner'.count = interner.count :=
  congrArg Array.size h.entries_eq

theorem get?_eq (h : Grown interner interner') (i : Nat) :
    interner'.table.get? i = interner.table.get? i := by
  rw [SymbolTable.get?, SymbolTable.get?, h.entries_eq]

theorem represents (h : Grown interner interner') (rep : Represents hash interner memory strings)
    (hagree : AgreeOn interner.arena.grants memory memory') :
    Represents hash interner' memory' strings where
  nodup := rep.nodup
  length_le := rep.length_le
  arena := h.arena_eq ▸ rep.arena
  map := h.map
  table := by
    refine ⟨?_, ?_⟩
    · rw [h.table_eq]
      exact rep.table.initial_pos
    · have hcount : interner'.table.count = interner.table.count := h.count_eq
      rw [hcount]
      exact Nat.le_trans rep.table.count_le h.table_le
  taken_eq := h.taken_eq.trans rep.taken_eq
  count_eq := h.count_eq.trans rep.count_eq
  entries := by
    intro i entry hentry
    rw [h.get?_eq] at hentry
    rw [h.arena_eq]
    exact (rep.agree hagree).entries i entry hentry

end Grown

end Interner

end ArenaMemory
