import ArenaMemory.Proofs.Interner.Copies
import ArenaMemory.Proofs.Interner.Presized
import ArenaMemory.Proofs.Region.Replay

namespace ArenaMemory

variable {σ : Type}

theorem Region.Valid.alloc_bytes {region : Region} {size : Word} (valid : region.Valid)
    (backing : Allocator σ) (machine : Machine σ) (hone : region.minAlign = .one)
    (hpos : 0 < size.toNat) (hroom : size.toNat ≤ region.current.remaining.toNat) :
    ∃ addr region', region.alloc backing ⟨size, .one⟩ machine = (some addr, region', machine) ∧
      region'.minAlign = .one ∧
      region'.current.remaining.toNat = region.current.remaining.toNat - size.toNat := by
  cases hchunks : region.chunks with
  | nil =>
    rw [current_of_nil hchunks] at hroom
    simp [Chunk.sentinel, Chunk.remaining] at hroom
    omega
  | cons newest older =>
    rw [current_of_cons hchunks] at hroom ⊢
    have hnewest := valid.chunks newest (by simp [hchunks])
    have hremaining : newest.remaining.toNat = newest.bump.toNat - newest.start.toNat :=
      UInt64.toNat_sub_of_le _ _ (UInt64.le_iff_toNat_le.2 hnewest.start_le_bump)
    have haddr : (newest.bump - size).toNat = newest.bump.toNat - size.toNat :=
      UInt64.toNat_sub_of_le _ _ (UInt64.le_iff_toNat_le.2 (by omega))
    have hc : newest.carve? region.minAlign ⟨size, .one⟩ = some (newest.bump - size) := by
      refine (Chunk.carve?_eq_some hnewest.start_le_bump hnewest.bump_aligned).2 ?_
      have hstrictest : (Alignment.one.strictest .one).bytes.toNat = 1 := rfl
      rw [hone]
      simp only [hstrictest, roundUp_eq Nat.zero_lt_one (Nat.one_dvd _),
        roundDown_eq (Nat.one_dvd _)]
      exact ⟨by omega, haddr⟩
    rw [← current_of_cons hchunks] at hc
    refine ⟨_, _, alloc_carved hpos hc, ?_, ?_⟩
    · rw [setCurrent_of_cons hchunks]
      exact hone
    · rw [setCurrent_of_cons hchunks, current_of_cons rfl, current_of_cons hchunks, hremaining]
      have hle : newest.start ≤ newest.bump - size :=
        UInt64.le_iff_toNat_le.2 (by omega)
      rw [Chunk.remaining, UInt64.toNat_sub_of_le _ _ hle]
      omega

theorem Region.remaining_reset (backing : Allocator σ) (region : Region) (machine : Machine σ)
    (hone : region.minAlign = .one) (hchunks : region.chunks ≠ []) :
    (region.reset backing machine).1.minAlign = .one ∧
      (region.reset backing machine).1.current.remaining = region.current.usable := by
  obtain ⟨newest, older, hcons⟩ := List.exists_cons_of_ne_nil hchunks
  have hfooter : Word.alignDown newest.footer Alignment.one.bytes = newest.footer := by
    rw [← UInt64.toNat_inj, Word.toNat_alignDown]
    exact roundDown_eq (Nat.one_dvd _)
  have hreset : (region.reset backing machine).1 = region.rewound newest := by
    rw [reset_of_cons hcons]
  rw [hreset, current_of_cons hcons]
  refine ⟨hone, ?_⟩
  rw [rewound, current_of_cons rfl, Chunk.remaining]
  simp only [Chunk.rewind, hone, hfooter]
  rw [Chunk.footer, UInt64.add_comm, UInt64.add_sub_cancel]

namespace Interner

variable {inner : Allocator σ} {contract : inner.recorded.Contract} {rest : Multiset Grant}
  {contentHash : ContentHash} {interner : Interner} {machine : Machine (Recorded σ)}
  {strings items : List (List UInt8)} {bytes : List UInt8} {room : Nat}

def copyBytes (items : List (List UInt8)) : Nat :=
  (items.map fun bytes => bytes.length + 1).sum

namespace Presized

/-- Where room was made in advance, a new byte string that is copied gets a symbol. -/
theorem intern_of_dup {addr : Word} {arena : Region} {machine' : Machine (Recorded σ)}
    (presized : interner.Presized room)
    (h : Refines contract rest contentHash interner machine strings) (hnew : bytes ∉ strings)
    (hroom : strings.length < room) (hsymbols : strings.length < maxSymbols)
    (hd : interner.arena.dup inner.recorded bytes machine = (some addr, arena, machine')) :
    ∃ symbol interner',
      interner.intern contentHash inner.recorded bytes machine =
        (.ok symbol, interner', machine') ∧
      interner'.arena = arena ∧ interner'.Presized room ∧
      Refines contract rest contentHash interner' machine' (strings ++ [bytes]) := by
  have hfew : interner.count < room := h.1.count_eq ▸ hroom
  have hinsert : interner.insert inner.recorded (contentHash bytes) bytes machine = _ :=
    insert_roomy (h.1.count_eq ▸ hsymbols) (Nat.lt_of_lt_of_le hfew presized.entries)
      (presized.count_eq ▸ Nat.le_trans hfew presized.slots)
  have hlookup : interner.lookup (contentHash bytes) bytes machine.memory = none :=
    h.1.lookup_eq_none.2 hnew
  rcases hi : interner.intern contentHash inner.recorded bytes machine with
    ⟨result, interner', served⟩
  have hissue := hi
  simp only [Interner.intern, hlookup, hinsert, hd] at hissue
  obtain ⟨rfl, rfl, rfl⟩ := hissue
  obtain ⟨strings', hissued, hrefines⟩ := intern_refines h hi
  refine ⟨_, _, rfl, rfl, (stepwise_presized inner room).intern hi presized, ?_⟩
  cases hissued with
  | present hget => exact absurd (List.mem_of_getElem? hget) hnew
  | appended => exact hrefines

theorem intern_ok (presized : interner.Presized room)
    (h : Refines contract rest contentHash interner machine strings)
    (hone : interner.arena.minAlign = .one) (hnew : bytes ∉ strings)
    (hroom : strings.length < room) (hsymbols : strings.length < maxSymbols)
    (hbytes : bytes.length + 1 ≤ interner.arena.current.remaining.toNat) :
    ∃ symbol interner' machine',
      interner.intern contentHash inner.recorded bytes machine =
        (.ok symbol, interner', machine') ∧
      interner'.Presized room ∧ interner'.arena.minAlign = .one ∧
      interner'.arena.current.remaining.toNat =
        interner.arena.current.remaining.toNat - (bytes.length + 1) ∧
      Refines contract rest contentHash interner' machine' (strings ++ [bytes]) := by
  have hlt := interner.arena.current.remaining.toNat_lt
  have hsize : (copyLayout bytes.length).size.toNat = bytes.length + 1 :=
    UInt64.toNat_ofNat_of_lt' (Nat.lt_of_le_of_lt hbytes hlt)
  obtain ⟨addr, arena, ha, harena, hremaining⟩ :=
    h.1.arena.alloc_bytes inner.recorded machine hone (hsize ▸ Nat.succ_pos _) (hsize ▸ hbytes)
  have hcount : Layout.ofCount? (bytes ++ [0]).length .one = some (copyLayout bytes.length) :=
    Layout.ofCount?_eq_some.2 ⟨by rw [hsize, List.length_append, List.length_singleton], rfl⟩
  obtain ⟨memory, hd, -⟩ := Region.allocCopy_of_alloc hcount ha
  obtain ⟨symbol, interner', hi, rfl, hpresized, hrefines⟩ :=
    presized.intern_of_dup h hnew hroom hsymbols hd
  exact ⟨symbol, interner', _, hi, hpresized, harena, hsize ▸ hremaining, hrefines⟩

theorem internMany_ok (presized : interner.Presized room)
    (h : Refines contract rest contentHash interner machine strings)
    (hone : interner.arena.minAlign = .one) (hnodup : (strings ++ items).Nodup)
    (hroom : strings.length + items.length ≤ room)
    (hsymbols : strings.length + items.length ≤ maxSymbols)
    (hbytes : copyBytes items ≤ interner.arena.current.remaining.toNat) :
    ∃ symbols interner' machine',
      interner.internMany contentHash inner.recorded items machine =
        (.ok symbols, interner', machine') ∧
      Refines contract rest contentHash interner' machine' (strings ++ items) := by
  induction items generalizing interner machine strings with
  | nil => exact ⟨_, _, _, rfl, (List.append_nil strings).symm ▸ h⟩
  | cons bytes items ih =>
    have hcopies : copyBytes (bytes :: items) = bytes.length + 1 + copyBytes items := by
      rw [copyBytes, List.map_cons, List.sum_cons, copyBytes]
    rw [List.append_cons] at hnodup
    rw [List.length_cons] at hroom hsymbols
    have hnew : bytes ∉ strings := fun hmem =>
      List.disjoint_of_nodup_append (List.nodup_append.1 hnodup).1 hmem (List.mem_singleton_self _)
    obtain ⟨symbol, next, served, hi, hpresized, harena, hremaining, hrefines⟩ :=
      presized.intern_ok h hone hnew (by omega) (by omega) (by omega)
    have hlength : (strings ++ [bytes]).length = strings.length + 1 := by
      rw [List.length_append, List.length_singleton]
    obtain ⟨symbols, last, after, hmany, hdone⟩ :=
      ih hpresized hrefines harena hnodup (by omega) (by omega) (by omega)
    refine ⟨symbol :: symbols, last, after, ?_, List.append_cons strings bytes items ▸ hdone⟩
    rw [Interner.internMany]
    simp only [hi, hmany]

end Presized

end Interner

end ArenaMemory
