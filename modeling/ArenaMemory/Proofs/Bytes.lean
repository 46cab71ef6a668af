import Std.Data.HashMap.Lemmas
import Mathlib.Tactic.Ring
import ArenaMemory.Memory

namespace ArenaMemory

namespace Memory

variable {memory memory' : Memory} {addr a : Word} {bytes : List UInt8} {count : Nat}

theorem get_set (byte : UInt8) :
    (memory.set addr byte).get a = if a = addr then byte else memory.get a := by
  simp only [get, set, Std.HashMap.getD_insert, beq_iff_eq, @eq_comm _ a]

/-- The next address is nearer by one, except from the address itself. -/
theorem toNat_sub_succ (h : a ≠ addr) : (a - addr).toNat = (a - (addr + 1)).toNat + 1 := by
  have ha := a.toNat_lt
  have hd := addr.toNat_lt
  have hne : a.toNat ≠ addr.toNat := fun he => h (UInt64.toNat_inj.1 he)
  rw [UInt64.toNat_sub, UInt64.toNat_sub, UInt64.toNat_add, UInt64.toNat_one]
  omega

theorem toNat_sub_succ_self : (addr - (addr + 1)).toNat = 2 ^ 64 - 1 := by
  have hd := addr.toNat_lt
  rw [UInt64.toNat_sub, UInt64.toNat_add, UInt64.toNat_one]
  omega

theorem toNat_offset {i : Nat} (hi : i < 2 ^ 64) : (addr + UInt64.ofNat i - addr).toNat = i := by
  rw [UInt64.add_comm, UInt64.add_sub_cancel]
  exact UInt64.toNat_ofNat_of_lt' hi

theorem get_write (hlen : bytes.length ≤ 2 ^ 64) :
    (memory.write addr bytes).get a = bytes[(a - addr).toNat]?.getD (memory.get a) := by
  induction bytes generalizing memory addr with
  | nil => simp [write]
  | cons byte bytes ih =>
    rw [List.length_cons] at hlen
    rw [write, ih (by omega), get_set]
    by_cases h : a = addr
    · subst h
      rw [toNat_sub_succ_self, UInt64.sub_self,
        List.getElem?_eq_none (show bytes.length ≤ 2 ^ 64 - 1 by omega)]
      simp
    · rw [toNat_sub_succ h, List.getElem?_cons_succ, if_neg h]

theorem getD_eraseFrom (cells : Std.HashMap Word UInt8) (hlen : count ≤ 2 ^ 64) :
    (eraseFrom cells addr count).getD a 0 =
      if (a - addr).toNat < count then 0 else cells.getD a 0 := by
  induction count generalizing cells addr with
  | zero => simp [eraseFrom]
  | succ count ih =>
    rw [eraseFrom, ih _ (by omega), Std.HashMap.getD_erase]
    by_cases h : a = addr
    · subst h
      simp
    · simp only [toNat_sub_succ h, Nat.add_lt_add_iff_right, beq_iff_eq, Ne.symm h, if_false]

theorem get_clear (size : Word) :
    (memory.clear addr size).get a = if a - addr < size then 0 else memory.get a := by
  rw [clear]
  split
  · rw [get, getD_eraseFrom _ (Nat.le_of_lt size.toNat_lt)]
    simp only [UInt64.lt_iff_toNat_lt, get]
  · rw [get, get, Std.HashMap.getD_filter', Std.HashMap.getD_eq_getD_getElem?]
    by_cases h : a - addr < size
    · simp [h, UInt64.not_le.2 h]
    · cases memory.cells[a]? <;> simp [Option.filter, h, UInt64.not_lt.1 h]

@[simp]
theorem length_read : (memory.read addr count).length = count := by
  simp [read]

theorem getElem?_read {i : Nat} (h : i < count) :
    (memory.read addr count)[i]? = some (memory.get (addr + UInt64.ofNat i)) := by
  simp [read, List.getElem?_range h]

theorem read_congr (h : ∀ i < count, memory'.get (addr + UInt64.ofNat i) =
    memory.get (addr + UInt64.ofNat i)) : memory'.read addr count = memory.read addr count := by
  rw [read]
  exact List.map_congr_left fun i hi => h i (List.mem_range.1 hi)

theorem read_write (hlen : bytes.length ≤ 2 ^ 64) :
    (memory.write addr bytes).read addr bytes.length = bytes := by
  apply List.ext_getElem?
  intro i
  by_cases hi : i < bytes.length
  · rw [getElem?_read hi, get_write hlen, toNat_offset (Nat.lt_of_lt_of_le hi hlen),
      List.getElem?_eq_getElem hi, Option.getD_some]
  · rw [List.getElem?_eq_none (by simpa using hi), List.getElem?_eq_none (by simpa using hi)]

theorem read_succ :
    memory.read addr (count + 1) = memory.get addr :: memory.read (addr + 1) count := by
  have hnext : ∀ i : Nat, addr + UInt64.ofNat (i + 1) = addr + 1 + UInt64.ofNat i := fun i => by
    rw [UInt64.ofNat_add, UInt64.add_comm (UInt64.ofNat i), ← UInt64.add_assoc]
    rfl
  simp only [read, List.range_succ_eq_map, List.map_cons, List.map_map, Function.comp_def, hnext]
  rw [show addr + UInt64.ofNat 0 = addr from UInt64.add_zero addr]

theorem scanForZero_eq {seen : List UInt8} {steps : Nat} (hsteps : bytes.length < steps)
    (h : memory.read addr (bytes.length + 1) = bytes ++ [0]) :
    memory.scanForZero addr seen steps = seen.reverse ++ bytes.takeWhile (· ≠ 0) := by
  induction bytes generalizing addr seen steps with
  | nil =>
    obtain ⟨steps, rfl⟩ := Nat.exists_eq_succ_of_ne_zero (Nat.ne_of_gt hsteps)
    rw [read_succ, List.nil_append, List.cons.injEq] at h
    rw [scanForZero, if_pos h.1, List.takeWhile_nil, List.append_nil]
  | cons byte bytes ih =>
    obtain ⟨steps, rfl⟩ := Nat.exists_eq_succ_of_ne_zero (Nat.ne_of_gt (Nat.zero_lt_of_lt hsteps))
    rw [List.length_cons, read_succ, List.cons_append, List.cons.injEq] at h
    obtain ⟨hbyte, hrest⟩ := h
    rw [scanForZero, hbyte]
    by_cases hzero : byte = 0
    · rw [if_pos hzero, List.takeWhile_cons_of_neg (by simpa using hzero), List.append_nil]
    · rw [if_neg hzero, ih (Nat.lt_of_succ_lt_succ hsteps) hrest, List.reverse_cons,
        List.append_assoc, List.singleton_append,
        List.takeWhile_cons_of_pos (by simpa using hzero)]

/-- Bytes with a zero behind them read as a C string up to their own first zero. -/
theorem cstring_eq (hlen : bytes.length < 2 ^ 64)
    (h : memory.read addr (bytes.length + 1) = bytes ++ [0]) :
    memory.cstring addr = bytes.takeWhile (· ≠ 0) :=
  scanForZero_eq hlen h

theorem get_copy {source target : Word} {i : Nat} (hi : i < count) (hcount : count ≤ 2 ^ 64) :
    (memory.copy source target count).get (target + UInt64.ofNat i) =
      memory.get (source + UInt64.ofNat i) := by
  rw [copy, get_write (by rwa [length_read]), toNat_offset (Nat.lt_of_lt_of_le hi hcount),
    getElem?_read hi, Option.getD_some]

end Memory

end ArenaMemory
