import Mathlib.Data.Multiset.Filter
import ArenaMemory.Interner.SymbolMap

namespace ArenaMemory

namespace SymbolMap

def taken (slots : Array Slot) : Multiset Slot :=
  (slots.toList.filter fun slot => !slot.isFree : List Slot)

def at? (slots : Array Slot) (start d : Nat) : Option Slot := slots[(start + d) % slots.size]?

def Occupied (slots : Array Slot) (start d : Nat) : Prop :=
  ∃ slot, at? slots start d = some slot ∧ slot.isFree = false

/-- Every taken slot is reached from its home through taken slots. -/
def Probed (slots : Array Slot) : Prop :=
  ∀ p slot, slots[p]? = some slot → slot.isFree = false →
    ∃ d < slots.size, (home slot.hash slots.size + d) % slots.size = p ∧
      ∀ e < d, Occupied slots (home slot.hash slots.size) e

variable {slots : Array Slot} {slot : Slot} {hash : UInt64} {holds : UInt32 → Bool} {id : UInt32}
  {start steps d p : Nat}

theorem mem_taken :
    slot ∈ taken slots ↔ ∃ p : Nat, slots[p]? = some slot ∧ slot.isFree = false := by
  rw [taken, Multiset.mem_coe, List.mem_filter, List.mem_iff_getElem?]
  simp

theorem at?_zero (h : start < slots.size) : at? slots start 0 = slots[start]? := by
  rw [at?, Nat.add_zero, Nat.mod_eq_of_lt h]

theorem at?_next : at? slots ((start + 1) % slots.size) d = at? slots start (d + 1) := by
  rw [at?, at?, Nat.mod_add_mod, Nat.add_assoc, Nat.add_comm 1]

theorem occupied_next :
    Occupied slots ((start + 1) % slots.size) d ↔ Occupied slots start (d + 1) := by
  rw [Occupied, Occupied, at?_next]

theorem next_lt (h : start < slots.size) : (start + 1) % slots.size < slots.size :=
  Nat.mod_lt _ (Nat.zero_lt_of_lt h)

theorem home_lt (h : 0 < slots.size) : home hash slots.size < slots.size := Nat.mod_lt _ h

/-- A walk as long as the array comes by every slot. -/
theorem exists_distance (hstart : start < slots.size) (hp : p < slots.size) :
    ∃ d < slots.size, (start + d) % slots.size = p := by
  obtain hlt | hge := Nat.lt_or_ge p start
  · refine ⟨p + slots.size - start, by omega, ?_⟩
    rw [show start + (p + slots.size - start) = p + slots.size by omega, Nat.add_mod_right,
      Nat.mod_eq_of_lt hp]
  · refine ⟨p - start, by omega, ?_⟩
    rw [Nat.add_sub_cancel' hge, Nat.mod_eq_of_lt hp]

theorem search_eq_some (h : search slots hash holds start steps = some id) :
    ∃ slot ∈ taken slots, slot.hash = hash ∧ slot.id = id ∧ holds id = true := by
  induction steps generalizing start with
  | zero => cases h
  | succ steps ih =>
    rw [search] at h
    cases hs : slots[start]? with
    | none => simp [hs] at h
    | some slot =>
      simp only [hs] at h
      split at h
      · cases h
      next hfree =>
        split at h
        next hmatch =>
          rw [Bool.and_eq_true, decide_eq_true_eq] at hmatch
          obtain rfl := Option.some.inj h
          exact ⟨slot, mem_taken.2 ⟨start, hs, by simpa using hfree⟩, hmatch.1, rfl, hmatch.2⟩
        · exact ih h

theorem search_eq_none (hstart : start < slots.size)
    (h : search slots hash holds start steps = none) (hd : d < steps)
    (hpath : ∀ e < d, Occupied slots start e) (hslot : at? slots start d = some slot)
    (htaken : slot.isFree = false) : ¬ (slot.hash = hash ∧ holds slot.id = true) := by
  induction steps generalizing start d with
  | zero => omega
  | succ steps ih =>
    rw [search] at h
    cases d with
    | zero =>
      rw [at?_zero hstart] at hslot
      rintro ⟨hhash, hholds⟩
      simp [hslot, htaken, hhash, hholds] at h
    | succ d =>
      obtain ⟨first, hfirst, hfree⟩ := hpath 0 (Nat.succ_pos d)
      rw [at?_zero hstart] at hfirst
      simp only [hfirst, hfree, Bool.false_eq_true, if_false] at h
      split at h
      · cases h
      · refine ih (next_lt hstart) h (by omega) (fun e he => ?_) (at?_next ▸ hslot)
        exact occupied_next.2 (hpath (e + 1) (by omega))

theorem firstFree_eq_some (hstart : start < slots.size) (h : firstFree slots start steps = some p) :
    ∃ d < steps,
      (start + d) % slots.size = p ∧ (∃ slot, slots[p]? = some slot ∧ slot.isFree = true) ∧
      ∀ e < d, Occupied slots start e := by
  induction steps generalizing start with
  | zero => cases h
  | succ steps ih =>
    rw [firstFree, Array.getElem?_eq_getElem hstart] at h
    dsimp only at h
    split at h
    next hfree =>
      obtain rfl := Option.some.inj h
      refine ⟨0, Nat.succ_pos _, Nat.mod_eq_of_lt hstart,
        ⟨_, Array.getElem?_eq_getElem hstart, hfree⟩, ?_⟩
      omega
    next hfree =>
      obtain ⟨d, hd, hp, hslot, hpath⟩ := ih (next_lt hstart) h
      refine ⟨d + 1, by omega, ?_, hslot, fun e he => ?_⟩
      · rw [← hp, Nat.mod_add_mod, Nat.add_assoc, Nat.add_comm 1]
      · cases e with
        | zero =>
          exact ⟨slots[start], by rw [at?_zero hstart, Array.getElem?_eq_getElem hstart],
            by simpa using hfree⟩
        | succ e => exact occupied_next.1 (hpath e (by omega))

theorem firstFree_eq_none (hstart : start < slots.size) (h : firstFree slots start steps = none)
    (hd : d < steps) : Occupied slots start d := by
  induction steps generalizing start d with
  | zero => omega
  | succ steps ih =>
    rw [firstFree, Array.getElem?_eq_getElem hstart] at h
    dsimp only at h
    split at h
    · cases h
    next hfree =>
      cases d with
      | zero =>
        exact ⟨slots[start], by rw [at?_zero hstart, Array.getElem?_eq_getElem hstart],
          by simpa using hfree⟩
      | succ d => exact occupied_next.1 (ih (next_lt hstart) h (by omega))

theorem exists_firstFree (hroom : (taken slots).card < slots.size) (hstart : start < slots.size) :
    ∃ p, firstFree slots start slots.size = some p := by
  rw [← Option.ne_none_iff_exists']
  intro hnone
  have hall : ∀ slot ∈ slots.toList, (!slot.isFree) = true := by
    intro slot hslot
    obtain ⟨p, hp, rfl⟩ := List.mem_iff_getElem.1 hslot
    rw [Array.length_toList] at hp
    obtain ⟨d, hd, he⟩ := exists_distance hstart hp
    obtain ⟨found, hfound, hfree⟩ := firstFree_eq_none hstart hnone hd
    rw [at?, he, Array.getElem?_eq_getElem hp] at hfound
    obtain rfl := Option.some.inj hfound
    rw [Array.getElem_toList, hfree, Bool.not_false]
  rw [taken, Multiset.coe_card, List.filter_eq_self.2 hall, Array.length_toList] at hroom
  omega

theorem filter_set {l : List Slot} {free : Slot} (hp : l[p]? = some free)
    (hfree : free.isFree = true) (htaken : slot.isFree = false) :
    (((l.set p slot).filter fun slot => !slot.isFree : List Slot) : Multiset Slot) =
      slot ::ₘ (l.filter fun slot => !slot.isFree : List Slot) := by
  induction l generalizing p with
  | nil => simp at hp
  | cons first l ih =>
    cases p with
    | zero =>
      obtain rfl := Option.some.inj hp
      simp [htaken, hfree]
    | succ p =>
      have hset := ih hp
      rw [List.set_cons_succ]
      by_cases hfirst : first.isFree = true
      · rw [List.filter_cons_of_neg (by simp [hfirst]), List.filter_cons_of_neg (by simp [hfirst]),
          hset]
      · rw [List.filter_cons_of_pos (by simp [hfirst]), List.filter_cons_of_pos (by simp [hfirst]),
          ← Multiset.cons_coe, hset, Multiset.cons_swap, Multiset.cons_coe]

/-- A slot that is put at the first free place is taken there, and every slot is still reached. -/
theorem place_spec (hprobed : Probed slots) (hroom : (taken slots).card < slots.size)
    (htaken : slot.isFree = false) :
    (place slots slot).size = slots.size ∧ Probed (place slots slot) ∧
      taken (place slots slot) = slot ::ₘ taken slots := by
  have hhome : home slot.hash slots.size < slots.size := home_lt (by omega)
  obtain ⟨p, hp⟩ := exists_firstFree hroom hhome
  obtain ⟨d, hd, hdp, ⟨free, hfree, hisFree⟩, hpath⟩ := firstFree_eq_some hhome hp
  have hlt : p < slots.size := (Array.getElem?_eq_some_iff.1 hfree).1
  have hplace : place slots slot = slots.setIfInBounds p slot := by rw [place, hp]
  have hsize : (slots.setIfInBounds p slot).size = slots.size := Array.size_setIfInBounds
  -- what was taken stays taken, since only a free slot is overwritten
  have hkept : ∀ start e, Occupied slots start e →
      Occupied (slots.setIfInBounds p slot) start e := by
    rintro start e ⟨other, hother, hofree⟩
    rw [at?] at hother
    by_cases hpe : p = (start + e) % slots.size
    · rw [← hpe, hfree, Option.some.injEq] at hother
      rw [← hother, hisFree] at hofree
      cases hofree
    · exact ⟨other, by rw [at?, hsize, Array.getElem?_setIfInBounds_ne hpe, hother], hofree⟩
  rw [hplace]
  refine ⟨hsize, fun q other hq hofree => ?_, ?_⟩
  · rw [hsize]
    by_cases hqp : p = q
    · subst hqp
      rw [Array.getElem?_setIfInBounds_self_of_lt hlt, Option.some.injEq] at hq
      subst hq
      exact ⟨d, hd, hdp, fun e he => hkept _ e (hpath e he)⟩
    · rw [Array.getElem?_setIfInBounds_ne hqp] at hq
      obtain ⟨c, hc, hcq, hcpath⟩ := hprobed q other hq hofree
      exact ⟨c, hc, hcq, fun e he => hkept _ e (hcpath e he)⟩
  · rw [taken, taken, Array.toList_setIfInBounds]
    exact filter_set (by rwa [Array.getElem?_toList]) hisFree htaken

theorem probed_replicate (count : Nat) : Probed (Array.replicate count {}) := by
  intro p slot hp hfree
  obtain ⟨hlt, he⟩ := Array.getElem?_eq_some_iff.1 hp
  rw [Array.getElem_replicate] at he
  subst he
  cases hfree

theorem taken_replicate (count : Nat) : taken (Array.replicate count {}) = 0 := by
  rw [taken, Array.toList_replicate, List.filter_replicate_of_neg (by decide)]
  rfl

def placeTaken (slots : Array Slot) (slot : Slot) : Array Slot :=
  if slot.isFree then slots else place slots slot

theorem foldl_placeTaken_spec (slots : Array Slot) (l : List Slot) (hprobed : Probed slots)
    (hroom : (taken slots).card + (l.filter fun slot => !slot.isFree).length < slots.size) :
    (l.foldl placeTaken slots).size = slots.size ∧ Probed (l.foldl placeTaken slots) ∧
      taken (l.foldl placeTaken slots) =
        taken slots + (l.filter fun slot => !slot.isFree : List Slot) := by
  induction l generalizing slots with
  | nil => exact ⟨rfl, hprobed, by simp⟩
  | cons slot l ih =>
    rw [List.foldl_cons, placeTaken]
    by_cases hfree : slot.isFree = true
    · rw [List.filter_cons_of_neg (by simp [hfree])] at hroom ⊢
      rw [if_pos hfree]
      exact ih slots hprobed hroom
    · rw [List.filter_cons_of_pos (by simp [hfree])] at hroom ⊢
      rw [if_neg hfree]
      rw [List.length_cons] at hroom
      obtain ⟨hsize, hplaced, htaken⟩ := place_spec hprobed (by omega) (by simpa using hfree)
      obtain ⟨hsize', hplaced', htaken'⟩ :=
        ih _ hplaced (by rw [hsize, htaken, Multiset.card_cons]; omega)
      refine ⟨hsize'.trans hsize, hplaced', ?_⟩
      rw [htaken', htaken, ← Multiset.cons_coe, Multiset.cons_add, Multiset.add_cons]

end SymbolMap

end ArenaMemory
