import Mathlib.Algebra.Order.Group.Multiset
import ArenaMemory.Layout
import ArenaMemory.Proofs.Bytes

namespace ArenaMemory

/-- A block with the layout that it was handed out for. -/
structure Grant where
  addr : Word
  layout : Layout
deriving DecidableEq

def granted (result : Option Word) (layout : Layout) : Multiset Grant :=
  match result with
  | none => 0
  | some addr => {⟨addr, layout⟩}

@[simp]
theorem granted_none (layout : Layout) : granted none layout = 0 := rfl

@[simp]
theorem granted_some (addr : Word) (layout : Layout) :
    granted (some addr) layout = {⟨addr, layout⟩} := rfl

namespace Grant

def start (grant : Grant) : Nat := grant.addr.toNat

def stop (grant : Grant) : Nat := grant.addr.toNat + grant.layout.size.toNat

def Covers (grant : Grant) (a : Word) : Prop := grant.start ≤ a.toNat ∧ a.toNat < grant.stop

/-- No byte belongs to both blocks; an empty block is apart from every other. -/
def Apart (g h : Grant) : Prop :=
  g.stop ≤ h.start ∨ h.stop ≤ g.start ∨ g.stop = g.start ∨ h.stop = h.start

variable {g h k : Grant} {a : Word}

theorem start_le_stop (g : Grant) : g.start ≤ g.stop := Nat.le_add_right _ _

theorem Apart.symm (hg : g.Apart h) : h.Apart g := by
  simp only [Apart] at *
  omega

theorem apart_of_empty (hg : g.layout.size.toNat = 0) : g.Apart h :=
  .inr (.inr (.inl (by simp [stop, start, hg])))

theorem Apart.not_covers (hg : g.Apart h) (ha : g.Covers a) : ¬ h.Covers a := by
  simp only [Apart, Covers] at *
  omega

theorem Apart.within (hg : g.Apart h) (hstart : g.start ≤ k.start) (hstop : k.stop ≤ g.stop) :
    k.Apart h := by
  have := k.start_le_stop
  simp only [Apart] at *
  omega

/-- The bytes of a block that does not go around the end of the range are told by their distance
from its address. -/
theorem covers_iff (hg : g.stop ≤ 2 ^ 64) :
    g.Covers a ↔ (a - g.addr).toNat < g.layout.size.toNat := by
  have ha := a.toNat_lt
  have hd := g.addr.toNat_lt
  simp only [Covers, stop, start] at *
  rw [UInt64.toNat_sub]
  omega

structure Fresh (out : Multiset Grant) (grant : Grant) : Prop where
  addr_ne_zero : grant.addr ≠ 0
  aligned : grant.layout.align.bytes.toNat ∣ grant.start
  bounded : grant.stop ≤ 2 ^ 64
  apart : ∀ other ∈ out, grant.Apart other

theorem Fresh.mono {out out' : Multiset Grant} (h : Fresh out g) (hle : out' ≤ out) : Fresh out' g :=
  { h with apart := fun other ho => h.apart other (Multiset.mem_of_le hle ho) }

theorem Fresh.left {out rest : Multiset Grant} (h : Fresh (out + rest) g) : Fresh out g :=
  h.mono (Multiset.le_add_right out rest)

theorem Fresh.right {out rest : Multiset Grant} (h : Fresh (out + rest) g) : Fresh rest g :=
  h.mono (Multiset.le_add_left rest out)

theorem covers_add {i : Nat} (hg : g.stop ≤ 2 ^ 64) (hi : i < g.layout.size.toNat) :
    g.Covers (g.addr + UInt64.ofNat i) := by
  rw [covers_iff hg, Memory.toNat_offset (Nat.lt_trans hi g.layout.size.toNat_lt)]
  exact hi

end Grant

def AgreeOn (out : Multiset Grant) (memory memory' : Memory) : Prop :=
  ∀ g ∈ out, ∀ a, g.Covers a → memory'.get a = memory.get a

namespace AgreeOn

variable {out out' rest : Multiset Grant} {memory memory' memory'' : Memory} {g : Grant}

theorem refl (out : Multiset Grant) (memory : Memory) : AgreeOn out memory memory :=
  fun _ _ _ _ => rfl

theorem trans (h : AgreeOn out memory memory') (h' : AgreeOn out memory' memory'') :
    AgreeOn out memory memory'' :=
  fun g hg a ha => (h' g hg a ha).trans (h g hg a ha)

theorem mono (h : AgreeOn out memory memory') (hsub : out' ⊆ out) : AgreeOn out' memory memory' :=
  fun g hg => h g (hsub hg)

theorem left (h : AgreeOn (out + rest) memory memory') : AgreeOn out memory memory' :=
  h.mono (Multiset.subset_of_le (Multiset.le_add_right out rest))

theorem right (h : AgreeOn (out + rest) memory memory') : AgreeOn rest memory memory' :=
  h.mono (Multiset.subset_of_le (Multiset.le_add_left rest out))

theorem add (h : AgreeOn out memory memory') (h' : AgreeOn out' memory memory') :
    AgreeOn (out + out') memory memory' :=
  fun g hg => (Multiset.mem_add.1 hg).elim (h g) (h' g)

theorem write {bytes : List UInt8} (hbounded : g.stop ≤ 2 ^ 64)
    (hapart : ∀ other ∈ out, g.Apart other) (hlen : bytes.length ≤ g.layout.size.toNat) :
    AgreeOn out memory (memory.write g.addr bytes) := by
  intro other hother a ha
  have hout : ¬ (a - g.addr).toNat < g.layout.size.toNat := fun hlt =>
    (hapart other hother).not_covers ((Grant.covers_iff hbounded).2 hlt) ha
  have hsize := g.layout.size.toNat_lt
  rw [Memory.get_write (by omega), List.getElem?_eq_none (by omega), Option.getD_none]

theorem fill {bytes : List UInt8} (hf : 0 < g.layout.size.toNat → Grant.Fresh out g)
    (hlen : bytes.length ≤ g.layout.size.toNat) : AgreeOn out memory (memory.write g.addr bytes) := by
  obtain hzero | hpos := Nat.eq_zero_or_pos bytes.length
  · rw [List.length_eq_zero_iff.1 hzero]
    exact .refl out memory
  · have hfresh := hf (Nat.lt_of_lt_of_le hpos hlen)
    exact .write hfresh.bounded hfresh.apart hlen

theorem clear (hf : 0 < g.layout.size.toNat → Grant.Fresh out g) :
    AgreeOn out memory (memory.clear g.addr g.layout.size) := by
  intro other hother a ha
  have hout : ¬ (a - g.addr).toNat < g.layout.size.toNat := by
    intro hlt
    have hfresh := hf (Nat.zero_lt_of_lt hlt)
    exact (hfresh.apart other hother).not_covers ((Grant.covers_iff hfresh.bounded).2 hlt) ha
  rw [Memory.get_clear, if_neg (by rwa [UInt64.lt_iff_toNat_lt])]

theorem copy {source : Word} {count : Nat} (hbounded : g.stop ≤ 2 ^ 64)
    (hapart : ∀ other ∈ out, g.Apart other) (hlen : count ≤ g.layout.size.toNat) :
    AgreeOn out memory (memory.copy source g.addr count) :=
  write hbounded hapart (by rwa [Memory.length_read])

theorem read_eq (h : AgreeOn out memory memory') (hg : g ∈ out) (hbounded : g.stop ≤ 2 ^ 64)
    (count : Nat) (hlen : count ≤ g.layout.size.toNat) :
    memory'.read g.addr count = memory.read g.addr count :=
  Memory.read_congr fun _ hi =>
    h g hg _ (Grant.covers_add hbounded (Nat.lt_of_lt_of_le hi hlen))

end AgreeOn

end ArenaMemory
