import ArenaMemory.Allocator.Basic
import ArenaMemory.Proofs.Allocator.Grant
import ArenaMemory.Proofs.Rounding

namespace ArenaMemory

variable {σ : Type}

namespace Allocator

/-- The grant after a block was to be moved: the old one when that was refused. -/
def moved (addr : Word) (old new : Layout) : Option Word → Grant
  | none => ⟨addr, old⟩
  | some fresh => ⟨fresh, new⟩

/-- A way to tell from the store which grants are out. A grant is given back with the address and
layout that it was handed out with. -/
structure Ledger (allocator : Allocator σ) where
  holds : Multiset Grant → σ → Prop
  alloc : ∀ {out layout machine result machine'}, holds out machine.store →
    allocator.alloc layout machine = (result, machine') →
    holds (granted result layout + out) machine'.store
  release : ∀ {out addr layout machine}, holds ({⟨addr, layout⟩} + out) machine.store →
    holds out (allocator.release addr layout machine).store
  nativeRealloc : ∀ {realloc}, allocator.nativeRealloc = some realloc →
    ∀ {out addr old new machine result machine'}, 0 < new.size.toNat →
      holds ({⟨addr, old⟩} + out) machine.store →
      realloc addr old new machine = (result, machine') →
      holds ({moved addr old new result} + out) machine'.store
  nativeZalloc : ∀ {zalloc}, allocator.nativeZalloc = some zalloc →
    ∀ {out layout machine result machine'}, holds out machine.store →
      zalloc layout machine = (result, machine') →
      holds (granted result layout + out) machine'.store

/-- A ledger with the promises about addresses. -/
structure Placement (allocator : Allocator σ) extends Ledger allocator where
  alloc_fresh : ∀ {out layout machine addr machine'}, holds out machine.store →
    0 < layout.size.toNat → allocator.alloc layout machine = (some addr, machine') →
    Grant.Fresh out ⟨addr, layout⟩
  realloc_fresh : ∀ {realloc}, allocator.nativeRealloc = some realloc →
    ∀ {out addr old new machine fresh machine'}, 0 < new.size.toNat →
      holds ({⟨addr, old⟩} + out) machine.store →
      realloc addr old new machine = (some fresh, machine') → Grant.Fresh out ⟨fresh, new⟩
  zalloc_fresh : ∀ {zalloc}, allocator.nativeZalloc = some zalloc →
    ∀ {out layout machine addr machine'}, holds out machine.store → 0 < layout.size.toNat →
      zalloc layout machine = (some addr, machine') → Grant.Fresh out ⟨addr, layout⟩

/-- The promises about addresses and those about bytes. -/
structure Contract (allocator : Allocator σ) extends Placement allocator where
  alloc_keeps : ∀ {out layout machine result machine'}, holds out machine.store →
    allocator.alloc layout machine = (result, machine') →
    AgreeOn out machine.memory machine'.memory
  release_keeps : ∀ {out addr layout machine}, holds ({⟨addr, layout⟩} + out) machine.store →
    AgreeOn out machine.memory (allocator.release addr layout machine).memory
  realloc_keeps : ∀ {realloc}, allocator.nativeRealloc = some realloc →
    ∀ {out addr old new machine result machine'}, 0 < new.size.toNat →
      holds ({⟨addr, old⟩} + out) machine.store →
      realloc addr old new machine = (result, machine') →
      AgreeOn out machine.memory machine'.memory
  realloc_refused : ∀ {realloc}, allocator.nativeRealloc = some realloc →
    ∀ {out addr old new machine machine'}, 0 < new.size.toNat →
      holds ({⟨addr, old⟩} + out) machine.store →
      realloc addr old new machine = (none, machine') →
      AgreeOn {⟨addr, old⟩} machine.memory machine'.memory
  realloc_moves : ∀ {realloc}, allocator.nativeRealloc = some realloc →
    ∀ {out addr old new machine fresh machine'}, 0 < new.size.toNat →
      holds ({⟨addr, old⟩} + out) machine.store →
      realloc addr old new machine = (some fresh, machine') →
      ∀ i < min old.size.toNat new.size.toNat,
        machine'.memory.get (fresh + UInt64.ofNat i) = machine.memory.get (addr + UInt64.ofNat i)
  zalloc_keeps : ∀ {zalloc}, allocator.nativeZalloc = some zalloc →
    ∀ {out layout machine result machine'}, holds out machine.store →
      zalloc layout machine = (result, machine') → AgreeOn out machine.memory machine'.memory
  zalloc_zeroes : ∀ {zalloc}, allocator.nativeZalloc = some zalloc →
    ∀ {out layout machine addr machine'}, holds out machine.store → 0 < layout.size.toNat →
      zalloc layout machine = (some addr, machine') →
      ∀ a, Grant.Covers ⟨addr, layout⟩ a → machine'.memory.get a = 0

/-- How a zeroed request ends: natively, or as a plain request whose block is cleared. -/
inductive Zeroing (allocator : Allocator σ) (layout : Layout) (machine : Machine σ) :
    Option Word × Machine σ → Prop where
  | native {zalloc result machine'} : allocator.nativeZalloc = some zalloc →
      zalloc layout machine = (result, machine') →
        Zeroing allocator layout machine (result, machine')
  | refused {machine'} : allocator.alloc layout machine = (none, machine') →
      Zeroing allocator layout machine (none, machine')
  | cleared {addr machine'} : allocator.alloc layout machine = (some addr, machine') →
      Zeroing allocator layout machine (some addr, machine'.mapMemory (·.clear addr layout.size))

inductive Moving (allocator : Allocator σ) (addr : Word) (old new : Layout) (machine : Machine σ) :
    Option Word × Machine σ → Prop where
  | native {realloc result machine'} : allocator.nativeRealloc = some realloc →
      realloc addr old new machine = (result, machine') →
      Moving allocator addr old new machine (result, machine')
  | refused {machine'} : allocator.alloc new machine = (none, machine') →
      Moving allocator addr old new machine (none, machine')
  | copied {fresh machine'} : allocator.alloc new machine = (some fresh, machine') →
      Moving allocator addr old new machine (some fresh, allocator.release addr old
        (machine'.mapMemory (·.copy addr fresh (min old.size new.size).toNat)))

inductive Boxing (allocator : Allocator σ) (layout : Layout) (init : Word → Memory → Memory)
    (machine : Machine σ) : Option Word × Machine σ → Prop where
  | refused {machine'} : allocator.alloc layout machine = (none, machine') →
      Boxing allocator layout init machine (none, machine')
  | written {addr machine'} : allocator.alloc layout machine = (some addr, machine') →
      Boxing allocator layout init machine (some addr, machine'.mapMemory (init addr))

variable {allocator : Allocator σ} {out : Multiset Grant} {layout old new : Layout} {addr : Word}
  {machine machine' : Machine σ} {result : Option Word}

theorem zeroing (allocator : Allocator σ) (layout : Layout) (machine : Machine σ) :
    Zeroing allocator layout machine (allocator.zalloc layout machine) := by
  rw [Allocator.zalloc]
  cases hnative : allocator.nativeZalloc with
  | some zalloc => exact .native hnative rfl
  | none =>
    dsimp only
    rcases ha : allocator.alloc layout machine with ⟨_ | addr, machine'⟩
    · exact .refused ha
    · exact .cleared ha

theorem moving (allocator : Allocator σ) (addr : Word) (old : Layout) (machine : Machine σ)
    (hnew : 0 < new.size.toNat) :
    Moving allocator addr old new machine (allocator.realloc (some addr) old new machine) := by
  have hne : new.size ≠ 0 := fun he => by simp [he] at hnew
  simp only [Allocator.realloc]
  cases hnative : allocator.nativeRealloc with
  | some realloc => exact .native hnative rfl
  | none =>
    dsimp only
    rw [if_neg hne]
    rcases ha : allocator.alloc new machine with ⟨_ | fresh, machine'⟩
    · exact .refused ha
    · exact .copied ha

theorem boxing (allocator : Allocator σ) (layout : Layout) (init : Word → Memory → Memory)
    (machine : Machine σ) :
    Boxing allocator layout init machine (allocator.box layout init machine) := by
  rw [Allocator.box]
  rcases ha : allocator.alloc layout machine with ⟨_ | addr, machine'⟩
  · exact .refused ha
  · exact .written ha

namespace Ledger

variable (ledger : allocator.Ledger)

theorem zalloc (h : ledger.holds out machine.store)
    (hz : allocator.zalloc layout machine = (result, machine')) :
    ledger.holds (granted result layout + out) machine'.store := by
  have hzeroing := hz ▸ zeroing allocator layout machine
  cases hzeroing with
  | native hnative hn => exact ledger.nativeZalloc hnative h hn
  | refused ha | cleared ha =>
    have hserved := ledger.alloc h ha
    exact hserved

theorem realloc (hnew : 0 < new.size.toNat)
    (h : ledger.holds ({⟨addr, old⟩} + out) machine.store)
    (hr : allocator.realloc (some addr) old new machine = (result, machine')) :
    ledger.holds ({moved addr old new result} + out) machine'.store := by
  have hmoving := hr ▸ moving allocator addr old machine hnew
  cases hmoving with
  | native hnative hn => exact ledger.nativeRealloc hnative hnew h hn
  | refused ha =>
    have hout := ledger.alloc h ha
    rwa [granted_none, zero_add] at hout
  | copied ha =>
    have hout := ledger.alloc h ha
    rw [granted_some, add_left_comm] at hout
    exact ledger.release hout

theorem box {init : Word → Memory → Memory} (h : ledger.holds out machine.store)
    (hb : allocator.box layout init machine = (result, machine')) :
    ledger.holds (granted result layout + out) machine'.store := by
  have hboxing := hb ▸ boxing allocator layout init machine
  cases hboxing with
  | refused ha => exact ledger.alloc h ha
  | written ha =>
    have hserved := ledger.alloc h ha
    exact hserved

theorem free {block : Option Word} (h : ledger.holds (granted block layout + out) machine.store) :
    ledger.holds out (allocator.free block layout machine).store := by
  cases block with
  | none => rwa [granted_none, zero_add] at h
  | some addr => exact ledger.release h

/-- The ledger of one client among others: its own grants are among those that are out. -/
def shared : allocator.Ledger where
  holds mine store := ∃ rest, ledger.holds (mine + rest) store
  alloc := by
    rintro mine layout machine result machine' ⟨rest, h⟩ ha
    exact ⟨rest, add_assoc _ mine rest ▸ ledger.alloc h ha⟩
  release := by
    rintro mine addr layout machine ⟨rest, h⟩
    exact ⟨rest, ledger.release (add_assoc _ mine rest ▸ h)⟩
  nativeRealloc := by
    rintro realloc hnative mine addr old new machine result machine' hnew ⟨rest, h⟩ hr
    exact ⟨rest,
      add_assoc _ mine rest ▸ ledger.nativeRealloc hnative hnew (add_assoc _ mine rest ▸ h) hr⟩
  nativeZalloc := by
    rintro zalloc hnative mine layout machine result machine' ⟨rest, h⟩ hz
    exact ⟨rest, add_assoc _ mine rest ▸ ledger.nativeZalloc hnative h hz⟩

/-- The ledger of a client beside which certain blocks stay out. -/
def beside (rest : Multiset Grant) : allocator.Ledger where
  holds mine store := ledger.holds (mine + rest) store
  alloc := by
    intro out layout machine result machine' h ha
    exact add_assoc _ out rest ▸ ledger.alloc h ha
  release h := ledger.release (add_assoc _ _ rest ▸ h)
  nativeRealloc := by
    intro realloc hnative out addr old new machine result machine' hnew h hr
    exact add_assoc _ out rest ▸ ledger.nativeRealloc hnative hnew (add_assoc _ out rest ▸ h) hr
  nativeZalloc := by
    intro zalloc hnative out layout machine result machine' h hz
    exact add_assoc _ out rest ▸ ledger.nativeZalloc hnative h hz

theorem holds_of_beside {g : Grant} {mine rest : Multiset Grant} {store : σ}
    (h : (ledger.beside rest).holds ({g} + mine) store) : ledger.holds ({g} + (mine + rest)) store :=
  add_assoc {g} mine rest ▸ h

theorem beside_of_holds {mine rest : Multiset Grant} {store : σ}
    (h : ledger.holds (mine + rest) store) : (ledger.beside rest).holds (mine + 0) store :=
  (add_zero mine).symm ▸ h

structure Keeps (kept : Multiset Grant) : Prop where
  alloc : ∀ {out layout machine result machine'}, ledger.holds out machine.store →
    allocator.alloc layout machine = (result, machine') →
    AgreeOn kept machine.memory machine'.memory
  release : ∀ {out addr layout machine}, ledger.holds ({⟨addr, layout⟩} + out) machine.store →
    AgreeOn kept machine.memory (allocator.release addr layout machine).memory
  realloc : ∀ {out addr old new machine result machine'}, 0 < new.size.toNat →
    ledger.holds ({⟨addr, old⟩} + out) machine.store →
    allocator.realloc (some addr) old new machine = (result, machine') →
    AgreeOn kept machine.memory machine'.memory
  zalloc : ∀ {out layout machine result machine'}, ledger.holds out machine.store →
    allocator.zalloc layout machine = (result, machine') →
    AgreeOn kept machine.memory machine'.memory

variable {ledger} in
theorem Keeps.free {kept : Multiset Grant} {block : Option Word} (keeps : ledger.Keeps kept)
    (h : ledger.holds (granted block layout + out) machine.store) :
    AgreeOn kept machine.memory (allocator.free block layout machine).memory := by
  cases block with
  | none => exact .refl _ _
  | some addr => exact keeps.release h

end Ledger

namespace Placement

variable (placement : allocator.Placement)

theorem fresh_of_zalloc (hpos : 0 < layout.size.toNat) (h : placement.holds out machine.store)
    (hz : allocator.zalloc layout machine = (some addr, machine')) :
    Grant.Fresh out ⟨addr, layout⟩ := by
  have hzeroing := hz ▸ zeroing allocator layout machine
  cases hzeroing with
  | native hnative hn => exact placement.zalloc_fresh hnative h hpos hn
  | cleared ha => exact placement.alloc_fresh h hpos ha

/-- Composed or native, moving a block answers with one that is apart from all others. -/
theorem fresh_of_realloc {fresh : Word} (hnew : 0 < new.size.toNat)
    (h : placement.holds ({⟨addr, old⟩} + out) machine.store)
    (hr : allocator.realloc (some addr) old new machine = (some fresh, machine')) :
    Grant.Fresh out ⟨fresh, new⟩ := by
  have hmoving := hr ▸ moving allocator addr old machine hnew
  cases hmoving with
  | native hnative hn => exact placement.realloc_fresh hnative hnew h hn
  | copied ha => exact (placement.alloc_fresh h hnew ha).right

def shared : allocator.Placement where
  toLedger := placement.toLedger.shared
  alloc_fresh := by
    rintro mine layout machine addr machine' ⟨rest, h⟩ hpos ha
    exact (placement.alloc_fresh h hpos ha).left
  realloc_fresh := by
    rintro realloc hnative mine addr old new machine fresh machine' hnew ⟨rest, h⟩ hr
    exact (placement.realloc_fresh hnative hnew (add_assoc _ mine rest ▸ h) hr).left
  zalloc_fresh := by
    rintro zalloc hnative mine layout machine addr machine' ⟨rest, h⟩ hpos hz
    exact (placement.zalloc_fresh hnative h hpos hz).left

end Placement

namespace Contract

variable (contract : allocator.Contract)

theorem zalloc_agree (h : contract.holds out machine.store)
    (hz : allocator.zalloc layout machine = (result, machine')) :
    AgreeOn out machine.memory machine'.memory := by
  have hzeroing := hz ▸ zeroing allocator layout machine
  cases hzeroing with
  | native hnative hn => exact contract.zalloc_keeps hnative h hn
  | refused ha => exact contract.alloc_keeps h ha
  | @cleared addr _ ha =>
    have hfresh : 0 < layout.size.toNat → Grant.Fresh out ⟨addr, layout⟩ :=
      fun hpos => contract.alloc_fresh h hpos ha
    exact (contract.alloc_keeps h ha).trans (.clear (g := ⟨addr, layout⟩) hfresh)

theorem zero_of_zalloc (hpos : 0 < layout.size.toNat) (h : contract.holds out machine.store)
    (hz : allocator.zalloc layout machine = (some addr, machine')) (a : Word)
    (ha : Grant.Covers ⟨addr, layout⟩ a) : machine'.memory.get a = 0 := by
  have hzeroing := hz ▸ zeroing allocator layout machine
  cases hzeroing with
  | native hnative hn => exact contract.zalloc_zeroes hnative h hpos hn a ha
  | cleared hserved =>
    have hbounded := (contract.alloc_fresh h hpos hserved).bounded
    rw [Grant.covers_iff hbounded, ← UInt64.lt_iff_toNat_lt] at ha
    rw [Machine.mapMemory, Memory.get_clear, if_pos ha]

theorem realloc_agree (hnew : 0 < new.size.toNat)
    (h : contract.holds ({⟨addr, old⟩} + out) machine.store)
    (hr : allocator.realloc (some addr) old new machine = (result, machine')) :
    AgreeOn out machine.memory machine'.memory := by
  have hmoving := hr ▸ moving allocator addr old machine hnew
  cases hmoving with
  | native hnative hn => exact contract.realloc_keeps hnative hnew h hn
  | refused ha => exact (contract.alloc_keeps h ha).right
  | @copied fresh served ha =>
    have hfresh := contract.alloc_fresh h hnew ha
    have hserved := (contract.alloc_keeps h ha).right
    have hcopied : AgreeOn out served.memory
        (served.memory.copy addr fresh (min old.size new.size).toNat) :=
      .copy (g := ⟨fresh, new⟩) hfresh.bounded
        (fun other ho => hfresh.apart other (Multiset.mem_add.2 (.inr ho)))
        (Word.toNat_min ▸ Nat.min_le_right _ _)
    have hout := contract.alloc h ha
    rw [granted_some, add_left_comm] at hout
    have hreleased : AgreeOn _ (served.memory.copy addr fresh (min old.size new.size).toNat)
        (allocator.release addr old
          (served.mapMemory (·.copy addr fresh (min old.size new.size).toNat))).memory :=
      contract.release_keeps hout
    exact (hserved.trans hcopied).trans hreleased.right

theorem agree_of_unmoved (hnew : 0 < new.size.toNat)
    (h : contract.holds ({⟨addr, old⟩} + out) machine.store)
    (hr : allocator.realloc (some addr) old new machine = (none, machine')) :
    AgreeOn {⟨addr, old⟩} machine.memory machine'.memory := by
  have hmoving := hr ▸ moving allocator addr old machine hnew
  cases hmoving with
  | native hnative hn => exact contract.realloc_refused hnative hnew h hn
  | refused ha => exact (contract.alloc_keeps h ha).left

/-- Composed or native, a block that is moved takes along the bytes that both layouts have room
for. -/
theorem bytes_of_moved {fresh : Word} (hnew : 0 < new.size.toNat)
    (hbounded : 0 < old.size.toNat → Grant.stop ⟨addr, old⟩ ≤ 2 ^ 64)
    (h : contract.holds ({⟨addr, old⟩} + out) machine.store)
    (hr : allocator.realloc (some addr) old new machine = (some fresh, machine')) :
    ∀ i < min old.size.toNat new.size.toNat,
      machine'.memory.get (fresh + UInt64.ofNat i) =
        machine.memory.get (addr + UInt64.ofNat i) := by
  have hmoving := hr ▸ moving allocator addr old machine hnew
  cases hmoving with
  | native hnative hn => exact contract.realloc_moves hnative hnew h hn
  | @copied _ served ha =>
    intro i hi
    obtain ⟨hold, hin⟩ := Nat.lt_min.1 hi
    have hmin : (min old.size new.size).toNat = min old.size.toNat new.size.toNat :=
      Word.toNat_min
    have hserved : served.memory.get (addr + UInt64.ofNat i) =
        machine.memory.get (addr + UInt64.ofNat i) :=
      (contract.alloc_keeps h ha).left _ (Multiset.mem_singleton_self _) _
        (Grant.covers_add (hbounded (Nat.zero_lt_of_lt hold)) hold)
    have hout := contract.alloc h ha
    rw [granted_some, add_left_comm] at hout
    have hreleased : AgreeOn _ (served.memory.copy addr fresh (min old.size new.size).toNat)
        (allocator.release addr old
          (served.mapMemory (·.copy addr fresh (min old.size new.size).toNat))).memory :=
      contract.release_keeps hout
    rw [hreleased.left _ (Multiset.mem_singleton_self _) _
      (Grant.covers_add (contract.alloc_fresh h hnew ha).bounded hin), ← hserved]
    exact Memory.get_copy (hmin ▸ hi) (hmin ▸ Nat.le_trans (Nat.min_le_left _ _)
      (Nat.le_of_lt old.size.toNat_lt))

theorem keeps (rest : Multiset Grant) : (contract.toLedger.beside rest).Keeps rest where
  alloc h ha := (contract.alloc_keeps h ha).right
  release h := (contract.release_keeps (contract.holds_of_beside h)).right
  realloc hnew h hr := (contract.realloc_agree hnew (contract.holds_of_beside h) hr).right
  zalloc h hz := (contract.zalloc_agree h hz).right

def shared : allocator.Contract where
  toPlacement := contract.toPlacement.shared
  alloc_keeps := by
    rintro mine layout machine result machine' ⟨rest, h⟩ ha
    exact (contract.alloc_keeps h ha).left
  release_keeps := by
    rintro mine addr layout machine ⟨rest, h⟩
    exact (contract.release_keeps (add_assoc _ mine rest ▸ h)).left
  realloc_keeps := by
    rintro realloc hnative mine addr old new machine result machine' hnew ⟨rest, h⟩ hr
    exact (contract.realloc_keeps hnative hnew (add_assoc _ mine rest ▸ h) hr).left
  realloc_refused := by
    rintro realloc hnative mine addr old new machine machine' hnew ⟨rest, h⟩ hr
    exact contract.realloc_refused hnative hnew (add_assoc _ mine rest ▸ h) hr
  realloc_moves := by
    rintro realloc hnative mine addr old new machine fresh machine' hnew ⟨rest, h⟩ hr
    exact contract.realloc_moves hnative hnew (add_assoc _ mine rest ▸ h) hr
  zalloc_keeps := by
    rintro zalloc hnative mine layout machine result machine' ⟨rest, h⟩ hz
    exact (contract.zalloc_keeps hnative h hz).left
  zalloc_zeroes := by
    rintro zalloc hnative mine layout machine addr machine' ⟨rest, h⟩ hpos hz
    exact contract.zalloc_zeroes hnative h hpos hz

end Contract

/-- What others may do while some blocks are out: what leaves them out and their bytes as they are.
-/
def Contract.Aside {allocator : Allocator σ} (contract : allocator.Contract)
    (mine : Multiset Grant) (machine machine' : Machine σ) : Prop :=
  contract.holds mine machine'.store ∧ AgreeOn mine machine.memory machine'.memory

end Allocator

end ArenaMemory
