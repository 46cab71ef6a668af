import Mathlib.Data.List.Pairwise
import ArenaMemory.Region.Basic
import ArenaMemory.Proofs.Allocator.Contract
import ArenaMemory.Proofs.Region.Chunk

namespace ArenaMemory

variable {σ : Type}

namespace Region

/-- The blocks that the region has out at its backing allocator. -/
def grants (region : Region) : Multiset Grant := (region.chunks.map Chunk.grant : List Grant)

def freshChunk (region : Region) (start usable : Word) (layout : Layout) : Chunk :=
  Chunk.rewind ⟨start, usable, layout, start, Word.saturatingAdd region.allocated usable⟩
    region.minAlign

def growthAlign (region : Region) (layout : Layout) : Alignment :=
  (chunkAlign.strictest region.minAlign).strictest layout.align

def push (region : Region) (chunk : Chunk) : Region :=
  { region with chunks := chunk :: region.chunks }

/-- How a request ends that the newest chunk has no room for. -/
inductive Growth (backing : Allocator σ) (region : Region) (layout : Layout) (machine : Machine σ) :
    Option Word × Region × Machine σ → Prop where
  | overflow : region.nextUsable layout = .error .overflow →
      Growth backing region layout machine (none, region, machine)
  | limited {limit allocated} : region.nextUsable layout = .error (.limit limit allocated) →
      Growth backing region layout machine
        (none, region, machine.emit (.limitReached layout.size limit allocated))
  | unplanned {usable} : region.nextUsable layout = .ok usable →
      Chunk.plan? usable (region.growthAlign layout) = none →
      Growth backing region layout machine (none, region, machine)
  | denied {usable usable' chunkLayout machine'} : region.nextUsable layout = .ok usable →
      Chunk.plan? usable (region.growthAlign layout) = some (usable', chunkLayout) →
      backing.alloc chunkLayout machine = (none, machine') →
      Growth backing region layout machine (none, region, machine')
  | wasted {usable usable' chunkLayout start machine'} : region.nextUsable layout = .ok usable →
      Chunk.plan? usable (region.growthAlign layout) = some (usable', chunkLayout) →
      backing.alloc chunkLayout machine = (some start, machine') →
      (region.freshChunk start usable' chunkLayout).carve? region.minAlign layout = none →
      Growth backing region layout machine
        (none, region.push (region.freshChunk start usable' chunkLayout),
          machine'.emit (.chunkAcquired chunkLayout.size (region.growthAlign layout).bytes
            (Word.saturatingAdd region.allocated usable')))
  | served {usable usable' chunkLayout start machine' addr} :
      region.nextUsable layout = .ok usable →
      Chunk.plan? usable (region.growthAlign layout) = some (usable', chunkLayout) →
      backing.alloc chunkLayout machine = (some start, machine') →
      (region.freshChunk start usable' chunkLayout).carve? region.minAlign layout = some addr →
      Growth backing region layout machine
        (some addr, region.push { region.freshChunk start usable' chunkLayout with bump := addr },
          machine'.emit (.chunkAcquired chunkLayout.size (region.growthAlign layout).bytes
            (Word.saturatingAdd region.allocated usable')))

inductive Outcome (backing : Allocator σ) (region : Region) (layout : Layout)
    (machine : Machine σ) :
    Option Word × Region × Machine σ → Prop where
  | empty : layout.size = 0 →
      Outcome backing region layout machine
        (some (region.current.emptyBlock layout.align), region, machine)
  | carved {addr} : layout.size ≠ 0 → region.current.carve? region.minAlign layout = some addr →
      Outcome backing region layout machine
        (some addr, region.setCurrent { region.current with bump := addr }, machine)
  | slow {out} : layout.size ≠ 0 → region.current.carve? region.minAlign layout = none →
      Growth backing region layout machine out → Outcome backing region layout machine out

theorem allocSlow_growth (backing : Allocator σ) (region : Region) (layout : Layout)
    (machine : Machine σ) :
    Growth backing region layout machine (region.allocSlow backing layout machine) := by
  rw [allocSlow]
  split
  next hn => exact .overflow hn
  next hn => exact .limited hn
  next usable hn =>
    simp only [grow]
    cases hp : Chunk.plan? usable (region.growthAlign layout) with
    | none =>
      simp only [growthAlign] at hp
      rw [hp]
      exact .unplanned hn hp
    | some plan =>
      obtain ⟨usable', chunkLayout⟩ := plan
      rcases ha : backing.alloc chunkLayout machine with ⟨_ | start, machine'⟩
      · simp only [growthAlign] at hp
        simp only [hp, ha]
        exact .denied hn hp ha
      · have hp' := hp
        simp only [growthAlign] at hp
        simp only [hp, ha, bump?]
        cases hc : (region.freshChunk start usable' chunkLayout).carve? region.minAlign layout with
        | none =>
          have hg := Growth.wasted hn hp' ha hc
          simp only [freshChunk] at hc hg
          simp only [current, List.headD_cons, hc]
          exact hg
        | some addr =>
          have hg := Growth.served hn hp' ha hc
          simp only [freshChunk] at hc hg
          simp only [current, List.headD_cons, hc]
          exact hg

theorem allocSlow_served {backing : Allocator σ} {region : Region} {layout chunkLayout : Layout}
    {machine machine' : Machine σ} {usable usable' start addr : Word}
    (hn : region.nextUsable layout = .ok usable)
    (hp : Chunk.plan? usable (region.growthAlign layout) = some (usable', chunkLayout))
    (ha : backing.alloc chunkLayout machine = (some start, machine'))
    (hc : (region.freshChunk start usable' chunkLayout).carve? region.minAlign layout = some addr) :
    ∃ machine'', region.allocSlow backing layout machine =
      (some addr, region.push { region.freshChunk start usable' chunkLayout with bump := addr },
        machine'') := by
  simp only [growthAlign] at hp
  simp only [freshChunk] at hc
  simp only [allocSlow, hn, grow, hp, ha, bump?, current, List.headD_cons, hc]
  exact ⟨_, rfl⟩

theorem alloc_outcome (backing : Allocator σ) (region : Region) (layout : Layout)
    (machine : Machine σ) :
    Outcome backing region layout machine (region.alloc backing layout machine) := by
  rw [alloc, bump?]
  split
  next hsize => exact .empty hsize
  next hsize =>
    cases hc : region.current.carve? region.minAlign layout with
    | none => exact .slow hsize hc (allocSlow_growth backing region layout machine)
    | some addr => exact .carved hsize hc

theorem bump?_eq_none {region : Region} {layout : Layout} : region.bump? layout = none ↔
    region.current.carve? region.minAlign layout = none := by
  rw [bump?]
  cases region.current.carve? region.minAlign layout <;> simp

theorem alloc_eq_allocSlow {backing : Allocator σ} {region : Region} {layout : Layout}
    {machine : Machine σ} (hpos : 0 < layout.size.toNat) (hfull : region.bump? layout = none) :
    region.alloc backing layout machine = region.allocSlow backing layout machine := by
  have hne : layout.size ≠ 0 := UInt64.pos_iff_ne_zero.1 hpos
  rw [alloc, if_neg hne, hfull]

theorem alloc_empty {backing : Allocator σ} {region : Region} {layout : Layout} {machine : Machine σ}
    (hsize : layout.size = 0) : region.alloc backing layout machine =
      (some (region.current.emptyBlock layout.align), region, machine) := by
  rw [alloc, if_pos hsize]

theorem alloc_carved {backing : Allocator σ} {region : Region} {layout : Layout}
    {machine : Machine σ} {addr : Word} (hpos : 0 < layout.size.toNat)
    (hc : region.current.carve? region.minAlign layout = some addr) :
    region.alloc backing layout machine =
      (some addr, region.setCurrent { region.current with bump := addr }, machine) := by
  have hne : layout.size ≠ 0 := UInt64.pos_iff_ne_zero.1 hpos
  rw [alloc, if_neg hne, bump?, hc]

structure Valid (region : Region) : Prop where
  chunks : ∀ chunk ∈ region.chunks, chunk.Valid region.minAlign
  apart : region.chunks.Pairwise fun c d => c.grant.Apart d.grant

/-- The block lies among the bytes that a chunk has handed out. -/
def InUse (region : Region) (grant : Grant) : Prop :=
  ∃ chunk ∈ region.chunks, chunk.bump.toNat ≤ grant.start ∧ grant.stop ≤ chunk.footer.toNat

variable {backing : Allocator σ} {region region' : Region} {layout : Layout} {rest : Multiset Grant}
  {machine machine' : Machine σ} {result : Option Word}

theorem current_of_nil (hnil : region.chunks = []) : region.current = .sentinel region.anchor := by
  rw [current, hnil, List.headD_nil]

theorem current_of_cons {newest : Chunk} {older : List Chunk}
    (hcons : region.chunks = newest :: older) : region.current = newest := by
  rw [current, hcons, List.headD_cons]

theorem setCurrent_of_cons {newest : Chunk} {older : List Chunk}
    (hcons : region.chunks = newest :: older) (chunk : Chunk) :
    region.setCurrent chunk = { region with chunks := chunk :: older } := by
  rw [setCurrent, hcons]

theorem cons_of_carve? {addr : Word} (hpos : 0 < layout.size.toNat)
    (hc : region.current.carve? region.minAlign layout = some addr) :
    ∃ newest older, region.chunks = newest :: older ∧
      newest.carve? region.minAlign layout = some addr := by
  cases hchunks : region.chunks with
  | nil =>
    rw [current_of_nil hchunks, Chunk.carve?_sentinel _ hpos] at hc
    cases hc
  | cons newest older => exact ⟨newest, older, rfl, current_of_cons hchunks ▸ hc⟩

theorem grants_bump (addr : Word) :
    (region.setCurrent { region.current with bump := addr }).grants = region.grants := by
  unfold grants setCurrent current
  split
  · rfl
  next newest older hchunks => simp [hchunks, Chunk.grant]

theorem setCurrent_same (chunk : Chunk) :
    region.setCurrent chunk = { region with chunks := (region.setCurrent chunk).chunks } := by
  unfold setCurrent
  split <;> rfl

theorem length_setCurrent (chunk : Chunk) :
    (region.setCurrent chunk).chunks.length = region.chunks.length := by
  unfold setCurrent
  split
  · rfl
  next hchunks => rw [hchunks]; rfl

theorem alloc_same (ha : region.alloc backing layout machine = (result, region', machine')) :
    region' = { region with chunks := region'.chunks } := by
  have ho := ha ▸ alloc_outcome backing region layout machine
  cases ho with
  | empty => rfl
  | carved => exact setCurrent_same _
  | slow hsize hc hg => cases hg <;> rfl

theorem allocated_bump (addr : Word) :
    (region.setCurrent { region.current with bump := addr }).allocated = region.allocated := by
  unfold allocated setCurrent current
  split
  · rfl
  next hchunks => rw [hchunks]; rfl

theorem allocated_le (ha : region.alloc backing layout machine = (result, region', machine')) :
    region.allocated ≤ region'.allocated := by
  have ho := ha ▸ alloc_outcome backing region layout machine
  cases ho with
  | empty => exact UInt64.le_refl _
  | carved => exact allocated_bump _ ▸ UInt64.le_refl _
  | slow hsize hc hg =>
    cases hg with
    | overflow | limited | unplanned | denied => exact UInt64.le_refl _
    | wasted hn hp hb hw | served hn hp hb hw => exact Word.le_saturatingAdd _ _

def preferred (raw : Word) : Word :=
  (Word.checkedAlignUp raw chunkAlign.bytes).getD (Word.alignDown Word.maxValue chunkAlign.bytes)

/-- Rounding up keeps room for the need, and so does the greatest size where rounding up overflows,
as long as a footer fits behind it. -/
theorem preferred_ok {raw need : Word} (h : need.toNat ≤ raw.toNat) :
    16 ∣ (preferred raw).toNat ∧
      (need.toNat ≤ (preferred raw).toNat ∨ (preferred raw).toNat = 2 ^ 64 - 16) := by
  rw [preferred]
  cases hup : Word.checkedAlignUp raw chunkAlign.bytes with
  | none =>
    rw [Option.getD_none]
    exact ⟨by decide, .inr (by decide)⟩
  | some up =>
    have hu := Word.checkedAlignUp_eq_some.1 hup
    have hge := le_roundUp (n := raw.toNat) chunkAlign.toNat_pos
    rw [Option.getD_some, hu]
    exact ⟨dvd_roundUp, .inl (Nat.le_trans h hge)⟩

theorem shrunk_ok {need up left : Word} (hup : Word.checkedAlignUp need chunkAlign.bytes = some up)
    (hfits : ¬ left < up) : 16 ∣ (Word.alignDown left chunkAlign.bytes).toNat ∧
      need.toNat ≤ (Word.alignDown left chunkAlign.bytes).toNat := by
  rw [UInt64.lt_iff_toNat_lt, Word.checkedAlignUp_eq_some.1 hup] at hfits
  rw [Word.toNat_alignDown]
  refine ⟨dvd_roundDown, ?_⟩
  calc need.toNat ≤ roundUp need.toNat chunkAlign.bytes.toNat := le_roundUp chunkAlign.toNat_pos
    _ ≤ roundDown left.toNat chunkAlign.bytes.toNat :=
      le_roundDown dvd_roundUp (Nat.le_of_not_lt hfits)

/-- A new chunk has room for the request, as long as its footer fits the address range. -/
theorem nextUsable_ok {usable : Word} (h : region.nextUsable layout = .ok usable) :
    16 ∣ usable.toNat ∧
      (roundUp layout.size.toNat (layout.align.strictest region.minAlign).bytes.toNat ≤
        usable.toNat ∨
        usable.toNat = 2 ^ 64 - 16) := by
  rw [nextUsable, need?, Alignment.max_bytes] at h
  cases hneed : Word.checkedAlignUp layout.size (layout.align.strictest region.minAlign).bytes with
  | none => simp [hneed] at h
  | some need =>
    rw [← Word.checkedAlignUp_eq_some.1 hneed]
    simp only [hneed] at h
    generalize hraw : max (max ((Word.checkedMul region.current.usable 2).getD Word.maxValue)
      leastUsable) need = raw at h
    have hle : need.toNat ≤ raw.toNat := by
      rw [← hraw, Word.toNat_max]
      exact Nat.le_max_right _ _
    cases hlimit : region.limit with
    | none =>
      rw [hlimit] at h
      rw [← Except.ok.inj h]
      exact preferred_ok hle
    | some limit =>
      simp only [hlimit] at h
      split at h
      · rw [← Except.ok.inj h]
        exact preferred_ok hle
      · cases hup : Word.checkedAlignUp need chunkAlign.bytes with
        | none => simp [hup] at h
        | some up =>
          simp only [hup] at h
          split at h
          · cases h
          next hfits =>
            rw [← Except.ok.inj h]
            exact (shrunk_ok hup hfits).imp id .inl

structure Planned (region : Region) (layout : Layout) (start usable : Word) (chunkLayout : Layout) :
    Prop where
  align_eq : chunkLayout.align = region.growthAlign layout
  need_le : roundUp layout.size.toNat (layout.align.strictest region.minAlign).bytes.toNat ≤
    usable.toNat
  usable_aligned : 16 ∣ usable.toNat
  size_eq : chunkLayout.size.toNat = roundUp (usable.toNat + 48) chunkLayout.align.bytes.toNat
  start_aligned : chunkLayout.align.bytes.toNat ∣ start.toNat
  bounded : start.toNat + chunkLayout.size.toNat ≤ 2 ^ 64

theorem planned_size_pos {usable usable' : Word} {align : Alignment} {chunkLayout : Layout}
    (hp : Chunk.plan? usable align = some (usable', chunkLayout)) : 0 < chunkLayout.size.toNat := by
  obtain ⟨-, -, hs⟩ := Chunk.plan?_eq_some.1 hp
  exact hs ▸ roundUp_pos align.toNat_pos (Nat.succ_pos _)

theorem planned {usable usable' start : Word} {chunkLayout : Layout} {out : Multiset Grant}
    (hn : region.nextUsable layout = .ok usable)
    (hp : Chunk.plan? usable (region.growthAlign layout) = some (usable', chunkLayout))
    (hf : Grant.Fresh out ⟨start, chunkLayout⟩) :
    region.Planned layout start usable' chunkLayout := by
  obtain ⟨hu, ha, hs⟩ := Chunk.plan?_eq_some.1 hp
  obtain ⟨hdvd, hneed⟩ := nextUsable_ok hn
  rw [roundUp_eq (by decide) hdvd] at hu
  have hle := le_roundUp (n := usable'.toNat + 48) (region.growthAlign layout).toNat_pos
  have hlt := chunkLayout.size.toNat_lt
  exact ⟨ha, by omega, by omega, by rw [hs, ha], hf.aligned, hf.bounded⟩

namespace Planned

variable {start usable : Word} {chunkLayout : Layout}
  (plan : region.Planned layout start usable chunkLayout)
include plan

theorem valid_unwound (hpos : 0 < layout.size.toNat) : Chunk.Valid region.minAlign
    ⟨start, usable, chunkLayout, start, Word.saturatingAdd region.allocated usable⟩ := by
  have hup := roundUp_pos (layout.align.strictest region.minAlign).toNat_pos hpos
  have hneed := plan.need_le
  have hle : chunkAlign.bytes ≤ chunkLayout.align.bytes := by
    rw [plan.align_eq]
    exact UInt64.le_trans (Alignment.le_strictest_left _ _) (Alignment.le_strictest_left _ _)
  exact
    { chunkAlign_le := hle
      start_aligned := plan.start_aligned
      usable_pos := by dsimp only; omega
      usable_aligned := plan.usable_aligned
      size_eq := plan.size_eq
      bounded := plan.bounded
      start_le_bump := Nat.le_refl _
      bump_le_footer := Nat.le_add_right _ _
      bump_aligned := (Alignment.dvd_of_le (UInt64.le_trans region.minAlign_le hle)).trans
        plan.start_aligned }

theorem valid (hpos : 0 < layout.size.toNat) :
    (region.freshChunk start usable chunkLayout).Valid region.minAlign :=
  (plan.valid_unwound hpos).rewind region.minAlign_le

/-- The chunk start is a multiple of the request's alignment, so rounding the footer down to that
alignment leaves all of the rounded size. -/
theorem carve (hpos : 0 < layout.size.toNat) :
    (region.freshChunk start usable chunkLayout).carve? region.minAlign layout ≠ none := by
  have hvalid := plan.valid hpos
  have hbump : (region.freshChunk start usable chunkLayout).bump.toNat =
      start.toNat + usable.toNat :=
    (plan.valid_unwound hpos).toNat_rewind region.minAlign_le
  have hdvd : (layout.align.strictest region.minAlign).bytes.toNat ∣ start.toNat := by
    refine (Alignment.dvd_of_le ?_).trans plan.start_aligned
    rw [plan.align_eq]
    exact Alignment.strictest_le (Alignment.le_strictest_right _ _)
      (UInt64.le_trans (Alignment.le_strictest_right _ _) (Alignment.le_strictest_left _ _))
  have hroom : start.toNat +
      roundUp layout.size.toNat (layout.align.strictest region.minAlign).bytes.toNat ≤
        roundDown (region.freshChunk start usable chunkLayout).bump.toNat
          (layout.align.strictest region.minAlign).bytes.toNat :=
    le_roundDown ((Nat.dvd_add_right hdvd).2 dvd_roundUp)
      (hbump ▸ Nat.add_le_add_left plan.need_le _)
  have hlt := (region.freshChunk start usable chunkLayout).bump.toNat_lt
  have hdown := roundDown_le (n := (region.freshChunk start usable chunkLayout).bump.toNat)
    (a := (layout.align.strictest region.minAlign).bytes.toNat)
  have haddr := UInt64.toNat_ofNat_of_lt' (n := roundDown
    (region.freshChunk start usable chunkLayout).bump.toNat
      (layout.align.strictest region.minAlign).bytes.toNat -
    roundUp layout.size.toNat (layout.align.strictest region.minAlign).bytes.toNat)
    (by simp only [UInt64.size]; omega)
  rw [(Chunk.carve?_eq_some hvalid.start_le_bump hvalid.bump_aligned).2 ⟨hroom, haddr⟩]
  exact Option.some_ne_none _

end Planned

theorem alloc_holds (ledger : backing.Ledger)
    (h : ledger.holds (region.grants + rest) machine.store)
    (ha : region.alloc backing layout machine = (result, region', machine')) :
    ledger.holds (region'.grants + rest) machine'.store := by
  have ho := ha ▸ alloc_outcome backing region layout machine
  cases ho with
  | empty hsize => exact h
  | carved hsize hc => rwa [grants_bump]
  | slow hsize hc hg =>
    cases hg with
    | overflow | limited | unplanned => exact h
    | denied hn hp hb => simpa using ledger.alloc h hb
    | wasted hn hp hb hw | served hn hp hb hw =>
      have hout := ledger.alloc h hb
      rwa [granted_some, ← add_assoc] at hout

/-- What a request does to the region when blocks are placed as promised. -/
structure Served (region : Region) (layout : Layout) (result : Option Word) (region' : Region) :
    Prop where
  valid : region'.Valid
  same : region' = { region with chunks := region'.chunks }
  inUse : ∀ g, region.InUse g → region'.InUse g
  refused : result = none → region' = region
  fresh : ∀ addr, result = some addr → 0 < layout.size.toNat →
    region'.InUse ⟨addr, layout⟩ ∧ layout.align.bytes.toNat ∣ addr.toNat ∧
      region.minAlign.bytes.toNat ∣ addr.toNat ∧ ∀ g, region.InUse g → Grant.Apart ⟨addr, layout⟩ g

theorem Valid.apart_of_ne {c d : Chunk} (valid : region.Valid) (hc : c ∈ region.chunks)
    (hd : d ∈ region.chunks) (hne : c ≠ d) : c.grant.Apart d.grant :=
  have : Std.Symm fun c d : Chunk => c.grant.Apart d.grant := ⟨fun _ _ => Grant.Apart.symm⟩
  List.Pairwise.forall valid.apart hc hd hne

theorem Valid.blocks_apart {c d : Chunk} {g h : Grant} (valid : region.Valid)
    (hc : c ∈ region.chunks) (hd : d ∈ region.chunks) (hne : c ≠ d)
    (hgstart : c.start.toNat ≤ g.start) (hgstop : g.stop ≤ c.footer.toNat)
    (hhstart : d.start.toNat ≤ h.start) (hhstop : h.stop ≤ d.footer.toNat) : g.Apart h := by
  obtain ⟨hg, hg'⟩ := (valid.chunks c hc).within hgstart hgstop
  obtain ⟨hh, hh'⟩ := (valid.chunks d hd).within hhstart hhstop
  exact (((valid.apart_of_ne hc hd hne).within hg hg').symm.within hh hh').symm

theorem Valid.push {chunk : Chunk} (valid : region.Valid) (hchunk : chunk.Valid region.minAlign)
    (hapart : ∀ other ∈ region.chunks, chunk.grant.Apart other.grant) :
    (region.push chunk).Valid where
  chunks := List.forall_mem_cons.2 ⟨hchunk, valid.chunks⟩
  apart := List.pairwise_cons.2 ⟨hapart, valid.apart⟩

theorem Valid.carved_apart {newest : Chunk} {addr : Word} {g : Grant} (valid : region.Valid)
    (hmem : newest ∈ region.chunks) (hstart : newest.start.toNat ≤ addr.toNat)
    (hbelow : addr.toNat + layout.size.toNat ≤ newest.bump.toNat) (hg : region.InUse g) :
    Grant.Apart ⟨addr, layout⟩ g := by
  obtain ⟨chunk, hchunk, hgstart, hgstop⟩ := hg
  by_cases hsame : chunk = newest
  · subst hsame
    exact .inl (Nat.le_trans hbelow hgstart)
  · have hle := (valid.chunks chunk hchunk).start_le_bump
    have hfoot := (valid.chunks newest hmem).bump_le_footer
    rw [← (valid.chunks newest hmem).toNat_footer] at hfoot
    exact valid.blocks_apart hmem hchunk (Ne.symm hsame) hstart (Nat.le_trans hbelow hfoot)
      (Nat.le_trans hle hgstart) hgstop

theorem served_same (valid : region.Valid) (hr : result = none ∨ layout.size.toNat = 0) :
    Served region layout result region := by
  refine ⟨valid, rfl, fun _ hg => hg, fun _ => rfl, fun addr he hpos => ?_⟩
  obtain hnone | hzero := hr
  · rw [hnone] at he
    cases he
  · omega

theorem served_carve {newest : Chunk} {older : List Chunk} {addr : Word} (valid : region.Valid)
    (hchunks : region.chunks = newest :: older) (hpos : 0 < layout.size.toNat)
    (hc : newest.carve? region.minAlign layout = some addr) :
    Served region layout (some addr)
      { region with chunks := { newest with bump := addr } :: older } := by
  have hmem : newest ∈ region.chunks := by simp [hchunks]
  have hnewest := valid.chunks newest hmem
  obtain ⟨hvalid, hbelow, halign, hmin⟩ := hnewest.carve hpos hc
  have hfoot := hnewest.bump_le_footer
  rw [← hnewest.toNat_footer] at hfoot
  have hwithin : addr.toNat + layout.size.toNat ≤ newest.footer.toNat := Nat.le_trans hbelow hfoot
  have hcarved : ∀ chunk ∈ older, chunk ∈ region.chunks := fun chunk h => by simp [hchunks, h]
  refine ⟨⟨?_, ?_⟩, rfl, ?_, by simp, ?_⟩
  · exact List.forall_mem_cons.2 ⟨hvalid, fun chunk h => valid.chunks chunk (hcarved chunk h)⟩
  · have hapart := valid.apart
    rw [hchunks, List.pairwise_cons] at hapart
    exact List.pairwise_cons.2 hapart
  · rintro g ⟨chunk, hchunk, hstart, hstop⟩
    rw [hchunks] at hchunk
    obtain rfl | hold := List.mem_cons.1 hchunk
    · exact ⟨_, List.mem_cons_self, by dsimp only; omega, hstop⟩
    · exact ⟨chunk, List.mem_cons_of_mem _ hold, hstart, hstop⟩
  · intro addr' haddr' _
    obtain rfl := Option.some.inj haddr'
    exact ⟨⟨_, List.mem_cons_self, Nat.le_refl _, hwithin⟩, halign, hmin,
      fun g hg => valid.carved_apart hmem hvalid.start_le_bump hbelow hg⟩

theorem mem_grants {chunk : Chunk} (h : chunk ∈ region.chunks) : chunk.grant ∈ region.grants :=
  List.mem_map_of_mem h

/-- A request that is refused changes nothing, and one that is served hands out an aligned block
apart from all that were handed out before, as long as a new chunk is where it should be. -/
theorem alloc_served_of_fresh (valid : region.Valid)
    (hfresh : ∀ {chunkLayout start machine'}, 0 < chunkLayout.size.toNat →
      backing.alloc chunkLayout machine = (some start, machine') →
      Grant.Fresh region.grants ⟨start, chunkLayout⟩)
    (ha : region.alloc backing layout machine = (result, region', machine')) :
    Served region layout result region' := by
  have ho := ha ▸ alloc_outcome backing region layout machine
  cases ho with
  | empty hsize => exact served_same valid (.inr (by simp [hsize]))
  | carved hsize hc =>
    have hpos : 0 < layout.size.toNat := UInt64.pos_iff_ne_zero.2 hsize
    obtain ⟨newest, older, hchunks, hcarved⟩ := cons_of_carve? hpos hc
    rw [current_of_cons hchunks, setCurrent_of_cons hchunks]
    exact served_carve valid hchunks hpos hcarved
  | slow hsize hc hg =>
    have hpos : 0 < layout.size.toNat := UInt64.pos_iff_ne_zero.2 hsize
    cases hg with
    | overflow | limited | unplanned | denied => exact served_same valid (.inl rfl)
    | wasted hn hp hb hw =>
      have hf := hfresh (planned_size_pos hp) hb
      exact absurd hw ((planned hn hp hf).carve hpos)
    | @served _ usable chunkLayout start _ addr hn hp hb hw =>
      have hf := hfresh (planned_size_pos hp) hb
      have hpush := valid.push ((planned hn hp hf).valid hpos) fun other ho =>
        hf.apart _ (mem_grants ho)
      obtain ⟨hvalid, -, hinUse, -, hserved⟩ := served_carve hpush rfl hpos hw
      have hused : ∀ g, region.InUse g →
          (region.push (region.freshChunk start usable chunkLayout)).InUse g :=
        fun g ⟨chunk, hchunk, hg⟩ => ⟨chunk, List.mem_cons_of_mem _ hchunk, hg⟩
      refine ⟨hvalid, rfl, fun g hg => hinUse g (hused g hg), by simp, fun addr he hpos => ?_⟩
      obtain ⟨hin, halign, hmin, hapart⟩ := hserved addr he hpos
      exact ⟨hin, halign, hmin, fun g hg => hapart g (hused g hg)⟩

theorem alloc_served (placement : backing.Placement) (valid : region.Valid)
    (h : placement.holds (region.grants + rest) machine.store)
    (ha : region.alloc backing layout machine = (result, region', machine')) :
    Served region layout result region' :=
  alloc_served_of_fresh valid (fun hpos hb => (placement.alloc_fresh h hpos hb).left) ha

theorem alloc_kept {ledger : backing.Ledger} {kept out : Multiset Grant} (keeps : ledger.Keeps kept)
    (h : ledger.holds out machine.store)
    (ha : region.alloc backing layout machine = (result, region', machine')) :
    AgreeOn kept machine.memory machine'.memory := by
  have ho := ha ▸ alloc_outcome backing region layout machine
  cases ho with
  | empty | carved => exact .refl _ _
  | slow hsize hc hg =>
    cases hg with
    | overflow | limited | unplanned => exact .refl _ _
    | denied hn hp hb => exact keeps.alloc h hb
    | wasted hn hp hb hw | served hn hp hb hw =>
      have hkept := keeps.alloc h hb
      exact hkept

theorem alloc_keeps (contract : backing.Contract)
    (h : contract.holds (region.grants + rest) machine.store)
    (ha : region.alloc backing layout machine = (result, region', machine')) :
    AgreeOn (region.grants + rest) machine.memory machine'.memory :=
  alloc_kept (contract.keeps _) ((zero_add (region.grants + rest)).symm ▸ h) ha

end Region

end ArenaMemory
