import ArenaMemory.Proofs.Allocator.Window
import ArenaMemory.Proofs.Region.Run

namespace ArenaMemory

variable {σ : Type}

def Chunk.footerBlock (chunk : Chunk) : Grant := ⟨chunk.footer, footerSize, chunkAlign⟩

namespace Region

/-- What holds of the blocks handed out since the last reset or deinit. -/
structure Safe (minAlign : Word) (region : Region) (blocks : List Grant) : Prop where
  valid : region.Valid
  minAlign_eq : region.minAlign.bytes = minAlign
  placed : ∀ g ∈ blocks, 0 < g.layout.size.toNat →
    region.InUse g ∧ g.layout.align.bytes.toNat ∣ g.start ∧ minAlign.toNat ∣ g.start
  apart : blocks.Pairwise Grant.Apart

variable {backing : Allocator σ} {minAlign : Word} {start machine machine' : Machine σ}
  {home result : Option Word} {blocks : List Grant} {region region' : Region}
  {rest : Multiset Grant}

theorem safe_nil (valid : region.Valid) (h : region.minAlign.bytes = minAlign) :
    Safe minAlign region [] :=
  ⟨valid, h, by simp, List.Pairwise.nil⟩

/-- A request leaves every block where it is and adds one that is apart from all of them. -/
theorem Safe.request {layout : Layout} (safe : Safe minAlign region blocks)
    (served : Served region layout result region') :
    Safe minAlign region' blocks ∧
      ∀ addr, result = some addr → Safe minAlign region' (⟨addr, layout⟩ :: blocks) := by
  have hsame : region'.minAlign.bytes = minAlign := by
    rw [served.same]
    exact safe.minAlign_eq
  have hplaced : ∀ g ∈ blocks, 0 < g.layout.size.toNat →
      region'.InUse g ∧ g.layout.align.bytes.toNat ∣ g.start ∧ minAlign.toNat ∣ g.start :=
    fun g hg hpos => (safe.placed g hg hpos).imp (served.inUse g) id
  refine ⟨⟨served.valid, hsame, hplaced, safe.apart⟩, fun addr he => ⟨served.valid, hsame, ?_, ?_⟩⟩
  · refine List.forall_mem_cons.2 ⟨fun hpos => ?_, hplaced⟩
    obtain ⟨hin, halign, hmin, -⟩ := served.fresh addr he hpos
    exact ⟨hin, halign, safe.minAlign_eq ▸ hmin⟩
  · refine List.pairwise_cons.2 ⟨fun g hg => ?_, safe.apart⟩
    obtain hzero | hpos := Nat.eq_zero_or_pos layout.size.toNat
    · exact Grant.apart_of_empty hzero
    obtain hzero | hgpos := Nat.eq_zero_or_pos g.layout.size.toNat
    · exact (Grant.apart_of_empty hzero).symm
    · obtain ⟨-, -, -, hapart⟩ := served.fresh addr he hpos
      exact hapart g (safe.placed g hg hgpos).1

theorem Safe.perform {op : Operation} (placement : backing.Placement)
    (safe : Safe minAlign region blocks) (h : placement.holds (region.grants + rest) machine.store)
    (hp : op.perform backing region machine = (result, region', machine')) :
    Safe minAlign region' (op.blocks result blocks) := by
  have hperformed := hp ▸ performed op backing region machine
  cases hperformed with
  | declined hop =>
    rw [Operation.blocks_none hop]
    exact safe
  | requested _ hop hlayout ha =>
    obtain ⟨hkept, hadded⟩ := safe.request (alloc_served placement safe.valid h ha)
    cases result with
    | none =>
      rw [Operation.blocks_none hop]
      exact hkept
    | some addr =>
      rw [Operation.blocks_some hop hlayout]
      exact hadded addr rfl
  | limited limit => exact { safe with valid := ⟨safe.valid.chunks, safe.valid.apart⟩ }
  | reset hr =>
    obtain ⟨hvalid, hsame⟩ := reset_valid safe.valid hr
    refine safe_nil hvalid ?_
    rw [hsame]
    exact safe.minAlign_eq
  | deinit hd =>
    obtain ⟨rfl, rfl⟩ := Prod.mk.inj hd
    exact safe_nil (valid_of_chunks_nil rfl) safe.minAlign_eq

theorem Run.safe (placement : backing.Placement) (hstart : placement.shared.holds 0 start.store)
    (run : Run backing (fun mine _ machine' => placement.shared.holds mine machine'.store) minAlign
      start home blocks region machine) : Safe minAlign region blocks := by
  induction run with
  | create hc | box hc =>
    exact safe_nil (valid_of_chunks_nil (chunks_of_create hc)) (minAlign_of_create hc)
  | perform op run hp ih =>
    have h := run.holds placement.shared.toLedger hstart fun _ ho => ho
    exact ih.perform placement.shared h hp
  | others run ho ih => exact ih

theorem Valid.existsUnique_chunk {g : Grant} (valid : region.Valid) (hpos : 0 < g.layout.size.toNat)
    (hg : region.InUse g) :
    ∃! chunk, chunk ∈ region.chunks ∧ chunk.start.toNat ≤ g.start ∧
      g.stop ≤ chunk.footer.toNat := by
  obtain ⟨chunk, hchunk, hstart, hstop⟩ := hg
  have hle := (valid.chunks chunk hchunk).start_le_bump
  refine ⟨chunk, ⟨hchunk, Nat.le_trans hle hstart, hstop⟩, ?_⟩
  rintro other ⟨hother, hostart, hostop⟩
  by_contra hne
  have hself := valid.blocks_apart hother hchunk hne hostart hostop (Nat.le_trans hle hstart) hstop
  simp only [Grant.Apart, Grant.stop, Grant.start] at hself
  omega

theorem Valid.footer_apart {chunk : Chunk} {g : Grant} (valid : region.Valid)
    (hchunk : chunk ∈ region.chunks) (hg : region.InUse g) : g.Apart chunk.footerBlock := by
  obtain ⟨home, hhome, hstart, hstop⟩ := hg
  by_cases hne : home = chunk
  · subst hne
    exact .inl hstop
  · have hvalid := valid.chunks chunk hchunk
    have hblock := (valid.chunks home hhome).within
      (Nat.le_trans (valid.chunks home hhome).start_le_bump hstart) hstop
    have hgrant := (valid.apart_of_ne hhome hchunk hne).within hblock.1 hblock.2
    have hfoot := hvalid.footer_within
    refine (hgrant.symm.within ?_ ?_).symm
    · simp only [Chunk.footerBlock, Chunk.grant, Grant.start, hvalid.toNat_footer]
      omega
    · rw [← hvalid.toNat_footer] at hfoot
      exact hfoot

/-- Every block of positive size is aligned and lies in exactly one live chunk. No two blocks
overlap, and none overlaps a footer. -/
theorem blocks_safe (placement : backing.Placement) (hstart : placement.shared.holds 0 start.store)
    (run : Run backing (fun mine _ machine' => placement.shared.holds mine machine'.store) minAlign
      start home blocks region machine) :
    placement.shared.holds (region.grants + granted home Object.regionLayout) machine.store ∧
      (∀ g ∈ blocks, 0 < g.layout.size.toNat →
        g.layout.align.bytes.toNat ∣ g.start ∧ minAlign.toNat ∣ g.start ∧
          ∃! chunk, chunk ∈ region.chunks ∧ chunk.start.toNat ≤ g.start ∧
            g.stop ≤ chunk.footer.toNat) ∧
      blocks.Pairwise Grant.Apart ∧
      ∀ g ∈ blocks, ∀ chunk ∈ region.chunks, g.Apart chunk.footerBlock := by
  have safe := run.safe placement hstart
  refine ⟨run.holds placement.shared.toLedger hstart fun _ ho => ho,
    fun g hg hpos => ?_, safe.apart, fun g hg chunk hchunk => ?_⟩
  · obtain ⟨hin, halign, hmin⟩ := safe.placed g hg hpos
    exact ⟨halign, hmin, safe.valid.existsUnique_chunk hpos hin⟩
  · obtain hzero | hpos := Nat.eq_zero_or_pos g.layout.size.toNat
    · exact Grant.apart_of_empty hzero
    · exact safe.valid.footer_apart hchunk (safe.placed g hg hpos).1

theorem blocks_safe_two_chunks : ∃ (blocks : List Grant) (region : Region),
    blocks = [⟨0x1000001bc0, 5000, .sixtyFour⟩, ⟨0x1000000f68, 100, .one⟩] ∧
      region.chunks.length = 2 ∧
      (∀ g ∈ blocks, 0 < g.layout.size.toNat →
        g.layout.align.bytes.toNat ∣ g.start ∧ (8 : Word).toNat ∣ g.start ∧
          ∃! chunk, chunk ∈ region.chunks ∧ chunk.start.toNat ≤ g.start ∧
            g.stop ≤ chunk.footer.toNat) ∧
      blocks.Pairwise Grant.Apart ∧
      ∀ g ∈ blocks, ∀ chunk ∈ region.chunks, g.Apart chunk.footerBlock := by
  have hstart : Platform.plainWindowContract.toPlacement.shared.holds 0
      (⟨.ofCap 65536, {}⟩ : Platform) := ⟨0, by decide, by decide, by simp⟩
  have hcreate : Region.create 0x10000 8 = .ok ⟨0x10000, .eight, by decide, none, []⟩ := by decide
  have hcreated : Run Platform.plainWindow
      (fun mine _ machine' =>
        Platform.plainWindowContract.toPlacement.shared.holds mine machine'.store) 8
      { store := ⟨.ofCap 65536, {}⟩ } none [] ⟨0x10000, .eight, by decide, none, []⟩
      { store := ⟨.ofCap 65536, {}⟩ } := .create hcreate
  have hsafe := blocks_safe Platform.plainWindowContract.toPlacement hstart
    ((hcreated.perform (.alloc ⟨100, .one⟩) rfl).perform (.alloc ⟨5000, .sixtyFour⟩) rfl)
  exact ⟨_, _, by decide, by decide, hsafe.2⟩

end Region

end ArenaMemory
