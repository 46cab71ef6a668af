import ArenaMemory.Proofs.Allocator.Window
import ArenaMemory.Proofs.World.Step

namespace ArenaMemory

open Allocator

variable {ι β : Type} {base : Allocator β} {contract : base.Contract} {start : Machine (Store ι β)}
  {site site' : Site ι β} {g : Grant}

namespace Site

inductive Run (base : Allocator β) (start : Machine (Store ι β)) : Site ι β → Prop where
  | start : start.store.items = [] → Run base start ⟨start, 0⟩
  | step {taken site site'} : Run base start site → Step base taken site site' →
      Run base start site'

/-- A later state, before which no step took the block. -/
inductive RunSparing (base : Allocator β) (g : Grant) (site : Site ι β) : Site ι β → Prop where
  | refl : RunSparing base g site site
  | step {taken site' site''} : RunSparing base g site site' → Step base taken site' site'' →
      g ∉ taken → RunSparing base g site site''

/-- What the handle of an allocator promises in a state: aligned blocks apart from all in use,
zeroed ones zero, moved ones with their bytes, and a contract with each client. -/
structure Honours (base : Allocator β) (site : Site ι β) (origin : Origin ι) : Prop where
  alloc : ∀ {layout addr machine'}, 0 < layout.size.toNat →
    (origin.handle base).alloc layout site.machine = (some addr, machine') →
    Grant.Fresh (leaves site.items site.held) ⟨addr, layout⟩
  zalloc : ∀ {layout addr machine'}, 0 < layout.size.toNat →
    (origin.handle base).zalloc layout site.machine = (some addr, machine') →
    Grant.Fresh (leaves site.items site.held) ⟨addr, layout⟩ ∧
      ∀ a, Grant.Covers ⟨addr, layout⟩ a → machine'.memory.get a = 0
  realloc : ∀ {addr old new fresh rest machine'}, 0 < new.size.toNat →
    site.held = heldOn origin.ground {⟨addr, old⟩} + rest →
    (origin.handle base).realloc (some addr) old new site.machine = (some fresh, machine') →
    Grant.Fresh (leaves site.items rest) ⟨fresh, new⟩ ∧
      ∀ i < min old.size.toNat new.size.toNat,
        machine'.memory.get (fresh + UInt64.ofNat i) =
          site.machine.memory.get (addr + UInt64.ofNat i)
  client : ∀ {mine rest}, site.held = heldOn origin.ground mine + rest →
    ∃ client : (origin.handle base).Contract,
      client.holds mine site.machine.store ∧ client.Spares (leaves site.items rest)

/-- What a region promises those whom it serves itself, whatever they ask for. The block that is
moved may be any that is in use. -/
structure Serves (base : Allocator β) (site : Site ι β) (inner : Origin ι) (region : Region) :
    Prop where
  fresh : ∀ {op : Region.Operation} {layout addr region' machine'}, op.layout? = some layout →
    0 < layout.size.toNat →
    op.perform (inner.handle base) region site.machine = (some addr, region', machine') →
    Grant.Fresh (leaves site.items site.held) ⟨addr, layout⟩
  zeroed : ∀ {layout addr region' machine'}, 0 < layout.size.toNat →
    region.allocZeroed (inner.handle base) layout site.machine = (some addr, region', machine') →
    ∀ a, Grant.Covers ⟨addr, layout⟩ a → machine'.memory.get a = 0
  moved : ∀ {old : Grant} {oldSize layout addr region' machine'},
    old ∈ leaves site.items site.held → oldSize ≤ old.layout.size →
    region.realloc (inner.handle base) (some old.addr) oldSize layout site.machine =
      (some addr, region', machine') →
    ∀ i < min oldSize.toNat layout.size.toNat,
      machine'.memory.get (addr + UInt64.ofNat i) =
        site.machine.memory.get (old.addr + UInt64.ofNat i)

theorem Run.settled (hstart : contract.holds 0 start.store.base) (run : Run base start site) :
    Settled contract site.held site.machine.store := by
  induction run with
  | start hempty =>
    have hnone : blocksOn none (0 + holdings start.store.items) = 0 := by simp [hempty, holdings]
    refine ArenaMemory.settled ⟨hempty ▸ trivial, by simp, ?_, by simp [hempty]⟩ ?_
    · exact hnone ▸ .zero
    · exact hnone ▸ hstart
  | step run hstep ih => exact (hstep.passed ih).settled

theorem honours (h : Settled contract site.held site.machine.store) {origin : Origin ι}
    (hlive : origin.LiveIn site.items) : Honours base site origin where
  alloc hpos ha := fresh_alloc h hlive hpos ha
  zalloc hpos hz := by
    obtain ⟨tenancy, -, spares, hbegun⟩ := h.newcomer hlive
    exact ⟨(spares.fresh (tenancy.toLedger.zalloc hbegun hz)
      (tenancy.fresh_of_zalloc hpos hbegun hz)).right, tenancy.zero_of_zalloc hpos hbegun hz⟩
  realloc hnew hheld hr := by
    rw [hheld] at h
    obtain ⟨tenancy, -, spares, hbegun⟩ := h.client_all hlive
    rw [← add_zero {_}] at hbegun
    exact ⟨(spares.fresh (tenancy.toLedger.realloc hnew hbegun hr)
      (tenancy.fresh_of_realloc hnew hbegun hr)).right,
      tenancy.bytes_of_moved hnew (fun _ => spares.stop_le hbegun) hbegun hr⟩
  client hheld := by
    rw [hheld] at h
    obtain ⟨tenancy, -, spares, hbegun⟩ := h.client_all hlive
    exact ⟨tenancy, hbegun, spares⟩

theorem serves (h : Settled contract site.held site.machine.store) {name : String}
    {inner : Origin ι} {region : Region} {home : Option Word}
    (hmem : ⟨name, inner, .region region home⟩ ∈ site.items) : Serves base site inner region := by
  have hordered := h.stacked_all.ordered
  have hregion := Store.region?_all hordered hmem
  have hlive : (Origin.region name inner).LiveIn site.items :=
    ⟨hordered.liveIn hmem, region, home, hmem⟩
  refine ⟨fun {op layout addr region' machine'} hlayout hpos hp => ?_,
    fun {layout addr region' machine'} hpos hz => ?_,
    fun {old oldSize layout addr region' machine'} hold hle hr i hi => ?_⟩
  · have hperformed := hp ▸ Region.performed op (inner.handle base) region site.machine
    cases hperformed with
    | requested _ _ hlayout' ha =>
      obtain rfl := Option.some.inj (hlayout.symm.trans hlayout')
      exact fresh_alloc h hlive hpos (handle_alloc hregion ha)
  · have hhandle := handle_zalloc hregion hz
    exact ((honours h hlive).zalloc hpos hhandle).2
  · obtain ⟨hiold, hisize⟩ := Nat.lt_min.1 hi
    have hne : layout.size ≠ 0 := fun he => by simp [he] at hisize
    rw [Region.realloc] at hr
    rw [if_neg hne] at hr
    rcases ha : region.alloc (inner.handle base) layout site.machine with ⟨_ | fresh, next, served⟩
    all_goals
      rw [ha] at hr
      cases hr
    obtain ⟨client, -, spares, hbegun⟩ := h.newcomer hlive
    have hkept := spares.alloc hbegun (handle_alloc hregion ha)
    have hbounded := h.stacked_all.packed_leaves.stop_le hold
    have hcovers := Grant.covers_add hbounded (Nat.lt_of_lt_of_le hiold (UInt64.le_iff_toNat_le.1 hle))
    have hmin : (min oldSize layout.size).toNat = min oldSize.toNat layout.size.toNat :=
      Word.toNat_min
    rw [← hkept old hold _ hcovers]
    exact Memory.get_copy (hmin ▸ hi)
      (hmin ▸ Nat.le_trans (Nat.min_le_left _ _) (Nat.le_of_lt oldSize.toNat_lt))

theorem RunSparing.kept (h : Settled contract site.held site.machine.store)
    (hg : g ∈ contents site.items site.held) (later : RunSparing base g site site') :
    Settled contract site'.held site'.machine.store ∧ g ∈ contents site'.items site'.held ∧
      AgreeOn {g} site.machine.memory site'.machine.memory := by
  induction later with
  | refl => exact ⟨h, hg, .refl _ _⟩
  | step later hstep hnot ih =>
    obtain ⟨hsettled, hmem, hagree⟩ := ih
    obtain ⟨hsettled', kept, hcontents, hle, hsame⟩ := hstep.passed hsettled
    rw [hcontents] at hmem
    have hkept := (Multiset.mem_add.1 hmem).resolve_left hnot
    exact ⟨hsettled', Multiset.mem_of_le hle hkept,
      hagree.trans (hsame.mono (Multiset.singleton_subset.2 hkept))⟩

/-- All blocks in use lie side by side, every handle that is alive honours its contract, and a block
keeps its bytes until a step writes through it, moves it or takes it. -/
theorem no_interference (contract : base.Contract) (hstart : contract.holds 0 start.store.base)
    (run : Run base start site) :
    Packed (leaves site.items site.held) ∧
    (∀ origin, origin.LiveIn site.items → Honours base site origin) ∧
    (∀ name inner region home, ⟨name, inner, .region region home⟩ ∈ site.items →
      Serves base site inner region) ∧
    ∀ g ∈ contents site.items site.held, ∀ site', RunSparing base g site site' →
      g ∈ contents site'.items site'.held ∧ AgreeOn {g} site.machine.memory site'.machine.memory := by
  have h : Settled contract site.held site.machine.store := run.settled hstart
  refine ⟨h.stacked_all.packed_leaves, fun origin hlive => honours h hlive,
    fun name inner region home hmem => serves h hmem, fun g hg site' later => ?_⟩
  exact (later.kept h hg).2

theorem run_tower : ∃ site : Site Unit Platform,
    Run Platform.plainWindow { store := { base := ⟨.ofCap 65536, {}⟩ } } site ∧
    site.items.map (·.name) = ["i", "b", "r", "t"] ∧
    (Origin.region "r" (.tracker "t" (.base ()))).LiveIn site.items ∧
    site.held = heldOn (some "r") {⟨0x1000001f90, ⟨16, .eight⟩⟩} ∧
    contents site.items site.held = {⟨0x1000001f90, ⟨16, .eight⟩⟩, ⟨0x1000002f6e, copyLayout 1⟩,
      ⟨0x1000000fc8, BoxKind.word.layout⟩} := by
  have hempty : Run Platform.plainWindow
    ({ store := { base := ⟨.ofCap 65536, {}⟩ } } : Machine (Store Unit Platform)) _ := .start rfl
  have htracker := hempty.step (.create "t" (show (Origin.base ()).LiveIn _ from trivial) rfl
    (.tracker none))
  have hregion := htracker.step (.create "r"
    (show (Origin.tracker "t" (.base ())).LiveIn _ from ⟨trivial, _, .head _⟩) rfl
    (.region none (show Region.create 0x10000 8 = .ok _ from rfl)))
  have hbox := hregion.step (.create "b"
    (show (Origin.region "r" (.tracker "t" (.base ()))).LiveIn _ from
      ⟨⟨trivial, _, .tail _ (.head _)⟩, _, _, .head _⟩) rfl (.box .word 7 (Prod.ext rfl rfl)))
  have hinterner := hbox.step (.create "i"
    (show (Origin.region "r" (.tracker "t" (.base ()))).LiveIn _ from
      ⟨⟨trivial, _, .tail _ (.tail _ (.head _))⟩, _, _, .tail _ (.head _)⟩) rfl
    (.interner 0x10000 .threeQuarters 1 none))
  have hcopy := hinterner.step (.intern (.head _)
    (rfl : Interner.Operation.perform (.intern [97]) (fun _ => 7) _ _ _ = _))
  have hblock := hcopy.step (.serve (.tail _ (.tail _ (.head _))) rfl
    (rfl : Region.Operation.perform (.alloc ⟨16, .eight⟩) _ _ _ = _))
  refine ⟨_, hblock, rfl, ?_, rfl, rfl⟩
  exact ⟨⟨trivial, _, .tail _ (.tail _ (.tail _ (.head _)))⟩, _, _, .tail _ (.tail _ (.head _))⟩

theorem no_interference_tower : ∃ site site' : Site Unit Platform,
    site.items.map (·.name) = ["i", "b", "r", "t"] ∧
    contents site.items site.held = {⟨0x1000001f90, ⟨16, .eight⟩⟩, ⟨0x1000002f6e, copyLayout 1⟩,
      ⟨0x1000000fc8, BoxKind.word.layout⟩} ∧
    Packed (leaves site.items site.held) ∧
    Honours Platform.plainWindow site (.region "r" (.tracker "t" (.base ()))) ∧
    site'.machine.memory.get 0x1000001f90 = 5 ∧
    site'.machine.memory.get 0x1000002f6e = site.machine.memory.get 0x1000002f6e := by
  have hstart : Platform.plainWindowContract.holds 0 (⟨.ofCap 65536, {}⟩ : Platform) :=
    ⟨by decide, by decide, by simp⟩
  obtain ⟨⟨machine, held⟩, run, hnames, hlive, hheld, hcontents⟩ := run_tower
  obtain ⟨hpacked, honours, -, hlater⟩ := no_interference Platform.plainWindowContract hstart run
  dsimp only at hheld
  have hblock : ⟨0x1000001f90, ⟨16, .eight⟩⟩ ∈ inUse Object.value machine.store.items held := by
    refine Multiset.mem_add.2 (.inl ?_)
    rw [hheld, map_snd_heldOn]
    exact Multiset.mem_singleton_self _
  have hwrite : Step Platform.plainWindow {⟨0x1000001f90, ⟨16, .eight⟩⟩} ⟨machine, held⟩
      ⟨{ machine with memory := machine.memory.set 0x1000001f90 5 }, held⟩ := by
    refine .write hblock fun a ha => ?_
    have hne : a ≠ 0x1000001f90 := by
      rintro rfl
      exact ha ⟨by decide, by decide⟩
    rw [Memory.get_set, if_neg hne]
  have hcopy : (⟨0x1000002f6e, copyLayout 1⟩ : Grant) ∈ contents machine.store.items held :=
    hcontents ▸ by simp
  obtain ⟨-, hsame⟩ := hlater _ hcopy _ (RunSparing.refl.step hwrite (by decide))
  refine ⟨⟨machine, held⟩, _, hnames, hcontents, hpacked, honours _ hlive, ?_,
    hsame ⟨0x1000002f6e, copyLayout 1⟩ (Multiset.mem_singleton_self _) _ ⟨by decide, by decide⟩⟩
  rw [Memory.get_set, if_pos rfl]

end Site

end ArenaMemory
