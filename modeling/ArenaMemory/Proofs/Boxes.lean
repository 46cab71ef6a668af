import ArenaMemory.Proofs.Interner.BlockLedger
import ArenaMemory.Proofs.Region.ChunkLedger

namespace ArenaMemory

variable {σ τ : Type}

/-- The calls that give blocks back in the order of the list, the latest first. -/
def releases (blocks : List Grant) : List Call := (blocks.map Call.release).reverse

theorem releases_append (blocks later : List Grant) :
    releases (blocks ++ later) = releases later ++ releases blocks := by
  rw [releases, List.map_append, List.reverse_append]
  rfl

namespace Buffer

variable {inner : Allocator σ} {element : Layout} {buffer : Buffer}

def blocks (element : Layout) (buffer : Buffer) : List Grant :=
  if buffer.capacity = 0 then []
  else ((element.array buffer.capacity).map (Grant.mk buffer.addr)).toList

theorem coe_blocks : (buffer.blocks element : Multiset Grant) = buffer.grants element := by
  rw [blocks, grants]
  by_cases hzero : buffer.capacity = 0
  · simp [hzero]
  · cases ha : element.array buffer.capacity <;> simp [hzero]

theorem release_calls {machine : Machine (Recorded σ)} :
    (buffer.release inner.recorded element machine).store.calls =
      releases (buffer.blocks element) ++ machine.store.calls := by
  rw [release, blocks]
  by_cases hzero : buffer.capacity = 0
  · simp [hzero, releases]
  · cases ha : element.array buffer.capacity <;> simp [hzero, releases, Allocator.recorded,
      Recorded.run, Machine.withStore]

end Buffer

/-- What a value is: plain, or an object that obtains memory from the allocator that its box is
on. -/
inductive Content where
  | plain (layout : Layout)
  | region (region : Region)
  | interner (interner : Interner)

namespace Content

def layout : Content → Layout
  | .plain layout => layout
  | .region _ => Object.regionLayout
  | .interner _ => Object.internerLayout

def blocks : Content → List Grant
  | .plain _ => []
  | .region r => r.chunks.map Chunk.grant
  | .interner i => i.arena.chunks.map Chunk.grant ++ i.map.buffer.blocks Slot.layout ++
      i.table.buffer.blocks Entry.layout

def grants (content : Content) : Multiset Grant := content.blocks

def IsNew : Content → Prop
  | .plain _ => True
  | .region r => ∃ anchor minAlign, Region.create anchor minAlign = .ok r
  | .interner i => ∃ anchor loadFactor capacity arenaLimit,
      i = .create anchor loadFactor capacity arenaLimit

def Sized : Content → Prop
  | .plain _ | .region _ => True
  | .interner i => i.Sized

def finalize (backing : Allocator τ) (content : Content) (machine : Machine τ) : Machine τ :=
  match content with
  | .plain _ => machine
  | .region r => (r.deinit backing machine).2
  | .interner i => (i.deinit backing machine).2

variable {backing : Allocator τ} {machine : Machine τ} {content : Content} {rest : Multiset Grant}
  {number : Nat}

theorem grants_interner (i : Interner) : (Content.interner i).grants = i.grants := by
  rw [grants, blocks, ← Multiset.coe_add, ← Multiset.coe_add, Buffer.coe_blocks, Buffer.coe_blocks]
  rfl

theorem blocks_of_isNew (h : content.IsNew) : content.blocks = [] := by
  cases content with
  | plain => rfl
  | region r =>
    obtain ⟨anchor, minAlign, hcreate⟩ := h
    rw [blocks, Region.chunks_of_create hcreate, List.map_nil]
  | interner i =>
    obtain ⟨anchor, loadFactor, capacity, arenaLimit, rfl⟩ := h
    rfl

theorem grants_of_isNew (h : content.IsNew) : content.grants = 0 := by
  rw [grants, blocks_of_isNew h, Multiset.coe_nil]

theorem sized_of_isNew (h : content.IsNew) : content.Sized := by
  cases content with
  | plain | region => trivial
  | interner i =>
    obtain ⟨anchor, loadFactor, capacity, arenaLimit, rfl⟩ := h
    exact ⟨⟨Nat.lt_of_lt_of_le Nat.zero_lt_one (Nat.le_max_right capacity 1), Nat.zero_le _⟩,
      fun hc => absurd rfl hc, fun hc => absurd rfl hc⟩

theorem finalize_holds (ledger : backing.Ledger)
    (h : ledger.holds (content.grants + rest) machine.store) :
    ledger.holds rest (content.finalize backing machine).store := by
  cases content with
  | plain layout =>
    have hnone : (plain layout).grants = 0 := rfl
    rwa [hnone, zero_add] at h
  | region r => exact Region.deinit_holds ledger h
  | interner i =>
    rw [grants_interner] at h
    exact Interner.deinit_holds h

theorem finalize_calls {inner : Allocator σ} {machine : Machine (Recorded σ)} :
    (content.finalize inner.recorded machine).store.calls =
      releases content.blocks ++ machine.store.calls := by
  have hchunks (chunks : List Chunk) : releaseCalls chunks = releases (chunks.map Chunk.grant) := by
    rw [releases, List.map_map]
    rfl
  cases content with
  | plain => rfl
  | region r => exact Region.deinit_calls.trans (by rw [hchunks]; rfl)
  | interner i =>
    have harena : (i.arena.deinit inner.recorded machine).2.store.calls =
        releaseCalls i.arena.chunks ++ machine.store.calls := Region.deinit_calls
    rw [finalize, Interner.deinit, blocks, releases_append, releases_append, ← hchunks,
      List.append_assoc, List.append_assoc, ← harena]
    refine Buffer.release_calls.trans ?_
    exact congrArg (releases _ ++ ·) Buffer.release_calls

end Content

/-- A value under its number. In a box it has storage, else it is with a client. -/
structure Owned where
  number : Nat
  home : Option Word
  content : Content

namespace Owned

def blocks (owned : Owned) : List Grant :=
  owned.content.blocks ++ (owned.home.map fun home => ⟨home, owned.content.layout⟩).toList

def grants (owned : Owned) : Multiset Grant := owned.blocks

/-- Drops a value, in its box or from a client. What the drop of the value itself does besides
giving back what it obtained is `note`. -/
def drop (note : Owned → Machine τ → Machine τ) (backing : Allocator τ) (owned : Owned)
    (machine : Machine τ) : Machine τ :=
  let finalize machine := owned.content.finalize backing (note owned machine)
  match owned.home with
  | none => finalize machine
  | some home => backing.unbox owned.content.layout home finalize machine

variable {backing : Allocator τ} {machine : Machine τ} {owned : Owned} {rest : Multiset Grant}
  {note : Owned → Machine τ → Machine τ}

theorem grants_eq : owned.grants =
    owned.content.grants + granted owned.home owned.content.layout := by
  rw [grants, blocks, ← Multiset.coe_add]
  cases owned.home <;> rfl

theorem drop_holds (ledger : backing.Ledger)
    (h : ledger.holds (owned.grants + rest) (note owned machine).store) :
    ledger.holds rest (owned.drop note backing machine).store := by
  rw [grants_eq, add_assoc] at h
  have hfinal := Content.finalize_holds ledger h
  rw [drop]
  cases hhome : owned.home with
  | none =>
    rwa [hhome, granted_none, zero_add] at hfinal
  | some home =>
    rw [hhome] at hfinal
    exact ledger.release hfinal

end Owned

def Object.owned? (number : Nat) : Object → Option Owned
  | .tracker _ => none
  | .region r home => some ⟨number, home, .region r⟩
  | .interner i home => some ⟨number, home, .interner i⟩
  | .box kind addr => some ⟨number, some addr, .plain kind.layout⟩

/-- That is how a world drops its objects. The drop of a plain value shows if the value is a flag.
-/
theorem release_eq_drop {item : Item BaseName} {number : Nat} {owned : Owned}
    (h : item.object.owned? number = some owned) (machine : Machine Objects) :
    World.release item machine = owned.drop
      (fun _ machine => match item.object with
        | .box kind _ => World.release.dropValue kind machine
        | _ => machine)
      (World.allocator item.origin) machine := by
  obtain ⟨name, origin, object⟩ := item
  cases object with
  | tracker => cases h
  | region region home | interner interner home =>
    obtain rfl := Option.some.inj h
    cases home <;> rfl
  | box kind addr =>
    obtain rfl := Option.some.inj h
    rfl

/-- All values so far, by their numbers, and those that were not dropped yet. -/
structure Boxes where
  issued : Nat := 0
  live : List Owned := []

namespace Boxes

def grants (boxes : Boxes) : Multiset Grant := (boxes.live.map Owned.grants).sum

def add (boxes : Boxes) (content : Content) : Boxes :=
  ⟨boxes.issued + 1, ⟨boxes.issued, none, content⟩ :: boxes.live⟩

/-- What can be done with values short of dropping one. A new value is with a client, and is moved
into a box unless the box finds no storage. -/
inductive Step (contentHash : ContentHash) (backing : Allocator τ)
    (others : Multiset Grant → Machine τ → Machine τ → Prop) :
    Boxes → Machine τ → Boxes → Machine τ → Prop where
  | made {boxes machine content} : content.IsNew →
      Step contentHash backing others boxes machine (boxes.add content) machine
  | presized {boxes machine anchor loadFactor capacity arenaLimit interner machine'} :
      (Interner.create anchor loadFactor capacity arenaLimit).presize backing capacity machine =
        (.ok interner, machine') →
      Step contentHash backing others boxes machine (boxes.add (.interner interner)) machine'
  | notPresized {boxes machine anchor loadFactor capacity arenaLimit failure machine'} :
      (Interner.create anchor loadFactor capacity arenaLimit).presize backing capacity machine =
        (.error failure, machine') →
      Step contentHash backing others boxes machine boxes machine'
  | boxed (before after) {issued number content machine home machine'}
      (init : Word → Memory → Memory) :
      backing.box content.layout init machine = (some home, machine') →
      Step contentHash backing others ⟨issued, before ++ ⟨number, none, content⟩ :: after⟩ machine
        ⟨issued, before ++ ⟨number, some home, content⟩ :: after⟩ machine'
  | handedBack (before after) {issued number content machine machine'}
      (init : Word → Memory → Memory) :
      backing.box content.layout init machine = (none, machine') →
      Step contentHash backing others ⟨issued, before ++ ⟨number, none, content⟩ :: after⟩ machine
        ⟨issued, before ++ ⟨number, none, content⟩ :: after⟩ machine'
  | region (before after) {issued number home region machine result region' machine'}
      (op : Region.Operation) : op.perform backing region machine = (result, region', machine') →
      Step contentHash backing others
        ⟨issued, before ++ ⟨number, home, .region region⟩ :: after⟩ machine
        ⟨issued, before ++ ⟨number, home, .region region'⟩ :: after⟩ machine'
  | interner (before after) {issued number home interner machine answer interner' machine'}
      (op : Interner.Operation) :
      op.perform contentHash backing interner machine = (answer, interner', machine') →
      Step contentHash backing others
        ⟨issued, before ++ ⟨number, home, .interner interner⟩ :: after⟩ machine
        ⟨issued, before ++ ⟨number, home, .interner interner'⟩ :: after⟩ machine'
  | others {boxes machine machine'} : others boxes.grants machine machine' →
      Step contentHash backing others boxes machine boxes machine'

inductive Run (note : Owned → Machine τ → Machine τ) (contentHash : ContentHash)
    (backing : Allocator τ) (others : Multiset Grant → Machine τ → Machine τ → Prop)
    (start : Machine τ) : Boxes → Machine τ → Prop where
  | start : Run note contentHash backing others start {} start
  | step {boxes machine boxes' machine'} : Run note contentHash backing others start boxes machine →
      Step contentHash backing others boxes machine boxes' machine' →
      Run note contentHash backing others start boxes' machine'
  | drop (before after) {issued owned machine} :
      Run note contentHash backing others start ⟨issued, before ++ owned :: after⟩ machine →
      Run note contentHash backing others start ⟨issued, before ++ after⟩
        (owned.drop note backing machine)

/-- The blocks of all values are out, and each value can give its own back. -/
structure Owns {backing : Allocator τ} (ledger : backing.Ledger) (boxes : Boxes)
    (machine : Machine τ) : Prop where
  sized : ∀ owned ∈ boxes.live, owned.content.Sized
  holds : ledger.holds boxes.grants machine.store

variable {contentHash : ContentHash} {backing : Allocator τ} {ledger : backing.Ledger}
  {others : Multiset Grant → Machine τ → Machine τ → Prop} {note : Owned → Machine τ → Machine τ}
  {boxes boxes' : Boxes} {start machine machine' : Machine τ} {issued : Nat}
  {before after : List Owned} {owned owned' : Owned} {content : Content}

theorem grants_middle (issued' : Nat) : (⟨issued, before ++ owned :: after⟩ : Boxes).grants =
    owned.grants + (⟨issued', before ++ after⟩ : Boxes).grants := by
  simp only [grants, List.map_append, List.map_cons, List.sum_append, List.sum_cons]
  exact add_left_comm _ _ _

namespace Owns

theorem add (h : Owns ledger boxes machine) (hsized : content.Sized)
    (hholds : ledger.holds (content.grants + boxes.grants) machine'.store) :
    Owns ledger (boxes.add content) machine' := by
  refine ⟨?_, ?_⟩
  · intro owned howned
    obtain rfl | howned := List.mem_cons.1 howned
    · exact hsized
    · exact h.sized owned howned
  · have hgrants : (boxes.add content).grants = content.grants + boxes.grants := by
      rw [grants, Boxes.add, List.map_cons, List.sum_cons, Owned.grants_eq, granted_none, add_zero]
      rfl
    rwa [hgrants]

theorem replace (h : Owns ledger ⟨issued, before ++ owned :: after⟩ machine)
    (hsized : owned'.content.Sized)
    (hholds : ∀ rest, ledger.holds (owned.grants + rest) machine.store →
      ledger.holds (owned'.grants + rest) machine'.store) :
    Owns ledger ⟨issued, before ++ owned' :: after⟩ machine' := by
  refine ⟨?_, ?_⟩
  · intro other hother
    obtain hbefore | rfl | hafter := by simpa using hother
    · exact h.sized other (by simp [hbefore])
    · exact hsized
    · exact h.sized other (by simp [hafter])
  · have hgrants := h.holds
    rw [grants_middle issued] at hgrants ⊢
    exact hholds _ hgrants

theorem sized_middle (h : Owns ledger ⟨issued, before ++ owned :: after⟩ machine) :
    owned.content.Sized :=
  h.sized owned (List.mem_append_right _ List.mem_cons_self)

theorem drop (h : Owns ledger ⟨issued, before ++ owned :: after⟩ machine)
    {ledger' : backing.Ledger} (hnote : ∀ out, ledger.holds out machine.store →
      ledger'.holds out (note owned machine).store) :
    Owns ledger' ⟨issued, before ++ after⟩ (owned.drop note backing machine) := by
  refine ⟨?_, ?_⟩
  · intro other hother
    obtain hbefore | hafter := List.mem_append.1 hother
    · exact h.sized other (List.mem_append_left _ hbefore)
    · exact h.sized other (List.mem_append_right _ (List.mem_cons_of_mem _ hafter))
  · have hgrants := h.holds
    rw [grants_middle issued] at hgrants
    exact Owned.drop_holds ledger' (hnote _ hgrants)

theorem step (h : Owns ledger boxes machine)
    (hothers : ∀ {mine machine machine'}, ledger.holds mine machine.store →
      others mine machine machine' → ledger.holds mine machine'.store)
    (step : Step contentHash backing others boxes machine boxes' machine') :
    Owns ledger boxes' machine' := by
  cases step with
  | made hnew =>
    apply h.add (Content.sized_of_isNew hnew)
    rw [Content.grants_of_isNew hnew, zero_add]
    exact h.holds
  | presized hp =>
    obtain ⟨hsized, hholds⟩ := ((Interner.owns_create h.holds).presize hp).1 _ rfl
    refine h.add ?_ ?_
    · exact hsized
    · rwa [Content.grants_interner]
  | notPresized hp => exact ⟨h.sized, ((Interner.owns_create h.holds).presize hp).2 _ rfl⟩
  | @boxed before after issued number content _ home _ init hb =>
    refine h.replace ?_ ?_
    · exact h.sized_middle
    · intro rest hout
      rw [Owned.grants_eq, granted_none, add_zero] at hout
      rw [Owned.grants_eq, add_comm content.grants, add_assoc]
      exact ledger.box hout hb
  | handedBack before after init hb =>
    refine h.replace ?_ ?_
    · exact h.sized_middle
    · intro rest hout
      have hserved := ledger.box hout hb
      rwa [granted_none, zero_add] at hserved
  | region before after op hp =>
    refine h.replace ?_ ?_
    · trivial
    · intro rest hout
      rw [Owned.grants_eq, add_assoc] at hout ⊢
      exact Region.perform_holds ledger hout hp
  | @interner before after issued number home i _ answer i' _ op hp =>
    have hsized : i.Sized := h.sized_middle
    have hperformed : ∀ rest, ledger.holds (i.grants + rest) machine.store →
        Interner.Owns ledger rest i' machine' :=
      fun rest hout => Interner.Owns.perform ⟨hsized, hout⟩ hp
    have hgrants := h.holds
    rw [grants_middle issued, Owned.grants_eq, Content.grants_interner, add_assoc]
      at hgrants
    refine h.replace ?_ ?_
    · exact (hperformed _ hgrants).sized
    · intro rest hout
      rw [Owned.grants_eq, Content.grants_interner, add_assoc] at hout ⊢
      exact (hperformed _ hout).holds
  | others ho => exact ⟨h.sized, hothers h.holds ho⟩

end Owns

/-- On any allocator of whose blocks there is a ledger, a drop that takes no part in it leaves the
blocks of the values that are left. -/
theorem Run.owns (hstart : ledger.holds 0 start.store)
    (hnote : ∀ {owned machine}, (note owned machine).store = machine.store)
    (hothers : ∀ {mine machine machine'}, ledger.holds mine machine.store →
      others mine machine machine' → ledger.holds mine machine'.store)
    (run : Run note contentHash backing others start boxes machine) : Owns ledger boxes machine := by
  induction run with
  | start => exact ⟨by simp, hstart⟩
  | step run ht ih => exact ih.step hothers ht
  | drop before after run ih =>
    apply ih.drop
    intro out hout
    rwa [hnote]

theorem Step.numbers {dropped : Multiset Nat}
    (step : Step contentHash backing others boxes machine boxes' machine')
    (h : dropped + (boxes.live.map Owned.number : List Nat) = Multiset.range boxes.issued) :
    dropped + (boxes'.live.map Owned.number : List Nat) = Multiset.range boxes'.issued := by
  cases step with
  | made | presized =>
    rw [add, Multiset.range_succ, ← h, List.map_cons, ← Multiset.cons_coe, Multiset.add_cons]
  | notPresized | handedBack | others => exact h
  | boxed | region | interner =>
    rw [List.map_append, List.map_cons] at h ⊢
    exact h

end Boxes

/-- A drop as it begins: the value as it is then, and the calls until then. -/
structure Dropping where
  owned : Owned
  calls : List Call

/-- A record of calls, and in what lies behind it a log of drops, newest first. -/
abbrev Attended (σ : Type) := Recorded (List Dropping × σ)

def Allocator.attended (inner : Allocator σ) : Allocator (Attended σ) :=
  (inner.within Prod.snd fun store behind => (behind.1, store)).recorded

section Attended

variable {inner : Allocator σ} {machine machine' : Machine (Attended σ)} {content : Content}
  {owned : Owned} {layout : Layout} {init : Word → Memory → Memory}

def dropsOf (machine : Machine (Attended σ)) : List Dropping := machine.store.inner.1

def Owned.attend (owned : Owned) (machine : Machine (Attended σ)) : Machine (Attended σ) :=
  machine.withStore ⟨machine.store.calls,
    ⟨owned, machine.store.calls⟩ :: machine.store.inner.1, machine.store.inner.2⟩

def Allocator.attendedLedger (inner : Allocator σ) (drops : List Dropping) (earlier : List Call) :
    inner.attended.Ledger where
  holds out store := outstanding? store.calls = some out ∧ store.inner.1 = drops ∧
    earlier <:+ store.calls
  alloc := by
    rintro out layout machine result machine' ⟨hout, hdrops, hearlier⟩ ha
    obtain ⟨rfl, rfl⟩ := Prod.mk.inj ha
    exact ⟨outstanding?_cons hout, hdrops, hearlier.trans (List.suffix_cons _ _)⟩
  release := by
    rintro out addr layout machine ⟨hout, hdrops, hearlier⟩
    exact ⟨outstanding?_release hout, hdrops, hearlier.trans (List.suffix_cons _ _)⟩
  nativeRealloc := by
    rintro realloc hnative out addr old new machine result machine' hnew ⟨hout, hdrops, hearlier⟩ hr
    have hledger := (recordedLedger _).nativeRealloc hnative hnew hout hr
    obtain ⟨within, hwithin, rfl⟩ := Option.map_eq_some_iff.1 hnative
    obtain ⟨realloc, hinner, rfl⟩ := Option.map_eq_some_iff.1 hwithin
    obtain ⟨rfl, rfl⟩ := Prod.mk.inj hr
    exact ⟨hledger, hdrops, hearlier.trans (List.suffix_cons _ _)⟩
  nativeZalloc := by
    rintro zalloc hnative out layout machine result machine' ⟨hout, hdrops, hearlier⟩ hz
    have hledger := (recordedLedger _).nativeZalloc hnative hout hz
    obtain ⟨within, hwithin, rfl⟩ := Option.map_eq_some_iff.1 hnative
    obtain ⟨zalloc, hinner, rfl⟩ := Option.map_eq_some_iff.1 hwithin
    obtain ⟨rfl, rfl⟩ := Prod.mk.inj hz
    exact ⟨hledger, hdrops, hearlier.trans (List.suffix_cons _ _)⟩

theorem releaseChunks_drops (chunks : List Chunk) :
    dropsOf (Region.releaseChunks inner.attended chunks machine) = dropsOf machine := by
  induction chunks generalizing machine with
  | nil => rfl
  | cons chunk chunks ih => exact ih

theorem Buffer.release_drops {element : Layout} {buffer : Buffer} :
    dropsOf (buffer.release inner.attended element machine) = dropsOf machine := by
  rw [release]
  by_cases hzero : buffer.capacity = 0
  · rw [if_pos hzero]
  · rw [if_neg hzero]
    cases element.array buffer.capacity <;> rfl

theorem Content.finalize_drops :
    dropsOf (content.finalize inner.attended machine) = dropsOf machine := by
  cases content with
  | plain => rfl
  | region r => exact releaseChunks_drops r.chunks
  | interner i =>
    apply Buffer.release_drops.trans
    apply Buffer.release_drops.trans
    exact releaseChunks_drops i.arena.chunks

/-- A drop is noted once. Then what the value obtained goes back, then the storage of its box, and
nothing else is called. -/
theorem Owned.drop_attended (inner : Allocator σ) (owned : Owned)
    (machine : Machine (Attended σ)) :
    (owned.drop attend inner.attended machine).store.calls =
        releases owned.blocks ++ machine.store.calls ∧
      dropsOf (owned.drop attend inner.attended machine) =
        ⟨owned, machine.store.calls⟩ :: dropsOf machine := by
  have hcalls : (owned.content.finalize inner.attended (owned.attend machine)).store.calls =
      releases owned.content.blocks ++ machine.store.calls := Content.finalize_calls
  have hdrops : dropsOf (owned.content.finalize inner.attended (owned.attend machine)) =
      ⟨owned, machine.store.calls⟩ :: dropsOf machine := Content.finalize_drops
  rw [drop, blocks, releases_append]
  cases owned.home with
  | none => exact ⟨hcalls, hdrops⟩
  | some home => exact ⟨congrArg (_ :: ·) hcalls, hdrops⟩

theorem box_refused (hb : inner.attended.box layout init machine = (none, machine')) :
    machine'.store.calls = .alloc layout none :: machine.store.calls ∧
      dropsOf machine' = dropsOf machine := by
  have hboxing := hb ▸ inner.attended.boxing layout init machine
  cases hboxing with
  | refused ha =>
    obtain ⟨hresult, rfl⟩ := Prod.mk.inj ha
    exact ⟨congrArg (Call.alloc layout · :: machine.store.calls) hresult, rfl⟩

/-- What calls tell of a drop: as it began, everything that the value had was out, and next it went
back, the storage of its box last. -/
def Dropping.Released (dropping : Dropping) (calls : List Call) : Prop :=
  ∃ held, outstanding? dropping.calls = some held ∧ dropping.owned.grants ≤ held ∧
    releases dropping.owned.blocks ++ dropping.calls <:+ calls

namespace Boxes

variable {contentHash : ContentHash} {boxes : Boxes} {start : Machine (Attended σ)}

def Quiet (_ : Multiset Grant) (machine machine' : Machine (Attended σ)) : Prop :=
  machine'.store.calls = machine.store.calls ∧ dropsOf machine' = dropsOf machine

structure Attentive (boxes : Boxes) (inner : Allocator σ) (machine : Machine (Attended σ)) :
    Prop where
  owns : boxes.Owns (inner.attendedLedger (dropsOf machine) machine.store.calls) machine
  numbers : ((dropsOf machine).map fun dropping => dropping.owned.number : List Nat) +
    (boxes.live.map Owned.number : List Nat) = Multiset.range boxes.issued
  released : ∀ dropping ∈ dropsOf machine, dropping.Released machine.store.calls

theorem Attentive.step {boxes' : Boxes} (h : boxes.Attentive inner machine)
    (step : Step contentHash inner.attended Quiet boxes machine boxes' machine') :
    boxes'.Attentive inner machine' := by
  have howns := h.owns.step (by
    rintro mine machine machine' ⟨hout, hdrops, hearlier⟩ ⟨hcalls, hkept⟩
    exact ⟨hcalls ▸ hout, hkept.trans hdrops, hcalls ▸ hearlier⟩) step
  obtain ⟨hout, hdrops, hearlier⟩ := howns.holds
  change dropsOf machine' = dropsOf machine at hdrops
  refine ⟨⟨howns.sized, hout, rfl, List.suffix_rfl⟩, ?_, ?_⟩
  · rw [hdrops]
    exact step.numbers h.numbers
  · rw [hdrops]
    intro dropping hdropping
    obtain ⟨held, hheld, hle, hcalls⟩ := h.released dropping hdropping
    exact ⟨held, hheld, hle, hcalls.trans hearlier⟩

theorem Attentive.drop {issued : Nat} {before after : List Owned}
    (h : Attentive ⟨issued, before ++ owned :: after⟩ inner machine) :
    Attentive ⟨issued, before ++ after⟩ inner
      (owned.drop Owned.attend inner.attended machine) := by
  obtain ⟨hcalls, hdrops⟩ := owned.drop_attended inner machine
  have howns : Owns
      (inner.attendedLedger (⟨owned, machine.store.calls⟩ :: dropsOf machine) [])
      ⟨issued, before ++ after⟩ (owned.drop Owned.attend inner.attended machine) := by
    apply h.owns.drop
    rintro out ⟨hout, hkept, -⟩
    exact ⟨hout, congrArg (_ :: ·) hkept, List.nil_suffix⟩
  refine ⟨⟨howns.sized, howns.holds.1, rfl, List.suffix_rfl⟩, ?_, ?_⟩
  · rw [hdrops, ← h.numbers]
    simp only [List.map_cons, List.map_append, ← Multiset.coe_add, ← Multiset.cons_coe,
      Multiset.cons_add, Multiset.add_cons]
  · rw [hdrops, hcalls]
    intro dropping hdropping
    obtain rfl | hdropping := List.mem_cons.1 hdropping
    · refine ⟨_, h.owns.holds.1, ?_, List.suffix_rfl⟩
      rw [grants_middle issued]
      exact Multiset.le_add_right _ _
    · obtain ⟨held, hheld, hle, hsuffix⟩ := h.released dropping hdropping
      exact ⟨held, hheld, hle, hsuffix.trans (List.suffix_append _ _)⟩

theorem Run.attentive (hcalls : start.store.calls = []) (hdrops : dropsOf start = [])
    (run : Run Owned.attend contentHash inner.attended Quiet start boxes machine) :
    boxes.Attentive inner machine := by
  induction run with
  | start =>
    refine ⟨⟨by simp, ?_, rfl, List.suffix_rfl⟩, by simp [hdrops], by simp [hdrops]⟩
    rw [hcalls]
    rfl
  | step run ht ih => exact ih.step ht
  | drop before after run ih => exact ih.drop

end Boxes

end Attended

namespace Boxes

/-- Elsewhere the allocator behind a tracker is used by others, and the tracker counts nothing. -/
def Uncounted {inner : Allocator σ} (placement : inner.Placement) (mine : Multiset Grant)
    (machine machine' : Machine (Tracker × σ)) : Prop :=
  machine'.store.1.stats = machine.store.1.stats ∧ placement.shared.holds mine machine'.store.2

/-- Values are dropped once and in order, however creations, uses and drops of boxes are
interleaved. A value gives back all that it obtained before its box does. -/
theorem boxes_drop_once :
    (∀ {σ : Type} {inner : Allocator σ} {contentHash boxes} {start machine : Machine (Attended σ)},
      start.store.calls = [] → dropsOf start = [] →
      Run Owned.attend contentHash inner.attended Quiet start boxes machine →
      ((dropsOf machine).map fun dropping => dropping.owned.number : List Nat) +
          (boxes.live.map Owned.number : List Nat) = Multiset.range boxes.issued ∧
        Balanced machine.store.calls boxes.grants ∧
        (∀ dropping ∈ dropsOf machine, dropping.Released machine.store.calls) ∧
        (∀ layout init machine', inner.attended.box layout init machine = (none, machine') →
          machine'.store.calls = .alloc layout none :: machine.store.calls ∧
            dropsOf machine' = dropsOf machine ∧
            outstanding? machine'.store.calls = some boxes.grants) ∧
        (∀ owned : Owned, owned.home = none → owned.content.IsNew →
          (owned.drop Owned.attend inner.attended machine).store.calls = machine.store.calls ∧
            dropsOf (owned.drop Owned.attend inner.attended machine) =
              ⟨owned, machine.store.calls⟩ :: dropsOf machine) ∧
        ∀ before owned after, boxes.live = before ++ owned :: after →
          (owned.drop Owned.attend inner.attended machine).store.calls =
              releases owned.blocks ++ machine.store.calls ∧
            dropsOf (owned.drop Owned.attend inner.attended machine) =
              ⟨owned, machine.store.calls⟩ :: dropsOf machine ∧
            Balanced (owned.drop Owned.attend inner.attended machine).store.calls
              (Boxes.grants ⟨boxes.issued, before ++ after⟩)) ∧
    ∀ {σ : Type} {inner : Allocator σ} {contentHash boxes} {start machine : Machine (Tracker × σ)}
      {note : Owned → Machine (Tracker × σ) → Machine (Tracker × σ)} (placement : inner.Placement),
      (∀ owned machine, (note owned machine).store = machine.store) →
      start.store.1.stats.outstanding = 0 → placement.shared.holds 0 start.store.2 →
      Run note contentHash inner.accounted (Uncounted placement) start boxes machine →
      machine.store.1.stats.outstanding.toNat = bytesOut boxes.grants ∧
      ∀ before owned after, boxes.live = before ++ owned :: after →
        machine.store.1.stats.outstanding.toNat = bytesOut owned.grants +
            bytesOut (Boxes.grants ⟨boxes.issued, before ++ after⟩) ∧
          (owned.drop note inner.accounted machine).store.1.stats.outstanding.toNat =
            bytesOut (Boxes.grants ⟨boxes.issued, before ++ after⟩) := by
  constructor
  · intro σ inner contentHash boxes start machine hcalls hdrops run
    have hattentive := run.attentive hcalls hdrops
    have hout := hattentive.owns.holds.1
    refine ⟨hattentive.numbers, balanced hout, hattentive.released, ?_, ?_, ?_⟩
    · intro layout init machine' hb
      obtain ⟨hasked, hkept⟩ := box_refused hb
      refine ⟨hasked, hkept, ?_⟩
      rw [hasked, outstanding?_cons hout, Call.settle?, granted_none, zero_add]
    · intro owned hhome hnew
      obtain ⟨hdropped, hnoted⟩ := owned.drop_attended inner machine
      have hnone : owned.blocks = [] := by
        rw [Owned.blocks, Content.blocks_of_isNew hnew, hhome]
        rfl
      rw [hnone] at hdropped
      exact ⟨hdropped, hnoted⟩
    · intro before owned after hlive
      obtain ⟨issued, live⟩ := boxes
      obtain rfl : live = before ++ owned :: after := hlive
      obtain ⟨hdropped, hnoted⟩ := owned.drop_attended inner machine
      exact ⟨hdropped, hnoted, balanced hattentive.drop.owns.holds.1⟩
  · intro σ inner contentHash boxes start machine note placement hnote hstart hbehind run
    have howns : boxes.Owns placement.shared.accounted.toLedger machine := by
      refine run.owns ⟨hbehind, .zero, ?_⟩ (hnote _ _) ?_
      · rw [hstart]
        rfl
      · rintro mine machine machine' ⟨-, hcounted⟩ ⟨hstats, hholds⟩
        exact ⟨hholds, hcounted.1, by rw [hstats]; exact hcounted.2⟩
    have hcounted := howns.holds.2.outstanding_eq
    refine ⟨hcounted, ?_⟩
    intro before owned after hlive
    obtain ⟨issued, live⟩ := boxes
    obtain rfl : live = before ++ owned :: after := hlive
    have hdropped : Owns placement.shared.accounted.toLedger ⟨issued, before ++ after⟩
        (owned.drop note inner.accounted machine) := by
      apply howns.drop
      intro out hout
      rwa [hnote]
    refine ⟨?_, hdropped.holds.2.outstanding_eq⟩
    rw [hcounted, grants_middle issued, bytesOut_add]

theorem boxes_drop_once_beside_refused :
    (∃ (region : Region) (used refused : Machine (Attended Platform)),
      Platform.plainWindow.attended.box ⟨100000, .eight⟩ (fun _ memory => memory) used =
        (none, refused) ∧
      dropsOf refused = dropsOf used ∧
      refused.store.calls = .alloc ⟨100000, .eight⟩ none :: used.store.calls ∧
      (Owned.drop Owned.attend Platform.plainWindow.attended
          ⟨0, some 0x1000000000, .region region⟩ refused).store.calls =
        .release ⟨0x1000000000, Object.regionLayout⟩ ::
          .release ⟨0x1000000030, ⟨4096, .sixteen⟩⟩ :: refused.store.calls ∧
      outstanding? (Owned.drop Owned.attend Platform.plainWindow.attended
          ⟨0, some 0x1000000000, .region region⟩ refused).store.calls = some 0) ∧
    ∃ (region : Region) (used : Machine (Tracker × Platform)),
      used.store.1.stats.outstanding.toNat = 4096 + 48 ∧
      (Owned.drop (fun _ machine => machine) Platform.plainWindow.accounted
          ⟨0, some 0x1000000000, .region region⟩ used).store.1.stats.outstanding.toNat = 0 := by
  have hcreate : Region.create 0x10000 8 = .ok ⟨0x10000, .eight, by decide, none, []⟩ := by decide
  have hnew : (Content.region ⟨0x10000, .eight, by decide, none, []⟩).IsNew := ⟨_, _, hcreate⟩
  have hplain : (Content.plain ⟨100000, .eight⟩).IsNew := trivial
  constructor
  · obtain ⟨boxed, result, region, used, refused, hboxed, hused, hrefused, hchunks⟩ :
        ∃ boxed result region used refused,
          Platform.plainWindow.attended.box Object.regionLayout (fun _ memory => memory)
            { store := { inner := ([], ⟨.ofCap 65536, {}⟩) } } = (some 0x1000000000, boxed) ∧
          Region.Operation.perform (.alloc ⟨100, .one⟩) Platform.plainWindow.attended
            ⟨0x10000, .eight, by decide, none, []⟩ boxed = (result, region, used) ∧
          Platform.plainWindow.attended.box ⟨100000, .eight⟩ (fun _ memory => memory) used =
            (none, refused) ∧
          region.chunks.map Chunk.grant = [⟨0x1000000030, ⟨4096, .sixteen⟩⟩] :=
      ⟨_, _, _, _, _, Prod.ext (by decide) rfl, rfl, Prod.ext (by decide) rfl, by decide⟩
    have hrun : Run Owned.attend (fun _ => 7) Platform.plainWindow.attended Quiet
        { store := { inner := ([], ⟨.ofCap 65536, {}⟩) } }
        ⟨1, [⟨0, some 0x1000000000, .region region⟩]⟩ used :=
      ((Run.start.step (.made hnew)).step (.boxed [] [] _ hboxed)).step (.region [] [] _ hused)
    obtain ⟨-, -, -, hask, -⟩ := boxes_drop_once.1 rfl rfl hrun
    obtain ⟨hasked, hdrops, -⟩ := hask _ _ _ hrefused
    obtain ⟨-, -, -, -, -, hdrop⟩ := boxes_drop_once.1 rfl rfl
      ((hrun.step (.made hplain)).step (.handedBack [] _ _ hrefused))
    obtain ⟨hcalls, -, hbalanced⟩ := hdrop [_] _ [] rfl
    refine ⟨region, used, refused, hrefused, hdrops, hasked, ?_, hbalanced.outstanding_eq⟩
    rw [hcalls, Owned.blocks, Content.blocks, hchunks]
    rfl
  · obtain ⟨boxed, result, region, used, hboxed, hused, hbytes⟩ : ∃ boxed result region used,
          Platform.plainWindow.accounted.box Object.regionLayout (fun _ memory => memory)
            { store := ({}, ⟨.ofCap 65536, {}⟩) } = (some 0x1000000000, boxed) ∧
          Region.Operation.perform (.alloc ⟨100, .one⟩) Platform.plainWindow.accounted
            ⟨0x10000, .eight, by decide, none, []⟩ boxed = (result, region, used) ∧
          used.store.1.stats.outstanding.toNat = 4096 + 48 :=
      ⟨_, _, _, _, Prod.ext (by decide) rfl, rfl, by decide⟩
    have hbehind : Platform.plainWindowContract.toPlacement.shared.holds 0
        (⟨.ofCap 65536, {}⟩ : Platform) := ⟨0, by decide, by decide, by simp⟩
    have hrun : Run (fun _ machine => machine) (fun _ => 7) Platform.plainWindow.accounted
        (Uncounted Platform.plainWindowContract.toPlacement)
        { store := ({}, ⟨.ofCap 65536, {}⟩) } ⟨1, [⟨0, some 0x1000000000, .region region⟩]⟩ used :=
      ((Run.start.step (.made hnew)).step (.boxed [] [] _ hboxed)).step (.region [] [] _ hused)
    obtain ⟨-, hdrop⟩ := boxes_drop_once.2 Platform.plainWindowContract.toPlacement
      (fun _ _ => rfl) rfl hbehind hrun
    exact ⟨region, used, hbytes, (hdrop [] _ [] rfl).2⟩

end Boxes

end ArenaMemory
