import ArenaMemory.Proofs.World.Site

namespace ArenaMemory

variable {ι β σ : Type}

theorem BoxKind.length_words (kind : BoxKind) (value : Word) :
    ((kind.words value).flatMap fun word => littleEndian 8 word.toNat).length ≤
      kind.layout.size.toNat := by
  cases kind <;> simp [BoxKind.words, BoxKind.layout, Region.length_littleEndian]

/-- What comes of creating an object, if there is room for what it asks for. -/
inductive Created (handle : Allocator σ) (machine : Machine σ) : Option Object → Machine σ → Prop where
  | tracker (budget) : Created handle machine (some (.tracker { budget })) machine
  | region {anchor minAlign region} (limit) : Region.create anchor minAlign = .ok region →
      Created handle machine (some (.region (region.setLimit limit) none)) machine
  | boxedRegion {anchor minAlign region home machine'} : Region.create anchor minAlign = .ok region →
      handle.box Object.regionLayout (fun _ memory => memory) machine = (home, machine') →
      Created handle machine (home.map fun home => .region region (some home)) machine'
  | interner (anchor loadFactor capacity arenaLimit) :
      Created handle machine
        (some (.interner (.create anchor loadFactor capacity arenaLimit) none)) machine
  | presized {anchor loadFactor capacity arenaLimit made machine'} :
      (Interner.create anchor loadFactor capacity arenaLimit).presize handle capacity machine =
        (made, machine') →
      Created handle machine (made.toOption.map fun interner => .interner interner none) machine'
  | boxedInterner {home machine'} (anchor loadFactor capacity arenaLimit) :
      handle.box Object.internerLayout (fun _ memory => memory) machine = (home, machine') →
      Created handle machine (home.map fun home =>
        .interner (.create anchor loadFactor capacity arenaLimit) (some home)) machine'
  | box {home machine'} (kind : BoxKind) (value) :
      handle.box kind.layout (fun addr memory => memory.writeWords addr (kind.words value)) machine =
        (home, machine') →
      Created handle machine (home.map (.box kind)) machine'

namespace Object

def drop (handle : Allocator (Store ι β)) (object : Object) (machine : Machine (Store ι β)) :
    Machine (Store ι β) :=
  match object with
  | .tracker _ => machine
  | .region r home => r.drop handle home machine
  | .interner i home => i.drop handle home machine
  | .box kind addr => handle.unbox kind.layout addr (dropValue kind) machine
where
  dropValue (kind : BoxKind) (machine : Machine (Store ι β)) : Machine (Store ι β) :=
    if kind = .flag then
      { machine with store := { machine.store with dropped := machine.store.dropped + 1 } }
    else machine

/-- That is how a world drops an object. -/
theorem release_item (item : Item BaseName) (machine : Machine Objects) :
    World.release item machine = item.object.drop (World.allocator item.origin) machine := by
  obtain ⟨name, origin, object⟩ := item
  cases object with
  | tracker | box => rfl
  | region r home => exact Region.release_region machine
  | interner i home => exact Interner.release_interner machine

end Object

section Created

variable {handle : Allocator σ} {contract : handle.Contract} {kept : Multiset Grant}
  {machine machine' : Machine σ} {layout : Layout} {home : Option Word} {made : Option Object}

theorem Allocator.Contract.Spares.box {init : Word → Memory → Memory} (spares : contract.Spares kept)
    (h : contract.holds 0 machine.store)
    (hinit : ∀ addr memory, ∃ bytes, init addr memory = memory.write addr bytes ∧
      bytes.length ≤ layout.size.toNat)
    (hb : handle.box layout init machine = (home, machine')) :
    contract.holds (granted home layout) machine'.store ∧
      AgreeOn kept machine.memory machine'.memory := by
  have hheld : contract.holds (granted home layout) machine'.store :=
    add_zero (granted home layout) ▸ contract.toLedger.box h hb
  have hboxing := hb ▸ handle.boxing layout init machine
  cases hboxing with
  | refused ha => exact ⟨hheld, spares.alloc h ha⟩
  | @written addr served ha =>
    obtain ⟨bytes, hbytes, hlen⟩ := hinit addr served.memory
    have hwritten : AgreeOn kept served.memory (init addr served.memory) := by
      rw [hbytes]
      exact spares.write (g := ⟨addr, layout⟩) (by rwa [add_zero]) hlen
    exact ⟨hheld, (spares.alloc h ha).trans hwritten⟩

theorem grants_boxed {make : Word → Object} (hmake : ∀ addr, (make addr).grants = {⟨addr, layout⟩}) :
    (home.map make).elim 0 Object.grants = granted home layout := by
  cases home with
  | none => rfl
  | some addr => exact hmake addr

theorem Created.served (spares : contract.Spares kept) (h : contract.holds 0 machine.store)
    (hc : Created handle machine made machine') :
    contract.holds (made.elim 0 Object.grants) machine'.store ∧
      (∀ object, made = some object → object.Hosts 0) ∧
      AgreeOn kept machine.memory machine'.memory := by
  have hmoved : ∀ {layout home machine'},
      handle.box layout (fun _ memory => memory) machine = (home, machine') →
      contract.holds (granted home layout) machine'.store ∧
        AgreeOn kept machine.memory machine'.memory :=
    fun hb => spares.box h (fun _ _ => ⟨[], rfl, Nat.zero_le _⟩) hb
  have hempty : ∀ anchor loadFactor capacity arenaLimit home,
      (Object.interner (.create anchor loadFactor capacity arenaLimit) home).Hosts 0 :=
    fun _ _ _ _ _ => ⟨(Interner.owns_create h).sized,
      Region.hosts_zero (Region.sound_of_chunks_nil rfl)⟩
  cases hc with
  | tracker => exact ⟨h, by simp [Object.Hosts], .refl _ _⟩
  | @region _ _ region limit hr =>
    have hcreated := Region.chunks_of_create hr
    have hchunks : (region.setLimit limit).chunks = [] := hcreated
    refine ⟨?_, fun object he => ?_, .refl _ _⟩
    · rw [Option.elim_some, Object.grants, Region.grants_of_chunks_nil hchunks, granted_none, add_zero]
      exact h
    · obtain rfl := Option.some.inj he
      exact Region.hosts_zero (Region.sound_of_chunks_nil hchunks)
  | @boxedRegion _ _ region home _ hr hb =>
    have hchunks := Region.chunks_of_create hr
    obtain ⟨hserved, hkept⟩ := hmoved hb
    refine ⟨?_, fun object he => ?_, hkept⟩
    · rwa [grants_boxed fun addr => ?_]
      rw [Object.grants, Region.grants_of_chunks_nil hchunks, zero_add, granted_some]
    · obtain ⟨home, -, rfl⟩ := Option.map_eq_some_iff.1 he
      exact Region.hosts_zero (Region.sound_of_chunks_nil hchunks)
  | interner => exact ⟨h, fun object he => Option.some.inj he ▸ hempty _ _ _ _ _, .refl _ _⟩
  | @presized anchor loadFactor capacity arenaLimit made _ hp =>
    have howns : Interner.Owns contract.toLedger 0
        (.create anchor loadFactor capacity arenaLimit) machine := Interner.owns_create h
    have hpresized := howns.presize hp
    have hcarried := Interner.presize_carried spares howns
      (Region.hosts_zero (Region.sound_of_chunks_nil rfl)) hp
    cases made with
    | error failure => exact ⟨hpresized.2 failure rfl, by simp [Except.toOption], hcarried.1⟩
    | ok interner =>
      refine ⟨(hpresized.1 interner rfl).holds, fun object he => ?_, hcarried.1⟩
      obtain rfl := Option.some.inj he
      exact ⟨(hpresized.1 interner rfl).sized, (hcarried.2 interner rfl).hosts⟩
  | @boxedInterner home _ _ _ _ _ hb =>
    obtain ⟨hserved, hkept⟩ := hmoved hb
    refine ⟨?_, fun object he => ?_, hkept⟩
    · rwa [grants_boxed fun addr => ?_]
      exact zero_add _
    · obtain ⟨home, -, rfl⟩ := Option.map_eq_some_iff.1 he
      exact hempty _ _ _ _ _
  | @box home _ kind value hb =>
    obtain ⟨hserved, hkept⟩ := spares.box h (fun addr _ => ⟨_, rfl, kind.length_words value⟩) hb
    refine ⟨?_, fun object he => ?_, hkept⟩
    · rwa [grants_boxed fun _ => rfl]
    · obtain ⟨home, -, rfl⟩ := Option.map_eq_some_iff.1 he
      trivial

end Created

section Drop

variable {handle : Allocator (Store ι β)} {contract : handle.Contract} {kept : Multiset Grant}
  {object : Object} {machine : Machine (Store ι β)}

theorem Object.dropped (spares : contract.Spares kept)
    (hcount : ∀ {out store dropped}, contract.holds out store →
      contract.holds out { store with dropped := dropped })
    (h : contract.holds object.grants machine.store) :
    contract.holds 0 (object.drop handle machine).store ∧
      AgreeOn kept machine.memory (object.drop handle machine).memory := by
  cases object with
  | tracker t => exact ⟨h, .refl _ _⟩
  | region r home =>
    rw [Object.grants, ← add_zero (granted _ _)] at h
    exact ⟨Region.drop_holds contract.toLedger h, Region.drop_kept spares.keeps h⟩
  | interner i home =>
    rw [Object.grants, ← add_zero (granted _ _)] at h
    exact ⟨Interner.drop_holds h, Interner.drop_kept spares.keeps h⟩
  | box kind addr =>
    have hcounted : contract.holds ({⟨addr, kind.layout⟩} + 0)
        (drop.dropValue kind machine).store := by
      rw [add_zero, drop.dropValue]
      split
      · exact hcount h
      · exact h
    have hsame : (drop.dropValue kind machine).memory = machine.memory := by
      rw [drop.dropValue]
      split <;> rfl
    exact ⟨contract.release hcounted, hsame ▸ spares.release hcounted⟩

end Drop

end ArenaMemory
