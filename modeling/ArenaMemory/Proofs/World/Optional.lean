import ArenaMemory.Proofs.Allocator.Window
import ArenaMemory.Proofs.Interner.Lockstep
import ArenaMemory.Proofs.World.Towers

namespace ArenaMemory

open Allocator

variable {ι β : Type} {same : β → β → Prop} {base base' : Allocator β}

structure Store.Alike (same : β → β → Prop) (store store' : Store ι β) : Prop where
  items_eq : store.items = store'.items
  dropped_eq : store.dropped = store'.dropped
  base : same store.base store'.base

namespace Store.Alike

variable {store store' : Store ι β} {name : String}

theorem equivalence (h : Equivalence same) : Equivalence (@Store.Alike ι β same) where
  refl store := ⟨rfl, rfl, h.refl store.base⟩
  symm hab := ⟨hab.items_eq.symm, hab.dropped_eq.symm, h.symm hab.base⟩
  trans hab hbc :=
    ⟨hab.items_eq.trans hbc.items_eq, hab.dropped_eq.trans hbc.dropped_eq, h.trans hab.base hbc.base⟩

theorem tracker?_eq (h : store.Alike same store') : store.tracker? name = store'.tracker? name := by
  unfold tracker? find?
  rw [h.items_eq]

theorem region?_eq (h : store.Alike same store') : store.region? name = store'.region? name := by
  unfold region? find?
  rw [h.items_eq]

theorem put (h : store.Alike same store') (object : Object) :
    (store.put name object).Alike same (store'.put name object) := by
  refine ⟨?_, h.dropped_eq, h.base⟩
  unfold Store.put
  rw [h.items_eq]

theorem putRegion (h : store.Alike same store') (region : Region) :
    (store.putRegion name region).Alike same (store'.putRegion name region) := by
  refine ⟨?_, h.dropped_eq, h.base⟩
  unfold Store.putRegion
  rw [h.items_eq]

end Store.Alike

def Allocator.trim (allocator : Allocator β) (trims : Bool) : Allocator β :=
  if trims then allocator.composed else allocator

/-- The allocator of a handle, in a tower where some handles go without their native operations. -/
def Origin.trimmed (base : Allocator β) (trims : Origin ι → Bool) :
    Origin ι → Allocator (Store ι β)
  | .base which => ((Origin.base which).handle base).trim (trims (.base which))
  | .tracker name inner =>
    Allocator.trim
      ((inner.trimmed base trims).tracked (·.tracker? name) fun tracker store =>
        store.put name (.tracker tracker))
      (trims (.tracker name inner))
  | .region name inner =>
    Allocator.trim
      (.ofRegion (inner.trimmed base trims) (·.region? name) fun region store =>
        store.putRegion name region)
      (trims (.region name inner))

section Tower

variable {a b : Allocator (Store ι β)} {name : String} {trims : Origin ι → Bool}

theorem base_alike (which : ι) (h : base.Alike same base') :
    ((Origin.base which).handle base).Alike (Store.Alike same)
      ((Origin.base which).handle base') := by
  apply within_alike
  · intro store store' hstore
    exact hstore.base
  · intro store store' state state' hstore hstate
    exact ⟨hstore.items_eq, hstore.dropped_eq, hstate⟩
  · intro state store
    rfl
  · intro state state' store
    rfl
  · exact h

theorem tracker_alike (h : a.Alike (Store.Alike same) b) :
    (a.tracked (·.tracker? name) fun tracker store => store.put name (.tracker tracker)).Alike
      (Store.Alike same)
      (b.tracked (·.tracker? name) fun tracker store => store.put name (.tracker tracker)) :=
  tracked_alike (fun _ _ hstore => hstore.tracker?_eq) (fun _ _ _ hstore => hstore.put _) h

theorem region_alike (h : a.Alike (Store.Alike same) b) :
    (ofRegion a (·.region? name) fun region store => store.putRegion name region).Alike
      (Store.Alike same)
      (ofRegion b (·.region? name) fun region store => store.putRegion name region) :=
  ofRegion_alike (fun _ _ hstore => hstore.region?_eq) (fun region _ _ hstore =>
    hstore.putRegion region) h

variable (hsame : Equivalence same) (hbase : base.Alike same base.composed)
include hsame hbase

theorem handle_optional (origin : Origin ι) :
    (origin.handle base).Alike (Store.Alike same) (origin.handle base).composed := by
  have hstores : Equivalence (@Store.Alike ι β same) := Store.Alike.equivalence hsame
  induction origin with
  | base which => exact base_alike which hbase
  | tracker name inner ih =>
    exact tracked_optional (fun _ _ hstore => hstore.tracker?_eq) (fun _ _ _ hstore => hstore.put _)
      hstores ih
  | region name inner ih =>
    exact ofRegion_optional (fun _ _ hstore => hstore.region?_eq) (fun region _ _ hstore =>
      hstore.putRegion region) (ih.trans hstores (ih.symm hstores))

omit hbase in
theorem trim_alike (h : a.Alike (Store.Alike same) b)
    (hoptional : a.Alike (Store.Alike same) a.composed) (trims : Bool) :
    a.Alike (Store.Alike same) (b.trim trims) := by
  cases trims with
  | false => exact h
  | true => exact hoptional.trans (Store.Alike.equivalence hsame) h.composed

theorem trimmed_alike (trims : Origin ι → Bool) (origin : Origin ι) :
    (origin.handle base).Alike (Store.Alike same) (origin.trimmed base trims) := by
  have hoptional : ∀ origin : Origin ι, _ := handle_optional hsame hbase
  induction origin with
  | base which =>
    apply trim_alike hsame _ (hoptional (.base which))
    exact base_alike which (hbase.trans hsame (hbase.symm hsame))
  | tracker name inner ih =>
    exact trim_alike hsame (tracker_alike ih) (hoptional (.tracker name inner)) _
  | region name inner ih =>
    exact trim_alike hsame (region_alike ih) (hoptional (.region name inner)) _

end Tower

namespace Interner

/-- How a run begins: with a new interner, for which room is made at once or not. -/
structure Opening where
  anchor : Word
  loadFactor : LoadFactor
  capacity : Nat
  arenaLimit : Option Word
  presized : Bool

def Opening.perform (opening : Opening) (allocator : Allocator β) (machine : Machine β) :
    Except InternFailure Interner × Machine β :=
  let interner :=
    Interner.create opening.anchor opening.loadFactor opening.capacity opening.arenaLimit
  if opening.presized then interner.presize allocator opening.capacity machine
  else (.ok interner, machine)

/-- A step in a run: something is asked of the interner, or others act, also through the handles of
the tower. -/
inductive SessionStep (ι β : Type) where
  | perform (op : Operation)
  | others (act : (Origin ι → Allocator (Store ι β)) → Machine (Store ι β) → Machine (Store ι β))

def SessionStep.run (step : SessionStep ι β) (contentHash : ContentHash)
    (tower : Origin ι → Allocator (Store ι β)) (origin : Origin ι) (interner : Interner)
    (machine : Machine (Store ι β)) : Option Answer × Interner × Machine (Store ι β) :=
  match step with
  | perform op =>
    let (answer, interner, machine) := op.perform contentHash (tower origin) interner machine
    (some answer, interner, machine)
  | others act => (none, interner, act tower machine)

def history (contentHash : ContentHash) (tower : Origin ι → Allocator (Store ι β))
    (origin : Origin ι) :
    List (SessionStep ι β) → Interner → Machine (Store ι β) →
      List (Option Answer × Interner × Machine (Store ι β))
  | [], _, _ => []
  | step :: steps, interner, machine =>
    let out := step.run contentHash tower origin interner machine
    out :: history contentHash tower origin steps out.2.1 out.2.2

def session (contentHash : ContentHash) (tower : Origin ι → Allocator (Store ι β))
    (origin : Origin ι) (opening : Opening) (steps : List (SessionStep ι β))
    (machine : Machine (Store ι β)) : (Except InternFailure Interner × Machine (Store ι β)) ×
      List (Option Answer × Interner × Machine (Store ι β)) :=
  let begun := opening.perform (tower origin) machine
  match begun.1 with
  | .error _ => (begun, [])
  | .ok interner => (begun, history contentHash tower origin steps interner begun.2)

section Session

variable {contentHash : ContentHash} {tower tower' : Origin ι → Allocator (Store ι β)}
  {origin : Origin ι} {machine machine' : Machine (Store ι β)} {steps : List (SessionStep ι β)}

theorem Opening.perform_alike {a b : Allocator (Store ι β)} (h : a.Alike (Store.Alike same) b)
    (opening : Opening) (hm : machine.Alike (Store.Alike same) machine') :
    Paired (Machine.Alike (Store.Alike same)) (opening.perform a machine)
      (opening.perform b machine') := by
  unfold Opening.perform
  dsimp only
  by_cases hpresized : opening.presized = true
  · rw [if_pos hpresized, if_pos hpresized]
    exact presize_alike h _ opening.capacity hm
  · rw [if_neg hpresized, if_neg hpresized]
    exact .intro _ hm

/-- Others cannot tell the towers apart, either. -/
def Indifferent (same : β → β → Prop) (tower tower' : Origin ι → Allocator (Store ι β))
    (steps : List (SessionStep ι β)) : Prop :=
  ∀ act, SessionStep.others act ∈ steps → ∀ machine machine',
    machine.Alike (Store.Alike same) machine' →
      (act tower machine).Alike (Store.Alike same) (act tower' machine')

variable (h : ∀ origin, (tower origin).Alike (Store.Alike same) (tower' origin))
include h

theorem run_alike (step : SessionStep ι β) (hothers : Indifferent same tower tower' [step])
    (interner : Interner) (hm : machine.Alike (Store.Alike same) machine') :
    Paired (Paired (Machine.Alike (Store.Alike same)))
      (step.run contentHash tower origin interner machine)
      (step.run contentHash tower' origin interner machine') := by
  cases step with
  | perform op =>
    have hperformed := perform_alike (h origin) interner op contentHash hm
    unfold SessionStep.run
    dsimp only
    obtain ⟨answer, _, _, ha, hb, ⟨after, hm⟩⟩ := hperformed.exists_eq
    rw [ha, hb]
    exact .intro _ (.intro after hm)
  | others act =>
    exact .intro _ (.intro interner (hothers act (List.mem_singleton_self _) _ _ hm))

theorem history_alike (hothers : Indifferent same tower tower' steps) (interner : Interner)
    (hm : machine.Alike (Store.Alike same) machine') :
    List.Forall₂ (Paired (Paired (Machine.Alike (Store.Alike same))))
      (history contentHash tower origin steps interner machine)
      (history contentHash tower' origin steps interner machine') := by
  induction steps generalizing interner machine machine' with
  | nil => exact .nil
  | cons step steps ih =>
    have hfirst : Indifferent same tower tower' [step] := fun act hact =>
      hothers act (List.mem_singleton.1 hact ▸ List.mem_cons_self)
    have hlater : Indifferent same tower tower' steps := fun act hact =>
      hothers act (List.mem_cons_of_mem step hact)
    have hrun : Paired _ (step.run contentHash tower origin interner machine)
        (step.run contentHash tower' origin interner machine') :=
      run_alike h step hfirst interner hm
    refine .cons hrun ?_
    obtain ⟨answer, _, _, ha, hb, ⟨after, hm⟩⟩ := hrun.exists_eq
    rw [ha, hb]
    exact ih hlater after hm

theorem session_alike (opening : Opening) (hothers : Indifferent same tower tower' steps)
    (hm : machine.Alike (Store.Alike same) machine') :
    Paired (Machine.Alike (Store.Alike same))
        (session contentHash tower origin opening steps machine).1
        (session contentHash tower' origin opening steps machine').1 ∧
      List.Forall₂ (Paired (Paired (Machine.Alike (Store.Alike same))))
        (session contentHash tower origin opening steps machine).2
        (session contentHash tower' origin opening steps machine').2 := by
  have hbegun := opening.perform_alike (h origin) hm
  unfold session
  dsimp only
  obtain ⟨result, _, _, ha, hb, hm⟩ := hbegun.exists_eq
  rw [ha, hb]
  cases result with
  | error failure => exact ⟨.intro _ hm, .nil⟩
  | ok interner => exact ⟨.intro _ hm, history_alike h hothers interner hm⟩

end Session

end Interner

open Interner

/-- A handle without native operations has the outcome of one with them. So a run of an interner
over a tower of trackers and regions does not depend on which of them have some. -/
theorem native_operations_optional {σ : Type} (hsame : Equivalence same)
    (hbase : base.Alike same base.composed) :
    (∀ (backing : Allocator σ) (region? : σ → Option Region) (put : Region → σ → σ)
        (machine : Machine σ),
      (∀ region, region? machine.store = some region → put region machine.store = machine.store) →
      let handle := ofRegion backing region? put
      (∀ layout, handle.composed.alloc layout machine = handle.alloc layout machine) ∧
      (∀ layout, handle.composed.zalloc layout machine = handle.zalloc layout machine) ∧
      (∀ block layout, handle.composed.free block layout machine =
        handle.free block layout machine) ∧
      ∀ block old new, handle.composed.realloc block old new machine =
        handle.realloc block old new machine) ∧
    ∀ (trims : Origin ι → Bool) (contentHash : ContentHash) (origin : Origin ι) (opening : Opening)
      (steps : List (SessionStep ι β)) (start start' : Machine (Store ι β)),
      start.Alike (Store.Alike same) start' →
      Indifferent same (Origin.handle base) (Origin.trimmed base trims) steps →
      let run := session contentHash (Origin.handle base) origin opening steps start
      let run' := session contentHash (Origin.trimmed base trims) origin opening steps start'
      run.1.1 = run'.1.1 ∧ run.1.2.Alike (Store.Alike same) run'.1.2 ∧
      List.Forall₂ (fun out out' => out.1 = out'.1 ∧ out.2.1 = out'.2.1 ∧
        out.2.2.Alike (Store.Alike same) out'.2.2) run.2 run'.2 := by
  constructor
  · intro backing region? put machine hput handle
    refine ⟨fun layout => rfl, fun layout => ?_, fun block layout => rfl, fun block old new => ?_⟩
    · exact (ofRegion_zalloc backing region? put layout machine).symm
    · cases block with
      | none => rfl
      | some addr =>
        by_cases hnew : new.size = 0
        · exact (ofRegion_realloc_empty backing region? put machine hput addr old hnew).symm
        · exact (ofRegion_realloc backing region? put addr old machine hnew).symm
  · intro trims contentHash origin opening steps start start' hm hothers run run'
    have halike := trimmed_alike hsame hbase trims
    obtain ⟨hbegun, hsteps⟩ : Paired _ run.1 run'.1 ∧ List.Forall₂ _ run.2 run'.2 :=
      session_alike halike opening hothers hm
    refine ⟨hbegun.answer_eq, hbegun.rest, hsteps.imp ?_⟩
    intro out out' hout
    exact ⟨hout.answer_eq, hout.rest.answer_eq, hout.rest.rest⟩

theorem native_operations_optional_window :
    (∃ run run' : (Except InternFailure Interner × Machine (Store Unit Platform)) ×
        List (Option Answer × Interner × Machine (Store Unit Platform)),
      run = session (fun bytes => UInt64.ofNat bytes.length) (Origin.handle Platform.fullWindow)
        (.base ()) ⟨0x10000, .threeQuarters, 1, none, true⟩
        [.perform (.intern [97]), .perform (.intern [98, 99])]
        { store := { base := ⟨.ofCap 65536, {}⟩ } } ∧
      run' = session (fun bytes => UInt64.ofNat bytes.length)
        (Origin.trimmed Platform.fullWindow fun _ => true)
        (.base ()) ⟨0x10000, .threeQuarters, 1, none, true⟩
        [.perform (.intern [97]), .perform (.intern [98, 99])]
        { store := { base := ⟨.ofCap 65536, {}⟩ } } ∧
      run.2.map (fun out => out.2.2.store.base.window.calls.length) = [3, 4] ∧
      run'.2.map (fun out => out.2.2.store.base.window.calls.length) = [3, 5] ∧
      List.Forall₂ (fun out out' => out.1 = out'.1 ∧ out.2.1 = out'.2.1 ∧
        out.2.2.Alike (Store.Alike Platform.SameRoom) out'.2.2) run.2 run'.2) ∧
    ∃ handle : Allocator (Region × Platform),
      handle = ofRegion
        (Platform.plainWindow.within Prod.snd fun platform store => (store.1, platform))
        (fun store => some store.1) (fun region store => (region, store.2)) ∧
      handle.composed.realloc (some 8) ⟨8, .eight⟩ ⟨0, .eight⟩
          { store := ((Interner.create 0x10000 .threeQuarters 1 none).arena, ⟨.ofCap 65536, {}⟩) } =
        handle.realloc (some 8) ⟨8, .eight⟩ ⟨0, .eight⟩
          { store := ((Interner.create 0x10000 .threeQuarters 1 none).arena,
            ⟨.ofCap 65536, {}⟩) } := by
  obtain ⟨hregion, hrun⟩ := @native_operations_optional Unit _ _ _ (Region × Platform)
    Platform.sameRoom_equivalence Platform.fullWindow_alike
  obtain ⟨-, -, hsteps⟩ := hrun (fun _ => true) (fun bytes => UInt64.ofNat bytes.length) (.base ())
    ⟨0x10000, .threeQuarters, 1, none, true⟩ [.perform (.intern [97]), .perform (.intern [98, 99])]
    { store := { base := ⟨.ofCap 65536, {}⟩ } } { store := { base := ⟨.ofCap 65536, {}⟩ } }
    ⟨rfl, rfl, rfl, rfl, rfl, rfl⟩ (by simp [Indifferent])
  obtain ⟨-, -, -, hrealloc⟩ := hregion
    (Platform.plainWindow.within Prod.snd fun platform store => (store.1, platform))
    (fun store => some store.1) (fun region store => (region, store.2))
    { store := ((Interner.create 0x10000 .threeQuarters 1 none).arena, ⟨.ofCap 65536, {}⟩) }
    (by rintro _ ⟨⟩; rfl)
  exact ⟨⟨_, _, rfl, rfl, rfl, rfl, hsteps⟩, _, rfl, hrealloc (some 8) ⟨8, .eight⟩ ⟨0, .eight⟩⟩

end ArenaMemory
