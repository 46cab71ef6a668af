import ArenaMemory.Proofs.Allocator.Recorder
import ArenaMemory.Proofs.Region.Limit

namespace ArenaMemory

variable {σ : Type}

namespace Region

/-- A new chunk as numbers: its usable bytes, and the size and alignment of the block asked for. -/
structure ChunkRequest where
  usable : Nat
  size : Nat
  align : Nat
deriving DecidableEq

/-- The usable bytes of the next chunk, unless the limit refuses any. A limit that leaves less than
is wished for is used up in whole multiples of the chunk alignment, if the request fits. -/
def exactUsable? (region : Region) (layout : Layout) : Option Nat :=
  match region.limit with
  | none => some (region.wished layout)
  | some limit =>
    if region.wished layout ≤ region.leftOf limit then some (region.wished layout)
    else if region.leftOf limit < roundUp (region.bytesFor layout) 16 then none
    else some (roundDown (region.leftOf limit) 16)

def exactPlan? (usable align : Nat) : Option ChunkRequest :=
  if roundUp (usable + 48) align < 2 ^ 64 then some ⟨usable, roundUp (usable + 48) align, align⟩
  else none

/-- The one request that the slow path makes, if it makes one. -/
def exactRequest? (region : Region) (layout : Layout) : Option ChunkRequest :=
  (region.exactUsable? layout).bind fun usable =>
    exactPlan? usable (max 16 layout.align.bytes.toNat)

def planned? (region : Region) (layout : Layout) : Option (Word × Layout) :=
  match region.nextUsable layout with
  | .error _ => none
  | .ok usable => Chunk.plan? usable (region.growthAlign layout)

def ChunkRequest.ofWords (plan : Word × Layout) : ChunkRequest :=
  ⟨plan.1.toNat, plan.2.size.toNat, plan.2.align.bytes.toNat⟩

variable {region region' : Region} {layout : Layout} {usable : Word} {align : Alignment}

theorem toNat_growthAlign (region : Region) (layout : Layout) :
    (region.growthAlign layout).bytes.toNat = max 16 layout.align.bytes.toNat := by
  have hmin := UInt64.le_iff_toNat_le.1 region.minAlign_le
  have hsixteen : chunkAlign.bytes.toNat = 16 := rfl
  rw [growthAlign, ← Alignment.max_bytes, ← Alignment.max_bytes, Word.toNat_max, Word.toNat_max]
  omega

theorem plan?_exact (hdvd : 16 ∣ usable.toNat) :
    (Chunk.plan? usable align).map ChunkRequest.ofWords =
      exactPlan? usable.toNat align.bytes.toNat := by
  rw [exactPlan?]
  split
  next hfits =>
    have hsize : (UInt64.ofNat (roundUp (usable.toNat + 48) align.bytes.toNat)).toNat =
      roundUp (usable.toNat + 48) align.bytes.toNat := UInt64.toNat_ofNat_of_lt' hfits
    have hplan : Chunk.plan? usable align = some (usable, ⟨.ofNat _, align⟩) :=
      Chunk.plan?_eq_some.2 ⟨(roundUp_eq (by decide) hdvd).symm, rfl, hsize⟩
    rw [hplan, Option.map_some, ChunkRequest.ofWords, hsize]
  next hover =>
    cases hplan : Chunk.plan? usable align with
    | none => rfl
    | some plan =>
      obtain ⟨usable', chunkLayout⟩ := plan
      obtain ⟨hu, -, hs⟩ := Chunk.plan?_eq_some.1 hplan
      have hlt := chunkLayout.size.toNat_lt
      rw [roundUp_eq (by decide) hdvd] at hu
      rw [hu] at hs
      exact absurd (hs ▸ hlt) hover

theorem exactPlan?_eq_none {usable align : Nat} (halign : 0 < align) (h : 2 ^ 64 - 48 ≤ usable) :
    exactPlan? usable align = none := by
  have hup := le_roundUp (n := usable + 48) halign
  exact if_neg (by omega)

theorem exactPlan?_wished {align : Nat} (halign : 0 < align) :
    exactPlan? (min (region.wished layout) (2 ^ 64 - 16)) align =
      exactPlan? (region.wished layout) align := by
  by_cases hfits : region.wished layout ≤ 2 ^ 64 - 16
  · rw [Nat.min_eq_left hfits]
  · rw [exactPlan?_eq_none halign (by omega), exactPlan?_eq_none halign (by omega)]

theorem le_wished (region : Region) (layout : Layout) :
    roundUp (region.bytesFor layout) 16 ≤ region.wished layout :=
  roundUp_le (by decide) dvd_roundUp
    (Nat.le_trans (Nat.le_max_right _ _) (le_roundUp (by decide)))

theorem nextUsable_unlimited (region : Region) (layout : Layout) (hlimit : region.limit = none) :
    (2 ^ 64 ≤ region.bytesFor layout ∧ region.nextUsable layout = .error .overflow) ∨
      ∃ usable, region.nextUsable layout = .ok usable ∧
        usable.toNat = min (region.wished layout) (2 ^ 64 - 16) := by
  rw [nextUsable, hlimit]
  cases hneed : region.need? layout with
  | none => exact .inl ⟨need?_eq_none.1 hneed, rfl⟩
  | some need => exact .inr ⟨_, rfl, toNat_wished (need?_eq_some.1 hneed)⟩

theorem planned?_unlimited (hlimit : region.limit = none) :
    (region.planned? layout).map ChunkRequest.ofWords = region.exactRequest? layout := by
  have halign : 0 < max 16 layout.align.bytes.toNat := by omega
  have hwish := region.le_wished layout
  have hbytes := le_roundUp (n := region.bytesFor layout) (a := 16) (by decide)
  rw [planned?, exactRequest?, exactUsable?, hlimit, Option.bind_some]
  obtain ⟨hover, hn⟩ | ⟨usable, hn, husable⟩ := region.nextUsable_unlimited layout hlimit
  · rw [hn, exactPlan?_eq_none halign (by omega)]
    rfl
  · rw [hn]
    exact (plan?_exact (nextUsable_ok hn).1).trans
      (by rw [toNat_growthAlign, husable, exactPlan?_wished halign])

theorem planned?_limited {limit : Word} (hlimit : region.limit = some limit) :
    (region.planned? layout).map ChunkRequest.ofWords = region.exactRequest? layout := by
  have halign : 0 < max 16 layout.align.bytes.toNat := by omega
  have hwish := region.le_wished layout
  have hleft : region.leftOf limit < 2 ^ 64 := Nat.lt_of_le_of_lt (Nat.sub_le _ _) limit.toNat_lt
  have hplan : Plan region layout limit _ := plan hlimit
  have hwords : ∀ usable, region.nextUsable layout = .ok usable →
      (region.planned? layout).map ChunkRequest.ofWords =
        exactPlan? usable.toNat (max 16 layout.align.bytes.toNat) := by
    intro usable hn
    rw [planned?, hn, ← toNat_growthAlign]
    exact plan?_exact (nextUsable_ok hn).1
  rw [exactRequest?, exactUsable?, hlimit]
  dsimp only
  generalize hn : region.nextUsable layout = next at hplan
  cases hplan with
  | overflow hover =>
    rw [planned?, hn, if_neg (by omega), if_pos (by omega)]
    rfl
  | refused hover =>
    rw [planned?, hn, if_neg (by omega), if_pos hover]
    rfl
  | @doubled usable husable hle =>
    rw [hwords usable hn, husable]
    split
    next hfits => exact exactPlan?_wished halign
    next hover =>
      -- the wish leaves the range, and the limit leaves room up to its end
      have hlast : 2 ^ 64 - 16 ≤ roundDown (region.leftOf limit) 16 :=
        le_roundDown (by decide) (by omega)
      rw [exactPlan?_eq_none halign (by omega)]
      split
      · rfl
      · exact (exactPlan?_eq_none halign (by omega)).symm
  | @shrunk usable hfits hlt husable =>
    rw [hwords usable hn, husable, if_neg (by omega), if_neg (by omega)]
    rfl

/-- The words plan what the numbers ask for. -/
theorem planned?_exact (region : Region) (layout : Layout) :
    (region.planned? layout).map ChunkRequest.ofWords = region.exactRequest? layout := by
  cases hlimit : region.limit with
  | none => exact planned?_unlimited hlimit
  | some limit => exact planned?_limited hlimit

section Requests

variable {inner : Allocator σ} {minAlign : Word} {start machine machine' : Machine (Recorded σ)}
  {home result : Option Word} {blocks : List Grant} {rest : Multiset Grant}

theorem exactRequest?_of_error {refusal : ChunkRefusal}
    (hn : region.nextUsable layout = .error refusal) : region.exactRequest? layout = none := by
  rw [← planned?_exact, planned?, hn]
  rfl

theorem exactRequest?_of_plan (hn : region.nextUsable layout = .ok usable) :
    region.exactRequest? layout =
      (Chunk.plan? usable (region.growthAlign layout)).map ChunkRequest.ofWords := by
  rw [← planned?_exact, planned?, hn]

/-- What the slow path does: no call where the numbers ask for nothing, and else the one call that
they ask for, whose answer decides how the path ends. -/
def SlowPath (region : Region) (layout : Layout) (calls : List Call) (result : Option Word)
    (region' : Region) (calls' : List Call) : Prop :=
  match region.exactRequest? layout with
  | none => result = none ∧ region' = region ∧ calls' = calls
  | some request =>
    ∃ (chunkLayout : Layout) (answer : Option Word),
      chunkLayout.size.toNat = request.size ∧ chunkLayout.align.bytes.toNat = request.align ∧
        calls' = .alloc chunkLayout answer :: calls ∧ (result = none ↔ answer = none) ∧
        (result ≠ none → region'.allocated.toNat = region.allocated.toNat + request.usable)

theorem Sound.allocated_push {chunk : Chunk} (sound : region.Sound) (pushed : region'.Sound)
    (h : region'.chunks = chunk :: region.chunks) :
    region'.allocated.toNat = region.allocated.toNat + chunk.usable.toNat := by
  rw [allocated_eq_usableBytes pushed.tallied, allocated_eq_usableBytes sound.tallied, h,
    usableBytes_cons, Nat.add_comm]

theorem allocSlow_exact (placement : inner.recorded.Placement) (sound : region.Sound)
    (h : placement.holds (region.grants + rest) machine.store) (hpos : 0 < layout.size.toNat)
    (hfull : region.bump? layout = none)
    (hs : region.allocSlow inner.recorded layout machine = (result, region', machine')) :
    SlowPath region layout machine.store.calls result region' machine'.store.calls := by
  have hgrown : region'.Sound := sound.alloc placement h ((alloc_eq_allocSlow hpos hfull).trans hs)
  have hg := hs ▸ allocSlow_growth inner.recorded region layout machine
  rw [SlowPath]
  cases hg with
  | overflow hn | limited hn =>
    rw [exactRequest?_of_error hn]
    exact ⟨rfl, rfl, rfl⟩
  | unplanned hn hp =>
    rw [exactRequest?_of_plan hn, hp]
    exact ⟨rfl, rfl, rfl⟩
  | denied hn hp hb =>
    rw [exactRequest?_of_plan hn, hp]
    obtain ⟨hanswer, rfl⟩ := Prod.mk.inj hb
    exact ⟨_, _, rfl, rfl, rfl, by rw [hanswer], fun hnot => absurd rfl hnot⟩
  | wasted hn hp hb hw =>
    have hf := (placement.alloc_fresh h (planned_size_pos hp) hb).left
    exact absurd hw ((planned hn hp hf).carve hpos)
  | served hn hp hb hw =>
    rw [exactRequest?_of_plan hn, hp]
    obtain ⟨hanswer, rfl⟩ := Prod.mk.inj hb
    have hpushed := sound.allocated_push hgrown rfl
    exact ⟨_, _, rfl, rfl, rfl, by simp [hanswer], fun _ => hpushed⟩

/-- The slow path does what `exactRequest?` says over the natural numbers: the one call asked for or
none, and the growth of the usable bytes. -/
theorem slow_path_exact (placement : inner.Placement)
    (hstart : placement.recorded.shared.holds 0 start.store)
    (run : Run inner.recorded
      (fun mine _ machine' => placement.recorded.shared.holds mine machine'.store) minAlign
      start home blocks region machine)
    (hpos : 0 < layout.size.toNat) (hfull : region.bump? layout = none) :
    ∃ result region' machine',
      region.alloc inner.recorded layout machine = (result, region', machine') ∧
      region.allocSlow inner.recorded layout machine = (result, region', machine') ∧
      SlowPath region layout machine.store.calls result region' machine'.store.calls := by
  have sound := run.sound placement.recorded hstart
  have h := run.holds placement.recorded.shared.toLedger hstart fun _ ho => ho
  exact ⟨_, _, _, alloc_eq_allocSlow hpos hfull, rfl,
    allocSlow_exact placement.recorded.shared sound h hpos hfull rfl⟩

end Requests

theorem slow_path_exact_limited :
    ∃ (region after refused : Region) (machine machine' machine'' : Machine (Recorded Platform))
      (result result' : Option Word),
      region.exactRequest? ⟨1000, .one⟩ = some ⟨1952, 2000, 16⟩ ∧
      region.exactRequest? ⟨2000, .one⟩ = none ∧
      ({ region with limit := none } : Region).exactRequest? ⟨0xFFFFFFFFFFFFFFF0, .one⟩ = none ∧
      SlowPath region ⟨1000, .one⟩ machine.store.calls result after machine'.store.calls ∧
      SlowPath region ⟨2000, .one⟩ machine.store.calls result' refused machine''.store.calls := by
  have hstart : Platform.plainWindowContract.toPlacement.recorded.shared.holds 0
      (⟨[], .ofCap 65536, {}⟩ : Recorded Platform) := ⟨0, by decide, by decide, by simp⟩
  have hcreated : Run Platform.plainWindow.recorded
      (fun mine _ machine' =>
        Platform.plainWindowContract.toPlacement.recorded.shared.holds mine machine'.store) 8
      { store := ⟨[], .ofCap 65536, {}⟩ } none [] ⟨0x10000, .eight, by decide, none, []⟩
      { store := ⟨[], .ofCap 65536, {}⟩ } := .create (show Region.create 0x10000 8 = _ by decide)
  have hrun := (hcreated.perform (.setLimit (some 6000)) rfl).perform (.alloc ⟨4048, .one⟩) rfl
  obtain ⟨_, _, _, -, -, hserved⟩ :=
    slow_path_exact Platform.plainWindowContract.toPlacement hstart hrun
      (show 0 < (⟨1000, .one⟩ : Layout).size.toNat by decide) (by decide)
  obtain ⟨_, _, _, -, -, hrefused⟩ :=
    slow_path_exact Platform.plainWindowContract.toPlacement hstart hrun
      (show 0 < (⟨2000, .one⟩ : Layout).size.toNat by decide) (by decide)
  exact ⟨_, _, _, _, _, _, _, _, by decide, by decide, by decide, hserved, hrefused⟩

end Region

end ArenaMemory
