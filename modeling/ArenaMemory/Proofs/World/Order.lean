import Mathlib.Algebra.BigOperators.Group.List.Basic
import Mathlib.Algebra.Order.Group.Multiset
import Mathlib.Data.List.Forall2
import ArenaMemory.World.Tower

namespace ArenaMemory

variable {ι β : Type}

namespace Origin

/-- The region that a handle hands out memory from; none where that is a base allocator. -/
def ground : Origin ι → Option String
  | .base _ => none
  | .tracker _ inner => inner.ground
  | .region name _ => some name

/-- The handle leads down through an object of that name. -/
def Mentions (name : String) : Origin ι → Prop
  | .base _ => False
  | .tracker on inner | .region on inner => on = name ∨ inner.Mentions name

/-- The objects that a handle leads down through are alive. -/
def LiveIn (items : List (Item ι)) : Origin ι → Prop
  | .base _ => True
  | .tracker name inner => inner.LiveIn items ∧ ∃ tracker, ⟨name, inner, .tracker tracker⟩ ∈ items
  | .region name inner =>
    inner.LiveIn items ∧ ∃ region home, ⟨name, inner, .region region home⟩ ∈ items

end Origin

/-- Every object was built on older ones, the newest first, and no two have one name. -/
def Ordered : List (Item ι) → Prop
  | [] => True
  | item :: older =>
    (∀ other ∈ older, other.name ≠ item.name) ∧ item.origin.LiveIn older ∧ Ordered older

def seen (visible : String → Bool) (items : List (Item ι)) : List (Item ι) :=
  items.filter fun item => visible item.name

abbrev others (name : String) (items : List (Item ι)) : List (Item ι) :=
  seen (fun other => other ≠ name) items

def replaced (items : List (Item ι)) (name : String) (object : Object) : List (Item ι) :=
  items.map fun item => if item.name = name then { item with object } else item

/-- The new object may stand where the old one did: what was built on a tracker or a region finds
another of the kind. -/
inductive Object.Replaces : Object → Object → Prop where
  | tracker {t t'} : Replaces (.tracker t) (.tracker t')
  | region {r home r' home'} : Replaces (.region r home) (.region r' home')
  | interner {i home object} : Replaces (.interner i home) object
  | box {kind addr object} : Replaces (.box kind addr) object

/-- The same objects, each in a new state. The relation between the states may depend on the name.
-/
def Updated (relation : String → Object → Object → Prop) (items items' : List (Item ι)) : Prop :=
  List.Forall₂ (fun item item' => item'.name = item.name ∧ item'.origin = item.origin ∧
    relation item.name item.object item'.object) items items'

abbrev Succeeded (items items' : List (Item ι)) : Prop := Updated (fun _ => Object.Replaces) items items'

variable {items items' items'' older : List (Item ι)} {item other : Item ι} {origin : Origin ι}
  {name : String} {object : Object} {visible : String → Bool}
  {relation : String → Object → Object → Prop}

theorem mem_seen : item ∈ seen visible items ↔ item ∈ items ∧ visible item.name = true :=
  List.mem_filter

theorem mem_others : item ∈ others name items ↔ item ∈ items ∧ item.name ≠ name := by
  rw [others, mem_seen, decide_eq_true_eq]

@[simp]
theorem seen_all (items : List (Item ι)) : seen (fun _ => true) items = items :=
  List.filter_eq_self.2 fun _ _ => rfl

theorem Object.Replaces.refl (object : Object) : object.Replaces object := by
  cases object <;> constructor

namespace Origin

theorem LiveIn.mono (h : origin.LiveIn items)
    (hmem : ∀ item ∈ items, origin.Mentions item.name → item ∈ items') : origin.LiveIn items' := by
  induction origin with
  | base => trivial
  | tracker on inner ih =>
    obtain ⟨hinner, tracker, htracker⟩ := h
    exact ⟨ih hinner fun item hitem hm => hmem item hitem (.inr hm), tracker,
      hmem _ htracker (.inl rfl)⟩
  | region on inner ih =>
    obtain ⟨hinner, region, home, hregion⟩ := h
    exact ⟨ih hinner fun item hitem hm => hmem item hitem (.inr hm), region, home,
      hmem _ hregion (.inl rfl)⟩

theorem LiveIn.cons (h : origin.LiveIn older) : origin.LiveIn (item :: older) :=
  h.mono fun _ hitem _ => List.mem_cons_of_mem _ hitem

theorem LiveIn.others (h : origin.LiveIn items) (hnot : ¬ origin.Mentions name) :
    origin.LiveIn (others name items) :=
  h.mono fun _ hitem hm => mem_others.2 ⟨hitem, fun he => hnot (he ▸ hm)⟩

theorem LiveIn.object_of_mentions (h : origin.LiveIn items) (hm : origin.Mentions name) :
    ∃ inner object, ⟨name, inner, object⟩ ∈ items ∧
      ((∃ tracker, object = .tracker tracker) ∨ ∃ region home, object = .region region home) := by
  induction origin with
  | base => cases hm
  | tracker on inner ih =>
    obtain ⟨hinner, tracker, htracker⟩ := h
    obtain rfl | hm := hm
    · exact ⟨_, _, htracker, .inl ⟨_, rfl⟩⟩
    · exact ih hinner hm
  | region on inner ih =>
    obtain ⟨hinner, region, home, hregion⟩ := h
    obtain rfl | hm := hm
    · exact ⟨_, _, hregion, .inr ⟨_, _, rfl⟩⟩
    · exact ih hinner hm

theorem LiveIn.exists_of_mentions (h : origin.LiveIn items) (hm : origin.Mentions name) :
    ∃ item ∈ items, item.name = name := by
  obtain ⟨inner, object, hmem, -⟩ := h.object_of_mentions hm
  exact ⟨_, hmem, rfl⟩

theorem mentions_of_ground (h : origin.ground = some name) : origin.Mentions name := by
  induction origin with
  | base => cases h
  | tracker on inner ih => exact .inr (ih h)
  | region on inner ih => exact .inl (Option.some.inj h)

theorem LiveIn.ground (h : origin.LiveIn items) (hname : origin.ground = some name) :
    ∃ inner region home, ⟨name, inner, .region region home⟩ ∈ items := by
  induction origin with
  | base => cases hname
  | tracker _ inner ih => exact ih h.1 hname
  | region name' inner ih =>
    obtain rfl := Option.some.inj hname
    obtain ⟨-, region, home, hmem⟩ := h
    exact ⟨inner, region, home, hmem⟩

end Origin

namespace Ordered

theorem liveIn (h : Ordered items) (hitem : item ∈ items) : item.origin.LiveIn items := by
  induction items with
  | nil => cases hitem
  | cons newest older ih =>
    obtain ⟨-, hlive, holder⟩ := h
    obtain rfl | hitem := List.mem_cons.1 hitem
    · exact hlive.cons
    · exact (ih holder hitem).cons

theorem eq_of_name (h : Ordered items) (hitem : item ∈ items) (hother : other ∈ items)
    (hname : other.name = item.name) : other = item := by
  induction items with
  | nil => cases hitem
  | cons newest older ih =>
    obtain ⟨hnames, -, holder⟩ := h
    rcases List.mem_cons.1 hitem with hi | hi <;> rcases List.mem_cons.1 hother with ho | ho
    · exact ho.trans hi.symm
    · exact absurd (hi ▸ hname) (hnames other ho)
    · exact absurd (ho ▸ hname).symm (hnames item hi)
    · exact ih holder hi ho

theorem not_mentions_newest (h : Ordered (item :: older)) (hother : other ∈ item :: older) :
    ¬ other.origin.Mentions item.name := by
  intro hm
  obtain ⟨hnames, hlive, holder⟩ := h
  have hliveIn : other.origin.LiveIn older := by
    obtain rfl | hold := List.mem_cons.1 hother
    · exact hlive
    · exact holder.liveIn hold
  obtain ⟨beneath, hbeneath, hname⟩ := hliveIn.exists_of_mentions hm
  exact hnames beneath hbeneath hname

theorem not_mentions_self (h : Ordered items) (hitem : item ∈ items) :
    ¬ item.origin.Mentions item.name := by
  induction items with
  | nil => cases hitem
  | cons newest older ih =>
    obtain rfl | hold := List.mem_cons.1 hitem
    · exact h.not_mentions_newest List.mem_cons_self
    · exact ih h.2.2 hold

theorem not_mentions_of_kind (h : Ordered items) (hitem : item ∈ items)
    (htracker : ∀ t, item.object ≠ .tracker t) (hregion : ∀ r home, item.object ≠ .region r home) :
    ∀ other ∈ items, ¬ other.origin.Mentions item.name := by
  intro other hother hm
  obtain ⟨inner, object, hmem, hkind⟩ := (h.liveIn hother).object_of_mentions hm
  have hsame := h.eq_of_name hitem hmem rfl
  obtain ⟨t, rfl⟩ | ⟨r, home, rfl⟩ := hkind
  · exact htracker t (hsame ▸ rfl)
  · exact hregion r home (hsame ▸ rfl)

theorem others_newest (h : Ordered (item :: older)) : others item.name (item :: older) = older := by
  rw [others, seen, List.filter_cons_of_neg (by simp)]
  exact List.filter_eq_self.2 fun other hother => decide_eq_true (h.1 other hother)

theorem others (h : Ordered items) (hnot : ∀ item ∈ items, ¬ item.origin.Mentions name) :
    Ordered (others name items) := by
  induction items with
  | nil => trivial
  | cons newest older ih =>
    obtain ⟨hnames, hlive, holder⟩ := h
    obtain ⟨hnewest, hold⟩ := List.forall_mem_cons.1 hnot
    rw [ArenaMemory.others, seen, List.filter_cons]
    split
    · exact ⟨fun other hother => hnames other (mem_others.1 hother).1, hlive.others hnewest,
        ih holder hold⟩
    · exact ih holder hold

theorem sum_others {α : Type} (f : Item ι → Multiset α) (h : Ordered items) (hitem : item ∈ items) :
    (items.map f).sum = f item + ((ArenaMemory.others item.name items).map f).sum := by
  induction items with
  | nil => cases hitem
  | cons newest older ih =>
    obtain rfl | hold := List.mem_cons.1 hitem
    · rw [h.others_newest, List.map_cons, List.sum_cons]
    · have hne : newest.name ≠ item.name := (h.1 item hold).symm
      rw [ArenaMemory.others, seen, List.filter_cons_of_pos (by simpa using hne), List.map_cons,
        List.sum_cons, List.map_cons, List.sum_cons, ih h.2.2 hold, add_left_comm]
      rfl

end Ordered

section Replaced

theorem mem_replaced (h : other ∈ replaced items name object) :
    (∃ item ∈ items, item.name = name ∧ other = { item with object }) ∨
      other ∈ others name items := by
  obtain ⟨item, hitem, rfl⟩ := List.mem_map.1 h
  by_cases hname : item.name = name
  · exact .inl ⟨item, hitem, hname, if_pos hname⟩
  · rw [if_neg hname]
    exact .inr (mem_others.2 ⟨hitem, hname⟩)

theorem mem_replaced_self (h : item ∈ items) :
    { item with object } ∈ replaced items item.name object :=
  List.mem_map.2 ⟨item, h, if_pos rfl⟩

theorem seen_replaced :
    seen visible (replaced items name object) = replaced (seen visible items) name object := by
  rw [seen, replaced, List.filter_map]
  congr 1
  refine List.filter_congr fun item _ => ?_
  rw [Function.comp_apply]
  split <;> rfl

theorem others_replaced : others name (replaced items name object) = others name items := by
  rw [others, seen_replaced, replaced, List.map_congr_left fun item hitem =>
    if_neg (mem_others.1 hitem).2, List.map_id']

theorem updated_replaced (hrefl : ∀ name object, relation name object object)
    (h : ∀ item ∈ items, item.name = name → relation name item.object object) :
    Updated relation items (replaced items name object) := by
  refine List.forall₂_map_right_iff.2 (List.forall₂_same.2 fun item hitem => ?_)
  split
  next hname => exact ⟨rfl, rfl, hname ▸ h item hitem hname⟩
  next => exact ⟨rfl, rfl, hrefl _ _⟩

end Replaced

namespace Updated

theorem refl (hrefl : ∀ name object, relation name object object) (items : List (Item ι)) :
    Updated relation items items :=
  List.forall₂_same.2 fun _ _ => ⟨rfl, rfl, hrefl _ _⟩

theorem trans (htrans : ∀ name a b c, relation name a b → relation name b c → relation name a c)
    (h : Updated relation items items') (h' : Updated relation items' items'') :
    Updated relation items items'' := by
  induction h generalizing items'' with
  | nil => exact h'
  | cons hitem _ ih =>
    obtain ⟨_, _, hitem', htail, rfl⟩ := List.forall₂_cons_left_iff.1 h'
    obtain ⟨hname, horigin, hobject⟩ := hitem
    obtain ⟨hname', horigin', hobject'⟩ := hitem'
    exact .cons ⟨hname'.trans hname, horigin'.trans horigin,
      htrans _ _ _ _ hobject (hname ▸ hobject')⟩ (ih htail)

theorem mono {relation' : String → Object → Object → Prop}
    (himp : ∀ name object object', relation name object object' → relation' name object object')
    (h : Updated relation items items') : Updated relation' items items' :=
  List.Forall₂.imp (fun _ _ hitem => ⟨hitem.1, hitem.2.1, himp _ _ _ hitem.2.2⟩) h

theorem seen (h : Updated relation items items') :
    Updated relation (seen visible items) (seen visible items') :=
  List.rel_filter (fun _ _ hitem => by simp only [hitem.1]) h

theorem exists_new (h : Updated relation items items') (hitem : item ∈ items) :
    ∃ object, relation item.name item.object object ∧ ⟨item.name, item.origin, object⟩ ∈ items' := by
  induction h with
  | nil => cases hitem
  | @cons first first' _ _ hfirst _ ih =>
    obtain rfl | hitem := List.mem_cons.1 hitem
    · obtain ⟨hname, horigin, hobject⟩ := hfirst
      exact ⟨first'.object, hobject, by rw [← hname, ← horigin]; exact List.mem_cons_self⟩
    · obtain ⟨object, hobject, hmem⟩ := ih hitem
      exact ⟨object, hobject, List.mem_cons_of_mem _ hmem⟩

theorem exists_old (h : Updated relation items items') (hitem : item ∈ items') :
    ∃ object, relation item.name object item.object ∧ ⟨item.name, item.origin, object⟩ ∈ items := by
  induction h with
  | nil => cases hitem
  | @cons first first' _ _ hfirst _ ih =>
    obtain rfl | hitem := List.mem_cons.1 hitem
    · obtain ⟨hname, horigin, hobject⟩ := hfirst
      exact ⟨first.object, hname ▸ hobject, by rw [hname, horigin]; exact List.mem_cons_self⟩
    · obtain ⟨object, hobject, hmem⟩ := ih hitem
      exact ⟨object, hobject, List.mem_cons_of_mem _ hmem⟩

theorem sum_le {α : Type} (f : Item ι → Multiset α)
    (hle : ∀ item object, relation item.name item.object object → f item ≤ f { item with object })
    (h : Updated relation items items') : (items.map f).sum ≤ (items'.map f).sum := by
  induction h with
  | nil => exact le_rfl
  | @cons item item' _ _ hitem _ ih =>
    obtain ⟨hname, horigin, hobject⟩ := hitem
    have hsame : item' = { item with object := item'.object } := by
      rw [← hname, ← horigin]
    rw [List.map_cons, List.map_cons, List.sum_cons, List.sum_cons, hsame]
    exact add_le_add (hle item _ hobject) ih

theorem liveIn (h : Succeeded items items') (hlive : origin.LiveIn items) :
    origin.LiveIn items' := by
  induction origin with
  | base => trivial
  | tracker on inner ih =>
    obtain ⟨hinner, tracker, hmem⟩ := hlive
    obtain ⟨object, hobject, hmem'⟩ := h.exists_new hmem
    cases hobject with
    | @tracker _ tracker' => exact ⟨ih hinner, tracker', hmem'⟩
  | region on inner ih =>
    obtain ⟨hinner, region, home, hmem⟩ := hlive
    obtain ⟨object, hobject, hmem'⟩ := h.exists_new hmem
    cases hobject with
    | @region _ _ region' home' => exact ⟨ih hinner, region', home', hmem'⟩

theorem ordered (h : Succeeded items items') (hordered : Ordered items) :
    Ordered items' := by
  induction h with
  | nil => trivial
  | @cons first first' rest rest' hfirst hrest ih =>
    obtain ⟨hnames, hlive, holder⟩ := hordered
    obtain ⟨hname, horigin, -⟩ := hfirst
    have hupdated : Succeeded rest rest' := hrest
    refine ⟨fun other hother => ?_, ?_, ih holder⟩
    · obtain ⟨object, -, hmem⟩ := hupdated.exists_old hother
      rw [hname]
      exact hnames ⟨other.name, other.origin, object⟩ hmem
    · rw [horigin]
      exact hupdated.liveIn hlive

end Updated

theorem succeeded_replaced (h : Ordered items) (hitem : item ∈ items)
    (hrep : item.object.Replaces object) : Succeeded items (replaced items item.name object) :=
  updated_replaced (fun _ => .refl) fun _ hother hname => h.eq_of_name hitem hother hname ▸ hrep

theorem sum_replaced {α : Type} (f : Item ι → Multiset α) (h : Ordered items) (hitem : item ∈ items)
    (hrep : item.object.Replaces object) : ((replaced items item.name object).map f).sum =
      f { item with object } + ((others item.name items).map f).sum := by
  have hordered := (succeeded_replaced h hitem hrep).ordered h
  have hsum := hordered.sum_others f (mem_replaced_self hitem)
  rwa [others_replaced] at hsum

namespace Store

variable {store : Store ι β}

theorem find?_of_mem (h : Ordered (seen visible store.items)) (hitem : item ∈ seen visible store.items) :
    store.find? item.name = some item := by
  have hvisible := (mem_seen.1 hitem).2
  have hsame : store.find? item.name = (seen visible store.items).find? (·.name = item.name) := by
    rw [find?, seen, List.find?_filter]
    congr 1
    funext other
    by_cases hname : other.name = item.name <;> simp [hname, hvisible]
  have hsome : ((seen visible store.items).find? (·.name = item.name)).isSome :=
    List.find?_isSome.2 ⟨item, hitem, decide_eq_true rfl⟩
  obtain ⟨found, hfound⟩ := Option.isSome_iff_exists.1 hsome
  rw [hsame, hfound]
  have hname : found.name = item.name := by simpa using List.find?_some hfound
  rw [h.eq_of_name hitem (List.mem_of_find?_eq_some hfound) hname]

theorem tracker?_of_mem {tracker : Tracker} (h : Ordered (seen visible store.items))
    (hitem : ⟨name, origin, .tracker tracker⟩ ∈ seen visible store.items) :
    store.tracker? name = some tracker := by
  have hfound : store.find? name = _ := find?_of_mem h hitem
  rw [tracker?, hfound]

theorem region?_of_mem {region : Region} {home : Option Word}
    (h : Ordered (seen visible store.items))
    (hitem : ⟨name, origin, .region region home⟩ ∈ seen visible store.items) :
    store.region? name = some region := by
  have hfound : store.find? name = _ := find?_of_mem h hitem
  rw [region?, hfound]

theorem seen_put : seen visible (store.put name object).items =
    replaced (seen visible store.items) name object :=
  seen_replaced

theorem eq_of_seen (h : Ordered (seen visible store.items)) (hitem : item ∈ seen visible store.items)
    (hother : other ∈ store.items) (hname : other.name = item.name) : other = item :=
  h.eq_of_name hitem (mem_seen.2 ⟨hother, hname ▸ (mem_seen.1 hitem).2⟩) hname

theorem putRegion_eq {region region' : Region} {home : Option Word}
    (h : Ordered (seen visible store.items))
    (hitem : ⟨name, origin, .region region home⟩ ∈ seen visible store.items) :
    store.putRegion name region' = store.put name (.region region' home) := by
  rw [putRegion, put]
  congr 1
  refine List.map_congr_left fun other hother => ?_
  split
  next hname => rw [eq_of_seen h hitem hother hname]
  next => rfl

theorem region?_all {region : Region} {home : Option Word} (h : Ordered store.items)
    (hitem : ⟨name, origin, .region region home⟩ ∈ store.items) :
    store.region? name = some region := by
  rw [← seen_all store.items] at h hitem
  exact region?_of_mem h hitem

theorem putRegion_all {region region' : Region} {home : Option Word} (h : Ordered store.items)
    (hitem : ⟨name, origin, .region region home⟩ ∈ store.items) :
    store.putRegion name region' = store.put name (.region region' home) := by
  rw [← seen_all store.items] at h hitem
  exact putRegion_eq h hitem

theorem put_self (h : Ordered store.items) (hitem : item ∈ store.items) :
    store.put item.name item.object = store := by
  have hsame : replaced store.items item.name item.object = store.items := by
    rw [replaced, List.map_congr_left fun other hother => ?_, List.map_id']
    split
    next hname => rw [h.eq_of_name hitem hother hname]
    next => rfl
  exact congrArg (fun items => { store with items }) hsame

theorem not_mentions_of_not_used (h : Ordered store.items) (hused : store.isUsed name = false) :
    ∀ item ∈ store.items, ¬ item.origin.Mentions name := by
  have hdirect : ∀ item ∈ store.items, ∀ inner : Origin ι,
      item.origin ≠ .tracker name inner ∧ item.origin ≠ .region name inner := by
    intro item hitem inner
    rw [isUsed, List.any_eq_false] at hused
    have hitem := hused item hitem
    constructor <;> rintro he <;> simp [he] at hitem
  intro item hitem
  have hlive := h.liveIn hitem
  generalize horigin : item.origin = origin at hlive
  induction origin generalizing item with
  | base => exact id
  | tracker on inner ih =>
    rintro (rfl | hm)
    · exact (hdirect item hitem inner).1 horigin
    · obtain ⟨hinner, tracker, hmem⟩ := hlive
      exact ih _ hmem rfl hinner hm
  | region on inner ih =>
    rintro (rfl | hm)
    · exact (hdirect item hitem inner).2 horigin
    · obtain ⟨hinner, region, home, hmem⟩ := hlive
      exact ih _ hmem rfl hinner hm

end Store

end ArenaMemory
