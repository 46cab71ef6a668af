import ArenaMemory.Toml.Document

namespace ArenaMemory.Toml

inductive Value.InRange : Value → Prop where
  | string (text : String) : InRange (.string text)
  | integer {n : Int} (hlow : -0x8000000000000000 ≤ n) (hhigh : n < 0x8000000000000000) :
    InRange (.integer n)
  | float (x : Binary64) : InRange (.float x)
  | boolean (b : Bool) : InRange (.boolean b)
  | moment (text : String) : InRange (.moment text)
  | array {items : List Value} (hitems : ∀ value ∈ items, InRange value) : InRange (.array items)
  | table {form : TableForm} {entries : List (String × Value)}
    (hentries : ∀ entry ∈ entries, InRange entry.2) : InRange (.table form entries)
  | tables {items : List (List (String × Value))}
    (hitems : ∀ entries ∈ items, ∀ entry ∈ entries, InRange entry.2) : InRange (.tables items)

def Entries.InRange (entries : Entries) : Prop := ∀ entry ∈ entries, entry.2.InRange

section Words

variable {word input rest : List Char} {n : Int} {value : Value}

theorem inRange_of_fits? {m : Int} (h : fits? m = some n) : (Value.integer n).InRange := by
  rw [fits?] at h
  split at h
  next hfits =>
    obtain rfl := Option.some.inj h
    exact .integer hfits.1 hfits.2
  next => contradiction

theorem inRange_of_based {base : Nat} {isDigit : Char → Bool}
    (h : integer?.based base isDigit word = some n) : (Value.integer n).InRange := by
  obtain ⟨digits, -, hfits⟩ := Option.bind_eq_some_iff.1 h
  exact inRange_of_fits? hfits

theorem inRange_of_integer? (h : integer? word = some n) : (Value.integer n).InRange := by
  rw [integer?.eq_def] at h
  split at h
  next => exact inRange_of_based h
  next => exact inRange_of_based h
  next => exact inRange_of_based h
  next =>
    obtain ⟨digits, -, hfits⟩ := Option.bind_eq_some_iff.1 h
    exact inRange_of_fits? hfits

theorem inRange_of_scalar? (h : scalar? word = some value) : value.InRange := by
  rw [scalar?] at h
  split at h
  next =>
    obtain rfl := Option.some.inj h
    exact .boolean true
  next =>
    split at h
    next =>
      obtain rfl := Option.some.inj h
      exact .boolean false
    next =>
      split at h
      next n hinteger =>
        obtain rfl := Option.some.inj h
        exact inRange_of_integer? hinteger
      next =>
        split at h
        next x hfloat =>
          obtain rfl := Option.some.inj h
          exact .float x
        next =>
          split at h
          next =>
            obtain rfl := Option.some.inj h
            exact .moment _
          next => contradiction

theorem inRange_of_word? (h : word? input = some (value, rest)) : value.InRange := by
  have hscalar : ∀ {word rest' : List Char},
      (scalar? word).map (·, rest') = some (value, rest) → value.InRange := fun h => by
    obtain ⟨read, hread, heq⟩ := Option.map_eq_some_iff.1 h
    obtain rfl := congrArg Prod.fst heq
    exact inRange_of_scalar? hread
  rw [word?] at h
  split at h
  next =>
    dsimp only at h
    split at h
    next =>
      obtain rfl := congrArg Prod.fst (Option.some.inj h)
      exact .moment _
    next => exact hscalar h
  next => exact hscalar h

end Words

section Tables

namespace Entries

variable {entries entries' inner : Entries} {key : String} {value : Value} {form : TableForm}

theorem InRange.nil : InRange [] := fun _ hentry => absurd hentry List.not_mem_nil

theorem InRange.append (h : entries.InRange) (hvalue : value.InRange) :
    InRange (entries ++ [(key, value)]) :=
  List.forall_mem_append.2 ⟨h, List.forall_mem_singleton.2 hvalue⟩

theorem InRange.replace (h : entries.InRange) (hvalue : value.InRange) :
    (entries.replace key value).InRange := by
  intro entry hentry
  obtain ⟨old, hold, rfl⟩ := List.mem_map.1 hentry
  split
  next => exact hvalue
  next => exact h old hold

theorem InRange.lookup (h : entries.InRange) (hlookup : entries.lookup key = some value) :
    value.InRange := by
  obtain ⟨before, after, hsplit, -⟩ := List.lookup_eq_some_iff.1 hlookup
  exact h (key, value) (by simp [hsplit])

end Entries

variable {entries entries' : Entries} {key : String} {value : Value} {form : TableForm}
  {path opened : List String} {byDots : Bool}

theorem inRange_table : (Value.table form entries).InRange ↔ entries.InRange :=
  ⟨fun h => by cases h with | table hentries => exact hentries, fun h => .table h⟩

theorem inRange_tables {items : List Entries} :
    (Value.tables items).InRange ↔ ∀ entries ∈ items, entries.InRange :=
  ⟨fun h => by cases h with | tables hitems => exact hitems, fun h => .tables h⟩

/-- The change brings no integer out of the range into a table. -/
def Keeps (change : TableForm → Entries → Option Entries) : Prop :=
  ∀ form entries entries', Entries.InRange entries → change form entries = some entries' →
    entries'.InRange

theorem Keeps.update {change : TableForm → Entries → Option Entries} (hchange : Keeps change) :
    Keeps (Entries.update byDots change path) := by
  intro form entries entries' h hupdate
  fun_induction Entries.update byDots change path form entries generalizing entries' with
  | case1 form entries => exact hchange form entries entries' h hupdate
  | case2 key path form entries hlookup fresh =>
    rename_i ih
    obtain ⟨inner, hinner, rfl⟩ := Option.map_eq_some_iff.1 hupdate
    exact h.append (.table (ih _ .nil hinner))
  | case3 => contradiction
  | case4 key path form entries form' inner hlookup hopen ih =>
    obtain ⟨inner', hinner, rfl⟩ := Option.map_eq_some_iff.1 hupdate
    exact h.replace (.table (ih _ (inRange_table.1 (h.lookup hlookup)) hinner))
  | case5 => contradiction
  | case6 key path form entries items hlookup last hlast ih =>
    obtain ⟨last', hinner, rfl⟩ := Option.map_eq_some_iff.1 hupdate
    have hitems := inRange_tables.1 (h.lookup hlookup)
    refine h.replace (.tables (List.forall_mem_append.2
      ⟨fun item hitem => hitems item (List.dropLast_subset items hitem), ?_⟩))
    exact List.forall_mem_singleton.2 (ih _ (hitems last (List.mem_of_getLast? hlast)) hinner)
  | case7 => contradiction

theorem Keeps.insertNew {dotted : Bool} (hvalue : value.InRange) :
    Keeps (Entries.insertNew dotted key value) := by
  intro form entries entries' h hinsert
  rw [Entries.insertNew] at hinsert
  split at hinsert
  next =>
    split at hinsert
    next =>
      obtain rfl := Option.some.inj hinsert
      exact h.append hvalue
    next => contradiction
  next => contradiction

theorem Entries.InRange.insert (h : Entries.InRange entries) (hvalue : value.InRange)
    (hinsert : entries.insert form path key value = some entries') : entries'.InRange :=
  (Keeps.insertNew hvalue).update form entries entries' h hinsert

theorem Entries.InRange.insertIn (h : Entries.InRange entries) (hvalue : value.InRange)
    (hinsert : entries.insertIn opened path key value = some entries') : entries'.InRange :=
  Keeps.update (fun _ _ _ h hinsert => h.insert hvalue hinsert) .header entries entries' h
    hinsert

theorem Entries.InRange.openTable (h : Entries.InRange entries)
    (hopen : entries.openTable path key = some entries') : entries'.InRange := by
  refine Keeps.update (fun form entries entries' h hopen => ?_) .header entries entries' h hopen
  split at hopen
  next =>
    obtain rfl := Option.some.inj hopen
    exact h.append (.table Entries.InRange.nil)
  next inner hlookup =>
    obtain rfl := Option.some.inj hopen
    exact h.replace (.table (inRange_table.1 (h.lookup hlookup)))
  next => contradiction

theorem Entries.InRange.openNext (h : Entries.InRange entries)
    (hopen : entries.openNext path key = some entries') : entries'.InRange := by
  refine Keeps.update (fun form entries entries' h hopen => ?_) .header entries entries' h hopen
  split at hopen
  next =>
    obtain rfl := Option.some.inj hopen
    exact h.append (.tables (List.forall_mem_singleton.2 Entries.InRange.nil))
  next items hlookup =>
    obtain rfl := Option.some.inj hopen
    exact h.replace (.tables (List.forall_mem_append.2
      ⟨inRange_tables.1 (h.lookup hlookup), List.forall_mem_singleton.2 Entries.InRange.nil⟩))
  next => contradiction

end Tables

section Values

variable {fuel depth : Nat} {input rest : List Char} {value : Value} {items : List Value}
  {entries entries' : Entries}

/-- What the three readers of values read with some fuel is in the range. -/
structure ReadsInRange (fuel : Nat) : Prop where
  value {depth : Nat} {input rest : List Char} {value : Value}
    (h : value? fuel depth input = some (value, rest)) : value.InRange
  items {depth : Nat} {input rest : List Char} {items : List Value}
    (h : items? fuel depth input = some (items, rest)) : ∀ value ∈ items, value.InRange
  fields {depth : Nat} {input rest : List Char} {entries entries' : Entries}
    (hentries : entries.InRange) (h : fields? fuel depth entries input = some (entries', rest)) :
    entries'.InRange

namespace ReadsInRange

theorem value_succ (hreads : ReadsInRange fuel)
    (h : value? (fuel + 1) depth input = some (value, rest)) : value.InRange := by
  rw [value?.eq_def] at h
  dsimp only at h
  split at h
  next =>
    obtain ⟨⟨text, rest'⟩, -, heq⟩ := Option.map_eq_some_iff.1 h
    obtain rfl := congrArg Prod.fst heq
    exact .string _
  next =>
    obtain ⟨⟨text, rest'⟩, -, heq⟩ := Option.map_eq_some_iff.1 h
    obtain rfl := congrArg Prod.fst heq
    exact .string _
  next =>
    split at h
    next => contradiction
    next =>
      obtain ⟨⟨items, rest'⟩, hitems, heq⟩ := Option.map_eq_some_iff.1 h
      obtain rfl := congrArg Prod.fst heq
      exact .array (hreads.items hitems)
  next =>
    split at h
    next => contradiction
    next =>
      split at h
      next =>
        obtain rfl := congrArg Prod.fst (Option.some.inj h)
        exact .table Entries.InRange.nil
      next =>
        obtain ⟨⟨entries, rest'⟩, hentries, heq⟩ := Option.map_eq_some_iff.1 h
        obtain rfl := congrArg Prod.fst heq
        exact .table (hreads.fields .nil hentries)
  next => exact inRange_of_word? h

theorem items_succ (hreads : ReadsInRange fuel)
    (h : items? (fuel + 1) depth input = some (items, rest)) : ∀ value ∈ items, value.InRange := by
  rw [items?.eq_def] at h
  dsimp only at h
  split at h
  next =>
    obtain rfl := congrArg Prod.fst (Option.some.inj h)
    exact fun value hvalue => absurd hvalue List.not_mem_nil
  next =>
    split at h
    next => contradiction
    next value rest' hvalue =>
      split at h
      next =>
        obtain ⟨⟨items', rest''⟩, hitems, heq⟩ := Option.map_eq_some_iff.1 h
        obtain rfl := congrArg Prod.fst heq
        exact List.forall_mem_cons.2 ⟨hreads.value hvalue, hreads.items hitems⟩
      next =>
        obtain rfl := congrArg Prod.fst (Option.some.inj h)
        exact List.forall_mem_singleton.2 (hreads.value hvalue)
      next => contradiction

theorem fields_succ (hreads : ReadsInRange fuel) (hentries : entries.InRange)
    (h : fields? (fuel + 1) depth entries input = some (entries', rest)) : entries'.InRange := by
  rw [fields?.eq_def] at h
  dsimp only at h
  split at h
  next =>
    split at h
    next => contradiction
    next value rest' hvalue =>
      split at h
      next => contradiction
      next inserted hinsert =>
        have hinserted := hentries.insert (hreads.value hvalue) hinsert
        split at h
        next => exact hreads.fields hinserted h
        next =>
          obtain rfl := congrArg Prod.fst (Option.some.inj h)
          exact hinserted
        next => contradiction
  next => contradiction

end ReadsInRange

theorem readsInRange (fuel : Nat) : ReadsInRange fuel := by
  induction fuel with
  | zero =>
    refine ⟨fun h => ?_, fun h => ?_, fun _ h => ?_⟩
    · rw [value?.eq_def] at h
      contradiction
    · rw [items?.eq_def] at h
      contradiction
    · rw [fields?.eq_def] at h
      contradiction
  | succ fuel ih => exact ⟨ih.value_succ, ih.items_succ, ih.fields_succ⟩

end Values

section Documents

variable {fuel : Nat} {draft draft' : Draft} {input rest : List Char} {entries : Entries}

theorem inRange_of_line? (hdraft : draft.root.InRange)
    (h : line? fuel draft input = some (draft', rest)) : draft'.root.InRange := by
  rw [line?.eq_def] at h
  split at h
  next =>
    split at h
    next =>
      obtain ⟨root, hopen, heq⟩ := Option.map_eq_some_iff.1 h
      obtain rfl := congrArg Prod.fst heq
      exact hdraft.openNext hopen
    next => contradiction
  next =>
    split at h
    next =>
      obtain ⟨root, hopen, heq⟩ := Option.map_eq_some_iff.1 h
      obtain rfl := congrArg Prod.fst heq
      exact hdraft.openTable hopen
    next => contradiction
  next =>
    split at h
    next =>
      split at h
      next => contradiction
      next value rest' hvalue =>
        obtain ⟨root, hinsert, heq⟩ := Option.map_eq_some_iff.1 h
        obtain rfl := congrArg Prod.fst heq
        exact hdraft.insertIn ((readsInRange fuel).value hvalue) hinsert
    next => contradiction

theorem inRange_of_lines? (hdraft : draft.root.InRange) (h : lines? fuel draft input = some entries) :
    entries.InRange := by
  induction fuel generalizing draft input with
  | zero =>
    rw [lines?] at h
    contradiction
  | succ fuel ih =>
    rw [lines?] at h
    split at h
    next =>
      obtain rfl := Option.some.inj h
      exact hdraft
    next =>
      split at h
      next => contradiction
      next draft' rest hline =>
        split at h
        next => contradiction
        next rest' hend => exact ih (inRange_of_line? hdraft hline) h

/-- Every integer in a document fits a signed word of 64 bits. -/
theorem inRange_of_parse? (h : parse? input = some entries) : entries.InRange := by
  rw [parse?] at h
  exact inRange_of_lines? .nil h

end Documents

end ArenaMemory.Toml
