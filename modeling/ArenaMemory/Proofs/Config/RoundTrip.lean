import ArenaMemory.Proofs.Rounding
import ArenaMemory.Proofs.Toml.Range
import ArenaMemory.Proofs.Toml.Scalar

namespace ArenaMemory

open Toml

section Words

theorem isPlainWord_sizeText (size : Word) : IsPlainWord (MemoryConfig.sizeText size) where
  ne_nil := Nat.toDigits_ne_nil
  isWordChar c hc := by
    have hdigit := isDigit_toDigits c hc
    simp [isWordChar, isBlank, ne_of_class hdigit]
  not_opening c hc := by
    have hdigit := isDigit_toDigits c hc
    simp [ne_of_class hdigit]

theorem isPlainWord_tomlText (x : Binary64) : IsPlainWord x.tomlText where
  ne_nil he := by
    obtain ⟨c, hc, -⟩ := exists_mem_tomlText x
    rw [he] at hc
    exact List.not_mem_nil hc
  isWordChar c hc := by
    obtain hdigit | hother := mem_tomlText x c hc
    · simp [isWordChar, isBlank, ne_of_class hdigit]
    · simp only [List.mem_cons, List.not_mem_nil, or_false] at hother
      obtain rfl | rfl | rfl | rfl | rfl | rfl := hother <;> rfl
  not_opening c hc := by
    obtain hdigit | hother := mem_tomlText x c hc
    · simp [ne_of_class hdigit]
    · simp only [List.mem_cons, List.not_mem_nil, or_false] at hother
      obtain rfl | rfl | rfl | rfl | rfl | rfl := hother <;> decide

end Words

structure RegionConfig.Writable (config : RegionConfig) : Prop where
  minAlign : config.minAlign ≤ MemoryConfig.maxWritten
  allocationLimit : ∀ size ∈ config.allocationLimit, size ≤ MemoryConfig.maxWritten

structure InternerConfig.Writable (config : InternerConfig) : Prop where
  initialCapacity : config.initialCapacity ≤ MemoryConfig.maxWritten
  arenaLimit : ∀ size ∈ config.arenaLimit, size ≤ MemoryConfig.maxWritten

structure MemoryConfig.Writable (config : MemoryConfig) : Prop where
  region : config.region.Writable
  interner : config.interner.Writable

namespace MemoryConfig

theorem le_maxWritten_iff {size : Word} : size ≤ maxWritten ↔ size.toNat ≤ 2 ^ 63 - 1 := by
  rw [UInt64.le_iff_toNat_le]
  rfl

section Text

variable {config : MemoryConfig} {size : Word}

/-- The settings that the text of some settings stands for. -/
def canonical (config : MemoryConfig) : MemoryConfig :=
  { config with interner.loadFactor := config.interner.loadFactor.canonical }

def regionSettings (config : MemoryConfig) : List (String × List Char) :=
  ("min_align", sizeText config.region.minAlign) ::
    config.region.allocationLimit.toList.map fun size => ("allocation_limit", sizeText size)

def internerSettings (config : MemoryConfig) : List (String × List Char) :=
  ("load_factor", config.interner.loadFactor.tomlText) ::
    ("initial_capacity", sizeText config.interner.initialCapacity) ::
    config.interner.arenaLimit.toList.map fun size => ("arena_limit", sizeText size)

def lines (config : MemoryConfig) : List Line :=
  Line.ofTable false "region" config.regionSettings ++
    Line.ofTable true "interner" config.internerSettings

def regionEntries (config : MemoryConfig) : Entries :=
  ("min_align", .integer config.region.minAlign.toNat) ::
    config.region.allocationLimit.toList.map fun size => ("allocation_limit", .integer size.toNat)

def internerEntries (config : MemoryConfig) : Entries :=
  ("load_factor", .float config.interner.loadFactor.canonical) ::
    ("initial_capacity", .integer config.interner.initialCapacity.toNat) ::
    config.interner.arenaLimit.toList.map fun size => ("arena_limit", .integer size.toNat)

def entries (config : MemoryConfig) : Entries :=
  [("region", .table .header config.regionEntries),
    ("interner", .table .header config.internerEntries)]

theorem optionalLine_eq (key : String) (size : Option Word) :
    optionalLine key size = ((size.toList.map fun size => (key, sizeText size)).map fun setting =>
      Line.setting setting.1 setting.2).flatMap Line.text := by
  cases size with
  | none => rfl
  | some size => rw [optionalLine]; simp [line, Line.text]

theorem text_eq (config : MemoryConfig) : config.text = config.lines.flatMap Line.text := by
  have hregion : "[region]\n".toList = (Line.header false "region").text := by simp [Line.text]
  have hinterner : '\n' :: "[interner]\n".toList = (Line.header true "interner").text := by
    simp [Line.text]
  have hsetting : ∀ key word, line key word = (Line.setting key word).text := fun _ _ => rfl
  unfold text
  rw [hregion, hinterner, optionalLine_eq, optionalLine_eq, hsetting, hsetting, hsetting]
  simp only [lines, Line.ofTable, regionSettings, internerSettings, List.map_cons, List.flatMap_append,
    List.flatMap_cons, List.append_assoc]

theorem isBareKey {key : String} (hkey : key ∈ ["region", "min_align", "allocation_limit", "interner",
    "load_factor", "initial_capacity", "arena_limit"]) : IsBareKey key := by
  simp only [List.mem_cons, List.not_mem_nil, or_false] at hkey
  obtain rfl | rfl | rfl | rfl | rfl | rfl | rfl := hkey <;> exact ⟨by simp, by simp; decide⟩

theorem plain_optional {key : String} (hkey : IsBareKey key) (limit : Option Word) :
    ∀ setting ∈ limit.toList.map fun size => (key, sizeText size),
      IsBareKey setting.1 ∧ IsPlainWord setting.2 :=
  List.forall_mem_map.2 fun size _ => ⟨hkey, isPlainWord_sizeText size⟩

theorem plain_lines (config : MemoryConfig) : ∀ line ∈ config.lines, line.Plain := by
  refine List.forall_mem_append.2 ⟨Line.plain_ofTable (isBareKey (by simp)) ?_,
    Line.plain_ofTable (isBareKey (by simp)) ?_⟩
  · exact List.forall_mem_cons.2 ⟨⟨isBareKey (by simp), isPlainWord_sizeText _⟩,
      plain_optional (isBareKey (by simp)) _⟩
  · exact List.forall_mem_cons.2 ⟨⟨isBareKey (by simp), isPlainWord_tomlText _⟩,
      List.forall_mem_cons.2 ⟨⟨isBareKey (by simp), isPlainWord_sizeText _⟩,
        plain_optional (isBareKey (by simp)) _⟩⟩

theorem scalar?_sizeText (hsize : size ≤ maxWritten) :
    scalar? (sizeText size) = some (.integer size.toNat) :=
  scalar?_toDigits (Nat.lt_succ_of_le hsize)

theorem reads_optional (key : String) {limit : Option Word}
    (hlimit : ∀ size ∈ limit, size ≤ maxWritten) :
    List.Forall₂ Line.Reads (limit.toList.map fun size => (key, sizeText size))
      (limit.toList.map fun size => (key, .integer size.toNat)) := by
  cases limit with
  | none => exact .nil
  | some size => exact .cons ⟨rfl, scalar?_sizeText (hlimit size rfl)⟩ .nil

theorem extend?_lines (hwritable : config.Writable) :
    config.lines.foldlM Line.extend? {} = some ⟨config.entries, ["interner"]⟩ := by
  have hregion : List.Forall₂ Line.Reads config.regionSettings config.regionEntries :=
    .cons ⟨rfl, scalar?_sizeText hwritable.region.minAlign⟩
      (reads_optional _ hwritable.region.allocationLimit)
  have hinterner : List.Forall₂ Line.Reads config.internerSettings config.internerEntries :=
    .cons ⟨rfl, scalar?_tomlText _⟩ (.cons ⟨rfl, scalar?_sizeText hwritable.interner.initialCapacity⟩
      (reads_optional _ hwritable.interner.arenaLimit))
  have hregionKeys : (config.regionEntries.map Prod.fst).Nodup := by
    rw [regionEntries]
    cases config.region.allocationLimit <;> simp
  have hinternerKeys : (config.internerEntries.map Prod.fst).Nodup := by
    rw [internerEntries]
    cases config.interner.arenaLimit <;> simp
  rw [lines, List.foldlM_append, Line.foldlM_ofTable rfl hregion hregionKeys, Option.bind_eq_bind,
    Option.bind_some, Line.foldlM_ofTable (by simp [List.lookup_cons]) hinterner hinternerKeys]
  rfl

theorem parse?_text (hwritable : config.Writable) :
    parse? config.text = some config.entries := by
  rw [text_eq, parse?_eq _ config.plain_lines, extend?_lines hwritable]
  rfl

theorem size?_integer (size : Word) : (Value.integer size.toNat).size? = some size := by
  rw [Value.size?, if_pos (Int.natCast_nonneg _), Int.toNat_natCast]
  exact Word.ofNat?_eq_some.2 rfl

theorem ofToml?_regionEntries (config : MemoryConfig) :
    RegionConfig.ofToml? (.table .header config.regionEntries) = some config.region := by
  obtain ⟨⟨minAlign, allocationLimit⟩, interner⟩ := config
  cases allocationLimit <;>
    simp [RegionConfig.ofToml?, RegionConfig.keys, Value.fields?, regionEntries, optionalField,
      size?_integer, List.lookup_cons]

theorem ofToml?_internerEntries (config : MemoryConfig) :
    InternerConfig.ofToml? (.table .header config.internerEntries) =
      some config.canonical.interner := by
  obtain ⟨region, ⟨loadFactor, initialCapacity, arenaLimit⟩⟩ := config
  cases arenaLimit <;>
    simp [InternerConfig.ofToml?, InternerConfig.keys, Value.fields?, internerEntries, optionalField,
      size?_integer, List.lookup_cons, Value.number?, canonical]

theorem ofToml?_entries (config : MemoryConfig) : ofToml? config.entries = some config.canonical := by
  simp [ofToml?, entries, ofToml?_regionEntries, ofToml?_internerEntries, optionalField,
    List.lookup_cons, canonical]

end Text

section Validation

variable {config : MemoryConfig} {input : List Char}

/-- What is no number fails validation like any other that is none. -/
theorem validate_canonical (config : MemoryConfig) : config.canonical.validate = config.validate := by
  have hinterner : config.canonical.interner.validate = config.interner.validate := by
    cases hnan : config.interner.loadFactor.isNaN with
    | false =>
      rw [canonical, Binary64.canonical_of_not_isNaN hnan]
    | true =>
      have hunit : config.interner.loadFactor.inUnitInterval = false := by
        by_contra hunit
        rw [Bool.not_eq_false] at hunit
        rw [Binary64.not_isNaN_of_inUnitInterval hunit] at hnan
        contradiction
      have hdisplay : config.interner.loadFactor.display = Binary64.nan.display := by
        rw [Binary64.display, if_pos hnan]
        rfl
      have hnanUnit : Binary64.nan.inUnitInterval = false := by decide
      simp only [InternerConfig.validate, canonical, Binary64.canonical_of_isNaN hnan, hunit, hnanUnit,
        hdisplay]
  rw [validate, validate, hinterner]
  rfl

theorem inUnitInterval_of_validate (h : config.validate = .ok ()) :
    config.interner.loadFactor.inUnitInterval = true := by
  rw [validate] at h
  cases hregion : config.region.validate with
  | error setting =>
    rw [hregion] at h
    contradiction
  | ok =>
    rw [hregion] at h
    change config.interner.validate = .ok () at h
    rw [InternerConfig.validate] at h
    split at h
    next => contradiction
    next hunit => simpa using hunit

theorem canonical_of_validate (h : config.validate = .ok ()) : config.canonical = config := by
  rw [canonical, Binary64.canonical_of_not_isNaN
    (Binary64.not_isNaN_of_inUnitInterval (inUnitInterval_of_validate h))]

theorem same_of_validate (h : config.validate = .ok ()) : config.same config = true := by
  have hnan := Binary64.not_isNaN_of_inUnitInterval (inUnitInterval_of_validate h)
  simp [same, Binary64.same, hnan]

theorem parse_text (hwritable : config.Writable) :
    parse config.text = match config.validate with
      | .ok () => .ok config
      | .error setting => .error (.invalid setting) := by
  rw [parse, parse?_text hwritable, Option.bind_some, ofToml?_entries]
  dsimp only
  rw [validate_canonical]
  cases hvalid : config.validate with
  | ok => rw [canonical_of_validate hvalid]
  | error setting => rfl

theorem parse_eq_ok (h : parse input = .ok config) :
    (parse? input).bind ofToml? = some config ∧ config.validate = .ok () := by
  rw [parse] at h
  split at h
  next => contradiction
  next read hread =>
    split at h
    next hvalid =>
      obtain rfl := Except.ok.inj h
      exact ⟨hread, hvalid⟩
    next => contradiction

end Validation

section Sizes

variable {config : MemoryConfig} {region : RegionConfig} {interner : InternerConfig}
  {input : List Char} {value : Value} {size : Word}

theorem size?_le (hvalue : value.InRange) (hsize : value.size? = some size) : size ≤ maxWritten := by
  cases hvalue with
  | @integer n hlow hhigh =>
    rw [Value.size?] at hsize
    split at hsize
    next hn =>
      have hword := Word.ofNat?_eq_some.1 hsize
      rw [le_maxWritten_iff, hword]
      omega
    next => contradiction
  | _ => contradiction

theorem optionalField_some {α : Type} {read : Value → Option α} {default result : α} {p : α → Prop}
    {field : Option Value} (hdefault : p default)
    (hread : ∀ value ∈ field, ∀ result, read value = some result → p result)
    (h : optionalField read default field = some result) : p result := by
  cases field with
  | none =>
    obtain rfl := Option.some.inj h
    exact hdefault
  | some value => exact hread value rfl result h

theorem inRange_of_fields? {keys : List String} {fields : List (Option Value)} (hvalue : value.InRange)
    (h : value.fields? keys = some fields) : ∀ field ∈ fields, ∀ value ∈ field, value.InRange := by
  intro field hfield read hread
  cases hvalue with
  | @table form entries hentries =>
    obtain rfl := Option.some.inj h
    obtain ⟨key, -, rfl⟩ := List.mem_map.1 hfield
    exact Entries.InRange.lookup hentries hread
  | @array items hitems =>
    obtain rfl := Option.some.inj h
    obtain ⟨i, -, rfl⟩ := List.mem_map.1 hfield
    exact hitems read (List.mem_of_getElem? hread)
  | @tables items hitems =>
    obtain rfl := Option.some.inj h
    obtain ⟨i, -, rfl⟩ := List.mem_map.1 hfield
    obtain ⟨entries, hentries, rfl⟩ := Option.map_eq_some_iff.1 hread
    exact .table (hitems entries (List.mem_of_getElem? hentries))
  | moment text =>
    obtain rfl := Option.some.inj h
    obtain ⟨key, -, rfl⟩ := List.mem_map.1 hfield
    contradiction
  | _ => contradiction

theorem size_le_of_optionalField {default : Word} {field : Option Value}
    (hdefault : default ≤ maxWritten) (hfield : ∀ value ∈ field, value.InRange)
    (h : optionalField Value.size? default field = some size) : size ≤ maxWritten :=
  optionalField_some (p := (· ≤ maxWritten)) hdefault
    (fun value hvalue _ hread => size?_le (hfield value hvalue) hread) h

theorem limit_le_of_optionalField {limit : Option Word} {field : Option Value}
    (hfield : ∀ value ∈ field, value.InRange)
    (h : optionalField (fun value => value.size?.map some) none field = some limit) :
    ∀ size ∈ limit, size ≤ maxWritten := by
  refine optionalField_some (p := fun limit : Option Word => ∀ size ∈ limit, size ≤ maxWritten)
    (fun _ hsize => absurd hsize (by simp)) (fun value hvalue result hread => ?_) h
  obtain ⟨size, hsize, rfl⟩ := Option.map_eq_some_iff.1 hread
  exact fun other hother => Option.some.inj hother ▸ size?_le (hfield value hvalue) hsize

theorem writable_region (hvalue : value.InRange) (h : RegionConfig.ofToml? value = some region) :
    region.Writable := by
  rw [RegionConfig.ofToml?] at h
  split at h
  next minAlign allocationLimit hfields =>
    have hrange := inRange_of_fields? hvalue hfields
    obtain ⟨align, halign, h⟩ := Option.bind_eq_some_iff.1 h
    obtain ⟨limit, hlimit, h⟩ := Option.bind_eq_some_iff.1 h
    obtain rfl := Option.some.inj h
    exact ⟨size_le_of_optionalField (by decide) (hrange minAlign (by simp)) halign,
      limit_le_of_optionalField (hrange allocationLimit (by simp)) hlimit⟩
  next => contradiction

theorem writable_interner (hvalue : value.InRange) (h : InternerConfig.ofToml? value = some interner) :
    interner.Writable := by
  rw [InternerConfig.ofToml?] at h
  split at h
  next loadFactor initialCapacity arenaLimit hfields =>
    have hrange := inRange_of_fields? hvalue hfields
    obtain ⟨factor, -, h⟩ := Option.bind_eq_some_iff.1 h
    obtain ⟨capacity, hcapacity, h⟩ := Option.bind_eq_some_iff.1 h
    obtain ⟨limit, hlimit, h⟩ := Option.bind_eq_some_iff.1 h
    obtain rfl := Option.some.inj h
    exact ⟨size_le_of_optionalField (by decide) (hrange initialCapacity (by simp)) hcapacity,
      limit_le_of_optionalField (hrange arenaLimit (by simp)) hlimit⟩
  next => contradiction

theorem writable_of_parse (h : parse input = .ok config) : config.Writable := by
  obtain ⟨entries, hentries, hread⟩ := Option.bind_eq_some_iff.1 (parse_eq_ok h).1
  have hrange := inRange_of_parse? hentries
  obtain ⟨region, hregion, hread⟩ := Option.bind_eq_some_iff.1 hread
  obtain ⟨interner, hinterner, hread⟩ := Option.bind_eq_some_iff.1 hread
  obtain rfl := Option.some.inj hread
  exact {
    region := optionalField_some (p := RegionConfig.Writable) ⟨by decide, by simp⟩
      (fun _ hvalue _ => writable_region (hrange.lookup hvalue)) hregion
    interner := optionalField_some (p := InternerConfig.Writable) ⟨by decide, by simp⟩
      (fun _ hvalue _ => writable_interner (hrange.lookup hvalue)) hinterner }

end Sizes

section Writing

variable {config : MemoryConfig} {size : Word}

def Names (config : MemoryConfig) (size : Word) : Prop :=
  config.region.minAlign = size ∨ config.region.allocationLimit = some size ∨
    config.interner.initialCapacity = size ∨ config.interner.arenaLimit = some size

theorem writable_iff : config.Writable ↔ ∀ size, config.Names size → size.toNat ≤ 2 ^ 63 - 1 := by
  simp only [← le_maxWritten_iff]
  constructor
  · rintro ⟨⟨hminAlign, hallocation⟩, ⟨hcapacity, harena⟩⟩ size (rfl | hsize | rfl | hsize)
    · exact hminAlign
    · exact hallocation size hsize
    · exact hcapacity
    · exact harena size hsize
  · intro h
    exact ⟨⟨h _ (.inl rfl), fun size hsize => h size (.inr (.inl hsize))⟩,
      ⟨h _ (.inr (.inr (.inl rfl))), fun size hsize => h size (.inr (.inr (.inr hsize)))⟩⟩

theorem all_sizes_iff : config.sizes.all (· ≤ maxWritten) = true ↔ config.Writable := by
  rw [List.all_eq_true, writable_iff]
  simp only [decide_eq_true_eq, le_maxWritten_iff]
  refine forall_congr' fun size => imp_congr_left ?_
  simp [sizes, Names, eq_comm]

theorem write_of_writable (hwritable : config.Writable) : config.write = .ok config.text :=
  if_pos (all_sizes_iff.2 hwritable)

theorem write_eq_error_iff : config.write = .error .serialize ↔ ¬ config.Writable := by
  rw [← all_sizes_iff, write]
  split <;> simp_all

/-- Writing fails only for a size beyond the signed words, and what is written is read as the
settings themselves. Settings that are not valid are refused for the same field and reason. -/
theorem round_trip (config : MemoryConfig) :
    (config.write = .error .serialize ↔ ∃ size, config.Names size ∧ 2 ^ 63 - 1 < size.toNat) ∧
    ((∀ size, config.Names size → size.toNat ≤ 2 ^ 63 - 1) →
      ∃ text, config.write = .ok text ∧
        match config.validate with
        | .ok () => parse text = .ok config ∧ config.same config = true
        | .error setting => parse text = .error (.invalid setting)) ∧
    ∀ input, parse input = .ok config →
      ∃ text, config.write = .ok text ∧ parse text = .ok config ∧ config.same config = true := by
  refine ⟨?_, fun hsizes => ?_, fun input hread => ?_⟩
  · rw [write_eq_error_iff, writable_iff]
    simp only [not_forall, not_le, exists_prop]
  · have hwritable := writable_iff.2 hsizes
    refine ⟨config.text, write_of_writable hwritable, ?_⟩
    have htext := parse_text hwritable
    cases hvalid : config.validate with
    | ok =>
      rw [hvalid] at htext
      exact ⟨htext, same_of_validate hvalid⟩
    | error setting =>
      rw [hvalid] at htext
      exact htext
  · have hwritable := writable_of_parse hread
    have hvalid := (parse_eq_ok hread).2
    have htext := parse_text hwritable
    rw [hvalid] at htext
    exact ⟨config.text, write_of_writable hwritable, htext, same_of_validate hvalid⟩

theorem round_trip_extremes :
    MemoryConfig.write ⟨⟨1, some 0x8000000000000000⟩, {}⟩ = .error .serialize ∧
    (∃ text, MemoryConfig.write ⟨{}, ⟨⟨0xFFF8000000000001⟩, 64, none⟩⟩ = .ok text ∧
      parse text = .error (.invalid ⟨"interner.load_factor", "NaN is outside (0, 1)"⟩)) ∧
    (∃ text, MemoryConfig.write ⟨⟨16, some 0x7FFFFFFFFFFFFFFF⟩, ⟨⟨1⟩, 0, some 0⟩⟩ = .ok text ∧
      parse text = .ok ⟨⟨16, some 0x7FFFFFFFFFFFFFFF⟩, ⟨⟨1⟩, 0, some 0⟩⟩) ∧
    parse "cache = [1, [2]]\n[interner]\nload_factor = 25e-2\n".toList =
      .ok ⟨{}, ⟨⟨0x3FD0000000000000⟩, 64, none⟩⟩ ∧
    ∃ text, MemoryConfig.write ⟨{}, ⟨⟨0x3FD0000000000000⟩, 64, none⟩⟩ = .ok text ∧
      parse text = .ok ⟨{}, ⟨⟨0x3FD0000000000000⟩, 64, none⟩⟩ := by
  have hsizes : ∀ config : MemoryConfig, config.sizes.all (· ≤ maxWritten) = true →
      ∀ size, config.Names size → size.toNat ≤ 2 ^ 63 - 1 := fun _ hall =>
    writable_iff.1 (all_sizes_iff.1 hall)
  have hdocument : parse "cache = [1, [2]]\n[interner]\nload_factor = 25e-2\n".toList =
      .ok ⟨{}, ⟨⟨0x3FD0000000000000⟩, 64, none⟩⟩ := by decide +kernel
  refine ⟨(round_trip _).1.2 ⟨0x8000000000000000, .inr (.inl rfl), by decide⟩, ?_, ?_, hdocument, ?_⟩
  · obtain ⟨text, hwrite, hread⟩ :=
      (round_trip ⟨{}, ⟨⟨0xFFF8000000000001⟩, 64, none⟩⟩).2.1 (hsizes _ (by decide))
    exact ⟨text, hwrite, hread⟩
  · obtain ⟨text, hwrite, hread⟩ :=
      (round_trip ⟨⟨16, some 0x7FFFFFFFFFFFFFFF⟩, ⟨⟨1⟩, 0, some 0⟩⟩).2.1 (hsizes _ (by decide))
    exact ⟨text, hwrite, hread.1⟩
  · obtain ⟨text, hwrite, hread, -⟩ := (round_trip _).2.2 _ hdocument
    exact ⟨text, hwrite, hread⟩

end Writing

end MemoryConfig

end ArenaMemory
