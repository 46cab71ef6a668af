import Mathlib.Data.List.Forall2
import ArenaMemory.Toml.Document

namespace ArenaMemory.Toml

/-- A line in the form that documents are written in. -/
inductive Line where
  /-- A header of one part; a spaced one has an empty line in front. -/
  | header (spaced : Bool) (name : String)
  | setting (key : String) (word : List Char)

structure IsBareKey (key : String) : Prop where
  ne_nil : key.toList ≠ []
  isBareKeyChar : ∀ c ∈ key.toList, isBareKeyChar c

/-- A word that no text, array or table starts. -/
structure IsPlainWord (word : List Char) : Prop where
  ne_nil : word ≠ []
  isWordChar : ∀ c ∈ word, isWordChar c
  not_opening : ∀ c ∈ word, c ∉ ['"', '\'', '[', '{']

namespace Line

def text : Line → List Char
  | header spaced name => (if spaced then ['\n'] else []) ++ ('[' :: name.toList ++ [']', '\n'])
  | setting key word => key.toList ++ ' ' :: '=' :: ' ' :: word ++ ['\n']

def Plain : Line → Prop
  | header _ name => IsBareKey name
  | setting key word => IsBareKey key ∧ IsPlainWord word

def extend? (draft : Draft) : Line → Option Draft
  | header _ name => (draft.root.openTable [] name).map fun root => ⟨root, [name]⟩
  | setting key word =>
    (scalar? word).bind fun value =>
      (draft.root.insertIn draft.opened [] key value).map fun root => { draft with root }

end Line

section Keys

variable {fuel : Nat} {key : String} {c d : Char} {rest : List Char}

theorem ne_of_class {p : Char → Bool} (hc : p c = true) (hd : p d = false) : c ≠ d := by
  rintro rfl
  rw [hc] at hd
  contradiction

theorem IsBareKey.exists_cons (hkey : IsBareKey key) :
    ∃ c rest, key.toList = c :: rest ∧ Toml.isBareKeyChar c = true := by
  obtain ⟨c, rest, htext⟩ := List.exists_cons_of_ne_nil hkey.ne_nil
  exact ⟨c, rest, htext, hkey.isBareKeyChar c (by simp [htext])⟩

theorem IsBareKey.append_ne {rest' : List Char} (hkey : IsBareKey key)
    (hd : Toml.isBareKeyChar d = false) :
    key.toList ++ rest ≠ d :: rest' := by
  obtain ⟨c, more, htext, hc⟩ := hkey.exists_cons
  rw [htext, List.cons_append]
  exact fun he => ne_of_class hc hd (List.cons.inj he).1

theorem isBlank_of_isBareKeyChar (hc : isBareKeyChar c = true) : isBlank c = false := by
  rw [isBlank, Bool.or_eq_false_iff, decide_eq_false_iff_not, decide_eq_false_iff_not]
  exact ⟨ne_of_class hc rfl, ne_of_class hc rfl⟩

theorem skipBlanks_eq (hc : isBlank c = false) : skipBlanks (c :: rest) = c :: rest :=
  List.dropWhile_cons_of_neg (by simp [hc])

theorem keyPart?_eq_some (hkey : IsBareKey key) (hd : isBareKeyChar d = false) :
    keyPart? fuel (key.toList ++ d :: rest) = some (key, d :: rest) := by
  have htake : (key.toList ++ d :: rest).takeWhile isBareKeyChar = key.toList := by
    rw [List.takeWhile_append_of_pos hkey.isBareKeyChar, List.takeWhile_cons_of_neg (by simp [hd]),
      List.append_nil]
  have hdrop : (key.toList ++ d :: rest).dropWhile isBareKeyChar = d :: rest := by
    rw [List.dropWhile_append_of_pos hkey.isBareKeyChar, List.dropWhile_cons_of_neg (by simp [hd])]
  rw [keyPart?.eq_def]
  split
  next heq => exact absurd heq (hkey.append_ne rfl)
  next heq => exact absurd heq (hkey.append_ne rfl)
  next =>
    rw [htake, hdrop]
    simp [hkey.ne_nil]

theorem key?_eq_some (hkey : IsBareKey key) (hd : isBareKeyChar d = false)
    (hdot : (skipBlanks (d :: rest)).head? ≠ some '.') :
    key? fuel (key.toList ++ d :: rest) = some ([], key, skipBlanks (d :: rest)) := by
  have hparts : keyParts? fuel (depthLimit - 1) (key.toList ++ d :: rest) =
      some ([key], skipBlanks (d :: rest)) := by
    obtain ⟨c, more, htext, hc⟩ := hkey.exists_cons
    have hskip : skipBlanks (key.toList ++ d :: rest) = key.toList ++ d :: rest := by
      rw [htext]
      exact skipBlanks_eq (isBlank_of_isBareKeyChar hc)
    rw [show depthLimit - 1 = 78 + 1 from rfl, keyParts?, hskip, keyPart?_eq_some hkey hd]
    dsimp only
    split
    next heq => exact absurd (by rw [heq]; rfl) hdot
    next => rfl
  rw [key?, hparts]
  rfl

end Keys

section Words

variable {fuel depth : Nat} {word rest : List Char}

theorem word?_eq (hword : ∀ c ∈ word, isWordChar c) :
    word? (word ++ '\n' :: rest) = (scalar? word).map (·, '\n' :: rest) := by
  have htake : (word ++ '\n' :: rest).takeWhile isWordChar = word := by
    rw [List.takeWhile_append_of_pos hword, List.takeWhile_cons_of_neg (by decide), List.append_nil]
  have hdrop : (word ++ '\n' :: rest).dropWhile isWordChar = '\n' :: rest := by
    rw [List.dropWhile_append_of_pos hword, List.dropWhile_cons_of_neg (by decide)]
  rw [word?, htake, hdrop]
  rfl

theorem value?_eq (hword : IsPlainWord word) :
    value? (fuel + 1) depth (word ++ '\n' :: rest) = (scalar? word).map (·, '\n' :: rest) := by
  obtain ⟨c, more, rfl⟩ := List.exists_cons_of_ne_nil hword.ne_nil
  have hopening := hword.not_opening c (by simp)
  simp only [List.mem_cons, List.not_mem_nil, or_false, not_or] at hopening
  rw [value?.eq_def]
  dsimp only
  split
  next heq => exact absurd (List.cons.inj heq).1 hopening.1
  next heq => exact absurd (List.cons.inj heq).1 hopening.2.1
  next heq => exact absurd (List.cons.inj heq).1 hopening.2.2.1
  next heq => exact absurd (List.cons.inj heq).1 hopening.2.2.2
  -- A time behind a blank would still belong to the word, but a line break follows.
  next => exact word?_eq hword.isWordChar

theorem skipBlanks_word (hword : IsPlainWord word) :
    skipBlanks (' ' :: (word ++ rest)) = word ++ rest := by
  obtain ⟨c, more, rfl⟩ := List.exists_cons_of_ne_nil hword.ne_nil
  have hblank : isBlank c = false := by
    have hc := hword.isWordChar c (by simp)
    simp only [isWordChar, Bool.not_eq_true', Bool.or_eq_false_iff] at hc
    exact hc.1.1.1.1.1.1
  rw [skipBlanks, List.dropWhile_cons_of_pos rfl]
  exact skipBlanks_eq hblank

end Words

section Lines

variable {fuel : Nat} {draft : Draft} {line : Line} {c : Char} {rest : List Char}

theorem skipLines_eq (fuel : Nat) (hblank : isBlank c = false) (hc : c ∉ ['\n', '\r', '#']) :
    skipLines fuel (c :: rest) = c :: rest := by
  cases fuel with
  | zero => rfl
  | succ fuel =>
    simp only [List.mem_cons, List.not_mem_nil, or_false, not_or] at hc
    have hcomment : skipComment (c :: rest) = c :: rest := by
      rw [skipComment.eq_def]
      split
      next heq => exact absurd (List.cons.inj heq).1 hc.2.2
      next => rfl
    have hnewline : afterNewline? (c :: rest) = none := by
      rw [afterNewline?.eq_def]
      split
      next heq => exact absurd (List.cons.inj heq).1 hc.1
      next heq => exact absurd (List.cons.inj heq).1 hc.2.1
      next => rfl
    rw [skipLines, skipBlanks_eq hblank, hcomment, hnewline]

theorem skipLines_newline : skipLines (fuel + 1) ('\n' :: rest) = skipLines fuel rest := by
  rw [skipLines, skipBlanks_eq rfl]
  rfl

theorem skipLines_key {key : String} (fuel : Nat) (hkey : IsBareKey key) :
    skipLines fuel (key.toList ++ rest) = key.toList ++ rest := by
  obtain ⟨c, more, htext, hc⟩ := hkey.exists_cons
  rw [htext]
  refine skipLines_eq fuel (isBlank_of_isBareKeyChar hc) ?_
  simp only [List.mem_cons, List.not_mem_nil, or_false, not_or]
  exact ⟨ne_of_class hc rfl, ne_of_class hc rfl, ne_of_class hc rfl⟩

theorem line?_header {name : String} (hname : IsBareKey name) :
    line? fuel draft ('[' :: (name.toList ++ ']' :: rest)) =
      (draft.root.openTable [] name).map fun root => (⟨root, [name]⟩, rest) := by
  have hkey : key? fuel (name.toList ++ ']' :: rest) = some ([], name, ']' :: rest) :=
    key?_eq_some hname rfl (by rw [skipBlanks_eq rfl]; simp)
  rw [line?.eq_def]
  split
  next heq => exact absurd (List.cons.inj heq).2 (hname.append_ne rfl)
  next heq =>
    rw [List.cons.injEq] at heq
    rw [← heq.2, hkey]
    rfl
  next hdouble hsingle => exact absurd rfl (hsingle _)

theorem line?_setting {key : String} {word : List Char} (hkey : IsBareKey key)
    (hword : IsPlainWord word) :
    line? (fuel + 1) draft (key.toList ++ ' ' :: '=' :: ' ' :: (word ++ '\n' :: rest)) =
      ((Line.setting key word).extend? draft).map fun draft => (draft, '\n' :: rest) := by
  have hequal : skipBlanks (' ' :: '=' :: ' ' :: (word ++ '\n' :: rest)) =
      '=' :: ' ' :: (word ++ '\n' :: rest) := by
    rw [skipBlanks, List.dropWhile_cons_of_pos rfl]
    exact skipBlanks_eq rfl
  have hread : key? (fuel + 1) (key.toList ++ ' ' :: '=' :: ' ' :: (word ++ '\n' :: rest)) =
      some ([], key, '=' :: ' ' :: (word ++ '\n' :: rest)) := by
    rw [key?_eq_some hkey rfl (by rw [hequal]; simp), hequal]
  rw [line?.eq_def]
  split
  next heq => exact absurd heq (hkey.append_ne rfl)
  next heq => exact absurd heq (hkey.append_ne rfl)
  next =>
    rw [hread, Line.extend?]
    simp only [skipBlanks_word hword, value?_eq hword]
    cases scalar? word with
    | none => rfl
    | some value => simp [Option.map_map, Function.comp_def]

theorem lines?_succ {input body : List Char} {result : Option Draft}
    (hskip : skipLines fuel input = body) (hne : body ≠ [])
    (hline : line? fuel draft body = result.map fun draft => (draft, '\n' :: rest)) :
    lines? (fuel + 1) draft input = result.bind fun draft => lines? fuel draft rest := by
  rw [lines?, hskip]
  split
  next => contradiction
  next =>
    rw [hline]
    cases result with
    | none => rfl
    | some draft => rfl

theorem lines?_line (hplain : line.Plain) :
    lines? (fuel + 2) draft (line.text ++ rest) =
      (line.extend? draft).bind fun draft => lines? (fuel + 1) draft rest := by
  cases line with
  | header spaced name =>
    have hskip : skipLines (fuel + 1) ((Line.header spaced name).text ++ rest) =
        '[' :: (name.toList ++ ']' :: '\n' :: rest) := by
      cases spaced with
      | false => simp [Line.text, skipLines_eq (fuel + 1) (c := '[') rfl (by decide)]
      | true => simp [Line.text, skipLines_newline, skipLines_eq fuel (c := '[') rfl (by decide)]
    refine lines?_succ hskip (List.cons_ne_nil _ _) ?_
    rw [line?_header hplain, Line.extend?, Option.map_map]
    rfl
  | setting key word =>
    obtain ⟨hkey, hword⟩ := hplain
    have htext : (Line.setting key word).text ++ rest =
        key.toList ++ ' ' :: '=' :: ' ' :: (word ++ '\n' :: rest) := by
      simp [Line.text]
    have hskip : skipLines (fuel + 1) ((Line.setting key word).text ++ rest) =
        key.toList ++ ' ' :: '=' :: ' ' :: (word ++ '\n' :: rest) := by
      rw [htext, skipLines_key _ hkey]
    exact lines?_succ hskip (by simp) (line?_setting hkey hword)

/-- A document of plain lines says what its lines say, one after the other. -/
theorem lines?_eq (lines : List Line) (hplain : ∀ line ∈ lines, line.Plain) (draft : Draft)
    (hfuel : lines.length + 1 < fuel) :
    lines? fuel draft (lines.flatMap Line.text) =
      (lines.foldlM Line.extend? draft).map Draft.root := by
  induction lines generalizing fuel draft with
  | nil =>
    obtain ⟨fuel, rfl⟩ : ∃ k, fuel = k + 1 := ⟨fuel - 1, by omega⟩
    have hskip : skipLines fuel [] = [] := by cases fuel <;> rfl
    rw [List.flatMap_nil, lines?, hskip]
    rfl
  | cons line lines ih =>
    rw [List.length_cons] at hfuel
    obtain ⟨fuel, rfl⟩ : ∃ k, fuel = k + 2 := ⟨fuel - 2, by omega⟩
    rw [List.flatMap_cons, lines?_line (hplain line (by simp)), List.foldlM_cons]
    cases hdraft : line.extend? draft with
    | none => rfl
    | some draft =>
      exact ih (fun line hline => hplain line (List.mem_cons_of_mem _ hline)) draft (by omega)

theorem Line.Plain.exists_cons (hplain : line.Plain) :
    ∃ c rest, line.text = c :: rest ∧ c ≠ '\ufeff' := by
  cases line with
  | header spaced name =>
    cases spaced with
    | false => exact ⟨_, _, rfl, by decide⟩
    | true => exact ⟨_, _, rfl, by decide⟩
  | setting key word =>
    obtain ⟨c, rest, htext, hc⟩ := hplain.1.exists_cons
    rw [Line.text, htext]
    exact ⟨_, _, rfl, ne_of_class hc (by decide)⟩

theorem length_le_text (lines : List Line) (hplain : ∀ line ∈ lines, line.Plain) :
    lines.length ≤ (lines.flatMap Line.text).length := by
  induction lines with
  | nil => exact Nat.zero_le _
  | cons line lines ih =>
    obtain ⟨hline, hrest⟩ := List.forall_mem_cons.1 hplain
    obtain ⟨c, rest, htext, -⟩ := hline.exists_cons
    have hlength := ih hrest
    rw [List.flatMap_cons, htext, List.length_append, List.length_cons, List.length_cons]
    omega

/-- What a document of plain lines says is what its lines do to an empty draft. -/
theorem parse?_eq (lines : List Line) (hplain : ∀ line ∈ lines, line.Plain) :
    parse? (lines.flatMap Line.text) = (lines.foldlM Line.extend? {}).map Draft.root := by
  have hmark : (lines.flatMap Line.text).head? ≠ some '\ufeff' := by
    cases lines with
    | nil => simp
    | cons line lines =>
      obtain ⟨c, rest, htext, hc⟩ := (hplain line (by simp)).exists_cons
      simp [htext, hc]
  have hlength := length_le_text lines hplain
  rw [parse?, if_neg hmark]
  exact lines?_eq lines hplain {} (by omega)

end Lines

namespace Line

variable {root inner entries : Entries} {name key : String} {value : Value} {opened : List String}
  {settings : List (String × List Char)} {spaced : Bool}

def ofTable (spaced : Bool) (name : String) (settings : List (String × List Char)) : List Line :=
  .header spaced name :: settings.map fun setting => .setting setting.1 setting.2

/-- The word of a setting is read as the value of an entry of the same key. -/
def Reads (setting : String × List Char) (entry : String × Value) : Prop :=
  setting.1 = entry.1 ∧ scalar? setting.2 = some entry.2

theorem plain_ofTable (hname : IsBareKey name)
    (hsettings : ∀ setting ∈ settings, IsBareKey setting.1 ∧ IsPlainWord setting.2) :
    ∀ line ∈ Line.ofTable spaced name settings, line.Plain :=
  List.forall_mem_cons.2 ⟨hname, List.forall_mem_map.2 hsettings⟩

theorem replace_append (hname : root.lookup name = none) :
    Entries.replace (root ++ [(name, .table .header inner)]) name value = root ++ [(name, value)] := by
  have hother : ∀ entry ∈ root, entry.1 ≠ name := fun entry hentry he => by
    have hne := List.lookup_eq_none_iff.1 hname entry hentry
    simp [he] at hne
  have hkeep : root.map (fun entry => if entry.1 = name then (name, value) else entry) = root :=
    (List.map_congr_left fun entry hentry => if_neg (hother entry hentry)).trans (List.map_id root)
  rw [Entries.replace, List.map_append, hkeep, List.map_singleton, if_pos rfl]

theorem insertIn_append (hname : root.lookup name = none) (hkey : inner.lookup key = none) :
    Entries.insertIn (root ++ [(name, .table .header inner)]) [name] [] key value =
      some (root ++ [(name, .table .header (inner ++ [(key, value)]))]) := by
  have hlookup : List.lookup name (root ++ [(name, .table .header inner)]) =
      some (.table .header inner) := by
    rw [List.lookup_append, hname, Option.none_or, List.lookup_cons_self]
  simp only [Entries.insertIn, Entries.update, hlookup]
  simp [Entries.insert, Entries.update, Entries.insertNew, hkey, replace_append hname]

theorem foldlM_settings (hname : root.lookup name = none) (hread : List.Forall₂ Reads settings entries)
    (hkeys : ((inner ++ entries).map Prod.fst).Nodup) :
    (settings.map fun setting => Line.setting setting.1 setting.2).foldlM extend?
        ⟨root ++ [(name, .table .header inner)], [name]⟩ =
      some ⟨root ++ [(name, .table .header (inner ++ entries))], [name]⟩ := by
  induction hread generalizing inner with
  | nil => rw [List.map_nil, List.foldlM_nil, List.append_nil]; rfl
  | @cons setting entry settings entries hfirst hrest ih =>
    obtain ⟨hkey, hvalue⟩ := hfirst
    have hnew : inner.lookup setting.1 = none := by
      rw [List.lookup_eq_none_iff]
      intro other hother
      rw [List.map_append, List.nodup_append] at hkeys
      have hne := hkeys.2.2 other.1 (List.mem_map_of_mem hother) entry.1 (by simp)
      rw [hkey, bne_iff_ne]
      exact hne.symm
    have hsplit : inner ++ entry :: entries = (inner ++ [(setting.1, entry.2)]) ++ entries := by
      rw [hkey, List.append_assoc]
      rfl
    rw [hsplit] at hkeys ⊢
    rw [List.map_cons, List.foldlM_cons, extend?, hvalue, Option.bind_some,
      insertIn_append hname hnew]
    exact ih hkeys

theorem foldlM_ofTable (hname : root.lookup name = none) (hread : List.Forall₂ Reads settings entries)
    (hkeys : (entries.map Prod.fst).Nodup) :
    (Line.ofTable spaced name settings).foldlM extend? ⟨root, opened⟩ =
      some ⟨root ++ [(name, .table .header entries)], [name]⟩ := by
  have hopen : root.openTable [] name = some (root ++ [(name, .table .header [])]) := by
    simp [Entries.openTable, Entries.update, hname]
  rw [Line.ofTable, List.foldlM_cons, extend?, hopen]
  exact foldlM_settings hname hread hkeys

end Line

end ArenaMemory.Toml
